import Mathlib.Data.List.Forall2
import Mathlib.Logic.Relation
import StyleAudit.Proofs.Module.FunctionIndex
import StyleAudit.Rule.Extraction

/-!
# Chains of field extractions

A chain are successive expressions of a block that bind variables to fields picked
out of one value, or out of a variable bound earlier in the chain (`IsChain`). The
rule reports the longest chains of three and more, each once: `check_reportsChains`.

The rule passes over a block once and keeps the chain that is open. A later chain
that starts inside of an open one cannot outlast it (`IsChain.stop_le`), so that
nothing is lost when a chain is closed and the next one starts behind it.
-/

namespace StyleAudit

/-! ## What a binding extracts -/

/-- A node picks a field out of its first child: it is an access, or a call that
counts as one. -/
def Node.PicksFrom (n base : Node) : Prop :=
  n.children.head? = some base ∧
    (n.kind = .access ∨ n.kind = .call ∧ n.qualifiedName ∈ Extraction.fieldAccessors)

namespace Extraction

/-- The expression binds the variable of the first name to a field of the variable
of the second one, or to a field of such a field. -/
inductive Extracts : Node → String → String → Prop
  | intro {expression pattern value root : Node} {rest : List Node}
      (isMatch : expression.kind = .matchExpr)
      (parts : expression.children = pattern :: value :: rest) (bound : pattern.kind = .var)
      (picks : Relation.TransGen Node.PicksFrom value root) (isBase : root.kind = .var) :
      Extracts expression pattern.name root.name

section AccessChains

variable {n base root : Node} {depth : Nat}

theorem accessChain_of_picksFrom (picks : n.PicksFrom base) :
    n.accessChain fieldAccessors =
      ((base.accessChain fieldAccessors).1 + 1, (base.accessChain fieldAccessors).2) := by
  obtain ⟨kind, span, attributes, children⟩ := n
  obtain ⟨isFirst, isHop⟩ := picks
  obtain ⟨rest, rfl⟩ := List.head?_eq_some_iff.mp isFirst
  rw [Node.accessChain, if_pos (by simpa using isHop)]

theorem accessChain_of_not_picksFrom (ends : ∀ base, ¬n.PicksFrom base) :
    n.accessChain fieldAccessors = (0, n) := by
  obtain ⟨kind, span, attributes, children⟩ := n
  cases children with
  | nil => rfl
  | cons first rest =>
      rw [Node.accessChain, if_neg]
      intro isHop
      exact ends first ⟨rfl, by simpa using isHop⟩

theorem not_picksFrom_of_var (isVar : n.kind = .var) : ¬n.PicksFrom base := by
  rintro ⟨_, isAccess | ⟨isCall, _⟩⟩
  · rw [isVar] at isAccess
    cases isAccess
  · rw [isVar] at isCall
    cases isCall

/-- The chain of accesses leads to a variable, in no hop if the node is one. -/
theorem snd_accessChain_eq_iff (isVar : root.kind = .var) :
    (n.accessChain fieldAccessors).2 = root ↔ Relation.ReflTransGen Node.PicksFrom n root := by
  induction n using Node.childInduction with
  | step n inductionHypothesis =>
      rw [Relation.ReflTransGen.cases_head_iff]
      by_cases goesOn : ∃ base, n.PicksFrom base
      · obtain ⟨base, picks⟩ := goesOn
        have member : base ∈ n.children := List.mem_of_mem_head? picks.1
        rw [accessChain_of_picksFrom picks, inductionHypothesis base member]
        constructor
        · intro further
          exact Or.inr ⟨base, picks, further⟩
        · rintro (rfl | ⟨other, alsoPicks, further⟩)
          · exact absurd picks (not_picksFrom_of_var isVar)
          · have same : other = base := Option.some.inj (alsoPicks.1.symm.trans picks.1)
            exact same ▸ further
      · have ends : ∀ base, ¬n.PicksFrom base := not_exists.mp goesOn
        rw [accessChain_of_not_picksFrom ends]
        constructor
        · exact Or.inl
        · rintro (same | ⟨base, picks, _⟩)
          · exact same
          · exact absurd picks (ends base)

/-- A base is found for what picks a field, in one or more hops, out of a variable. -/
theorem accessRoot?_eq_some_iff {name : String} :
    (∃ depth, n.accessRoot? fieldAccessors = some (name, depth)) ↔
      ∃ root, Relation.TransGen Node.PicksFrom n root ∧ root.kind = .var ∧ root.name = name := by
  simp only [Node.accessRoot?, Option.ite_none_right_eq_some, Option.some.injEq, Prod.mk.injEq]
  by_cases goesOn : ∃ base, n.PicksFrom base
  · obtain ⟨base, picks⟩ := goesOn
    have same : ∀ other, n.PicksFrom other → other = base := fun other alsoPicks =>
      Option.some.inj (alsoPicks.1.symm.trans picks.1)
    simp only [accessChain_of_picksFrom picks, Nat.zero_lt_succ, true_and]
    constructor
    · rintro ⟨_, isVar, named, _⟩
      refine ⟨_, Relation.TransGen.head' picks ?_, isVar, named⟩
      exact (snd_accessChain_eq_iff isVar).mp rfl
    · rintro ⟨root, path, isVar, named⟩
      obtain ⟨other, alsoPicks, further⟩ := Relation.TransGen.head'_iff.mp path
      rw [same other alsoPicks, ← snd_accessChain_eq_iff isVar] at further
      exact ⟨_, by rw [further]; exact isVar, by rw [further]; exact named, rfl⟩
  · have ends : ∀ base, ¬n.PicksFrom base := not_exists.mp goesOn
    rw [accessChain_of_not_picksFrom ends]
    constructor
    · rintro ⟨_, ⟨impossible, _⟩, _⟩
      exact absurd impossible (Nat.lt_irrefl 0)
    · rintro ⟨root, path, _⟩
      obtain ⟨base, picks, _⟩ := Relation.TransGen.head'_iff.mp path
      exact absurd picks (ends base)

/-- What counts as an extraction: a variable bound to a field of another one. -/
theorem extraction?_eq_some_iff {expression : Node} {name base : String} :
    extraction? expression = some (name, base) ↔ Extracts expression name base := by
  rw [extraction?]
  constructor
  · intro found
    split at found
    · rename_i pattern value rest isMatch parts
      split at found
      · rename_i bound
        obtain ⟨⟨origin, depth⟩, chain, same⟩ := Option.map_eq_some_iff.mp found
        cases same
        obtain ⟨root, picks, isBase, rfl⟩ := accessRoot?_eq_some_iff.mp ⟨depth, chain⟩
        exact .intro isMatch parts bound picks isBase
      · cases found
    · cases found
  · intro extracts
    cases extracts with
    | @intro pattern value root rest isMatch parts bound picks isBase =>
        obtain ⟨depth, chain⟩ := accessRoot?_eq_some_iff.mpr ⟨root, picks, isBase, rfl⟩
        simp only [isMatch, parts, if_pos bound, chain, Option.map_some]

end AccessChains

/-! ## Chains -/

/-- Successive expressions of a block: so many from a position on. -/
structure Stretch where
  first : Nat
  length : Nat

/-- The position behind the last expression. -/
def Stretch.stop (stretch : Stretch) : Nat :=
  stretch.first + stretch.length

/-- The expressions are a chain: each binds a variable to a field, and all but the first
one pick it out of the base of the first one or out of a variable bound before. -/
def IsChain (expressions : List Node) (stretch : Stretch) : Prop :=
  0 < stretch.length ∧ ∃ names bases : Nat → String,
    (∀ place, stretch.first ≤ place → place < stretch.stop →
      ∃ expression, expressions[place]? = some expression ∧
        Extracts expression (names place) (bases place)) ∧
    ∀ place, stretch.first < place → place < stretch.stop →
      bases place = bases stretch.first ∨
        ∃ earlier, stretch.first ≤ earlier ∧ earlier < place ∧ bases place = names earlier

/-- The name bound at a position and the one that its field is picked out of. -/
def bindingAt? (expressions : List Node) (place : Nat) : Option (String × String) :=
  expressions[place]?.bind extraction?

/-- In a chain that starts at a position, what is bound at a later one may be picked out
of the variable. -/
def IsRoot (expressions : List Node) (first place : Nat) (base : String) : Prop :=
  (∃ name, bindingAt? expressions first = some (name, base)) ∨
    ∃ earlier origin, first ≤ earlier ∧ earlier < place ∧
      bindingAt? expressions earlier = some (base, origin)

section Chains

variable {expressions : List Node} {first length place later : Nat} {name base : String}
  {stretch other : Stretch}

theorem bindingAt?_eq_some_iff :
    bindingAt? expressions place = some (name, base) ↔
      ∃ expression, expressions[place]? = some expression ∧ Extracts expression name base := by
  rw [bindingAt?, Option.bind_eq_some_iff]
  simp only [extraction?_eq_some_iff]

theorem IsRoot.mono (isRoot : IsRoot expressions first place base) (further : place ≤ later) :
    IsRoot expressions first later base := by
  rcases isRoot with isBase | ⟨earlier, origin, after, before, binds⟩
  · exact Or.inl isBase
  · exact Or.inr ⟨earlier, origin, after, Nat.lt_of_lt_of_le before further, binds⟩

/-- A stretch is a chain exactly when each of its expressions extracts, the later
ones from a root of those before. -/
theorem isChain_iff :
    IsChain expressions stretch ↔ 0 < stretch.length ∧
      ∀ place, stretch.first ≤ place → place < stretch.stop →
        ∃ name base, bindingAt? expressions place = some (name, base) ∧
          (stretch.first < place → IsRoot expressions stretch.first place base) := by
  refine and_congr_right fun isLong => ?_
  have firstInside : stretch.first < stretch.stop := Nat.lt_add_of_pos_right isLong
  constructor
  · rintro ⟨names, bases, extracts, linked⟩ place after before
    have binds : ∀ place, stretch.first ≤ place → place < stretch.stop →
        bindingAt? expressions place = some (names place, bases place) :=
      fun place after before => bindingAt?_eq_some_iff.mpr (extracts place after before)
    refine ⟨names place, bases place, binds place after before, fun behind => ?_⟩
    rcases linked place behind before with same | ⟨earlier, afterFirst, beforePlace, same⟩
    · rw [same]
      exact Or.inl ⟨_, binds stretch.first (Nat.le_refl _) firstInside⟩
    · rw [same]
      exact Or.inr ⟨earlier, _, afterFirst, beforePlace,
        binds earlier afterFirst (Nat.lt_trans beforePlace before)⟩
  · intro each
    refine ⟨fun place => ((bindingAt? expressions place).getD ("", "")).1,
      fun place => ((bindingAt? expressions place).getD ("", "")).2, ?_, ?_⟩
    · intro place after before
      obtain ⟨name, base, binds, _⟩ := each place after before
      simp only [binds, Option.getD_some]
      exact bindingAt?_eq_some_iff.mp binds
    · intro place behind before
      obtain ⟨name, base, binds, linked⟩ := each place (Nat.le_of_lt behind) before
      simp only [binds, Option.getD_some]
      rcases linked behind with ⟨_, isBase⟩ | ⟨earlier, origin, after, beforePlace, isName⟩
      · exact Or.inl (by rw [isBase, Option.getD_some])
      · exact Or.inr ⟨earlier, after, beforePlace, by rw [isName, Option.getD_some]⟩

theorem isChain_one (binds : bindingAt? expressions first = some (name, base)) :
    IsChain expressions ⟨first, 1⟩ := by
  refine isChain_iff.mpr ⟨Nat.one_pos, fun place after before => ?_⟩
  have same : place = first := Nat.le_antisymm (Nat.le_of_lt_succ before) after
  rw [same]
  exact ⟨name, base, binds, fun behind => absurd behind (Nat.lt_irrefl _)⟩

/-- A chain goes on with a binding that picks a field out of one of its roots. -/
theorem isChain_succ_iff (isLong : 0 < length) :
    IsChain expressions ⟨first, length + 1⟩ ↔ IsChain expressions ⟨first, length⟩ ∧
      ∃ name base, bindingAt? expressions (first + length) = some (name, base) ∧
        IsRoot expressions first (first + length) base := by
  rw [isChain_iff, isChain_iff]
  simp only [Stretch.stop]
  constructor
  · rintro ⟨_, each⟩
    obtain ⟨name, base, binds, linked⟩ := each (first + length) (by omega) (by omega)
    exact ⟨⟨isLong, fun place after before => each place after (by omega)⟩,
      name, base, binds, linked (by omega)⟩
  · rintro ⟨⟨_, each⟩, name, base, binds, isRoot⟩
    refine ⟨by omega, fun place after before => ?_⟩
    by_cases isLast : place = first + length
    · rw [isLast]
      exact ⟨name, base, binds, fun _ => isRoot⟩
    · exact each place after (by omega)

/-- A chain that starts inside of another one has no other roots. -/
theorem IsChain.isRoot (chain : IsChain expressions stretch) {inner : Nat}
    (after : stretch.first ≤ inner) (before : inner < stretch.stop)
    (isRoot : IsRoot expressions inner place base) (behind : inner ≤ place) :
    IsRoot expressions stretch.first place base := by
  rcases isRoot with ⟨name, isBase⟩ | ⟨earlier, origin, afterInner, beforePlace, binds⟩
  · rcases Nat.eq_or_lt_of_le after with same | inside
    · rw [same]
      exact Or.inl ⟨name, isBase⟩
    · obtain ⟨_, _, binds, linked⟩ := (isChain_iff.mp chain).2 inner after before
      rw [isBase] at binds
      cases binds
      exact (linked inside).mono behind
  · exact Or.inr ⟨earlier, origin, Nat.le_trans after afterInner, beforePlace, binds⟩

/-- A chain that starts inside of a longest one ends inside of it. -/
theorem IsChain.stop_le (chain : IsChain expressions stretch)
    (longest : ¬IsChain expressions ⟨stretch.first, stretch.length + 1⟩)
    (inner : IsChain expressions other) (after : stretch.first ≤ other.first)
    (before : other.first < stretch.stop) : other.stop ≤ stretch.stop := by
  by_contra outlasts
  apply longest
  obtain ⟨_, each⟩ := isChain_iff.mp inner
  obtain ⟨name, base, binds, linked⟩ :=
    each stretch.stop (Nat.le_of_lt before) (Nat.not_le.mp outlasts)
  refine (isChain_succ_iff chain.1).mpr ⟨chain, name, base, binds, ?_⟩
  exact chain.isRoot after before (linked before) (Nat.le_of_lt before)

end Chains

/-! ## Reported chains -/

/-- The finding stands at the first expression and states the length. -/
def IsAbout (expressions : List Node) (stretch : Stretch) (finding : Finding) : Prop :=
  ∃ expression, expressions[stretch.first]? = some expression ∧
    finding.span = expression.span ∧
    finding.message = s!"{stretch.length} successive bindings pick fields out of one value; " ++
      "destructure it with a single pattern match."

/-- The findings are about the longest chains of three and more expressions that do not
start before a position. -/
structure ReportsChains (expressions : List Node) (start : Nat) (reported : List Stretch)
    (findings : List Finding) : Prop where
  each : List.Forall₂ (IsAbout expressions) reported findings
  behind : ∀ stretch ∈ reported, start ≤ stretch.first
  chains : ∀ stretch ∈ reported, IsChain expressions stretch ∧ 3 ≤ stretch.length
  /-- A reported chain does not go on to the right. -/
  longest : ∀ stretch ∈ reported, ¬IsChain expressions ⟨stretch.first, stretch.length + 1⟩
  disjoint : reported.Pairwise fun earlier later => earlier.stop ≤ later.first
  /-- No chain of three or more is missed. -/
  covers : ∀ stretch, start ≤ stretch.first → IsChain expressions stretch →
    3 ≤ stretch.length → ∃ other ∈ reported,
      other.first ≤ stretch.first ∧ stretch.stop ≤ other.stop

/-- The run that is open before a position: a chain, with all its roots. -/
structure Run.IsOpen (run : Run) (expressions : List Node) (stretch : Stretch) : Prop where
  chain : IsChain expressions stretch
  first : expressions[stretch.first]? = some run.first
  length : run.length = stretch.length
  roots : ∀ base, base ∈ run.roots ↔ IsRoot expressions stretch.first stretch.stop base

section Reports

variable {expressions : List Node} {start : Nat} {reported : List Stretch} {run : Run}
  {findings : List Finding} {stretch : Stretch}

theorem reportsChains_nil (ends : expressions.length ≤ start) :
    ReportsChains expressions start [] [] := by
  refine ⟨.nil, by simp, by simp, by simp, .nil, ?_⟩
  intro stretch behind chain isLong
  obtain ⟨_, _, binds, _⟩ := (isChain_iff.mp chain).2 stretch.first (Nat.le_refl _)
    (Nat.lt_add_of_pos_right chain.1)
  rw [bindingAt?, List.getElem?_eq_none (Nat.le_trans ends behind)] at binds
  cases binds

/-- No chain starts at an expression that is no binding. -/
theorem ReportsChains.skip (reports : ReportsChains expressions (start + 1) reported findings)
    (unbound : bindingAt? expressions start = none) :
    ReportsChains expressions start reported findings := by
  refine { reports with behind := ?_, covers := ?_ }
  · intro stretch member
    exact Nat.le_of_succ_le (reports.behind stretch member)
  · intro stretch behind chain isLong
    rcases Nat.eq_or_lt_of_le behind with same | later
    · obtain ⟨_, _, binds, _⟩ := (isChain_iff.mp chain).2 stretch.first (Nat.le_refl _)
        (Nat.lt_add_of_pos_right chain.1)
      rw [← same, unbound] at binds
      cases binds
    · exact reports.covers stretch later chain isLong

/-- A run that does not go on is reported if it is long enough. -/
theorem ReportsChains.close
    (reports : ReportsChains expressions stretch.stop reported findings)
    (isOpen : run.IsOpen expressions stretch)
    (longest : ¬IsChain expressions ⟨stretch.first, stretch.length + 1⟩) :
    ∃ more, ReportsChains expressions stretch.first more (run.finding ++ findings) := by
  have inside : stretch.first ≤ stretch.stop := Nat.le_add_right _ _
  have within : ∀ other, stretch.first ≤ other.first → other.first < stretch.stop →
      IsChain expressions other → other.stop ≤ stretch.stop :=
    fun other after before chain => isOpen.chain.stop_le longest chain after before
  rw [Run.finding, isOpen.length, shortestChain]
  by_cases isShort : stretch.length < 3
  · rw [if_pos isShort]
    refine ⟨reported, { reports with behind := ?_, covers := ?_ }⟩
    · intro other member
      exact Nat.le_trans inside (reports.behind other member)
    · intro other after chain isLong
      by_cases before : other.first < stretch.stop
      · have ends := within other after before chain
        simp only [Stretch.stop] at ends
        omega
      · exact reports.covers other (Nat.not_lt.mp before) chain isLong
  · rw [if_neg isShort]
    refine ⟨stretch :: reported, .cons ⟨run.first, isOpen.first, rfl, rfl⟩ reports.each, ?_, ?_,
      ?_, List.pairwise_cons.mpr ⟨reports.behind, reports.disjoint⟩, ?_⟩
    · rw [List.forall_mem_cons]
      exact ⟨Nat.le_refl _, fun other member => Nat.le_trans inside (reports.behind other member)⟩
    · exact List.forall_mem_cons.mpr ⟨⟨isOpen.chain, Nat.not_lt.mp isShort⟩, reports.chains⟩
    · exact List.forall_mem_cons.mpr ⟨longest, reports.longest⟩
    · intro other after chain isLong
      by_cases before : other.first < stretch.stop
      · exact ⟨stretch, List.mem_cons_self, after, within other after before chain⟩
      · obtain ⟨found, member, covers⟩ :=
          reports.covers other (Nat.not_lt.mp before) chain isLong
        exact ⟨found, List.mem_cons_of_mem _ member, covers⟩

/-- An extraction opens a run of length one. -/
theorem isOpen_first {expression : Node} {name base : String}
    (here : expressions[start]? = some expression)
    (binds : bindingAt? expressions start = some (name, base)) :
    (Run.mk expression 1 [name, base]).IsOpen expressions ⟨start, 1⟩ := by
  refine ⟨isChain_one binds, here, rfl, fun origin => ?_⟩
  rw [List.mem_cons, List.mem_singleton]
  constructor
  · rintro (rfl | rfl)
    · exact Or.inr ⟨start, base, Nat.le_refl _, Nat.lt_succ_self _, binds⟩
    · exact Or.inl ⟨name, binds⟩
  · rintro (⟨_, isBase⟩ | ⟨earlier, _, after, before, isName⟩)
    · rw [binds] at isBase
      cases isBase
      exact Or.inr rfl
    · have same : earlier = start := Nat.le_antisymm (Nat.le_of_lt_succ before) after
      rw [same, binds] at isName
      cases isName
      exact Or.inl rfl

/-- A binding from a root of the run belongs to the run, and its name is one more root. -/
theorem Run.IsOpen.extend (isOpen : run.IsOpen expressions stretch) {name base : String}
    (binds : bindingAt? expressions stretch.stop = some (name, base)) (isRoot : base ∈ run.roots) :
    (Run.mk run.first (run.length + 1) (name :: run.roots)).IsOpen expressions
      ⟨stretch.first, stretch.length + 1⟩ := by
  have longer := (isChain_succ_iff isOpen.chain.1).mpr
    ⟨isOpen.chain, name, base, binds, (isOpen.roots base).mp isRoot⟩
  refine ⟨longer, isOpen.first, congrArg (· + 1) isOpen.length, fun origin => ?_⟩
  have further : stretch.stop ≤ Stretch.stop ⟨stretch.first, stretch.length + 1⟩ :=
    Nat.le_succ _
  rw [List.mem_cons, isOpen.roots]
  constructor
  · rintro (rfl | wasRoot)
    · exact Or.inr ⟨stretch.stop, base, Nat.le_add_right _ _, Nat.lt_succ_self _, binds⟩
    · exact wasRoot.mono further
  · rintro (isBase | ⟨earlier, other, after, before, isName⟩)
    · exact Or.inr (Or.inl isBase)
    · rcases Nat.eq_or_lt_of_le (Nat.le_of_lt_succ before) with isLast | inside
      · have last : earlier = stretch.stop := isLast
        rw [last, binds] at isName
        cases isName
        exact Or.inl rfl
      · exact Or.inr (Or.inr ⟨earlier, other, after, inside, isName⟩)

theorem Run.IsOpen.not_isChain (isOpen : run.IsOpen expressions stretch)
    (apart : ∀ name base, bindingAt? expressions stretch.stop = some (name, base) →
      base ∉ run.roots) :
    ¬IsChain expressions ⟨stretch.first, stretch.length + 1⟩ := by
  intro longer
  obtain ⟨_, name, base, binds, isRoot⟩ := (isChain_succ_iff isOpen.chain.1).mp longer
  exact apart name base binds ((isOpen.roots base).mpr isRoot)

section Steps

variable {expression : Node} {rest : List Node} {name base : String}

theorem scan_of_not_binding (unbound : extraction? expression = none) (current : Option Run) :
    scan current (expression :: rest) = closeRun current ++ scan none rest := by
  simp only [scan, unbound]

theorem scan_none_of_binding (binds : extraction? expression = some (name, base)) :
    scan none (expression :: rest) = scan (some ⟨expression, 1, [name, base]⟩) rest := by
  simp only [scan, binds]

theorem scan_some_of_binding (binds : extraction? expression = some (name, base)) :
    scan (some run) (expression :: rest) =
      if base ∈ run.roots then scan (some ⟨run.first, run.length + 1, name :: run.roots⟩) rest
      else run.finding ++ scan (some ⟨expression, 1, [name, base]⟩) rest := by
  simp only [scan, binds, List.contains_iff_mem]

end Steps

/-- The rest of the expressions is read with no run open, or with one that ends before
them. -/
theorem scan_reportsChains (rest : List Node) (start : Nat)
    (isRest : expressions.drop start = rest) :
    (∃ reported, ReportsChains expressions start reported (scan none rest)) ∧
      ∀ run stretch, run.IsOpen expressions stretch → stretch.stop = start →
        ∃ reported, ReportsChains expressions stretch.first reported (scan (some run) rest) := by
  induction rest generalizing start with
  | nil =>
      have ends : expressions.length ≤ start := List.drop_eq_nil_iff.mp isRest
      refine ⟨⟨[], reportsChains_nil ends⟩, ?_⟩
      rintro run stretch isOpen rfl
      have longest := isOpen.not_isChain fun name base binds => by
        rw [bindingAt?, List.getElem?_eq_none ends] at binds
        cases binds
      rw [scan, closeRun, ← List.append_nil run.finding]
      exact (reportsChains_nil ends).close isOpen longest
  | cons expression rest inductionHypothesis =>
      have here : expressions[start]? = some expression := by
        rw [← List.head?_drop, isRest, List.head?_cons]
      have isLater : expressions.drop (start + 1) = rest := by
        rw [← List.drop_drop, isRest, List.drop_one, List.tail_cons]
      have binding : bindingAt? expressions start = extraction? expression := by
        rw [bindingAt?, here, Option.bind_some]
      obtain ⟨⟨reported, later⟩, continues⟩ := inductionHypothesis (start + 1) isLater
      cases extracted : extraction? expression with
      | none =>
          -- No chain can contain the expression, so what is open ends before it.
          rw [extracted] at binding
          have skipped := later.skip binding
          refine ⟨⟨reported, ?_⟩, ?_⟩
          · rw [scan_of_not_binding extracted]
            exact skipped
          · rintro run stretch isOpen rfl
            have longest := isOpen.not_isChain fun name base binds => by
              rw [binding] at binds
              cases binds
            rw [scan_of_not_binding extracted]
            exact skipped.close isOpen longest
      | some parts =>
          obtain ⟨name, base⟩ := parts
          rw [extracted] at binding
          obtain ⟨fresh, opened⟩ := continues _ _ (isOpen_first here binding) rfl
          refine ⟨⟨fresh, ?_⟩, ?_⟩
          · rw [scan_none_of_binding extracted]
            exact opened
          · rintro run stretch isOpen rfl
            rw [scan_some_of_binding extracted]
            by_cases isRoot : base ∈ run.roots
            · rw [if_pos isRoot]
              exact continues _ ⟨stretch.first, stretch.length + 1⟩
                (isOpen.extend binding isRoot) rfl
            · -- The run that is open is reported, and the binding opens the next one.
              rw [if_neg isRoot]
              refine opened.close isOpen (isOpen.not_isChain fun other origin binds => ?_)
              rw [binding] at binds
              cases binds
              exact isRoot

end Reports

/-- The rule reports the longest chains of three and more expressions of a block, each
once and in their order. It reports nothing when there is no such chain. -/
theorem check_reportsChains (n : Node) :
    (check n ≠ [] ↔ ∃ stretch, IsChain n.children stretch ∧ 3 ≤ stretch.length) ∧
      ∃ reported, ReportsChains n.children 0 reported (check n) := by
  obtain ⟨⟨reported, reports⟩, _⟩ := scan_reportsChains n.children 0 rfl
  refine ⟨?_, reported, reports⟩
  have sameLength : reported.length = (check n).length := reports.each.length_eq
  constructor
  · intro reportsSome
    have someReported : reported ≠ [] := by
      rintro rfl
      exact reportsSome (List.length_eq_zero_iff.mp sameLength.symm)
    obtain ⟨stretch, member⟩ := List.exists_mem_of_ne_nil _ someReported
    exact ⟨stretch, reports.chains stretch member⟩
  · rintro ⟨stretch, chain, isLong⟩ reportsNone
    obtain ⟨other, member, _⟩ := reports.covers stretch (Nat.zero_le _) chain isLong
    rw [reportsNone, List.length_nil, List.length_eq_zero_iff] at sameLength
    rw [sameLength] at member
    cases member

/-! ## Two bases -/

def namedVariable (line : Nat) (name : String) : Node :=
  ⟨.var, lineSpan line, [("name", .one (.text name))], []⟩

/-- The variable of the first name is bound to an entry of that of the second one. -/
def entryBinding (line : Nat) (name base : String) : Node :=
  ⟨.matchExpr, lineSpan line, [],
    [namedVariable line name, ⟨.access, lineSpan line, [],
      [namedVariable line base, ⟨.atom, lineSpan line, [("value", .one (.text "key"))], []⟩]⟩]⟩

-- The last two bindings take up a variable of the chain before them, but the fourth one,
-- which does not, has ended it.
example : (check ⟨.block, lineSpan 2, [], [entryBinding 3 "data" "doc",
      entryBinding 4 "id" "data", entryBinding 5 "name" "doc", entryBinding 6 "age" "user",
      entryBinding 7 "city" "data", entryBinding 8 "zip" "city"]⟩).map (·.span) =
    [lineSpan 3] := by
  decide

end Extraction
end StyleAudit
