import Mathlib.Data.List.Induction
import Mathlib.Data.List.Nodup
import Mathlib.Data.List.Perm.Subperm
import Mathlib.Data.List.TakeWhile
import StyleAudit.Proofs.Module.FunctionIndex
import StyleAudit.Proofs.Table
import StyleAudit.Proofs.Text.Distinct
import StyleAudit.Rule.Naming

/-!
# Numbered names

`Numbers` takes a name apart into a stem and a number, and `HasStem` gives every name a stem.
The rule on numbered names reports those names of a declaration that have no underscore
before the number and share their stem with another name (`ReportsNumbered`).

`sequential_reportsNumbered` says that of every declaration whose names do not break over
lines, and that the rule has nothing more to report once each of the names is replaced by the
one that was suggested for it. A suggested name keeps its stem, so no name joins another
series by it.
-/

namespace StyleAudit

namespace Naming

/-! ## Stems -/

/-- The name consists of a stem that is not empty, an underscore if it is separated, and
the digits of a number. Neither the digits nor the underscore could start further to the
left. -/
structure Numbers (name stem : String) (separated : Bool) (digits : String) : Prop where
  parts : name = stem ++ (if separated then "_" else "") ++ digits
  stem_ne : stem ≠ ""
  digits_ne : digits ≠ ""
  decimal : ∀ c ∈ digits.toList, Text.isDecimal c = true
  farthest : separated = false →
    ∀ c, stem.toList.getLast? = some c → c ≠ '_' ∧ Text.isDecimal c = false

/-- The name without the number at its end and one underscore before it, or the whole name
if it does not end so. -/
def HasStem (name stem : String) : Prop :=
  (∃ separated digits, Numbers name stem separated digits) ∨
    stem = name ∧ ∀ other separated digits, ¬Numbers name other separated digits

section Stems

variable {name stem : String} {separated : Bool} {digits : String} {before number : List Char}
  {c : Char}

/-- Characters are all digits, or a last one that is none can be found. -/
theorem decimal_or_exists_last (characters : List Char) :
    (∀ d ∈ characters, Text.isDecimal d = true) ∨
      ∃ before c number, characters = before ++ c :: number ∧ Text.isDecimal c = false ∧
        ∀ d ∈ number, Text.isDecimal d = true := by
  induction characters using List.reverseRecOn with
  | nil => exact Or.inl (List.forall_mem_nil _)
  | append_singleton earlier last inductionHypothesis =>
      cases isDigit : Text.isDecimal last with
      | false => exact Or.inr ⟨earlier, last, [], rfl, isDigit, List.forall_mem_nil _⟩
      | true =>
          have lastToo : ∀ {others : List Char}, (∀ d ∈ others, Text.isDecimal d = true) →
              ∀ d ∈ others ++ [last], Text.isDecimal d = true := by
            intro others decimal
            rw [List.forall_mem_append, List.forall_mem_singleton]
            exact ⟨decimal, isDigit⟩
          rcases inductionHypothesis with decimal | ⟨before, c, number, rfl, stops, decimal⟩
          · exact Or.inl (lastToo decimal)
          · exact Or.inr ⟨before, c, number ++ [last], by simp, stops, lastToo decimal⟩

theorem core_eq (unbroken : '\n' ∉ name.toList) :
    (if name.toList.getLast? = some '\n' then name.toList.dropLast else name.toList) =
      name.toList :=
  if_neg fun isLast => unbroken (List.mem_of_getLast? isLast)

theorem stem?_of_decimal (unbroken : '\n' ∉ name.toList)
    (decimal : ∀ d ∈ name.toList, Text.isDecimal d = true) : stem? name = none := by
  have backwards : ∀ d ∈ name.toList.reverse, Text.isDecimal d = true := fun d member =>
    decimal d (List.mem_reverse.mp member)
  simp only [stem?, core_eq unbroken, List.takeWhile_eq_self_iff.mpr backwards,
    List.dropWhile_eq_nil_iff.mpr backwards]
  cases name.toList.reverse with
  | nil => rfl
  | cons last rest => rfl

/-- A name ends in a number if decimal digits follow its last other character; an
underscore there is no part of the stem. -/
theorem stem?_of_split (unbroken : '\n' ∉ name.toList)
    (split : name.toList = before ++ c :: number) (stops : Text.isDecimal c = false)
    (decimal : ∀ d ∈ number, Text.isDecimal d = true) :
    stem? name =
      if number = [] then none
      else if c = '_' then if before = [] then none else some (String.ofList before, true)
      else some (String.ofList (before ++ [c]), false) := by
  -- The number is read from the end of the name.
  have backwards : name.toList.reverse = number.reverse ++ c :: before.reverse := by
    rw [split, List.reverse_append, List.reverse_cons, List.append_assoc, List.singleton_append]
  have digits : ∀ d ∈ number.reverse, Text.isDecimal d = true := fun d member =>
    decimal d (List.mem_reverse.mp member)
  have taken : name.toList.reverse.takeWhile Text.isDecimal = number.reverse := by
    rw [backwards, List.takeWhile_append_of_pos digits,
      List.takeWhile_cons_of_neg (by rw [stops]; exact Bool.false_ne_true), List.append_nil]
  have left : name.toList.reverse.dropWhile Text.isDecimal = c :: before.reverse := by
    rw [backwards, List.dropWhile_append_of_pos digits,
      List.dropWhile_cons_of_neg (by rw [stops]; exact Bool.false_ne_true)]
  have plain : '\n' ∉ before ++ [c] := by
    intro member
    apply unbroken
    rw [split, List.append_cons]
    exact List.mem_append_left _ member
  simp only [stem?, core_eq unbroken, taken, left]
  cases backwardsDigits : number.reverse with
  | nil =>
      rw [if_pos (List.reverse_eq_nil_iff.mp backwardsDigits)]
  | cons last others =>
      have isNumber : number ≠ [] := fun isEmpty => by
        rw [isEmpty] at backwardsDigits
        cases backwardsDigits
      rw [if_neg isNumber]
      by_cases isMark : c = '_'
      · subst isMark
        have breaks : before.contains '\n' = false := by
          rw [← Bool.not_eq_true, List.contains_iff_mem]
          exact fun member => plain (List.mem_append_left _ member)
        rw [if_pos rfl]
        simp only [List.reverse_reverse, breaks, Bool.or_false, List.isEmpty_iff]
      · have breaks : (before ++ [c]).contains '\n' = false := by
          rw [← Bool.not_eq_true, List.contains_iff_mem]
          exact plain
        have unmarked : ∀ remaining, c :: before.reverse ≠ '_' :: remaining := by
          intro remaining sameList
          exact isMark (List.cons.inj sameList).1
        rw [if_neg isMark]
        dsimp only
        split
        next remaining isMarked => exact absurd isMarked (unmarked remaining)
        next =>
          rw [List.reverse_cons, List.reverse_reverse, breaks]
          simp

/-- A name that ends with a number after a stem is taken apart so, and no other one is. -/
theorem stem?_eq_some_iff (unbroken : '\n' ∉ name.toList) :
    stem? name = some (stem, separated) ↔ ∃ digits, Numbers name stem separated digits := by
  constructor
  · intro taken
    rcases decimal_or_exists_last name.toList with
      decimal | ⟨before, c, number, split, stops, decimal⟩
    · rw [stem?_of_decimal unbroken decimal] at taken
      cases taken
    · rw [stem?_of_split unbroken split stops decimal] at taken
      split_ifs at taken with noDigits isMark isEmpty
      · cases taken
        refine ⟨String.ofList number, ?_, ?_, ?_, ?_, ?_⟩
        · rw [← String.toList_inj, split, isMark]
          simp
        · simpa using isEmpty
        · simpa using noDigits
        · simpa using decimal
        · intro isGlued
          cases isGlued
      · cases taken
        refine ⟨String.ofList number, ?_, ?_, ?_, ?_, ?_⟩
        · rw [← String.toList_inj, split]
          simp
        · simp
        · simpa using noDigits
        · simpa using decimal
        · intro _ last isLast
          obtain rfl : c = last := by simpa using isLast
          exact ⟨isMark, stops⟩
  · rintro ⟨digits, numbers⟩
    have isNumber : digits.toList ≠ [] := by simpa using numbers.digits_ne
    cases separated with
    | true =>
        have split : name.toList = stem.toList ++ '_' :: digits.toList := by
          rw [numbers.parts]
          simp
        rw [stem?_of_split unbroken split (by decide) numbers.decimal, if_neg isNumber,
          if_pos rfl, if_neg (by simpa using numbers.stem_ne), String.ofList_toList]
    | false =>
        obtain ⟨before, c, ends⟩ : ∃ before c, stem.toList = before ++ [c] :=
          (List.eq_nil_or_concat' stem.toList).resolve_left (by simpa using numbers.stem_ne)
        have isLast : stem.toList.getLast? = some c := by rw [ends, List.getLast?_concat]
        obtain ⟨unmarked, stops⟩ := numbers.farthest rfl c isLast
        have split : name.toList = before ++ c :: digits.toList := by
          rw [numbers.parts]
          simp [ends]
        rw [stem?_of_split unbroken split stops numbers.decimal, if_neg isNumber,
          if_neg unmarked, ← ends, String.ofList_toList]

/-! ## Places in a series -/

/-- A name has one stem. -/
theorem Numbers.unique (unbroken : '\n' ∉ name.toList) {other : String} {otherwise : Bool}
    {others : String} (numbers : Numbers name stem separated digits)
    (again : Numbers name other otherwise others) : other = stem ∧ otherwise = separated := by
  have first := (stem?_eq_some_iff unbroken).mpr ⟨digits, numbers⟩
  have second := (stem?_eq_some_iff unbroken).mpr ⟨others, again⟩
  rw [first] at second
  cases second
  exact ⟨rfl, rfl⟩

theorem Numbers.hasStem_iff (unbroken : '\n' ∉ name.toList)
    (numbers : Numbers name stem separated digits) {other : String} :
    HasStem name other ↔ other = stem := by
  constructor
  · rintro (⟨otherwise, others, again⟩ | ⟨-, plain⟩)
    · exact (numbers.unique unbroken again).1
    · exact absurd numbers (plain _ _ _)
  · rintro rfl
    exact Or.inl ⟨separated, digits, numbers⟩

variable {v : Node}

theorem ofVariable_of_numbers (unbroken : '\n' ∉ v.name.toList)
    (numbers : Numbers v.name stem separated digits) :
    Member.ofVariable v = ⟨stem, v.name, v.span, !separated⟩ := by
  rw [Member.ofVariable, (stem?_eq_some_iff unbroken).mpr ⟨digits, numbers⟩]

theorem ofVariable_of_plain (unbroken : '\n' ∉ v.name.toList)
    (plain : ∀ stem separated digits, ¬Numbers v.name stem separated digits) :
    Member.ofVariable v = ⟨v.name, v.name, v.span, false⟩ := by
  rw [Member.ofVariable]
  cases taken : stem? v.name with
  | none => rfl
  | some parts =>
      obtain ⟨digits, numbers⟩ := (stem?_eq_some_iff unbroken).mp taken
      exact absurd numbers (plain _ _ _)

theorem ofVariable_stem (unbroken : '\n' ∉ v.name.toList) :
    (Member.ofVariable v).stem = stem ↔ HasStem v.name stem := by
  by_cases isNumbered : ∃ stem separated digits, Numbers v.name stem separated digits
  · obtain ⟨its, separated, digits, numbers⟩ := isNumbered
    rw [ofVariable_of_numbers unbroken numbers, numbers.hasStem_iff unbroken]
    exact eq_comm
  · push Not at isNumbered
    rw [ofVariable_of_plain unbroken isNumbered]
    constructor
    · rintro rfl
      exact Or.inr ⟨rfl, isNumbered⟩
    · rintro (⟨separated, digits, numbers⟩ | ⟨isWhole, -⟩)
      · exact absurd numbers (isNumbered _ _ _)
      · exact isWhole.symm

theorem ofVariable_glued (unbroken : '\n' ∉ v.name.toList) :
    (Member.ofVariable v).glued = true ↔ ∃ stem digits, Numbers v.name stem false digits := by
  constructor
  · intro isGlued
    by_contra notNumbered
    by_cases isNumbered : ∃ stem separated digits, Numbers v.name stem separated digits
    · obtain ⟨stem, separated, digits, numbers⟩ := isNumbered
      rw [ofVariable_of_numbers unbroken numbers] at isGlued
      cases separated with
      | true => cases isGlued
      | false => exact notNumbered ⟨stem, digits, numbers⟩
    · push Not at isNumbered
      rw [ofVariable_of_plain unbroken isNumbered] at isGlued
      cases isGlued
  · rintro ⟨stem, digits, numbers⟩
    rw [ofVariable_of_numbers unbroken numbers]
    rfl

theorem separatedName_of_numbers (unbroken : '\n' ∉ v.name.toList)
    (numbers : Numbers v.name stem false digits) :
    (Member.ofVariable v).separatedName = stem ++ "_" ++ digits := by
  have number : v.name.toList.drop stem.length = digits.toList := by
    rw [numbers.parts, ← String.length_toList]
    simp
  rw [ofVariable_of_numbers unbroken numbers, Member.separatedName]
  dsimp only
  rw [number, String.ofList_toList]

end Stems

/-! ## Identifiers -/

/-- The name stands at a variable of the tree and does not begin with an underscore. -/
def IsIdentifier (declared : Node) (name : String) : Prop :=
  (∃ v ∈ declared.patternVariables, v.name = name) ∧ Text.begins name "_" = false

section Identifiers

variable {declared v : Node} {name : String}

/-- The first variable of each name is kept. -/
theorem firsts_spec (nodes : List Node) :
    let found := nodes.foldl
      (fun found v => if found.any (·.name == v.name) then found else found ++ [v]) []
    (found.map Node.name).Nodup ∧
      ∀ v, v ∈ found ↔ nodes.find? (·.name == v.name) = some v := by
  induction nodes using List.reverseRecOn with
  | nil => simp
  | append_singleton earlier last inductionHypothesis =>
      dsimp only at inductionHypothesis ⊢
      rw [List.foldl_append, List.foldl_cons, List.foldl_nil]
      generalize earlier.foldl _ [] = found at inductionHypothesis ⊢
      obtain ⟨distinct, kept⟩ := inductionHypothesis
      cases isThere : found.any (·.name == last.name) with
      | true =>
          obtain ⟨u, member, sameName⟩ := List.any_eq_true.mp isThere
          rw [if_pos rfl]
          refine ⟨distinct, fun v => ?_⟩
          rw [kept, List.find?_append]
          by_cases isLast : last.name = v.name
          · have first := (kept u).mp member
            rw [eq_of_beq sameName, isLast] at first
            rw [first, Option.some_or]
          · rw [List.find?_cons_of_neg (by simpa using isLast), List.find?_nil, Option.or_none]
      | false =>
          have isNew : ∀ u ∈ found, u.name ≠ last.name := by simpa using isThere
          rw [if_neg Bool.false_ne_true]
          constructor
          · rw [List.map_append, List.nodup_append']
            refine ⟨distinct, List.nodup_singleton _, ?_⟩
            simpa using isNew
          · intro v
            rw [List.mem_append, List.mem_singleton, kept, List.find?_append]
            cases first : earlier.find? (·.name == v.name) with
            | none =>
                by_cases isLast : last.name = v.name
                · rw [List.find?_cons_of_pos (by simpa using isLast)]
                  simp [eq_comm]
                · rw [List.find?_cons_of_neg (by simpa using isLast), List.find?_nil]
                  simp only [reduceCtorEq, false_or, Option.or_none, iff_false]
                  rintro rfl
                  exact isLast rfl
            | some u =>
                have sameName : u.name = v.name := by simpa using List.find?_some first
                have isKept : u ∈ found := (kept u).mpr (by rw [sameName, first])
                rw [Option.some_or, or_iff_left]
                rintro rfl
                exact isNew u isKept sameName

theorem find?_named :
    (declared.patternVariables.filter fun v => !Text.begins v.name "_").find? (·.name == name) =
      if Text.begins name "_" then none else declared.patternVariables.find? (·.name == name) := by
  rw [List.find?_filter]
  cases isUnused : Text.begins name "_" with
  | true =>
      rw [if_pos rfl, List.find?_eq_none]
      intro v _
      by_cases isNamed : v.name = name
      · simp [isNamed, isUnused]
      · simp [isNamed]
  | false =>
      rw [if_neg Bool.false_ne_true]
      congr 1
      funext v
      by_cases isNamed : v.name = name
      · simp [isNamed, isUnused]
      · simp [isNamed]

theorem mem_identifiers :
    v ∈ identifiers declared ↔ declared.patternVariables.find? (·.name == v.name) = some v ∧
      Text.begins v.name "_" = false := by
  rw [identifiers, (firsts_spec _).2, find?_named]
  cases Text.begins v.name "_" <;> simp

theorem nodup_names_identifiers : ((identifiers declared).map Node.name).Nodup :=
  (firsts_spec _).1

theorem isIdentifier_iff :
    IsIdentifier declared name ↔ ∃ v ∈ identifiers declared, v.name = name := by
  constructor
  · rintro ⟨⟨v, member, rfl⟩, isUsed⟩
    obtain ⟨first, found⟩ := Option.isSome_iff_exists.mp
      (List.find?_isSome (p := (·.name == v.name)).mpr ⟨v, member, beq_self_eq_true _⟩)
    have sameName : first.name = v.name := by simpa using List.find?_some found
    refine ⟨first, mem_identifiers.mpr ?_, sameName⟩
    rw [sameName]
    exact ⟨found, isUsed⟩
  · rintro ⟨v, member, rfl⟩
    obtain ⟨found, isUsed⟩ := mem_identifiers.mp member
    exact ⟨⟨v, List.mem_of_find?_eq_some found, rfl⟩, isUsed⟩

end Identifiers

/-! ## Reported names -/

theorem two_le_length_iff {item : Type} {items : List item} (distinct : items.Nodup) {a : item}
    (member : a ∈ items) : 2 ≤ items.length ↔ ∃ b ∈ items, b ≠ a := by
  constructor
  · intro several
    by_contra alone
    push Not at alone
    have within : items ⊆ [a] := fun b isItem => List.mem_singleton.mpr (alone b isItem)
    have short := (List.Nodup.subperm distinct within).length_le
    rw [List.length_singleton] at short
    omega
  · rintro ⟨b, isItem, isOther⟩
    have pair : [a, b].Nodup := by simpa using isOther.symm
    exact (List.Nodup.subperm pair (by simp [member, isItem])).length_le

/-- The members that are reported. -/
def reported (declared : Node) : List Member :=
  ((seriesOf ((identifiers declared).map Member.ofVariable)).filter
    fun series => decide (2 ≤ series.length)).flatMap (·.filter (·.glued))

section Reports

variable {declared v : Node} {m : Member} {name : String}

@[simp]
theorem ofVariable_name (v : Node) : (Member.ofVariable v).name = v.name := by
  rw [Member.ofVariable]
  cases stem? v.name <;> rfl

@[simp]
theorem ofVariable_span (v : Node) : (Member.ofVariable v).span = v.span := by
  rw [Member.ofVariable]
  cases stem? v.name <;> rfl

theorem nodup_names_members :
    (((identifiers declared).map Member.ofVariable).map Member.name).Nodup := by
  rw [List.map_map]
  convert @nodup_names_identifiers declared using 2
  funext v
  exact ofVariable_name v

/-- Reported are the names with a number glued to a stem that another name has, too. -/
theorem mem_reported :
    m ∈ reported declared ↔ m ∈ (identifiers declared).map Member.ofVariable ∧ m.glued = true ∧
      ∃ other ∈ (identifiers declared).map Member.ofVariable,
        other ≠ m ∧ other.stem = m.stem := by
  have distinct := (@nodup_names_members declared).of_map
  rw [reported]
  generalize (identifiers declared).map Member.ofVariable = members at distinct ⊢
  simp only [seriesOf, List.mem_flatMap, List.mem_filter, List.mem_map, List.mem_eraseDups,
    decide_eq_true_eq]
  constructor
  · rintro ⟨series, ⟨⟨stem, -, rfl⟩, several⟩, inSeries, isGlued⟩
    obtain ⟨isMember, hasStem⟩ := List.mem_filter.mp inSeries
    obtain ⟨other, otherInSeries, isOther⟩ :=
      (two_le_length_iff (distinct.filter _) inSeries).mp several
    obtain ⟨otherMember, otherStem⟩ := List.mem_filter.mp otherInSeries
    refine ⟨isMember, isGlued, other, otherMember, isOther, ?_⟩
    rw [eq_of_beq otherStem, eq_of_beq hasStem]
  · rintro ⟨isMember, isGlued, other, otherMember, isOther, sameStem⟩
    have inSeries : m ∈ members.filter (·.stem == m.stem) := by simpa using isMember
    refine ⟨_, ⟨⟨m.stem, ⟨m, isMember, rfl⟩, rfl⟩, ?_⟩, inSeries, isGlued⟩
    rw [two_le_length_iff (distinct.filter _) inSeries]
    exact ⟨other, by simpa [sameStem] using otherMember, isOther⟩

/-- No name is reported twice. -/
theorem nodup_names_reported : ((reported declared).map Member.name).Nodup := by
  have distinct := @nodup_names_members declared
  have isReported : (reported declared).Nodup := by
    rw [reported, List.nodup_flatMap]
    constructor
    · intro series member
      obtain ⟨stem, -, rfl⟩ := List.mem_map.mp (List.mem_of_mem_filter member)
      exact (distinct.of_map.filter _).filter _
    · rw [seriesOf]
      refine List.Pairwise.filter _ (List.pairwise_map.mpr ?_)
      refine (Text.nodup_eraseDups _).imp fun {first second} different m inFirst inSecond => ?_
      have firstStem := (List.mem_filter.mp (List.mem_of_mem_filter inFirst)).2
      have secondStem := (List.mem_filter.mp (List.mem_of_mem_filter inSecond)).2
      exact different ((eq_of_beq firstStem).symm.trans (eq_of_beq secondStem))
  refine isReported.map_on fun first isFirst second isSecond sameName => ?_
  exact List.inj_on_of_nodup_map distinct (mem_reported.mp isFirst).1
    (mem_reported.mp isSecond).1 sameName

end Reports

end Naming

/-! ## Renaming -/

/-- The attribute with another name for the text, if there is one. -/
def Attribute.renamed (better? : String → Option String) : Attribute → Attribute
  | .one (.text word) => .one (.text ((better? word).getD word))
  | other => other

/-- Attributes with another name for what they name. -/
def Attributes.renamed (better? : String → Option String) (attributes : Attributes) : Attributes :=
  attributes.map fun (key, value) => (key, if key = "name" then value.renamed better? else value)

namespace Node

mutual

/-- The tree with other names for its variables. -/
def renamed (better? : String → Option String) : Node → Node
  | ⟨kind, span, attributes, children⟩ =>
    ⟨kind, span, if kind = .var then attributes.renamed better? else attributes,
      renamedAll better? children⟩
  termination_by structural n => n

/-- Several trees with other names for their variables. -/
def renamedAll (better? : String → Option String) : List Node → List Node
  | [] => []
  | n :: rest => renamed better? n :: renamedAll better? rest
  termination_by structural ns => ns

end

section Renamed

variable (better? : String → Option String)

@[simp]
theorem kind_renamed (n : Node) : (n.renamed better?).kind = n.kind := by
  cases n
  rfl

theorem renamedAll_eq_map (ns : List Node) : renamedAll better? ns = ns.map (renamed better?) := by
  induction ns with
  | nil => rfl
  | cons n rest inductionHypothesis => rw [renamedAll, inductionHypothesis, List.map_cons]

theorem children_renamed (n : Node) :
    (n.renamed better?).children = n.children.map (renamed better?) := by
  cases n
  exact renamedAll_eq_map better? _

theorem preorder_renamed (n : Node) :
    (n.renamed better?).preorder = n.preorder.map (renamed better?) := by
  induction n using childInduction with
  | step n inductionHypothesis =>
      rw [preorder_eq, preorder_eq n, children_renamed, List.flatMap_map, List.map_cons,
        List.map_flatMap]
      exact congrArg _ (List.flatMap_congr inductionHypothesis)

theorem patternVariables_renamed (pattern : Node) :
    (pattern.renamed better?).patternVariables =
      pattern.patternVariables.map (renamed better?) := by
  simp [patternVariables, preorder_renamed, List.filter_map, Function.comp_def]

theorem lookup_renamed (attributes : Attributes) :
    (attributes.renamed better?).lookup "name" =
      (attributes.lookup "name").map (Attribute.renamed better?) := by
  rw [Attributes.renamed]
  exact lookup_map_values
    (fun key value => if key = "name" then value.renamed better? else value) attributes "name"

/-- A variable without a name gets none. -/
theorem name_renamed {better? : String → Option String} (unnamed : better? "" = none) {v : Node}
    (isVariable : v.kind = .var) :
    (v.renamed better?).name = (better? v.name).getD v.name := by
  obtain ⟨kind, span, attributes, children⟩ := v
  obtain rfl : kind = .var := isVariable
  simp only [name, attr, renamed, if_true, lookup_renamed]
  cases attributes.lookup "name" with
  | none => simp [Attribute.text?, unnamed]
  | some value =>
      cases value with
      | many values => simp [Attribute.renamed, Attribute.text?, unnamed]
      | one literal =>
          cases literal <;> simp [Attribute.renamed, Attribute.text?, unnamed]

end Renamed

end Node

namespace Naming

/-- The variables of a renamed tree have the other names of those of the tree. -/
theorem exists_named_renamed {better? : String → Option String} (unnamed : better? "" = none)
    {declared : Node} {name : String} :
    (∃ v ∈ (declared.renamed better?).patternVariables, v.name = name) ↔
      ∃ v ∈ declared.patternVariables, (better? v.name).getD v.name = name := by
  have renamedName : ∀ v ∈ declared.patternVariables,
      (v.renamed better?).name = (better? v.name).getD v.name := by
    intro v member
    exact Node.name_renamed unnamed (by simpa using (List.mem_filter.mp member).2)
  rw [Node.patternVariables_renamed]
  constructor
  · rintro ⟨_, member, rfl⟩
    obtain ⟨v, isVariable, rfl⟩ := List.mem_map.mp member
    exact ⟨v, isVariable, (renamedName v isVariable).symm⟩
  · rintro ⟨v, isVariable, rfl⟩
    exact ⟨_, List.mem_map_of_mem isVariable, renamedName v isVariable⟩

/-! ## Reports -/

/-- Each finding is about one name and suggests a better one, at the first variable of that
name. The names are the numbered ones without an underscore that share their stem with
another name. -/
structure ReportsNumbered (declared : Node) (renames : List (String × String))
    (findings : List Finding) : Prop where
  each : List.Forall₂ (fun rename finding => ∃ v,
    declared.patternVariables.find? (·.name == rename.1) = some v ∧
      finding = ⟨v.span, s!"`{rename.1}` is one of a numbered series; name it " ++
        s!"`{rename.2}`."⟩)
    renames findings
  once : (renames.map Prod.fst).Nodup
  reported : ∀ name better, (name, better) ∈ renames ↔
    IsIdentifier declared name ∧ ∃ stem digits, Numbers name stem false digits ∧
      better = stem ++ "_" ++ digits ∧
      ∃ other, IsIdentifier declared other ∧ other ≠ name ∧ HasStem other stem

section Reports

variable {declared : Node} {name stem digits : String}

/-- The records are about the reported names, each with the separated name in place
of the glued one. -/
theorem numbered_reports (unbroken : ∀ name, IsIdentifier declared name → '\n' ∉ name.toList) :
    ReportsNumbered declared ((reported declared).map fun m => (m.name, m.separatedName))
      (numbered declared) := by
  have plain : ∀ v ∈ identifiers declared, '\n' ∉ v.name.toList := fun v member =>
    unbroken v.name (isIdentifier_iff.mpr ⟨v, member, rfl⟩)
  have findings : numbered declared = (reported declared).map fun m =>
      ⟨m.span, s!"`{m.name}` is one of a numbered series; name it " ++
        s!"`{m.separatedName}`."⟩ := by
    rw [reported, List.map_flatMap]
    rfl
  refine ⟨?_, ?_, ?_⟩
  · rw [findings, List.forall₂_map_left_iff, List.forall₂_map_right_iff, List.forall₂_same]
    intro m isReported
    obtain ⟨v, member, rfl⟩ := List.mem_map.mp (mem_reported.mp isReported).1
    refine ⟨v, ?_, by rw [ofVariable_span]⟩
    rw [ofVariable_name]
    exact (mem_identifiers.mp member).1
  · rw [List.map_map]
    exact nodup_names_reported
  · intro name better
    rw [List.mem_map]
    constructor
    · rintro ⟨m, isReported, sameNames⟩
      obtain ⟨isMember, isGlued, other, otherMember, isOther, sameStem⟩ :=
        mem_reported.mp isReported
      obtain ⟨v, isFirst, rfl⟩ := List.mem_map.mp isMember
      obtain ⟨u, otherFirst, rfl⟩ := List.mem_map.mp otherMember
      obtain ⟨stem, digits, numbers⟩ := (ofVariable_glued (plain v isFirst)).mp isGlued
      rw [separatedName_of_numbers (plain v isFirst) numbers, ofVariable_name] at sameNames
      cases sameNames
      refine ⟨isIdentifier_iff.mpr ⟨v, isFirst, rfl⟩, stem, digits, numbers, rfl, u.name,
        isIdentifier_iff.mpr ⟨u, otherFirst, rfl⟩, ?_, ?_⟩
      · intro sameName
        apply isOther
        rw [List.inj_on_of_nodup_map nodup_names_identifiers otherFirst isFirst sameName]
      · rw [← ofVariable_stem (plain u otherFirst), sameStem,
          ofVariable_of_numbers (plain v isFirst) numbers]
    · rintro ⟨isIdentifier, stem, digits, numbers, rfl, other, otherIdentifier, isOther, sameStem⟩
      obtain ⟨v, isFirst, rfl⟩ := isIdentifier_iff.mp isIdentifier
      obtain ⟨u, otherFirst, rfl⟩ := isIdentifier_iff.mp otherIdentifier
      refine ⟨Member.ofVariable v, ?_, ?_⟩
      · refine mem_reported.mpr ⟨List.mem_map_of_mem isFirst,
          (ofVariable_glued (plain v isFirst)).mpr ⟨stem, digits, numbers⟩,
          Member.ofVariable u, List.mem_map_of_mem otherFirst, ?_, ?_⟩
        · intro sameMember
          apply isOther
          rw [← ofVariable_name u, sameMember, ofVariable_name]
        · rw [(ofVariable_stem (plain u otherFirst)).mpr sameStem,
            ofVariable_of_numbers (plain v isFirst) numbers]
      · rw [separatedName_of_numbers (plain v isFirst) numbers, ofVariable_name]

/-! ## Convergence -/

/-- A separated name is read as the stem and the number that it was made from. -/
theorem Numbers.separate (numbers : Numbers name stem false digits) :
    Numbers (stem ++ "_" ++ digits) stem true digits := by
  refine ⟨rfl, numbers.stem_ne, numbers.digits_ne, numbers.decimal, ?_⟩
  intro isGlued
  cases isGlued

theorem Numbers.unbroken_separate (numbers : Numbers name stem false digits)
    (unbroken : '\n' ∉ name.toList) : '\n' ∉ (stem ++ "_" ++ digits).toList := by
  rw [numbers.parts] at unbroken
  simpa using unbroken

variable {renames : List (String × String)} {findings : List Finding}

/-- The better name for a name, if it is reported. -/
def better? (renames : List (String × String)) (name : String) : Option String :=
  renames.lookup name

theorem ReportsNumbered.numbers_of_better? (reports : ReportsNumbered declared renames findings)
    {better : String} (found : better? renames name = some better) :
    IsIdentifier declared name ∧
      ∃ stem digits, Numbers name stem false digits ∧ better = stem ++ "_" ++ digits := by
  obtain ⟨before, after, split, -⟩ := List.lookup_eq_some_iff.mp found
  have listed : (name, better) ∈ renames := by simp [split]
  obtain ⟨isIdentifier, stem, digits, numbers, isBetter, -⟩ := (reports.reported _ _).mp listed
  exact ⟨isIdentifier, stem, digits, numbers, isBetter⟩

theorem ReportsNumbered.exists_of_renamed (reports : ReportsNumbered declared renames findings)
    (isIdentifier : IsIdentifier (declared.renamed (better? renames)) name) :
    ∃ old, IsIdentifier declared old ∧ (better? renames old).getD old = name := by
  have unnamed : better? renames "" = none := by
    cases found : better? renames "" with
    | none => rfl
    | some better =>
        obtain ⟨-, stem, digits, numbers, -⟩ := reports.numbers_of_better? found
        exact absurd numbers.parts (by simp [numbers.stem_ne])
  obtain ⟨isVariable, isUsed⟩ := isIdentifier
  obtain ⟨v, member, rfl⟩ := (exists_named_renamed unnamed).mp isVariable
  refine ⟨v.name, ⟨⟨v, member, rfl⟩, ?_⟩, rfl⟩
  cases found : better? renames v.name with
  | none => simpa [found] using isUsed
  | some better => exact (reports.numbers_of_better? found).1.2

theorem ReportsNumbered.unbroken_renamed (reports : ReportsNumbered declared renames findings)
    (unbroken : ∀ name, IsIdentifier declared name → '\n' ∉ name.toList)
    (isIdentifier : IsIdentifier (declared.renamed (better? renames)) name) :
    '\n' ∉ name.toList := by
  obtain ⟨old, wasIdentifier, rfl⟩ := reports.exists_of_renamed isIdentifier
  cases found : better? renames old with
  | none => exact unbroken old wasIdentifier
  | some better =>
      obtain ⟨-, stem, digits, numbers, rfl⟩ := reports.numbers_of_better? found
      exact numbers.unbroken_separate (unbroken old wasIdentifier)

/-- A name that was replaced has its underscore now. -/
theorem ReportsNumbered.better?_eq_none (reports : ReportsNumbered declared renames findings)
    (plain : '\n' ∉ name.toList) (numbers : Numbers name stem false digits) {old : String}
    (isNew : (better? renames old).getD old = name) : better? renames old = none := by
  cases found : better? renames old with
  | none => rfl
  | some better =>
      obtain ⟨-, oldStem, oldDigits, oldNumbers, rfl⟩ := reports.numbers_of_better? found
      obtain rfl : oldStem ++ "_" ++ oldDigits = name := by simpa [found] using isNew
      cases (numbers.unique plain oldNumbers.separate).2

/-- A name keeps its stem when it is replaced. -/
theorem ReportsNumbered.hasStem_old (reports : ReportsNumbered declared renames findings)
    (plain : '\n' ∉ name.toList) (hasStem : HasStem name stem) {old : String}
    (isNew : (better? renames old).getD old = name) : HasStem old stem := by
  cases found : better? renames old with
  | none =>
      obtain rfl : old = name := by simpa [found] using isNew
      exact hasStem
  | some better =>
      obtain ⟨-, oldStem, oldDigits, oldNumbers, rfl⟩ := reports.numbers_of_better? found
      obtain rfl : oldStem ++ "_" ++ oldDigits = name := by simpa [found] using isNew
      obtain rfl := (oldNumbers.separate.hasStem_iff plain).mp hasStem
      exact Or.inl ⟨false, oldDigits, oldNumbers⟩

/-- Once the reported names are replaced, nothing is reported. -/
theorem ReportsNumbered.settled (reports : ReportsNumbered declared renames findings)
    (unbroken : ∀ name, IsIdentifier declared name → '\n' ∉ name.toList) :
    numbered (declared.renamed (better? renames)) = [] := by
  have unbrokenAfter : ∀ name, IsIdentifier (declared.renamed (better? renames)) name →
      '\n' ∉ name.toList := fun _ isIdentifier => reports.unbroken_renamed unbroken isIdentifier
  have after := numbered_reports unbrokenAfter
  generalize (Naming.reported (declared.renamed (better? renames))).map _ = again at after
  cases again with
  | nil => exact List.forall₂_nil_left_iff.mp after.each
  | cons rename others =>
      obtain ⟨name, better⟩ := rename
      exfalso
      obtain ⟨isIdentifier, stem, digits, numbers, -, other, otherIdentifier, isOther, sameStem⟩ :=
        (after.reported name better).mp List.mem_cons_self
      obtain ⟨old, wasIdentifier, isNew⟩ := reports.exists_of_renamed isIdentifier
      obtain ⟨oldOther, otherWasIdentifier, otherIsNew⟩ :=
        reports.exists_of_renamed otherIdentifier
      -- The name and the other one would have been reported before.
      have unchanged : better? renames old = none :=
        reports.better?_eq_none (unbrokenAfter name isIdentifier) numbers isNew
      obtain rfl : old = name := by simpa [unchanged] using isNew
      have sameStemBefore : HasStem oldOther stem :=
        reports.hasStem_old (unbrokenAfter other otherIdentifier) sameStem otherIsNew
      have wasOther : oldOther ≠ old := by
        rintro rfl
        exact isOther (by simpa [unchanged] using otherIsNew.symm)
      have listed : (old, stem ++ "_" ++ digits) ∈ renames := (reports.reported _ _).mpr
        ⟨wasIdentifier, stem, digits, numbers, rfl, oldOther, otherWasIdentifier, wasOther,
          sameStemBefore⟩
      have notListed := List.lookup_eq_none_iff.mp unchanged _ listed
      simp at notListed

/-- The numbered names that share their stem with another one are reported, each once and at
its first variable. With the better names in their place nothing is left to report. -/
theorem sequential_reportsNumbered {n : Node} {rest : List Node}
    (children : n.children = declared :: rest)
    (unbroken : ∀ name, IsIdentifier declared name → '\n' ∉ name.toList) :
    ∃ renames, ReportsNumbered declared renames (sequential n) ∧
      sequential { n with children := declared.renamed (better? renames) :: rest } = [] := by
  have reports := numbered_reports unbroken
  refine ⟨_, ?_, reports.settled unbroken⟩
  rw [sequential, children]
  exact reports

end Reports

/-- A parameter of the name. -/
def parameter (name : String) : Node :=
  ⟨.var, default, [("name", .one (.text name))], []⟩

/-- The pattern of a list of parameters, one of which occurs twice. -/
def numberedParameters : Node :=
  ⟨.list, default, [], ["user", "user2", "user2", "item1", "id_7"].map parameter⟩

/-- Of a series of two names one is reported; alone, a number may stay. -/
theorem sequential_reportsNumbered_parameters :
    (∀ name, IsIdentifier numberedParameters name → '\n' ∉ name.toList) ∧
      ∃ renames, ReportsNumbered numberedParameters renames
          (sequential ⟨.matchExpr, default, [], [numberedParameters]⟩) ∧
        sequential ⟨.matchExpr, default, [], [numberedParameters.renamed (better? renames)]⟩ =
          [] := by
  have unbroken : ∀ name, IsIdentifier numberedParameters name → '\n' ∉ name.toList := by
    rintro name ⟨⟨v, member, rfl⟩, -⟩
    revert v
    decide
  exact ⟨unbroken, sequential_reportsNumbered
    (n := ⟨.matchExpr, default, [], [numberedParameters]⟩) rfl unbroken⟩

example :
    (numbered numberedParameters).map (·.message) =
      ["`user2` is one of a numbered series; name it `user_2`."] := by
  decide

end Naming
end StyleAudit
