import StyleAudit.Proofs.Rule.Dispatch
import StyleAudit.Rule.Check

/-!
# Errors that are passed on

The rule about errors of other modules asks for a foreign target and for branches
that echo a tag. `Node.tag?` finds a tag where the reduced pattern is a tuple that
begins with an atom, and also where it is an atom itself, so the rule reports the
branches of both sorts (`errorMapping_reportsEchoes`). Where no branch echoes a bare
atom these are the branches on tagged tuples.
-/

namespace StyleAudit

variable {branch : Node} {tag : String}

/-! ## Tags -/

/-- The pattern, once reduced, is a tuple that begins with the atom of the tag. -/
def Node.IsTaggedTuple (pattern : Node) (tag : String) : Prop :=
  ∃ first rest, pattern.reduced.kind = .tuple ∧ pattern.reduced.children = first :: rest ∧
    first.kind = .atom ∧ (first.attr "value").plainText = tag

/-- The pattern, once reduced, is the atom of the tag. -/
def Node.IsBareTag (pattern : Node) (tag : String) : Prop :=
  pattern.reduced.kind = .atom ∧ (pattern.reduced.attr "value").plainText = tag

def Node.IsTagged (pattern : Node) (tag : String) : Prop :=
  pattern.IsTaggedTuple tag ∨ pattern.IsBareTag tag

/-- Tags are the names of bare atoms and of the atoms that tuples start with. -/
theorem Node.tag?_eq_some_iff {pattern : Node} :
    pattern.tag? = some tag ↔ pattern.IsTagged tag := by
  rw [IsTagged, IsTaggedTuple, IsBareTag, tag?]
  generalize pattern.reduced = value
  obtain ⟨kind, span, attributes, children⟩ := value
  cases kind with
  | atom => simp
  | tuple =>
      cases children with
      | nil => simp
      | cons first rest => simp [eq_comm]
  | _ => simp

/-- The branch returns what its pattern matches, and the pattern has a tag, which is
not that of success. -/
def EchoesTag (Tagged : Node → String → Prop) (branch : Node) (tag : String) : Prop :=
  ∃ pattern body, branch.branchParts? = some (pattern, body) ∧ Tagged pattern tag ∧
    tag ≠ "ok" ∧ branch.isEcho = true

theorem EchoesTag.isTagged_iff (noBareTag : ¬EchoesTag Node.IsBareTag branch tag) :
    EchoesTag Node.IsTagged branch tag ↔ EchoesTag Node.IsTaggedTuple branch tag := by
  constructor
  · rintro ⟨pattern, body, parts, onTuple | bare, failure, echo⟩
    · exact ⟨pattern, body, parts, onTuple, failure, echo⟩
    · exact absurd ⟨pattern, body, parts, bare, failure, echo⟩ noBareTag
  · rintro ⟨pattern, body, parts, onTuple, failure, echo⟩
    exact ⟨pattern, body, parts, Or.inl onTuple, failure, echo⟩

namespace ErrorMapping

variable {trusted : List String} {scope : ModuleScope} {n : Node} {branches : List Node}
  {targets : List Target} {records : List Violation}

/-- What it takes for a branch to echo a tag. -/
theorem echoedTag?_eq_some_iff :
    echoedTag? branch = some tag ↔ EchoesTag Node.IsTagged branch tag := by
  rw [echoedTag?]
  cases parts : branch.branchParts? with
  | none => simp [EchoesTag, parts]
  | some pair =>
      obtain ⟨pattern, body⟩ := pair
      have echoes : EchoesTag Node.IsTagged branch tag ↔
          pattern.tag? = some tag ∧ tag ≠ "ok" ∧ branch.isEcho = true := by
        simp only [EchoesTag, parts, ← Node.tag?_eq_some_iff]
        constructor
        · rintro ⟨_, _, same, found⟩
          cases same
          exact found
        · intro found
          exact ⟨pattern, body, rfl, found⟩
      rw [echoes, Option.bind_some]
      cases tagged : pattern.tag? with
      | none => simp [tagged]
      | some found =>
          by_cases passes : found ≠ "ok" ∧ branch.isEcho = true
          · simp only [tagged, if_pos passes, Option.some.injEq]
            constructor
            · rintro rfl
              exact ⟨rfl, passes⟩
            · exact And.left
          · simp only [tagged, if_neg passes, reduceCtorEq, Option.some.injEq, false_iff]
            rintro ⟨rfl, failure⟩
            exact passes failure

/-! ## The rule -/

/-- The record of a branch that passes on a tagged value of a target. -/
def advisory (origin : Target) (branch : Node) (tag : String) : Violation :=
  { ruleId := "error-mapping"
    span := branch.span
    message := s!"`:{tag}` from {origin.label} is passed through unchanged; " ++
      "consider mapping it to this module's own error vocabulary."
    severity := .advisory }

/-- Records about branches that handle what targets yield: none when no target is
foreign, and otherwise one advisory for each branch that echoes a tag, in order,
which names the first foreign target. -/
structure ReportsEchoes (Tagged : Node → String → Prop) (branches : List Node)
    (targets : List Target) (records : List Violation) : Prop where
  silent : (∀ target ∈ targets, target.isForeign = false) → records = []
  exact : ∀ before origin after, targets = before ++ origin :: after →
    (∀ target ∈ before, target.isForeign = false) → origin.isForeign = true →
      ∃ record? : Node → Option Violation, records = branches.filterMap record? ∧
        ∀ branch ∈ branches, ∀ record, record? branch = some record ↔
          ∃ tag, EchoesTag Tagged branch tag ∧ record = advisory origin branch tag

theorem exists_first_foreign (someForeign : ∃ target ∈ targets, target.isForeign = true) :
    ∃ before origin after, targets = before ++ origin :: after ∧
      (∀ target ∈ before, target.isForeign = false) ∧ origin.isForeign = true := by
  obtain ⟨origin, found⟩ := Option.isSome_iff_exists.mp (List.find?_isSome.mpr someForeign)
  obtain ⟨foreign, before, after, split, noneBefore⟩ := List.find?_eq_some_iff_append.mp found
  exact ⟨before, origin, after, split, by simpa using noneBefore, foreign⟩

theorem filter_isForeign_eq_nil
    (noneForeign : ∀ target ∈ targets, target.isForeign = false) :
    targets.filter (·.isForeign) = [] := by
  rw [List.filter_eq_nil_iff]
  intro target member
  rw [noneForeign target member]
  exact Bool.false_ne_true

/-- The rule about branches and targets wherever they come from. -/
theorem reportsEchoes_of_parts (settings : RuleSettings) (context : ModuleContext) (site : Site)
    (parts : branchesAndTargets settings.trusted context.scope site.node = (branches, targets)) :
    ReportsEchoes Node.IsTagged branches targets
      (Rule.errorMapping.check settings context site) := by
  refine ⟨?_, ?_⟩
  · intro noneForeign
    have nothing := filter_isForeign_eq_nil noneForeign
    simp only [Rule.check, Rule.findings, check, parts, nothing, List.map_nil]
  · rintro before origin after rfl noneBefore foreign
    have nothing := filter_isForeign_eq_nil noneBefore
    refine ⟨fun branch => (echoedTag? branch).map (advisory origin branch), ?_, ?_⟩
    · simp only [Rule.check, Rule.findings, check, parts, List.filter_append, nothing,
        List.nil_append, List.filter_cons_of_pos foreign, List.map_filterMap]
      refine List.filterMap_congr fun branch _ => ?_
      rw [Option.map_map]
      rfl
    · intro branch _ record
      simp only [Option.map_eq_some_iff, echoedTag?_eq_some_iff]
      exact exists_congr fun tag => and_congr_right fun _ => eq_comm

theorem ReportsEchoes.of_noBareTag (reports : ReportsEchoes Node.IsTagged branches targets records)
    (noBareTag : ∀ branch ∈ branches, ∀ tag, ¬EchoesTag Node.IsBareTag branch tag) :
    ReportsEchoes Node.IsTaggedTuple branches targets records := by
  refine ⟨reports.silent, ?_⟩
  intro before origin after split noneBefore foreign
  obtain ⟨record?, same, reported⟩ := reports.exact before origin after split noneBefore foreign
  refine ⟨record?, same, ?_⟩
  intro branch member record
  rw [reported branch member record]
  simp only [EchoesTag.isTagged_iff (noBareTag branch member _)]

/-- There is a record exactly when some target is foreign and some branch echoes a tag. -/
theorem ReportsEchoes.ne_nil_iff {Tagged : Node → String → Prop}
    (reports : ReportsEchoes Tagged branches targets records) :
    records ≠ [] ↔ (∃ target ∈ targets, target.isForeign = true) ∧
      ∃ branch ∈ branches, ∃ tag, EchoesTag Tagged branch tag := by
  constructor
  · intro fires
    have someForeign : ∃ target ∈ targets, target.isForeign = true := by
      by_contra noneForeign
      refine fires (reports.silent fun target member => ?_)
      rw [← Bool.not_eq_true]
      exact fun foreign => noneForeign ⟨target, member, foreign⟩
    refine ⟨someForeign, ?_⟩
    obtain ⟨before, origin, after, split, noneBefore, foreign⟩ := exists_first_foreign someForeign
    obtain ⟨record?, rfl, reported⟩ := reports.exact before origin after split noneBefore foreign
    obtain ⟨record, recordMember⟩ := List.exists_mem_of_ne_nil _ fires
    obtain ⟨branch, member, isRecord⟩ := List.mem_filterMap.mp recordMember
    obtain ⟨tag, echoes, -⟩ := (reported branch member record).mp isRecord
    exact ⟨branch, member, tag, echoes⟩
  · rintro ⟨someForeign, branch, member, tag, echoes⟩
    obtain ⟨before, origin, after, split, noneBefore, foreign⟩ := exists_first_foreign someForeign
    obtain ⟨record?, rfl, reported⟩ := reports.exact before origin after split noneBefore foreign
    have isRecord := (reported branch member _).mpr ⟨tag, echoes, rfl⟩
    exact List.ne_nil_of_mem (List.mem_filterMap.mpr ⟨branch, member, isRecord⟩)

/-- The rule reports exactly the branches of a `with` or a `case` that echo a tag of a
foreign target. The tag begins a tuple or stands alone; where no branch echoes one
that stands alone, the branches reported are those on tagged tuples. -/
theorem errorMapping_reportsEchoes (settings : RuleSettings) (context : ModuleContext)
    (site : Site) (branches : List Node) (targets : List Target)
    (handles :
      site.node.kind = .withExpr ∧ branches = (elseBranches? site.node).getD [] ∧
          targets = withTargets settings.trusted context.scope site.node ∨
        site.node.kind = .caseExpr ∧ branches = site.node.children.drop 1 ∧
          targets = (caseTarget? settings.trusted context.scope site.node).toList) :
    ReportsEchoes Node.IsTagged branches targets
        (Rule.errorMapping.check settings context site) ∧
      ((∀ branch ∈ branches, ∀ tag, ¬EchoesTag Node.IsBareTag branch tag) →
        ReportsEchoes Node.IsTaggedTuple branches targets
          (Rule.errorMapping.check settings context site)) := by
  have parts : branchesAndTargets settings.trusted context.scope site.node =
      (branches, targets) := by
    rw [branchesAndTargets]
    rcases handles with ⟨isWith, rfl, rfl⟩ | ⟨isCase, rfl, rfl⟩
    · rw [if_pos isWith]
    · have notWith : site.node.kind ≠ .withExpr := by
        rw [isCase]
        decide
      rw [if_neg notWith]
  have reports := reportsEchoes_of_parts settings context site parts
  exact ⟨reports, reports.of_noBareTag⟩

/-! ## Tags in tuples and alone -/

open WithElse (atomForm branchForm)

def tupleForm (line : Nat) (parts : List Node) : Node :=
  ⟨.tuple, lineSpan line, [], parts⟩

/-- A branch that returns what it matches. -/
def echoForm (line : Nat) (pattern : Node) : Node :=
  ⟨.branch, lineSpan line, [], [pattern, pattern]⟩

def caseForm (line : Nat) (subject : Node) (branches : List Node) : Node :=
  ⟨.caseExpr, lineSpan line, [], subject :: branches⟩

def lateBranch : Node :=
  echoForm 5 (tupleForm 5 [atomForm 5 "error", neededParam 5])

/-- A `case` on a call into another module that passes success and a tagged error
on and maps the rest. -/
def mappingCase : Node :=
  caseForm 3 (callForm 3 (.text "B") "g" [])
    [echoForm 4 (tupleForm 4 [atomForm 4 "ok", neededParam 4]), lateBranch,
      branchForm 6 (neededParam 6)]

def bareBranch : Node :=
  echoForm 4 (atomForm 4 "timeout")

/-- A `case` on a call into another module that passes an atom on. -/
def bareCase : Node :=
  caseForm 3 (callForm 3 (.text "B") "g" []) [bareBranch]

def foreignTarget : Target :=
  ⟨callForm 3 (.text "B") "g" [], callForm 3 (.text "B") "g" [],
    some (callForm 3 (.text "B") "g" []), 0, some "B", false, false⟩

def plainSettings : RuleSettings :=
  ⟨[], [], "is_", "?", []⟩

def contextOf (scope : ModuleScope) : ModuleContext :=
  ⟨scope, .ofScope scope⟩

theorem errorMapping_reportsEchoes_late :
    ∃ scope, ModuleScope.ofModule (fun _ => false)
        (moduleOf [functionForm 2 "f" "public" [] [mappingCase]]) = .ok scope ∧
      mappingCase.kind = .caseExpr ∧
      (caseTarget? [] scope mappingCase).toList = [foreignTarget] ∧
      Rule.errorMapping.check plainSettings (contextOf scope) ⟨[0, 1, 0], mappingCase⟩ =
        [advisory foreignTarget lateBranch "error"] ∧
      ReportsEchoes Node.IsTaggedTuple (mappingCase.children.drop 1)
        (caseTarget? [] scope mappingCase).toList
        (Rule.errorMapping.check plainSettings (contextOf scope) ⟨[0, 1, 0], mappingCase⟩) := by
  have indexed : ModuleScope.ofModule (fun _ => false)
      (moduleOf [functionForm 2 "f" "public" [] [mappingCase]]) = .ok _ := rfl
  refine ⟨_, indexed, rfl, rfl, rfl, ?_⟩
  refine (errorMapping_reportsEchoes plainSettings (contextOf _) ⟨[0, 1, 0], mappingCase⟩ _ _
    (.inr ⟨rfl, rfl, rfl⟩)).2 ?_
  rintro branch member tag ⟨pattern, body, parts, bare, -⟩
  simp only [mappingCase, caseForm, List.drop_succ_cons, List.drop_zero, List.mem_cons,
    List.not_mem_nil, or_false] at member
  rcases member with rfl | rfl | rfl <;> cases parts <;> cases bare.1

/-- An echo of an atom is reported too, which is no tagged tuple. -/
theorem errorMapping_reports_bare_atom :
    ∃ scope, ModuleScope.ofModule (fun _ => false)
        (moduleOf [functionForm 2 "f" "public" [] [bareCase]]) = .ok scope ∧
      Rule.errorMapping.check plainSettings (contextOf scope) ⟨[0, 1, 0], bareCase⟩ =
        [advisory foreignTarget bareBranch "timeout"] ∧
      ¬ReportsEchoes Node.IsTaggedTuple [bareBranch] (caseTarget? [] scope bareCase).toList
        (Rule.errorMapping.check plainSettings (contextOf scope) ⟨[0, 1, 0], bareCase⟩) := by
  have indexed : ModuleScope.ofModule (fun _ => false)
      (moduleOf [functionForm 2 "f" "public" [] [bareCase]]) = .ok _ := rfl
  refine ⟨_, indexed, rfl, ?_⟩
  intro reports
  obtain ⟨record?, same, reported⟩ := reports.exact [] foreignTarget [] rfl (by simp) rfl
  have isRecord : record? bareBranch = some (advisory foreignTarget bareBranch "timeout") := by
    have listed : [advisory foreignTarget bareBranch "timeout"] =
        [bareBranch].filterMap record? := same
    cases found : record? bareBranch with
    | none => simp [found] at listed
    | some record => simpa [found, eq_comm] using listed
  obtain ⟨tag, ⟨pattern, body, parts, onTuple, -⟩, -⟩ :=
    (reported bareBranch (by simp) _).mp isRecord
  cases parts
  obtain ⟨first, rest, isTuple, -⟩ := onTuple
  cases isTuple

end ErrorMapping
end StyleAudit
