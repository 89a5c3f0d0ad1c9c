import StyleAudit.Proofs.Audit.RuleRecords
import StyleAudit.Proofs.Module.ShuffledClauses

/-!
# Verdicts about functions

The rules on tagged results and on names of predicates are asked about every clause of a
function, and judge the function as a whole: what all its clauses return together
(`FunctionGroup.TagsReported`, `FunctionGroup.NameReported`). They answer at the first clause
only, so an evaluation has each verdict once (`clauses_judged_together`), and it is the same
when the clauses are exchanged among their positions (`KeepsVerdicts`).
-/

namespace StyleAudit

variable {isNested : String → Bool} {m tree n : Node} {scope : ModuleScope}
  {path way : NodePath} {group shuffled : FunctionGroup} {config : Config} {rule : Rule}

/-! ## What a function returns -/

namespace FunctionGroup

/-- Among the results of the function are a tagged one and a plain one. -/
def MixesTags (group : FunctionGroup) : Prop :=
  (∃ site ∈ Tagging.returnSites group, site.returnKind = .ok ∨ site.returnKind = .error) ∧
    ∃ site ∈ Tagging.returnSites group, site.returnKind = .plain

/-- The function is no callback, and tags a success when it does not raise. -/
def OnlySucceeds (group : FunctionGroup) : Prop :=
  (∃ site ∈ Tagging.returnSites group, site.returnKind = .ok) ∧
    (∀ site ∈ Tagging.returnSites group, site.returnKind = .ok ∨ site.returnKind = .raise) ∧
    group.key.name ∉ Tagging.callbackNames

theorem OnlySucceeds.not_mixesTags (succeeds : group.OnlySucceeds) : ¬group.MixesTags := by
  rintro ⟨-, site, member, isPlain⟩
  rcases succeeds.2.1 site member with isOk | isRaise
  · rw [isPlain] at isOk
    cases isOk
  · rw [isPlain] at isRaise
    cases isRaise

/-- About the results of a function there is one record for each plain one, if the others are
tagged, or one at the first clause, if the function can only succeed. -/
structure TagsReported (group : FunctionGroup) (records : List Violation) : Prop where
  mixed : group.MixesTags → ∃ message, records =
    ((Tagging.returnSites group).filter (·.returnKind == .plain)).map fun site =>
      Rule.okErrorReturnConsistency.report ⟨site.span, message⟩
  succeeds : group.OnlySucceeds → ∃ message, records =
    [Rule.okErrorReturnConsistency.report ⟨group.first.node.span, message⟩]
  otherwise : ¬group.MixesTags → ¬group.OnlySucceeds → records = []

/-- There is at most one record about the name of a function, at its first clause. -/
def NameReported (group : FunctionGroup) (records : List Violation) : Prop :=
  records = [] ∨ ∃ message,
    records = [Rule.predicateNaming.report ⟨group.first.node.span, message⟩]

end FunctionGroup

namespace Tagging

/-- The results of a function with their kinds. -/
def siteKinds (group : FunctionGroup) : List (Node × ReturnKind) :=
  (returnSites group).map fun returned => (returned, returned.returnKind)

/-- The findings about the results of a function whose first clause is a node. -/
def answer (group : FunctionGroup) (n : Node) : List Finding :=
  judge group n (siteKinds group)

/-- The findings about the results of a function. -/
def verdict (group : FunctionGroup) : List Finding :=
  answer group group.first.node

/-- What is wrong with a plain result. -/
def plainMessage (key : FunctionKey) : String :=
  s!"{key.text} returns tagged results elsewhere " ++ "but an untagged value here."

/-- What is wrong with a success that is tagged. -/
def successMessage (key : FunctionKey) : String :=
  s!"{key.text} can only succeed yet wraps its result in `:ok`; " ++ "return the value itself."

theorem any_siteKinds_iff {kind : ReturnKind} :
    (siteKinds group).any (fun (_, found) => found == kind) = true ↔
      ∃ site ∈ returnSites group, site.returnKind = kind := by
  simp [siteKinds]

theorem mixesTags_iff :
    (((siteKinds group).any (fun (_, found) => found == .ok) ||
      (siteKinds group).any fun (_, found) => found == .error) &&
      (siteKinds group).any fun (_, found) => found == .plain) = true ↔ group.MixesTags := by
  simp only [FunctionGroup.MixesTags, Bool.and_eq_true, Bool.or_eq_true, any_siteKinds_iff,
    and_or_left, exists_or]

theorem onlySucceeds_iff :
    ((siteKinds group).any (fun (_, found) => found == .ok) &&
      (siteKinds group).all (fun (_, found) => found == .ok || found == .raise) &&
      !callbackNames.contains group.key.name) = true ↔ group.OnlySucceeds := by
  have onlyThese : (siteKinds group).all (fun (_, found) => found == .ok || found == .raise) =
      true ↔ ∀ site ∈ returnSites group, site.returnKind = .ok ∨ site.returnKind = .raise := by
    simp [siteKinds]
  simp only [FunctionGroup.OnlySucceeds, Bool.and_eq_true, any_siteKinds_iff, onlyThese,
    Bool.not_eq_true', ← Bool.not_eq_true, List.contains_iff_mem, and_assoc]

theorem verdict_of_mixesTags (mixes : group.MixesTags) :
    verdict group = ((returnSites group).filter (·.returnKind == .plain)).map fun site =>
      ⟨site.span, plainMessage group.key⟩ := by
  rw [verdict, answer, judge, if_pos (mixesTags_iff.mpr mixes), siteKinds, List.filter_map,
    List.map_map]
  rfl

theorem verdict_of_onlySucceeds (succeeds : group.OnlySucceeds) :
    verdict group = [⟨group.first.node.span, successMessage group.key⟩] := by
  rw [verdict, answer, judge, if_neg (mixesTags_iff.not.mpr succeeds.not_mixesTags),
    if_pos (onlySucceeds_iff.mpr succeeds)]
  rfl

theorem verdict_of_neither (unmixed : ¬group.MixesTags) (mayFail : ¬group.OnlySucceeds) :
    verdict group = [] := by
  rw [verdict, answer, judge, if_neg (mixesTags_iff.not.mpr unmixed),
    if_neg (onlySucceeds_iff.not.mpr mayFail)]

theorem verdict_congr {kept : FunctionGroup} (sameKey : kept.key = group.key)
    (sameClauses : kept.clauses = group.clauses) : verdict kept = verdict group := by
  have sameFirst : kept.first = group.first := (List.cons.inj sameClauses).1
  have sameKinds : siteKinds kept = siteKinds group := by
    rw [siteKinds, siteKinds, returnSites, returnSites, FunctionGroup.bodies,
      FunctionGroup.bodies, sameClauses]
  rw [verdict, verdict, answer, answer, sameFirst, sameKinds, judge, judge, sameKey]

theorem tagsReported_verdict (group : FunctionGroup) :
    group.TagsReported ((verdict group).map Rule.okErrorReturnConsistency.report) := by
  refine ⟨?_, ?_, ?_⟩
  · intro mixes
    rw [verdict_of_mixesTags mixes, List.map_map]
    exact ⟨_, rfl⟩
  · intro succeeds
    rw [verdict_of_onlySucceeds succeeds]
    exact ⟨_, rfl⟩
  · intro unmixed mayFail
    rw [verdict_of_neither unmixed mayFail]
    rfl

end Tagging

namespace Naming

/-- The findings about the name of a function whose first clause is a node. -/
def answer (settings : RuleSettings) (group : FunctionGroup) (n : Node) : List Finding :=
  misnamed group n (predicateProblems settings group.key.name (returnsBoolean group))

/-- The findings about the name of a function. -/
def verdict (settings : RuleSettings) (group : FunctionGroup) : List Finding :=
  answer settings group group.first.node

theorem misnamed_cases (group : FunctionGroup) (problems : List String) :
    (∀ n, misnamed group n problems = []) ∨
      ∃ message, ∀ n, misnamed group n problems = [⟨n.span, message⟩] := by
  cases problems with
  | nil => exact Or.inl fun _ => rfl
  | cons problem others => exact Or.inr ⟨_, fun _ => rfl⟩

theorem answer_congr {settings : RuleSettings} {kept : FunctionGroup}
    (sameKey : kept.key = group.key) (sameBoolean : returnsBoolean kept = returnsBoolean group) :
    answer settings kept = answer settings group := by
  funext n
  rw [answer, answer, sameBoolean, sameKey]
  cases predicateProblems settings group.key.name (returnsBoolean group) with
  | nil => rfl
  | cons problem others => simp only [misnamed, sameKey]

theorem verdict_congr {settings : RuleSettings} {kept : FunctionGroup}
    (sameKey : kept.key = group.key) (sameClauses : kept.clauses = group.clauses) :
    verdict settings kept = verdict settings group := by
  have sameFirst : kept.first = group.first := (List.cons.inj sameClauses).1
  have sameBoolean : returnsBoolean kept = returnsBoolean group := by
    rw [returnsBoolean, returnsBoolean, FunctionGroup.bodies, FunctionGroup.bodies, sameClauses]
  rw [verdict, verdict, sameFirst, answer_congr sameKey sameBoolean]

theorem nameReported_verdict (settings : RuleSettings) (group : FunctionGroup) :
    group.NameReported ((verdict settings group).map Rule.predicateNaming.report) := by
  rw [verdict, answer]
  rcases misnamed_cases group (predicateProblems settings group.key.name (returnsBoolean group))
    with quiet | ⟨message, reported⟩
  · rw [quiet]
    exact Or.inl rfl
  · rw [reported]
    exact Or.inr ⟨message, rfl⟩

end Naming

/-! ## Answers at the first clause -/

/-- The answer about a function at the site of its first clause, and none elsewhere. -/
def ModuleScope.atFirst (scope : ModuleScope) (answer : FunctionGroup → Node → List Finding)
    (site : Site) : List Finding :=
  match scope.functionForClause? site.path with
  | none => []
  | some group => if site.path = [group.first.position] then answer group site.node else []

theorem Tagging.check_eq_atFirst (site : Site) :
    Tagging.check scope site = scope.atFirst Tagging.answer site :=
  rfl

theorem Naming.predicate_eq_atFirst (settings : RuleSettings) (site : Site) :
    Naming.predicate settings scope site = scope.atFirst (Naming.answer settings) site :=
  rfl

section Answers

variable {answer : FunctionGroup → Node → List Finding}

/-- A function is judged at its first clause and nowhere else. -/
theorem atFirst_of_clause (index : Indexes (clausesOf m.children) scope.functions)
    (member : group ∈ scope.functions) {clause : Clause} (listed : clause ∈ group.clauses) :
    scope.atFirst answer ⟨[clause.position], clause.node⟩ =
      if clause.position = group.first.position then answer group group.first.node else [] := by
  have found : scope.functionForClause? [clause.position] = some group :=
    (functionForClause?_eq_some_iff index).mpr ⟨member, clause, listed, rfl⟩
  rw [ModuleScope.atFirst, found]
  dsimp only
  by_cases isFirst : clause.position = group.first.position
  · have firstListed : group.first ∈ group.clauses := List.mem_cons_self
    rw [index.clauses_eq group member] at listed firstListed
    rw [eq_of_position_eq (List.mem_of_mem_filter listed) (List.mem_of_mem_filter firstListed)
      isFirst, if_pos rfl, if_pos rfl]
  · rw [if_neg (by simpa using isFirst), if_neg isFirst]

theorem atFirst_elsewhere (indexed : ModuleScope.ofModule isNested m = .ok scope)
    (reached : m.at? way = some n) (apart : way.length ≠ 1 ∨ n.kind ≠ .function) :
    scope.atFirst answer ⟨way, n⟩ = [] := by
  rw [ModuleScope.atFirst, (indexesForms_of_ofModule indexed).elsewhere way n reached apart]

end Answers

/-! ## Records about a function -/

namespace Catalog

/-- What is said by a rule about the clauses of a function of the module at a path. -/
def clauseRecords (catalog : Catalog) (isNested : String → Bool) (tree : Node) (rule : Rule)
    (path : NodePath) (group : FunctionGroup) : List Violation :=
  group.clauses.flatMap fun clause =>
    catalog.recordsOf isNested tree rule (path ++ [clause.position])

theorem isOwn_clause (indexed : ModuleScope.ofModule isNested m = .ok scope)
    (member : group ∈ scope.functions) {clause : Clause} (listed : clause ∈ group.clauses) :
    m.IsOwn [clause.position] clause.node := by
  have isModule := (ofModule_eq_ok_iff.mp indexed).1
  obtain ⟨found, isFunction, -⟩ :=
    ((indexes_of_ofModule indexed).mem_clauses_iff member).mp listed
  have itself : m.IsOwn [] m := ⟨rfl, by rw [Node.enclosing, Node.asModule, if_pos isModule]⟩
  refine itself.to_child found ?_
  rw [isFunction]
  decide

section Answers

variable {answer : FunctionGroup → Node → List Finding}

/-- A rule that answers at the first clause of a function is heard once about it. -/
theorem Reaches.clauseRecords_eq (reaches : Reaches isNested tree path m)
    (indexed : ModuleScope.ofModule isNested m = .ok scope) (member : group ∈ scope.functions)
    (looksAt : rule.kinds = [.function])
    (answers : ∀ site, rule.findings config.ruleSettings ⟨scope, CallGraph.ofScope scope⟩ site =
      scope.atFirst answer site) :
    (ofConfig config).clauseRecords isNested tree rule path group =
      if rule.id ∈ config.disabled then [] else
        (answer group group.first.node).map rule.report := by
  have index := indexes_of_ofModule indexed
  have each : ∀ clause ∈ group.clauses,
      (ofConfig config).recordsOf isNested tree rule (path ++ [clause.position]) =
        if rule.id ∉ config.disabled ∧ clause.position = group.first.position then
          (answer group group.first.node).map rule.report
        else [] := by
    intro clause listed
    have looked : clause.node.kind ∈ rule.kinds := by
      rw [looksAt, ((index.mem_clauses_iff member).mp listed).2.1]
      exact List.mem_cons_self
    rw [reaches.recordsOf_ofConfig indexed (isOwn_clause indexed member listed), Rule.check,
      answers, atFirst_of_clause index member listed]
    by_cases isFirst : clause.position = group.first.position
    · simp only [isFirst, looked, and_true, if_true]
    · simp only [isFirst, and_false, if_false, List.map_nil, ite_self]
  -- The first clause stands before the others, at which the rule is silent.
  have behind := (List.pairwise_cons.mp (index.pairwise_clauses member)).1
  have others : group.others.flatMap (fun clause =>
      (ofConfig config).recordsOf isNested tree rule (path ++ [clause.position])) = [] := by
    rw [List.flatMap_eq_nil_iff]
    intro clause later
    rw [each clause (List.mem_cons_of_mem _ later), if_neg]
    exact fun both => (behind clause later).ne' both.2
  rw [clauseRecords, FunctionGroup.clauses, List.flatMap_cons, each _ List.mem_cons_self, others,
    List.append_nil]
  by_cases isDisabled : rule.id ∈ config.disabled <;> simp [isDisabled]

/-- Such a rule is silent about what is no clause of a function. -/
theorem Reaches.recordsOf_elsewhere (reaches : Reaches isNested tree path m)
    (indexed : ModuleScope.ofModule isNested m = .ok scope) (own : m.IsOwn way n)
    (apart : way.length ≠ 1 ∨ n.kind ≠ .function)
    (answers : ∀ site, rule.findings config.ruleSettings ⟨scope, CallGraph.ofScope scope⟩ site =
      scope.atFirst answer site) :
    (ofConfig config).recordsOf isNested tree rule (path ++ way) = [] := by
  rw [reaches.recordsOf_ofConfig indexed own, Rule.check, answers,
    atFirst_elsewhere indexed own.reached apart, List.map_nil, ite_self]

end Answers

end Catalog

/-! ## Clauses in another order -/

namespace FunctionGroup.ShuffledTo

theorem returnSites_perm (shuffles : group.ShuffledTo shuffled) :
    (Tagging.returnSites shuffled).Perm (Tagging.returnSites group) := by
  have bodies : ∀ other : FunctionGroup, other.bodies =
      (other.clauses.map (·.node)).filterMap fun form => Clause.body? ⟨0, form⟩ := by
    intro other
    rw [FunctionGroup.bodies, List.filterMap_map]
    rfl
  rw [Tagging.returnSites, Tagging.returnSites, bodies, bodies]
  exact (shuffles.forms.filterMap _).flatMap_right _

theorem mixesTags_iff (shuffles : group.ShuffledTo shuffled) :
    shuffled.MixesTags ↔ group.MixesTags := by
  simp only [FunctionGroup.MixesTags, shuffles.returnSites_perm.mem_iff]

theorem onlySucceeds_iff (shuffles : group.ShuffledTo shuffled) :
    shuffled.OnlySucceeds ↔ group.OnlySucceeds := by
  simp only [FunctionGroup.OnlySucceeds, shuffles.returnSites_perm.mem_iff, shuffles.key]

theorem returnsBoolean_eq (shuffles : group.ShuffledTo shuffled) :
    Naming.returnsBoolean shuffled = Naming.returnsBoolean group := by
  have perm := shuffles.returnSites_perm
  rw [Tagging.returnSites, Tagging.returnSites] at perm
  rw [Naming.returnsBoolean, Naming.returnsBoolean, perm.isEmpty_eq, perm.all_eq]

end FunctionGroup.ShuffledTo

/-- Both times nothing is said about a function, or the same at its first clause. -/
def FunctionGroup.SameAtFirst (group shuffled : FunctionGroup) (rule : Rule)
    (records again : List Violation) : Prop :=
  records = [] ∧ again = [] ∨ ∃ message,
    records = [rule.report ⟨group.first.node.span, message⟩] ∧
      again = [rule.report ⟨shuffled.first.node.span, message⟩]

namespace FunctionGroup.ShuffledTo

theorem tags_perm (shuffles : group.ShuffledTo shuffled) (mixes : group.MixesTags) :
    (Tagging.verdict shuffled).Perm (Tagging.verdict group) := by
  rw [Tagging.verdict_of_mixesTags mixes,
    Tagging.verdict_of_mixesTags (shuffles.mixesTags_iff.mpr mixes), shuffles.key]
  exact (shuffles.returnSites_perm.filter _).map _

/-- The verdict on tags does not depend on the order of the clauses, unless the
function mixes tags. -/
theorem sameAtFirst_tags (shuffles : group.ShuffledTo shuffled) (unmixed : ¬group.MixesTags) :
    group.SameAtFirst shuffled .okErrorReturnConsistency
      ((Tagging.verdict group).map Rule.okErrorReturnConsistency.report)
      ((Tagging.verdict shuffled).map Rule.okErrorReturnConsistency.report) := by
  by_cases succeeds : group.OnlySucceeds
  · rw [Tagging.verdict_of_onlySucceeds succeeds,
      Tagging.verdict_of_onlySucceeds (shuffles.onlySucceeds_iff.mpr succeeds), shuffles.key]
    exact Or.inr ⟨_, rfl, rfl⟩
  · rw [Tagging.verdict_of_neither unmixed succeeds,
      Tagging.verdict_of_neither (shuffles.mixesTags_iff.not.mpr unmixed)
        (shuffles.onlySucceeds_iff.not.mpr succeeds)]
    exact Or.inl ⟨rfl, rfl⟩

/-- The verdict on the name does not depend on the order of the clauses. -/
theorem sameAtFirst_names (shuffles : group.ShuffledTo shuffled) (settings : RuleSettings) :
    group.SameAtFirst shuffled .predicateNaming
      ((Naming.verdict settings group).map Rule.predicateNaming.report)
      ((Naming.verdict settings shuffled).map Rule.predicateNaming.report) := by
  rw [Naming.verdict, Naming.verdict,
    Naming.answer_congr shuffles.key shuffles.returnsBoolean_eq, Naming.answer, Naming.answer]
  rcases Naming.misnamed_cases group (Naming.predicateProblems settings group.key.name
    (Naming.returnsBoolean group)) with quiet | ⟨message, reported⟩
  · rw [quiet, quiet]
    exact Or.inl ⟨rfl, rfl⟩
  · rw [reported, reported]
    exact Or.inr ⟨message, rfl, rfl⟩

end FunctionGroup.ShuffledTo

namespace Catalog

/-- An evaluation judges each function of the module as a whole, and says nothing about what is
no clause of a function. -/
structure JudgesTogether (config : Config) (isNested : String → Bool) (tree : Node)
    (path : NodePath) (m : Node) (scope : ModuleScope) : Prop where
  tags : ∀ group ∈ scope.functions, Rule.okErrorReturnConsistency.id ∉ config.disabled →
    group.TagsReported ((ofConfig config).clauseRecords isNested tree
      .okErrorReturnConsistency path group)
  names : ∀ group ∈ scope.functions, group.NameReported
    ((ofConfig config).clauseRecords isNested tree .predicateNaming path group)
  elsewhere : ∀ way n, m.IsOwn way n → way.length ≠ 1 ∨ n.kind ≠ .function →
    (ofConfig config).recordsOf isNested tree .okErrorReturnConsistency (path ++ way) = [] ∧
      (ofConfig config).recordsOf isNested tree .predicateNaming (path ++ way) = []

/-- Of a module and one with shuffled clauses of a function, the verdicts about the function
agree but for the order of its plain results and for its first clause, and those about the
other functions are the same. -/
structure KeepsVerdicts (config : Config) (isNested : String → Bool) (tree other : Node)
    (path way : NodePath) (scope rebuilt : ModuleScope) (group shuffled : FunctionGroup) :
    Prop where
  tags : group.MixesTags ∧ shuffled.MixesTags ∧
      ((ofConfig config).clauseRecords isNested other .okErrorReturnConsistency way
        shuffled).Perm
        ((ofConfig config).clauseRecords isNested tree .okErrorReturnConsistency path group) ∨
    group.SameAtFirst shuffled .okErrorReturnConsistency
      ((ofConfig config).clauseRecords isNested tree .okErrorReturnConsistency path group)
      ((ofConfig config).clauseRecords isNested other .okErrorReturnConsistency way shuffled)
  names : group.SameAtFirst shuffled .predicateNaming
    ((ofConfig config).clauseRecords isNested tree .predicateNaming path group)
    ((ofConfig config).clauseRecords isNested other .predicateNaming way shuffled)
  others : ∀ unmoved ∈ scope.functions, unmoved ≠ group → ∃ kept ∈ rebuilt.functions,
    kept.key = unmoved.key ∧ kept.clauses = unmoved.clauses ∧
      ∀ rule ∈ [Rule.okErrorReturnConsistency, .predicateNaming],
        (ofConfig config).clauseRecords isNested other rule way kept =
          (ofConfig config).clauseRecords isNested tree rule path unmoved

section Verdicts

variable {other : Node} {rebuilt : ModuleScope}

theorem Reaches.tags_eq (reaches : Reaches isNested tree path m)
    (indexed : ModuleScope.ofModule isNested m = .ok scope) (member : group ∈ scope.functions) :
    (ofConfig config).clauseRecords isNested tree .okErrorReturnConsistency path group =
      if Rule.okErrorReturnConsistency.id ∈ config.disabled then [] else
        (Tagging.verdict group).map Rule.okErrorReturnConsistency.report := by
  rw [Tagging.verdict]
  exact reaches.clauseRecords_eq indexed member rfl Tagging.check_eq_atFirst

theorem Reaches.names_eq (reaches : Reaches isNested tree path m)
    (indexed : ModuleScope.ofModule isNested m = .ok scope) (member : group ∈ scope.functions) :
    (ofConfig config).clauseRecords isNested tree .predicateNaming path group =
      if Rule.predicateNaming.id ∈ config.disabled then [] else
        (Naming.verdict config.ruleSettings group).map Rule.predicateNaming.report := by
  rw [Naming.verdict]
  exact reaches.clauseRecords_eq indexed member rfl
    (Naming.predicate_eq_atFirst config.ruleSettings)

theorem Reaches.judgesTogether (reaches : Reaches isNested tree path m)
    (indexed : ModuleScope.ofModule isNested m = .ok scope) :
    JudgesTogether config isNested tree path m scope := by
  refine ⟨?_, ?_, ?_⟩
  · intro group member isEnabled
    rw [reaches.tags_eq indexed member, if_neg isEnabled]
    exact Tagging.tagsReported_verdict group
  · intro group member
    rw [reaches.names_eq indexed member]
    split
    · exact Or.inl rfl
    · exact Naming.nameReported_verdict config.ruleSettings group
  · intro way n own apart
    exact ⟨reaches.recordsOf_elsewhere indexed own apart Tagging.check_eq_atFirst,
      reaches.recordsOf_elsewhere indexed own apart
        (Naming.predicate_eq_atFirst config.ruleSettings)⟩

/-- The records about the functions of a module stay when clauses of one function are
exchanged. -/
theorem Reaches.keepsVerdicts (reaches : Reaches isNested tree path m)
    (indexed : ModuleScope.ofModule isNested m = .ok scope) (member : group ∈ scope.functions)
    {forms : List Node} (again : Reaches isNested other way { m with children := forms })
    (indexedAgain : ModuleScope.ofModule isNested { m with children := forms } = .ok rebuilt)
    (shuffledMember : shuffled ∈ rebuilt.functions) (shuffles : group.ShuffledTo shuffled)
    (others : ∀ unmoved ∈ scope.functions, unmoved ≠ group → ∃ kept ∈ rebuilt.functions,
      kept.key = unmoved.key ∧ kept.clauses = unmoved.clauses) :
    KeepsVerdicts config isNested tree other path way scope rebuilt group shuffled := by
  refine ⟨?_, ?_, ?_⟩
  · rw [reaches.tags_eq indexed member, again.tags_eq indexedAgain shuffledMember]
    split
    · exact Or.inr (Or.inl ⟨rfl, rfl⟩)
    · by_cases mixes : group.MixesTags
      · exact Or.inl ⟨mixes, shuffles.mixesTags_iff.mpr mixes,
          (shuffles.tags_perm mixes).map _⟩
      · exact Or.inr (shuffles.sameAtFirst_tags mixes)
  · rw [reaches.names_eq indexed member, again.names_eq indexedAgain shuffledMember]
    split
    · exact Or.inl ⟨rfl, rfl⟩
    · exact shuffles.sameAtFirst_names config.ruleSettings
  · intro unmoved unmovedMember isOther
    obtain ⟨kept, keptMember, sameKey, sameClauses⟩ := others unmoved unmovedMember isOther
    refine ⟨kept, keptMember, sameKey, sameClauses, ?_⟩
    intro rule isJudge
    rcases List.mem_cons.mp isJudge with rfl | isLast
    · rw [reaches.tags_eq indexed unmovedMember, again.tags_eq indexedAgain keptMember,
        Tagging.verdict_congr sameKey sameClauses]
    · obtain rfl := List.mem_singleton.mp isLast
      rw [reaches.names_eq indexed unmovedMember, again.names_eq indexedAgain keptMember,
        Naming.verdict_congr sameKey sameClauses]

end Verdicts

end Catalog

/-- An evaluation has about each function of a module one record for each plain result, or one
at its first clause, or none, and at most one about its name. Where its clauses are exchanged
among their positions, the verdicts about it stay, and so do those about the other
functions. -/
theorem clauses_judged_together (indexed : ModuleScope.ofModule isNested m = .ok scope)
    (config : Config) :
    (∀ tree path, Catalog.Reaches isNested tree path m →
      ∃ found, (Catalog.ofConfig config).evaluate isNested tree = .ok found ∧
        (∀ rule : Rule, found.filter (·.ruleId == rule.id) =
          tree.positions.flatMap ((Catalog.ofConfig config).recordsOf isNested tree rule)) ∧
        Catalog.JudgesTogether config isNested tree path m scope) ∧
    ∀ group ∈ scope.functions, ∀ forms, m.ShufflesClauses group forms →
      ∃ rebuilt, ModuleScope.ofModule isNested { m with children := forms } = .ok rebuilt ∧
        ∃ shuffled ∈ rebuilt.functions, group.ShuffledTo shuffled ∧
          ∀ tree path other way, Catalog.Reaches isNested tree path m →
            Catalog.Reaches isNested other way { m with children := forms } →
              Catalog.KeepsVerdicts config isNested tree other path way scope rebuilt group
                shuffled := by
  constructor
  · intro tree path reaches
    obtain ⟨found, returned, records⟩ := reaches.exists_evaluate (Catalog.ofConfig config)
    exact ⟨found, returned, records, reaches.judgesTogether indexed⟩
  · intro group member forms shuffles
    obtain ⟨rebuilt, indexedAgain, ⟨shuffled, shuffledMember, moved⟩, others⟩ :=
      exists_ofModule_of_shuffles indexed member shuffles
    refine ⟨rebuilt, indexedAgain, shuffled, shuffledMember, moved, ?_⟩
    intro tree path other way reaches again
    exact reaches.keepsVerdicts indexed member again indexedAgain shuffledMember moved others

/-! ## Clauses that are exchanged -/

/-- A function that returns the result. -/
def returning (line : Nat) (result : Node) : Node :=
  functionForm line "f" "public" [neededParam line] [result]

/-- A clause that tags its result. -/
def taggingClause : Node :=
  returning 2 ⟨.tuple, lineSpan 2, [], [⟨.atom, lineSpan 2, [("value", .one (.text "ok"))], []⟩,
    neededParam 2]⟩

/-- A clause that does not. -/
def plainClause : Node :=
  returning 6 ⟨.literal, lineSpan 6, [("value", .one (.int 1))], []⟩

/-- Another function. -/
def middleForm : Node :=
  functionForm 4 "g" "private" [] []

/-- A function with another one between its clauses. -/
def apartModule : Node :=
  moduleOf [taggingClause, middleForm, plainClause]

/-- The same with the clauses exchanged. -/
def exchangedModule : Node :=
  moduleOf [plainClause, middleForm, taggingClause]

/-- The function of both clauses. -/
def mixingFunction : FunctionGroup :=
  (FunctionGroup.ofClause 0 ⟨0, taggingClause⟩).addClause ⟨2, plainClause⟩

theorem clauses_judged_together_exchanged :
    ∃ scope rebuilt shuffled message,
      ModuleScope.ofModule (fun _ => false) apartModule = .ok scope ∧
      (Catalog.ofConfig .plain).clauseRecords (fun _ => false) apartModule
          .okErrorReturnConsistency [] mixingFunction =
        [Rule.okErrorReturnConsistency.report ⟨lineSpan 6, message⟩] ∧
      Catalog.KeepsVerdicts .plain (fun _ => false) apartModule exchangedModule [] [] scope
        rebuilt mixingFunction shuffled := by
  obtain ⟨scope, indexed, functions⟩ : ∃ scope,
      ModuleScope.ofModule (fun _ => false) apartModule = .ok scope ∧
        scope.functions = [mixingFunction, FunctionGroup.ofClause 1 ⟨1, middleForm⟩] :=
    ⟨_, rfl, rfl⟩
  have member : mixingFunction ∈ scope.functions := by
    rw [functions]
    exact List.mem_cons_self
  have returned : Catalog.importsOnly.evaluate (fun _ => false) apartModule = .ok [] := by
    decide +kernel
  have returnedAgain : Catalog.importsOnly.evaluate (fun _ => false) exchangedModule = .ok [] := by
    decide +kernel
  have shuffles : apartModule.ShufflesClauses mixingFunction
      [plainClause, middleForm, taggingClause] := by
    refine ⟨List.Perm.swap _ _ _, ?_⟩
    intro position isOther
    match position with
    | 0 => exact absurd rfl (isOther ⟨0, taggingClause⟩ List.mem_cons_self)
    | 1 => rfl
    | 2 => exact absurd rfl (isOther ⟨2, plainClause⟩ (List.mem_cons_of_mem _ List.mem_cons_self))
    | _ + 3 => rfl
  obtain ⟨judged, exchanged⟩ := clauses_judged_together indexed .plain
  obtain ⟨_, _, _, together⟩ := judged apartModule [] (Catalog.reaches_self returned)
  obtain ⟨rebuilt, _, shuffled, _, _, kept⟩ := exchanged mixingFunction member _ shuffles
  have mixes : mixingFunction.MixesTags := ⟨⟨_, List.mem_cons_self, Or.inl rfl⟩,
    ⟨_, List.mem_cons_of_mem _ List.mem_cons_self, rfl⟩⟩
  obtain ⟨message, reported⟩ := (together.tags mixingFunction member (by decide)).mixed mixes
  exact ⟨scope, rebuilt, shuffled, message, indexed, reported, kept _ _ _ _
    (Catalog.reaches_self returned) (Catalog.reaches_self returnedAgain)⟩

end StyleAudit
