import Mathlib.Algebra.GroupWithZero.Nat
import StyleAudit.Audit.Engine
import StyleAudit.Proofs.Audit.Walk
import StyleAudit.Proofs.Report.Grade

/-!
# The share of one module

A dumped module contributes its `Engine.share` to the tally of a file: its
records, or one record in their place, and whether it counts as analyzed.
A tally is the sum of the shares of the modules that were attended before the
cancellation (`shares_of_analyzeModules`), and there is one exactly when every
one of them has a share (`analyzeModules_returns_iff`).
-/

namespace StyleAudit

/-- What one dumped module contributes to a tally. -/
structure Share where
  violations : List Violation
  modules : Nat

/-- The modules before the first reading that cancels the run. -/
def attended (cancel : Cancellation) (index : Nat) : List Value → List Value
  | [] => []
  | raw :: rest => if cancel index then [] else raw :: attended cancel (index + 1) rest

theorem attended_never (index : Nat) (modules : List Value) :
    attended .never index modules = modules := by
  induction modules generalizing index with
  | nil => rfl
  | cons raw rest inductionHypothesis =>
      rw [attended, inductionHypothesis]
      rfl

/-- A dumped source file with the given modules; `fields` are its other
entries. -/
def sourceFileDump (fields : List (String × Value)) (modules : List Value) : Value :=
  .table (("kind", .text "source_file") :: ("children", .list modules) :: fields)

theorem splitModules_sourceFileDump (fields : List (String × Value)) (modules : List Value)
    (file : String) :
    splitModules (sourceFileDump fields modules) (some file) = .ok (modules, file) := by
  cases modules with
  | nil => rfl
  | cons first rest => rfl

/-- A dumped module whose only form imports the function that an entry names. -/
def importingModule (entry : String) : Value :=
  .table [("kind", .text "module"), ("line", .int 2), ("attributes", .table [("name", .text "A")]),
    ("children", .list [.table [("kind", .text "import"), ("line", .int 3), ("column", .int 5),
      ("attributes", .table [("module", .text "B"), ("only", .text entry)])]])]

namespace Engine

/-- The engine of a project without settings: all rules, and no budget. -/
def ofDefaults : Engine :=
  { catalog :=
      { rules := Rule.all
        settings := ⟨Defaults.trustedModules, Defaults.testSupport, Defaults.guardMark,
          Defaults.predicateMark, Defaults.optionNames⟩ }
    isNested := exceedsDepth Defaults.contextDepth
    timeout := none }

theorem ofConfig_defaults :
    ∃ config, Config.ofSection (withStandardSupport []) = .ok config ∧
      ofConfig config .standard = .ok ofDefaults :=
  ⟨_, rfl, rfl⟩

/-- The share of a dumped module. When the evaluation took longer than the
budget given, only this is reported. -/
def share (engine : Engine) (file : String) (exceeded : Option Binary64) (raw : Value) :
    Except UnreadableArity Share :=
  match Node.normalize raw (some file) with
  | .error failure => .ok ⟨[malformedRecord raw file failure], 0⟩
  | .ok n =>
    if n.kind ≠ .module then .ok ⟨[strayRecord n], 0⟩
    else do
      let found ← engine.catalog.evaluate engine.isNested n
      match exceeded with
      | some budget => return ⟨[overBudgetRecord n budget], 0⟩
      | none => return ⟨found, 1⟩

variable {engine : Engine} {file : String} {cancel : Cancellation} {clock : Clock}
  {index tick : Nat} {modules : List Value} {raw : Value} {tally : Tally}

theorem exceeded?_eq (engine : Engine) (started ended : Binary64) :
    engine.exceeded? started ended = none ∨ engine.exceeded? started ended = engine.timeout := by
  rw [exceeded?]
  cases engine.timeout with
  | none => exact Or.inl rfl
  | some budget =>
      cases late : budget.less (ended.sub started) with
      | true => exact Or.inr (by rw [Option.filter_some, late]; rfl)
      | false => exact Or.inl (by rw [Option.filter_some, late]; rfl)

/-- One step of a run: the share of the first module is added to the tally of
the others. The readings of the clock that it takes do not depend on the
cancellation. -/
theorem analyzeModules_step (engine : Engine) (file : String) (clock : Clock) (tick : Nat)
    (raw : Value) :
    ∃ exceeded later, (exceeded = none ∨ exceeded = engine.timeout) ∧
      ∀ (cancel : Cancellation) (index : Nat), cancel index = false → ∀ rest,
        engine.analyzeModules file cancel clock index tick (raw :: rest) = do
          let share ← engine.share file exceeded raw
          let tally ← engine.analyzeModules file cancel clock (index + 1) later rest
          return ⟨share.violations ++ tally.violations, share.modules + tally.modules,
            tally.cancelled⟩ := by
  cases read : Node.normalize raw (some file) with
  | error failure =>
      refine ⟨none, tick + 1, Or.inl rfl, ?_⟩
      intro cancel index attends rest
      rw [analyzeModules, attends, share, read]
      cases engine.analyzeModules file cancel clock (index + 1) (tick + 1) rest with
      | error _ => rfl
      | ok tally => simp [Tally.addRecord, bind, Except.bind, pure, Except.pure]
  | ok n =>
      by_cases isModule : n.kind = .module
      · refine ⟨_, tick + 2, exceeded?_eq engine (clock tick) (clock (tick + 1)), ?_⟩
        intro cancel index attends rest
        rw [analyzeModules, attends, share, read]
        simp only [isModule]
        cases engine.catalog.evaluate engine.isNested n with
        | error _ => rfl
        | ok found =>
            cases engine.analyzeModules file cancel clock (index + 1) (tick + 2) rest with
            | error _ =>
                cases engine.exceeded? (clock tick) (clock (tick + 1)) <;> rfl
            | ok tally =>
                cases engine.exceeded? (clock tick) (clock (tick + 1)) with
                | none =>
                    simp [Tally.addModule, bind, Except.bind, pure, Except.pure, Nat.add_comm]
                | some budget =>
                    simp [Tally.addRecord, bind, Except.bind, pure, Except.pure]
      · refine ⟨none, tick + 1, Or.inl rfl, ?_⟩
        intro cancel index attends rest
        rw [analyzeModules, attends, share, read]
        simp only [if_pos isModule]
        cases engine.analyzeModules file cancel clock (index + 1) (tick + 1) rest with
        | error _ => rfl
        | ok tally => simp [Tally.addRecord, bind, Except.bind, pure, Except.pure]

theorem analyzeModules_cons (engine : Engine) (file : String) (clock : Clock) (tick : Nat)
    (attends : cancel index = false) (raw : Value) (rest : List Value) :
    ∃ exceeded later, (exceeded = none ∨ exceeded = engine.timeout) ∧
      engine.analyzeModules file cancel clock index tick (raw :: rest) = do
        let share ← engine.share file exceeded raw
        let tally ← engine.analyzeModules file cancel clock (index + 1) later rest
        return ⟨share.violations ++ tally.violations, share.modules + tally.modules,
          tally.cancelled⟩ := by
  obtain ⟨exceeded, later, fromClock, step⟩ := analyzeModules_step engine file clock tick raw
  exact ⟨exceeded, later, fromClock, step cancel index attends rest⟩

/-- A dump has a share of the report unless it is a module whose evaluation stops. -/
theorem share_returns_iff {exceeded : Option Binary64} :
    (∃ share, engine.share file exceeded raw = .ok share) ↔
      ∀ n, Node.normalize raw (some file) = .ok n → n.kind = .module →
        ∃ found, engine.catalog.evaluate engine.isNested n = .ok found := by
  rw [share]
  cases Node.normalize raw (some file) with
  | error failure => simp
  | ok n =>
      by_cases isModule : n.kind = .module
      · simp only [if_neg (not_not_intro isModule), Outcome.bind_eq_ok_iff]
        constructor
        · rintro ⟨_, found, evaluated, _⟩ m same _
          cases same
          exact ⟨found, evaluated⟩
        · intro evaluates
          obtain ⟨found, evaluated⟩ := evaluates n rfl isModule
          cases exceeded with
          | none => exact ⟨_, found, evaluated, rfl⟩
          | some budget => exact ⟨_, found, evaluated, rfl⟩
      · simp [isModule]

/-- A run over modules returns when every module that is attended has a
share. -/
theorem analyzeModules_returns_iff :
    (∃ tally, engine.analyzeModules file cancel clock index tick modules = .ok tally) ↔
      ∀ raw ∈ attended cancel index modules, ∃ share, engine.share file none raw = .ok share := by
  induction modules generalizing index tick with
  | nil =>
      simp [analyzeModules, attended]
  | cons raw rest inductionHypothesis =>
      cases attends : cancel index with
      | true =>
          simp [analyzeModules, attended, attends]
      | false =>
          obtain ⟨exceeded, later, _, step⟩ :=
            analyzeModules_cons engine file clock tick attends raw rest
          have othersReturn :
              (∃ tally, engine.analyzeModules file cancel clock (index + 1) later rest =
                .ok tally) ↔ _ :=
            inductionHypothesis
          have sameShare : (∃ share, engine.share file exceeded raw = .ok share) ↔
              ∃ share, engine.share file none raw = .ok share := by
            rw [share_returns_iff, share_returns_iff]
          rw [step, attended, attends, if_neg Bool.false_ne_true, List.forall_mem_cons,
            ← othersReturn, ← sameShare]
          simp only [Outcome.bind_eq_ok_iff]
          constructor
          · intro found
            rcases found with ⟨_, share, shareFound, tally, tallyFound, _⟩
            exact ⟨⟨share, shareFound⟩, tally, tallyFound⟩
          · intro found
            rcases found with ⟨⟨share, shareFound⟩, tally, tallyFound⟩
            exact ⟨_, share, shareFound, tally, tallyFound, rfl⟩

/-- The tally of a run is the sum of the shares of the modules attended. -/
theorem shares_of_analyzeModules
    (returned : engine.analyzeModules file cancel clock index tick modules = .ok tally) :
    ∃ shares,
      List.Forall₂
        (fun raw share => ∃ exceeded, (exceeded = none ∨ exceeded = engine.timeout) ∧
          engine.share file exceeded raw = .ok share)
        (attended cancel index modules) shares ∧
      tally.violations = shares.flatMap (·.violations) ∧
      tally.modules = (shares.map (·.modules)).sum ∧
      tally.cancelled = decide ((attended cancel index modules).length < modules.length) := by
  induction modules generalizing index tick tally with
  | nil =>
      cases returned
      exact ⟨[], List.Forall₂.nil, rfl, rfl, rfl⟩
  | cons raw rest inductionHypothesis =>
      cases attends : cancel index with
      | true =>
          rw [analyzeModules, attends] at returned
          cases returned
          rw [attended, attends]
          exact ⟨[], List.Forall₂.nil, rfl, rfl, rfl⟩
      | false =>
          obtain ⟨exceeded, later, fromClock, step⟩ :=
            analyzeModules_cons engine file clock tick attends raw rest
          rw [step] at returned
          obtain ⟨share, shareFound, finished⟩ := Outcome.bind_eq_ok_iff.mp returned
          obtain ⟨others, othersFound, same⟩ := Outcome.bind_eq_ok_iff.mp finished
          cases same
          obtain ⟨shares, pairs, violations, counted, stopped⟩ := inductionHypothesis othersFound
          rw [attended, attends, if_neg Bool.false_ne_true]
          refine ⟨share :: shares, List.Forall₂.cons ⟨exceeded, fromClock, shareFound⟩ pairs,
            ?_, ?_, ?_⟩
          · rw [violations, List.flatMap_cons]
          · rw [counted, List.map_cons, List.sum_cons]
          · simp only [stopped, List.length_cons, Nat.add_lt_add_iff_right]

/-- The records about one module, those of the engine included, have the severity of
their rule. -/
theorem isGraded_of_share {exceeded : Option Binary64} {share : Share}
    (found : engine.share file exceeded raw = .ok share) :
    ∀ v ∈ share.violations, v.IsGraded := by
  have single : ∀ message span, ∀ v ∈ [Violation.engineError message span], v.IsGraded := by
    intro message span v member
    rw [List.mem_singleton.mp member]
    exact Violation.engineError_isGraded message span
  rw [Engine.share] at found
  cases read : Node.normalize raw (some file) with
  | error failure =>
      rw [read] at found
      cases found
      exact single _ _
  | ok n =>
      by_cases isModule : n.kind = .module
      · simp only [read, if_neg (not_not_intro isModule)] at found
        obtain ⟨records, evaluated, same⟩ := Outcome.bind_eq_ok_iff.mp found
        cases exceeded with
        | none =>
            cases same
            exact Catalog.forall_mem_of_evaluate Rule.report_isGraded
              (fun _ _ => Violation.engineError_isGraded _ _) evaluated
        | some budget =>
            cases same
            exact single _ _
      · simp only [read, if_pos isModule] at found
        cases found
        exact single _ _

/-! ## Reports -/

/-- A file is analyzed module by module, and the report is made from all records found. -/
theorem analyze_of_split {file? : Option String}
    (split : splitModules raw file? = .ok (modules, file)) :
    engine.analyze raw file? cancel clock = do
      let tally ← engine.analyzeModules file cancel clock 0 0 modules
      return ⟨file, Report.ofViolations tally.violations, tally.modules, tally.cancelled⟩ := by
  rw [analyze, split]

end Engine
end StyleAudit
