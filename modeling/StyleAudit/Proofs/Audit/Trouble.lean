import StyleAudit.Proofs.Audit.DumpWork
import StyleAudit.Proofs.Module.ImportEntry

/-!
# What is wrong inside a module

An analysis gives a report of whatever it is asked to read, unless it reads a
module with an import whose arity consists of digits that are no number
(`StopsAnalysis`). `Trouble` is everything else that may be wrong inside a
module of a file; it appears as a record of the engine.
-/

namespace StyleAudit

/-- The evaluation of a dumped module meets a module that stops the run. -/
def StopsAnalysis (isNested : String → Bool) (source : String) (dump : Value) : Prop :=
  ∃ n m, Node.normalize dump (some source) = .ok n ∧ n.kind = .module ∧
    Catalog.Enters isNested n m ∧ StopsRun m

/-- Something is wrong inside a dumped module of a file: the dump is no tree or
no module, or a module that the walk enters cannot be indexed. -/
inductive Trouble (isNested : String → Bool) (source : String) (dump : Value) :
    (record : Violation) → Prop
  | malformed {failure : Malformed} (unread : Node.normalize dump (some source) = .error failure) :
      Trouble isNested source dump (Engine.malformedRecord dump source failure)
  | stray {n : Node} (read : Node.normalize dump (some source) = .ok n)
      (noModule : n.kind ≠ .module) : Trouble isNested source dump (Engine.strayRecord n)
  | broken {n m : Node} {fault : ModuleFault} (read : Node.normalize dump (some source) = .ok n)
      (isModule : n.kind = .module) (entered : Catalog.Enters isNested n m)
      (unindexed : ModuleScope.ofModule isNested m = .error (.confined fault)) :
      Trouble isNested source dump (fault.record m.name)

/-- The report holds a record, or another one of the same rule, range and
severity whose message comes first. -/
def FileReport.Shows (report : FileReport) (record : Violation) : Prop :=
  ∃ v ∈ report.violations, v.place = record.place ∧ v.severity = record.severity ∧
    Text.atMost v.message record.message = true

namespace Engine

variable {engine : Engine} {raw dump : Value} {file : Option String} {source : String}
  {modules : List Value} {cancel : Cancellation} {clock : Clock}

theorem share_returns_iff_not_stops :
    (∃ share, engine.share source none dump = .ok share) ↔
      ¬StopsAnalysis engine.isNested source dump := by
  rw [share_returns_iff]
  constructor
  · rintro evaluates ⟨n, m, read, isModule, entered, stops⟩
    obtain ⟨fault, stopped⟩ := (ofModule_stops_iff entered.isModule).mpr stops
    exact Catalog.evaluate_returns_iff.mp (evaluates n read isModule) m entered fault stopped
  · intro passes n read isModule
    apply Catalog.evaluate_returns_iff.mpr
    intro m entered fault stopped
    have stops : StopsRun m := (ofModule_stops_iff entered.isModule).mp ⟨fault, stopped⟩
    exact passes ⟨n, m, read, isModule, entered, stops⟩

/-- An analysis yields a report exactly when none of the modules that it looks at
stops it. -/
theorem analyze_returns_iff :
    (∃ report, engine.analyze raw file cancel clock = .ok report) ↔
      ∀ modules source, splitModules raw file = .ok (modules, source) →
        ∀ dump ∈ attended cancel 0 modules, ¬StopsAnalysis engine.isNested source dump := by
  cases split : splitModules raw file with
  | error fault =>
      rw [analyze, split]
      simp
  | ok parts =>
      obtain ⟨modules, source⟩ := parts
      rw [analyze_of_split split]
      simp only [← share_returns_iff_not_stops, Except.ok.injEq, Prod.mk.injEq, and_imp]
      constructor
      · rintro ⟨_, returned⟩ _ _ rfl rfl
        obtain ⟨tally, tallied, _⟩ := Outcome.bind_eq_ok_iff.mp returned
        exact analyzeModules_returns_iff.mp ⟨tally, tallied⟩
      · intro shared
        have returns :
            ∃ tally, engine.analyzeModules source cancel clock 0 0 modules = .ok tally :=
          analyzeModules_returns_iff.mpr (shared modules source rfl rfl)
        obtain ⟨tally, tallied⟩ := returns
        exact ⟨_, Outcome.bind_eq_ok_iff.mpr ⟨tally, tallied, rfl⟩⟩

/-- The share of a module in trouble holds the record about it, unless it is
only that of a module over its budget. -/
theorem record_mem_share {exceeded : Option Binary64} {share : Share} {record : Violation}
    (found : engine.share source exceeded dump = .ok share)
    (trouble : Trouble engine.isNested source dump record) :
    record ∈ share.violations ∨
      ∃ n budget, Node.normalize dump (some source) = .ok n ∧ exceeded = some budget ∧
        overBudgetRecord n budget ∈ share.violations := by
  cases trouble with
  | malformed unread =>
      rw [Engine.share, unread] at found
      cases found
      exact Or.inl (List.mem_singleton_self _)
  | stray read noModule =>
      rw [Engine.share, read] at found
      simp only [if_pos noModule] at found
      cases found
      exact Or.inl (List.mem_singleton_self _)
  | broken read isModule entered unindexed =>
      rw [Engine.share, read] at found
      simp only [if_neg (not_not_intro isModule)] at found
      obtain ⟨records, evaluated, same⟩ := Outcome.bind_eq_ok_iff.mp found
      cases exceeded with
      | none =>
          cases same
          exact Or.inl (Catalog.record_mem_of_evaluate evaluated entered unindexed)
      | some budget =>
          cases same
          exact Or.inr ⟨_, budget, read, rfl, List.mem_singleton_self _⟩

/-- An analysis gives a report exactly when no module that it attends to stops
it, and then shows whatever is wrong inside the modules that were attended. Of a
module over its budget only this is shown. -/
theorem analyze_returns_iff_and_shows_trouble (engine : Engine) (raw : Value)
    (file : Option String) (cancel : Cancellation) (clock : Clock) :
    ((∃ report, engine.analyze raw file cancel clock = .ok report) ↔
      ∀ modules source, splitModules raw file = .ok (modules, source) →
        ∀ dump ∈ attended cancel 0 modules, ¬StopsAnalysis engine.isNested source dump) ∧
    ∀ report modules source, engine.analyze raw file cancel clock = .ok report →
      splitModules raw file = .ok (modules, source) →
      ∀ dump ∈ attended cancel 0 modules, ∀ record, Trouble engine.isNested source dump record →
        report.Shows record ∨
          ∃ n budget, Node.normalize dump (some source) = .ok n ∧ engine.timeout = some budget ∧
            report.Shows (overBudgetRecord n budget) := by
  refine ⟨analyze_returns_iff, ?_⟩
  intro report modules source returned split dump attendedTo record trouble
  rw [analyze_of_split split] at returned
  obtain ⟨tally, tallied, same⟩ := Outcome.bind_eq_ok_iff.mp returned
  cases same
  obtain ⟨shares, pairs, violations, _⟩ := shares_of_analyzeModules tallied
  have graded : ∀ v ∈ tally.violations, v.IsGraded := by
    intro v member
    rw [violations] at member
    obtain ⟨share, shareMember, listed⟩ := List.mem_flatMap.mp member
    obtain ⟨_, _, _, _, found⟩ := Outcome.exists_of_forall₂_of_mem_right pairs shareMember
    exact isGraded_of_share found v listed
  have shown : ∀ share ∈ shares, ∀ v ∈ share.violations,
      FileReport.Shows ⟨source, Report.ofViolations tally.violations, tally.modules,
        tally.cancelled⟩ v := by
    intro share shareMember v listed
    refine Report.exists_mem_ofViolations graded ?_
    rw [violations]
    exact List.mem_flatMap.mpr ⟨share, shareMember, listed⟩
  obtain ⟨share, shareMember, exceeded, fromClock, found⟩ :=
    Outcome.exists_of_forall₂_of_mem_left pairs attendedTo
  rcases record_mem_share found trouble with listed | ⟨n, budget, read, late, listed⟩
  · exact Or.inl (shown share shareMember record listed)
  · have timed : engine.timeout = some budget := by
      rcases fromClock with inTime | budgeted
      · rw [inTime] at late
        cases late
      · rw [← budgeted, late]
    exact Or.inr ⟨n, budget, read, timed, shown share shareMember _ listed⟩

theorem analyze_shows_entry_without_arity :
    ∃ report, ofDefaults.analyze (sourceFileDump [] [importingModule "f/x"]) (some "lib/a.ex")
        .never (fun _ => .zero false) = .ok report ∧
      report.Shows (.engineError "A: import only entry 'f/x' is not name/arity"
        ⟨"lib/a.ex", ⟨3, 5, 3, 5⟩⟩) := by
  have returned : ofDefaults.analyze (sourceFileDump [] [importingModule "f/x"]) (some "lib/a.ex")
      .never (fun _ => .zero false) =
        .ok ⟨"lib/a.ex", [.engineError "A: import only entry 'f/x' is not name/arity"
          ⟨"lib/a.ex", ⟨3, 5, 3, 5⟩⟩], 1, false⟩ := by
    decide +kernel
  refine ⟨_, returned, ?_⟩
  have shown := (analyze_returns_iff_and_shows_trouble ofDefaults _ _ _ _).2 _ _ _ returned
    (splitModules_sourceFileDump [] _ _) (importingModule "f/x") (List.mem_singleton_self _) _
    (Trouble.broken rfl rfl (Catalog.Enters.here rfl) rfl)
  rcases shown with shown | ⟨_, _, _, impossible, _⟩
  · exact shown
  · cases impossible

/-- An import of `f/²` passes the test for digits and stops the analysis of the
file. -/
theorem analyze_stops_at_superscript_arity :
    ∃ config engine, Config.ofSection (withStandardSupport []) = .ok config ∧
      Engine.ofConfig config .standard = .ok engine ∧
      ∀ clock, engine.analyze (sourceFileDump [] [importingModule "f/²"]) (some "lib/a.ex") .never
        clock = .error ⟨"²"⟩ := by
  obtain ⟨config, accepted, built⟩ := ofConfig_defaults
  refine ⟨config, ofDefaults, accepted, built, fun clock => ?_⟩
  have stopped : ofDefaults.analyze (sourceFileDump [] [importingModule "f/²"]) (some "lib/a.ex")
      .never (fun _ => .zero false) = .error ⟨"²"⟩ := by
    decide +kernel
  rw [analyze_clock rfl _ _ _ clock, stopped]

end Engine
end StyleAudit
