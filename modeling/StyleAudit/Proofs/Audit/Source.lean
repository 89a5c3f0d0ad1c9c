import StyleAudit.Proofs.Audit.Independence
import StyleAudit.Proofs.Ranges.Source
import StyleAudit.Proofs.Tree.SourceFile

/-!
# Records of a file point to its source

Every record of a report names the file that was analyzed. A record about a
module that can be read covers the range of one of the nodes of the module
(`records_point_to_source`).
-/

namespace StyleAudit.Engine

variable {engine : Engine} {file : String} {raw dump : Value} {exceeded : Option Binary64}
  {share : Share} {n : Node} {v : Violation}

/-- The record is part of what a dumped module contributes to a report, within
the time budget or not. -/
def Contributes (engine : Engine) (file : String) (dump : Value) (v : Violation) : Prop :=
  ∃ exceeded share, (exceeded = none ∨ exceeded = engine.timeout) ∧
    engine.share file exceeded dump = .ok share ∧ v ∈ share.violations

/-- What is said of a module that can be read points to one of its nodes. -/
theorem covers_of_share (read : Node.normalize dump (some file) = .ok n)
    (found : engine.share file exceeded dump = .ok share) :
    ∀ v ∈ share.violations, n.Covers v.span := by
  have whole : n.Covers n.span := ⟨n, Node.mem_preorder_self n, rfl⟩
  intro v member
  rw [Engine.share, read] at found
  by_cases isModule : n.kind = .module
  · simp only [if_neg (not_not_intro isModule)] at found
    obtain ⟨records, evaluated, same⟩ := Outcome.bind_eq_ok_iff.mp found
    cases exceeded with
    | none =>
        cases same
        obtain ⟨path, m, produced, source, below, sameSpan⟩ :=
          Catalog.exists_produces_of_evaluate evaluated v member
        exact ⟨source, Node.mem_preorder_trans below produced.mem_preorder, sameSpan⟩
    | some budget =>
        cases same
        rw [List.mem_singleton.mp member]
        exact whole
  · simp only [if_pos isModule] at found
    cases found
    rw [List.mem_singleton.mp member]
    exact whole

/-- The records about a module point into the file that it is analyzed for. -/
theorem span_file_of_share (found : engine.share file exceeded dump = .ok share) :
    ∀ v ∈ share.violations, v.span.file = file := by
  intro v member
  cases read : Node.normalize dump (some file) with
  | ok n =>
      obtain ⟨source, below, sameSpan⟩ := covers_of_share read found v member
      rw [← sameSpan]
      exact Node.span_file_of_normalize read source below
  | error failure =>
      rw [Engine.share, read] at found
      cases found
      rw [List.mem_singleton.mp member]
      show (failure.span?.getD (Node.locate dump file)).file = file
      cases known : failure.span? with
      | none => exact Node.locate_file dump file
      | some span => exact Node.normalize_error_liesIn read span known

theorem file_of_splitModules {modules : List Value} {source : String}
    (parts : splitModules raw (some file) = .ok (modules, source)) : source = file := by
  cases raw with
  | table entries =>
      simp only [splitModules, Option.some_or] at parts
      split at parts
      · cases parts
        rfl
      · split at parts
        · split at parts
          · cases parts
            rfl
          · split at parts
            · cases parts
              rfl
            · cases parts
        · cases parts
  | _ => cases parts

/-- The records of a report come from the dumped modules that were attended. -/
theorem exists_contributes_of_analyze {cancel : Cancellation} {clock : Clock} {report : FileReport}
    {modules : List Value} {given : Option String}
    (split : splitModules raw given = .ok (modules, file))
    (returned : engine.analyze raw given cancel clock = .ok report) :
    ∀ v ∈ report.violations, ∃ dump ∈ attended cancel 0 modules, engine.Contributes file dump v := by
  rw [analyze_of_split split] at returned
  obtain ⟨tally, tallied, same⟩ := Outcome.bind_eq_ok_iff.mp returned
  cases same
  obtain ⟨shares, pairs, violations, _⟩ := shares_of_analyzeModules tallied
  intro v member
  obtain ⟨given, _⟩ := Report.leastAt?_eq_some (Report.mem_ofViolations_iff.mp member)
  rw [violations] at given
  obtain ⟨share, shareMember, listed⟩ := List.mem_flatMap.mp given
  obtain ⟨dump, attends, exceeded, fromClock, found⟩ :=
    Outcome.exists_of_forall₂_of_mem_right pairs shareMember
  exact ⟨dump, attends, exceeded, share, fromClock, found, listed⟩

/-- Records point to the source. Each record of an evaluation covers the range
of a node of the innermost module where it was found, or of the module that
cannot be indexed. The records of a report name the file, and those about a
module that can be read cover ranges of its nodes. -/
theorem records_point_to_source (engine : Engine) :
    (∀ tree found, engine.catalog.evaluate engine.isNested tree = .ok found → ∀ v ∈ found,
      ∃ path m, engine.catalog.Produces engine.isNested tree path m v ∧ m.Covers v.span) ∧
    (∀ file dump n v, Node.normalize dump (some file) = .ok n → engine.Contributes file dump v →
      n.Covers v.span) ∧
    ∀ raw file cancel clock report, file ≠ "" →
      engine.analyze raw (some file) cancel clock = .ok report →
        (∀ v ∈ report.violations, v.span.file = file) ∧
        ∀ modules source, splitModules raw (some file) = .ok (modules, source) →
          ∀ v ∈ report.violations, ∃ dump ∈ attended cancel 0 modules,
            engine.Contributes file dump v := by
  refine ⟨?_, ?_, ?_⟩
  · intro tree found returned
    exact Catalog.exists_produces_of_evaluate returned
  · intro file dump n v read contributed
    obtain ⟨exceeded, share, _, found, member⟩ := contributed
    exact covers_of_share read found v member
  · intro raw file cancel clock report named returned
    cases split : splitModules raw (some file) with
    | error fault =>
        rw [analyze, split] at returned
        cases returned
        refine ⟨?_, fun modules source impossible => by cases impossible⟩
        intro v member
        rw [List.mem_singleton.mp member]
        simp [Violation.engineError, Option.filter, named]
    | ok parts =>
        obtain ⟨modules, source⟩ := parts
        have sameFile : source = file := file_of_splitModules split
        subst sameFile
        have contributes := exists_contributes_of_analyze split returned
        refine ⟨?_, ?_⟩
        · intro v member
          obtain ⟨dump, _, exceeded, share, _, found, listed⟩ := contributes v member
          exact span_file_of_share found v listed
        · intro others source same
          cases same
          exact contributes

/-- In the dump of a single module both records cover nodes of the module. -/
theorem records_point_to_source_numbering :
    ∃ n report,
      Node.normalize numberingModule (some "lib/a.ex") = .ok n ∧
      ofDefaults.analyze numberingModule (some "lib/a.ex") .never (fun _ => .zero false) =
        .ok report ∧
      report.violations = [importOfNumbering, nameOfNumbering] ∧
      (∀ v ∈ report.violations, v.span.file = "lib/a.ex" ∧ n.Covers v.span) ∧
      ∃ path m, ofDefaults.catalog.Produces ofDefaults.isNested n path m importOfNumbering ∧
        m.Covers importOfNumbering.span := by
  have inOrder : Report.ofViolations [importOfNumbering, nameOfNumbering] =
      [importOfNumbering, nameOfNumbering] := by
    rw [Report.ofViolations, List.mergeSort_of_pairwise (by decide +kernel)]
    decide +kernel
  obtain ⟨n, read⟩ : ∃ n, Node.normalize numberingModule (some "lib/a.ex") = .ok n := ⟨_, rfl⟩
  have evaluated : ofDefaults.catalog.evaluate ofDefaults.isNested n =
      .ok [importOfNumbering, nameOfNumbering] := by
    cases read
    decide +kernel
  have tallied : (ofDefaults.analyzeModules "lib/a.ex" .never (fun _ => .zero false) 0 0
      [numberingModule]) = .ok ⟨[importOfNumbering, nameOfNumbering], 1, false⟩ := by
    rw [analyzeModules, read]
    cases read
    simp only [evaluated]
    rfl
  have returned : ofDefaults.analyze numberingModule (some "lib/a.ex") .never
      (fun _ => .zero false) =
        .ok ⟨"lib/a.ex", [importOfNumbering, nameOfNumbering], 1, false⟩ := by
    have parts : splitModules numberingModule (some "lib/a.ex") =
        .ok ([numberingModule], "lib/a.ex") := rfl
    rw [analyze_of_split parts, tallied, Outcome.ok_bind, inOrder]
    rfl
  obtain ⟨evaluates, covers, reports⟩ := records_point_to_source ofDefaults
  obtain ⟨inFile, contributed⟩ := reports _ _ _ _ _ (by decide) returned
  refine ⟨n, _, read, returned, rfl, ?_, evaluates n _ evaluated _ List.mem_cons_self⟩
  intro v member
  obtain ⟨dump, attends, contributes⟩ := contributed _ _ rfl v member
  cases List.mem_singleton.mp attends
  exact ⟨inFile v member, covers _ _ n v read contributes⟩

end StyleAudit.Engine
