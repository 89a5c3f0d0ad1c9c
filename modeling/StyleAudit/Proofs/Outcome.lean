import Mathlib.Data.List.Forall2

/-!
# Steps that may fail

How a sequence of steps ends: with the results of all of them, or with the
fault of the first one that fails. `mapM_eq_ok_iff` and `mapM_eq_error_iff` say
so for one step made for every item of a list.
-/

namespace StyleAudit.Outcome

variable {fault item result value : Type}

theorem ok_bind (found : value) (next : value → Except fault result) :
    Except.ok found >>= next = next found :=
  rfl

/-- Two steps return if the first one does and the second one does on what the first
returned. -/
theorem bind_eq_ok_iff {first : Except fault value} {next : value → Except fault result}
    {final : result} :
    first >>= next = .ok final ↔ ∃ found, first = .ok found ∧ next found = .ok final := by
  cases first with
  | error cause =>
      constructor
      · intro impossible
        cases impossible
      · intro found
        rcases found with ⟨found, impossible, _⟩
        cases impossible
  | ok found =>
      constructor
      · intro finished
        exact ⟨found, rfl, finished⟩
      · intro found
        rcases found with ⟨other, same, finished⟩
        cases same
        exact finished

/-- Two steps fail if the first one does, or the second one on what the first returned. -/
theorem bind_eq_error_iff {first : Except fault value} {next : value → Except fault result}
    {cause : fault} :
    first >>= next = .error cause ↔
      first = .error cause ∨ ∃ found, first = .ok found ∧ next found = .error cause := by
  cases first with
  | error other =>
      constructor
      · intro failed
        cases failed
        exact Or.inl rfl
      · intro found
        rcases found with failed | ⟨found, impossible, _⟩
        · cases failed
          rfl
        · cases impossible
  | ok found =>
      constructor
      · intro failed
        exact Or.inr ⟨found, rfl, failed⟩
      · intro found
        rcases found with impossible | ⟨other, same, failed⟩
        · cases impossible
        · cases same
          exact failed

theorem map_eq_ok_iff {change : value → result} {first : Except fault value} {final : result} :
    first.map change = .ok final ↔ ∃ found, first = .ok found ∧ change found = final := by
  cases first with
  | error cause =>
      constructor
      · intro impossible
        cases impossible
      · intro found
        rcases found with ⟨found, impossible, _⟩
        cases impossible
  | ok found =>
      constructor
      · intro changed
        exact ⟨found, rfl, Except.ok.inj changed⟩
      · intro found
        rcases found with ⟨other, same, changed⟩
        cases same
        exact congrArg Except.ok changed

theorem map_eq_error_iff {change : value → result} {first : Except fault value} {cause : fault} :
    first.map change = .error cause ↔ first = .error cause := by
  cases first with
  | error other =>
      constructor <;> intro same <;> cases same <;> rfl
  | ok found =>
      constructor <;> intro impossible <;> cases impossible

/-- The outcome is a result that passes a test. -/
def passes (test : value → Bool) : Except fault value → Bool
  | .ok found => test found
  | .error _ => false

theorem exists_of_passes {test : value → Bool} {outcome : Except fault value}
    (passed : passes test outcome = true) : ∃ found, outcome = .ok found ∧ test found = true := by
  cases outcome with
  | ok found => exact ⟨found, rfl, passed⟩
  | error => cases passed

/-- A result can be chosen for every item. -/
theorem exists_forall₂_iff {related : item → result → Prop} {items : List item} :
    (∃ results, List.Forall₂ related items results) ↔
      ∀ given ∈ items, ∃ found, related given found := by
  induction items with
  | nil =>
      constructor
      · intro _ given impossible
        cases impossible
      · intro _
        exact ⟨[], List.Forall₂.nil⟩
  | cons head rest inductionHypothesis =>
      constructor
      · rintro ⟨results, pairs⟩ given member
        cases pairs with
        | cons here later =>
            rcases List.mem_cons.mp member with rfl | other
            · exact ⟨_, here⟩
            · exact inductionHypothesis.mp ⟨_, later⟩ given other
      · intro choices
        obtain ⟨found, here⟩ := choices head List.mem_cons_self
        obtain ⟨results, later⟩ := inductionHypothesis.mpr fun given member =>
          choices given (List.mem_cons_of_mem head member)
        exact ⟨found :: results, List.Forall₂.cons here later⟩

/-- Results can be replaced one by one. -/
theorem exists_forall₂_of_forall₂ {related : item → result → Prop} {replaced : item → value → Prop}
    {agrees : result → value → Prop} {items : List item} {results : List result}
    (pairs : List.Forall₂ related items results)
    (replace : ∀ given ∈ items, ∀ found, related given found →
      ∃ other, replaced given other ∧ agrees found other) :
    ∃ others, List.Forall₂ replaced items others ∧ List.Forall₂ agrees results others := by
  induction pairs with
  | nil => exact ⟨[], List.Forall₂.nil, List.Forall₂.nil⟩
  | cons here _ inductionHypothesis =>
      obtain ⟨other, read, same⟩ := replace _ List.mem_cons_self _ here
      obtain ⟨others, reads, sames⟩ := inductionHypothesis fun given member =>
        replace given (List.mem_cons_of_mem _ member)
      exact ⟨other :: others, List.Forall₂.cons read reads, List.Forall₂.cons same sames⟩

/-- A step over a list returns if it does on every item, and its results are those of
the items in order. -/
theorem mapM_eq_ok_iff {step : item → Except fault result} {items : List item}
    {results : List result} :
    items.mapM step = .ok results ↔
      List.Forall₂ (fun given found => step given = .ok found) items results := by
  induction items generalizing results with
  | nil =>
      rw [List.mapM_nil, List.forall₂_nil_left_iff]
      constructor
      · intro finished
        cases finished
        rfl
      · rintro rfl
        rfl
  | cons given rest inductionHypothesis =>
      rw [List.mapM_cons, bind_eq_ok_iff, List.forall₂_cons_left_iff]
      constructor
      · intro found
        rcases found with ⟨found, here, finished⟩
        obtain ⟨others, later, same⟩ := bind_eq_ok_iff.mp finished
        cases same
        exact ⟨found, others, here, inductionHypothesis.mp later, rfl⟩
      · intro found
        rcases found with ⟨found, others, here, later, rfl⟩
        exact ⟨found, here, bind_eq_ok_iff.mpr ⟨others, inductionHypothesis.mpr later, rfl⟩⟩

/-- The step fails for some item, and for none before it. -/
theorem mapM_append_eq_ok_iff {step : item → Except fault result} {first last : List item}
    {results : List result} :
    (first ++ last).mapM step = .ok results ↔
      ∃ found others, first.mapM step = .ok found ∧ last.mapM step = .ok others ∧
        results = found ++ others := by
  rw [List.mapM_append, bind_eq_ok_iff]
  refine exists_congr fun found => ?_
  rw [bind_eq_ok_iff, ← exists_and_left]
  refine exists_congr fun others => and_congr_right fun _ => ?_
  constructor
  · rintro ⟨read, same⟩
    cases same
    exact ⟨read, rfl⟩
  · rintro ⟨read, rfl⟩
    exact ⟨read, rfl⟩

/-- A step over a list fails at the first item where it fails. -/
theorem mapM_eq_error_iff {step : item → Except fault result} {items : List item}
    {cause : fault} :
    items.mapM step = .error cause ↔
      ∃ before given after, items = before ++ given :: after ∧
        (∀ other ∈ before, ∃ found, step other = .ok found) ∧ step given = .error cause := by
  induction items with
  | nil =>
      constructor
      · intro impossible
        cases impossible
      · intro found
        rcases found with ⟨before, given, after, split, _⟩
        simp at split
  | cons head rest inductionHypothesis =>
      rw [List.mapM_cons, bind_eq_error_iff]
      constructor
      · intro found
        rcases found with failed | ⟨found, here, failed⟩
        · exact ⟨[], head, rest, rfl, by simp, failed⟩
        · rcases bind_eq_error_iff.mp failed with later | ⟨_, _, impossible⟩
          · obtain ⟨before, given, after, split, fine, cause⟩ := inductionHypothesis.mp later
            refine ⟨head :: before, given, after, by rw [split, List.cons_append], ?_, cause⟩
            intro other member
            rcases List.mem_cons.mp member with rfl | earlier
            · exact ⟨found, here⟩
            · exact fine other earlier
          · cases impossible
      · intro found
        rcases found with ⟨before, given, after, split, fine, failed⟩
        cases before with
        | nil =>
            cases split
            exact Or.inl failed
        | cons first others =>
            cases split
            obtain ⟨found, here⟩ := fine head List.mem_cons_self
            have later : (others ++ given :: after).mapM step = .error cause :=
              inductionHypothesis.mpr
                ⟨others, given, after, rfl,
                  fun other member => fine other (List.mem_cons_of_mem head member), failed⟩
            exact Or.inr ⟨found, here, bind_eq_error_iff.mpr (Or.inl later)⟩

theorem exists_of_forall₂_of_mem_right {related : item → result → Prop} {items : List item}
    {results : List result} (pairs : List.Forall₂ related items results) {found : result}
    (member : found ∈ results) : ∃ given ∈ items, related given found := by
  induction pairs with
  | nil => cases member
  | cons here _ inductionHypothesis =>
      rcases List.mem_cons.mp member with rfl | later
      · exact ⟨_, List.mem_cons_self, here⟩
      · obtain ⟨given, earlier, holds⟩ := inductionHypothesis later
        exact ⟨given, List.mem_cons_of_mem _ earlier, holds⟩

theorem exists_of_forall₂_of_mem_left {related : item → result → Prop} {items : List item}
    {results : List result} (pairs : List.Forall₂ related items results) {given : item}
    (member : given ∈ items) : ∃ found ∈ results, related given found :=
  exists_of_forall₂_of_mem_right pairs.flip member

/-- Two lists that are related to the same one are related to each other. -/
theorem forall₂_join {related : item → result → Prop} {replaced : item → value → Prop}
    {joined : result → value → Prop} {items : List item} {results : List result}
    {values : List value} (pairs : List.Forall₂ related items results)
    (others : List.Forall₂ replaced items values)
    (join : ∀ given ∈ items, ∀ found ∈ results, ∀ other, related given found →
      replaced given other → joined found other) :
    List.Forall₂ joined results values := by
  induction pairs generalizing values with
  | nil =>
      cases others
      exact List.Forall₂.nil
  | cons here _ inductionHypothesis =>
      cases others with
      | cons alsoHere alsoLater =>
          refine List.Forall₂.cons
            (join _ List.mem_cons_self _ List.mem_cons_self _ here alsoHere) ?_
          exact inductionHypothesis alsoLater fun given member found alsoMember =>
            join given (List.mem_cons_of_mem _ member) found (List.mem_cons_of_mem _ alsoMember)

theorem forall₂_and {related replaced : item → result → Prop} {items : List item}
    {results : List result} (pairs : List.Forall₂ related items results)
    (others : List.Forall₂ replaced items results) :
    List.Forall₂ (fun given found => related given found ∧ replaced given found) items
      results := by
  rw [List.forall₂_iff_zip] at pairs others ⊢
  exact ⟨pairs.1, fun member => ⟨pairs.2 member, others.2 member⟩⟩

theorem forall₂_imp_mem {related replaced : item → result → Prop} {items : List item}
    {results : List result} (pairs : List.Forall₂ related items results)
    (replace : ∀ given ∈ items, ∀ found ∈ results, related given found → replaced given found) :
    List.Forall₂ replaced items results := by
  rw [List.forall₂_iff_zip] at pairs ⊢
  refine ⟨pairs.1, fun member => ?_⟩
  obtain ⟨isGiven, isFound⟩ := List.of_mem_zip member
  exact replace _ isGiven _ isFound (pairs.2 member)

theorem forall₂_congr {related replaced : item → result → Prop} {items : List item}
    {results : List result}
    (each : List.Forall₂ (fun given found => related given found ↔ replaced given found) items
      results) : List.Forall₂ related items results ↔ List.Forall₂ replaced items results := by
  constructor
  · intro pairs
    exact (forall₂_and each pairs).imp fun _ _ both => both.1.mp both.2
  · intro pairs
    exact (forall₂_and each pairs).imp fun _ _ both => both.1.mpr both.2

/-! ## Steps that agree with a plain function -/

theorem mapM_eq_ok_map {step : item → Except fault result} {plain : item → result}
    {items : List item} (agrees : ∀ given ∈ items, step given = .ok (plain given)) :
    items.mapM step = .ok (items.map plain) := by
  rw [mapM_eq_ok_iff, List.forall₂_map_right_iff, List.forall₂_same]
  exact agrees

theorem mapM_eq_ok_filterMap {step : item → Except fault result} {plain : item → Option result}
    {items : List item}
    (agrees : ∀ given ∈ items, ∃ found, step given = .ok found ∧ plain given = some found) :
    items.mapM step = .ok (items.filterMap plain) := by
  induction items with
  | nil => rfl
  | cons given rest inductionHypothesis =>
      obtain ⟨found, stepFound, plainFound⟩ := agrees given List.mem_cons_self
      have later := inductionHypothesis fun other member =>
        agrees other (List.mem_cons_of_mem given member)
      rw [List.mapM_cons, stepFound, ok_bind, later, List.filterMap_cons_some plainFound]
      rfl

theorem anyM_eq_ok_any {step : item → Except fault Bool} {plain : item → Bool}
    {items : List item} (agrees : ∀ given ∈ items, step given = .ok (plain given)) :
    items.anyM step = .ok (items.any plain) := by
  induction items with
  | nil => rfl
  | cons given rest inductionHypothesis =>
      rw [List.anyM, agrees given List.mem_cons_self, List.any_cons]
      have later := inductionHypothesis fun other member =>
        agrees other (List.mem_cons_of_mem given member)
      cases plain given with
      | true => rfl
      | false => exact later

theorem allM_eq_ok_all {step : item → Except fault Bool} {plain : item → Bool}
    {items : List item} (agrees : ∀ given ∈ items, step given = .ok (plain given)) :
    items.allM step = .ok (items.all plain) := by
  induction items with
  | nil => rfl
  | cons given rest inductionHypothesis =>
      rw [List.allM, agrees given List.mem_cons_self, List.all_cons]
      have later := inductionHypothesis fun other member =>
        agrees other (List.mem_cons_of_mem given member)
      cases plain given with
      | true => exact later
      | false => rfl

/-! ## Other faults and other results -/

section Both

variable {otherFault otherItem otherResult otherValue : Type} {onFault : fault → otherFault}
  {onItem : item → otherItem} {onResult : result → otherResult} {onValue : value → otherValue}

/-- Change the fault or the result of a step. -/
def mapBoth (onFault : fault → otherFault) (onValue : value → otherValue) :
    Except fault value → Except otherFault otherValue
  | .ok found => .ok (onValue found)
  | .error cause => .error (onFault cause)

theorem mapBoth_bind {next : value → Except fault result}
    {otherNext : otherValue → Except otherFault otherResult}
    (agrees : ∀ found, otherNext (onValue found) = mapBoth onFault onResult (next found))
    (first : Except fault value) :
    mapBoth onFault onValue first >>= otherNext = mapBoth onFault onResult (first >>= next) := by
  cases first with
  | error cause => rfl
  | ok found => exact agrees found

/-- Changes of items, results and faults that a step respects are respected over a
list. -/
theorem mapM_mapBoth {step : item → Except fault result}
    {otherStep : otherItem → Except otherFault otherResult}
    (agrees : ∀ given, otherStep (onItem given) = mapBoth onFault onResult (step given))
    (items : List item) :
    (items.map onItem).mapM otherStep =
      mapBoth onFault (List.map onResult) (items.mapM step) := by
  induction items with
  | nil => rfl
  | cons given rest inductionHypothesis =>
      rw [List.map_cons, List.mapM_cons, List.mapM_cons, agrees, inductionHypothesis]
      refine mapBoth_bind (fun found => ?_) _
      cases rest.mapM step <;> rfl

/-- A change that each step respects is respected by the fold. -/
theorem foldlM_mapBoth {extend : value → item → Except fault value}
    {otherExtend : otherValue → otherItem → Except otherFault otherValue} {items : List item}
    (agrees : ∀ given ∈ items, ∀ before,
      otherExtend (onValue before) (onItem given) = mapBoth onFault onValue (extend before given))
    (start : value) :
    (items.map onItem).foldlM otherExtend (onValue start) =
      mapBoth onFault onValue (items.foldlM extend start) := by
  induction items generalizing start with
  | nil => rfl
  | cons given rest inductionHypothesis =>
      rw [List.map_cons, List.foldlM_cons, List.foldlM_cons, agrees given List.mem_cons_self]
      refine mapBoth_bind (fun found => ?_) _
      exact inductionHypothesis (fun other member => agrees other (List.mem_cons_of_mem _ member))
        found

end Both

end StyleAudit.Outcome
