import Mathlib.Data.List.Basic

/-!
# Tables

Values that are looked up by their keys, in a list of pairs or by a part of the
value itself.
-/

namespace StyleAudit

variable {key value other item : Type} [BEq key] [LawfulBEq key]

/-- A change of the values does not move them. -/
theorem lookup_map_values (change : key → value → other) (entries : List (key × value))
    (sought : key) :
    (entries.map fun entry => (entry.1, change entry.1 entry.2)).lookup sought =
      (entries.lookup sought).map (change sought) := by
  induction entries with
  | nil => rfl
  | cons entry rest inductionHypothesis =>
      obtain ⟨name, held⟩ := entry
      rw [List.map_cons, List.lookup_cons, List.lookup_cons, inductionHypothesis]
      by_cases here : sought = name
      · simp [here]
      · simp [beq_eq_false_iff_ne.mpr here]

theorem lookup_map_pair (values : key → value) (keys : List key) (sought : key) :
    ((keys.map fun name => (name, values name)).lookup sought) =
      if sought ∈ keys then some (values sought) else none := by
  induction keys with
  | nil => rfl
  | cons first rest inductionHypothesis =>
      rw [List.map_cons, List.lookup_cons, inductionHypothesis]
      by_cases here : sought = first
      · subst here
        simp
      · simp [here, beq_eq_false_iff_ne.mpr here]

theorem mem_of_lookup {entries : List (key × value)} {sought : key} {held : value}
    (found : entries.lookup sought = some held) : (sought, held) ∈ entries := by
  obtain ⟨before, after, split, _⟩ := List.lookup_eq_some_iff.mp found
  rw [split]
  exact List.mem_append_right before List.mem_cons_self

/-- A key is among the keys of a table exactly when it can be looked up. -/
theorem mem_keys_iff {entries : List (key × value)} {sought : key} :
    sought ∈ entries.map (·.1) ↔ ∃ held, entries.lookup sought = some held := by
  constructor
  · intro member
    cases found : entries.lookup sought with
    | some held => exact ⟨held, rfl⟩
    | none =>
        obtain ⟨entry, listed, rfl⟩ := List.mem_map.mp member
        have absent := List.lookup_eq_none_iff.mp found entry listed
        simp at absent
  · rintro ⟨held, found⟩
    exact List.mem_map_of_mem (mem_of_lookup found)

/-- Where each key is named once an entry is found under its key. -/
theorem lookup_of_mem {entries : List (key × value)} (distinct : (entries.map (·.1)).Nodup)
    {name : key} {held : value} (member : (name, held) ∈ entries) :
    entries.lookup name = some held := by
  induction entries with
  | nil => cases member
  | cons first rest inductionHypothesis =>
      obtain ⟨isNew, distinctLater⟩ := List.nodup_cons.mp distinct
      rcases List.mem_cons.mp member with rfl | later
      · exact List.lookup_cons_self
      · have isOther : name ≠ first.1 := by
          rintro rfl
          exact isNew (List.mem_map.mpr ⟨_, later, rfl⟩)
        rw [List.lookup_cons, beq_eq_false_iff_ne.mpr isOther]
        exact inductionHypothesis distinctLater later

/-- Where each key is named once, leaving out entries by their values hides nothing else. -/
theorem lookup_filter_values (keep : value → Bool) {entries : List (key × value)}
    (distinct : (entries.map (·.1)).Nodup) (sought : key) :
    (entries.filter fun entry => keep entry.2).lookup sought =
      (entries.lookup sought).filter keep := by
  induction entries with
  | nil => rfl
  | cons first rest inductionHypothesis =>
      obtain ⟨name, held⟩ := first
      obtain ⟨isNew, distinctLater⟩ := List.nodup_cons.mp distinct
      have later := inductionHypothesis distinctLater
      by_cases here : sought = name
      · subst here
        have absentLater : rest.lookup sought = none := by
          rw [List.lookup_eq_none_iff]
          intro entry member
          have isOther : sought ≠ entry.1 := by
            rintro rfl
            exact isNew (List.mem_map.mpr ⟨entry, member, rfl⟩)
          simpa using isOther
        cases kept : keep held with
        | true => simp [kept, Option.filter]
        | false => simp [kept, later, absentLater, Option.filter]
      · have isOther := beq_eq_false_iff_ne.mpr here
        cases kept : keep held with
        | true => simp [kept, List.lookup_cons, isOther, later]
        | false => simp [kept, List.lookup_cons, isOther, later]

/-! ## Values put under keys -/

/-- A table with a value put under a key: a known key keeps its place. -/
def putValue (entries : List (key × value)) (name : key) (new : value) : List (key × value) :=
  if entries.any (·.1 == name) then
    entries.map fun entry => if entry.1 == name then (name, new) else entry
  else entries ++ [(name, new)]

omit [LawfulBEq key] in
theorem mem_of_mem_putValue {entries : List (key × value)} {name : key} {new : value}
    {entry : key × value} (member : entry ∈ putValue entries name new) :
    entry = (name, new) ∨ entry ∈ entries := by
  unfold putValue at member
  split_ifs at member
  · obtain ⟨old, isOld, rfl⟩ := List.mem_map.mp member
    split_ifs
    · exact .inl rfl
    · exact .inr isOld
  · rcases List.mem_append.mp member with isOld | isNew
    · exact .inr isOld
    · exact .inl (List.mem_singleton.mp isNew)

theorem putValue_of_mem {entries : List (key × value)} {name : key} (new : value)
    (known : name ∈ entries.map (·.1)) :
    putValue entries name new =
      entries.map fun entry => (entry.1, if entry.1 == name then new else entry.2) := by
  obtain ⟨entry, listed, sameName⟩ := List.mem_map.mp known
  have isKnown : entries.any (·.1 == name) = true :=
    List.any_eq_true.mpr ⟨entry, listed, by simpa using sameName⟩
  rw [putValue, if_pos isKnown]
  refine List.map_congr_left fun entry _ => ?_
  by_cases here : entry.1 = name <;> simp [here]

theorem putValue_of_notMem {entries : List (key × value)} {name : key} (new : value)
    (isNew : name ∉ entries.map (·.1)) : putValue entries name new = entries ++ [(name, new)] := by
  have unknown : ¬entries.any (·.1 == name) = true := by
    intro isKnown
    obtain ⟨entry, listed, sameName⟩ := List.any_eq_true.mp isKnown
    exact isNew (List.mem_map.mpr ⟨entry, listed, eq_of_beq sameName⟩)
  rw [putValue, if_neg unknown]

theorem nodup_keys_putValue {entries : List (key × value)}
    (distinct : (entries.map (·.1)).Nodup) (name : key) (new : value) :
    ((putValue entries name new).map (·.1)).Nodup := by
  by_cases known : name ∈ entries.map (·.1)
  · rwa [putValue_of_mem new known, List.map_map]
  · rw [putValue_of_notMem new known, List.map_append, List.nodup_append]
    refine ⟨distinct, List.pairwise_singleton .., ?_⟩
    rintro other isOld _ isNew rfl
    obtain rfl : other = name := List.mem_singleton.mp isNew
    exact known isOld

/-- What was put under a name is found there. -/
theorem lookup_putValue_self (entries : List (key × value)) (name : key) (new : value) :
    (putValue entries name new).lookup name = some new := by
  by_cases known : name ∈ entries.map (·.1)
  · obtain ⟨held, found⟩ := mem_keys_iff.mp known
    rw [putValue_of_mem new known,
      lookup_map_values (fun other old => if other == name then new else old), found]
    simp
  · have absent : entries.lookup name = none := by
      cases found : entries.lookup name with
      | none => rfl
      | some held => exact absurd (mem_keys_iff.mpr ⟨held, found⟩) known
    rw [putValue_of_notMem new known, List.lookup_append, absent]
    simp

theorem lookup_putValue_of_ne (entries : List (key × value)) {name sought : key} (new : value)
    (isOther : sought ≠ name) :
    (putValue entries name new).lookup sought = entries.lookup sought := by
  have differs := beq_eq_false_iff_ne.mpr isOther
  by_cases known : name ∈ entries.map (·.1)
  · rw [putValue_of_mem new known,
      lookup_map_values (fun other old => if other == name then new else old)]
    cases entries.lookup sought <;> simp [differs]
  · rw [putValue_of_notMem new known, List.lookup_append]
    simp [List.lookup_cons, differs]

/-- Items with different keys are determined by them. -/
theorem filter_key_eq {keyOf : item → key} {items : List item}
    (distinct : (items.map keyOf).Nodup) {a : item} (member : a ∈ items) :
    items.filter (fun b => keyOf b == keyOf a) = [a] := by
  induction items with
  | nil => cases member
  | cons first rest inductionHypothesis =>
      obtain ⟨isNew, distinctLater⟩ := List.nodup_cons.mp distinct
      rcases List.mem_cons.mp member with rfl | later
      · have noOther : rest.filter (fun b => keyOf b == keyOf a) = [] := by
          rw [List.filter_eq_nil_iff]
          intro b isLater sameKey
          exact isNew (eq_of_beq sameKey ▸ List.mem_map_of_mem isLater)
        rw [List.filter_cons, if_pos (beq_self_eq_true _), noOther]
      · have isOther : ¬(keyOf first == keyOf a) = true := by
          intro sameKey
          exact isNew (eq_of_beq sameKey ▸ List.mem_map_of_mem later)
        rw [List.filter_cons, if_neg isOther, inductionHypothesis distinctLater later]

end StyleAudit
