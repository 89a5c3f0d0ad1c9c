import StyleAudit.Document.TomlText
import StyleAudit.Proofs.Outcome
import StyleAudit.Proofs.Table

/-!
# What a TOML document holds

A document that is read has no null in it, and no table that names a key twice
(`TomlText.read_isToml`). Every change of a table under construction keeps this
(`TomlEntries.IsToml.edit` and what it is given), every value that is read is such a
value (`TomlText.isToml_of_readValue`), so every statement keeps it
(`TomlText.isToml_of_readStatement`).
-/

namespace StyleAudit

/-- The value can stand in a document: no null is in it, and no table that names a key twice. -/
inductive Value.IsToml : Value → Prop
  | bool {value : Bool} : IsToml (.bool value)
  | int {value : Int} : IsToml (.int value)
  | float {value : Binary64} : IsToml (.float value)
  | text {value : String} : IsToml (.text value)
  | moment {value : Moment} : IsToml (.moment value)
  | list {items : List Value} (inside : ∀ item ∈ items, IsToml item) : IsToml (.list items)
  | table {entries : List (String × Value)} (once : (entries.map (·.1)).Nodup)
      (inside : ∀ entry ∈ entries, IsToml entry.2) : IsToml (.table entries)

theorem Value.IsToml.of_lookup {entries : List (String × Value)} {key : String} {held : Value}
    (isToml : (Value.table entries).IsToml) (found : entries.lookup key = some held) :
    held.IsToml := by
  cases isToml with
  | table _ inside => exact inside (key, held) (mem_of_lookup found)

/-! ## Tables under construction -/

/-- A table under construction can stand in a document. -/
def TomlEntries.IsToml (entries : TomlEntries) : Prop :=
  (Value.table (TomlEntry.toValues entries)).IsToml

theorem TomlEntry.toValues_eq_map (entries : TomlEntries) :
    toValues entries = entries.map fun entry => (entry.1, entry.2.toValue) := by
  induction entries with
  | nil => rfl
  | cons first rest inductionHypothesis => rw [toValues, inductionHypothesis, List.map_cons]

namespace TomlEntries

variable {entries below last after : TomlEntries} {name : String} {entry : TomlEntry}
  {content : Value} {finished : List Value} {origin : TableOrigin} {names : List String}
  {owner : Nat}

/-- The entries of a table are well formed exactly when their names are distinct and
their values well formed. -/
theorem isToml_iff :
    entries.IsToml ↔
      (entries.map (·.1)).Nodup ∧ ∀ entry ∈ entries, entry.2.toValue.IsToml := by
  rw [IsToml, TomlEntry.toValues_eq_map]
  constructor
  · intro isToml
    cases isToml with
    | table once inside =>
        rw [List.map_map] at once
        exact ⟨once, fun entry member => inside _ (List.mem_map_of_mem member)⟩
  · rintro ⟨once, inside⟩
    refine .table ?_ fun value member => ?_
    · rwa [List.map_map]
    · obtain ⟨entry, isEntry, rfl⟩ := List.mem_map.mp member
      exact inside entry isEntry

namespace IsToml

theorem nil : IsToml [] :=
  isToml_iff.mpr ⟨List.nodup_nil, nofun⟩

theorem of_lookup (isToml : entries.IsToml) (found : entries.lookup name = some entry) :
    entry.toValue.IsToml :=
  (isToml_iff.mp isToml).2 (name, entry) (mem_of_lookup found)

theorem below_of_lookup (isToml : entries.IsToml)
    (found : entries.lookup name = some (.table origin below)) : below.IsToml :=
  isToml.of_lookup found

theorem tables_of_lookup (isToml : entries.IsToml)
    (found : entries.lookup name = some (.tables finished last)) :
    (∀ item ∈ finished, item.IsToml) ∧ last.IsToml := by
  have listed := isToml.of_lookup found
  rw [TomlEntry.toValue] at listed
  cases listed with
  | list inside =>
      exact ⟨fun item member => inside item (List.mem_append_left _ member),
        inside _ (List.mem_append_right _ List.mem_cons_self)⟩

theorem put_eq : entries.put name entry = putValue entries name entry := rfl

/-- A new entry keeps the form of a table. -/
theorem put (isToml : entries.IsToml) (newIsToml : entry.toValue.IsToml) :
    (entries.put name entry).IsToml := by
  obtain ⟨once, inside⟩ := isToml_iff.mp isToml
  rw [put_eq, isToml_iff]
  refine ⟨nodup_keys_putValue once name entry, fun found member => ?_⟩
  rcases mem_of_mem_putValue member with rfl | isOld
  · exact newIsToml
  · exact inside found isOld

theorem put_tables (isToml : entries.IsToml) (finishedIsToml : ∀ item ∈ finished, item.IsToml)
    (lastIsToml : last.IsToml) : (entries.put name (.tables finished last)).IsToml := by
  refine isToml.put (.list fun item member => ?_)
  rcases List.mem_append.mp member with isFinished | isLast
  · exact finishedIsToml item isFinished
  · rw [List.mem_singleton.mp isLast]
    exact lastIsToml

/-- A change that keeps the form of a table keeps it at the end of any names. -/
theorem edit {change : TomlEntries → Option TomlEntries}
    (keeps : ∀ {before after : TomlEntries}, change before = some after → before.IsToml →
      after.IsToml)
    (isToml : entries.IsToml) (edited : TomlEntries.edit change names entries = some after) :
    after.IsToml := by
  induction names generalizing entries after with
  | nil => exact keeps edited isToml
  | cons name rest inductionHypothesis =>
      rw [TomlEntries.edit] at edited
      split at edited
      · obtain ⟨below, isBelow, rfl⟩ := Option.map_eq_some_iff.mp edited
        exact isToml.put (inductionHypothesis .nil isBelow)
      · rename_i found
        obtain ⟨below, isBelow, rfl⟩ := Option.map_eq_some_iff.mp edited
        exact isToml.put (inductionHypothesis (isToml.below_of_lookup found) isBelow)
      · rename_i found
        obtain ⟨last, isLast, rfl⟩ := Option.map_eq_some_iff.mp edited
        obtain ⟨finishedIsToml, lastIsToml⟩ := isToml.tables_of_lookup found
        exact isToml.put_tables finishedIsToml (inductionHypothesis lastIsToml isLast)
      · cases edited

theorem declare (isToml : entries.IsToml) (declared : entries.declare name = some after) :
    after.IsToml := by
  rw [TomlEntries.declare] at declared
  split at declared
  · cases declared
    exact isToml.put IsToml.nil
  · rename_i found
    cases declared
    exact isToml.put (isToml.below_of_lookup found)
  · cases declared

theorem append (isToml : entries.IsToml) (appended : entries.append name = some after) :
    after.IsToml := by
  rw [TomlEntries.append] at appended
  split at appended
  · cases appended
    exact isToml.put_tables nofun .nil
  · rename_i found
    cases appended
    obtain ⟨finishedIsToml, lastIsToml⟩ := isToml.tables_of_lookup found
    refine isToml.put_tables (fun item member => ?_) .nil
    rcases List.mem_append.mp member with isFinished | isLast
    · exact finishedIsToml item isFinished
    · rw [List.mem_singleton.mp isLast]
      exact lastIsToml
  · cases appended

/-- Assigning to a dotted key keeps the table well formed. -/
theorem assign (isToml : entries.IsToml) (contentIsToml : content.IsToml)
    (assigned : TomlEntries.assign owner content names entries = some after) : after.IsToml := by
  fun_induction TomlEntries.assign owner content names entries generalizing after with
  | case1 | case3 | case4 => cases assigned
  | case2 =>
      cases assigned
      exact isToml.put contentIsToml
  | case5 name rest entries _ below? below isBelow =>
      rename_i inductionHypothesis
      have belowIsToml : TomlEntries.IsToml below := by
        simp only [below?] at isBelow
        split at isBelow
        · cases isBelow
          exact .nil
        · rename_i found
          cases isBelow
          exact isToml.below_of_lookup found
        · rename_i found
          split_ifs at isBelow
          cases isBelow
          exact isToml.below_of_lookup found
        · cases isBelow
      obtain ⟨changed, isChanged, rfl⟩ := Option.map_eq_some_iff.mp assigned
      exact isToml.put (inductionHypothesis belowIsToml isChanged)

end IsToml
end TomlEntries

/-! ## Values -/

namespace TomlText

variable {input rest : List Char} {value : Value} {items : List Value}

theorem require_eq_ok_iff {α : Type} {found : Option α} {result : α} :
    require found = .ok result ↔ found = some result := by
  cases found <;> simp [require]

theorem isToml_of_readBased? {base : Nat} (read : readBased? base input = some (value, rest)) :
    value.IsToml := by
  rw [readBased?] at read
  split at read
  · cases read
  · cases read
    exact .int

theorem isToml_of_readInteger {negative : Bool} {digits : List Char}
    (read : readInteger negative digits = .ok value) : value.IsToml := by
  rw [readInteger] at read
  split at read
  · cases read
  · cases read
    exact .int

theorem isToml_of_readDecimal (read : readDecimal input = .ok (value, rest)) : value.IsToml := by
  simp only [readDecimal] at read
  split_ifs at read
  · obtain ⟨number, isRead, same⟩ := Outcome.map_eq_ok_iff.mp read
    cases same
    exact isToml_of_readInteger isRead
  · cases read
    exact .float

theorem isToml_of_readNumber (read : readNumber input = .ok (value, rest)) : value.IsToml := by
  unfold readNumber at read
  split at read
  · split at read
    · rename_i found
      cases read
      obtain ⟨base, _, isBased⟩ := Option.bind_eq_some_iff.mp found
      exact isToml_of_readBased? isBased
    · exact isToml_of_readDecimal read
  · exact isToml_of_readDecimal read

theorem isToml_of_mem_words {word : String × Value} (isWord : word ∈ words) :
    word.2.IsToml := by
  simp only [words, List.mem_cons, List.not_mem_nil, or_false] at isWord
  rcases isWord with rfl | rfl | rfl | rfl | rfl | rfl | rfl | rfl <;> constructor

theorem isToml_of_readWord? (read : readWord? input = some (value, rest)) : value.IsToml := by
  obtain ⟨word, found, same⟩ := Option.map_eq_some_iff.mp read
  cases same
  exact isToml_of_mem_words (List.mem_of_find?_eq_some found)

/-- Everything that is read with this fuel can stand in a document. -/
structure KeepsToml (fuel : Nat) : Prop where
  value : ∀ {input rest value}, readValue fuel input = .ok (value, rest) → value.IsToml
  items : ∀ {input rest items}, readItems fuel input = .ok (items, rest) →
    ∀ item ∈ items, item.IsToml
  fields : ∀ {done input rest entries}, readFields fuel done input = .ok (entries, rest) →
    done.IsToml → entries.IsToml

namespace KeepsToml

variable {fuel : Nat}

/-- A reader of values keeps them well formed if the readers of their parts do. -/
theorem readValue_succ (keeps : KeepsToml fuel)
    (read : readValue (fuel + 1) input = .ok (value, rest)) : value.IsToml := by
  unfold readValue at read
  split at read
  · rename_i isZero
    cases isZero
  · rename_i isFuel
    cases isFuel
    obtain ⟨start, _, read⟩ := Outcome.bind_eq_ok_iff.mp read
    split at read
    · cases read
      exact .list nofun
    · obtain ⟨⟨items, after⟩, areItems, same⟩ := Outcome.map_eq_ok_iff.mp read
      cases same
      exact .list (keeps.items areItems)
  · rename_i isFuel
    cases isFuel
    split at read
    · cases read
      exact .table List.nodup_nil nofun
    · obtain ⟨⟨entries, after⟩, areFields, same⟩ := Outcome.map_eq_ok_iff.mp read
      cases same
      exact keeps.fields areFields .nil
  · split at read
    · obtain ⟨found, _, same⟩ := Outcome.map_eq_ok_iff.mp read
      cases same
      exact .text
    split at read
    · rename_i isWord
      cases read
      exact isToml_of_readWord? isWord
    split at read
    · cases read
      exact .moment
    · exact isToml_of_readNumber read

theorem readItems_succ (keeps : KeepsToml fuel)
    (read : readItems (fuel + 1) input = .ok (items, rest)) : ∀ item ∈ items, item.IsToml := by
  rw [readItems] at read
  obtain ⟨⟨first, afterFirst⟩, isFirst, read⟩ := Outcome.bind_eq_ok_iff.mp read
  obtain ⟨start, _, read⟩ := Outcome.bind_eq_ok_iff.mp read
  have firstIsToml := keeps.value isFirst
  split at read
  · cases read
    exact List.forall_mem_singleton.mpr firstIsToml
  · obtain ⟨start, _, read⟩ := Outcome.bind_eq_ok_iff.mp read
    split at read
    · cases read
      exact List.forall_mem_singleton.mpr firstIsToml
    · obtain ⟨⟨later, afterLater⟩, areLater, same⟩ := Outcome.bind_eq_ok_iff.mp read
      cases same
      exact List.forall_mem_cons.mpr ⟨firstIsToml, keeps.items areLater⟩
  · cases read

theorem readFields_succ {done entries : TomlEntries} (keeps : KeepsToml fuel)
    (doneIsToml : done.IsToml)
    (read : readFields (fuel + 1) done input = .ok (entries, rest)) : entries.IsToml := by
  rw [readFields] at read
  obtain ⟨⟨key, afterKey⟩, _, read⟩ := Outcome.bind_eq_ok_iff.mp read
  dsimp only at read
  split at read
  · obtain ⟨⟨value, afterValue⟩, isValue, read⟩ := Outcome.bind_eq_ok_iff.mp read
    obtain ⟨assigned, isAssigned, read⟩ := Outcome.bind_eq_ok_iff.mp read
    have assignedIsToml :=
      doneIsToml.assign (keeps.value isValue) (require_eq_ok_iff.mp isAssigned)
    split at read
    · cases read
      exact assignedIsToml
    · exact keeps.fields read assignedIsToml
    · cases read
  · cases read

end KeepsToml

theorem keepsToml (fuel : Nat) : KeepsToml fuel := by
  induction fuel with
  | zero => exact ⟨nofun, nofun, nofun⟩
  | succ fuel keeps =>
      exact ⟨keeps.readValue_succ, keeps.readItems_succ, fun read doneIsToml =>
        keeps.readFields_succ doneIsToml read⟩

theorem isToml_of_readValue {fuel : Nat} (read : readValue fuel input = .ok (value, rest)) :
    value.IsToml :=
  (keepsToml fuel).value read

/-! ## Documents -/

variable {draft after : Draft} {key : List String}

theorem isToml_of_open? {change : TomlEntries → String → Option TomlEntries}
    (keeps : ∀ {before after : TomlEntries} {name : String}, change before name = some after →
      before.IsToml → after.IsToml)
    (isToml : draft.entries.IsToml) (opened : draft.open? key change = some after) :
    after.entries.IsToml := by
  rw [Draft.open?] at opened
  split at opened
  · cases opened
  · obtain ⟨entries, edited, rfl⟩ := Option.map_eq_some_iff.mp opened
    exact isToml.edit keeps edited

theorem isToml_of_assign? (isToml : draft.entries.IsToml) (valueIsToml : value.IsToml)
    (assigned : draft.assign? key value = some after) : after.entries.IsToml := by
  obtain ⟨entries, edited, rfl⟩ := Option.map_eq_some_iff.mp assigned
  exact isToml.edit (fun isAssigned beforeIsToml => beforeIsToml.assign valueIsToml isAssigned)
    edited

/-- A statement leaves a draft that can stand in a document. -/
theorem isToml_of_readStatement (isToml : draft.entries.IsToml)
    (read : readStatement draft input = .ok (after, rest)) : after.entries.IsToml := by
  unfold readStatement at read
  split at read
  · obtain ⟨⟨key, afterKey⟩, _, read⟩ := Outcome.bind_eq_ok_iff.mp read
    dsimp only at read
    split at read
    · obtain ⟨opened, isOpened, same⟩ := Outcome.bind_eq_ok_iff.mp read
      cases same
      exact isToml_of_open? (fun appended before => before.append appended) isToml
        (require_eq_ok_iff.mp isOpened)
    · cases read
  · obtain ⟨⟨key, afterKey⟩, _, read⟩ := Outcome.bind_eq_ok_iff.mp read
    dsimp only at read
    split at read
    · obtain ⟨opened, isOpened, same⟩ := Outcome.bind_eq_ok_iff.mp read
      cases same
      exact isToml_of_open? (fun declared before => before.declare declared) isToml
        (require_eq_ok_iff.mp isOpened)
    · cases read
  · cases read
    exact isToml
  · obtain ⟨⟨key, afterKey⟩, _, read⟩ := Outcome.bind_eq_ok_iff.mp read
    dsimp only at read
    split at read
    · obtain ⟨⟨value, afterValue⟩, isValue, read⟩ := Outcome.bind_eq_ok_iff.mp read
      obtain ⟨assigned, isAssigned, same⟩ := Outcome.bind_eq_ok_iff.mp read
      cases same
      exact isToml_of_assign? isToml (isToml_of_readValue isValue)
        (require_eq_ok_iff.mp isAssigned)
    · cases read

/-- Statement by statement the draft stays well formed. -/
theorem isToml_of_readStatements {fuel : Nat} (isToml : draft.entries.IsToml)
    (read : readStatements fuel draft input = .ok after) : after.entries.IsToml := by
  induction fuel generalizing draft input with
  | zero =>
      cases read
      exact isToml
  | succ fuel inductionHypothesis =>
      rw [readStatements] at read
      split at read
      · cases read
        exact isToml
      · exact inductionHypothesis isToml read
      · obtain ⟨⟨next, afterNext⟩, isNext, read⟩ := Outcome.bind_eq_ok_iff.mp read
        obtain ⟨start, _, read⟩ := Outcome.bind_eq_ok_iff.mp read
        have nextIsToml := isToml_of_readStatement isToml isNext
        split at read
        · cases read
          exact nextIsToml
        · exact inductionHypothesis nextIsToml read
        · cases read

/-- What a document describes holds no null, and no table in it names a key twice. -/
theorem read_isToml {entries : List (String × Value)} (isRead : read input = .ok entries) :
    (Value.table entries).IsToml := by
  obtain ⟨draft, readDraft, rfl⟩ := Outcome.map_eq_ok_iff.mp isRead
  exact isToml_of_readStatements .nil readDraft

end TomlText
end StyleAudit
