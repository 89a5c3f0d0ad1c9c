import StyleAudit.Proofs.Tree.Grammar

/-!
# Names of attributes

A decoded document names every key of a table once (`Value.KeysOnce`), and then
every node of the tree that it is normalized to names each of its attributes once
(`Node.namesOnce_of_normalize`).
-/

namespace StyleAudit

/-- No table inside a value names a key twice. -/
inductive Value.KeysOnce : Value → Prop
  | table {entries : List (String × Value)} (once : (entries.map (·.1)).Nodup)
      (inside : ∀ entry ∈ entries, KeysOnce entry.2) : KeysOnce (.table entries)
  | list {items : List Value} (inside : ∀ item ∈ items, KeysOnce item) : KeysOnce (.list items)
  | plain {literal : Literal} : KeysOnce literal.toValue
  | moment {moment : Moment} : KeysOnce (.moment moment)

/-- No node of the tree names an attribute twice. -/
def Node.NamesOnce (tree : Node) : Prop :=
  ∀ n ∈ tree.preorder, (n.attributes.map (·.1)).Nodup

namespace Value.KeysOnce

variable {entries : List (String × Value)} {items : List Value} {key : String} {value : Value}

theorem parts_of_table (once : (Value.table entries).KeysOnce) :
    (entries.map (·.1)).Nodup ∧ ∀ entry ∈ entries, entry.2.KeysOnce := by
  generalize isTable : Value.table entries = value at once
  cases once with
  | table distinct inside =>
      cases isTable
      exact ⟨distinct, inside⟩
  | @plain literal => cases literal <;> cases isTable
  | _ => cases isTable

theorem of_mem (once : (Value.list items).KeysOnce) (member : value ∈ items) : value.KeysOnce := by
  generalize isList : Value.list items = held at once
  cases once with
  | list inside =>
      cases isList
      exact inside value member
  | @plain literal => cases literal <;> cases isList
  | _ => cases isList

theorem of_lookup (once : (Value.table entries).KeysOnce)
    (found : entries.lookup key = some value) : value.KeysOnce :=
  once.parts_of_table.2 (key, value) (mem_of_lookup found)

theorem of_childList (once : (Value.table entries).KeysOnce)
    (found : childList? entries = some items) (member : value ∈ items) : value.KeysOnce := by
  have listed := mem_entries_of_childList? found member
  exact (once.parts_of_table.2 ("children", .list items) listed).of_mem member

end Value.KeysOnce

namespace Node

variable {file : String} {parent : Coordinates} {path : NodePath} {raw : Value} {n : Node}

theorem nodup_names_of_writes {entries : List (String × Value)} {attributes : Attributes}
    (once : (Value.table entries).KeysOnce)
    (writes : WritesAttributes entries attributes.toEntries) :
    (attributes.map (·.1)).Nodup := by
  have sameNames : attributes.toEntries.map (·.1) = attributes.map (·.1) := by
    simp [Attributes.toEntries]
  rw [← sameNames]
  generalize attributes.toEntries = dumped at writes
  cases writes with
  | none => exact List.nodup_nil
  | table written => exact (once.of_lookup written).parts_of_table.1

/-- A dump that names every key once makes a tree whose nodes name every attribute
once. -/
theorem namesOnce_of_normalizeNode (once : raw.KeysOnce)
    (accepted : normalizeNode file parent path raw = .ok n) : n.NamesOnce := by
  induction raw using Value.childInduction generalizing parent path n with
  | step raw inductionHypothesis =>
      obtain ⟨entries, items, rfl, found, _, _, _, attributesRead, childrenRead, _⟩ :=
        normalizeNode_eq_ok_iff.mp accepted
      intro m member
      rcases Node.mem_preorder_iff.mp member with rfl | ⟨child, childMember, below⟩
      · exact nodup_names_of_writes once (readAttributes_eq_ok_iff.mp attributesRead)
      · obtain ⟨item, itemMember, childRead⟩ :
            ∃ item ∈ items, normalizeNode file n.span.coordinates [] item = .ok child :=
          Outcome.exists_of_forall₂_of_mem_right childrenRead childMember
        have itemOnce := once.of_childList found itemMember
        exact inductionHypothesis entries items rfl found item itemMember itemOnce childRead m below

/-- Every node of a normalized tree names each of its attributes once. -/
theorem namesOnce_of_normalize {file : Option String} (once : raw.KeysOnce)
    (accepted : Node.normalize raw file = .ok n) : n.NamesOnce := by
  obtain ⟨source, _, read⟩ := Node.normalize_eq_ok_iff.mp accepted
  exact namesOnce_of_normalizeNode once read

end Node
end StyleAudit
