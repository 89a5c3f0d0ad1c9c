import StyleAudit.Proofs.Tree.Accepted

/-!
# The file of a tree

A dump is read for one file. Every node that is read covers a range of this
file (`span_file_of_normalizeNode`), and so does what is named as the place of a
dump that cannot be read (`file_of_normalizeNode_error`).
-/

namespace StyleAudit

variable {file : String} {parent coordinates : Coordinates} {path : NodePath} {raw : Value}
  {n : Node} {failure : Malformed}

/-- All ranges of a tree lie in the file that it was read from. -/
theorem span_file_of_normalizeNode (accepted : normalizeNode file parent path raw = .ok n) :
    ∀ source ∈ n.preorder, source.span.file = file := by
  induction raw using Value.childInduction generalizing parent path n with
  | step raw inductionHypothesis =>
      obtain ⟨entries, items, same, found, _, inFile, _, _, childrenRead, _⟩ :=
        normalizeNode_eq_ok_iff.mp accepted
      intro source member
      rcases Node.mem_preorder_iff.mp member with rfl | ⟨child, childMember, below⟩
      · exact inFile
      · obtain ⟨item, itemMember, childRead⟩ :=
          Outcome.exists_of_forall₂_of_mem_right childrenRead childMember
        exact inductionHypothesis entries items same found item itemMember childRead source below

theorem Node.span_file_of_normalize (accepted : Node.normalize raw (some file) = .ok n) :
    ∀ source ∈ n.preorder, source.span.file = file := by
  obtain ⟨source, given, read⟩ := Node.normalize_eq_ok_iff.mp accepted
  cases given
  exact span_file_of_normalizeNode read

/-! ## Dumps that cannot be read -/

/-- What is known of the place of the failure lies in the file. -/
def Malformed.LiesIn (failure : Malformed) (file : String) : Prop :=
  ∀ span, failure.span? = some span → span.file = file

theorem NodeFault.at_eq_error {α : Type} {read : Except NodeFault α}
    (stopped : NodeFault.at path none read = .error failure) : failure.LiesIn file := by
  intro span known
  cases read with
  | ok _ => cases stopped
  | error fault =>
      cases stopped
      cases known

theorem exists_of_normalizeItems_error {position : Nat} {items : List Value}
    (stopped : normalizeItems file parent path position items = .error failure) :
    ∃ item ∈ items, ∃ way, normalizeNode file parent way item = .error failure := by
  induction items generalizing position with
  | nil => cases stopped
  | cons item rest inductionHypothesis =>
      rw [normalizeItems] at stopped
      rcases Outcome.bind_eq_error_iff.mp stopped with here | ⟨child, _, finished⟩
      · exact ⟨item, List.mem_cons_self, _, here⟩
      · rcases Outcome.bind_eq_error_iff.mp finished with later | ⟨_, _, impossible⟩
        · obtain ⟨other, member, way, refused⟩ := inductionHypothesis later
          exact ⟨other, List.mem_cons_of_mem item member, way, refused⟩
        · cases impossible

theorem normalizeChildren_error {entries : List (String × Value)}
    (stopped : normalizeChildren file coordinates path entries = .error failure) :
    failure = .node path .childrenNotList (some ⟨file, coordinates⟩) ∨
      ∃ items, childList? entries = some items ∧
        normalizeItems file coordinates path 0 items = .error failure := by
  induction entries with
  | nil => cases stopped
  | cons entry rest inductionHypothesis =>
      obtain ⟨key, value⟩ := entry
      rw [normalizeChildren.eq_def] at stopped
      simp only at stopped
      by_cases isChildren : key = "children"
      · subst isChildren
        rw [if_pos rfl] at stopped
        split at stopped
        · cases stopped
        · rename_i items
          refine Or.inr ⟨items, ?_, stopped⟩
          rw [childList?, List.lookup_cons_self]
        · cases stopped
          exact Or.inl rfl
      · rw [if_neg isChildren] at stopped
        rw [childList?_cons_of_ne isChildren]
        exact inductionHypothesis stopped

/-- A failure points into the file that was read. -/
theorem file_of_normalizeNode_error
    (refused : normalizeNode file parent path raw = .error failure) : failure.LiesIn file := by
  induction raw using Value.childInduction generalizing parent path with
  | step raw inductionHypothesis =>
      have known : ∀ path fault coordinates,
          (Malformed.node path fault (some ⟨file, coordinates⟩)).LiesIn file := by
        intro path fault coordinates span same
        cases same
        rfl
      cases raw with
      | table entries =>
          rw [normalizeNode] at refused
          rcases Outcome.bind_eq_error_iff.mp refused with stopped | ⟨kind, _, refused⟩
          · exact NodeFault.at_eq_error stopped
          rcases Outcome.bind_eq_error_iff.mp refused with stopped | ⟨coordinates, _, refused⟩
          · exact NodeFault.at_eq_error stopped
          rcases Outcome.bind_eq_error_iff.mp refused with stopped | ⟨attributes, _, refused⟩
          · exact NodeFault.at_eq_error stopped
          rcases Outcome.bind_eq_error_iff.mp refused with stopped | ⟨children, _, refused⟩
          · rcases normalizeChildren_error stopped with rfl | ⟨items, found, below⟩
            · exact known _ _ _
            · obtain ⟨item, member, way, childRefused⟩ := exists_of_normalizeItems_error below
              exact inductionHypothesis entries items rfl found item member childRefused
          · split at refused
            · cases refused
              exact known _ _ _
            · cases refused
      | _ =>
          rw [normalizeNode] at refused
          · cases refused
            exact known _ _ _
          · simp

theorem Node.normalize_error_liesIn
    (refused : Node.normalize raw (some file) = .error failure) : failure.LiesIn file := by
  cases raw with
  | table entries => exact file_of_normalizeNode_error refused
  | _ =>
      cases refused
      intro span known
      cases known

theorem Node.locate_file (raw : Value) (file : String) : (Node.locate raw file).file = file := by
  rw [locate.eq_def]
  split
  · split <;> rfl
  · rfl

end StyleAudit
