import StyleAudit.Proofs.Module.Reference
import StyleAudit.Rule.NestedUpdate

/-!
# The two forms of a nested update

A changed value may stand inside the call that writes it back, or be bound to a
variable that the call is given instead. Both forms read the place of the value off
the change (`readPath?`) and ask whether the call writes to this place, which does
not depend on what it writes (`isSome_writtenTo?_withThird`). So they are judged
alike, once, at the first expression (`twoStep_reported_iff_inline`).
-/

namespace StyleAudit.NestedUpdate

variable {n outer base key inner written bound used : Node} {place : Node × Node}

/-- The call with another third argument. -/
def withThird (outer third : Node) : Node :=
  { outer with children := outer.children.set 2 third }

/-- The call writes to the place that a change is made from. -/
def WritesChange (outer inner : Node) : Prop :=
  ∃ place, readPath? inner = some place ∧ (writtenTo? outer place.1 place.2).isSome = true

theorem isCall_withThird (isCall : outer.kind = .call) (third : Node) :
    (withThird outer third).kind = .call :=
  isCall

theorem children_withThird (arguments : outer.children = [base, key, inner]) (third : Node) :
    (withThird outer third).children = [base, key, third] := by
  rw [withThird, arguments]
  rfl

theorem readPath?_of_ne_call (noCall : n.kind ≠ .call) : readPath? n = none := by
  rw [readPath?]
  split
  · exact if_neg fun updates => noCall updates.1
  · rfl

theorem valueOf_of_call (isCall : n.kind = .call) : valueOf n = n := by
  rw [valueOf, isCall]

theorem isTwoStep_of_call (isCall : n.kind = .call) (later : List Node) :
    isTwoStep n later = false := by
  rw [isTwoStep, isCall]

theorem isInline_iff (isCall : outer.kind = .call) (arguments : outer.children = [base, key, inner]) :
    isInline outer = true ↔ WritesChange outer inner := by
  simp only [isInline, isCall, arguments, WritesChange]
  cases readPath? inner with
  | none => simp
  | some place => simp

/-- Where a call writes does not depend on what it writes. -/
theorem writtenTo?_withThird (arguments : outer.children = [base, key, inner]) (third : Node)
    (place : Node × Node) :
    writtenTo? (withThird outer third) place.1 place.2 =
      (writtenTo? outer place.1 place.2).map fun _ => third := by
  rw [writtenTo?, writtenTo?, children_withThird arguments, arguments]
  simp only [apply_ite (Option.map fun _ => third), Option.map_some, Option.map_none]
  rfl

/-- A call that is given a variable writes it back where it writes. -/
theorem writesBack_withThird (isCall : outer.kind = .call)
    (arguments : outer.children = [base, key, inner]) (isVariable : used.kind = .var)
    (place : Node × Node) :
    writesBack place.1 place.2 used.name (withThird outer used) =
      (writtenTo? outer place.1 place.2).isSome := by
  rw [writesBack, valueOf_of_call (isCall_withThird isCall used), writtenTo?_withThird arguments]
  cases writtenTo? outer place.1 place.2 with
  | none => rfl
  | some written => simp [isVariable]

theorem isTwoStep_iff {binding : Node} (isMatch : binding.kind = .matchExpr)
    (sides : binding.children = [bound, inner]) (isBound : bound.kind = .var)
    (isCall : outer.kind = .call) (arguments : outer.children = [base, key, inner])
    (isUsed : used.kind = .var) (sameName : used.name = bound.name) :
    isTwoStep binding [withThird outer used] = true ↔ WritesChange outer inner := by
  simp only [isTwoStep, isMatch, sides, isBound, WritesChange, ← sameName]
  cases readPath? inner with
  | none => simp
  | some place => simp [writesBack_withThird isCall arguments isUsed place]

/-- A call that is given a variable starts no update of its own. -/
theorem isInline_withThird (isCall : outer.kind = .call)
    (arguments : outer.children = [base, key, inner]) (isVariable : used.kind = .var) :
    isInline (withThird outer used) = false := by
  have noCall : used.kind ≠ .call := by
    rw [isVariable]
    decide
  rw [← Bool.not_eq_true,
    isInline_iff (isCall_withThird isCall used) (children_withThird arguments used)]
  rintro ⟨place, changes, _⟩
  rw [readPath?_of_ne_call noCall] at changes
  cases changes

/-! ## Blocks -/

theorem updates_of_call (isCall : n.kind = .call) (later : List Node) :
    updates (n :: later) = if isInline n then n :: updates later else updates later := by
  rw [updates, valueOf_of_call isCall, isTwoStep_of_call isCall, Bool.or_false]

/-- The two forms of an update. One block is a call; the other one binds the third
argument of the call to a variable, and then calls with the variable. -/
structure SpellsOut (inlineBlock twoStepBlock outer inner binding : Node) : Prop where
  isCall : outer.kind = .call
  third : ∃ base key, outer.children = [base, key, inner]
  inline : inlineBlock.children = [outer]
  isMatch : binding.kind = .matchExpr
  twoStep : ∃ bound used : Node, bound.kind = .var ∧ used.kind = .var ∧ used.name = bound.name ∧
    binding.children = [bound, inner] ∧ twoStepBlock.children = [binding, withThird outer used]

/-- A call whose third argument is no update by itself is reported exactly when the
block that spells it out is. Then each block is reported once, at its first
expression. -/
theorem twoStep_reported_iff_inline {inlineBlock twoStepBlock outer inner binding : Node}
    (forms : SpellsOut inlineBlock twoStepBlock outer inner binding)
    (single : isInline inner = false) :
    (check inlineBlock ≠ [] ↔ check twoStepBlock ≠ []) ∧
      (check inlineBlock ≠ [] →
        check inlineBlock = [byHand outer] ∧ check twoStepBlock = [byHand binding]) := by
  obtain ⟨base, key, arguments⟩ := forms.third
  obtain ⟨bound, used, isBound, isUsed, sameName, sides, twoStep⟩ := forms.twoStep
  have inlineFound : check inlineBlock = if isInline outer then [byHand outer] else [] := by
    rw [check, forms.inline, updates_of_call forms.isCall, updates]
    split <;> rfl
  have lastFound : updates [withThird outer used] = [] := by
    rw [updates_of_call (isCall_withThird forms.isCall used),
      isInline_withThird forms.isCall arguments isUsed]
    rfl
  have valueFound : valueOf binding = inner := by
    simp only [valueOf, forms.isMatch, sides]
  have twoStepFound : check twoStepBlock =
      if isTwoStep binding [withThird outer used] then [byHand binding] else [] := by
    rw [check, twoStep, updates, lastFound, valueFound, single, Bool.false_or]
    split <;> rfl
  have inlineIff := isInline_iff forms.isCall arguments
  have twoStepIff :=
    isTwoStep_iff forms.isMatch sides isBound forms.isCall arguments isUsed sameName
  rw [inlineFound, twoStepFound]
  by_cases writes : WritesChange outer inner
  · simp [inlineIff.mpr writes, twoStepIff.mpr writes]
  · simp [mt inlineIff.mp writes, mt twoStepIff.mp writes]

/-! ## A setting of a user -/

def userVar : Node :=
  ⟨.var, lineSpan 3, [("name", .one (.text "user"))], []⟩

def keyAtom (value : String) : Node :=
  ⟨.atom, lineSpan 3, [("value", .one (.text value))], []⟩

/-- `Map.put(user[:settings], :theme, :dark)` -/
def darkSettings : Node :=
  callForm 3 (.text "Map") "put"
    [⟨.access, lineSpan 3, [], [userVar, keyAtom "settings"]⟩, keyAtom "theme", keyAtom "dark"]

def writeSettings : Node :=
  callForm 4 (.text "Map") "put" [userVar, keyAtom "settings", darkSettings]

def temporaryVar : Node :=
  ⟨.var, lineSpan 3, [("name", .one (.text "settings"))], []⟩

def bindSettings : Node :=
  ⟨.matchExpr, lineSpan 3, [], [temporaryVar, darkSettings]⟩

def blockOf (expressions : List Node) : Node :=
  ⟨.block, lineSpan 2, [], expressions⟩

theorem spellsOut_settings :
    SpellsOut (blockOf [writeSettings]) (blockOf [bindSettings, withThird writeSettings temporaryVar])
      writeSettings darkSettings bindSettings :=
  { isCall := rfl
    third := ⟨_, _, rfl⟩
    inline := rfl
    isMatch := rfl
    twoStep := ⟨temporaryVar, temporaryVar, rfl, rfl, rfl, rfl, rfl⟩ }

theorem twoStep_reported_iff_inline_settings :
    isInline darkSettings = false ∧
      check (blockOf [writeSettings]) = [byHand writeSettings] ∧
      check (blockOf [bindSettings, withThird writeSettings temporaryVar]) =
        [byHand bindSettings] := by
  have single : isInline darkSettings = false := by
    decide
  have reported : check (blockOf [writeSettings]) ≠ [] := by
    decide
  exact ⟨single, (twoStep_reported_iff_inline spellsOut_settings single).2 reported⟩

end StyleAudit.NestedUpdate
