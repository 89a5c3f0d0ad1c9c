import StyleAudit.Number.Overlong
import StyleAudit.Settings.Config

/-!
# Errors without a wording

An integer with too many decimal digits is not written, so an error that shows a
value which holds one has no wording.
-/

namespace StyleAudit

namespace Value

mutual

/-- The value holds an integer with too many digits to be written. -/
def isEndless : Value → Bool
  | int value => exceedsDigitLimit value.natAbs
  | list items => anyEndless items
  | table entries => anyEntryEndless entries
  | _ => false
  termination_by structural value => value

/-- One of the items holds such an integer. -/
def anyEndless : List Value → Bool
  | [] => false
  | item :: rest => isEndless item || anyEndless rest
  termination_by structural items => items

/-- One of the entries holds such an integer. -/
def anyEntryEndless : List (String × Value) → Bool
  | [] => false
  | (_, value) :: rest => isEndless value || anyEntryEndless rest
  termination_by structural entries => entries

end

end Value

/-- The error shows a value that cannot be written. -/
def ConfigError.isEndless : ConfigError → Bool
  | notPositiveInteger _ found | notPositiveNumber _ found => found.isEndless
  | _ => false

end StyleAudit
