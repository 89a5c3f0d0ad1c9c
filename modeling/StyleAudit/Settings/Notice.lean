/-!
# Notices

Things worth telling the user that do not stop a run.
-/

namespace StyleAudit

/-- A notice of a run. -/
inductive Notice
  | unknownKey (key : String)
  | unknownRule (id : String)
  | missingPath (path : String)
  deriving DecidableEq, Repr

def Notice.message : Notice → String
  | unknownKey key => s!"Ignoring unknown configuration key '{key}'"
  | unknownRule id => s!"Unknown rule id '{id}' in disabled_rules"
  | missingPath path => s!"Path does not exist: {path}"

end StyleAudit
