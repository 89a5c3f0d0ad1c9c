/-!
# What a console prints

A run prints lines of markup and tables; `ConsoleItem` is one of them. The
texts of an item are markup, so the console draws styles where they say so.
-/

namespace StyleAudit

/-- A table with a heading for every column. -/
structure Table where
  title : String
  columns : List String
  rows : List (List String)
  deriving DecidableEq, Repr

/-- One thing printed on a console. -/
inductive ConsoleItem
  | line (markup : String)
  | table (table : Table)
  deriving DecidableEq, Repr

end StyleAudit
