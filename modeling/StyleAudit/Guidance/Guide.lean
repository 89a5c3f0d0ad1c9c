import StyleAudit.Rule.Basic

/-!
# The guides of the rules

`Rule.guide` tells the user about a rule: what it asks for, why, and how to
mend code that it reports.
-/

namespace StyleAudit

/-- What the user is told about a rule. -/
structure Guide where
  displayName : String
  summary : String
  rationale : String
  instructions : String
  /-- The sections of the style guide that state the rule. -/
  references : List String
  deriving DecidableEq, Repr

def styleGuideSection (name : String) : String :=
  "software_design: " ++ name

def Rule.guide : Rule → Guide
  | withElseCoverage =>
    { displayName := "With Else Coverage"
      summary :=
        "A `with` that calls code from other modules should list its failure modes in an " ++
        "`else`."
      rationale :=
        "Leaving out `else` forwards every non-matching value unchanged. That is fine while " ++
        "all clauses call code in the same file, but once clauses reach into other modules " ++
        "the full set of outcomes of the block is only visible by reading those modules."
      instructions :=
        "Add an `else` block that names each failure value the external calls can return, " ++
        "even when a branch passes the value through unchanged."
      references := [styleGuideSection "with_else_usage"] }
  | withElseRedundancy =>
    { displayName := "With Else Redundancy"
      summary :=
        "Drop an `else` that only echoes failures of module-local or standard-library " ++
        "calls."
      rationale :=
        "When every clause calls this module or the standard library and no `else` branch " ++
        "changes the value it matched, the `else` block restates what `with` already does " ++
        "and costs maintenance."
      instructions :=
        "Remove the `else` block and let `with` forward the non-matching values."
      references := [styleGuideSection "with_else_redundancy"] }
  | withElseOrder =>
    { displayName := "With Else Order"
      summary :=
        "Order `else` branches like the clauses whose failures they handle."
      rationale :=
        "Reading a `with` top to bottom is easiest when the `else` branches follow the same " ++
        "order as the clauses that can produce them."
      instructions :=
        "Move the reported branch (and the ones after it) so that branches handling an " ++
        "earlier clause come first."
      references := [styleGuideSection "with_else_order"] }
  | errorMapping =>
    { displayName := "Error Mapping"
      summary :=
        "Errors coming from another context should be mapped to a meaning in this one."
      rationale :=
        "Passing `\x7b:error, reason\x7d` from another module straight through leaks that " ++
        "module's vocabulary. An error like `:forbidden` from an HTTP client says little to " ++
        "the caller of a service. This check only sees structure, so treat it as a prompt " ++
        "for review."
      instructions :=
        "Replace the echo branch with one that returns an error named for this module, or " ++
        "confirm the forwarded error already fits the caller and silence the rule."
      references := [styleGuideSection "error_mapping"] }
  | moduledocScope =>
    { displayName := "Moduledoc Scope"
      summary :=
        "Only context-level modules carry a non-false `@moduledoc`."
      rationale :=
        "A filled moduledoc lists the module in the generated documentation. Internal " ++
        "modules of a context add noise there; notes about their internals belong in " ++
        "comments."
      instructions :=
        "Set `@moduledoc false` on the internal module and move the text into comments or " ++
        "into the documentation of the context module."
      references := [styleGuideSection "moduledoc_usage"] }
  | importScope =>
    { displayName := "Import Scope"
      summary :=
        "Import inside the function that needs it, and always with `only:`."
      rationale :=
        "Module-level imports pull foreign names into every function and invite clashes. An " ++
        "import without `only:` hides which functions actually come from the imported " ++
        "module."
      instructions :=
        "Move the import into the function body and add `only: [name: arity]` for each " ++
        "function used, or call the function through an alias instead."
      references := [styleGuideSection "import_usage"] }
  | testCaseUsage =>
    { displayName := "Test Case Usage"
      summary :=
        "Tests should only use the support case modules they need."
      rationale :=
        "A test that never sends a request does not need `ConnCase`, and one that never " ++
        "touches the database does not need `DataCase`. `ExUnit.Case` is often enough."
      instructions :=
        "Replace the support base with a narrower one such as `ExUnit.Case`, or configure " ++
        "the hallmark calls for your own support modules under " ++
        "`[tool.design-guide.test_support]`."
      references := [styleGuideSection "test_case_usage"] }
  | sequentialNaming =>
    { displayName := "Sequential Naming"
      summary :=
        "Numbered identifiers separate the number with an underscore, and are a last " ++
        "resort."
      rationale :=
        "Suffixing a digit directly breaks underscore naming, which shows most with " ++
        "multi-word names. Descriptive names are better still."
      instructions :=
        "Rename `user1` to `user_1`, or better, pick names that say how the values differ, " ++
        "such as `user` and `other_user`."
      references := [styleGuideSection "sequential_variable_naming"] }
  | predicateNaming =>
    { displayName := "Predicate Naming"
      summary :=
        "Predicate functions end with `?` and do not start with `is_`."
      rationale :=
        "The `?` suffix marks functions returning booleans. The `is_` prefix is kept for " ++
        "guard-safe predicate macros. Functions returning tagged tuples are not " ++
        "predicates."
      instructions :=
        "Rename `is_active(user)` to `active?(user)`."
      references := [styleGuideSection "predicate_naming"] }
  | functionOrder =>
    { displayName := "Function Order"
      summary :=
        "Place each private function directly below the first function that calls it."
      rationale :=
        "Grouping functions by relationship rather than by visibility lets a reader follow " ++
        "the flow of the module from top to bottom."
      instructions :=
        "Move the private function so that it follows its first caller, after any other " ++
        "helpers that caller uses earlier."
      references := [styleGuideSection "function_order"] }
  | flowDirectiveChoice =>
    { displayName := "Flow Directive Choice"
      summary :=
        "Use the flow directive that gives the most compact code."
      rationale :=
        "A `case` whose only real branch dispatches on another conditional while the " ++
        "remaining branches just pass values on is a `with` in disguise. Nested single-arm " ++
        "`if`s combine into one condition."
      instructions :=
        "Flatten the nested conditional into a `with` or a combined condition."
      references := [styleGuideSection "flow_control"] }
  | patternMatchingUsage =>
    { displayName := "Pattern Matching Usage"
      summary :=
        "Prefer one pattern match over field-by-field extraction."
      rationale :=
        "Taking fields out one by one through `.` or `[]` spreads the expected shape over " ++
        "several lines. A single match states it at once and fails early. Keyword option " ++
        "lists are exempt."
      instructions :=
        "Replace the successive bindings with one match, for example `%\x7b\"data\" => " ++
        "%\x7b\"id\" => id, \"name\" => name\x7d\x7d = doc`, ideally in the function head."
      references := [styleGuideSection "pattern_matching"] }
  | nestedStructureMacroUsage =>
    { displayName := "Nested Structure Macro Usage"
      summary :=
        "Use `put_in`, `update_in` and friends instead of manual nested updates."
      rationale :=
        "Reading a nested value, changing it and writing it back by hand repeats the access " ++
        "path and leaves room for mistakes. The Kernel `*_in` macros do this in one step."
      instructions :=
        "Replace the read-modify-write sequence with `put_in(base, [key, inner_key], " ++
        "value)` or `update_in/3`."
      references := [styleGuideSection "nested_structures"] }
  | optionFormat =>
    { displayName := "Option Format"
      summary :=
        "Pass options as keyword lists and status pairs as tuples."
      rationale :=
        "Keyword lists are the conventional container for options and are handled by the " ++
        "`Keyword` module. Results of actions that can fail follow the `\x7b:ok, value\x7d` " ++
        "/ `\x7b:error, reason\x7d` tuple convention."
      instructions :=
        "Declare options as `opts \\\\ []` and read them with `Keyword.get/3`. Return " ++
        "`\x7b:ok, value\x7d` rather than `[:ok, value]`."
      references := [styleGuideSection "option_format"] }
  | errorHandlingLocality =>
    { displayName := "Error Handling Locality"
      summary :=
        "Fail close to the cause unless a caller handles the error differently."
      rationale :=
        "A catch-all that turns any failure into a generic `\x7b:error, :something\x7d` " ++
        "hides the real reason. Unless some caller reacts to that specific error, raising " ++
        "(or calling the `!` variant) keeps the failure visible where it happens."
      instructions :=
        "Use the raising variant of the call and drop the catch-all, or return the original " ++
        "reason and handle it in a caller that needs it."
      references := [styleGuideSection "error_handling"] }
  | okErrorReturnConsistency =>
    { displayName := "Ok/Error Return Consistency"
      summary :=
        "Tag results when a function can both succeed and fail, and only then."
      rationale :=
        "Mixing tagged and plain return values forces callers to handle both shapes. A " ++
        "function that cannot fail gains nothing from wrapping its result in `\x7b:ok, " ++
        "...\x7d`."
      instructions :=
        "Tag every return site consistently (`\x7b:ok, value\x7d` / `\x7b:error, " ++
        "reason\x7d`), or return the plain value when no failure path exists."
      references := [styleGuideSection "return_ok_error"] }

end StyleAudit
