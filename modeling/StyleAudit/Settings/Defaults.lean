import StyleAudit.Rule.Basic

/-!
# Default settings

The values that hold where a configuration gives none.
-/

namespace StyleAudit.Defaults

def trustedModules : List String :=
  ["Access", "Agent", "Application", "Atom", "Base", "Code", "Date", "DateTime", "Enum", "File",
    "Float", "Function", "GenServer", "IO", "Inspect", "Integer", "Kernel", "Keyword", "List",
    "Logger", "Map", "MapSet", "Module", "NaiveDateTime", "Path", "Process", "Range", "Regex",
    "Stream", "String", "System", "Task", "Time", "Tuple", "URI"]

def optionNames : List String := ["opts", "options"]

def guardMark : String := "is_"

def predicateMark : String := "?"

/-- The number of segments a module name may have before it is internal. -/
def contextDepth : Nat := 1

def maxWorkers : Nat := 4

/-- The test support bases that a project has unless it lists its own. -/
def testSupport : List (String × Capability) :=
  [("ConnCase", ⟨"web transport",
      ["build_conn", "get", "post", "put", "patch", "delete", "json_response", "html_response",
        "text_response", "redirected_to", "*ConnTest.*"]⟩),
    ("DataCase", ⟨"persistent storage",
      ["*Repo.*", "insert", "insert!", "insert_list", "*Factory.*", "*Ecto.*", "errors_on"]⟩)]

end StyleAudit.Defaults
