/-!
# Kinds of syntax nodes

`Kind` is the vocabulary of the trees under audit, `Kind.name` the word a tree
dump uses for a kind, and `Kind.ofName?` its inverse.
-/

namespace StyleAudit

/-- The kinds of nodes of a syntax tree. -/
inductive Kind
  | sourceFile
  | module
  | function
  | params
  | block
  | importDirective
  | aliasDirective
  | requireDirective
  | useDirective
  | moduleAttribute
  | call
  | pipe
  | withExpr
  | withClause
  | elseBlock
  | caseExpr
  | condExpr
  | ifExpr
  | branch
  | fnExpr
  | matchExpr
  | tuple
  | list
  | keyword
  | map
  | struct
  | pair
  | atom
  | literal
  | var
  | access
  | binaryOp
  | unaryOp
  | default
  | raise
  deriving DecidableEq, Repr, Inhabited

namespace Kind

def all : List Kind :=
  [sourceFile, module, function, params, block, importDirective, aliasDirective,
    requireDirective, useDirective, moduleAttribute, call, pipe, withExpr, withClause,
    elseBlock, caseExpr, condExpr, ifExpr, branch, fnExpr, matchExpr, tuple, list, keyword,
    map, struct, pair, atom, literal, var, access, binaryOp, unaryOp, default, raise]

def name : Kind → String
  | sourceFile => "source_file"
  | module => "module"
  | function => "function"
  | params => "params"
  | block => "block"
  | importDirective => "import"
  | aliasDirective => "alias"
  | requireDirective => "require"
  | useDirective => "use"
  | moduleAttribute => "module_attribute"
  | call => "call"
  | pipe => "pipe"
  | withExpr => "with"
  | withClause => "with_clause"
  | elseBlock => "else"
  | caseExpr => "case"
  | condExpr => "cond"
  | ifExpr => "if"
  | branch => "branch"
  | fnExpr => "fn"
  | matchExpr => "match"
  | tuple => "tuple"
  | list => "list"
  | keyword => "keyword"
  | map => "map"
  | struct => "struct"
  | pair => "pair"
  | atom => "atom"
  | literal => "literal"
  | var => "var"
  | access => "access"
  | binaryOp => "binary_op"
  | unaryOp => "unary_op"
  | default => "default"
  | raise => "raise"

def ofName? (word : String) : Option Kind :=
  all.find? fun kind => kind.name == word

theorem mem_all (kind : Kind) : kind ∈ all := by
  cases kind <;> decide

end Kind
end StyleAudit
