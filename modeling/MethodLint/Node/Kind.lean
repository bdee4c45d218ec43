/-!
# Kinds of syntax nodes

The lint inspects only a few of the node types of a program tree.  The types
it names have a kind each; every other type shares the kind `other`, which
still takes part in counting ancestors.

**Results.**  A kind is recovered from its tag, and only the tags in the table
name a kind other than `other`.
-/

namespace MethodLint

/-- The type of a syntax node, as far as the lint tells types apart. -/
inductive NodeKind where
  | program
  | blockStatement
  | expressionStatement
  | returnStatement
  | variableDeclaration
  | variableDeclarator
  | functionDeclaration
  | functionExpression
  | arrowFunctionExpression
  | objectExpression
  | property
  | callExpression
  | memberExpression
  | assignmentExpression
  | identifier
  | other
deriving DecidableEq

namespace NodeKind

/-- The tag under which a tree names the kind. -/
def tag : NodeKind → String
  | program => "Program"
  | blockStatement => "BlockStatement"
  | expressionStatement => "ExpressionStatement"
  | returnStatement => "ReturnStatement"
  | variableDeclaration => "VariableDeclaration"
  | variableDeclarator => "VariableDeclarator"
  | functionDeclaration => "FunctionDeclaration"
  | functionExpression => "FunctionExpression"
  | arrowFunctionExpression => "ArrowFunctionExpression"
  | objectExpression => "ObjectExpression"
  | property => "Property"
  | callExpression => "CallExpression"
  | memberExpression => "MemberExpression"
  | assignmentExpression => "AssignmentExpression"
  | identifier => "Identifier"
  | other => "Other"

def named : List NodeKind :=
  [program, blockStatement, expressionStatement, returnStatement,
    variableDeclaration, variableDeclarator, functionDeclaration,
    functionExpression, arrowFunctionExpression, objectExpression, property,
    callExpression, memberExpression, assignmentExpression, identifier]

/-- The kind that a tag names; a tag outside the table names `other`. -/
def ofTag (text : String) : NodeKind :=
  (named.find? fun kind => kind.tag == text).getD other

@[simp] theorem ofTag_tag (kind : NodeKind) : ofTag kind.tag = kind := by
  cases kind <;> decide +kernel

/-- A kind is function-like when its nodes introduce a function body. -/
def isFunctionLike : NodeKind → Bool
  | functionDeclaration | functionExpression | arrowFunctionExpression => true
  | _ => false

end NodeKind

end MethodLint
