import MethodLint.Node.Basic

/-!
# Definitions and variables

A variable is a name with the places that define it.  A definition that exists
only because a name was used is *implicit*; every other kind of definition is
a declaration that the author wrote.  A variable may further carry a mark that
says the configuration or a comment declares it as a global.
-/

namespace MethodLint

/-- The way in which a definition came about. -/
inductive DefinitionKind where
  | implicitGlobal
  | variableName
  | functionName
  | parameter
  | className
  | catchClause
  | importBinding
  | other
deriving DecidableEq

namespace DefinitionKind

/-- The tag under which a scope analysis names the kind. -/
def tag : DefinitionKind → String
  | implicitGlobal => "ImplicitGlobalVariable"
  | variableName => "Variable"
  | functionName => "FunctionName"
  | parameter => "Parameter"
  | className => "ClassName"
  | catchClause => "CatchClause"
  | importBinding => "ImportBinding"
  | other => "Other"

def named : List DefinitionKind :=
  [implicitGlobal, variableName, functionName, parameter, className, catchClause,
    importBinding]

/--
The kind that a tag names.  A tag outside the table is some other form of
declaration, never an implicit one.
-/
def ofTag (text : String) : DefinitionKind :=
  (named.find? fun kind => kind.tag == text).getD other

@[simp] theorem ofTag_tag (kind : DefinitionKind) :
    ofTag kind.tag = kind := by
  cases kind <;> decide +kernel

/-- The definition exists only because the name was used. -/
def isImplicit (kind : DefinitionKind) : Bool :=
  kind == implicitGlobal

end DefinitionKind

structure Definition where
  kind : DefinitionKind
  node : NodeId
deriving DecidableEq

/--
A variable of a scope.  `writeable` is present when the configuration or a
comment declares the variable as a global, and tells whether it may be
assigned.
-/
structure Variable where
  name : String
  definitions : List Definition
  writeable : Option Bool
deriving DecidableEq

namespace Variable

/-- A variable that nothing defines yet. -/
def undefined (name : String) : Variable :=
  ⟨name, [], none⟩

/-- The variable with one more definition. -/
def define (v : Variable) (kind : DefinitionKind) (node : NodeId) : Variable :=
  { v with definitions := v.definitions ++ [⟨kind, node⟩] }

/-- The variable with the mark of a declared global. -/
def mark (v : Variable) (writeable : Bool) : Variable :=
  { v with writeable := some writeable }

end Variable

end MethodLint
