import MethodLint.Scope.Definition

/-!
# Scopes and resolution

A scope lists variables and the references that no inner scope binds.  The
lint sees a variable only as a `Binding`: a name, the kinds of its
definitions, and whether it carries the mark of a declared global.  Two forms
of variable have that view, the recorded one and the one of a host that keeps
nothing else.

**Algorithm.**  A name resolves to the first variable that bears it, and only
if that variable is declared.  A later variable of the same name is never
looked at.
-/

namespace MethodLint

/-- What the lint can see of a variable. -/
class Binding (β : Type) where
  name : β → String
  kinds : β → List DefinitionKind
  marked : β → Bool

namespace Binding

variable {β : Type} [Binding β]

/--
Every definition of the variable exists only because the name was used.  So it
is, too, of a variable without definitions.
-/
def isImplicit (v : β) : Bool :=
  (kinds v).all DefinitionKind.isImplicit

/-- The author declares the variable, or the mark of a global stands for it. -/
def isDeclared (v : β) : Bool :=
  !isImplicit v || marked v

end Binding

instance : Binding Variable where
  name := Variable.name
  kinds v := v.definitions.map Definition.kind
  marked v := v.writeable.isSome

/-- A variable of which a host keeps only what the lint can see. -/
structure HostVariable where
  name : String
  kinds : List DefinitionKind
  marked : Bool
deriving DecidableEq

instance : Binding HostVariable where
  name := HostVariable.name
  kinds := HostVariable.kinds
  marked := HostVariable.marked

namespace Variable

/-- The recorded variable as a host keeps it. -/
def forHost (v : Variable) : HostVariable where
  name := v.name
  kinds := v.definitions.map Definition.kind
  marked := v.writeable.isSome

end Variable

structure Reference where
  identifier : NodeId
  name : String
deriving DecidableEq

/-- The variables of a scope, and the references that pass through it. -/
structure Scope (β : Type) where
  bindings : List β
  through : List Reference
deriving DecidableEq

namespace Scope

variable {β : Type}

def empty : Scope β :=
  ⟨[], []⟩

variable [Binding β]

/-- The first variable with the given name. -/
def named? (scope : Scope β) (name : String) : Option β :=
  scope.bindings.find? fun v => Binding.name v == name

/-- The declared variable that a name stands for. -/
def resolve? (scope : Scope β) (name : String) : Option β :=
  (scope.named? name).filter Binding.isDeclared

/-- The place in the list of the variable that a name stands for. -/
def resolveIdx? (scope : Scope β) (name : String) : Option Nat :=
  if (scope.resolve? name).isSome then
    scope.bindings.findIdx? fun v => Binding.name v == name
  else
    none

/-- The name stands for a declared variable. -/
def declares (scope : Scope β) (name : String) : Bool :=
  (scope.resolve? name).isSome

end Scope

end MethodLint
