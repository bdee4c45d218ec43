import MethodLint.CallShape
import MethodLint.Config.Settings
import MethodLint.Diagnostic.Basic
import MethodLint.Diagnostic.Template
import MethodLint.Scope.Basic

/-!
# The rule

The rule looks at every reference that passes through a program scope, in
order, and reports each that calls a method by a name the method only
inherits from its property key.

**Input.**  Settings, the name of the file, a tree, and a scope.

**Algorithm.**  One fold over the references.  Findings go to a sink, which is
any state with a way to take in one more finding; the rule never reads it back.
-/

namespace MethodLint
namespace Rule

/-- What there is to say about the rule. -/
structure Info where
  name : String
  code : UInt32
  description : String
  docs : String
  fixable : Bool

def info : Info where
  name := "no-inferred-method-name"
  code := Message.undefinedMethodName.code
  description :=
    "disallow calling an object method by a name it only inherits " ++
      "from its property key"
  docs :=
    "A function expression assigned to an object property gets an " ++
      "inferred name, but that name is not a binding inside the function. " ++
      "Calling it by that name from the body resolves to an undeclared " ++
      "global. Give the function expression an explicit name: " ++
      "`foo: function foo() \x7b foo(); \x7d`."
  fixable := false

variable {β σ : Type} [Binding β]

/-- The verdict on a reference of a scope. -/
def verdict (tree : Tree) (scope : Scope β) (reference : Reference) :
    CallShape :=
  tree.shape reference.identifier (scope.declares reference.name)

/-- The report on a reference, placed where the tree has its identifier. -/
def report
    (category : Category)
    (file : String)
    (tree : Tree)
    (reference : Reference) : Diagnostic :=
  let span := (tree.span reference.identifier).getD .nowhere
  let fill (message : Message) :=
    Template.fill message.template [reference.name]
  (Diagnostic.of category file span.start span.length
    (fill .undefinedMethodName) info.code).suggest (fill .nameTheFunction)

/-- The finding about a reference, if it is worth a report. -/
def finding?
    (category : Category)
    (file : String)
    (tree : Tree)
    (scope : Scope β)
    (reference : Reference) : Option Diagnostic :=
  if (verdict tree scope reference).isMiswritten then
    some (report category file tree reference)
  else
    none

/--
Hand every finding to a sink, and count them.  The sink is given by what
taking in one finding does to its state.
-/
def check
    (settings : Settings)
    (file : String)
    (tree : Tree)
    (scope : Scope β)
    (take : σ → Diagnostic → σ)
    (sink : σ) : σ × Nat :=
  match settings.category? with
  | none => (sink, 0)
  | some category =>
      scope.through.foldl
        (fun (sink, count) reference =>
          match finding? category file tree scope reference with
          | none => (sink, count)
          | some d => (take sink d, count + 1))
        (sink, 0)

def lint
    (settings : Settings)
    (file : String)
    (tree : Tree)
    (scope : Scope β) : List Diagnostic :=
  (check settings file tree scope (fun found d => found ++ [d]) []).1

end Rule
end MethodLint
