import MethodLint.Decimal.Shortest
import MethodLint.Text.Quoted

/-!
# Values in a settings text

The reader keeps of a value what the settings or a message can need.  Of a
list or an object that is only the fact that it is one.
-/

namespace MethodLint
namespace Config

/-- A value met in a settings text. -/
inductive Value where
  | null
  | bool (value : Bool)
  | integer (value : Int)
  | real (value : Float)
  | text (value : String)
  | list
  | object

namespace Value

/-- What a message calls the value. -/
def description : Value → String
  | null => "null"
  | bool value => "boolean `" ++ (if value then "true" else "false") ++ "`"
  | integer value =>
      "integer `" ++ (if value < 0 then "-" else "") ++
        Nat.repr value.natAbs ++ "`"
  | real value => "floating point `" ++ Decimal.text value ++ "`"
  | text value => "string " ++ Text.quote value
  | list => "sequence"
  | object => "map"

/-- The text that a severity is spelled with: a string, or a natural number. -/
def spelling? : Value → Option String
  | text value => some value
  | integer (.ofNat n) => some (Nat.repr n)
  | _ => none

end Value

end Config
end MethodLint
