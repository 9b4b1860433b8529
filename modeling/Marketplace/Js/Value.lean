import Mathlib.Data.Rat.Defs
import Mathlib.Data.Rat.Floor

/-!
# Values of JavaScript

What a statement can throw, as far as a handler can read it: any value, an object by the properties it has.
-/

namespace Js

/-- A number of JavaScript. -/
inductive Number
  | finite (q : ℚ)
  | infinity (negative : Bool)
  | nan
  deriving DecidableEq

/-- A value; functions, symbols and big integers are not told apart. -/
inductive Value
  | undefined
  | null
  | boolean (b : Bool)
  | number (x : Number)
  | string (s : String)
  | object (properties : List (String × Value))
  | other

namespace Value

/-- `value?.[key]`: what has no such property gives `undefined`. -/
def get (value : Value) (key : String) : Value :=
  match value with
  | .object properties => (properties.lookup key).getD .undefined
  | _ => .undefined

/-- `value === text` -/
def isString (value : Value) (text : String) : Bool :=
  match value with
  | .string s => s = text
  | _ => false

end Value

end Js
