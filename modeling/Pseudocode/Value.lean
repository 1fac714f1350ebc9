/-
# Values

An expression evaluates to a 64-bit integer, a double, a truth value or a
text. `Value.invalid` is the value of nothing; it has a kind of its own and no
operator takes it. Each value has a display form, which is what a program's
user sees, and a debug form, which tells the kinds apart.

Key definitions: `Kind`, `Value`, `Value.display`, `Value.debug`.
-/
import Pseudocode.Decimal.Shortest
import Pseudocode.Text.Quoted

namespace Pseudocode

/-- The kinds of values. Codes from five on name no kind of value; such a kind
can be asked about, and nothing has it. -/
inductive Kind where
  | invalid
  | int
  | float
  | bool
  | text
  /-- The kind with code `5 + offset`. -/
  | unknown (offset : Nat)
deriving Repr, DecidableEq, Inhabited

namespace Kind

/-- The kind with a numeric code. -/
def ofCode : Nat → Kind
  | 0 => invalid
  | 1 => int
  | 2 => float
  | 3 => bool
  | 4 => text
  | n + 5 => unknown n

/-- The name shown in messages. -/
def name : Kind → String
  | invalid => "invalid"
  | int => "int"
  | float => "float"
  | bool => "bool"
  | text => "text"
  | unknown n => "Kind(" ++ toString (n + 5) ++ ")"

/-- The kinds a value can have, in the order of their codes. -/
def all : List Kind := [int, float, bool, text]

/-- One flag for each kind of value, none for the others. -/
def flags : Kind → Nat
  | int => 1
  | float => 2
  | bool => 4
  | text => 8
  | _ => 0

/-- Whether values of the kind are numbers. -/
def isNumeric (k : Kind) : Bool :=
  k = int || k = float

end Kind

/-- What an expression evaluates to. -/
inductive Value where
  | invalid
  | int (n : Int64)
  | float (x : Float)
  | bool (b : Bool)
  | text (s : String)
deriving Repr, Inhabited

namespace Value

/-- The kind of a value. -/
def kind : Value → Kind
  | invalid => .invalid
  | int _ => .int
  | float _ => .float
  | bool _ => .bool
  | text _ => .text

/-- Whether the value is one of the four kinds. -/
def isValid (v : Value) : Bool := v.kind ≠ .invalid

/-- The integer held, or zero. -/
def toInt : Value → Int64
  | int n => n
  | _ => 0

/-- The double held, or zero. -/
def toFloat : Value → Float
  | float x => x
  | _ => 0.0

/-- The truth value held, or false. -/
def toBool : Value → Bool
  | bool b => b
  | _ => false

/-- The text held, or the empty one. -/
def toText : Value → String
  | text s => s
  | _ => ""

/-- Equality of kind and content. Doubles are compared as numbers, so zero
equals its negative, and what is not a number does not equal itself. -/
def equal : Value → Value → Bool
  | invalid, invalid => true
  | int m, int n => m == n
  | float x, float y => x == y
  | bool a, bool b => a == b
  | text s, text t => s == t
  | _, _ => false

/-- The form shown to users: `42`, `2.5`, `True`, or the text as it is. -/
def display : Value → String
  | invalid => "<invalid>"
  | int n => toString n.toInt
  | float x => floatText x
  | bool b => if b then "True" else "False"
  | text s => s

/-- The form that tells kinds apart: `Int(42)`, `Text("hi")`. -/
def debug : Value → String
  | invalid => "Invalid"
  | int n => "Int(" ++ toString n.toInt ++ ")"
  | float x => "Float(" ++ floatText x ++ ")"
  | bool b => if b then "Bool(true)" else "Bool(false)"
  | text s => "Text(" ++ quoteText s ++ ")"

end Value

end Pseudocode
