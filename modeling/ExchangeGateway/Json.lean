import Mathlib.Data.Int.Notation
import Mathlib.Tactic.Common

/-! JSON values as the gateway reads them. Objects keep their fields in a list; a lookup takes
the first field of a name. -/
namespace ExchangeGateway

inductive Json
  | null
  | bool (value : Bool)
  | unsigned (value : ℕ)
  | integer (value : ℤ)
  | float (text : String)
  | str (value : String)
  | arr (items : List Json)
  | obj (fields : List (String × Json))

namespace Json

def find? : Json → String → Option Json
  | .obj fields, name => fields.lookup name
  | _, _ => none

def isObject : Json → Bool
  | .obj _ => true
  | _ => false

/-- `is_number_integer`, with the value. -/
def integer? : Json → Option ℤ
  | .unsigned value => some value
  | .integer value => some value
  | _ => none

def string? : Json → Option String
  | .str value => some value
  | _ => none

/-- What the gateway takes from the JSON library: the parser without exceptions, the compact
serializer, and the conversion of a floating-point number to an integer. -/
structure Library where
  parse : String → Option Json
  dump : Json → String
  truncate : String → ℤ

def int32 (x : ℤ) : ℤ := x.bmod 0x100000000

/-- `get<int>`; `none` when the value does not convert, which throws. -/
def toInt? (library : Library) : Json → Option ℤ
  | .bool value => some (if value then 1 else 0)
  | .unsigned value => some (int32 value)
  | .integer value => some (int32 value)
  | .float text => some (int32 (library.truncate text))
  | _ => none

end Json

end ExchangeGateway
