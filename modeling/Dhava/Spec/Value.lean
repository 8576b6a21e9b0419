import Dhava.Foundations.Utf16
import Mathlib.Algebra.Order.Ring.Rat

/-! Python values and the encoders of `utils/serialization.py`. A JSON text is modelled by
the document it spells: a string in it is the UTF-16 units of its escapes, a number is the
number. What `msgpack` does is a parameter. -/

namespace Dhava

open Foundations

inductive PyFloat
  | finite (q : ℚ)
  | inf (negative : Bool)
  | nan
  deriving DecidableEq

/-- A dictionary key. `other` is one that JSON has no text for, a tuple or bytes. -/
inductive PyKey
  | str (s : Text)
  | int (n : ℤ)
  | float (x : PyFloat)
  | bool (b : Bool)
  | none
  | other
  deriving DecidableEq

/-- `list` is a list or a tuple, `enum` a member of an enumeration without a JSON type,
`object` an object with what its `to_dict` returns, `other` one of a class that has none.
A dictionary compares without its order, so its entries are listed in the order in which
they are written. -/
inductive PyValue
  | none
  | bool (b : Bool)
  | int (n : ℤ)
  | float (x : PyFloat)
  | str (s : Text)
  | bytes (data : List (Fin 256))
  | list (items : List PyValue)
  | dict (entries : List (PyKey × PyValue))
  | set (items : List PyValue)
  | enum (value : PyValue)
  | object (toDict : PyValue)
  | other (type : String)

/-- A JSON text. -/
inductive Json
  | null
  | bool (b : Bool)
  | int (n : ℤ)
  | float (x : PyFloat)
  | str (units : List CodeUnit)
  | arr (items : List Json)
  | obj (entries : List (List CodeUnit × Json))

/-! ### `json_dumps` and `json_loads` -/

/-- The text a key is written as. `float.__repr__` comes as an argument. -/
def PyKey.name (floatRepr : PyFloat → String) : PyKey → Except String Text
  | .str s => .ok s
  | .int n => .ok (Text.ofString (toString n))
  | .float x => .ok (Text.ofString (floatRepr x))
  | .bool b => .ok (Text.ofString (if b then "true" else "false"))
  | .none => .ok (Text.ofString "null")
  | .other => .error "keys must be str, int, float, bool or None"

def PyKey.isStr : PyKey → Bool
  | .str _ => true
  | _ => false

def PyKey.isNumber : PyKey → Bool
  | .int _ | .float _ | .bool _ => true
  | _ => false

/-- `sorted` compares the keys: strings with strings, numbers with numbers. -/
def sortable (keys : List PyKey) : Bool :=
  keys.length ≤ 1 || keys.all PyKey.isStr || keys.all PyKey.isNumber

section Dumps

variable (floatRepr : PyFloat → String)

mutual

/-- `json.dumps` with `sort_keys` and `_default_encoder`, which hands `bytes` back as they
are and so makes `json` find a cycle. -/
def jsonDumps : PyValue → Except String Json
  | .none => .ok .null
  | .bool b => .ok (.bool b)
  | .int n => .ok (.int n)
  | .float x => .ok (.float x)
  | .str s => .ok (.str s.utf16)
  | .list items => do return .arr (← dumpsItems items)
  | .dict entries => do
    if sortable (entries.map Prod.fst) then return .obj (← dumpsEntries entries)
    else .error "'<' not supported between instances of 'str' and 'int'"
  | .enum value => jsonDumps value
  | .object toDict => jsonDumps toDict
  | .set items => do return .arr (← dumpsItems items)
  | .bytes _ => .error "Circular reference detected"
  | .other type => .error s!"Cannot serialize object of type {type} to msgpack"

def dumpsItems : List PyValue → Except String (List Json)
  | [] => .ok []
  | item :: rest => do return (← jsonDumps item) :: (← dumpsItems rest)

def dumpsEntries : List (PyKey × PyValue) → Except String (List (List CodeUnit × Json))
  | [] => .ok []
  | (key, value) :: rest => do
    return ((← key.name floatRepr).utf16, ← jsonDumps value) :: (← dumpsEntries rest)

end

end Dumps

/-- The dictionary a list of pairs makes: a pair takes the place of an earlier one with its key. -/
def dictOf : List (PyKey × PyValue) → List (PyKey × PyValue)
  | [] => []
  | (key, value) :: rest =>
    if key ∈ rest.map Prod.fst then dictOf rest else (key, value) :: dictOf rest

mutual

def jsonLoads : Json → PyValue
  | .null => .none
  | .bool b => .bool b
  | .int n => .int n
  | .float x => .float x
  | .str units => .str (Text.scan units)
  | .arr items => .list (loadsItems items)
  | .obj entries => .dict (dictOf (loadsEntries entries))

def loadsItems : List Json → List PyValue
  | [] => []
  | item :: rest => jsonLoads item :: loadsItems rest

def loadsEntries : List (List CodeUnit × Json) → List (PyKey × PyValue)
  | [] => []
  | (units, value) :: rest => (.str (Text.scan units), jsonLoads value) :: loadsEntries rest

end

/-! ### `msgpack` -/

/-- The package, with `_default_encoder` as its default. -/
structure Msgpack where
  Bytes : Type
  packb : PyValue → Except String Bytes
  unpackb : Bytes → Except String PyValue

/-- A string with a UTF-8 encoding. -/
def PyKey.encodable : PyKey → Bool
  | .str s => s.isUnicode
  | _ => false

namespace PyValue

mutual

/-- What `json_loads` returns: only values JSON has, and only strings as keys. -/
def isJson : PyValue → Bool
  | .none | .bool _ | .int _ | .float _ | .str _ => true
  | .list items => isJsonItems items
  | .dict entries => isJsonEntries entries
  | _ => false

def isJsonItems : List PyValue → Bool
  | [] => true
  | item :: rest => isJson item && isJsonItems rest

def isJsonEntries : List (PyKey × PyValue) → Bool
  | [] => true
  | (key, value) :: rest => key.isStr && isJson value && isJsonEntries rest

end

/-- The integers MessagePack has a format for. -/
def fitsMsgpack (n : ℤ) : Bool := -2 ^ 63 ≤ n && n < 2 ^ 64

mutual

/-- Integers in the range of MessagePack and strings with a UTF-8 encoding, all through. -/
def encodable : PyValue → Bool
  | .none | .bool _ | .float _ => true
  | .int n => fitsMsgpack n
  | .str s => s.isUnicode
  | .list items => encodableItems items
  | .dict entries => encodableEntries entries
  | _ => false

def encodableItems : List PyValue → Bool
  | [] => true
  | item :: rest => encodable item && encodableItems rest

def encodableEntries : List (PyKey × PyValue) → Bool
  | [] => true
  | (key, value) :: rest => key.encodable && encodable value && encodableEntries rest

end

end PyValue

namespace Msgpack

def packMsgpack (m : Msgpack) (data : PyValue) : Except String m.Bytes := m.packb data

def unpackMsgpack (m : Msgpack) (data : m.Bytes) : Except String PyValue := m.unpackb data

/-- `packb` fails only on integers out of range and on strings without a UTF-8 encoding. -/
def Packs (m : Msgpack) : Prop :=
  ∀ v, v.isJson = true → ((∃ bytes, m.packb v = .ok bytes) ↔ v.encodable = true)

end Msgpack
end Dhava
