import Vigil.Lib.Rust

/-!
# JSON values and the decoders a serde derive produces

`Json` is a parsed JSON text. Numbers keep the three forms `serde_json` parses
them to, and objects keep their entries in text order, repeated keys included,
because a derived struct decoder rejects a repeated field. A decoder is a
function `Json → Option α`; `none` is a decoding error.
-/

namespace Vigil.Lib

/-- `serde_json`'s number: a non-negative integer that fits a `u64`, a negative one that fits an
`i64`, or a (finite) double. -/
inductive JsonNumber where
  | posInt (n : UInt64)
  | negInt (n : Int64)
  | float (q : ℚ)

inductive Json where
  | null
  | bool (b : Bool)
  | num (n : JsonNumber)
  | str (s : String)
  | arr (elems : List Json)
  | obj (entries : List (String × Json))

/-- The value of a number read as an `f64`. -/
def JsonNumber.asF64 : JsonNumber → ℚ
  | posInt n => natToF64 n.toNat
  | negInt n => -natToF64 n.toInt.natAbs
  | float q => q

namespace Json

def asBool : Json → Option Bool
  | .bool b => some b
  | _ => none

def asStr : Json → Option String
  | .str s => some s
  | _ => none

/-- An unsigned integer of at most `bits` bits; a double is rejected even when it is integral. -/
def asUint (bits : Nat) : Json → Option Nat
  | .num (.posInt n) => if n.toNat < 2 ^ bits then some n.toNat else none
  | _ => none

def asI64 : Json → Option Int
  | .num (.posInt n) => if n.toNat < 2 ^ 63 then some n.toNat else none
  | .num (.negInt n) => some n.toInt
  | _ => none

def asF64 : Json → Option ℚ
  | .num n => some n.asF64
  | _ => none

/-- `Option<T>`: `null` is `None`. -/
def asOption {α : Type} (d : Json → Option α) : Json → Option (Option α)
  | .null => some none
  | j => (d j).map some

def asList {α : Type} (d : Json → Option α) : Json → Option (List α)
  | .arr js => js.mapM d
  | _ => none

/-- The one entry of `kvs` under `name`, if any; a second one is a decoding error. -/
def lookup (kvs : List (String × Json)) (name : String) : Option (Option Json) :=
  match kvs.filter (·.1 == name) with
  | [] => some none
  | [kv] => some (some kv.2)
  | _ => none

/-- A struct field: `dflt` is what a missing field becomes, `none` when that is an error. -/
def field {α : Type} (kvs : List (String × Json)) (name : String) (d : Json → Option α)
    (dflt : Option α) : Option α :=
  (lookup kvs name).bind fun
    | none => dflt
    | some j => d j

/-- A struct field of a struct written as an array: `dflt` when the array ends before it. -/
def elem {α : Type} (js : List Json) (i : Nat) (d : Json → Option α) (dflt : Option α) :
    Option α :=
  match js[i]? with
  | none => dflt
  | some j => d j

end Json

end Vigil.Lib
