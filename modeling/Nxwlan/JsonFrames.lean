import Nxwlan.PyText
import Mathlib.Data.Rat.Defs

/-!
JSON values as the agent's sockets hand them over, the dynamic operations that
Python 2 performs on them, and the frames of the ResFi protocol. A frame is a
dictionary received from the network: every field may be missing or hold a
value of the wrong type, and reading it then raises. Keys that no function of
the agent reads are left out.
-/
namespace Nxwlan.JsonFrames

inductive PyError where
  | keyError | typeError | valueError | indexError | attributeError
  | unicodeError | binasciiError | zmqError | callbackError | nameError
  deriving DecidableEq, Repr

/-- A decoded JSON value; non-integral numbers are finite floats. -/
inductive Json where
  | null
  | bool (b : Bool)
  | int (i : ℤ)
  | float (q : ℚ)
  | str (s : String)
  | arr (items : List Json)
  | obj (fields : List (String × Json))
  deriving Inhabited

/-- What a JSON value is as a dictionary key: `True`, `1` and `1.0` are one key. -/
inductive DictKey where
  | null
  | num (q : ℚ)
  | str (s : String)
  deriving DecidableEq

namespace Json

/-- `value == text` for an ASCII `text`. -/
def isStr (text : String) : Json → Bool
  | str s => s == text
  | _ => false

@[simp] theorem isStr_iff (text : String) (j : Json) : j.isStr text = true ↔ j = .str text := by
  cases j <;> simp [isStr]

/-- `int(value)`. -/
def toInt : Json → Except PyError ℤ
  | bool b => .ok (if b then 1 else 0)
  | int i => .ok i
  | float q => .ok (q.num.tdiv q.den)
  | str s => match PyText.readInt s.toList with
    | some i => .ok i
    | none => .error .valueError
  | null => .error .typeError
  | arr _ => .error .typeError
  | obj _ => .error .typeError

/-- Hashing a value: lists and dictionaries are not hashable. -/
def dictKey : Json → Except PyError DictKey
  | null => .ok .null
  | bool b => .ok (.num (if b then 1 else 0))
  | int i => .ok (.num i)
  | float q => .ok (.num q)
  | str s => .ok (.str s)
  | arr _ => .error .typeError
  | obj _ => .error .typeError

/-- `str(value)` raises on text outside ASCII; every other value has a text. -/
def printable : Json → Except PyError Unit
  | str s => if s.toList.all (fun c => c.toNat < 128) then .ok () else .error .unicodeError
  | _ => .ok ()

def num? : Json → Option ℚ
  | bool b => some (if b then 1 else 0)
  | int i => some i
  | float q => some q
  | _ => none

/-- `a >= b`. Numbers compare by value; other pairs compare in an order that the
language leaves open, given here by `mixed`. -/
def ge (mixed : Json → Json → Bool) : Json → Json → Bool
  | int a, int b => decide (b ≤ a)
  | a, b => match a.num?, b.num? with
    | some x, some y => decide (y ≤ x)
    | _, _ => mixed a b

end Json

/-- The nine fields of a frame, each `none` where the key is missing. The key
of `receiver` is "rec". -/
structure Frame where
  host : Option Json
  lasthop : Option Json
  id : Option Json
  receiver : Option Json
  ttl : Option Json
  msg_type : Option Json
  sub_type : Option Json
  msg : Option Json
  sig : Option Json

/-- `json_data[key]`. -/
def field (v : Option Json) : Except PyError Json :=
  match v with
  | some j => .ok j
  | none => .error .keyError

theorem field_ok {v : Option Json} {j : Json} : field v = .ok j ↔ v = some j := by
  cases v <;> simp [field]

/-- The address of a frame that is meant for every agent. -/
def broadcast : String := "255.255.255.255"

end Nxwlan.JsonFrames
