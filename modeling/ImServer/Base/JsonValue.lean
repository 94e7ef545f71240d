import ImServer.Lib.CText
import Mathlib.Data.Rat.Floor

/-!
# Values that were read from JSON

`Json::Value` (base/jsoncpp/json_value.cpp) as a reader leaves it, with the functions that a handler
calls on it. A function is `none` where it throws. It depends on the kind of the value whether one
throws, and for numbers on the range, so for each function it is said when it does not.
-/

namespace ImServer

namespace Json

/-- A double that was read, by its exact value. -/
inductive Real64 where
  | finite (q : ℚ)
  | infinite (negative : Bool)

def Real64.inRange (low high : ℚ) : Real64 → Bool
  | .finite q => low ≤ q && q ≤ high
  | .infinite _ => false

/-- The integer that a double in range is converted to. -/
def Real64.truncated : Real64 → ℤ
  | .finite q => if 0 ≤ q then ⌊q⌋ else ⌈q⌉
  | .infinite _ => 0

/-- `Json::Value`. A double comes with the text that it is printed as. -/
inductive Node where
  | null
  | bool (b : Bool)
  | int (n : ℤ)
  | uint (n : ℕ)
  | real (value : Real64) (text : List UInt8)
  | string (s : List UInt8)
  | array (items : List Node)
  | object (members : List (List UInt8 × Node))

namespace Node

variable (node : Node)

/-- `value[key]`. A missing member is null, and so is every member of null. -/
def get (key : String) : Option Node :=
  match node with
  | .null => some .null
  | .object members => some ((members.lookup (CText.bytes key)).getD .null)
  | _ => none

/-- `asString`. A text ends at its first NUL. -/
def asString : Option (List UInt8) :=
  match node with
  | .null => some []
  | .bool b => some (CText.bytes (if b then "true" else "false"))
  | .int n => some (CText.bytes (toString n))
  | .uint n => some (CText.bytes (toString n))
  | .real _ text => some text
  | .string s => some (CText.cStr s)
  | .array _ | .object _ => none

/-- A conversion to integers from `low` to `high`, as whose limits doubles are compared with
`realLow` and `realHigh`. -/
def asInteger (low high : ℤ) (realHigh : ℚ) : Option ℤ :=
  match node with
  | .null => some 0
  | .bool b => some (if b then 1 else 0)
  | .int n => if low ≤ n ∧ n ≤ high then some n else none
  | .uint n => if (n : ℤ) ≤ high then some n else none
  | .real value _ => if value.inRange low realHigh then some value.truncated else none
  | .string _ | .array _ | .object _ => none

def asInt : Option ℤ := node.asInteger (-2 ^ 31) (2 ^ 31 - 1) (2 ^ 31 - 1)

def asUInt : Option ℤ := node.asInteger 0 (2 ^ 32 - 1) (2 ^ 32 - 1)

/-- The largest integer is not a double, and the next one is let pass. -/
def asUInt64 : Option ℤ := node.asInteger 0 (2 ^ 64 - 1) (2 ^ 64)

def isArray : Bool :=
  match node with
  | .array _ => true
  | _ => false

def isObject : Bool :=
  match node with
  | .object _ => true
  | _ => false

/-- A value with members. -/
def Named : Prop :=
  match node with
  | .null | .object _ => True
  | _ => False

/-- A value that is not made of others. -/
def Scalar : Prop :=
  match node with
  | .array _ | .object _ => False
  | _ => True

/-- A value that stands for an integer in a range. -/
def Within (low high : ℤ) (realHigh : ℚ) : Prop :=
  match node with
  | .null | .bool _ => True
  | .int n => low ≤ n ∧ n ≤ high
  | .uint n => (n : ℤ) ≤ high
  | .real value _ => value.inRange low realHigh = true
  | .string _ | .array _ | .object _ => False

/-- The member of that name, if there are members. -/
def member (key : String) : Node := (node.get key).getD .null

variable {node}

theorem isSome_get_iff {key : String} : (node.get key).isSome ↔ node.Named := by
  cases node <;> simp [get, Named]

theorem get_eq_some (h : node.Named) (key : String) : node.get key = some (node.member key) := by
  obtain ⟨value, hvalue⟩ := Option.isSome_iff_exists.mp (isSome_get_iff.mpr h)
  rw [member, hvalue, Option.getD_some]

theorem get_eq_none (h : ¬node.Named) (key : String) : node.get key = none := by
  rwa [← Option.not_isSome_iff_eq_none, isSome_get_iff]

theorem isSome_asString_iff : node.asString.isSome ↔ node.Scalar := by
  cases node <;> simp [asString, Scalar]

theorem isSome_asInteger_iff {low high : ℤ} {realHigh : ℚ} :
    (node.asInteger low high realHigh).isSome ↔ node.Within low high realHigh := by
  cases node <;> simp only [asInteger, Within] <;> try split
  all_goals simp_all

end Node

end Json

end ImServer
