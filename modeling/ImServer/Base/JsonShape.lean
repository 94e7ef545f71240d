import ImServer.Base.JsonValue

/-!
# The shape of a request

The functions that are called on the members of a value throw where there are no members, or where a
member is not of the kind that is asked for. A handler that reads some members returns if each of
them is of its kind.
-/

namespace ImServer

namespace Json

/-- What a member is read as. -/
inductive Kind where
  | text
  | int
  | uint
  | uint64
  deriving DecidableEq, Repr

/-- The values of a kind: those for which the conversion of the library does not throw. -/
def Kind.Fits : Kind → Node → Prop
  | .text, node => node.Scalar
  | .int, node => node.Within (-2 ^ 31) (2 ^ 31 - 1) (2 ^ 31 - 1)
  | .uint, node => node.Within 0 (2 ^ 32 - 1) (2 ^ 32 - 1)
  | .uint64, node => node.Within 0 (2 ^ 64 - 1) (2 ^ 64)

/-- What is read first is of its kind, and what is read next. -/
theorem isSome_bind_iff {α β : Type} {x : Option α} {f : α → Option β} {q : Prop}
    (h : ∀ a, (f a).isSome ↔ q) : (x.bind f).isSome ↔ x.isSome ∧ q := by
  cases x with
  | none => simp
  | some a => simp [h a]

namespace Node

variable (node : Node)

/-- `value[key].asString()`. -/
def textField (key : String) : Option (List UInt8) := (node.get key).bind asString

/-- `value[key].asInt()`. -/
def intField (key : String) : Option ℤ := (node.get key).bind asInt

/-- There are members, and each that is read is of its kind. -/
def Fits (fields : List (String × Kind)) : Prop :=
  node.Named ∧ ∀ field ∈ fields, field.2.Fits (node.member field.1)

variable {node} {α β : Type} {key : String} {fields : List (String × Kind)}

theorem fits_nil : node.Fits [] ↔ node.Named :=
  and_iff_left fun _ hmem => absurd hmem List.not_mem_nil

theorem fits_cons {kind : Kind} :
    node.Fits ((key, kind) :: fields) ↔
      (node.Named ∧ kind.Fits (node.member key)) ∧ node.Fits fields := by
  rw [Fits, Fits, List.forall_mem_cons]
  tauto

/-- A function on a member throws if there are no members, or if it does so on the value. -/
theorem isSome_get_bind_iff (f : Node → Option α) :
    ((node.get key).bind f).isSome ↔ node.Named ∧ (f (node.member key)).isSome := by
  by_cases h : node.Named
  · rw [get_eq_some h, Option.bind_some]
    exact (and_iff_right h).symm
  · rw [get_eq_none h, Option.bind_none]
    exact iff_of_false Bool.false_ne_true fun hand => h hand.1

theorem isSome_textField_iff :
    (node.textField key).isSome ↔ node.Named ∧ Kind.text.Fits (node.member key) := by
  rw [textField, isSome_get_bind_iff, isSome_asString_iff, Kind.Fits]

theorem isSome_intField_iff :
    (node.intField key).isSome ↔ node.Named ∧ Kind.int.Fits (node.member key) := by
  rw [intField, isSome_get_bind_iff, asInt, isSome_asInteger_iff, Kind.Fits]

end Node

theorem isSome_textField_bind {node : Node} {β : Type} {key : String}
    {fields : List (String × Kind)} {f : List UInt8 → Option β}
    (h : ∀ s, (f s).isSome ↔ node.Fits fields) :
    (node.textField key >>= f).isSome ↔ node.Fits ((key, .text) :: fields) := by
  rw [Node.fits_cons, ← Node.isSome_textField_iff]
  exact isSome_bind_iff h

theorem isSome_intField_bind {node : Node} {β : Type} {key : String}
    {fields : List (String × Kind)} {f : ℤ → Option β} (h : ∀ n, (f n).isSome ↔ node.Fits fields) :
    (node.intField key >>= f).isSome ↔ node.Fits ((key, .int) :: fields) := by
  rw [Node.fits_cons, ← Node.isSome_intField_iff]
  exact isSome_bind_iff h

theorem isSome_some_iff {node : Node} {β : Type} (hnamed : node.Named) (b : β) :
    (some b).isSome ↔ node.Fits [] :=
  iff_of_true rfl (Node.fits_nil.mpr hnamed)

end Json

end ImServer
