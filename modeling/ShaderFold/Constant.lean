import ShaderFold.Diagnostic.Basic
import ShaderFold.Ty

namespace ShaderFold

inductive LayoutMismatch where
  | length (ty : Ty) (expected found : Nat)
  | kind (index : Nat) (expected found : Kind)
deriving DecidableEq

namespace LayoutMismatch

def message : LayoutMismatch → String
  | length ty expected found => s!"`{ty.text}` holds {expected} scalars, got {found}"
  | kind index expected found => s!"leaf {index} should be {expected.name}, got {found.name}"

def firstKind? (index : Nat) :
    (expected : List Kind) → (found : List Scalar) → Option LayoutMismatch
  | k :: expected, v :: found =>
    if v.kind = k then firstKind? (index + 1) expected found else some (.kind index k v.kind)
  | _, _ => none

/-- What keeps values from making up a constant of a type; their number is looked at first. -/
def find? (ty : Ty) (values : List Scalar) : Option LayoutMismatch :=
  if values.length = ty.size then firstKind? 0 ty.leafKinds values
  else some (.length ty ty.size values.length)

theorem firstKind?_eq_none_iff (index : Nat) {expected : List Kind} {found : List Scalar}
    (h : found.length = expected.length) :
    firstKind? index expected found = none ↔ found.map Scalar.kind = expected := by
  induction expected generalizing index found with
  | nil => simpa [firstKind?] using h
  | cons k expected ih =>
    cases found with
    | nil => simp at h
    | cons v found =>
      simp only [List.length_cons, Nat.add_right_cancel_iff] at h
      by_cases hk : v.kind = k <;> simp [firstKind?, hk, ih (index + 1) h]

theorem find?_eq_none_iff (ty : Ty) (values : List Scalar) :
    find? ty values = none ↔ values.map Scalar.kind = ty.leafKinds := by
  by_cases h : values.length = ty.size
  · rw [find?, if_pos h, firstKind?_eq_none_iff 0 (by rw [h, Ty.length_leafKinds])]
  · simp only [find?, if_neg h, reduceCtorEq, false_iff]
    intro he
    exact h (by rw [← Ty.length_leafKinds, ← he, List.length_map])

end LayoutMismatch

/-- A value of every leaf of a type, and the place it was written at. -/
structure Constant where
  ty : Ty
  values : List Scalar
  span : Span
  fits : values.map Scalar.kind = ty.leafKinds
deriving DecidableEq

namespace Constant

def ofValues (ty : Ty) (values : List Scalar) (span : Span) : Except LayoutMismatch Constant :=
  match h : LayoutMismatch.find? ty values with
  | none => .ok ⟨ty, values, span, (LayoutMismatch.find?_eq_none_iff ty values).1 h⟩
  | some mismatch => .error mismatch

def scalar (v : Scalar) (span : Span) : Constant :=
  ⟨.scalar v.kind, [v], span, rfl⟩

def size (c : Constant) : Nat :=
  c.values.length

/-- The value that stands at an index when the constant is matched with a larger one: a single
value stands at every index. -/
def broadcast? (c : Constant) (index : Nat) : Option Scalar :=
  if c.size = 1 then c.values[0]? else c.values[index]?

/-- Equality of types, values and places; floating-point values are compared as numbers. -/
def equal (c d : Constant) : Bool :=
  c.ty = d.ty && equalLeaves c.values d.values && c.span = d.span

def text (c : Constant) : String :=
  c.ty.text ++ "(" ++ ", ".intercalate (c.values.map Scalar.text) ++ ")"

@[simp] theorem size_ty (c : Constant) : c.ty.size = c.size := by
  rw [size, ← Ty.length_leafKinds, ← c.fits, List.length_map]

theorem ofValues_eq_ok_iff {ty : Ty} {values : List Scalar} {span : Span} {c : Constant} :
    ofValues ty values span = .ok c ↔ c.ty = ty ∧ c.values = values ∧ c.span = span := by
  unfold ofValues
  split
  · obtain ⟨ty', values', span', fits⟩ := c
    simp [eq_comm]
  · rename_i mismatch h
    simp only [reduceCtorEq, false_iff, not_and]
    rintro rfl rfl
    simp [(LayoutMismatch.find?_eq_none_iff c.ty c.values).2 c.fits] at h

end Constant

end ShaderFold
