import ShaderFold.Scalar.Basic

namespace ShaderFold

structure Member (τ : Type) where
  name : String
  ty : τ

inductive Ty where
  | scalar (kind : Kind)
  | vector (kind : Kind) (size : Nat)
  | matrix (kind : Kind) (cols rows : Nat)
  | array (element : Ty) (len : Nat)
  | struct (members : List (Member Ty))

namespace Ty

/-- An array has the kind of its elements, and a structure the kind of structures. -/
def kind : Ty → Kind
  | scalar k | vector k _ | matrix k _ _ => k
  | array element _ => element.kind
  | struct _ => .struct

mutual

def size : Ty → Nat
  | scalar _ => 1
  | vector _ n => n
  | matrix _ cols rows => cols * rows
  | array element len => len * element.size
  | struct members => sizeMembers members

def sizeMembers : List (Member Ty) → Nat
  | [] => 0
  | m :: ms => m.ty.size + sizeMembers ms

end

mutual

/-- The kinds of the leaves in order. The layout of the elements of an array is only built if the
array has leaves, so the work is bounded by their number. -/
def leafKinds : Ty → List Kind
  | scalar k => [k]
  | vector k n => List.replicate n k
  | matrix k cols rows => List.replicate (cols * rows) k
  | array element len =>
    if len * element.size = 0 then [] else (List.replicate len element.leafKinds).flatten
  | struct members => leafKindsMembers members

def leafKindsMembers : List (Member Ty) → List Kind
  | [] => []
  | m :: ms => m.ty.leafKinds ++ leafKindsMembers ms

end

def members : Ty → List (Member Ty)
  | struct ms => ms
  | _ => []

/-- Members with the index of their first leaf, counted from `start`. -/
def offsetsFrom (start : Nat) : List (Member Ty) → List (Nat × Member Ty)
  | [] => []
  | m :: ms => (start, m) :: offsetsFrom (start + m.ty.size) ms

def memberOffsets (t : Ty) : List (Nat × Member Ty) :=
  offsetsFrom 0 t.members

def isScalar (t : Ty) : Bool :=
  t matches scalar _

def isVector (t : Ty) : Bool :=
  t matches vector ..

def isMatrix (t : Ty) : Bool :=
  t matches matrix ..

def isArray (t : Ty) : Bool :=
  t matches array ..

def vectorSize : Ty → Nat
  | scalar _ => 1
  | vector _ n => n
  | _ => 0

def matrixCols : Ty → Nat
  | matrix _ cols _ => cols
  | _ => 0

def matrixRows : Ty → Nat
  | matrix _ _ rows => rows
  | _ => 0

def arrayLen? : Ty → Option Nat
  | array _ len => some len
  | _ => none

def element? : Ty → Option Ty
  | array element _ => some element
  | _ => none

def letter : Kind → String
  | .bool => "b"
  | .int => "i"
  | .uint => "u"
  | .double => "d"
  | .float | .struct => ""

mutual

def text : Ty → String
  | scalar k => k.name
  | vector k n => s!"{letter k}vec{n}"
  | matrix k cols rows =>
    if cols = rows then s!"{letter k}mat{cols}" else s!"{letter k}mat{cols}x{rows}"
  | array element len => s!"{element.text}[{len}]"
  | struct members => "struct \x7b" ++ ",".intercalate (textMembers members) ++ " \x7d"

def textMembers : List (Member Ty) → List String
  | [] => []
  | m :: ms => s!" {m.name}: {m.ty.text}" :: textMembers ms

end

mutual

def beq : Ty → Ty → Bool
  | scalar k, scalar l => k = l
  | vector k m, vector l n => k = l && m = n
  | matrix k c r, matrix l d s => k = l && c = d && r = s
  | array s m, array t n => s.beq t && m = n
  | struct ms, struct ns => beqMembers ms ns
  | _, _ => false

def beqMembers : List (Member Ty) → List (Member Ty) → Bool
  | [], [] => true
  | m :: ms, n :: ns => m.name = n.name && m.ty.beq n.ty && beqMembers ms ns
  | _, _ => false

end

mutual

theorem beq_iff : (s t : Ty) → (s.beq t = true ↔ s = t)
  | scalar _, t => by cases t <;> simp [beq]
  | vector .., t => by cases t <;> simp [beq]
  | matrix .., t => by cases t <;> simp [beq, and_assoc]
  | array s _, t => by cases t <;> simp [beq, beq_iff s]
  | struct ms, t => by cases t <;> simp [beq, beqMembers_iff ms]

theorem beqMembers_iff : (ms ns : List (Member Ty)) → (beqMembers ms ns = true ↔ ms = ns)
  | [], ns => by cases ns <;> simp [beqMembers]
  | ⟨name, ty⟩ :: ms, ns => by
    cases ns with
    | nil => simp [beqMembers]
    | cons n ns => cases n; simp [beqMembers, beq_iff ty, beqMembers_iff ms]

end

instance : DecidableEq Ty := fun s t => decidable_of_iff _ (beq_iff s t)

mutual

@[simp] theorem length_leafKinds : (t : Ty) → t.leafKinds.length = t.size
  | scalar _ => by simp [leafKinds, size]
  | vector .. => by simp [leafKinds, size]
  | matrix .. => by simp [leafKinds, size]
  | array element len => by
    by_cases h : len * element.size = 0 <;> simp [leafKinds, size, h, length_leafKinds element]
  | struct members => by simp [leafKinds, size, length_leafKindsMembers members]

@[simp] theorem length_leafKindsMembers : (ms : List (Member Ty)) →
    (leafKindsMembers ms).length = sizeMembers ms
  | [] => by simp [leafKindsMembers, sizeMembers]
  | m :: ms => by
    simp [leafKindsMembers, sizeMembers, length_leafKinds m.ty, length_leafKindsMembers ms]

end

theorem leafKinds_array (element : Ty) (len : Nat) :
    (array element len).leafKinds = (List.replicate len element.leafKinds).flatten := by
  rw [leafKinds]
  split
  · rename_i h
    exact (List.eq_nil_of_length_eq_zero (by simp [h])).symm
  · rfl

end Ty

end ShaderFold
