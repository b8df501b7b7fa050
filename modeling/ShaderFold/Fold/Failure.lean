import ShaderFold.Constant
import ShaderFold.Operator

namespace ShaderFold

/-- What is wrong with operands that no well-typed program has. -/
inductive Malformation where
  | sizes (left right : Nat)
  | product (left right : Ty)
  | notScalars (left right : Ty)
  | incomparable (left right : Ty)
  | resultSize (ty : Ty) (size : Nat)
  | operandCount (expected found : Nat)
  | operandTypes (types : List Ty)
  | noArguments
  | tooFewValues (target : Ty) (needed supplied : Nat)
  | layout (mismatch : LayoutMismatch)
deriving DecidableEq

def Malformation.message : Malformation → String
  | sizes left right => s!"object sizes {left} and {right} cannot be broadcast"
  | product left right => s!"cannot multiply `{left.text}` by `{right.text}`"
  | notScalars left right =>
    s!"relational operands must be scalars, got `{left.text}` and `{right.text}`"
  | incomparable left right => s!"cannot compare `{left.text}` with `{right.text}`"
  | resultSize ty size => s!"result type `{ty.text}` does not hold {size} values"
  | operandCount expected found => s!"expected {expected} operands, found {found}"
  | operandTypes types =>
    "operand types (" ++ ", ".intercalate (types.map Ty.text) ++ ") do not agree"
  | noArguments => "constructor has no arguments"
  | tooFewValues target needed supplied =>
    s!"`{target.text}` needs {needed} values, arguments supply {supplied}"
  | layout mismatch => mismatch.message

inductive Failure where
  | unsupported (op : Operator) (kind : Kind)
  | notFoldable (op : Operator)
  | malformed (op : Operator) (cause : Malformation)
  /-- A leaf was asked for that an operand does not have. -/
  | outOfRange (index size : Nat)
deriving DecidableEq

namespace Failure

def code : Failure → Code
  | unsupported .. => .noRule
  | notFoldable _ => .notImplemented
  | malformed .. | outOfRange .. => .malformedOperands

def message : Failure → String
  | unsupported op kind => s!"no folding rule for {op.text} on {kind.name} operands"
  | notFoldable op => s!"folding {op.text} is not implemented"
  | malformed op cause => s!"malformed operands for {op.text}: {cause.message}"
  | outOfRange index size => s!"no leaf {index} among {size}"

def diagnostic (failure : Failure) (severity : Severity) (span : Span) : Diagnostic where
  code := failure.code
  severity := severity
  message := s!"constant folding failed: {failure.message}"
  labels := [⟨span, "while folding this expression", true⟩]
  notes := []

end Failure

abbrev Folded := Except Failure Constant

def orFail {α : Type} (found : Option α) (failure : Failure) : Except Failure α :=
  match found with
  | some a => .ok a
  | none => .error failure

theorem orFail_eq_ok_iff {α : Type} {found : Option α} {failure : Failure} {a : α} :
    orFail found failure = .ok a ↔ found = some a := by
  cases found <;> simp [orFail]

theorem orFail_eq_error_iff {α : Type} {found : Option α} {failure failure' : Failure} :
    orFail found failure = .error failure' ↔ found = none ∧ failure = failure' := by
  cases found <;> simp [orFail]

namespace Constant

def leaf (c : Constant) (index : Nat) : Except Failure Scalar :=
  orFail c.values[index]? (.outOfRange index c.size)

def broadcast (c : Constant) (index : Nat) : Except Failure Scalar :=
  orFail (c.broadcast? index) (.outOfRange index c.size)

def result (op : Operator) (ty : Ty) (values : List Scalar) (span : Span) : Folded :=
  match ofValues ty values span with
  | .ok c => .ok c
  | .error mismatch => .error (.malformed op (.layout mismatch))

theorem leaf_eq_ok (c : Constant) {index : Nat} (h : index < c.size) :
    c.leaf index = .ok (c.values.get ⟨index, h⟩) := by
  have he : c.values[index]? = some (c.values.get ⟨index, h⟩) := List.getElem?_eq_getElem h
  rw [leaf, he]
  rfl

theorem broadcast_eq_ok_iff {c : Constant} {index : Nat} {v : Scalar} :
    c.broadcast index = .ok v ↔ c.broadcast? index = some v :=
  orFail_eq_ok_iff

end Constant

end ShaderFold
