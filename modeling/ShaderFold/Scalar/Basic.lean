import ShaderFold.Numeric.Arithmetic
import ShaderFold.Numeric.Decimal

namespace ShaderFold

/-- What a leaf of a type holds. Structures have a kind of their own, which no value has. -/
inductive Kind where
  | bool
  | int
  | uint
  | float
  | double
  | struct
deriving DecidableEq

namespace Kind

def name : Kind → String
  | bool => "bool"
  | int => "int"
  | uint => "uint"
  | float => "float"
  | double => "double"
  | struct => "struct"

def isFloat : Kind → Bool
  | float | double => true
  | _ => false

def isInteger : Kind → Bool
  | int | uint => true
  | _ => false

def isNumeric (k : Kind) : Bool :=
  k.isFloat || k.isInteger

end Kind

inductive Scalar where
  | bool (b : Bool)
  | int (v : Int32)
  | uint (v : UInt32)
  | float (x : Single)
  | double (x : Double)
deriving DecidableEq

namespace Scalar

def kind : Scalar → Kind
  | bool _ => .bool
  | int _ => .int
  | uint _ => .uint
  | float _ => .float
  | double _ => .double

def toDouble : Scalar → Double
  | bool b => .ofInt b.toNat
  | int v => .ofInt v.toInt
  | uint v => .ofInt v.toNat
  | float x => x.convert
  | double x => x

/-- Store a double as a value of the given kind: integers are truncated and brought into their
range, and every number but the zeros is true. -/
def ofDouble? (k : Kind) (x : Double) : Option Scalar :=
  match k with
  | .bool => some (bool (!x.equal 0))
  | .int => some (int x.toInt32)
  | .uint => some (uint x.toUInt32)
  | .float => some (float x.convert)
  | .double => some (double x)
  | .struct => none

def zero? (k : Kind) : Option Scalar :=
  ofDouble? k 0

def isZero : Scalar → Bool
  | bool b => !b
  | int v => v = 0
  | uint v => v = 0
  | float x => x.equal 0
  | double x => x.equal 0

/-- Convert to another kind. Integers of both signs keep their bits; all other conversions go
through a double. -/
def convert? (s : Scalar) (k : Kind) : Option Scalar :=
  if s.kind = k then some s
  else
    match s, k with
    | _, .struct => none
    | int v, .uint => some (uint v.toUInt32)
    | uint v, .int => some (int v.toInt32)
    | s, .bool => some (bool (!s.isZero))
    | s, k => ofDouble? k s.toDouble

/-- Equality of values: values of different kinds differ, and floating-point values are compared
as numbers. -/
def equal : Scalar → Scalar → Bool
  | bool a, bool b => a = b
  | int a, int b => a = b
  | uint a, uint b => a = b
  | float a, float b => a.equal b
  | double a, double b => a.equal b
  | _, _ => false

def text : Scalar → String
  | bool b => if b then "true" else "false"
  | int v => toString v.toInt
  | uint v => toString v.toNat ++ "u"
  | float x => x.text
  | double x => x.text ++ "lf"

theorem kind_of_ofDouble?_eq_some {k : Kind} {x : Double} {s : Scalar}
    (h : ofDouble? k x = some s) :
    s.kind = k := by
  cases k <;> simp only [ofDouble?, Option.some.injEq, reduceCtorEq] at h <;> subst h <;> rfl

theorem equal_comm (a b : Scalar) : a.equal b = b.equal a := by
  cases a <;> cases b <;> simp only [equal, BinaryFloat.equal_comm, eq_comm]

end Scalar

def equalLeaves : (left right : List Scalar) → Bool
  | [], [] => true
  | a :: left, b :: right => a.equal b && equalLeaves left right
  | _, _ => false

end ShaderFold
