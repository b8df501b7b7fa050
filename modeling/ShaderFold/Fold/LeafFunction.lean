import ShaderFold.Numeric.Elementary
import ShaderFold.Operator
import ShaderFold.Scalar.Operations

namespace ShaderFold

namespace Double

/-- The double nearest to half a turn. -/
def pi : Double := .ofBits 0x400921FB54442D18#64

/-- The double nearest to the natural logarithm of two. -/
def ln2 : Double := .ofBits 0x3FE62E42FEFA39EF#64

/-- The double nearest to the binary logarithm of the base of natural logarithms. -/
def log2e : Double := .ofBits 0x3FF71547652B82FE#64

def half : Double := 1 / 2

/-- Minus one, zero or one. What is not a number counts as positive. -/
def sign (x : Double) : Double :=
  if x.equal 0 then 0 else if x.less 0 then -1 else 1

def trunc (x : Double) : Double :=
  if BinaryFloat.less 0 x then x.floor else x.ceil

def round (x : Double) : Double :=
  (x + half).floor

def roundEven (x : Double) : Double :=
  if (x.floor / 2).equal (x.floor / 2).floor then (x - half).ceil else (x + half).floor

end Double

namespace UnaryOp

def onDouble? : UnaryOp → Option (Double → Double)
  | radians => some fun x => x * Double.pi / 180
  | degrees => some fun x => x * 180 / Double.pi
  | sin => some BinaryFloat.sin
  | cos => some BinaryFloat.cos
  | tan => some BinaryFloat.tan
  | asin => some BinaryFloat.arcsin
  | acos => some BinaryFloat.arccos
  | atan => some BinaryFloat.arctan
  | exp => some BinaryFloat.exp
  | log => some BinaryFloat.log
  | exp2 => some fun x => BinaryFloat.exp (x * Double.ln2)
  | log2 => some fun x => Double.log2e * BinaryFloat.log x
  | sqrt => some BinaryFloat.sqrt
  | inverseSqrt => some fun x => 1 / BinaryFloat.sqrt x
  | floor => some BinaryFloat.floor
  | ceil => some BinaryFloat.ceil
  | trunc => some Double.trunc
  | round => some Double.round
  | roundEven => some Double.roundEven
  | fract => some fun x => x - BinaryFloat.floor x
  | _ => none

def absolute? : Scalar → Option Scalar
  | .bool _ => none
  | .int v => some (.int (if v < 0 then -v else v))
  | .uint v => some (.uint v)
  | .float x => some (.float x.abs)
  | .double x => some (.double x.abs)

def sign? (resultKind : Kind) : Scalar → Option Scalar
  | .int v => some (.int (if v = 0 then 0 else if v < 0 then -1 else 1))
  | .float x => Scalar.ofDouble? resultKind (Double.sign x.convert)
  | .double x => Scalar.ofDouble? resultKind (Double.sign x)
  | _ => none

/-- What an operator does with a leaf, when the result has the given kind. A constant does not
vary over the screen, so its derivatives are zero. -/
def onLeaf? (op : UnaryOp) (resultKind : Kind) (v : Scalar) : Option Scalar :=
  match op with
  | negate => v.neg?
  | logicalNot | vectorLogicalNot => v.logicalNot?
  | bitNot => v.bitNot?
  | abs => absolute? v
  | sign => sign? resultKind v
  | derivativeX | derivativeY | derivativeWidth => Scalar.zero? resultKind
  | _ =>
    match op.onDouble? with
    | some function =>
      if v.kind.isFloat then Scalar.ofDouble? resultKind (function v.toDouble) else none
    | none => none

def isNeverFolded : UnaryOp → Bool
  | sinh | cosh | tanh | asinh | acosh | atanh => true
  | isNan | isInf => true
  | floatBitsToInt | floatBitsToUint | intBitsToFloat | uintBitsToFloat => true
  | packSnorm2x16 | unpackSnorm2x16 | packUnorm2x16 | unpackUnorm2x16 => true
  | packHalf2x16 | unpackHalf2x16 => true
  | determinant | matrixInverse | transpose | any | all => true
  | _ => false

end UnaryOp

end ShaderFold
