namespace ShaderFold

/-- Operators between two operands. Which product is meant has been settled by the operand types.
-/
inductive BinaryOp where
  | add
  | sub
  | mul
  | div
  | mod
  | vectorTimesScalar
  | matrixTimesScalar
  | matrixTimesMatrix
  | matrixTimesVector
  | vectorTimesMatrix
  | equal
  | notEqual
  | less
  | lessEqual
  | greater
  | greaterEqual
  | logicalAnd
  | logicalOr
  | logicalXor
  | bitAnd
  | bitOr
  | bitXor
  | shiftLeft
  | shiftRight
deriving DecidableEq

def BinaryOp.symbol : BinaryOp → String
  | add => "+"
  | sub => "-"
  | mul | vectorTimesScalar | matrixTimesScalar => "*"
  | matrixTimesMatrix | matrixTimesVector | vectorTimesMatrix => "*"
  | div => "/"
  | mod => "%"
  | equal => "=="
  | notEqual => "!="
  | less => "<"
  | lessEqual => "<="
  | greater => ">"
  | greaterEqual => ">="
  | logicalAnd => "&&"
  | logicalOr => "||"
  | logicalXor => "^^"
  | bitAnd => "&"
  | bitOr => "|"
  | bitXor => "^"
  | shiftLeft => "<<"
  | shiftRight => ">>"

inductive UnaryOp where
  | negate
  | logicalNot
  | vectorLogicalNot
  | bitNot
  | radians
  | degrees
  | sin
  | cos
  | tan
  | asin
  | acos
  | atan
  | sinh
  | cosh
  | tanh
  | asinh
  | acosh
  | atanh
  | exp
  | log
  | exp2
  | log2
  | sqrt
  | inverseSqrt
  | abs
  | sign
  | floor
  | trunc
  | round
  | roundEven
  | ceil
  | fract
  | isNan
  | isInf
  | floatBitsToInt
  | floatBitsToUint
  | intBitsToFloat
  | uintBitsToFloat
  | packSnorm2x16
  | unpackSnorm2x16
  | packUnorm2x16
  | unpackUnorm2x16
  | packHalf2x16
  | unpackHalf2x16
  | length
  | normalize
  | derivativeX
  | derivativeY
  | derivativeWidth
  | determinant
  | matrixInverse
  | transpose
  | any
  | all
deriving DecidableEq

namespace UnaryOp

def name : UnaryOp → String
  | negate => "-"
  | logicalNot => "!"
  | vectorLogicalNot => "not"
  | bitNot => "~"
  | radians => "radians"
  | degrees => "degrees"
  | sin => "sin"
  | cos => "cos"
  | tan => "tan"
  | asin => "asin"
  | acos => "acos"
  | atan => "atan"
  | sinh => "sinh"
  | cosh => "cosh"
  | tanh => "tanh"
  | asinh => "asinh"
  | acosh => "acosh"
  | atanh => "atanh"
  | exp => "exp"
  | log => "log"
  | exp2 => "exp2"
  | log2 => "log2"
  | sqrt => "sqrt"
  | inverseSqrt => "inversesqrt"
  | abs => "abs"
  | sign => "sign"
  | floor => "floor"
  | trunc => "trunc"
  | round => "round"
  | roundEven => "roundEven"
  | ceil => "ceil"
  | fract => "fract"
  | isNan => "isnan"
  | isInf => "isinf"
  | floatBitsToInt => "floatBitsToInt"
  | floatBitsToUint => "floatBitsToUint"
  | intBitsToFloat => "intBitsToFloat"
  | uintBitsToFloat => "uintBitsToFloat"
  | packSnorm2x16 => "packSnorm2x16"
  | unpackSnorm2x16 => "unpackSnorm2x16"
  | packUnorm2x16 => "packUnorm2x16"
  | unpackUnorm2x16 => "unpackUnorm2x16"
  | packHalf2x16 => "packHalf2x16"
  | unpackHalf2x16 => "unpackHalf2x16"
  | length => "length"
  | normalize => "normalize"
  | derivativeX => "dFdx"
  | derivativeY => "dFdy"
  | derivativeWidth => "fwidth"
  | determinant => "determinant"
  | matrixInverse => "inverse"
  | transpose => "transpose"
  | any => "any"
  | all => "all"

def isReduction : UnaryOp → Bool
  | length | determinant | any | all => true
  | _ => false

end UnaryOp

inductive Builtin where
  | min
  | max
  | atan
  | pow
  | modf
  | clamp
  | mix
  | step
  | smoothStep
  | distance
  | dot
  | cross
  | faceForward
  | reflect
  | refract
  | outerProduct
deriving DecidableEq

namespace Builtin

def name : Builtin → String
  | min => "min"
  | max => "max"
  | atan => "atan"
  | pow => "pow"
  | modf => "modf"
  | clamp => "clamp"
  | mix => "mix"
  | step => "step"
  | smoothStep => "smoothstep"
  | distance => "distance"
  | dot => "dot"
  | cross => "cross"
  | faceForward => "faceforward"
  | reflect => "reflect"
  | refract => "refract"
  | outerProduct => "outerProduct"

def arity : Builtin → Nat
  | clamp | mix | smoothStep | faceForward | refract => 3
  | _ => 2

end Builtin

inductive Operator where
  | binary (op : BinaryOp)
  | unary (op : UnaryOp)
  | builtin (op : Builtin)
  | construct
deriving DecidableEq

def Operator.text : Operator → String
  | binary op => s!"`{op.symbol}`"
  | unary op => s!"`{op.name}`"
  | builtin op => s!"`{op.name}`"
  | construct => "constructor"

end ShaderFold
