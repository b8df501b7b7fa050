import ShaderFold.Scalar.Basic

namespace ShaderFold.Scalar

/-- Arithmetic on numeric values of one kind, with no result on others. Integers wrap around. -/
def arithmetic? (onInt : Int32 → Int32 → Int32) (onUint : UInt32 → UInt32 → UInt32)
    (onFloat : Single → Single → Single) (onDouble : Double → Double → Double) :
    Scalar → Scalar → Option Scalar
  | int a, int b => some (int (onInt a b))
  | uint a, uint b => some (uint (onUint a b))
  | float a, float b => some (float (onFloat a b))
  | double a, double b => some (double (onDouble a b))
  | _, _ => none

def add? : Scalar → Scalar → Option Scalar :=
  arithmetic? (· + ·) (· + ·) (· + ·) (· + ·)

def sub? : Scalar → Scalar → Option Scalar :=
  arithmetic? (· - ·) (· - ·) (· - ·) (· - ·)

def mul? : Scalar → Scalar → Option Scalar :=
  arithmetic? (· * ·) (· * ·) (· * ·) (· * ·)

def intOverZero : Int32 := -0x10000001

def uintOverZero : UInt32 := 0xFFFFFFFF

/-- Division of integers drops the fraction. Division by zero gives a fixed value for each kind,
the largest finite one for floating-point numbers. -/
def div? : Scalar → Scalar → Option Scalar :=
  arithmetic?
    (fun a b => if b = 0 then intOverZero else a / b)
    (fun a b => if b = 0 then uintOverZero else a / b)
    (fun a b => if b.equal 0 then .largest else a / b)
    (fun a b => if b.equal 0 then .largest else a / b)

def mod? : Scalar → Scalar → Option Scalar
  | int a, int b => some (int (if b = 0 then intOverZero else a % b))
  | uint a, uint b => some (uint (if b = 0 then uintOverZero else a % b))
  | _, _ => none

def neg? : Scalar → Option Scalar
  | bool _ => none
  | int v => some (int (-v))
  | uint v => some (uint (-v))
  | float x => some (float (-x))
  | double x => some (double (-x))

def bitwise? (onInt : Int32 → Int32 → Int32) (onUint : UInt32 → UInt32 → UInt32) :
    Scalar → Scalar → Option Scalar
  | int a, int b => some (int (onInt a b))
  | uint a, uint b => some (uint (onUint a b))
  | _, _ => none

def bitAnd? : Scalar → Scalar → Option Scalar :=
  bitwise? (· &&& ·) (· &&& ·)

def bitOr? : Scalar → Scalar → Option Scalar :=
  bitwise? (· ||| ·) (· ||| ·)

def bitXor? : Scalar → Scalar → Option Scalar :=
  bitwise? (· ^^^ ·) (· ^^^ ·)

def bitNot? : Scalar → Option Scalar
  | int v => some (int (~~~v))
  | uint v => some (uint (~~~v))
  | _ => none

/-- The number of places by which an integer of either kind shifts; only its low five bits count.
-/
def shiftAmount? : Scalar → Option Nat
  | int v => some (v.toUInt32.toNat % 32)
  | uint v => some (v.toNat % 32)
  | _ => none

def shiftLeft? (a b : Scalar) : Option Scalar :=
  match a, b.shiftAmount? with
  | int v, some n => some (int (.ofBitVec (v.toBitVec <<< n)))
  | uint v, some n => some (uint (.ofBitVec (v.toBitVec <<< n)))
  | _, _ => none

def shiftRight? (a b : Scalar) : Option Scalar :=
  match a, b.shiftAmount? with
  | int v, some n => some (int (.ofBitVec (v.toBitVec.sshiftRight n)))
  | uint v, some n => some (uint (.ofBitVec (v.toBitVec >>> n)))
  | _, _ => none

def logical? (op : Bool → Bool → Bool) : Scalar → Scalar → Option Scalar
  | bool a, bool b => some (bool (op a b))
  | _, _ => none

def logicalAnd? : Scalar → Scalar → Option Scalar :=
  logical? (· && ·)

def logicalOr? : Scalar → Scalar → Option Scalar :=
  logical? (· || ·)

def logicalXor? : Scalar → Scalar → Option Scalar :=
  logical? (· ^^ ·)

def logicalNot? : Scalar → Option Scalar
  | bool b => some (bool (!b))
  | _ => none

def less? : Scalar → Scalar → Option Bool
  | int a, int b => some (a < b)
  | uint a, uint b => some (a < b)
  | float a, float b => some (a.less b)
  | double a, double b => some (a.less b)
  | _, _ => none

def greater? (a b : Scalar) : Option Bool :=
  b.less? a

end ShaderFold.Scalar
