import ShaderFold.Numeric.Arithmetic
import ShaderFold.Numeric.FixedPoint

namespace ShaderFold.BinaryFloat

variable {f : FloatFormat}

/-- Elementary functions are computed in fixed point with so many bits behind the leading one, and
rounded once. -/
def workingBits : Nat := 256

def ofFixed (negative : Bool) (w : Nat) (v : Int) : BinaryFloat f :=
  round (negative ^^ decide (v < 0)) (v.natAbs * f.unit) (1 <<< w)

/-- The number nearest to `num / den * 2 ^ k`. What is far outside the range is settled by its
order of magnitude. -/
def ofScaled (negative : Bool) (num den : Nat) (k : Int) : BinaryFloat f :=
  let order := (num.log2 : Int) - den.log2 + k
  if f.range < order + f.scale then .infinite negative
  else if order + f.scale + 2 ≤ 0 then zero negative
  else round negative ((num * f.unit) <<< k.toNat) (den <<< (-k).toNat)

def exp : BinaryFloat f → BinaryFloat f
  | .nan => .nan
  | .infinite s => if s then zero false else .infinite false
  | .finite s u _ =>
    if f.range * f.unit ≤ u then if s then zero false else .infinite false
    else
      let (k, m) := FixedPoint.exp workingBits (signed s u * FixedPoint.one workingBits / f.unit)
      ofScaled false m.toNat (1 <<< workingBits) k

def log : BinaryFloat f → BinaryFloat f
  | .nan => .nan
  | .infinite s => if s then .nan else .infinite false
  | .finite s u _ =>
    if u = 0 then .infinite true
    else if s then .nan
    else ofFixed false workingBits (FixedPoint.log workingBits u f.scale)

/-- Bits with which an angle of `u` units is handled, so that neither its leading bits nor those
of its remainder by a quarter turn are lost. -/
def angleBits (f : FloatFormat) (u : Nat) : Nat :=
  workingBits + (u.log2 - f.scale) + (f.scale - u.log2)

def sinCos (f : FloatFormat) (u : Nat) : Int × Int :=
  FixedPoint.sinCos (angleBits f u) (u * FixedPoint.one (angleBits f u) / f.unit)

def sin : BinaryFloat f → BinaryFloat f
  | .finite s u h => if u = 0 then .finite s u h else ofFixed s (angleBits f u) (sinCos f u).1
  | _ => .nan

def cos : BinaryFloat f → BinaryFloat f
  | .finite _ u _ => if u = 0 then 1 else ofFixed false (angleBits f u) (sinCos f u).2
  | _ => .nan

def tan : BinaryFloat f → BinaryFloat f
  | .finite s u h =>
    if u = 0 then .finite s u h
    else
      let (y, x) := sinCos f u
      round (s ^^ decide (y < 0) ^^ decide (x < 0)) (y.natAbs * f.unit) x.natAbs
  | _ => .nan

def eighths (negative : Bool) (n : Int) : BinaryFloat f :=
  ofFixed negative workingBits (n * FixedPoint.pi workingBits / 4)

def arctan2 : (y x : BinaryFloat f) → BinaryFloat f
  | .finite s u _, .finite t v _ =>
    if u = 0 then if t then eighths s 4 else zero s
    else
      let w := workingBits + (v.log2 - u.log2)
      let angle := FixedPoint.arctan w u v
      ofFixed s w (if t then FixedPoint.pi w - angle else angle)
  | .infinite s, .infinite t => eighths s (if t then 3 else 1)
  | .infinite s, .finite .. => eighths s 2
  | .finite s .., .infinite t => if t then eighths s 4 else zero s
  | .nan, _ | _, .nan => .nan

def arctan (x : BinaryFloat f) : BinaryFloat f :=
  arctan2 x 1

def legs (w x : Nat) : Nat × Nat :=
  (x, Nat.sqrt (1 <<< (2 * w) - x * x))

def arcsin : BinaryFloat f → BinaryFloat f
  | .finite s u h =>
    if u = 0 then .finite s u h
    else if f.unit < u then .nan
    else
      let w := angleBits f u
      let (x, c) := legs w (u <<< w / f.unit)
      ofFixed s w (FixedPoint.arctan w x c)
  | _ => .nan

def arccos : BinaryFloat f → BinaryFloat f
  | .finite s u _ =>
    if f.unit < u then .nan
    else
      let w := workingBits
      let (x, c) := legs w (u <<< w / f.unit)
      let angle := FixedPoint.arctan w c x
      ofFixed false w (if s then FixedPoint.pi w - angle else angle)
  | _ => .nan

def trailingZeros (n : Nat) : Nat :=
  (n ^^^ (n - 1)).log2

/-- The root of `m * 2 ^ e` of order `2 ^ k`, if it has that form again. -/
def exactRoot : (k m : Nat) → (e : Int) → Option (Nat × Int)
  | 0, m, e => some (m, e)
  | k + 1, m, e =>
    let r := Nat.sqrt m
    if r * r = m ∧ e % 2 = 0 then exactRoot k r (e / 2) else none

/-- The power `x ^ (± y)` of `u` and `v` units, both positive, if it is settled exactly: the root
of `x` that the denominator of `y` asks for is exact, and it is a power of two or is raised to a
small exponent. Other powers lie on no rounding boundary. -/
def exactPower? (result negate : Bool) (u v : Nat) : Option (BinaryFloat f) :=
  let a := trailingZeros u
  let b := trailingZeros v
  match exactRoot (f.scale - b) (u >>> a) (a - f.scale) with
  | none => none
  | some (m, e) =>
    let n := (v >>> b) <<< (b - f.scale)
    let k := if negate then -(e * n) else e * n
    if m = 1 then some (ofScaled result 1 1 k)
    else if n ≤ 64 then
      some (if negate then ofScaled result 1 (Nat.pow m n) k
        else ofScaled result (Nat.pow m n) 1 k)
    else none

def power (result negate : Bool) (u v : Nat) : BinaryFloat f :=
  match exactPower? result negate u v with
  | some x => x
  | none =>
    let w := workingBits + (v.log2 - f.scale)
    let (k, m) := FixedPoint.exp w (signed negate v * FixedPoint.log w u f.scale / f.unit)
    ofScaled result m.toNat (1 <<< w) k

def isOdd (f : FloatFormat) (u : Nat) : Bool :=
  u % f.unit = 0 && u / f.unit % 2 = 1

def pow (x y : BinaryFloat f) : BinaryFloat f :=
  if x = 1 ∨ y.equal 0 then 1
  else
    match x, y with
    | .nan, _ | _, .nan => .nan
    | x, .infinite t =>
      if x.abs = 1 then 1
      else if x.abs.less 1 == t then .infinite false else zero false
    | .infinite s, .finite t v _ =>
      let negative := s && isOdd f v
      if t then zero negative else .infinite negative
    | .finite s u _, .finite t v _ =>
      let negative := s && isOdd f v
      if u = 0 then if t then .infinite negative else zero negative
      else if s && v % f.unit ≠ 0 then .nan
      else power negative t u v

end ShaderFold.BinaryFloat
