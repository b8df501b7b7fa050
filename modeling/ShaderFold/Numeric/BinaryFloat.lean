import ShaderFold.Numeric.Rounding

namespace ShaderFold

/-- A binary interchange format: the bits of its significand, the leading one included, and of its
exponent field. -/
structure FloatFormat where
  precision : Nat
  exponentBits : Nat
  precision_pos : 0 < precision

namespace FloatFormat

def single : FloatFormat := ⟨24, 8, by decide⟩

def double : FloatFormat := ⟨53, 11, by decide⟩

/-- The least positive number is `2 ^ -scale`. -/
def scale (f : FloatFormat) : Nat :=
  1 <<< (f.exponentBits - 1) - 2 + (f.precision - 1)

/-- Finite magnitudes lie below `2 ^ range` units. -/
def range (f : FloatFormat) : Nat :=
  1 <<< f.exponentBits - 3 + f.precision

def width (f : FloatFormat) : Nat :=
  f.precision + f.exponentBits

def unit (f : FloatFormat) : Nat :=
  1 <<< f.scale

theorem unit_pos (f : FloatFormat) : 0 < f.unit :=
  Nat.le_shiftLeft

/-- `units` is the magnitude of a finite number of the format. -/
structure Fits (f : FloatFormat) (units : Nat) : Prop where
  significant : Significant f.precision units
  lt_range : units < 1 <<< f.range

theorem Fits.zero (f : FloatFormat) : f.Fits 0 :=
  ⟨.zero f.precision, Nat.le_shiftLeft⟩

end FloatFormat

/-- A number of a format. A finite number is kept as its sign and its magnitude counted in units
of the least positive number, so that operations compute on integers and round once. All
not-a-number encodings are one value. -/
inductive BinaryFloat (f : FloatFormat) where
  | nan
  | infinite (negative : Bool)
  | finite (negative : Bool) (units : Nat) (fits : f.Fits units)
deriving DecidableEq

abbrev Single := BinaryFloat .single

abbrev Double := BinaryFloat .double

def signed (negative : Bool) (magnitude : Nat) : Int :=
  if negative then -magnitude else magnitude

@[simp] theorem natAbs_signed (negative : Bool) (n : Nat) : (signed negative n).natAbs = n := by
  cases negative <;> simp [signed]

@[simp] theorem signed_eq_zero_iff (negative : Bool) (n : Nat) :
    signed negative n = 0 ↔ n = 0 := by
  cases negative <;> simp [signed]

theorem decide_signed_lt_zero (negative : Bool) {n : Nat} (h : n ≠ 0) :
    decide (signed negative n < 0) = negative := by
  cases negative with
  | false => simp [signed]
  | true =>
    simp only [signed, if_true, decide_eq_true_eq]
    omega

namespace BinaryFloat

variable {f : FloatFormat}

def zero (negative : Bool) : BinaryFloat f :=
  .finite negative 0 (.zero f)

/-- The number nearest to `num / den` units; past the largest finite number it is infinite. -/
def round (negative : Bool) (num den : Nat) : BinaryFloat f :=
  if h : nearest f.precision num den < 1 <<< f.range then
    .finite negative (nearest f.precision num den)
      ⟨significant_nearest f.precision_pos num den, h⟩
  else .infinite negative

theorem round_mul_right (negative : Bool) {units : Nat} (h : f.Fits units) {den : Nat}
    (hd : 0 < den) :
    round negative (units * den) den = finite negative units h := by
  have he := h.significant.nearest_mul_right hd
  simp [round, he, h.lt_range]

theorem round_one (negative : Bool) {units : Nat} (h : f.Fits units) :
    round negative units 1 = finite negative units h := by
  simpa using round_mul_right negative h Nat.one_pos

def ofInt (n : Int) : BinaryFloat f :=
  round (n < 0) (n.natAbs * f.unit) 1

def largest : BinaryFloat f :=
  round false ((1 <<< f.precision - 1) <<< (f.range - f.precision)) 1

def ofBits (bits : BitVec f.width) : BinaryFloat f :=
  let hidden : Nat := 1 <<< (f.precision - 1)
  let fraction := bits.toNat % hidden
  let exponent := bits.toNat / hidden % (1 <<< f.exponentBits)
  if exponent = 1 <<< f.exponentBits - 1 then
    if fraction = 0 then .infinite bits.msb else .nan
  else if exponent = 0 then round bits.msb fraction 1
  else round bits.msb ((hidden + fraction) <<< (exponent - 1)) 1

def toBits (x : BinaryFloat f) : BitVec f.width :=
  let hidden : Nat := 1 <<< (f.precision - 1)
  let encode (negative : Bool) (exponent fraction : Nat) : BitVec f.width :=
    BitVec.ofNat _ ((negative.toNat <<< f.exponentBits + exponent) * hidden + fraction)
  match x with
  | .nan => encode false (1 <<< f.exponentBits - 1) (hidden / 2)
  | .infinite negative => encode negative (1 <<< f.exponentBits - 1) 0
  | .finite negative units _ =>
    if units < hidden then encode negative 0 units
    else
      let excess := excessBits f.precision units
      encode negative (excess + 1) (units >>> excess - hidden)

/-- The place of a number among the integers, counted in units; the infinite numbers come right
after the finite ones. -/
def place? : BinaryFloat f → Option Int
  | .nan => none
  | .infinite negative => some (signed negative (1 <<< f.range))
  | .finite negative units _ => some (signed negative units)

def equal (x y : BinaryFloat f) : Bool :=
  match x.place?, y.place? with
  | some a, some b => a == b
  | _, _ => false

def less (x y : BinaryFloat f) : Bool :=
  match x.place?, y.place? with
  | some a, some b => a < b
  | _, _ => false

def isNaN (x : BinaryFloat f) : Bool :=
  x matches .nan

theorem equal_comm (x y : BinaryFloat f) : x.equal y = y.equal x := by
  unfold equal
  cases x.place? <;> cases y.place? <;> simp [Bool.beq_comm]

end BinaryFloat

end ShaderFold
