import ShaderFold.Numeric.BinaryFloat

namespace ShaderFold.BinaryFloat

variable {f : FloatFormat}

def neg : BinaryFloat f → BinaryFloat f
  | .nan => .nan
  | .infinite s => .infinite (!s)
  | .finite s u h => .finite (!s) u h

def abs : BinaryFloat f → BinaryFloat f
  | .nan => .nan
  | .infinite _ => .infinite false
  | .finite _ u h => .finite false u h

/-- An exact sum of zero is negative only if both summands are. -/
def add : BinaryFloat f → BinaryFloat f → BinaryFloat f
  | .finite s u _, .finite t v _ =>
    let sum := signed s u + signed t v
    if sum = 0 then zero (s && t) else round (sum < 0) sum.natAbs 1
  | .infinite s, .infinite t => if s = t then .infinite s else .nan
  | .infinite s, .finite .. => .infinite s
  | .finite .., .infinite t => .infinite t
  | .nan, _ | _, .nan => .nan

def mul : BinaryFloat f → BinaryFloat f → BinaryFloat f
  | .finite s u _, .finite t v _ => round (s ^^ t) (u * v) f.unit
  | .infinite s, .infinite t => .infinite (s ^^ t)
  | .infinite s, .finite t v _ => if v = 0 then .nan else .infinite (s ^^ t)
  | .finite s u _, .infinite t => if u = 0 then .nan else .infinite (s ^^ t)
  | .nan, _ | _, .nan => .nan

def div : BinaryFloat f → BinaryFloat f → BinaryFloat f
  | .finite s u _, .finite t v _ =>
    if v = 0 then if u = 0 then .nan else .infinite (s ^^ t)
    else round (s ^^ t) (u * f.unit) v
  | .infinite _, .infinite _ => .nan
  | .infinite s, .finite t .. => .infinite (s ^^ t)
  | .finite s .., .infinite t => zero (s ^^ t)
  | .nan, _ | _, .nan => .nan

instance (n : Nat) : OfNat (BinaryFloat f) n := ⟨ofInt n⟩
instance : Neg (BinaryFloat f) := ⟨neg⟩
instance : Add (BinaryFloat f) := ⟨add⟩
instance : Sub (BinaryFloat f) := ⟨fun x y => x + -y⟩
instance : Mul (BinaryFloat f) := ⟨mul⟩
instance : Div (BinaryFloat f) := ⟨div⟩

/-- The square root. The doubled integer root is made odd when the root is not exact, which keeps
it on the right side of every rounding boundary. -/
def sqrt : BinaryFloat f → BinaryFloat f
  | .nan => .nan
  | .infinite s => if s then .nan else .infinite false
  | .finite s u h =>
    if u = 0 then .finite s u h
    else if s then .nan
    else
      let r := Nat.sqrt (u * f.unit)
      round false (2 * r + if r * r = u * f.unit then 0 else 1) 2

/-- The lesser number; a number is preferred to not-a-number. -/
def min (x y : BinaryFloat f) : BinaryFloat f :=
  if x.isNaN then y else if y.less x then y else x

def max (x y : BinaryFloat f) : BinaryFloat f :=
  if x.isNaN then y else if x.less y then y else x

def clamp (x lo hi : BinaryFloat f) : BinaryFloat f :=
  if x.less lo then lo else if hi.less x then hi else x

def floor : BinaryFloat f → BinaryFloat f
  | .finite s u h =>
    if u % f.unit = 0 then .finite s u h
    else round s ((u / f.unit + s.toNat) * f.unit) 1
  | x => x

def ceil (x : BinaryFloat f) : BinaryFloat f :=
  -(-x).floor

/-- The integer part, brought between `lo` and `hi`; not-a-number gives zero. -/
def truncateWithin (lo hi : Int) : BinaryFloat f → Int
  | .nan => 0
  | .infinite s => if s then lo else hi
  | .finite s u _ => Max.max lo (Min.min hi (signed s (u / f.unit)))

def toInt32 (x : BinaryFloat f) : Int32 :=
  .ofInt (x.truncateWithin (-0x80000000) 0x7FFFFFFF)

def toUInt32 (x : BinaryFloat f) : UInt32 :=
  .ofNat (x.truncateWithin 0 0xFFFFFFFF).toNat

def convert {g : FloatFormat} : BinaryFloat f → BinaryFloat g
  | .nan => .nan
  | .infinite s => .infinite s
  | .finite s u _ => round s (u * g.unit) f.unit

/-- The sum of a list from left to right. It starts with negative zero, which changes no summand.
-/
def sum (xs : List (BinaryFloat f)) : BinaryFloat f :=
  xs.foldl (· + ·) (zero true)

theorem add_comm (x y : BinaryFloat f) : x + y = y + x := by
  change x.add y = y.add x
  cases x <;> cases y <;> simp only [add]
  · split <;> split <;> simp_all
  · rw [Int.add_comm, Bool.and_comm]

theorem mul_comm (x y : BinaryFloat f) : x * y = y * x := by
  change x.mul y = y.mul x
  cases x <;> cases y <;> simp only [mul]
  · rw [Bool.xor_comm]
  · rw [Bool.xor_comm]
  · rw [Bool.xor_comm]
  · rw [Bool.xor_comm, Nat.mul_comm]

theorem negZero_add (x : BinaryFloat f) : zero true + x = x := by
  change (zero true).add x = x
  cases x with
  | nan => rfl
  | infinite s => rfl
  | finite s u h =>
    have hz : signed true 0 + signed s u = signed s u := by simp [signed]
    simp only [zero, add, hz]
    by_cases hu : u = 0
    · subst hu
      cases s <;> rfl
    · rw [if_neg (by rwa [signed_eq_zero_iff]), decide_signed_lt_zero s hu, natAbs_signed,
        round_one s h]

end ShaderFold.BinaryFloat
