import Mathlib.Algebra.Ring.Int.Defs
import Mathlib.Algebra.Ring.Nat
import ShaderFold.Proofs.IntegerDivision

namespace ShaderFold

theorem signed_natAbs (n : Int) : signed (n < 0) n.natAbs = n := by
  by_cases h : n < 0
  · rw [signed, decide_eq_true h, if_pos rfl]
    omega
  · rw [signed, decide_eq_false h, if_neg (by decide)]
    omega

theorem signed_mul (s : Bool) (m k : Nat) : signed s (m * k) = signed s m * k := by
  cases s <;> simp [signed]

theorem signed_xor_mul (s t : Bool) (m n : Nat) :
    signed (s ^^ t) (m * n) = signed s m * signed t n := by
  cases s <;> cases t <;> simp [signed]

namespace FloatFormat

/-- The integer is a number of the format. -/
def Holds (f : FloatFormat) (n : Int) : Prop :=
  f.Fits (n.natAbs * f.unit)

theorem holds_zero (f : FloatFormat) : f.Holds 0 := by
  rw [Holds, Int.natAbs_zero, Nat.zero_mul]
  exact .zero f

/-- A format holds the integers that its significand has bits for, and the power of two right
after them. -/
theorem holds_of_natAbs_le {f : FloatFormat} {n : Int} (hf : f.precision + f.scale < f.range)
    (h : n.natAbs ≤ 2 ^ f.precision) : f.Holds n where
  significant := by
    have hunits : n.natAbs * f.unit = n.natAbs <<< f.scale := by
      rw [unit, Nat.one_shiftLeft, Nat.shiftLeft_eq]
    rw [hunits]
    rcases Nat.lt_or_eq_of_le h with hlt | heq
    · exact ⟨n.natAbs, f.scale, by rwa [Nat.one_shiftLeft], rfl⟩
    · refine ⟨1, f.precision + f.scale, ?_, ?_⟩
      · rw [Nat.one_shiftLeft]
        exact Nat.one_lt_two_pow (Nat.ne_of_gt f.precision_pos)
      · rw [heq, ← Nat.one_shiftLeft, Nat.shiftLeft_add]
  lt_range := by
    rw [unit, Nat.one_shiftLeft, Nat.one_shiftLeft]
    calc n.natAbs * 2 ^ f.scale ≤ 2 ^ f.precision * 2 ^ f.scale := Nat.mul_le_mul_right _ h
      _ = 2 ^ (f.precision + f.scale) := (Nat.pow_add ..).symm
      _ < 2 ^ f.range := Nat.pow_lt_pow_right Nat.one_lt_two hf

theorem double_holds {n : Int} (h : n.natAbs ≤ 2 ^ 53) : double.Holds n :=
  holds_of_natAbs_le (by decide) h

end FloatFormat

namespace BinaryFloat

variable {f : FloatFormat} {x y : BinaryFloat f} {m n : Int}

/-- The number is an integer. A zero may have either sign. -/
def IsInt (x : BinaryFloat f) (n : Int) : Prop :=
  ∃ s, ∃ h : f.Fits (n.natAbs * f.unit), signed s n.natAbs = n ∧ x = .finite s _ h

theorem isInt_zero (s : Bool) : (zero s : BinaryFloat f).IsInt 0 :=
  ⟨s, f.holds_zero, by simp, by simp [zero]⟩

theorem isInt_round (h : f.Holds n) :
    (round (n < 0) (n.natAbs * f.unit) 1 : BinaryFloat f).IsInt n :=
  ⟨n < 0, h, signed_natAbs n, round_one _ h⟩

theorem isInt_ofInt (h : f.Holds n) : (ofInt n : BinaryFloat f).IsInt n :=
  isInt_round h

theorem IsInt.add (hx : x.IsInt m) (hy : y.IsInt n) (h : f.Holds (m + n)) :
    (x + y).IsInt (m + n) := by
  obtain ⟨s, _, hs, rfl⟩ := hx
  obtain ⟨t, _, ht, rfl⟩ := hy
  have hunit : (0 : Int) < f.unit := Int.natCast_pos.2 f.unit_pos
  have hsum : signed s (m.natAbs * f.unit) + signed t (n.natAbs * f.unit) = (m + n) * f.unit := by
    rw [signed_mul, signed_mul, hs, ht, Int.add_mul]
  have hneg : (m + n) * f.unit < 0 ↔ m + n < 0 := by
    simpa using Int.mul_lt_mul_right (c := 0) hunit
  change (BinaryFloat.add _ _).IsInt _
  simp only [BinaryFloat.add, hsum]
  by_cases h0 : m + n = 0
  · rw [h0, Int.zero_mul, if_pos rfl]
    exact isInt_zero _
  · rw [if_neg (Int.mul_ne_zero h0 (Int.ne_of_gt hunit)), Int.natAbs_mul, Int.natAbs_natCast,
      decide_eq_decide.2 hneg]
    exact isInt_round h

theorem IsInt.mul (hx : x.IsInt m) (hy : y.IsInt n) (h : f.Holds (m * n)) :
    (x * y).IsInt (m * n) := by
  obtain ⟨s, _, hs, rfl⟩ := hx
  obtain ⟨t, _, ht, rfl⟩ := hy
  refine ⟨s ^^ t, h, ?_, ?_⟩
  · rw [Int.natAbs_mul, signed_xor_mul, hs, ht]
  · have hunits : m.natAbs * f.unit * (n.natAbs * f.unit) = (m * n).natAbs * f.unit * f.unit := by
      rw [Int.natAbs_mul, Nat.mul_mul_mul_comm, ← Nat.mul_assoc]
    change BinaryFloat.mul _ _ = _
    rw [BinaryFloat.mul, hunits, round_mul_right _ h f.unit_pos]

theorem IsInt.place?_eq (hx : x.IsInt n) : x.place? = some (n * f.unit) := by
  obtain ⟨s, _, hs, rfl⟩ := hx
  rw [place?, signed_mul, hs]

theorem IsInt.isNaN_eq (hx : x.IsInt n) : x.isNaN = false := by
  obtain ⟨_, _, _, rfl⟩ := hx
  rfl

theorem IsInt.less_eq (hx : x.IsInt m) (hy : y.IsInt n) : x.less y = decide (m < n) := by
  have hunit : (0 : Int) < f.unit := Int.natCast_pos.2 f.unit_pos
  rw [less, hx.place?_eq, hy.place?_eq]
  exact decide_eq_decide.2 (Int.mul_lt_mul_right hunit)

theorem IsInt.min (hx : x.IsInt m) (hy : y.IsInt n) : (x.min y).IsInt (Min.min m n) := by
  rw [BinaryFloat.min, hx.isNaN_eq, hy.less_eq hx, if_neg (by decide)]
  by_cases h : n < m
  · rwa [if_pos (decide_eq_true h), Int.min_eq_right (Int.le_of_lt h)]
  · rwa [decide_eq_false h, if_neg (by decide), Int.min_eq_left (Int.not_lt.1 h)]

theorem IsInt.max (hx : x.IsInt m) (hy : y.IsInt n) : (x.max y).IsInt (Max.max m n) := by
  rw [BinaryFloat.max, hx.isNaN_eq, hx.less_eq hy, if_neg (by decide)]
  by_cases h : m < n
  · rwa [if_pos (decide_eq_true h), Int.max_eq_right (Int.le_of_lt h)]
  · rwa [decide_eq_false h, if_neg (by decide), Int.max_eq_left (Int.not_lt.1 h)]

theorem IsInt.truncateWithin_eq (hx : x.IsInt n) (lo hi : Int) :
    x.truncateWithin lo hi = Max.max lo (Min.min hi n) := by
  obtain ⟨s, _, hs, rfl⟩ := hx
  rw [truncateWithin, Nat.mul_div_cancel _ f.unit_pos, hs]

end BinaryFloat

namespace Kind

def least : Kind → Int
  | int => -2 ^ 31
  | _ => 0

def greatest : Kind → Int
  | int => 2 ^ 31 - 1
  | uint => 2 ^ 32 - 1
  | _ => 0

/-- The integer of the kind that is nearest to the given one. -/
def saturate (k : Kind) (n : Int) : Int :=
  max k.least (min k.greatest n)

theorem saturate_eq_self {k : Kind} {n : Int} (hl : k.least ≤ n) (hg : n ≤ k.greatest) :
    k.saturate n = n := by
  rw [saturate, Int.min_eq_right hg, Int.max_eq_right hl]

end Kind

namespace Scalar

variable {v : Scalar} {k : Kind} {n : Int}

theorem exists_integer? (hk : v.kind.isInteger = true) : ∃ n, v.integer? = some n := by
  cases v <;> cases hk <;> exact ⟨_, rfl⟩

theorem integer?_bounds (h : v.integer? = some n) : v.kind.least ≤ n ∧ n ≤ v.kind.greatest := by
  cases v with
  | int w =>
    cases h
    exact ⟨w.le_toInt, Int.le_sub_one_of_lt w.toInt_lt⟩
  | uint w =>
    cases h
    have hw := w.toNat_lt
    simp only [kind, Kind.least, Kind.greatest]
    omega
  | _ => cases h

theorem isInt_toDouble (h : v.integer? = some n) : v.toDouble.IsInt n := by
  have hbounds := integer?_bounds h
  cases v with
  | int w =>
    cases h
    apply BinaryFloat.isInt_ofInt (FloatFormat.double_holds _)
    simp only [kind, Kind.least, Kind.greatest] at hbounds
    omega
  | uint w =>
    cases h
    apply BinaryFloat.isInt_ofInt (FloatFormat.double_holds _)
    simp only [kind, Kind.least, Kind.greatest] at hbounds
    omega
  | _ => cases h

theorem exists_ofDouble?_of_isInt {x : Double} (hx : x.IsInt n) (hk : k.isInteger = true) :
    ∃ v, ofDouble? k x = some v ∧ v.kind = k ∧ v.integer? = some (k.saturate n) := by
  cases k with
  | int =>
    refine ⟨int x.toInt32, rfl, rfl, ?_⟩
    rw [integer?, BinaryFloat.toInt32, hx.truncateWithin_eq, Int32.toInt_ofInt_of_le]
    · rfl
    · omega
    · omega
  | uint =>
    refine ⟨uint x.toUInt32, rfl, rfl, ?_⟩
    rw [integer?, BinaryFloat.toUInt32, hx.truncateWithin_eq, UInt32.toNat_ofNat_of_lt',
      Int.toNat_of_nonneg]
    · rfl
    · omega
    · change _ < 2 ^ 32
      omega
  | _ => cases hk

end Scalar

end ShaderFold
