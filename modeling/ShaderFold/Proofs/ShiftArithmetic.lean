import Mathlib.Data.Int.ModEq
import Mathlib.Data.Rat.Floor
import ShaderFold.Proofs.IntegerDivision
import ShaderFold.Proofs.Reinterpretation

namespace ShaderFold.Scalar

variable {a b v r : Scalar} {k l : Kind} {u w : BitVec 32} {x y : Int}

/-- The bits of an integer give it modulo `2 ^ 32`, whether it is signed or not. -/
theorem exists_integer?_ofWord (k : Kind) (w : BitVec 32) :
    ∃ x, (ofWord k w).integer? = some x ∧ x ≡ w.toNat [ZMOD 2 ^ 32] := by
  by_cases hk : k = .int
  · refine ⟨w.toInt, by rw [ofWord, if_pos hk]; rfl, ?_⟩
    rw [BitVec.toInt_eq_toNat_bmod]
    exact Int.bmod_emod
  · exact ⟨w.toNat, by rw [ofWord, if_neg hk]; rfl, rfl⟩

theorem exists_word (h : v.integer? = some x) :
    ∃ k w, k.isInteger = true ∧ v = ofWord k w ∧ x ≡ w.toNat [ZMOD 2 ^ 32] := by
  have hk : v.kind.isInteger = true := by cases v <;> cases h <;> rfl
  obtain ⟨w, hw⟩ := exists_eq_ofWord hk
  obtain ⟨z, hz, hmod⟩ := exists_integer?_ofWord v.kind w
  rw [← hw, h] at hz
  cases hz
  exact ⟨v.kind, w, hk, hw, hmod⟩

/-- A kind holds one integer of each class modulo `2 ^ 32`. -/
theorem eq_of_modEq (hkind : a.kind = b.kind) (ha : a.integer? = some x)
    (hb : b.integer? = some y) (h : x ≡ y [ZMOD 2 ^ 32]) : a = b := by
  obtain ⟨k, u, hk, rfl, hu⟩ := exists_word ha
  obtain ⟨l, w, hl, rfl, hw⟩ := exists_word hb
  rw [kind_ofWord hk, kind_ofWord hl] at hkind
  have huw : u.toNat ≡ w.toNat [MOD 2 ^ 32] :=
    Int.natCast_modEq_iff.1 (hu.symm.trans (h.trans hw))
  rw [hkind, BitVec.eq_of_toNat_eq (huw.eq_of_lt_of_lt u.isLt w.isLt)]

theorem eq_iff_modEq (hb : b.integer? = some y) (hy : y ≡ x [ZMOD 2 ^ 32]) :
    a = b ↔ a.kind = b.kind ∧ ∃ z, a.integer? = some z ∧ z ≡ x [ZMOD 2 ^ 32] := by
  constructor
  · rintro rfl
    exact ⟨rfl, y, hb, hy⟩
  · rintro ⟨hkind, z, hz, hmod⟩
    exact eq_of_modEq hkind hz hb (hmod.trans hy.symm)

theorem eq_iff_integer? (hb : b.integer? = some y) :
    a = b ↔ a.kind = b.kind ∧ a.integer? = some y := by
  constructor
  · rintro rfl
    exact ⟨rfl, hb⟩
  · rintro ⟨hkind, ha⟩
    exact eq_of_modEq hkind ha hb rfl

theorem toNat_emod_of_modEq (h : y ≡ w.toNat [ZMOD 2 ^ 32]) : (y % 32).toNat = w.toNat % 32 := by
  have hmod : y % 32 = w.toNat % 32 := h.of_dvd (by decide)
  omega

theorem toNat_shiftLeft_modEq (h : x ≡ u.toNat [ZMOD 2 ^ 32]) (n : Nat) :
    ((u <<< n).toNat : Int) ≡ x * 2 ^ n [ZMOD 2 ^ 32] := by
  calc ((u <<< n).toNat : Int)
      = u.toNat * 2 ^ n % 2 ^ 32 := by
        rw [BitVec.toNat_shiftLeft, Nat.shiftLeft_eq, Int.natCast_emod, Int.natCast_mul,
          Int.natCast_pow, Int.natCast_pow]
        rfl
    _ ≡ u.toNat * 2 ^ n [ZMOD 2 ^ 32] := Int.mod_modEq _ _
    _ ≡ x * 2 ^ n [ZMOD 2 ^ 32] := h.symm.mul_right _

/-- The bits of an integer moved down by some places: copies of the sign come in from above if the
integer is signed, and zeros if it is not. -/
def shiftedRight (k : Kind) (u : BitVec 32) (n : Nat) : BitVec 32 :=
  if k = .int then u.sshiftRight n else u >>> n

theorem shiftRight?_ofWord (hk : k.isInteger = true) (hl : l.isInteger = true) (u w : BitVec 32) :
    shiftRight? (ofWord k u) (ofWord l w) =
      some (ofWord k (shiftedRight k u (w.toNat % 32))) := by
  cases k <;> cases hk <;> cases l <;> cases hl <;> rfl

theorem integer?_shiftedRight (h : (ofWord k u).integer? = some x) (n : Nat) :
    (ofWord k (shiftedRight k u n)).integer? = some ⌊(x / 2 ^ n : ℚ)⌋ := by
  have hfloor : ⌊(x / 2 ^ n : ℚ)⌋ = x >>> n := by
    rw [Int.shiftRight_eq_div_pow, ← Rat.floor_intCast_div_natCast, Nat.cast_pow, Nat.cast_ofNat]
  rw [hfloor]
  by_cases hk : k = .int
  · rw [ofWord, if_pos hk] at h ⊢
    cases h
    rw [shiftedRight, if_pos hk]
    exact congrArg some BitVec.toInt_sshiftRight
  · rw [ofWord, if_neg hk] at h ⊢
    cases h
    rw [shiftedRight, if_neg hk]
    exact congrArg (fun m : Nat => some (m : Int)) (BitVec.toNat_ushiftRight u n)

/-- Integers of both kinds are shifted by integers of both kinds. To the left comes out the
integer of the same kind that is congruent to the product with the power of two, to the right the
quotient rounded down. -/
theorem shift_by_power_of_two (hv : v.integer? = some x) (hr : r.integer? = some y) :
    ∃ a b, shiftLeft? v r = some a ∧ shiftRight? v r = some b ∧
      (∀ c, c = a ↔ c.kind = v.kind ∧
        ∃ z, c.integer? = some z ∧ z ≡ x * 2 ^ (y % 32).toNat [ZMOD 2 ^ 32]) ∧
      ∀ c, c = b ↔ c.kind = v.kind ∧ c.integer? = some ⌊(x / 2 ^ (y % 32).toNat : ℚ)⌋ := by
  obtain ⟨k, u, hk, rfl, hu⟩ := exists_word hv
  obtain ⟨l, w, hl, rfl, hw⟩ := exists_word hr
  rw [kind_ofWord hk, toNat_emod_of_modEq hw]
  refine ⟨_, _, BinaryOp.shiftLeft?_ofWord hk hl u w, shiftRight?_ofWord hk hl u w, ?_, ?_⟩
  · obtain ⟨z, hz, hzmod⟩ := exists_integer?_ofWord k (u <<< (w.toNat % 32))
    intro c
    rw [eq_iff_modEq hz (hzmod.trans (toNat_shiftLeft_modEq hu _)), kind_ofWord hk]
  · intro c
    rw [eq_iff_integer? (integer?_shiftedRight hv _), kind_ofWord hk]

theorem shift_by_power_of_two_negative :
    let v := int (-0x40000001)
    let r := int (-31)
    shiftLeft? v r = some (int 0x7FFFFFFE) ∧ shiftRight? v r = some (int (-0x20000001)) ∧
      (∀ c, c = int 0x7FFFFFFE ↔ c.kind = .int ∧
        ∃ z, c.integer? = some z ∧ z ≡ -0x40000001 * 2 ^ 1 [ZMOD 2 ^ 32]) ∧
      ∀ c, c = int (-0x20000001) ↔ c.kind = .int ∧
        c.integer? = some ⌊((-0x40000001 : Int) / 2 ^ 1 : ℚ)⌋ := by
  intro v r
  have hleft : shiftLeft? v r = some (int 0x7FFFFFFE) := by decide
  have hright : shiftRight? v r = some (int (-0x20000001)) := by decide
  have hv : v.integer? = some (-0x40000001) := by decide
  have hr : r.integer? = some (-31) := by decide
  obtain ⟨a, b, ha, hb, hleft', hright'⟩ := shift_by_power_of_two hv hr
  obtain rfl := Option.some.inj (hleft.symm.trans ha)
  obtain rfl := Option.some.inj (hright.symm.trans hb)
  exact ⟨hleft, hright, hleft', hright'⟩

end ShaderFold.Scalar
