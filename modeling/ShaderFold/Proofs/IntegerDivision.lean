import ShaderFold.Proofs.SameKind

namespace ShaderFold

theorem Int32.div_mul_add_mod (x y : Int32) : x / y * y + x % y = x := by
  rw [← Int32.toInt_inj, Int32.toInt_add, Int32.toInt_mul, Int32.toInt_div, Int32.toInt_mod,
    Int.bmod_mul_bmod, Int.bmod_add_bmod, Int.tdiv_mul_add_tmod]
  exact x.toInt_bmod

theorem UInt32.div_mul_add_mod (x y : UInt32) : x / y * y + x % y = x := by
  rw [← UInt32.toNat_inj, UInt32.toNat_add, UInt32.toNat_mul, UInt32.toNat_div, UInt32.toNat_mod,
    Nat.mod_add_mod, Nat.div_add_mod', Nat.mod_eq_of_lt x.toNat_lt]

namespace Scalar

/-- The integer that a leaf of an integer kind stands for. -/
def integer? : Scalar → Option Int
  | int v => some v.toInt
  | uint v => some v.toNat
  | _ => none

/-- A remainder is smaller than the divisor, and zero or of the sign of the dividend. -/
def IsRemainder (a b r : Scalar) : Prop :=
  ∃ x y z, a.integer? = some x ∧ b.integer? = some y ∧ r.integer? = some z ∧ z.natAbs < y.natAbs ∧
    (z = 0 ∨ z.sign = x.sign)

variable {a b r : Scalar}

theorem isRemainder_of_tmod {x y : Int} (ha : a.integer? = some x) (hb : b.integer? = some y)
    (hr : r.integer? = some (x.tmod y)) (hy : y ≠ 0) : IsRemainder a b r := by
  refine ⟨x, y, x.tmod y, ha, hb, hr, ?_, ?_⟩
  · rw [Int.natAbs_tmod]
    exact Nat.mod_lt _ (Int.natAbs_pos.2 hy)
  · rw [← Int.sign_eq_zero_iff_zero, Int.sign_tmod]
    split
    · exact .inl rfl
    · exact .inr rfl

theorem exists_div?_mod? (hkind : a.kind = b.kind) (hk : a.kind.isInteger = true)
    (hb : b.isZero = false) :
    ∃ q r m, div? a b = some q ∧ mod? a b = some r ∧ mul? q b = some m ∧ add? m r = some a ∧
      IsRemainder a b r := by
  cases a with
  | bool x => cases hk
  | float x => cases hk
  | double x => cases hk
  | int x =>
    cases b with
    | int y =>
      have hy : y ≠ 0 := of_decide_eq_false hb
      have hy' : y.toInt ≠ 0 := fun h0 => hy (Int32.toInt_inj.1 h0)
      refine ⟨int (x / y), int (x % y), int (x / y * y), ?_, ?_, rfl, ?_, ?_⟩
      · rw [div?, arithmetic?, if_neg hy]
      · rw [mod?, if_neg hy]
      · rw [add?, arithmetic?, Int32.div_mul_add_mod]
      · apply isRemainder_of_tmod rfl rfl _ hy'
        rw [integer?, Int32.toInt_mod]
    | _ => cases hkind
  | uint x =>
    cases b with
    | uint y =>
      have hy : y ≠ 0 := of_decide_eq_false hb
      have hy' : (y.toNat : Int) ≠ 0 := fun h0 => hy (UInt32.toNat_inj.1 (Int.ofNat_inj.1 h0))
      refine ⟨uint (x / y), uint (x % y), uint (x / y * y), ?_, ?_, rfl, ?_, ?_⟩
      · rw [div?, arithmetic?, if_neg hy]
      · rw [mod?, if_neg hy]
      · rw [add?, arithmetic?, UInt32.div_mul_add_mod]
      · apply isRemainder_of_tmod rfl rfl _ hy'
        rw [integer?, UInt32.toNat_mod, Int.ofNat_tmod]
    | _ => cases hkind

end Scalar

namespace Constant

variable {a b q : Constant}

theorem SizesMatch.of_matchedTy (hs : a.SizesMatch b) (hq : q.ty = a.matchedTy b) :
    q.SizesMatch b := by
  have hsize := size_of_matchedTy hq
  by_cases h1 : a.size = 1
  · rw [if_pos h1] at hsize
    exact .inl hsize
  · rw [if_neg h1] at hsize
    rcases hs with hs | hs | hs
    · exact .inl (hsize.trans hs)
    · exact (h1 hs).elim
    · exact .inr (.inr hs)

theorem matchedTy_of_matchedTy (hq : q.ty = a.matchedTy b) : q.matchedTy b = a.matchedTy b := by
  have hsize := size_of_matchedTy hq
  rw [matchedTy, hq]
  apply if_neg
  intro hone
  by_cases h1 : a.size = 1
  · rw [if_pos h1] at hsize
    exact hone.2 (hsize.symm.trans hone.1)
  · rw [if_neg h1] at hsize
    exact h1 (hsize.symm.trans hone.1)

end Constant

namespace BinaryOp

open Constant

variable {a b q r m s : Constant} {k : Kind}

theorem supports_integers (hk : k.isInteger = true) :
    ∀ op ∈ [add, mul, div, mod], op.supports k k = true := by
  cases k <;> cases hk <;> decide

theorem exists_division (hk : k.isInteger = true) (ha : a.ty.kind = k) (hb : b.ty.kind = k)
    (hs : a.SizesMatch b) :
    ∃ q r m s, div.fold a b = .ok q ∧ mod.fold a b = .ok r ∧ mul.fold q b = .ok m ∧
      add.fold m r = .ok s ∧ r.ty = a.matchedTy b ∧ s.ty = a.matchedTy b := by
  have hsup := supports_integers hk
  have hkind {c : Constant} (hc : c.ty = a.matchedTy b) : c.ty.kind = k := by
    rw [hc, kind_matchedTy ha hb]
  obtain ⟨q, hq, hqty⟩ := JoinsOneKind.div.exists_folded_of_kind hs (hsup div (by decide)) ha hb
  obtain ⟨r, hr, hrty⟩ := JoinsOneKind.mod.exists_folded_of_kind hs (hsup mod (by decide)) ha hb
  obtain ⟨m, hm, hmty⟩ := JoinsOneKind.mul.exists_folded_of_kind (hs.of_matchedTy hqty)
    (hsup mul (by decide)) (hkind hqty) hb
  rw [matchedTy_of_matchedTy hqty] at hmty
  have hmr : m.size = r.size := size_congr (hmty.trans hrty.symm)
  obtain ⟨s, hs', hsty⟩ :=
    JoinsOneKind.add.exists_folded_of_kind (.inl hmr) (hsup add (by decide))
    (hkind hmty) (hkind hrty)
  have hsame : m.matchedTy r = m.ty := if_neg fun hone => hone.2 (hmr ▸ hone.1)
  exact ⟨q, r, m, s, hq, hr, hm, hs', hrty, hsty.trans (hsame.trans hmty)⟩

theorem leaves_of_division (hq : div.fold a b = .ok q) (hr : mod.fold a b = .ok r)
    (hm : mul.fold q b = .ok m) (hs : add.fold m r = .ok s) {i : Nat} {u v : Scalar}
    (hu : a.broadcast? i = some u) (hv : b.broadcast? i = some v) (hkind : u.kind = v.kind)
    (hk : u.kind.isInteger = true) (hz : v.isZero = false) :
    s.broadcast? i = some u ∧ ∃ w, r.broadcast? i = some w ∧ Scalar.IsRemainder u v w := by
  obtain ⟨x, w, y, hx, hw, hy, hsum, hrem⟩ := Scalar.exists_div?_mod? hkind hk hz
  have hx' : q.broadcast? i = some x := (broadcast?_of_folded rfl hq hu hv).trans hx
  have hw' : r.broadcast? i = some w := (broadcast?_of_folded rfl hr hu hv).trans hw
  have hy' : m.broadcast? i = some y := (broadcast?_of_folded rfl hm hx' hv).trans hy
  exact ⟨(broadcast?_of_folded rfl hs hy' hw').trans hsum, w, hw', hrem⟩

/-- Integers are divided with remainder on whole operands, where no divisor is zero: the quotient
times the divisor and the remainder add up to the dividend at every index. -/
theorem div_mul_add_mod_folded (hk : k.isInteger = true) (ha : a.ty.kind = k) (hb : b.ty.kind = k)
    (hs : a.SizesMatch b) (hz : ∀ v ∈ b.values, v.isZero = false) :
    ∃ q r m s, div.fold a b = .ok q ∧ mod.fold a b = .ok r ∧ mul.fold q b = .ok m ∧
      add.fold m r = .ok s ∧ r.ty = a.matchedTy b ∧ s.ty = a.matchedTy b ∧
      ∀ i < (a.matchedTy b).size, ∃ u v w, a.broadcast? i = some u ∧ b.broadcast? i = some v ∧
        s.values[i]? = some u ∧ r.values[i]? = some w ∧ Scalar.IsRemainder u v w := by
  obtain ⟨q, r, m, s, hq, hr, hm, hsum, hrty, hsty⟩ := exists_division hk ha hb hs
  refine ⟨q, r, m, s, hq, hr, hm, hsum, hrty, hsty, ?_⟩
  intro i hi
  have hstruct : k ≠ .struct := by
    rintro rfl
    cases hk
  obtain ⟨u, v, hu, hv⟩ := hs.exists_pair hi
  have hku : u.kind = k := kind_of_broadcast? hstruct ha hu
  have hkv : v.kind = k := kind_of_broadcast? hstruct hb hv
  obtain ⟨hsu, w, hw, hrem⟩ := leaves_of_division hq hr hm hsum hu hv (hku.trans hkv.symm)
    (hku.symm ▸ hk) (hz v (mem_of_broadcast? hv))
  rw [broadcast?_of_lt (by rwa [← size_ty, hsty])] at hsu
  rw [broadcast?_of_lt (by rwa [← size_ty, hrty])] at hw
  exact ⟨u, v, w, hu, hv, hsu, hw, hrem⟩

theorem div_mul_add_mod_folded_least :
    let least : Constant := .scalar (.int (-2147483648)) .dummy
    let divisors : Constant := ⟨.vector .int 3, [.int (-1), .int 3, .int (-7)], .dummy, rfl⟩
    ∃ q r m s, div.fold least divisors = .ok q ∧ mod.fold least divisors = .ok r ∧
      mul.fold q divisors = .ok m ∧ add.fold m r = .ok s ∧
      r.ty = divisors.ty ∧ s.ty = divisors.ty ∧
      ∀ i < 3, ∃ u v w, least.broadcast? i = some u ∧ divisors.broadcast? i = some v ∧
        s.values[i]? = some u ∧ r.values[i]? = some w ∧ Scalar.IsRemainder u v w := by
  intro least divisors
  exact div_mul_add_mod_folded rfl rfl rfl (.inr (.inl rfl)) (by decide)

example : div.fold (.scalar (.int (-2147483648)) .dummy) (.scalar (.int (-1)) .dummy) =
    .ok (.scalar (.int (-2147483648)) .dummy) := by
  decide +kernel

end BinaryOp

end ShaderFold
