import ShaderFold.Proofs.Kinds
import ShaderFold.Proofs.LeafAccess

namespace ShaderFold

theorem mapM_eq_ok_iff {α β : Type} {f : α → Except Failure β} {xs : List α} {ys : List β} :
    xs.mapM f = .ok ys ↔ List.Forall₂ (fun x y => f x = .ok y) xs ys := by
  induction xs generalizing ys with
  | nil => cases ys <;> simp [pure, Except.pure]
  | cons x xs ih =>
    rw [List.mapM_cons, List.forall₂_cons_left_iff]
    constructor
    · intro h
      cases hx : f x with
      | error failure => rw [hx] at h; cases h
      | ok y =>
        cases hxs : xs.mapM f with
        | error failure => rw [hx, hxs] at h; cases h
        | ok zs =>
          rw [hx, hxs] at h
          cases h
          exact ⟨y, zs, rfl, ih.1 hxs, rfl⟩
    · rintro ⟨y, zs, hy, hzs, rfl⟩
      rw [hy, ih.2 hzs]
      rfl

theorem exists_getElem?_of_mapM {α β : Type} {f : α → Except Failure β} {xs : List α}
    {ys : List β} (h : xs.mapM f = .ok ys) {i : Nat} {x : α} (hx : xs[i]? = some x) :
    ∃ y, f x = .ok y ∧ ys[i]? = some y :=
  exists_getElem?_of_forall₂ (mapM_eq_ok_iff.1 h) hx

theorem exists_getElem?_of_mapM_range {β : Type} {f : Nat → Except Failure β} {n : Nat}
    {ys : List β} (h : (List.range n).mapM f = .ok ys) {i : Nat} (hi : i < n) :
    ∃ y, f i = .ok y ∧ ys[i]? = some y :=
  exists_getElem?_of_mapM h (List.getElem?_range hi)

theorem exists_first_of_mapM_eq_error {α β : Type} {f : α → Except Failure β} {xs : List α}
    {failure : Failure} (h : xs.mapM f = .error failure) :
    ∃ (i : Nat) (x : α), xs[i]? = some x ∧ f x = .error failure ∧
      ∀ j < i, ∀ y, xs[j]? = some y → ∃ b, f y = .ok b := by
  induction xs with
  | nil => cases h
  | cons x xs ih =>
    rw [List.mapM_cons] at h
    cases hx : f x with
    | error failure' =>
      rw [hx] at h
      cases h
      exact ⟨0, x, rfl, hx, fun j hj => (Nat.not_lt_zero j hj).elim⟩
    | ok b =>
      cases hxs : xs.mapM f with
      | ok bs =>
        rw [hx, hxs] at h
        cases h
      | error failure' =>
        rw [hx, hxs] at h
        cases h
        obtain ⟨i, y, hy, hfail, hfirst⟩ := ih hxs
        refine ⟨i + 1, y, hy, hfail, ?_⟩
        intro j hj z hz
        cases j with
        | zero =>
          cases hz
          exact ⟨b, hx⟩
        | succ j => exact hfirst j (Nat.lt_of_succ_lt_succ hj) z hz

namespace Constant

variable {left right : Constant}

/-- The operands have equally many leaves, or one of them has a single leaf. -/
def SizesMatch (left right : Constant) : Prop :=
  left.size = right.size ∨ left.size = 1 ∨ right.size = 1

/-- The type that matched operands have together. -/
def matchedTy (left right : Constant) : Ty :=
  if left.size = 1 ∧ right.size ≠ 1 then right.ty else left.ty

theorem SizesMatch.symm (h : left.SizesMatch right) : right.SizesMatch left := by
  rcases h with h | h | h
  · exact .inl h.symm
  · exact .inr (.inr h)
  · exact .inr (.inl h)

theorem size_matchedTy (left right : Constant) :
    (left.matchedTy right).size = if left.size = 1 then right.size else left.size := by
  unfold matchedTy
  split <;> simp only [size_ty] <;> split <;> omega

theorem size_of_matchedTy {c : Constant} (h : c.ty = left.matchedTy right) :
    c.size = if left.size = 1 then right.size else left.size := by
  rw [← size_ty, h, size_matchedTy]

theorem kind_matchedTy {k : Kind} (hl : left.ty.kind = k) (hr : right.ty.kind = k) :
    (left.matchedTy right).kind = k := by
  rw [matchedTy]
  split
  · exact hr
  · exact hl

theorem SizesMatch.size_matchedTy_comm (h : left.SizesMatch right) :
    (left.matchedTy right).size = (right.matchedTy left).size := by
  rw [size_matchedTy, size_matchedTy]
  by_cases hl : left.size = 1
  · by_cases hr : right.size = 1
    · rw [hl, hr]
    · rw [if_pos hl, if_neg hr]
  · by_cases hr : right.size = 1
    · rw [if_neg hl, if_pos hr]
    · rw [if_neg hl, if_neg hr]
      exact h.resolve_right (not_or.2 ⟨hl, hr⟩)

theorem SizesMatch.broadcastTy_eq (h : left.SizesMatch right) (op : BinaryOp) :
    broadcastTy op left right = .ok (left.matchedTy right) := by
  unfold broadcastTy matchedTy
  by_cases hs : left.size = right.size
  · rw [if_pos hs, if_neg (by omega)]
  · by_cases h1 : left.size = 1
    · rw [if_neg hs, if_pos h1, if_pos (by omega)]
    · have hr : right.size = 1 := (h.resolve_left hs).resolve_left h1
      rw [if_neg hs, if_neg h1, if_pos hr, if_neg (by omega)]

theorem broadcastTy_of_not_sizesMatch (h : ¬left.SizesMatch right) (op : BinaryOp) :
    broadcastTy op left right =
      .error (.malformed (.binary op) (.sizes left.size right.size)) := by
  obtain ⟨hs, h1, hr⟩ : left.size ≠ right.size ∧ left.size ≠ 1 ∧ right.size ≠ 1 := by
    simpa only [SizesMatch, not_or] using h
  rw [broadcastTy, if_neg hs, if_neg h1, if_neg hr]

/-- A rule makes a value of the leaves that stand at an index. -/
def Joined (rule : Scalar → Scalar → Option Scalar) (left right : Constant) (i : Nat)
    (v : Scalar) : Prop :=
  ∃ a b, left.broadcast? i = some a ∧ right.broadcast? i = some b ∧ rule a b = some v

theorem SizesMatch.exists_pair (hs : left.SizesMatch right) {i : Nat}
    (hi : i < (left.matchedTy right).size) :
    ∃ a b, left.broadcast? i = some a ∧ right.broadcast? i = some b := by
  obtain ⟨hl, hr⟩ := covers_of_broadcastTy (hs.broadcastTy_eq .add)
  obtain ⟨a, ha⟩ := exists_broadcast? hl hi
  obtain ⟨b, hb⟩ := exists_broadcast? hr hi
  exact ⟨a, b, ha, hb⟩

theorem SizesMatch.exists_joined (hs : left.SizesMatch right) {op : BinaryOp}
    {rule : Scalar → Scalar → Option Scalar} (h : op.onLeaves? = some rule) {i : Nat}
    (hi : i < (left.matchedTy right).size)
    (hsup : ∀ a b, left.broadcast? i = some a → right.broadcast? i = some b →
      op.supports a.kind b.kind = true) :
    ∃ v, Joined rule left right i v := by
  obtain ⟨a, b, ha, hb⟩ := hs.exists_pair hi
  obtain ⟨v, hv, _⟩ := BinaryOp.exists_of_supports h (hsup a b ha hb)
  exact ⟨v, a, b, ha, hb, hv⟩

end Constant

theorem BinaryOp.fold_of_onLeaves? {op : BinaryOp} {rule : Scalar → Scalar → Option Scalar}
    (h : op.onLeaves? = some rule) (left right : Constant) :
    op.fold left right = elementwise op rule left right := by
  unfold BinaryOp.fold
  rw [h]

section Join

variable {op : BinaryOp} {rule : Scalar → Scalar → Option Scalar} {left right : Constant}

def joinAt (op : BinaryOp) (rule : Scalar → Scalar → Option Scalar) (left right : Constant)
    (i : Nat) : Except Failure Scalar := do
  let a ← left.broadcast i
  let b ← right.broadcast i
  orFail (rule a b) (.unsupported (.binary op) a.kind)

theorem joinAt_of_broadcast? {i : Nat} {a b : Scalar} (ha : left.broadcast? i = some a)
    (hb : right.broadcast? i = some b) :
    joinAt op rule left right i = orFail (rule a b) (.unsupported (.binary op) a.kind) := by
  rw [joinAt, Constant.broadcast_eq_ok_iff.2 ha, Constant.broadcast_eq_ok_iff.2 hb]
  rfl

theorem joinAt_eq_ok_iff {i : Nat} {v : Scalar} :
    joinAt op rule left right i = .ok v ↔ Constant.Joined rule left right i v := by
  constructor
  · intro h
    unfold joinAt at h
    cases ha : left.broadcast i with
    | error failure => rw [ha] at h; cases h
    | ok a =>
      cases hb : right.broadcast i with
      | error failure => rw [ha, hb] at h; cases h
      | ok b =>
        rw [ha, hb] at h
        exact ⟨a, b, Constant.broadcast_eq_ok_iff.1 ha, Constant.broadcast_eq_ok_iff.1 hb,
          orFail_eq_ok_iff.1 h⟩
  · rintro ⟨a, b, ha, hb, hab⟩
    rw [joinAt_of_broadcast? ha hb]
    exact orFail_eq_ok_iff.2 hab

theorem elementwise_of_sizesMatch (op : BinaryOp) (rule : Scalar → Scalar → Option Scalar)
    (hs : left.SizesMatch right) : elementwise op rule left right = (do
      let values ← (List.range (left.matchedTy right).size).mapM (joinAt op rule left right)
      Constant.result (.binary op) (left.matchedTy right) values left.span) := by
  rw [elementwise, hs.broadcastTy_eq]
  rfl

theorem exists_elementwise (op : BinaryOp) (hs : left.SizesMatch right)
    (h : ∀ i < (left.matchedTy right).size, ∃ v, Constant.Joined rule left right i v) :
    ∃ values, values.length = (left.matchedTy right).size ∧
      (∀ i < (left.matchedTy right).size,
        ∃ v, Constant.Joined rule left right i v ∧ values[i]? = some v) ∧
      elementwise op rule left right =
        Constant.result (.binary op) (left.matchedTy right) values left.span := by
  obtain ⟨values, hvalues, hlen⟩ := exists_mapM_range fun i hi =>
    let ⟨v, hv⟩ := h i hi
    ⟨v, joinAt_eq_ok_iff.2 hv⟩
  refine ⟨values, hlen, ?_, ?_⟩
  · intro i hi
    obtain ⟨v, hv, hget⟩ := exists_getElem?_of_mapM_range hvalues hi
    exact ⟨v, joinAt_eq_ok_iff.1 hv, hget⟩
  · rw [elementwise_of_sizesMatch op rule hs, hvalues]
    rfl

theorem BinaryOp.leaves_of_folded (h : op.onLeaves? = some rule) {c : Constant}
    (hc : op.fold left right = .ok c) :
    left.SizesMatch right ∧ c.ty = left.matchedTy right ∧ c.span = left.span ∧
      ∀ i < c.size, ∃ v, Constant.Joined rule left right i v ∧ c.values[i]? = some v := by
  rw [fold_of_onLeaves? h] at hc
  by_cases hs : left.SizesMatch right
  · rw [elementwise_of_sizesMatch op rule hs] at hc
    obtain ⟨values, hvalues, hc⟩ := bind_eq_ok_iff.1 hc
    obtain ⟨hty, rfl, hspan⟩ := Constant.result_eq_ok_iff.1 hc
    refine ⟨hs, hty, hspan, ?_⟩
    intro i hi
    rw [← Constant.size_ty, hty] at hi
    obtain ⟨v, hv, hget⟩ := exists_getElem?_of_mapM_range hvalues hi
    exact ⟨v, joinAt_eq_ok_iff.1 hv, hget⟩
  · rw [elementwise, Constant.broadcastTy_of_not_sizesMatch hs] at hc
    cases hc

/-- Folding and matching with a larger operand can be done in either order. -/
theorem BinaryOp.broadcast?_of_folded (h : op.onLeaves? = some rule) {c : Constant}
    (hc : op.fold left right = .ok c) {i : Nat} {a b : Scalar} (ha : left.broadcast? i = some a)
    (hb : right.broadcast? i = some b) : c.broadcast? i = rule a b := by
  obtain ⟨_, hty, _, hleaves⟩ := leaves_of_folded h hc
  have hsize := Constant.size_of_matchedTy hty
  -- A single leaf of the result is made of the single leaves of both operands.
  have hread (j : Nat) (hj : j < c.size) (hl : left.broadcast? j = left.broadcast? i)
      (hr : right.broadcast? j = right.broadcast? i) : c.values[j]? = rule a b := by
    obtain ⟨v, ⟨a', b', ha', hb', hv⟩, hget⟩ := hleaves j hj
    cases ha'.symm.trans (hl.trans ha)
    cases hb'.symm.trans (hr.trans hb)
    exact hget.trans hv.symm
  by_cases h1 : c.size = 1
  · have hl : left.size = 1 := by
      by_contra hl
      rw [if_neg hl] at hsize
      exact hl (hsize.symm.trans h1)
    have hr : right.size = 1 := by rw [← h1, hsize, if_pos hl]
    rw [Constant.broadcast?, if_pos h1]
    apply hread 0 (by omega)
    · exact Constant.broadcast?_of_size_one hl 0 i
    · exact Constant.broadcast?_of_size_one hr 0 i
  · have hi : i < c.size := by
      by_cases hl : left.size = 1
      · rw [if_pos hl] at hsize
        rw [hsize] at h1 ⊢
        exact Constant.lt_size_of_broadcast? h1 hb
      · rw [if_neg hl] at hsize
        rw [hsize]
        exact Constant.lt_size_of_broadcast? hl ha
    rw [Constant.broadcast?, if_neg h1]
    exact hread i hi rfl rfl

end Join

end ShaderFold
