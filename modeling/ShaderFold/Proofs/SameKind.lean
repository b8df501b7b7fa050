import ShaderFold.Proofs.Elementwise
import ShaderFold.Proofs.Foldability

namespace ShaderFold

namespace Constant

variable {rule : Scalar → Scalar → Option Scalar} {left right : Constant} {i : Nat} {a v : Scalar}

/-- There is no rule for the leaves that stand at an index, the left one of which is `a`. -/
def Unjoined (rule : Scalar → Scalar → Option Scalar) (left right : Constant) (i : Nat)
    (a : Scalar) : Prop :=
  ∃ b, left.broadcast? i = some a ∧ right.broadcast? i = some b ∧ rule a b = none

theorem SizesMatch.joined_or_unjoined (hs : left.SizesMatch right)
    (rule : Scalar → Scalar → Option Scalar) (hi : i < (left.matchedTy right).size) :
    (∃ v, Joined rule left right i v) ∨ ∃ a, Unjoined rule left right i a := by
  obtain ⟨a, b, ha, hb⟩ := hs.exists_pair hi
  cases hv : rule a b with
  | none => exact .inr ⟨a, b, ha, hb, hv⟩
  | some v => exact .inl ⟨v, a, b, ha, hb, hv⟩

theorem SizesMatch.exists_unjoined_of_error (hs : left.SizesMatch right)
    (hi : i < (left.matchedTy right).size) {op : BinaryOp} {failure : Failure}
    (h : joinAt op rule left right i = .error failure) :
    ∃ a, Unjoined rule left right i a ∧ failure = .unsupported (.binary op) a.kind := by
  obtain ⟨a, b, ha, hb⟩ := hs.exists_pair hi
  rw [joinAt_of_broadcast? ha hb] at h
  obtain ⟨hnone, rfl⟩ := orFail_eq_error_iff.1 h
  exact ⟨a, ⟨b, ha, hb, hnone⟩, rfl⟩

theorem Joined.not_unjoined (hv : Joined rule left right i v) :
    ¬Unjoined rule left right i a := by
  rintro ⟨b, ha, hb, hnone⟩
  obtain ⟨a', b', ha', hb', hv⟩ := hv
  cases ha.symm.trans ha'
  cases hb.symm.trans hb'
  cases hnone.symm.trans hv

theorem map_kind_eq_leafKinds {c : Constant} {values : List Scalar}
    (hlen : values.length = c.size)
    (h : ∀ i < c.size, ∃ v w, values[i]? = some v ∧ c.values[i]? = some w ∧ v.kind = w.kind) :
    values.map Scalar.kind = c.ty.leafKinds := by
  rw [← c.fits]
  apply List.ext_getElem?
  intro i
  rw [List.getElem?_map, List.getElem?_map]
  by_cases hi : i < c.size
  · obtain ⟨v, w, hv, hw, hkind⟩ := h i hi
    rw [hv, hw]
    exact congrArg some hkind
  · have hle : c.values.length ≤ i := Nat.le_of_not_lt hi
    rw [List.getElem?_eq_none (hlen ▸ hle), List.getElem?_eq_none hle]

end Constant

namespace BinaryOp

open Constant

/-- The operators that act leaf by leaf on leaves of one kind, with what they do to two leaves.
Only shifts take leaves of two kinds. -/
inductive JoinsOneKind : BinaryOp → (Scalar → Scalar → Option Scalar) → Prop
  | add : JoinsOneKind add Scalar.add?
  | sub : JoinsOneKind sub Scalar.sub?
  | mul : JoinsOneKind mul Scalar.mul?
  | vectorTimesScalar : JoinsOneKind vectorTimesScalar Scalar.mul?
  | matrixTimesScalar : JoinsOneKind matrixTimesScalar Scalar.mul?
  | div : JoinsOneKind div Scalar.div?
  | mod : JoinsOneKind mod Scalar.mod?
  | bitAnd : JoinsOneKind bitAnd Scalar.bitAnd?
  | bitOr : JoinsOneKind bitOr Scalar.bitOr?
  | bitXor : JoinsOneKind bitXor Scalar.bitXor?
  | logicalAnd : JoinsOneKind logicalAnd Scalar.logicalAnd?
  | logicalOr : JoinsOneKind logicalOr Scalar.logicalOr?
  | logicalXor : JoinsOneKind logicalXor Scalar.logicalXor?

variable {op : BinaryOp} {rule : Scalar → Scalar → Option Scalar} {left right : Constant}

theorem JoinsOneKind.onLeaves?_eq (h : op.JoinsOneKind rule) : op.onLeaves? = some rule := by
  cases h <;> rfl

theorem JoinsOneKind.kind_eq (h : op.JoinsOneKind rule) {k l : Kind}
    (hk : op.supports k l = true) : k = l := by
  cases h <;> exact of_decide_eq_true (Bool.and_eq_true_iff.1 hk).1

theorem JoinsOneKind.kinds_of_joined (h : op.JoinsOneKind rule) {i : Nat} {v : Scalar}
    (hv : Joined rule left right i v) :
    ∃ a b, left.broadcast? i = some a ∧ right.broadcast? i = some b ∧ v.kind = a.kind ∧
      v.kind = b.kind := by
  obtain ⟨a, b, ha, hb, hab⟩ := hv
  have hka : v.kind = a.kind := kind_of_onLeaves? h.onLeaves?_eq hab
  have hsup := supports_of_onLeaves? h.onLeaves?_eq hab
  exact ⟨a, b, ha, hb, hka, hka.trans (h.kind_eq hsup)⟩

theorem JoinsOneKind.exists_matched (h : op.JoinsOneKind rule) (left right : Constant) :
    ∃ c : Constant, left.matchedTy right = c.ty ∧
      ∀ i < c.size, ∀ v, Joined rule left right i v →
        ∃ w, c.values[i]? = some w ∧ v.kind = w.kind := by
  by_cases hone : left.size = 1 ∧ right.size ≠ 1
  · refine ⟨right, if_pos hone, ?_⟩
    intro i hi v hv
    obtain ⟨_, b, _, hb, _, hkb⟩ := h.kinds_of_joined hv
    exact ⟨b, by rw [← broadcast?_of_lt hi, hb], hkb⟩
  · refine ⟨left, if_neg hone, ?_⟩
    intro i hi v hv
    obtain ⟨a, _, ha, _, hka, _⟩ := h.kinds_of_joined hv
    exact ⟨a, by rw [← broadcast?_of_lt hi, ha], hka⟩

theorem JoinsOneKind.fits_of_joined (h : op.JoinsOneKind rule) {values : List Scalar}
    (hlen : values.length = (left.matchedTy right).size)
    (hv : ∀ i < (left.matchedTy right).size,
      ∃ v, Joined rule left right i v ∧ values[i]? = some v) :
    values.map Scalar.kind = (left.matchedTy right).leafKinds := by
  obtain ⟨c, hty, hc⟩ := h.exists_matched left right
  rw [hty, size_ty] at hlen hv
  rw [hty]
  apply map_kind_eq_leafKinds hlen
  intro i hi
  obtain ⟨v, hjoined, hget⟩ := hv i hi
  obtain ⟨w, hw, hkind⟩ := hc i hi v hjoined
  exact ⟨v, w, hget, hw, hkind⟩

theorem JoinsOneKind.exists_folded (h : op.JoinsOneKind rule) (hs : left.SizesMatch right)
    (hv : ∀ i < (left.matchedTy right).size, ∃ v, Joined rule left right i v) :
    ∃ c, op.fold left right = .ok c ∧ c.ty = left.matchedTy right ∧ c.span = left.span ∧
      ∀ i < (left.matchedTy right).size,
        ∃ v, Joined rule left right i v ∧ c.values[i]? = some v := by
  obtain ⟨values, hlen, hvalues, hfold⟩ := exists_elementwise op hs hv
  refine ⟨⟨_, values, left.span, h.fits_of_joined hlen hvalues⟩, ?_, rfl, rfl, hvalues⟩
  rw [fold_of_onLeaves? h.onLeaves?_eq, hfold]
  exact result_of_fits _ _ _

theorem JoinsOneKind.exists_folded_of_kind (h : op.JoinsOneKind rule) (hs : left.SizesMatch right)
    {k : Kind} (hk : op.supports k k = true) (hl : left.ty.kind = k) (hr : right.ty.kind = k) :
    ∃ c, op.fold left right = .ok c ∧ c.ty = left.matchedTy right := by
  have hstruct : k ≠ .struct := by
    rintro rfl
    cases op <;> cases hk
  have hv : ∀ i < (left.matchedTy right).size, ∃ v, Joined rule left right i v := by
    intro i hi
    apply hs.exists_joined h.onLeaves?_eq hi
    intro a b ha hb
    rw [kind_of_broadcast? hstruct hl ha, kind_of_broadcast? hstruct hr hb, hk]
  obtain ⟨c, hc, hty, _⟩ := h.exists_folded hs hv
  exact ⟨c, hc, hty⟩

/-- The first pair of leaves without a rule decides the failure. -/
theorem exists_unjoined_of_not_joined (h : op.onLeaves? = some rule) (hs : left.SizesMatch right)
    (hv : ¬∀ i < (left.matchedTy right).size, ∃ v, Joined rule left right i v) :
    ∃ i < (left.matchedTy right).size, ∃ a, Unjoined rule left right i a ∧
      (∀ j < i, ∃ v, Joined rule left right j v) ∧
      op.fold left right = .error (.unsupported (.binary op) a.kind) := by
  rw [fold_of_onLeaves? h, elementwise_of_sizesMatch op rule hs]
  cases hvalues : (List.range (left.matchedTy right).size).mapM (joinAt op rule left right) with
  | ok values =>
    refine (hv ?_).elim
    intro i hi
    obtain ⟨v, hi', _⟩ := exists_getElem?_of_mapM_range hvalues hi
    exact ⟨v, joinAt_eq_ok_iff.1 hi'⟩
  | error failure =>
    obtain ⟨i, x, hx, hfail, hfirst⟩ := exists_first_of_mapM_eq_error hvalues
    obtain ⟨hi, rfl⟩ := List.getElem?_eq_some_iff.1 hx
    rw [List.getElem_range] at hfail
    rw [List.length_range] at hi
    obtain ⟨a, ha, rfl⟩ := hs.exists_unjoined_of_error hi hfail
    refine ⟨i, hi, a, ha, ?_, rfl⟩
    intro j hj
    obtain ⟨v, hv⟩ := hfirst j hj j (List.getElem?_range (Nat.lt_trans hj hi))
    exact ⟨v, joinAt_eq_ok_iff.1 hv⟩

theorem fold_of_not_sizesMatch (h : op.onLeaves? = some rule) (hs : ¬left.SizesMatch right) :
    op.fold left right = .error (.malformed (.binary op) (.sizes left.size right.size)) := by
  rw [fold_of_onLeaves? h, elementwise, broadcastTy_of_not_sizesMatch hs]
  rfl

theorem JoinsOneKind.fold_ne_layout (h : op.JoinsOneKind rule) (left right : Constant)
    (mismatch : LayoutMismatch) :
    op.fold left right ≠ .error (.malformed (.binary op) (.layout mismatch)) := by
  intro hlayout
  by_cases hs : left.SizesMatch right
  · by_cases hv : ∀ i < (left.matchedTy right).size, ∃ v, Joined rule left right i v
    · obtain ⟨c, hc, _⟩ := h.exists_folded hs hv
      cases hlayout.symm.trans hc
    · obtain ⟨_, _, _, _, _, hfail⟩ := exists_unjoined_of_not_joined h.onLeaves?_eq hs hv
      cases hlayout.symm.trans hfail
  · cases hlayout.symm.trans (fold_of_not_sizesMatch h.onLeaves?_eq hs)

/-- An operator between leaves of one kind refuses operands whose sizes do not go together.
Otherwise it joins the leaves at every index if it has a rule for all of them, and names the kind
of the first for which it has none; the result always fits its type. -/
theorem fold_leaf_by_leaf (h : op.JoinsOneKind rule) (left right : Constant) :
    (¬left.SizesMatch right →
      op.fold left right = .error (.malformed (.binary op) (.sizes left.size right.size))) ∧
    (left.SizesMatch right →
      (∀ i < (left.matchedTy right).size,
        (∃ v, Joined rule left right i v) ∨ ∃ a, Unjoined rule left right i a) ∧
      ((∃ c, op.fold left right = .ok c) ↔
        ∀ i < (left.matchedTy right).size, ∃ v, Joined rule left right i v) ∧
      (∀ c, op.fold left right = .ok c →
        c.ty = left.matchedTy right ∧ c.span = left.span ∧
        ∀ i < (left.matchedTy right).size,
          ∃ v, Joined rule left right i v ∧ c.values[i]? = some v) ∧
      ((∃ i < (left.matchedTy right).size, ∃ a, Unjoined rule left right i a) →
        ∃ i < (left.matchedTy right).size, ∃ a, Unjoined rule left right i a ∧
          (∀ j < i, ∃ v, Joined rule left right j v) ∧
          op.fold left right = .error (.unsupported (.binary op) a.kind))) ∧
    ∀ mismatch, op.fold left right ≠ .error (.malformed (.binary op) (.layout mismatch)) := by
  have hrule := h.onLeaves?_eq
  refine ⟨fold_of_not_sizesMatch hrule, ?_, h.fold_ne_layout left right⟩
  intro hs
  have hresult : ∀ c, op.fold left right = .ok c →
      c.ty = left.matchedTy right ∧ c.span = left.span ∧
      ∀ i < (left.matchedTy right).size,
        ∃ v, Joined rule left right i v ∧ c.values[i]? = some v := by
    intro c hc
    obtain ⟨_, hty, hspan, hleaves⟩ := leaves_of_folded hrule hc
    rw [← size_ty, hty] at hleaves
    exact ⟨hty, hspan, hleaves⟩
  refine ⟨fun i hi => hs.joined_or_unjoined rule hi, ⟨?_, ?_⟩, hresult, ?_⟩
  · rintro ⟨c, hc⟩ i hi
    obtain ⟨_, _, hleaves⟩ := hresult c hc
    obtain ⟨v, hv, _⟩ := hleaves i hi
    exact ⟨v, hv⟩
  · intro hv
    obtain ⟨c, hc, _⟩ := h.exists_folded hs hv
    exact ⟨c, hc⟩
  · rintro ⟨i, hi, a, ha⟩
    apply exists_unjoined_of_not_joined hrule hs
    intro hv
    obtain ⟨v, hv⟩ := hv i hi
    exact hv.not_unjoined ha

theorem fold_leaf_by_leaf_structure :
    let two : Constant := .scalar (.int 2) .dummy
    let sizes : Constant :=
      ⟨.struct [⟨"depth", .scalar .int⟩, ⟨"area", .vector .int 2⟩],
        [.int 3, .int 4, .int 5], .dummy, rfl⟩
    ∃ c, mul.fold two sizes = .ok c ∧ c.ty = sizes.ty ∧ c.span = two.span ∧
      ∀ i < 3, ∃ v, Joined Scalar.mul? two sizes i v ∧ c.values[i]? = some v := by
  intro two sizes
  obtain ⟨_, hmatch, _⟩ := fold_leaf_by_leaf .mul two sizes
  obtain ⟨_, hfolds, hresult, _⟩ := hmatch (.inr (.inl rfl))
  obtain ⟨c, hc⟩ := hfolds.2 fun i hi =>
    match i, hi with
    | 0, _ | 1, _ | 2, _ => ⟨_, _, _, rfl, rfl, rfl⟩
  exact ⟨c, hc, hresult c hc⟩

-- The second leaf of the structure is not an integer.
example : mul.fold (.scalar (.int 2) .dummy)
    ⟨.struct [⟨"depth", .scalar .int⟩, ⟨"scale", .scalar .float⟩],
      [.int 3, .float 1], .dummy, rfl⟩ =
      .error (.unsupported (.binary .mul) .int) := by
  decide +kernel

end BinaryOp

end ShaderFold
