import ShaderFold.Proofs.Elementwise
import ShaderFold.Proofs.Foldability

namespace ShaderFold

inductive BinaryOp.IsShift : BinaryOp → (Scalar → Scalar → Option Scalar) → Prop
  | left : IsShift .shiftLeft Scalar.shiftLeft?
  | right : IsShift .shiftRight Scalar.shiftRight?

/-- The leaves are integers, all of one kind. -/
structure Constant.IntegersOf (c : Constant) (k : Kind) : Prop where
  isInteger : k.isInteger = true
  kind_eq : ∀ v ∈ c.values, v.kind = k

theorem Constant.result_of_kind_ne (op : Operator) {ty : Ty} {values : List Scalar} {k l : Kind}
    {ks ls : List Kind} (hty : ty.leafKinds = l :: ls)
    (hvalues : values.map Scalar.kind = k :: ks) (hlen : values.length = ty.size) (h : k ≠ l)
    (span : Span) :
    result op ty values span = .error (.malformed op (.layout (.kind 0 l k))) := by
  have hfind : LayoutMismatch.find? ty values = some (.kind 0 l k) := by
    rw [LayoutMismatch.find?, if_pos hlen, hty]
    cases values with
    | nil => cases hvalues
    | cons v values =>
      obtain rfl : v.kind = k := List.head_eq_of_cons_eq hvalues
      rw [LayoutMismatch.firstKind?, if_neg h]
  rw [result, ofValues_of_find?_eq_some hfind]

section Shift

variable {op : BinaryOp} {rule : Scalar → Scalar → Option Scalar} {left right : Constant}
  {k l : Kind}

theorem BinaryOp.IsShift.onLeaves?_eq (h : op.IsShift rule) : op.onLeaves? = some rule := by
  cases h <;> rfl

theorem BinaryOp.IsShift.supports_integers (h : op.IsShift rule) (hk : k.isInteger = true)
    (hl : l.isInteger = true) : op.supports k l = true := by
  cases h <;> simp [BinaryOp.supports, hk, hl]

theorem BinaryOp.IsShift.exists_joined (hop : op.IsShift rule) (hl : left.IntegersOf k)
    (hr : right.IntegersOf l) (hs : left.SizesMatch right) {i : Nat}
    (hi : i < (left.matchedTy right).size) :
    ∃ v, Constant.Joined rule left right i v := by
  apply hs.exists_joined hop.onLeaves?_eq hi
  intro a b ha hb
  have hka : a.kind = k := hl.kind_eq a (Constant.mem_of_broadcast? ha)
  have hkb : b.kind = l := hr.kind_eq b (Constant.mem_of_broadcast? hb)
  rw [hka, hkb]
  exact hop.supports_integers hl.isInteger hr.isInteger

theorem BinaryOp.IsShift.kind_of_joined (hop : op.IsShift rule) (hl : left.IntegersOf k) {i : Nat}
    {v : Scalar} (h : Constant.Joined rule left right i v) : v.kind = k := by
  obtain ⟨a, b, ha, _, hv⟩ := h
  rw [BinaryOp.kind_of_onLeaves? hop.onLeaves?_eq hv]
  exact hl.kind_eq a (Constant.mem_of_broadcast? ha)

/-- A shift gives a leaf of the kind of the left operand at every index, whatever type the result
is then given. -/
theorem BinaryOp.IsShift.exists_values (hop : op.IsShift rule) (hl : left.IntegersOf k)
    (hr : right.IntegersOf l) (hs : left.SizesMatch right) :
    ∃ values, values.map Scalar.kind = List.replicate (left.matchedTy right).size k ∧
      (∀ i < (left.matchedTy right).size,
        ∃ v, Constant.Joined rule left right i v ∧ values[i]? = some v) ∧
      op.fold left right =
        Constant.result (.binary op) (left.matchedTy right) values left.span := by
  obtain ⟨values, hlen, hvalues, hfold⟩ := exists_elementwise op hs fun i hi =>
    hop.exists_joined hl hr hs hi
  refine ⟨values, ?_, hvalues, ?_⟩
  · refine List.eq_replicate_iff.2 ⟨by rw [List.length_map, hlen], ?_⟩
    intro k' hk'
    obtain ⟨v, hv, rfl⟩ := List.mem_map.1 hk'
    obtain ⟨i, hi, hget⟩ := List.getElem_of_mem hv
    obtain ⟨w, hw, hwi⟩ := hvalues i (hlen ▸ hi)
    rw [List.getElem?_eq_getElem hi, hget] at hwi
    cases hwi
    exact hop.kind_of_joined hl hw
  · rw [BinaryOp.fold_of_onLeaves? hop.onLeaves?_eq, hfold]

theorem BinaryOp.IsShift.refused (hop : op.IsShift rule) (hl : left.IntegersOf k)
    (hr : right.IntegersOf l) (h1 : left.size = 1) (hlt : 1 < right.size) (hne : k ≠ l) :
    op.fold left right = .error (.malformed (.binary op) (.layout (.kind 0 l k))) := by
  obtain ⟨values, hkinds, _, hfold⟩ := hop.exists_values hl hr (.inr (.inl h1))
  have hty : left.matchedTy right = right.ty := if_pos ⟨h1, by omega⟩
  have hamounts := Constant.leafKinds_of_kinds hr.kind_eq
  obtain ⟨n, hn⟩ : ∃ n, right.size = n + 1 := ⟨right.size - 1, by omega⟩
  rw [hty, Constant.size_ty, hn, List.replicate_succ] at hkinds
  rw [hn, List.replicate_succ] at hamounts
  have hlen : values.length = right.ty.size := by
    rw [← List.length_map (f := Scalar.kind), hkinds, ← Ty.length_leafKinds, hamounts,
      List.length_cons, List.length_cons, List.length_replicate, List.length_replicate]
  rw [hfold, hty]
  exact Constant.result_of_kind_ne _ hamounts hkinds hlen hne _

theorem Constant.leafKinds_matchedTy (hl : left.IntegersOf k) (hr : right.IntegersOf l)
    (h : left.size = 1 → right.size ≠ 1 → k = l) :
    (left.matchedTy right).leafKinds = List.replicate (left.matchedTy right).size k := by
  by_cases hone : left.size = 1 ∧ right.size ≠ 1
  · rw [matchedTy, if_pos hone, size_ty, leafKinds_of_kinds hr.kind_eq, h hone.1 hone.2]
  · rw [matchedTy, if_neg hone, size_ty, leafKinds_of_kinds hl.kind_eq]

theorem BinaryOp.IsShift.exists_folded (hop : op.IsShift rule) (hl : left.IntegersOf k)
    (hr : right.IntegersOf l) (hs : left.SizesMatch right)
    (h : left.size = 1 → right.size ≠ 1 → k = l) :
    ∃ c, op.fold left right = .ok c ∧ c.size = (left.matchedTy right).size ∧
      ∀ i < c.size, ∃ v, Constant.Joined rule left right i v ∧ c.values[i]? = some v := by
  obtain ⟨values, hkinds, hvalues, hfold⟩ := hop.exists_values hl hr hs
  have hfits := hkinds.trans (Constant.leafKinds_matchedTy hl hr h).symm
  have hlen : values.length = (left.matchedTy right).size := by
    rw [← List.length_map (f := Scalar.kind), hkinds, List.length_replicate]
  refine ⟨_, hfold.trans (Constant.result_of_fits _ hfits _), hlen, ?_⟩
  intro i hi
  exact hvalues i (hlen ▸ hi)

/-- Integers are shifted leaf by leaf and keep their kind, except that a single integer cannot be
shifted by several amounts of the other kind. -/
theorem BinaryOp.shift_folds_iff (hop : op.IsShift rule) (hl : left.IntegersOf k)
    (hr : right.IntegersOf l) (hl1 : 1 ≤ left.size) (hr1 : 1 ≤ right.size)
    (hs : left.SizesMatch right) :
    ((∃ c, op.fold left right = .ok c ∧ c.size = max left.size right.size ∧
        ∀ i < c.size, ∃ a b v, left.broadcast? i = some a ∧ right.broadcast? i = some b ∧
          rule a b = some v ∧ c.values[i]? = some v ∧ v.kind = k) ↔
      (left.size = 1 → 1 < right.size → k = l)) ∧
    (left.size = 1 → 1 < right.size → k ≠ l →
      op.fold left right = .error (.malformed (.binary op) (.layout (.kind 0 l k)))) := by
  refine ⟨⟨?_, ?_⟩, hop.refused hl hr⟩
  · rintro ⟨c, hc, _⟩ h1 hlt
    by_contra hne
    cases hc.symm.trans (hop.refused hl hr h1 hlt hne)
  · intro hkl
    have hmax : (left.matchedTy right).size = max left.size right.size := by
      rw [Constant.size_matchedTy]
      rcases hs with h | h | h <;> split <;> omega
    obtain ⟨c, hc, hsize, hleaves⟩ := hop.exists_folded hl hr hs fun h1 hne => hkl h1 (by omega)
    refine ⟨c, hc, hsize.trans hmax, ?_⟩
    intro i hi
    obtain ⟨v, hv, hget⟩ := hleaves i hi
    have hkind := hop.kind_of_joined hl hv
    obtain ⟨a, b, ha, hb, hab⟩ := hv
    exact ⟨a, b, v, ha, hb, hab, hget, hkind⟩

theorem BinaryOp.shift_folds_iff_signed_amount :
    let flags : Constant := ⟨.array (.scalar .uint) 3, [.uint 1, .uint 2, .uint 3], .dummy, rfl⟩
    let amount : Constant := .scalar (.int (-31)) .dummy
    ∃ c, BinaryOp.shiftLeft.fold flags amount = .ok c ∧ c.size = 3 ∧
      ∀ i < c.size, ∃ a b v, flags.broadcast? i = some a ∧ amount.broadcast? i = some b ∧
        Scalar.shiftLeft? a b = some v ∧ c.values[i]? = some v ∧ v.kind = .uint := by
  intro flags amount
  have hflags : flags.IntegersOf .uint := ⟨rfl, by decide⟩
  have hamount : amount.IntegersOf .int := ⟨rfl, by decide⟩
  have h :=
    BinaryOp.shift_folds_iff .left hflags hamount (by decide) (by decide) (.inr (.inr rfl))
  exact h.1.2 (by decide)

theorem BinaryOp.shift_not_folded_unsigned_amounts :
    let one : Constant := .scalar (.int 1) .dummy
    let amounts : Constant := ⟨.vector .uint 2, [.uint 1, .uint 2], .dummy, rfl⟩
    one.IntegersOf .int ∧ amounts.IntegersOf .uint ∧ one.SizesMatch amounts ∧
      BinaryOp.shiftLeft.fold one amounts =
        .error (.malformed (.binary .shiftLeft) (.layout (.kind 0 .uint .int))) :=
  ⟨⟨rfl, by decide⟩, ⟨rfl, by decide⟩, .inr (.inl rfl), rfl⟩

end Shift

end ShaderFold
