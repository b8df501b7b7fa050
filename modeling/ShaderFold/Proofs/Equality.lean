import ShaderFold.Proofs.Construction
import ShaderFold.Proofs.Elementwise

namespace ShaderFold

section Comparison

variable {op : BinaryOp} {left right : Constant}

theorem broadcastEqual_cons (op : BinaryOp) {i : Nat} {a b : Scalar}
    (ha : left.broadcast i = .ok a) (hb : right.broadcast i = .ok b) (rest : List Nat) :
    broadcastEqual op left right (i :: rest) =
      if a.kind = b.kind then
        if a.equal b then broadcastEqual op left right rest else .ok false
      else .error (.unsupported (.binary op) a.kind) := by
  rw [broadcastEqual, ha, hb, ← ite_not]
  rfl

theorem broadcastEqual_range' (op : BinaryOp) (hty : left.ty = right.ty)
    (hk : left.ty.kind ≠ .struct) {m s : Nat} (hm : s + m = left.size) :
    broadcastEqual op left right (List.range' s m) =
      .ok (equalLeaves (left.values.drop s) (right.values.drop s)) := by
  have hsize : left.size = right.size := Constant.size_congr hty
  induction m generalizing s with
  | zero =>
    have hl : left.values.length ≤ s := Nat.le_of_eq hm.symm
    have hr : right.values.length ≤ s := Nat.le_of_eq (hsize.symm.trans hm.symm)
    rw [List.drop_eq_nil_of_le hl, List.drop_eq_nil_of_le hr]
    rfl
  | succ m ih =>
    have hl : s < left.values.length := by rw [← Constant.size]; omega
    have hr : s < right.values.length := by rw [← Constant.size]; omega
    have ha : left.broadcast s = .ok left.values[s] := by
      rw [Constant.broadcast_eq_ok_iff, Constant.broadcast?_of_lt hl, List.getElem?_eq_getElem hl]
    have hb : right.broadcast s = .ok right.values[s] := by
      rw [Constant.broadcast_eq_ok_iff, Constant.broadcast?_of_lt hr, List.getElem?_eq_getElem hr]
    have hkinds : left.values[s].kind = right.values[s].kind := by
      rw [Constant.kind_of_broadcast hk ha, Constant.kind_of_broadcast (hty ▸ hk) hb, hty]
    rw [List.range'_succ, broadcastEqual_cons op ha hb, if_pos hkinds, ih (by omega),
      List.drop_eq_getElem_cons hl, List.drop_eq_getElem_cons hr, equalLeaves]
    cases left.values[s].equal right.values[s] <;> rfl

theorem constantsEqual_of_sizesMatch (op : BinaryOp) (hk : left.ty.kind ≠ .struct)
    (hs : left.SizesMatch right) :
    constantsEqual op left right =
      broadcastEqual op left right (List.range' 0 (left.matchedTy right).size) := by
  rw [constantsEqual, if_neg hk, hs.broadcastTy_eq, ← List.range_eq_range']
  rfl

theorem constantsEqual_of_not_sizesMatch (op : BinaryOp) (hk : left.ty.kind ≠ .struct)
    (hs : ¬left.SizesMatch right) :
    constantsEqual op left right =
      .error (.malformed (.binary op) (.sizes left.size right.size)) := by
  rw [constantsEqual, if_neg hk, Constant.broadcastTy_of_not_sizesMatch hs]
  rfl

theorem constantsEqual_of_ty_ne (op : BinaryOp) (hk : left.ty.kind = .struct)
    (hty : left.ty ≠ right.ty) :
    constantsEqual op left right =
      .error (.malformed (.binary op) (.incomparable left.ty right.ty)) := by
  rw [constantsEqual, if_pos hk, if_neg hty]

/-- Constants of one type are equal if their leaves are, whether the type is walked along or not.
-/
theorem constantsEqual_of_ty_eq (op : BinaryOp) (h : left.ty = right.ty) :
    constantsEqual op left right = .ok (equalLeaves left.values right.values) := by
  by_cases hk : left.ty.kind = .struct
  · rw [constantsEqual, if_pos hk, if_pos h]
    exact Ty.valuesEqual_of_length _ _ _ left.size_ty.symm (h ▸ right.size_ty.symm)
  · have hsize : left.size = right.size := Constant.size_congr h
    have hty : left.matchedTy right = left.ty := if_neg (by omega)
    rw [constantsEqual_of_sizesMatch op hk (.inl hsize), hty, left.size_ty,
      broadcastEqual_range' op h hk (Nat.zero_add _), List.drop_zero, List.drop_zero]

def BinaryOp.asserts (op : BinaryOp) (same : Bool) : Bool :=
  if op = .equal then same else !same

theorem BinaryOp.fold_comparison (hop : op = .equal ∨ op = .notEqual) (left right : Constant) :
    op.fold left right =
      (constantsEqual op left right).map fun same =>
        .scalar (.bool (op.asserts same)) left.span := by
  rcases hop with rfl | rfl <;> rfl

theorem BinaryOp.fold_of_ty_eq (hop : op = .equal ∨ op = .notEqual) (h : left.ty = right.ty) :
    op.fold left right =
      .ok (.scalar (.bool (op.asserts (equalLeaves left.values right.values))) left.span) := by
  rw [fold_comparison hop, constantsEqual_of_ty_eq op h]
  rfl

end Comparison

section Members

variable {members : List (Member Ty)} {as bs : List Constant}

theorem exists_verdicts (h : as.map Constant.ty = bs.map Constant.ty) :
    ∃ verdicts : List Bool,
      List.Forall₂
        (fun p same => BinaryOp.equal.fold p.1 p.2 = .ok (.scalar (.bool same) p.1.span))
        (as.zip bs) verdicts ∧
      equalLeaves (as.flatMap Constant.values) (bs.flatMap Constant.values) =
        verdicts.all id := by
  have hall := forall₂_of_map_eq h
  clear h
  induction hall with
  | nil => exact ⟨[], .nil, rfl⟩
  | cons hty _ ih =>
    obtain ⟨verdicts, hverdicts, hrest⟩ := ih
    refine ⟨_, .cons (BinaryOp.fold_of_ty_eq (.inl rfl) hty) hverdicts, ?_⟩
    rw [List.flatMap_cons, List.flatMap_cons, equalLeaves_append (Constant.size_congr hty), hrest]
    rfl

/-- Structures made of their members hold the leaves of these at the places of the members, and
are equal exactly if all members are. -/
theorem Ty.construct_equal_memberwise (hm : members ≠ [])
    (ha : as.map Constant.ty = members.map Member.ty)
    (hb : bs.map Constant.ty = members.map Member.ty) (span span' : Span) :
    ∃ s t, (struct members).construct as span = .ok s ∧
      (struct members).construct bs span' = .ok t ∧
      s.ty = struct members ∧ t.ty = struct members ∧
      List.Forall₂ (fun p a => (s.values.drop p.1).take p.2.ty.size = Constant.values a)
        (struct members).memberOffsets as ∧
      ∃ verdicts : List Bool,
        List.Forall₂
          (fun p same => BinaryOp.equal.fold p.1 p.2 = .ok (.scalar (.bool same) p.1.span))
          (as.zip bs) verdicts ∧
        BinaryOp.equal.fold s t = .ok (.scalar (.bool (verdicts.all id)) span) ∧
        BinaryOp.notEqual.fold s t = .ok (.scalar (.bool !(verdicts.all id)) span) := by
  obtain ⟨verdicts, hverdicts, hall⟩ := exists_verdicts (ha.trans hb.symm)
  refine ⟨_, _, construct_struct hm ha span, construct_struct hm hb span', rfl, rfl,
    leaves_at_offsetsFrom ha [], verdicts, hverdicts, ?_, ?_⟩
  · rw [← hall]
    exact BinaryOp.fold_of_ty_eq (.inl rfl) rfl
  · rw [← hall]
    exact BinaryOp.fold_of_ty_eq (.inr rfl) rfl

theorem Ty.construct_equal_memberwise_layers :
    let layers : Ty := array (struct [⟨"weight", scalar .int⟩]) 2
    let members : List (Member Ty) := [⟨"id", scalar .uint⟩, ⟨"layers", layers⟩]
    let id : Constant := .scalar (.uint 7) .dummy
    let old : Constant := ⟨layers, [.int 1, .int 2], .dummy, rfl⟩
    let new : Constant := ⟨layers, [.int 1, .int 3], .dummy, rfl⟩
    ∃ s t, (struct members).construct [id, old] .dummy = .ok s ∧
      (struct members).construct [id, new] .dummy = .ok t ∧
      List.Forall₂ (fun p a => (s.values.drop p.1).take p.2.ty.size = Constant.values a)
        (struct members).memberOffsets [id, old] ∧
      BinaryOp.equal.fold id id = .ok (.scalar (.bool true) .dummy) ∧
      BinaryOp.equal.fold old new = .ok (.scalar (.bool false) .dummy) ∧
      BinaryOp.equal.fold s t = .ok (.scalar (.bool false) .dummy) ∧
      BinaryOp.notEqual.fold s t = .ok (.scalar (.bool true) .dummy) := by
  intro layers members id old new
  have hid : BinaryOp.equal.fold id id = .ok (.scalar (.bool true) .dummy) :=
    BinaryOp.fold_of_ty_eq (.inl rfl) rfl
  have hlayers : BinaryOp.equal.fold old new = .ok (.scalar (.bool false) .dummy) :=
    BinaryOp.fold_of_ty_eq (.inl rfl) rfl
  have hold : [id, old].map Constant.ty = members.map Member.ty := rfl
  have hnew : [id, new].map Constant.ty = members.map Member.ty := rfl
  obtain ⟨s, t, hs, ht, _, _, hleaves, verdicts, hverdicts, hequal, hnotEqual⟩ :=
    Ty.construct_equal_memberwise (List.cons_ne_nil _ _) hold hnew .dummy .dummy
  obtain ⟨v, vs, hv, hvs, rfl⟩ := List.forall₂_cons_left_iff.1 hverdicts
  obtain ⟨w, ws, hw, hws, rfl⟩ := List.forall₂_cons_left_iff.1 hvs
  obtain rfl := List.forall₂_nil_left_iff.1 hws
  cases hid.symm.trans hv
  cases hlayers.symm.trans hw
  exact ⟨s, t, hs, ht, hleaves, hid, hlayers, hequal, hnotEqual⟩

end Members

/-- Operands are answered alike on either side: with the same truth value, or with none. -/
def BinaryOp.SideIndependent (op : BinaryOp) (a b : Constant) : Prop :=
  (∃ same, op.fold a b = .ok (.scalar (.bool same) a.span) ∧
    op.fold b a = .ok (.scalar (.bool same) b.span)) ∨
  ∃ failure failure', op.fold a b = .error failure ∧ op.fold b a = .error failure'

namespace Constant

def KindsDifferAt (left right : Constant) (i : Nat) : Prop :=
  ∃ a b, left.broadcast? i = some a ∧ right.broadcast? i = some b ∧ a.kind ≠ b.kind

def ValuesDifferAt (left right : Constant) (i : Nat) : Prop :=
  ∃ a b, left.broadcast? i = some a ∧ right.broadcast? i = some b ∧ a.kind = b.kind ∧
    a.equal b = false

/-- The leaves can be compared one by one up to the first that differ: leaves of different kinds
only stand behind such. -/
def LeafwiseComparable (left right : Constant) : Prop :=
  left.SizesMatch right ∧
    ∀ i < (left.matchedTy right).size,
      left.KindsDifferAt right i → ∃ j < i, left.ValuesDifferAt right j

variable {left right : Constant} {i : Nat}

theorem kindsDifferAt_iff {a b : Scalar} (ha : left.broadcast? i = some a)
    (hb : right.broadcast? i = some b) : left.KindsDifferAt right i ↔ a.kind ≠ b.kind := by
  simp [KindsDifferAt, ha, hb]

theorem valuesDifferAt_iff {a b : Scalar} (ha : left.broadcast? i = some a)
    (hb : right.broadcast? i = some b) :
    left.ValuesDifferAt right i ↔ a.kind = b.kind ∧ a.equal b = false := by
  simp [ValuesDifferAt, ha, hb]

theorem KindsDifferAt.symm (h : left.KindsDifferAt right i) : right.KindsDifferAt left i := by
  obtain ⟨a, b, ha, hb, hab⟩ := h
  exact ⟨b, a, hb, ha, hab.symm⟩

theorem ValuesDifferAt.symm (h : left.ValuesDifferAt right i) : right.ValuesDifferAt left i := by
  obtain ⟨a, b, ha, hb, hk, hab⟩ := h
  exact ⟨b, a, hb, ha, hk.symm, Scalar.equal_comm b a ▸ hab⟩

theorem LeafwiseComparable.symm (h : left.LeafwiseComparable right) :
    right.LeafwiseComparable left := by
  obtain ⟨hs, hi⟩ := h
  refine ⟨hs.symm, ?_⟩
  intro i hlt hk
  obtain ⟨j, hj, hv⟩ := hi i (hs.size_matchedTy_comm ▸ hlt) hk.symm
  exact ⟨j, hj, hv.symm⟩

end Constant

section Sides

variable {op : BinaryOp} {left right : Constant}

theorem broadcastEqual_swap {indices : List Nat} {same : Bool}
    (h : broadcastEqual op left right indices = .ok same) :
    broadcastEqual op right left indices = .ok same := by
  induction indices with
  | nil => exact h
  | cons i rest ih =>
    cases hl : left.broadcast i with
    | error failure =>
      rw [broadcastEqual, hl] at h
      cases h
    | ok v =>
      cases hr : right.broadcast i with
      | error failure =>
        rw [broadcastEqual, hl, hr] at h
        cases h
      | ok w =>
        rw [broadcastEqual_cons op hl hr] at h
        rw [broadcastEqual_cons op hr hl, Scalar.equal_comm]
        split at h
        · rename_i hk
          rw [if_pos hk.symm]
          split at h
          · rename_i heq
            rw [if_pos heq]
            exact ih h
          · rename_i hne
            rw [if_neg hne]
            exact h
        · cases h

theorem exists_broadcastEqual_cons_iff (op : BinaryOp) {i : Nat} {a b : Scalar}
    (ha : left.broadcast? i = some a) (hb : right.broadcast? i = some b) (rest : List Nat) :
    (∃ same, broadcastEqual op left right (i :: rest) = .ok same) ↔
      ¬left.KindsDifferAt right i ∧
        (left.ValuesDifferAt right i ∨ ∃ same, broadcastEqual op left right rest = .ok same) := by
  rw [broadcastEqual_cons op (Constant.broadcast_eq_ok_iff.2 ha)
      (Constant.broadcast_eq_ok_iff.2 hb),
    Constant.kindsDifferAt_iff ha hb, Constant.valuesDifferAt_iff ha hb]
  by_cases hk : a.kind = b.kind
  · by_cases heq : a.equal b = true
    · simp [hk, heq]
    · simp [hk, heq]
  · simp [hk]

theorem exists_broadcastEqual_range'_iff (op : BinaryOp) {m s : Nat} (hl : left.Covers (s + m))
    (hr : right.Covers (s + m)) :
    (∃ same, broadcastEqual op left right (List.range' s m) = .ok same) ↔
      ∀ i, s ≤ i → i < s + m → left.KindsDifferAt right i →
        ∃ j, s ≤ j ∧ j < i ∧ left.ValuesDifferAt right j := by
  induction m generalizing s with
  | zero =>
    refine ⟨?_, fun _ => ⟨true, rfl⟩⟩
    intro _ i hsi his
    omega
  | succ m ih =>
    have hlt : s < s + (m + 1) := by omega
    obtain ⟨a, ha⟩ := Constant.exists_broadcast? hl hlt
    obtain ⟨b, hb⟩ := Constant.exists_broadcast? hr hlt
    have hshift : s + (m + 1) = s + 1 + m := by omega
    rw [hshift] at hl hr hlt ⊢
    rw [List.range'_succ, exists_broadcastEqual_cons_iff op ha hb, ih hl hr]
    constructor
    · rintro ⟨hkinds, hstop⟩ i hsi hi hd
      have hne : i ≠ s := by
        rintro rfl
        exact hkinds hd
      rcases hstop with hv | hnext
      · exact ⟨s, Nat.le_refl s, by omega, hv⟩
      · obtain ⟨j, hj, hji, hv⟩ := hnext i (by omega) hi hd
        exact ⟨j, by omega, hji, hv⟩
    · intro h
      constructor
      · intro hd
        obtain ⟨j, hj, hjs, _⟩ := h s (Nat.le_refl s) hlt hd
        omega
      · by_cases hv : left.ValuesDifferAt right s
        · exact .inl hv
        · -- Nothing has differed at `s`, so what differs first stands behind it.
          right
          intro i hsi hi hd
          obtain ⟨j, hj, hji, hvj⟩ := h i (by omega) hi hd
          have hne : j ≠ s := by
            rintro rfl
            exact hv hvj
          exact ⟨j, by omega, hji, hvj⟩

theorem exists_constantsEqual_iff (op : BinaryOp) (hk : left.ty.kind ≠ .struct) :
    (∃ same, constantsEqual op left right = .ok same) ↔ left.LeafwiseComparable right := by
  by_cases hs : left.SizesMatch right
  · obtain ⟨hl, hr⟩ := covers_of_broadcastTy (hs.broadcastTy_eq op)
    rw [← Nat.zero_add (left.matchedTy right).size] at hl hr
    rw [constantsEqual_of_sizesMatch op hk hs, exists_broadcastEqual_range'_iff op hl hr]
    simp only [Constant.LeafwiseComparable, hs, true_and, Nat.zero_le, true_implies, Nat.zero_add]
  · rw [constantsEqual_of_not_sizesMatch op hk hs]
    constructor
    · rintro ⟨same, h⟩
      cases h
    · intro h
      exact absurd h.1 hs

theorem equalLeaves_comm (xs ys : List Scalar) : equalLeaves xs ys = equalLeaves ys xs := by
  induction xs generalizing ys with
  | nil => cases ys <;> rfl
  | cons x xs ih =>
    cases ys with
    | nil => rfl
    | cons y ys => rw [equalLeaves, equalLeaves, Scalar.equal_comm, ih]

theorem constantsEqual_swap (hs : left.ty.kind = .struct ↔ right.ty.kind = .struct) {same : Bool}
    (h : constantsEqual op left right = .ok same) : constantsEqual op right left = .ok same := by
  by_cases hk : left.ty.kind = .struct
  · by_cases hty : left.ty = right.ty
    · rw [constantsEqual_of_ty_eq op hty, equalLeaves_comm] at h
      rw [constantsEqual_of_ty_eq op hty.symm, h]
    · rw [constantsEqual_of_ty_ne op hk hty] at h
      cases h
  · by_cases hm : left.SizesMatch right
    · rw [constantsEqual_of_sizesMatch op hk hm, hm.size_matchedTy_comm] at h
      rw [constantsEqual_of_sizesMatch op (mt hs.2 hk) hm.symm]
      exact broadcastEqual_swap h
    · rw [constantsEqual_of_not_sizesMatch op hk hm] at h
      cases h

end Sides

namespace BinaryOp

variable {op : BinaryOp} {a b : Constant}

theorem SideIndependent.symm (h : op.SideIndependent a b) : op.SideIndependent b a := by
  rcases h with ⟨same, hab, hba⟩ | ⟨failure, failure', hab, hba⟩
  · exact .inl ⟨same, hba, hab⟩
  · exact .inr ⟨failure', failure, hba, hab⟩

theorem sideIndependent_of_swap (hop : op = .equal ∨ op = .notEqual)
    (h : ∀ same, constantsEqual op a b = .ok same ↔ constantsEqual op b a = .ok same) :
    op.SideIndependent a b := by
  cases hab : constantsEqual op a b with
  | ok same =>
    refine .inl ⟨op.asserts same, ?_, ?_⟩
    · rw [fold_comparison hop, hab]
      rfl
    · rw [fold_comparison hop, (h same).1 hab]
      rfl
  | error failure =>
    cases hba : constantsEqual op b a with
    | ok same => cases hab.symm.trans ((h same).2 hba)
    | error failure' =>
      refine .inr ⟨failure, failure', ?_, ?_⟩
      · rw [fold_comparison hop, hab]
        rfl
      · rw [fold_comparison hop, hba]
        rfl

/-- A structure is only ever compared with constants of its own type, but anything may be compared
with a structure. -/
theorem sideIndependent_struct_iff (hop : op = .equal ∨ op = .notEqual) (ha : a.ty.kind = .struct)
    (hb : b.ty.kind ≠ .struct) : op.SideIndependent a b ↔ ¬a.LeafwiseComparable b := by
  have hty : a.ty ≠ b.ty := fun h => hb (h ▸ ha)
  have hab := constantsEqual_of_ty_ne op ha hty
  have hba : (∃ same, constantsEqual op b a = .ok same) ↔ b.LeafwiseComparable a :=
    exists_constantsEqual_iff op hb
  constructor
  · rintro (⟨same, hfold, _⟩ | ⟨_, failure, _, hfold⟩) hc
    · rw [fold_comparison hop, hab] at hfold
      cases hfold
    · obtain ⟨same, hsame⟩ := hba.2 hc.symm
      rw [fold_comparison hop, hsame] at hfold
      cases hfold
  · intro hc
    apply sideIndependent_of_swap hop
    intro same
    rw [hab]
    constructor
    · intro h
      cases h
    · intro h
      exact absurd (hba.1 ⟨same, h⟩).symm hc

/-- Equality does not depend on the sides of its operands, unless one of them is a structure, the
other is none and their leaves can be compared. -/
theorem equality_sideIndependent_iff (hop : op = .equal ∨ op = .notEqual) (a b : Constant) :
    op.SideIndependent a b ↔
      (a.ty.kind = .struct ↔ b.ty.kind = .struct) ∨ ¬a.LeafwiseComparable b := by
  by_cases hs : a.ty.kind = .struct ↔ b.ty.kind = .struct
  · refine iff_of_true ?_ (.inl hs)
    apply sideIndependent_of_swap hop
    intro same
    exact ⟨constantsEqual_swap hs, constantsEqual_swap hs.symm⟩
  · rw [or_iff_right hs]
    by_cases ha : a.ty.kind = .struct
    · have hb : b.ty.kind ≠ .struct := fun hb => hs (iff_of_true ha hb)
      exact sideIndependent_struct_iff hop ha hb
    · have hb : b.ty.kind = .struct := Classical.byContradiction fun hb => hs (iff_of_false ha hb)
      have h := sideIndependent_struct_iff hop hb ha
      constructor
      · intro hi hc
        exact h.1 hi.symm hc.symm
      · intro hc
        exact (h.2 fun hc' => hc hc'.symm).symm

theorem equality_sideIndependent_iff_splat :
    let pair : Constant := ⟨.vector .int 2, [.int 3, .int 3], .dummy, rfl⟩
    let three : Constant := .scalar (.int 3) .dummy
    BinaryOp.notEqual.SideIndependent pair three := by
  intro pair three
  exact (equality_sideIndependent_iff (.inr rfl) pair three).2 (.inl (by decide))

theorem equality_not_sideIndependent_wrapped :
    let one : Constant := .scalar (.int 1) .dummy
    let wrapped : Constant := ⟨.struct [⟨"x", .scalar .int⟩], [.int 1], .dummy, rfl⟩
    BinaryOp.equal.fold one wrapped = .ok (.scalar (.bool true) .dummy) ∧
      BinaryOp.equal.fold wrapped one =
        .error (.malformed (.binary .equal) (.incomparable wrapped.ty one.ty)) ∧
      ¬BinaryOp.equal.SideIndependent one wrapped := by
  intro one wrapped
  have hone : BinaryOp.equal.fold one wrapped = .ok (.scalar (.bool true) .dummy) := rfl
  have hwrapped : BinaryOp.equal.fold wrapped one =
      .error (.malformed (.binary .equal) (.incomparable wrapped.ty one.ty)) := rfl
  refine ⟨hone, hwrapped, ?_⟩
  rintro (⟨same, _, h⟩ | ⟨failure, _, h, _⟩)
  · cases hwrapped.symm.trans h
  · cases hone.symm.trans h

end BinaryOp

end ShaderFold
