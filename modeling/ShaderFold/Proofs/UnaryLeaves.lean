import ShaderFold.Proofs.Elementwise
import ShaderFold.Proofs.Foldability

namespace ShaderFold.UnaryOp

variable {op : UnaryOp} {k : Kind} {v : Scalar} {operand : Constant} {resultTy : Ty}
  {place : Span}

/-- Operators that are folded without a look at the operand as a whole. -/
structure ActsOnLeaves (op : UnaryOp) : Prop where
  folded : op.isNeverFolded = false
  ne_length : op ≠ .length
  ne_normalize : op ≠ .normalize

def resultSize (op : UnaryOp) (operand : Constant) : Nat :=
  if op = .length then 1 else operand.size

theorem resultSize_eq (h : op.isNeverFolded = false) (operand : Constant) :
    (if op.isReduction then 1 else operand.size) = op.resultSize operand := by
  cases op <;> cases h <;> rfl

theorem fold_of_isNeverFolded (h : op.isNeverFolded = true) (operand : Constant) (resultTy : Ty) :
    op.fold operand resultTy = .error (.unsupported (.unary op) operand.ty.kind) := by
  rw [fold, if_pos h]

theorem fold_of_size_ne (h : op.isNeverFolded = false)
    (hs : resultTy.size ≠ op.resultSize operand) :
    op.fold operand resultTy =
      .error (.malformed (.unary op) (.resultSize resultTy (op.resultSize operand))) := by
  rw [fold, resultSize_eq h, if_neg (ne_true_of_eq_false h), if_pos hs]

def atLeaf (op : UnaryOp) (k : Kind) (v : Scalar) : Except Failure Scalar :=
  orFail (op.onLeaf? k v) (.unsupported (.unary op) v.kind)

theorem ActsOnLeaves.values_eq (h : op.ActsOnLeaves) (operand : Constant) (k : Kind) :
    op.values operand k = operand.values.mapM (op.atLeaf k) := by
  rw [values.eq_def]
  split
  · exact (h.ne_length rfl).elim
  · exact (h.ne_normalize rfl).elim
  · rfl

theorem ActsOnLeaves.fold_eq (h : op.ActsOnLeaves) (hs : resultTy.size = operand.size) :
    op.fold operand resultTy = (do
      let values ← operand.values.mapM (op.atLeaf resultTy.kind)
      Constant.result (.unary op) resultTy values operand.span) := by
  have hsize : op.resultSize operand = operand.size := if_neg h.ne_length
  rw [fold, resultSize_eq h.folded, if_neg (ne_true_of_eq_false h.folded), hsize,
    if_neg (not_not_intro hs), h.values_eq]

theorem ActsOnLeaves.fold_scalar (h : op.ActsOnLeaves) (k : Kind) (v : Scalar) (place : Span) :
    op.fold (.scalar v place) (.scalar k) = (do
      let w ← op.atLeaf k v
      Constant.result (.unary op) (.scalar k) [w] place) := by
  rw [h.fold_eq rfl]
  change (List.mapM (op.atLeaf k) [v] >>= _) = _
  rw [List.mapM_cons]
  cases op.atLeaf k v with
  | error failure => rfl
  | ok w => rfl

/-- An operator makes of a leaf one of the kind that the result asks for. -/
def Makes (op : UnaryOp) (k : Kind) (v w : Scalar) : Prop :=
  op.atLeaf k v = .ok w ∧ w.kind = k

theorem ActsOnLeaves.fold_scalar_eq_ok_iff (h : op.ActsOnLeaves) {d : Constant} :
    op.fold (.scalar v place) (.scalar k) = .ok d ↔
      ∃ w, op.Makes k v w ∧ d = .scalar w place := by
  rw [h.fold_scalar, bind_eq_ok_iff]
  constructor
  · rintro ⟨w, hw, hd⟩
    obtain ⟨hty, hvalues, rfl⟩ := Constant.result_eq_ok_iff.1 hd
    obtain ⟨w', hkind, hscalar⟩ := Constant.exists_eq_scalar hty
    rw [hscalar] at hvalues
    cases hvalues
    exact ⟨w, ⟨hw, hkind⟩, hscalar⟩
  · rintro ⟨w, ⟨hw, rfl⟩, rfl⟩
    exact ⟨w, hw, Constant.result_eq_ok_iff.2 ⟨rfl, rfl, rfl⟩⟩

theorem ActsOnLeaves.exists_fold_scalar_iff (h : op.ActsOnLeaves) :
    (∃ d, op.fold (.scalar v place) (.scalar k) = .ok d) ↔ ∃ w, op.Makes k v w := by
  constructor
  · rintro ⟨d, hd⟩
    obtain ⟨w, hw, _⟩ := h.fold_scalar_eq_ok_iff.1 hd
    exact ⟨w, hw⟩
  · rintro ⟨w, hw⟩
    exact ⟨.scalar w place, h.fold_scalar_eq_ok_iff.2 ⟨w, hw, rfl⟩⟩

/-- There is no rule for a constant of the leaf alone. -/
def Refuses (op : UnaryOp) (k : Kind) (place : Span) (v : Scalar) : Prop :=
  ∃ l, op.fold (.scalar v place) (.scalar k) = .error (.unsupported (.unary op) l)

theorem ActsOnLeaves.refuses_iff (h : op.ActsOnLeaves) :
    op.Refuses k place v ↔ op.onLeaf? k v = none := by
  rw [Refuses, h.fold_scalar, atLeaf]
  cases op.onLeaf? k v with
  | none => exact ⟨fun _ => rfl, fun _ => ⟨v.kind, rfl⟩⟩
  | some w =>
    simp only [reduceCtorEq, iff_false]
    rintro ⟨l, hl⟩
    obtain ⟨mismatch, hm⟩ := Constant.exists_mismatch_of_result hl
    cases hm

theorem ActsOnLeaves.fold_eq_ok_iff (h : op.ActsOnLeaves) (hk : resultTy.kind ≠ .struct)
    (hs : resultTy.size = operand.size) {c : Constant} :
    op.fold operand resultTy = .ok c ↔ c.ty = resultTy ∧ c.span = operand.span ∧
      List.Forall₂ (op.Makes resultTy.kind) operand.values c.values := by
  rw [h.fold_eq hs, bind_eq_ok_iff]
  constructor
  · rintro ⟨values, hvalues, hc⟩
    obtain ⟨rfl, rfl, hspan⟩ := Constant.result_eq_ok_iff.1 hc
    have hkinds : ∀ w ∈ c.values, w.kind = c.ty.kind := fun w hw => Constant.kind_of_mem hk hw
    have hleaves := (List.forall₂_and_left _ _).2
      ⟨hkinds, List.Forall₂.flip (R := fun w v => op.atLeaf _ v = .ok w)
        (mapM_eq_ok_iff.1 hvalues)⟩
    exact ⟨rfl, hspan, List.Forall₂.flip (hleaves.imp fun w v hw => ⟨hw.2, hw.1⟩)⟩
  · rintro ⟨hty, hspan, hleaves⟩
    have hvalues := mapM_eq_ok_iff.2 (hleaves.imp fun v w hw => hw.1)
    exact ⟨c.values, hvalues, Constant.result_eq_ok_iff.2 ⟨hty, rfl, hspan⟩⟩

theorem ActsOnLeaves.exists_folded_iff (h : op.ActsOnLeaves) (hk : resultTy.kind ≠ .struct)
    (hs : resultTy.size = operand.size) :
    (∃ c, op.fold operand resultTy = .ok c) ↔
      ∀ v ∈ operand.values, ∃ w, op.Makes resultTy.kind v w := by
  rw [← exists_forall₂_iff]
  constructor
  · rintro ⟨c, hc⟩
    obtain ⟨_, _, hleaves⟩ := (h.fold_eq_ok_iff hk hs).1 hc
    exact ⟨c.values, hleaves⟩
  · rintro ⟨values, hleaves⟩
    have hfits : values.map Scalar.kind = resultTy.leafKinds := by
      rw [Ty.leafKinds_eq_replicate _ hk, hs]
      exact kinds_of_forall₂ (fun _ _ hw => hw.2) hleaves
    exact ⟨⟨resultTy, values, operand.span, hfits⟩,
      (h.fold_eq_ok_iff hk hs).2 ⟨rfl, rfl, hleaves⟩⟩

theorem ActsOnLeaves.failure_cases (h : op.ActsOnLeaves) (hs : resultTy.size = operand.size)
    {failure : Failure} (hf : op.fold operand resultTy = .error failure) (place : Span) :
    (∃ (i : Nat) (v : Scalar), operand.values[i]? = some v ∧ op.Refuses resultTy.kind place v ∧
        (∀ j < i, ∀ w, operand.values[j]? = some w → ¬op.Refuses resultTy.kind place w) ∧
        failure = .unsupported (.unary op) v.kind) ∨
      (∀ v ∈ operand.values, ¬op.Refuses resultTy.kind place v) ∧
        ∃ mismatch, failure = .malformed (.unary op) (.layout mismatch) := by
  have hmade {v w : Scalar} (hw : op.atLeaf resultTy.kind v = .ok w) :
      ¬op.Refuses resultTy.kind place v := by
    rw [h.refuses_iff, orFail_eq_ok_iff.1 hw]
    nofun
  rw [h.fold_eq hs] at hf
  cases hvalues : operand.values.mapM (op.atLeaf resultTy.kind) with
  | error failure' =>
    rw [hvalues] at hf
    cases hf
    obtain ⟨i, v, hv, hfail, hfirst⟩ := exists_first_of_mapM_eq_error hvalues
    obtain ⟨hnone, rfl⟩ := orFail_eq_error_iff.1 hfail
    refine .inl ⟨i, v, hv, h.refuses_iff.2 hnone, ?_, rfl⟩
    intro j hj w hw
    obtain ⟨u, hu⟩ := hfirst j hj w hw
    exact hmade hu
  | ok values =>
    rw [hvalues] at hf
    refine .inr ⟨?_, Constant.exists_mismatch_of_result hf⟩
    intro v hv
    obtain ⟨w, hw⟩ := exists_forall₂_iff.1 ⟨values, mapM_eq_ok_iff.1 hvalues⟩ v hv
    exact hmade hw

/-- An operator that acts leaf by leaf is folded where it is folded for each leaf alone, and gives
the same leaves. Where it fails, the first leaf without a rule decides. Operators that are never
folded and results of the wrong size are refused before any leaf is looked at. -/
theorem fold_by_single_leaves (op : UnaryOp) (operand : Constant) (resultTy : Ty) (place : Span) :
    (op.isNeverFolded = true →
      op.fold operand resultTy = .error (.unsupported (.unary op) operand.ty.kind)) ∧
    (op.isNeverFolded = false → resultTy.size ≠ op.resultSize operand →
      op.fold operand resultTy =
        .error (.malformed (.unary op) (.resultSize resultTy (op.resultSize operand)))) ∧
    (op.ActsOnLeaves → resultTy.kind ≠ .struct → resultTy.size = operand.size →
      ((∃ c, op.fold operand resultTy = .ok c) ↔
        ∀ v ∈ operand.values, ∃ d, op.fold (.scalar v place) (.scalar resultTy.kind) = .ok d) ∧
      (∀ c, op.fold operand resultTy = .ok c → c.ty = resultTy ∧ c.span = operand.span ∧
        List.Forall₂ (fun v w => op.fold (.scalar v place) (.scalar resultTy.kind) =
          .ok (.scalar w place)) operand.values c.values) ∧
      ∀ failure, op.fold operand resultTy = .error failure →
        (∃ (i : Nat) (v : Scalar),
          operand.values[i]? = some v ∧ op.Refuses resultTy.kind place v ∧
          (∀ j < i, ∀ w, operand.values[j]? = some w → ¬op.Refuses resultTy.kind place w) ∧
          failure = .unsupported (.unary op) v.kind) ∨
        (∀ v ∈ operand.values, ¬op.Refuses resultTy.kind place v) ∧
          ∃ mismatch, failure = .malformed (.unary op) (.layout mismatch)) := by
  refine ⟨fun h => fold_of_isNeverFolded h operand resultTy, fold_of_size_ne, ?_⟩
  intro h hk hs
  refine ⟨?_, ?_, fun failure hf => h.failure_cases hs hf place⟩
  · rw [h.exists_folded_iff hk hs]
    exact forall₂_congr fun v _ => h.exists_fold_scalar_iff.symm
  · intro c hc
    obtain ⟨hty, hspan, hleaves⟩ := (h.fold_eq_ok_iff hk hs).1 hc
    exact ⟨hty, hspan, hleaves.imp fun v w hw => h.fold_scalar_eq_ok_iff.2 ⟨w, hw, rfl⟩⟩

theorem fold_by_single_leaves_mixed :
    let mixed : Constant := ⟨.struct [⟨"slope", .scalar .double⟩, ⟨"count", .scalar .int⟩],
      [.double (-2), .int 7], ⟨1, 5⟩, rfl⟩
    let signs : Ty := .vector .int 2
    sign.ActsOnLeaves ∧ ∃ c, sign.fold mixed signs = .ok c ∧ c.ty = signs ∧ c.span = ⟨1, 5⟩ ∧
      List.Forall₂
        (fun v w => sign.fold (.scalar v .dummy) (.scalar .int) = .ok (.scalar w .dummy))
        mixed.values c.values := by
  intro mixed signs
  have hop : sign.ActsOnLeaves := ⟨rfl, nofun, nofun⟩
  obtain ⟨_, _, hleaves⟩ := fold_by_single_leaves sign mixed signs .dummy
  obtain ⟨hfolds, hresult, _⟩ := hleaves hop nofun rfl
  have hslope : sign.fold (.scalar (.double (-2)) .dummy) (.scalar .int) =
      .ok (.scalar (.int (-1)) .dummy) := by decide +kernel
  have hcount : sign.fold (.scalar (.int 7) .dummy) (.scalar .int) =
      .ok (.scalar (.int 1) .dummy) := by decide +kernel
  obtain ⟨c, hc⟩ := hfolds.2 fun v hv => by
    rcases List.mem_cons.1 hv with rfl | hv
    · exact ⟨_, hslope⟩
    · obtain rfl := List.mem_singleton.1 hv
      exact ⟨_, hcount⟩
  exact ⟨hop, c, hc, hresult c hc⟩

end ShaderFold.UnaryOp
