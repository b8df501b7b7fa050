import ShaderFold.Folder
import ShaderFold.Proofs.Kinds
import ShaderFold.Proofs.LeafAccess
import ShaderFold.Proofs.StructuralEquality

namespace ShaderFold

/-- Both outcomes are the same failure, or results that look the same. -/
def Agree {α β : Type} (observe : α → β) (x y : Except Failure α) : Prop :=
  x.map observe = y.map observe

namespace Agree

variable {α β γ δ : Type} {observe : α → β}

theorem refl (x : Except Failure α) : Agree observe x x :=
  rfl

theorem ok {a b : α} (h : observe a = observe b) : Agree observe (.ok a) (.ok b) :=
  congrArg Except.ok h

theorem bind {observe' : γ → δ} {x y : Except Failure α} {f g : α → Except Failure γ}
    (h : Agree observe x y) (hf : ∀ a b, observe a = observe b → Agree observe' (f a) (g b)) :
    Agree observe' (x >>= f) (y >>= g) := by
  cases x with
  | error failure =>
    cases y with
    | error failure' =>
      cases Except.error.inj h
      rfl
    | ok b => cases h
  | ok a =>
    cases y with
    | error failure => cases h
    | ok b => exact hf a b (Except.ok.inj h)

theorem bind_self {observe' : γ → δ} (x : Except Failure α) {f g : α → Except Failure γ}
    (hf : ∀ a, Agree observe' (f a) (g a)) : Agree observe' (x >>= f) (x >>= g) := by
  cases x with
  | error failure => rfl
  | ok a => exact hf a

theorem mapM {p : α → β} {observe : γ → δ} {xs ys : List α} {f g : α → Except Failure γ}
    (h : xs.map p = ys.map p) (hf : ∀ a b, p a = p b → Agree observe (f a) (g b)) :
    Agree (List.map observe) (xs.mapM f) (ys.mapM g) := by
  have hall := forall₂_of_map_eq h
  clear h
  induction hall with
  | nil => rfl
  | cons hxy _ ih =>
    rw [List.mapM_cons, List.mapM_cons]
    apply bind (hf _ _ hxy)
    intro v w hvw
    apply bind ih
    intro vs ws hvws
    exact ok (by rw [List.map_cons, List.map_cons, hvw, hvws])

theorem orFail {found found' : Option α} {failure failure' : Failure}
    (h : found.map observe = found'.map observe) (hf : failure = failure') :
    Agree observe (orFail found failure) (orFail found' failure') := by
  subst hf
  cases found with
  | none =>
    cases found' with
    | none => rfl
    | some b => cases h
  | some a =>
    cases found' with
    | none => cases h
    | some b => exact ok (Option.some.inj h)

theorem orFail_of_isSome {found found' : Option α} {failure failure' : Failure}
    (h : found.isSome = found'.isSome) (hf : failure = failure') :
    Agree (fun _ => ()) (ShaderFold.orFail found failure)
      (ShaderFold.orFail found' failure') := by
  apply orFail _ hf
  cases found with
  | none =>
    cases found' with
    | none => rfl
    | some b => cases h
  | some a =>
    cases found' with
    | none => cases h
    | some b => rfl

theorem cases_ty {x y : Folded} (h : Agree Constant.ty x y) :
    (∃ c d, x = .ok c ∧ y = .ok d ∧ c.ty = d.ty) ∨
      ∃ failure, x = .error failure ∧ y = .error failure := by
  cases x with
  | error failure =>
    cases y with
    | error failure' =>
      cases Except.error.inj h
      exact .inr ⟨failure, rfl, rfl⟩
    | ok d => cases h
  | ok c =>
    cases y with
    | error failure => cases h
    | ok d => exact .inl ⟨c, d, rfl, rfl, Except.ok.inj h⟩

end Agree

namespace Constant

variable {c d : Constant}

theorem size_congr (h : c.ty = d.ty) : c.size = d.size := by
  rw [← size_ty, ← size_ty, h]

theorem values_ext (hs : c.size = d.size) (h : ∀ i < c.size, c.values[i]? = d.values[i]?) :
    c.values = d.values := by
  apply List.ext_getElem?
  intro i
  by_cases hi : i < c.size
  · exact h i hi
  · have hle : d.size ≤ i := by omega
    rw [List.getElem?_eq_none (Nat.le_of_not_lt hi), List.getElem?_eq_none hle]

theorem kinds_congr (h : c.ty = d.ty) : c.values.map Scalar.kind = d.values.map Scalar.kind := by
  rw [c.fits, d.fits, h]

theorem getElem?_kind_congr (h : c.ty = d.ty) (index : Nat) :
    c.values[index]?.map Scalar.kind = d.values[index]?.map Scalar.kind := by
  rw [← List.getElem?_map, ← List.getElem?_map, kinds_congr h]

theorem leaf_agree (h : c.ty = d.ty) (index : Nat) :
    Agree Scalar.kind (c.leaf index) (d.leaf index) :=
  .orFail (getElem?_kind_congr h index) (by rw [size_congr h])

theorem broadcast_agree (h : c.ty = d.ty) (index : Nat) :
    Agree Scalar.kind (c.broadcast index) (d.broadcast index) := by
  apply Agree.orFail
  · rw [broadcast?, broadcast?, size_congr h]
    split
    · exact getElem?_kind_congr h 0
    · exact getElem?_kind_congr h index
  · rw [size_congr h]

theorem ofValues_of_find?_eq_none {ty : Ty} {values : List Scalar}
    (h : LayoutMismatch.find? ty values = none) (span : Span) :
    ofValues ty values span =
      .ok ⟨ty, values, span, (LayoutMismatch.find?_eq_none_iff ty values).1 h⟩ :=
  ofValues_eq_ok_iff.2 ⟨rfl, rfl, rfl⟩

theorem ofValues_of_find?_eq_some {ty : Ty} {values : List Scalar} {mismatch : LayoutMismatch}
    (h : LayoutMismatch.find? ty values = some mismatch) (span : Span) :
    ofValues ty values span = .error mismatch := by
  unfold ofValues
  split
  · rename_i hnone
    rw [h] at hnone
    cases hnone
  · rename_i other hsome
    rw [h] at hsome
    cases hsome
    rfl

theorem result_map_ty (op : Operator) (ty : Ty) (values : List Scalar) (span : Span) :
    (result op ty values span).map Constant.ty =
      match LayoutMismatch.find? ty values with
      | none => .ok ty
      | some mismatch => .error (.malformed op (.layout mismatch)) := by
  cases h : LayoutMismatch.find? ty values with
  | none =>
    rw [result, ofValues_of_find?_eq_none h]
    rfl
  | some mismatch =>
    rw [result, ofValues_of_find?_eq_some h]
    rfl

theorem result_agree (op : Operator) (ty : Ty) {values values' : List Scalar}
    (h : values.map Scalar.kind = values'.map Scalar.kind) (span span' : Span) :
    Agree Constant.ty (result op ty values span) (result op ty values' span') := by
  rw [Agree, result_map_ty, result_map_ty, LayoutMismatch.find?_congr ty h]

end Constant

section Binary

variable {left left' right right' : Constant}

theorem broadcastTy_congr (op : BinaryOp) (hl : left.ty = left'.ty) (hr : right.ty = right'.ty) :
    broadcastTy op left right = broadcastTy op left' right' := by
  rw [broadcastTy, broadcastTy, Constant.size_congr hl, Constant.size_congr hr, hl, hr]

theorem elementwise_agree {op : BinaryOp} {rule : Scalar → Scalar → Option Scalar}
    (h : op.onLeaves? = some rule) (hl : left.ty = left'.ty) (hr : right.ty = right'.ty) :
    Agree Constant.ty (elementwise op rule left right) (elementwise op rule left' right') := by
  unfold elementwise
  rw [broadcastTy_congr op hl hr]
  apply Agree.bind_self
  intro ty
  apply Agree.bind
  · apply Agree.mapM (p := id) rfl
    rintro i _ rfl
    apply Agree.bind (Constant.broadcast_agree hl i)
    intro a a' ha
    apply Agree.bind (Constant.broadcast_agree hr i)
    intro b b' hb
    apply Agree.orFail
    · rw [BinaryOp.onLeaves?_kind h, BinaryOp.onLeaves?_kind h, ha, hb]
    · rw [ha]
  · intro values values' hv
    exact Constant.result_agree _ _ hv _ _

theorem foldOrder_agree (op : BinaryOp) (hl : left.ty = left'.ty) (hr : right.ty = right'.ty) :
    Agree Constant.ty (foldOrder op left right) (foldOrder op left' right') := by
  unfold foldOrder
  rw [Constant.size_congr hl, Constant.size_congr hr, hl, hr]
  split
  · apply Agree.bind (Constant.leaf_agree hl 0)
    intro a a' ha
    apply Agree.bind (Constant.leaf_agree hr 0)
    intro b b' hb
    apply Agree.bind (Agree.orFail_of_isSome (op.isSome_holds?_congr ha hb) (by rw [ha]))
    intro holds holds' _
    exact .ok rfl
  · exact .refl _

theorem exists_broadcastEqual (op : BinaryOp) (hk : left.ty.kind = right.ty.kind)
    (hs : left.ty.kind ≠ .struct) {n : Nat} (hl : left.Covers n) (hr : right.Covers n)
    {indices : List Nat} (hi : ∀ i ∈ indices, i < n) :
    ∃ same, broadcastEqual op left right indices = .ok same := by
  induction indices with
  | nil => exact ⟨true, rfl⟩
  | cons i rest ih =>
    obtain ⟨a, ha⟩ := Constant.exists_broadcast hl (hi i List.mem_cons_self)
    obtain ⟨b, hb⟩ := Constant.exists_broadcast hr (hi i List.mem_cons_self)
    obtain ⟨same, hrest⟩ := ih fun j hj => hi j (List.mem_cons_of_mem i hj)
    have hkinds : a.kind = b.kind := by
      rw [Constant.kind_of_broadcast hs ha, Constant.kind_of_broadcast (hk ▸ hs) hb, hk]
    simp only [broadcastEqual, ha, hb, hrest, hkinds, bind, Except.bind, ne_eq, not_true_eq_false,
      ↓reduceIte]
    split
    · exact ⟨same, rfl⟩
    · exact ⟨false, rfl⟩

theorem broadcastEqual_cons_of_kind_ne (op : BinaryOp) (hk : left.ty.kind ≠ right.ty.kind)
    (hls : left.ty.kind ≠ .struct) (hrs : right.ty.kind ≠ .struct) {n : Nat} (hl : left.Covers n)
    (hr : right.Covers n) {i : Nat} (hi : i < n) (rest : List Nat) :
    broadcastEqual op left right (i :: rest) =
      .error (.unsupported (.binary op) left.ty.kind) := by
  obtain ⟨a, ha⟩ := Constant.exists_broadcast hl hi
  obtain ⟨b, hb⟩ := Constant.exists_broadcast hr hi
  have hka := Constant.kind_of_broadcast hls ha
  have hkb := Constant.kind_of_broadcast hrs hb
  simp only [broadcastEqual, ha, hb, hka, hkb, hk, bind, Except.bind, ne_eq, not_false_eq_true,
    ↓reduceIte]

theorem constantsEqual_agree (op : BinaryOp) (hl : left.ty = left'.ty) (hr : right.ty = right'.ty)
    (hs : left.ty.kind = .struct ↔ right.ty.kind = .struct) :
    Agree (fun _ => ()) (constantsEqual op left right) (constantsEqual op left' right') := by
  unfold constantsEqual
  rw [← broadcastTy_congr op hl hr, ← hl, ← hr]
  by_cases hls : left.ty.kind = .struct
  · rw [if_pos hls, if_pos hls]
    split
    · rw [Ty.valuesEqual_eq_ok, Ty.valuesEqual_eq_ok]
      exact .ok rfl
    · rfl
  · have hrs : right.ty.kind ≠ .struct := mt hs.2 hls
    rw [if_neg hls, if_neg hls]
    cases hty : broadcastTy op left right with
    | error failure => rfl
    | ok ty =>
      obtain ⟨hcl, hcr⟩ := covers_of_broadcastTy hty
      obtain ⟨hcl', hcr'⟩ := covers_of_broadcastTy (broadcastTy_congr op hl hr ▸ hty)
      change Agree _ (broadcastEqual op left right (List.range ty.size))
        (broadcastEqual op left' right' (List.range ty.size))
      by_cases hk : left.ty.kind = right.ty.kind
      · have hi : ∀ i ∈ List.range ty.size, i < ty.size := fun i hi => List.mem_range.1 hi
        obtain ⟨same, h⟩ := exists_broadcastEqual op hk hls hcl hcr hi
        obtain ⟨same', h'⟩ := exists_broadcastEqual op (hl ▸ hr ▸ hk) (hl ▸ hls) hcl' hcr' hi
        rw [h, h']
        exact .ok rfl
      · cases hrange : List.range ty.size with
        | nil => rfl
        | cons i rest =>
          have hi : i < ty.size := List.mem_range.1 (hrange ▸ List.mem_cons_self)
          rw [broadcastEqual_cons_of_kind_ne op hk hls hrs hcl hcr hi,
            broadcastEqual_cons_of_kind_ne op (hl ▸ hr ▸ hk) (hl ▸ hls) (hr ▸ hrs) hcl' hcr' hi,
            hl]
          rfl

theorem numericKind_congr (op : BinaryOp) (hl : left.ty = left'.ty) :
    numericKind op left = numericKind op left' := by
  rw [numericKind, numericKind, hl]

theorem storeProduct_agree (op : BinaryOp) (ty : Ty) {sums sums' : List Double}
    (h : sums.length = sums'.length) (span span' : Span) :
    Agree Constant.ty (storeProduct op ty sums span) (storeProduct op ty sums' span') := by
  apply Constant.result_agree
  have hkinds (xs : List Double) : (xs.filterMap (Scalar.ofDouble? ty.kind)).map Scalar.kind =
      (List.replicate xs.length ()).filterMap fun _ => ty.kind.leaf? := by
    induction xs with
    | nil => rfl
    | cons x xs ih =>
      rw [List.length_cons, List.replicate_succ, List.filterMap_cons, List.filterMap_cons, ← ih,
        ← Scalar.ofDouble?_kind ty.kind x]
      cases Scalar.ofDouble? ty.kind x <;> rfl
  rw [hkinds, hkinds, h]

theorem matrixTimesMatrix_agree (hl : left.ty = left'.ty) (hr : right.ty = right'.ty) :
    Agree Constant.ty (left.matrixTimesMatrix right) (left'.matrixTimesMatrix right') := by
  unfold Constant.matrixTimesMatrix
  rw [numericKind_congr _ hl, hl, hr]
  apply Agree.bind_self
  intro kind
  split
  · rename_i k inner rows l cols inner' hlt hrt
    split
    · rename_i hinner
      subst hinner
      have hls : left'.size = inner * rows := Constant.size_of_matrix hlt
      have hrs : right'.size = cols * inner := Constant.size_of_matrix hrt
      obtain ⟨sums, hsums, hlen⟩ := Constant.exists_matrixTimesMatrix_sums
        ((Constant.size_congr hl).trans hls) ((Constant.size_congr hr).trans hrs)
      obtain ⟨sums', hsums', hlen'⟩ := Constant.exists_matrixTimesMatrix_sums hls hrs
      rw [hsums, hsums']
      exact storeProduct_agree _ _ (hlen.trans hlen'.symm) _ _
    · rfl
  · rfl

theorem matrixTimesVector_agree (hl : left.ty = left'.ty) (hr : right.ty = right'.ty) :
    Agree Constant.ty (left.matrixTimesVector right) (left'.matrixTimesVector right') := by
  unfold Constant.matrixTimesVector
  rw [numericKind_congr _ hl, hl, hr, Constant.size_congr hr]
  apply Agree.bind_self
  intro kind
  split
  · rename_i k cols rows hlt
    split
    · rename_i hcols
      have hls : left'.size = cols * rows := Constant.size_of_matrix hlt
      obtain ⟨sums, hsums, hlen⟩ := Constant.exists_matrixTimesVector_sums
        ((Constant.size_congr hl).trans hls) ((Constant.size_congr hr).trans hcols.symm)
      obtain ⟨sums', hsums', hlen'⟩ := Constant.exists_matrixTimesVector_sums hls hcols.symm
      rw [hsums, hsums']
      exact storeProduct_agree _ _ (hlen.trans hlen'.symm) _ _
    · rfl
  · rfl

theorem vectorTimesMatrix_agree (hl : left.ty = left'.ty) (hr : right.ty = right'.ty) :
    Agree Constant.ty (left.vectorTimesMatrix right) (left'.vectorTimesMatrix right') := by
  unfold Constant.vectorTimesMatrix
  rw [numericKind_congr _ hl, hl, hr, Constant.size_congr hl]
  apply Agree.bind_self
  intro kind
  split
  · rename_i k cols rows hrt
    split
    · rename_i hrows
      have hrs : right'.size = cols * rows := Constant.size_of_matrix hrt
      obtain ⟨sums, hsums, hlen⟩ := Constant.exists_vectorTimesMatrix_sums
        ((Constant.size_congr hl).trans hrows.symm) ((Constant.size_congr hr).trans hrs)
      obtain ⟨sums', hsums', hlen'⟩ := Constant.exists_vectorTimesMatrix_sums hrows.symm hrs
      rw [hsums, hsums']
      exact storeProduct_agree _ _ (hlen.trans hlen'.symm) _ _
    · rfl
  · rfl

/-- Operands that `==` and `!=` are asked about are both structures or both none. -/
def BinaryOp.Comparable (op : BinaryOp) (left right : Constant) : Prop :=
  op = .equal ∨ op = .notEqual → (left.ty.kind = .struct ↔ right.ty.kind = .struct)

theorem BinaryOp.fold_agree (op : BinaryOp) (hl : left.ty = left'.ty) (hr : right.ty = right'.ty)
    (hc : op.Comparable left right) :
    Agree Constant.ty (op.fold left right) (op.fold left' right') := by
  unfold fold
  split
  · rename_i rule h
    exact elementwise_agree h hl hr
  · split
    · exact matrixTimesMatrix_agree hl hr
    · exact matrixTimesVector_agree hl hr
    · exact vectorTimesMatrix_agree hl hr
    · exact .bind (constantsEqual_agree _ hl hr (hc (.inl rfl))) fun _ _ _ => .ok rfl
    · exact .bind (constantsEqual_agree _ hl hr (hc (.inr rfl))) fun _ _ _ => .ok rfl
    · exact foldOrder_agree _ hl hr

end Binary

theorem storeAll_agree (op : Operator) (kind : Kind) {xs ys : List Double}
    (h : xs.length = ys.length) :
    Agree (List.map Scalar.kind) (storeAll op kind xs) (storeAll op kind ys) := by
  have hunits : xs.map (fun _ => ()) = ys.map fun _ => () := by
    rw [List.map_const', List.map_const', h]
  apply Agree.mapM hunits
  intro x y _
  apply Agree.orFail _ rfl
  rw [Scalar.ofDouble?_kind, Scalar.ofDouble?_kind]

section Unary

variable {operand operand' : Constant}

theorem storeVector_agree (op : UnaryOp) (h : operand.ty = operand'.ty) (resultKind : Kind)
    {xs ys : List Double} (hlen : xs.length = ys.length) :
    Agree (List.map Scalar.kind) (storeVector op operand resultKind xs)
      (storeVector op operand' resultKind ys) := by
  unfold storeVector
  rw [h]
  split
  · exact storeAll_agree _ _ hlen
  · rfl

theorem UnaryOp.values_agree (op : UnaryOp) (h : operand.ty = operand'.ty) (resultKind : Kind) :
    Agree (List.map Scalar.kind) (op.values operand resultKind)
      (op.values operand' resultKind) := by
  unfold values
  split
  · exact storeVector_agree _ h _ rfl
  · apply storeVector_agree _ h
    rw [List.length_map, List.length_map]
    exact Constant.size_congr h
  · apply Agree.mapM (Constant.kinds_congr h)
    intro v w hvw
    apply Agree.orFail
    · rw [UnaryOp.onLeaf?_kind, UnaryOp.onLeaf?_kind, hvw]
    · rw [hvw]

theorem UnaryOp.fold_agree (op : UnaryOp) (h : operand.ty = operand'.ty) (resultTy : Ty) :
    Agree Constant.ty (op.fold operand resultTy) (op.fold operand' resultTy) := by
  unfold fold
  rw [h, Constant.size_congr h]
  simp only
  generalize (if op.isReduction then 1 else operand'.size) = size
  split
  · rfl
  · split
    · rfl
    · apply Agree.bind (op.values_agree h _)
      intro values values' hv
      exact Constant.result_agree _ _ hv _ _

end Unary

section Builtin

variable {operands operands' : List Constant}

def Ty.broadcasts (ty : Ty) (operands : List Ty) : Bool :=
  operands.all fun t => t.size = 1 ∨ t.size = ty.size

def Ty.larger (s t : Ty) : Ty :=
  if s.size < t.size then t else s

/-- The type of the result of a built-in function, and whether operands of the given types go
together. -/
def Builtin.shape? : Builtin → List Ty → Option (Ty × Bool)
  | min, [a, b] | max, [a, b] | atan, [a, b] | pow, [a, b] => some (a, a.broadcasts [a, b])
  | clamp, [a, b, c] | mix, [a, b, c] => some (a, a.broadcasts [a, b, c])
  | step, [a, b] => some (a.larger b, (a.larger b).broadcasts [a, b])
  | smoothStep, [a, b, c] => some (a.larger c, (a.larger c).broadcasts [a, b, c])
  | distance, [a, b] | dot, [a, b] => some (.scalar a.kind, a.size = b.size)
  | cross, [a, b] => some (a, a.size = 3 ∧ b.size = 3)
  | faceForward, [a, b, c] => some (a, a.size = b.size ∧ a.size = c.size)
  | reflect, [a, b] => some (a, a.size = b.size)
  | refract, [a, b, c] => some (a, a.size = b.size ∧ c.size = 1)
  | outerProduct, [a, b] => some (.matrix a.kind b.size a.size, true)
  | modf, [a, _] => some (a, true)
  | _, _ => none

theorem BuiltinCall.broadcasts_eq (ty : Ty) (operands : List Constant) :
    broadcasts ty operands = ty.broadcasts (operands.map Constant.ty) := by
  rw [broadcasts, Ty.broadcasts, List.all_map]
  congr
  funext c
  simp only [Function.comp_apply, Constant.size_ty]

theorem largerTy_eq (a b : Constant) : largerTy a b = a.ty.larger b.ty := by
  simp only [largerTy, Ty.larger, Constant.size_ty]

theorem Builtin.call?_shape (op : Builtin) (operands : List Constant) :
    (op.call? operands).map (fun call => (call.ty, call.agree)) =
      op.shape? (operands.map Constant.ty) := by
  rcases operands with _ | ⟨a, _ | ⟨b, _ | ⟨c, _ | ⟨d, rest⟩⟩⟩⟩ <;> cases op <;>
    simp [call?, shape?, BuiltinCall.pairwise, BuiltinCall.triplewise, BuiltinCall.broadcasts_eq,
      largerTy_eq]

theorem Builtin.strayKind?_congr (op : Builtin) (kind : Kind) (index : Nat)
    (h : operands.map Constant.ty = operands'.map Constant.ty) :
    op.strayKind? kind index operands = op.strayKind? kind index operands' := by
  have hall := forall₂_of_map_eq h
  clear h
  induction hall generalizing index with
  | nil => rfl
  | cons hty _ ih => rw [strayKind?, strayKind?, hty, ih (index + 1)]

theorem Builtin.unsupportedKind?_congr (op : Builtin)
    (h : operands.map Constant.ty = operands'.map Constant.ty) :
    op.unsupportedKind? operands = op.unsupportedKind? operands' := by
  cases forall₂_of_map_eq h with
  | nil => rfl
  | cons hty _ =>
    rw [unsupportedKind?, unsupportedKind?, hty, op.strayKind?_congr _ 1 (List.cons.inj h).2]

theorem Builtin.fold_agree (op : Builtin)
    (h : operands.map Constant.ty = operands'.map Constant.ty) (span : Span) :
    Agree Constant.ty (op.fold operands span) (op.fold operands' span) := by
  have hshape := op.call?_shape operands
  rw [h, ← op.call?_shape operands'] at hshape
  unfold fold
  rw [op.unsupportedKind?_congr h, h]
  cases hc : op.call? operands with
  | none =>
    rw [hc] at hshape
    have hc' : op.call? operands' = none := Option.map_eq_none_iff.1 hshape.symm
    rw [hc', length_eq_of_map_eq h]
    rfl
  | some call =>
    rw [hc] at hshape
    obtain ⟨call', hc', heq⟩ := Option.map_eq_some_iff.1 hshape.symm
    obtain ⟨hty, hagree⟩ := Prod.mk.inj heq
    rw [hc']
    simp only [hagree]
    split
    · rfl
    · split
      · rename_i ha
        by_cases hm : op = .modf
        · subst hm
          rw [numbers_modf hc, numbers_modf hc']
          rfl
        · obtain ⟨xs, hxs, hlen⟩ := exists_numbers hm hc ha
          obtain ⟨ys, hys, hlen'⟩ := exists_numbers hm hc' (hagree.trans ha)
          rw [hxs, hys, hty]
          apply Agree.bind (storeAll_agree _ _ (by rw [hlen, hlen', hty]))
          intro values values' hv
          exact Constant.result_agree _ _ hv _ _
      · rfl

end Builtin

section Construct

variable {sources sources' : List Constant}

theorem kinds_flatMap_values (sources : List Constant) :
    (sources.flatMap Constant.values).map Scalar.kind =
      (sources.map Constant.ty).flatMap Ty.leafKinds := by
  rw [List.map_flatMap, List.flatMap_map]
  congr
  funext c
  exact c.fits

theorem supply_of_length_ne_one (needed : Nat) (h : sources.length ≠ 1) :
    supply needed sources = .ok (sources.flatMap Constant.values) :=
  match sources, h with
  | [], _ | _ :: _ :: _, _ => rfl

theorem supply_agree (needed : Nat) (h : sources.map Constant.ty = sources'.map Constant.ty) :
    Agree (List.map Scalar.kind) (supply needed sources) (supply needed sources') := by
  have hlen : sources.length = sources'.length := length_eq_of_map_eq h
  by_cases hone : sources.length = 1
  · obtain ⟨c, rfl⟩ := List.length_eq_one_iff.1 hone
    obtain ⟨d, rfl⟩ := List.length_eq_one_iff.1 (hlen.symm.trans hone)
    have hcd : c.ty = d.ty := List.head_eq_of_cons_eq h
    rw [supply, supply, Constant.size_congr hcd]
    split
    · apply Agree.bind (Constant.leaf_agree hcd 0)
      intro v w hvw
      exact Agree.ok (by rw [List.map_replicate, List.map_replicate, hvw])
    · exact Agree.ok (Constant.kinds_congr hcd)
  · rw [supply_of_length_ne_one needed hone, supply_of_length_ne_one needed (hlen ▸ hone)]
    exact Agree.ok (by rw [kinds_flatMap_values, kinds_flatMap_values, h])

theorem convertAll_agree (kinds : List Kind) {values values' : List Scalar}
    (h : values.map Scalar.kind = values'.map Scalar.kind) :
    Agree (List.map Scalar.kind) (convertAll kinds values) (convertAll kinds values') := by
  have hzip : (kinds.zip values).map (Prod.map id Scalar.kind) =
      (kinds.zip values').map (Prod.map id Scalar.kind) := by
    rw [← List.zip_map_right, ← List.zip_map_right, h]
  apply Agree.mapM hzip
  intro (k, v) (k', w) heq
  obtain ⟨rfl, hvw⟩ := Prod.mk.inj heq
  apply Agree.orFail
  · exact (v.convert?_kind k).trans (w.convert?_kind k).symm
  · exact congrArg (Failure.unsupported .construct) hvw

theorem Ty.construct_agree (target : Ty) (h : sources.map Constant.ty = sources'.map Constant.ty)
    (span : Span) :
    Agree Constant.ty (target.construct sources span) (target.construct sources' span) := by
  have hempty : sources.isEmpty = sources'.isEmpty := by
    rw [← List.isEmpty_map, h, List.isEmpty_map]
  unfold construct
  rw [hempty]
  split
  · rfl
  · apply Agree.bind (supply_agree target.size h)
    intro supplied supplied' hs
    rw [length_eq_of_map_eq hs]
    split
    · rfl
    · apply Agree.bind (convertAll_agree target.leafKinds hs)
      intro values values' hv
      exact Constant.result_agree _ _ hv _ _

end Construct

/-- Requests that differ at most in the leaves and the places of their operands. -/
inductive SameTypes : Request → Request → Prop
  | binary (op : BinaryOp) {left left' right right' : Constant}
      (hl : left.ty = left'.ty) (hr : right.ty = right'.ty) :
      SameTypes (.binary op left right) (.binary op left' right')
  | unary (op : UnaryOp) {operand operand' : Constant} (resultTy : Ty)
      (h : operand.ty = operand'.ty) :
      SameTypes (.unary op operand resultTy) (.unary op operand' resultTy)
  | builtin (op : Builtin) {operands operands' : List Constant} (span : Span)
      (h : operands.map Constant.ty = operands'.map Constant.ty) :
      SameTypes (.builtin op operands span) (.builtin op operands' span)
  | construct (target : Ty) {sources sources' : List Constant} (span : Span)
      (h : sources.map Constant.ty = sources'.map Constant.ty) :
      SameTypes (.construct target sources span) (.construct target sources' span)

def Request.Comparable : Request → Prop
  | binary op left right => op.Comparable left right
  | unary .. | builtin .. | construct .. => True

/-- Requests on operands of the same types are both answered, with results of one type, or fail
alike. -/
theorem SameTypes.fold_cases {request request' : Request} (h : SameTypes request request')
    (hc : request.Comparable) :
    (∃ c d, request.fold = .ok c ∧ request'.fold = .ok d ∧ c.ty = d.ty) ∨
      ∃ failure, request.fold = .error failure ∧ request'.fold = .error failure := by
  apply Agree.cases_ty
  cases h with
  | binary op hl hr => exact op.fold_agree hl hr hc
  | unary op resultTy h => exact op.fold_agree h resultTy
  | builtin op span h => exact op.fold_agree h span
  | construct target span h => exact target.construct_agree h span

theorem SameTypes.fold_cases_structures :
    let ty : Ty := .struct [⟨"id", .scalar .uint⟩, ⟨"offset", .vector .int 2⟩]
    let a : Constant := ⟨ty, [.uint 1, .int 0, .int 7], ⟨0, 1⟩, rfl⟩
    let b : Constant := ⟨ty, [.uint 2, .int 0, .int 7], ⟨5, 6⟩, rfl⟩
    SameTypes (.binary .equal a b) (.binary .equal b b) ∧
      (Request.binary .equal a b).Comparable ∧
      ((∃ c d, (Request.binary .equal a b).fold = .ok c ∧
          (Request.binary .equal b b).fold = .ok d ∧ c.ty = d.ty) ∨
        ∃ failure, (Request.binary .equal a b).fold = .error failure ∧
          (Request.binary .equal b b).fold = .error failure) := by
  intro ty a b
  have hsame : SameTypes (.binary .equal a b) (.binary .equal b b) := .binary .equal rfl rfl
  have hboth : (Request.binary .equal a b).Comparable := fun _ => Iff.rfl
  exact ⟨hsame, hboth, SameTypes.fold_cases hsame hboth⟩

end ShaderFold
