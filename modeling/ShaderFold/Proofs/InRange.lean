import ShaderFold.Folder
import ShaderFold.Proofs.LeafAccess
import ShaderFold.Proofs.StructuralEquality

namespace ShaderFold

/-- The outcome is not that of reading a leaf out of range. -/
def InRange {α : Type} (x : Except Failure α) : Prop :=
  ∀ index size, x ≠ .error (.outOfRange index size)

namespace InRange

variable {α β : Type}

theorem ok (a : α) : InRange (.ok a) := by
  intro index size h
  cases h

theorem unsupported (op : Operator) (kind : Kind) :
    InRange (.error (.unsupported op kind) : Except Failure α) := by
  intro index size h
  cases h

theorem malformed (op : Operator) (cause : Malformation) :
    InRange (.error (.malformed op cause) : Except Failure α) := by
  intro index size h
  cases h

theorem orUnsupported (found : Option α) (op : Operator) (kind : Kind) :
    InRange (orFail found (.unsupported op kind)) := by
  cases found with
  | none => exact unsupported op kind
  | some a => exact ok a

theorem of_eq_ok {x : Except Failure α} {a : α} (h : x = .ok a) : InRange x := by
  rw [h]
  exact ok a

theorem bind {x : Except Failure α} {f : α → Except Failure β} (hx : InRange x)
    (hf : ∀ a, x = .ok a → InRange (f a)) : InRange (x >>= f) := by
  cases x with
  | ok a => exact hf a rfl
  | error failure =>
    intro index size h
    have he : failure = .outOfRange index size := Except.error.inj h
    exact hx index size (congrArg _ he)

theorem mapM {f : α → Except Failure β} {xs : List α} (h : ∀ x ∈ xs, InRange (f x)) :
    InRange (xs.mapM f) := by
  induction xs with
  | nil => exact ok []
  | cons x xs ih =>
    rw [List.mapM_cons]
    apply bind (h x List.mem_cons_self)
    intro y _
    apply bind (ih fun z hz => h z (List.mem_cons_of_mem x hz))
    intro ys _
    exact ok _

theorem result (op : Operator) (ty : Ty) (values : List Scalar) (span : Span) :
    InRange (Constant.result op ty values span) := by
  rw [Constant.result]
  split
  · exact .ok _
  · exact .malformed _ _

theorem broadcastTy (op : BinaryOp) (left right : Constant) :
    InRange (ShaderFold.broadcastTy op left right) := by
  unfold ShaderFold.broadcastTy
  split
  · exact .ok _
  · split
    · exact .ok _
    · split
      · exact .ok _
      · exact .malformed _ _

theorem elementwise (op : BinaryOp) (rule : Scalar → Scalar → Option Scalar)
    (left right : Constant) : InRange (ShaderFold.elementwise op rule left right) := by
  unfold ShaderFold.elementwise
  apply bind (broadcastTy op left right)
  intro ty hty
  obtain ⟨hl, hr⟩ := covers_of_broadcastTy hty
  apply bind
  · apply mapM
    intro i hi
    obtain ⟨a, ha⟩ := Constant.exists_broadcast hl (List.mem_range.1 hi)
    obtain ⟨b, hb⟩ := Constant.exists_broadcast hr (List.mem_range.1 hi)
    exact bind (of_eq_ok ha) fun a _ => bind (of_eq_ok hb) fun b _ => .orUnsupported _ _ _
  · intro values _
    exact .result _ _ _ _

theorem foldOrder (op : BinaryOp) (left right : Constant) :
    InRange (ShaderFold.foldOrder op left right) := by
  unfold ShaderFold.foldOrder
  split
  · rename_i h
    obtain ⟨a, ha⟩ : ∃ a, left.leaf 0 = .ok a := Constant.exists_leaf (by omega)
    obtain ⟨b, hb⟩ : ∃ b, right.leaf 0 = .ok b := Constant.exists_leaf (by omega)
    exact bind (of_eq_ok ha) fun a _ => bind (of_eq_ok hb) fun b _ =>
      bind (.orUnsupported _ _ _) fun holds _ => .ok _
  · exact .malformed _ _

theorem broadcastEqual {left right : Constant} {n : Nat} (hl : left.Covers n)
    (hr : right.Covers n) (op : BinaryOp) {indices : List Nat} (h : ∀ i ∈ indices, i < n) :
    InRange (ShaderFold.broadcastEqual op left right indices) := by
  induction indices with
  | nil => exact .ok _
  | cons i rest ih =>
    obtain ⟨a, ha⟩ := Constant.exists_broadcast hl (h i List.mem_cons_self)
    obtain ⟨b, hb⟩ := Constant.exists_broadcast hr (h i List.mem_cons_self)
    have hrest := ih fun j hj => h j (List.mem_cons_of_mem i hj)
    refine bind (of_eq_ok ha) fun a _ => bind (of_eq_ok hb) fun b _ => ?_
    split
    · exact .unsupported _ _
    · split
      · exact hrest
      · exact .ok _

theorem constantsEqual (op : BinaryOp) (left right : Constant) :
    InRange (ShaderFold.constantsEqual op left right) := by
  unfold ShaderFold.constantsEqual
  split
  · split
    · exact of_eq_ok (Ty.valuesEqual_eq_ok ..)
    · exact .malformed _ _
  · apply bind (broadcastTy op left right)
    intro ty hty
    obtain ⟨hl, hr⟩ := covers_of_broadcastTy hty
    exact broadcastEqual hl hr op fun i hi => List.mem_range.1 hi

theorem numericKind (op : BinaryOp) (left : Constant) :
    InRange (ShaderFold.numericKind op left) := by
  unfold ShaderFold.numericKind
  split
  · exact .ok _
  · exact .unsupported _ _

theorem matrixTimesMatrix (left right : Constant) : InRange (left.matrixTimesMatrix right) := by
  unfold Constant.matrixTimesMatrix
  apply bind (numericKind _ _)
  intro kind _
  split
  · rename_i inner rows _ cols inner' hl hr
    split
    · rename_i hinner
      subst hinner
      obtain ⟨sums, hsums, _⟩ := Constant.exists_matrixTimesMatrix_sums
        (Constant.size_of_matrix hl) (Constant.size_of_matrix hr)
      rw [hsums]
      exact .result _ _ _ _
    · exact .malformed _ _
  · exact .malformed _ _

theorem matrixTimesVector (left right : Constant) : InRange (left.matrixTimesVector right) := by
  unfold Constant.matrixTimesVector
  apply bind (numericKind _ _)
  intro kind _
  split
  · rename_i cols rows hl
    split
    · rename_i hcols
      obtain ⟨sums, hsums, _⟩ := Constant.exists_matrixTimesVector_sums
        (Constant.size_of_matrix hl) hcols.symm
      rw [hsums]
      exact .result _ _ _ _
    · exact .malformed _ _
  · exact .malformed _ _

theorem vectorTimesMatrix (left right : Constant) : InRange (left.vectorTimesMatrix right) := by
  unfold Constant.vectorTimesMatrix
  apply bind (numericKind _ _)
  intro kind _
  split
  · rename_i cols rows hr
    split
    · rename_i hrows
      obtain ⟨sums, hsums, _⟩ := Constant.exists_vectorTimesMatrix_sums hrows.symm
        (Constant.size_of_matrix hr)
      rw [hsums]
      exact .result _ _ _ _
    · exact .malformed _ _
  · exact .malformed _ _

theorem storeAll (op : Operator) (kind : Kind) (xs : List Double) :
    InRange (ShaderFold.storeAll op kind xs) := by
  apply mapM
  intro x _
  exact .orUnsupported _ _ _

theorem unaryValues (op : UnaryOp) (operand : Constant) (resultKind : Kind) :
    InRange (op.values operand resultKind) := by
  have hstore (xs : List Double) : InRange (storeVector op operand resultKind xs) := by
    unfold storeVector
    split
    · exact .storeAll _ _ _
    · exact .unsupported _ _
  unfold UnaryOp.values
  split
  · exact hstore _
  · exact hstore _
  · apply mapM
    intro v _
    exact .orUnsupported _ _ _

theorem unary (op : UnaryOp) (operand : Constant) (resultTy : Ty) :
    InRange (op.fold operand resultTy) := by
  unfold UnaryOp.fold
  simp only
  generalize (if op.isReduction then 1 else operand.size) = size
  split
  · exact .unsupported _ _
  · split
    · exact .malformed _ _
    · apply bind (unaryValues _ _ _)
      intro values _
      exact .result _ _ _ _

theorem builtin (op : Builtin) (operands : List Constant) (span : Span) :
    InRange (op.fold operands span) := by
  unfold Builtin.fold
  split
  · exact .malformed _ _
  · rename_i call hcall
    split
    · exact .unsupported _ _
    · split
      · rename_i hagree
        by_cases hm : op = .modf
        · subst hm
          rw [Builtin.numbers_modf hcall]
          intro index size h
          cases h
        · obtain ⟨xs, hxs, _⟩ := Builtin.exists_numbers hm hcall hagree
          rw [hxs]
          apply bind (storeAll _ _ xs)
          intro values _
          exact .result _ _ _ _
      · exact .malformed _ _

theorem construct (target : Ty) (sources : List Constant) (span : Span) :
    InRange (target.construct sources span) := by
  have hsupply : InRange (supply target.size sources) := by
    unfold supply
    split
    · split
      · rename_i single h1
        obtain ⟨v, hv⟩ : ∃ v, single.leaf 0 = .ok v := Constant.exists_leaf (by omega)
        rw [hv]
        exact .ok _
      · exact .ok _
    · exact .ok _
  unfold Ty.construct
  split
  · exact .malformed _ _
  · apply bind hsupply
    intro supplied _
    split
    · exact .malformed _ _
    · apply bind
      · apply mapM
        intro p _
        exact .orUnsupported _ _ _
      · intro values _
        exact .result _ _ _ _

theorem binary (op : BinaryOp) (left right : Constant) : InRange (op.fold left right) := by
  unfold BinaryOp.fold
  split
  · exact .elementwise _ _ _ _
  · split
    · exact .matrixTimesMatrix _ _
    · exact .matrixTimesVector _ _
    · exact .vectorTimesMatrix _ _
    · exact bind (.constantsEqual _ _ _) fun same _ => .ok _
    · exact bind (.constantsEqual _ _ _) fun same _ => .ok _
    · exact .foldOrder _ _ _

theorem request (request : Request) : InRange request.fold := by
  cases request with
  | binary op left right => exact .binary op left right
  | unary op operand resultTy => exact .unary op operand resultTy
  | builtin op operands span => exact .builtin op operands span
  | construct target sources span => exact .construct target sources span

end InRange

def Request.operands : Request → List Constant
  | binary _ left right => [left, right]
  | unary _ operand _ => [operand]
  | builtin _ operands _ => operands
  | construct _ sources _ => sources

/-- Constants made one after the other from given values, from single values and by folding
earlier ones, and the failures met on the way. The latest stand first. -/
inductive Chain : List Constant → List Failure → Prop
  | nil : Chain [] []
  | ofValues {made failures ty values span c} (h : Chain made failures)
      (hc : Constant.ofValues ty values span = .ok c) : Chain (c :: made) failures
  | scalar {made failures} (h : Chain made failures) (v : Scalar) (span : Span) :
      Chain (.scalar v span :: made) failures
  | fold {made failures request c} (h : Chain made failures)
      (ho : ∀ d ∈ Request.operands request, d ∈ made) (hc : request.fold = .ok c) :
      Chain (c :: made) failures
  | fail {made failures request failure} (h : Chain made failures)
      (ho : ∀ d ∈ Request.operands request, d ∈ made) (hf : request.fold = .error failure) :
      Chain made (failure :: failures)

theorem Constant.length_values (c : Constant) : c.values.length = c.ty.size :=
  c.size_ty.symm

/-- Along a chain every constant has the leaves of its type, and no operation reads a leaf out of
range. -/
theorem Chain.fit_in_range {made : List Constant} {failures : List Failure}
    (h : Chain made failures) :
    (∀ c ∈ made, c.values.map Scalar.kind = c.ty.leafKinds ∧ c.values.length = c.ty.size) ∧
      ∀ failure ∈ failures, ∀ index size, failure ≠ .outOfRange index size := by
  have hnew (c : Constant) {made : List Constant}
      (hmade : ∀ d ∈ made,
        d.values.map Scalar.kind = d.ty.leafKinds ∧ d.values.length = d.ty.size) :
      ∀ d ∈ c :: made, d.values.map Scalar.kind = d.ty.leafKinds ∧ d.values.length = d.ty.size :=
    List.forall_mem_cons.2 ⟨⟨c.fits, c.length_values⟩, hmade⟩
  induction h with
  | nil => exact ⟨List.forall_mem_nil _, List.forall_mem_nil _⟩
  | ofValues _ _ ih => exact ⟨hnew _ ih.1, ih.2⟩
  | scalar _ v span ih => exact ⟨hnew _ ih.1, ih.2⟩
  | fold _ _ _ ih => exact ⟨hnew _ ih.1, ih.2⟩
  | fail _ _ hf ih =>
    refine ⟨ih.1, List.forall_mem_cons.2 ⟨?_, ih.2⟩⟩
    intro index size he
    exact InRange.request _ index size (he ▸ hf)

theorem Chain.fit_in_range_scaled_pair :
    let pair : Constant := ⟨.vector .int 2, [.int 1, .int 2], .dummy, rfl⟩
    let three : Constant := .scalar (.int 3) .dummy
    let scaled : Constant := ⟨.vector .int 2, [.int 3, .int 6], .dummy, rfl⟩
    let failure : Failure := .malformed (.binary .matrixTimesVector) (.product pair.ty three.ty)
    Chain [scaled, three, pair] [failure] ∧
      (∀ c ∈ [scaled, three, pair],
        c.values.map Scalar.kind = c.ty.leafKinds ∧ c.values.length = c.ty.size) ∧
      ∀ f ∈ [failure], ∀ index size, f ≠ .outOfRange index size := by
  intro pair three scaled failure
  have hmul : (Request.binary .vectorTimesScalar pair three).fold = .ok scaled := rfl
  have hmat : (Request.binary .matrixTimesVector pair three).fold = .error failure := rfl
  have hpair : Chain [pair] [] :=
    .ofValues .nil (Constant.ofValues_eq_ok_iff.2 ⟨rfl, rfl, rfl⟩)
  have hthree : Chain [three, pair] [] := .scalar hpair (.int 3) .dummy
  have hscaled : Chain [scaled, three, pair] [] := .fold hthree (by simp [Request.operands]) hmul
  have hfail : Chain [scaled, three, pair] [failure] :=
    .fail hscaled (by simp [Request.operands]) hmat
  exact ⟨hfail, Chain.fit_in_range hfail⟩

end ShaderFold
