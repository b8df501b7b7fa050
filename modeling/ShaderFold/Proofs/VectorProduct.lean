import ShaderFold.Proofs.Componentwise
import ShaderFold.Proofs.MatrixProduct

namespace ShaderFold

theorem StoredAt.getElem?_ofFn {k : Kind} {n : Nat} {g : Fin n → Double} {values : List Scalar}
    (h : StoredAt k (List.ofFn g) values) (i : Fin n) :
    values[i.val]? = Scalar.ofDouble? k (g i) := by
  have hg : (List.ofFn g)[i.val]? = some (g i) := by rw [List.getElem?_ofFn, dif_pos i.isLt]
  obtain ⟨v, hv, hget⟩ := h.exists_getElem? hg
  rw [hget, hv]

/-- A sum of one product is the product, since sums start with negative zero. -/
theorem sumOfProducts_one (x y : Fin 1 → Scalar) :
    sumOfProducts x y = (x 0).toDouble * (y 0).toDouble :=
  BinaryFloat.negZero_add _

namespace Constant

section Shapes

variable {c : Constant} {k : Kind} {n : Nat}

theorem kind_of_vector (h : c.ty = .vector k n) : c.ty.kind = k := by
  rw [h, Ty.kind]

def component (c : Constant) (h : c.ty = .vector k n) (i : Fin n) : Scalar :=
  c.values.get (i.cast (size_of_vector h).symm)

theorem values_eq_components (h : c.ty = .vector k n) : c.values = List.ofFn (c.component h) := by
  apply values_eq_ofFn h
  intro i
  exact List.getElem?_eq_getElem _

/-- A vector as a matrix of a single column. -/
def asColumn (c : Constant) (h : c.ty = .vector k n) : Constant where
  ty := .matrix k 1 n
  values := c.values
  span := c.span
  fits := by rw [c.fits, h, Ty.leafKinds, Ty.leafKinds, Nat.one_mul]

def asRow (c : Constant) (h : c.ty = .vector k n) : Constant where
  ty := .matrix k n 1
  values := c.values
  span := c.span
  fits := by rw [c.fits, h, Ty.leafKinds, Ty.leafKinds, Nat.mul_one]

theorem entry_asColumn (h : c.ty = .vector k n) (i : Fin n) :
    (c.asColumn h).entry rfl i 0 = c.component h i := by
  apply congrArg c.values.get
  apply Fin.ext
  change 0 * n + i.val = i.val
  rw [Nat.zero_mul, Nat.zero_add]

theorem entry_asRow (h : c.ty = .vector k n) (j : Fin n) :
    (c.asRow h).entry rfl 0 j = c.component h j := by
  apply congrArg c.values.get
  apply Fin.ext
  exact Nat.mul_one j

end Shapes

variable {a b : Constant} {m n : Nat} {x : Fin n → Scalar} {y : Fin m → Scalar}

theorem number_of_values {c : Constant} (h : c.values = List.ofFn x) (i : Fin n) :
    c.number i = .ok (x i).toDouble := by
  apply number_eq_ok_iff.2
  refine ⟨x i, ?_, rfl⟩
  rw [broadcast?_of_lt (by rw [size_of_values h]; exact i.isLt), h, List.getElem?_ofFn,
    dif_pos i.isLt]

theorem dot_eq_ok {y : Fin n → Scalar} (hx : a.values = List.ofFn x)
    (hy : b.values = List.ofFn y) :
    a.dot b = .ok (sumOfProducts x y) := by
  rw [dot, onPairs, size_of_values hx,
    mapM_range_eq_ofFn (g := fun i => (x i).toDouble * (y i).toDouble)]
  · rfl
  · intro i
    rw [number_of_values hx, number_of_values hy]
    rfl

theorem outerProduct_eq_ok (hx : a.values = List.ofFn x) (hy : b.values = List.ofFn y) :
    a.outerProduct b = .ok (List.ofFn fun t : Fin (m * n) =>
      (x t.modNat).toDouble * (y t.divNat).toDouble) := by
  rw [outerProduct, size_of_values hx, size_of_values hy]
  apply mapM_range_eq_ofFn
  intro t
  have hrows : n ≠ 0 := by
    rintro rfl
    exact t.modNat.elim0
  have hrow : a.number (t % n) = .ok (x t.modNat).toDouble := number_of_values hx t.modNat
  have hcol : b.number (t / n) = .ok (y t.divNat).toDouble := number_of_values hy t.divNat
  rw [position, if_neg hrows]
  simp only [bind, Except.bind, hrow, hcol]

end Constant

namespace BinaryOp

open Constant

variable {v w : Constant} {k : Kind} {m n : Nat}

theorem exists_vectorTimesColumn (hk : k.isNumeric = true) (hv : v.ty = .vector k n)
    (hw : w.ty = .vector k n) {s : Scalar}
    (hs : Scalar.ofDouble? k (sumOfProducts (v.component hv) (w.component hw)) = some s) :
    ∃ p, vectorTimesMatrix.fold v (w.asColumn hw) = .ok p ∧ p.values = [s] := by
  have hkind : v.ty.kind = k := kind_of_vector hv
  obtain ⟨p, hp, hty, hvalues⟩ := exists_vectorTimesMatrix (values_eq_components hv)
    (by rw [hkind, hk]) (rfl : (w.asColumn hw).ty = .matrix k 1 n)
  have hcolumn : (fun i => (w.asColumn hw).entry rfl i 0) = w.component hw :=
    funext (entry_asColumn hw)
  refine ⟨p, hp, values_eq_ofFn (x := fun _ => s) hty ?_⟩
  intro j
  obtain rfl := Subsingleton.elim j 0
  rw [hvalues, hkind, hcolumn, hs]

theorem exists_rowTimesVector (hk : k.isNumeric = true) (hv : v.ty = .vector k n)
    (hw : w.ty = .vector k n) {s : Scalar}
    (hs : Scalar.ofDouble? k (sumOfProducts (v.component hv) (w.component hw)) = some s) :
    ∃ p, matrixTimesVector.fold (v.asRow hv) w = .ok p ∧ p.values = [s] := by
  obtain ⟨p, hp, hty, hvalues⟩ := exists_matrixTimesVector
    (rfl : (v.asRow hv).ty = .matrix k n 1) hk (values_eq_components hw)
  have hrow : (v.asRow hv).entry rfl 0 = v.component hv := funext (entry_asRow hv)
  refine ⟨p, hp, values_eq_ofFn (x := fun _ => s) hty ?_⟩
  intro i
  obtain rfl := Subsingleton.elim i 0
  rw [hvalues, hrow, hs]

theorem exists_columnTimesRow (hk : k.isNumeric = true) (hv : v.ty = .vector k n)
    (hw : w.ty = .vector k m) :
    ∃ p, matrixTimesMatrix.fold (v.asColumn hv) (w.asRow hw) = .ok p ∧ p.ty = .matrix k m n ∧
      ∀ t : Fin (m * n), p.values[t.val]? = Scalar.ofDouble? k
        ((v.component hv t.modNat).toDouble * (w.component hw t.divNat).toDouble) := by
  obtain ⟨p, hp, hty, hvalues⟩ := exists_matrixTimesMatrix
    (rfl : (v.asColumn hv).ty = .matrix k 1 n) hk (rfl : (w.asRow hw).ty = .matrix k m 1)
  refine ⟨p, hp, hty, ?_⟩
  intro t
  have hentry := hvalues t.modNat t.divNat
  rw [sumOfProducts_one, entry_asColumn, entry_asRow] at hentry
  rw [← hentry]
  congr 1
  exact (Nat.div_add_mod' t.val n).symm

end BinaryOp

namespace Builtin

open Constant

variable {v w : Constant} {k : Kind} {m n : Nat}

theorem kind_of_mem_pair (hv : v.ty.kind = k) (hw : w.ty.kind = k) :
    ∀ c ∈ [v, w], c.ty.kind = k := by
  intro c hc
  rcases List.mem_pair.1 hc with rfl | rfl
  · exact hv
  · exact hw

theorem exists_dot_folded (hk : k.isFloat = true) (hv : v.ty.kind = k) (hw : w.ty.kind = k)
    (hs : v.size = w.size) {x : Double} (hx : v.dot w = .ok x) (span : Span) :
    ∃ s, dot.fold [v, w] span = .ok (.scalar s span) ∧ Scalar.ofDouble? k x = some s := by
  have hcall : dot.call? [v, w] = some ⟨.scalar k, true, .ok [x]⟩ := by
    rw [call?, hx, hv, decide_eq_true hs]
    rfl
  obtain ⟨c, hc, hty, rfl, hstored⟩ := exists_folded_of_isFloat hk (kind_of_mem_pair hv hw) hcall
    rfl rfl span
  obtain ⟨s, rfl, hscalar⟩ := exists_eq_scalar hty
  rw [hscalar] at hc hstored
  cases hstored with
  | cons hs _ => exact ⟨s, hc, hs⟩

theorem exists_outerProduct_folded (hk : k.isFloat = true) (hv : v.ty = .vector k n)
    (hw : w.ty = .vector k m) (span : Span) :
    ∃ c, outerProduct.fold [v, w] span = .ok c ∧ c.ty = .matrix k m n ∧
      ∀ t : Fin (m * n), c.values[t.val]? = Scalar.ofDouble? k
        ((v.component hv t.modNat).toDouble * (w.component hw t.divNat).toDouble) := by
  have hproduct := outerProduct_eq_ok (values_eq_components hv) (values_eq_components hw)
  have hcall : outerProduct.call? [v, w] = some ⟨.matrix k m n, true, .ok (List.ofFn fun t =>
      (v.component hv t.modNat).toDouble * (w.component hw t.divNat).toDouble)⟩ := by
    rw [call?, hproduct, size_of_vector hv, size_of_vector hw, hv]
    rfl
  obtain ⟨c, hc, hty, _, hstored⟩ := exists_folded_of_isFloat hk
    (kind_of_mem_pair (kind_of_vector hv) (kind_of_vector hw)) hcall rfl
    (by rw [List.length_ofFn, Ty.size]) span
  exact ⟨c, hc, hty, hstored.getElem?_ofFn⟩

/-- The inner product of two vectors is a row times a column, from either side, and their outer
product is a column times a row. -/
theorem vector_products_by_matrices (hk : k.isFloat = true) (span : Span) :
    (∀ {n : Nat} (v w : Constant) (hv : v.ty = .vector k n) (hw : w.ty = .vector k n),
      ∃ s p q, dot.fold [v, w] span = .ok (.scalar s span) ∧
        BinaryOp.vectorTimesMatrix.fold v (w.asColumn hw) = .ok p ∧ p.values = [s] ∧
        BinaryOp.matrixTimesVector.fold (v.asRow hv) w = .ok q ∧ q.values = [s]) ∧
    ∀ {m n : Nat} (c r : Constant) (hc : c.ty = .vector k n) (hr : r.ty = .vector k m),
      ∃ o p, outerProduct.fold [c, r] span = .ok o ∧
        BinaryOp.matrixTimesMatrix.fold (c.asColumn hc) (r.asRow hr) = .ok p ∧ o.ty = p.ty ∧
        o.values = p.values := by
  have hnumeric : k.isNumeric = true := by rw [Kind.isNumeric, hk, Bool.true_or]
  constructor
  · intro n v w hv hw
    have hsizes : v.size = w.size := by rw [size_of_vector hv, size_of_vector hw]
    obtain ⟨s, hs, hstored⟩ := exists_dot_folded hk (kind_of_vector hv) (kind_of_vector hw) hsizes
      (dot_eq_ok (values_eq_components hv) (values_eq_components hw)) span
    obtain ⟨p, hp, hpvalues⟩ := BinaryOp.exists_vectorTimesColumn hnumeric hv hw hstored
    obtain ⟨q, hq, hqvalues⟩ := BinaryOp.exists_rowTimesVector hnumeric hv hw hstored
    exact ⟨s, p, q, hs, hp, hpvalues, hq, hqvalues⟩
  · intro m n c r hc hr
    obtain ⟨o, ho, hoty, hovalues⟩ := exists_outerProduct_folded hk hc hr span
    obtain ⟨p, hp, hpty, hpvalues⟩ := BinaryOp.exists_columnTimesRow hnumeric hc hr
    have hty : o.ty = p.ty := hoty.trans hpty.symm
    refine ⟨o, p, ho, hp, hty, values_ext (size_congr hty) ?_⟩
    intro t ht
    rw [size_of_matrix hoty] at ht
    exact (hovalues ⟨t, ht⟩).trans (hpvalues ⟨t, ht⟩).symm

theorem vector_products_by_matrices_floats :
    let v : Constant := ⟨.vector .float 2, [.float 1, .float (-2)], .dummy, rfl⟩
    let w : Constant := ⟨.vector .float 2, [.float 3, .float 4], .dummy, rfl⟩
    let r : Constant := ⟨.vector .float 3, [.float 5, .float 6, .float 7], .dummy, rfl⟩
    (∃ s p q, dot.fold [v, w] .dummy = .ok (.scalar s .dummy) ∧
      BinaryOp.vectorTimesMatrix.fold v (w.asColumn rfl) = .ok p ∧ p.values = [s] ∧
      BinaryOp.matrixTimesVector.fold (v.asRow rfl) w = .ok q ∧ q.values = [s]) ∧
    ∃ o p, outerProduct.fold [v, r] .dummy = .ok o ∧
      BinaryOp.matrixTimesMatrix.fold (v.asColumn rfl) (r.asRow rfl) = .ok p ∧ o.ty = p.ty ∧
      o.values = p.values := by
  intro v w r
  obtain ⟨hinner, houter⟩ := vector_products_by_matrices (rfl : Kind.float.isFloat = true) .dummy
  exact ⟨hinner v w rfl rfl, houter v r rfl rfl⟩

end Builtin

end ShaderFold
