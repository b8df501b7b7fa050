import Mathlib.Data.List.OfFn
import ShaderFold.Proofs.Elementwise

namespace ShaderFold

theorem mapM_range_eq_ofFn {β : Type} {f : Nat → Except Failure β} {n : Nat} {g : Fin n → β}
    (h : ∀ i : Fin n, f i = .ok (g i)) : (List.range n).mapM f = .ok (List.ofFn g) := by
  refine mapM_eq_ok_iff.2 (List.forall₂_iff_get.2 ⟨?_, ?_⟩)
  · rw [List.length_range, List.length_ofFn]
  · intro i hi _
    rw [List.get_eq_getElem, List.getElem_range, List.get_eq_getElem, List.getElem_ofFn]
    exact h ⟨i, by rwa [List.length_range] at hi⟩

/-- The sum of the products of two sequences of values, accumulated from negative zero in their
order. -/
def sumOfProducts {n : Nat} (x y : Fin n → Scalar) : Double :=
  (List.ofFn fun k => (x k).toDouble * (y k).toDouble).foldl (· + ·) (.zero true)

theorem contract_eq_ok {left right : Constant} {n : Nat} {i j : Nat → Nat} {x y : Fin n → Scalar}
    (hx : ∀ k : Fin n, left.leaf (i k) = .ok (x k))
    (hy : ∀ k : Fin n, right.leaf (j k) = .ok (y k)) :
    contract left right n i j = .ok (sumOfProducts x y) := by
  unfold contract
  rw [mapM_range_eq_ofFn (g := fun k => (x k).toDouble * (y k).toDouble)]
  · rfl
  · intro k
    rw [hx, hy]
    rfl

theorem exists_product (op : BinaryOp) {ty : Ty} {n : Nat} (hn : ty.size = n)
    (hk : ty.kind.isNumeric = true) (f : Nat → Except Failure Double) {s : Fin n → Double}
    (hs : ∀ i : Fin n, f i = .ok (s i)) (span : Span) :
    ∃ c, (do
        let sums ← (List.range n).mapM f
        storeProduct op ty sums span) = .ok c ∧ c.ty = ty ∧
      ∀ i : Fin n, c.values[i.val]? = Scalar.ofDouble? ty.kind (s i) := by
  choose store hstore using Scalar.exists_ofDouble? hk
  have hvalues : (List.ofFn s).filterMap (Scalar.ofDouble? ty.kind) = List.ofFn (store ∘ s) := by
    rw [funext hstore, ← List.map_ofFn]
    exact congrFun List.filterMap_eq_map _
  have hfits : (List.ofFn (store ∘ s)).map Scalar.kind = ty.leafKinds := by
    rw [Ty.leafKinds_eq_replicate ty (Kind.ne_struct_of_isNumeric hk), hn, List.map_ofFn,
      ← List.ofFn_const]
    exact congrArg List.ofFn (funext fun i => Scalar.kind_of_ofDouble?_eq_some (hstore (s i)))
  refine ⟨⟨ty, List.ofFn (store ∘ s), span, hfits⟩, ?_, rfl, ?_⟩
  · rw [mapM_range_eq_ofFn hs]
    change storeProduct op ty (List.ofFn s) span = _
    rw [storeProduct, hvalues]
    exact Constant.result_of_fits _ hfits span
  · intro i
    rw [List.getElem?_ofFn, dif_pos i.isLt]
    exact (hstore (s i)).symm

namespace Constant

section Entries

variable {c : Constant} {kind : Kind} {cols rows : Nat}

theorem index_lt_of_matrix (h : c.ty = .matrix kind cols rows) (i : Fin rows) (j : Fin cols) :
    j * rows + i < c.size := by
  rw [size_of_matrix h]
  exact mul_add_lt_mul j.isLt i.isLt

/-- The entry in a row and a column of a matrix, which is stored column by column. -/
def entry (c : Constant) (h : c.ty = .matrix kind cols rows) (i : Fin rows)
    (j : Fin cols) : Scalar :=
  c.values.get ⟨j * rows + i, index_lt_of_matrix h i j⟩

theorem getElem?_entry (h : c.ty = .matrix kind cols rows) (i : Fin rows) (j : Fin cols) :
    c.values[j * rows + i]? = some (c.entry h i j) :=
  List.getElem?_eq_getElem (index_lt_of_matrix h i j)

theorem leaf_entry (h : c.ty = .matrix kind cols rows) (i : Fin rows) (j : Fin cols) :
    c.leaf (j * rows + i) = .ok (c.entry h i j) :=
  c.leaf_eq_ok (index_lt_of_matrix h i j)

theorem kind_entry (h : c.ty = .matrix kind cols rows) (i : Fin rows) (j : Fin cols) :
    (c.entry h i j).kind = kind := by
  have hmem : (c.entry h i j).kind ∈ c.values.map Scalar.kind :=
    List.mem_map_of_mem (List.get_mem _ _)
  rw [c.fits, h, Ty.leafKinds] at hmem
  exact List.eq_of_mem_replicate hmem

def vector (kind : Kind) {n : Nat} (x : Fin n → Scalar) (h : ∀ i, (x i).kind = kind)
    (span : Span) : Constant where
  ty := .vector kind n
  values := List.ofFn x
  span := span
  fits := by
    rw [List.map_ofFn, Ty.leafKinds, ← List.ofFn_const]
    exact congrArg List.ofFn (funext h)

def column (c : Constant) (h : c.ty = .matrix kind cols rows) (j : Fin cols) : Constant :=
  vector kind (fun i => c.entry h i j) (fun i => kind_entry h i j) c.span

def row (c : Constant) (h : c.ty = .matrix kind cols rows) (i : Fin rows) : Constant :=
  vector kind (fun j => c.entry h i j) (fun j => kind_entry h i j) c.span

end Entries

variable {left right : Constant} {k l : Kind} {inner cols rows : Nat}

theorem leaf_of_values {c : Constant} {n : Nat} {x : Fin n → Scalar} (h : c.values = List.ofFn x)
    (i : Fin n) : c.leaf i = .ok (x i) := by
  rw [leaf, h, List.getElem?_ofFn, dif_pos i.isLt]
  rfl

theorem size_of_values {c : Constant} {n : Nat} {x : Fin n → Scalar}
    (h : c.values = List.ofFn x) :
    c.size = n := by
  rw [size, h, List.length_ofFn]

theorem exists_matrixTimesMatrix (hl : left.ty = .matrix k inner rows) (hk : k.isNumeric = true)
    (hr : right.ty = .matrix l cols inner) :
    ∃ c, left.matrixTimesMatrix right = .ok c ∧ c.ty = .matrix k cols rows ∧
      ∀ (i : Fin rows) (j : Fin cols), c.values[j * rows + i]? =
        Scalar.ofDouble? k (sumOfProducts (left.entry hl i) fun n => right.entry hr n j) := by
  have hsize : (Ty.matrix k cols rows).size = cols * rows := by rw [Ty.size]
  obtain ⟨c, hc, hty, hvalues⟩ := exists_product .matrixTimesMatrix hsize hk
    (fun x => contract left right inner (fun n => n * rows + x % rows)
      (fun n => x / rows * inner + n))
    (fun x => contract_eq_ok (leaf_entry hl x.modNat) fun n => leaf_entry hr n x.divNat) left.span
  refine ⟨c, ?_, hty, ?_⟩
  · rw [matrixTimesMatrix, numericKind, hl, hr, Ty.kind, if_pos hk]
    simp only [bind, Except.bind, ↓reduceIte] at hc ⊢
    exact hc
  · intro i j
    let x : Fin (cols * rows) := ⟨j * rows + i, mul_add_lt_mul j.isLt i.isLt⟩
    have hrow : x.modNat = i := Fin.ext (mul_add_mod_of_lt j i.isLt)
    have hcol : x.divNat = j := Fin.ext (mul_add_div_of_lt j i.isLt)
    have hentry := hvalues x
    rw [hrow, hcol] at hentry
    exact hentry

theorem exists_matrixTimesVector (hl : left.ty = .matrix k cols rows) (hk : k.isNumeric = true)
    {x : Fin cols → Scalar} (hr : right.values = List.ofFn x) :
    ∃ c, left.matrixTimesVector right = .ok c ∧ c.ty = .vector k rows ∧
      ∀ i : Fin rows,
        c.values[i.val]? = Scalar.ofDouble? k (sumOfProducts (left.entry hl i) x) := by
  have hsize : (Ty.vector k rows).size = rows := by rw [Ty.size]
  obtain ⟨c, hc, hty, hvalues⟩ := exists_product .matrixTimesVector hsize hk
    (fun i => contract left right cols (fun n => n * rows + i) id)
    (fun i => contract_eq_ok (leaf_entry hl i) (leaf_of_values hr)) left.span
  refine ⟨c, ?_, hty, hvalues⟩
  rw [matrixTimesVector, numericKind, hl, size_of_values hr, Ty.kind, if_pos hk]
  simp only [bind, Except.bind, ↓reduceIte] at hc ⊢
  exact hc

theorem exists_vectorTimesMatrix {x : Fin rows → Scalar} (hl : left.values = List.ofFn x)
    (hk : left.ty.kind.isNumeric = true) (hr : right.ty = .matrix l cols rows) :
    ∃ c, left.vectorTimesMatrix right = .ok c ∧ c.ty = .vector left.ty.kind cols ∧
      ∀ j : Fin cols, c.values[j.val]? =
        Scalar.ofDouble? left.ty.kind (sumOfProducts x fun n => right.entry hr n j) := by
  have hsize : (Ty.vector left.ty.kind cols).size = cols := by rw [Ty.size]
  obtain ⟨c, hc, hty, hvalues⟩ := exists_product .vectorTimesMatrix hsize hk
    (fun j => contract left right rows id (fun n => j * rows + n))
    (fun j => contract_eq_ok (leaf_of_values hl) fun n => leaf_entry hr n j) left.span
  refine ⟨c, ?_, hty, hvalues⟩
  rw [vectorTimesMatrix, numericKind, hr, size_of_values hl, if_pos hk]
  simp only [bind, Except.bind, ↓reduceIte] at hc ⊢
  exact hc

theorem size_of_vector {c : Constant} {n : Nat} (h : c.ty = .vector k n) : c.size = n := by
  rw [← size_ty, h, Ty.size]

theorem values_eq_ofFn_of_size {c : Constant} {n : Nat} {x : Fin n → Scalar} (hs : c.size = n)
    (h : ∀ i : Fin n, c.values[i.val]? = some (x i)) : c.values = List.ofFn x := by
  apply List.ext_getElem?
  intro i
  rw [List.getElem?_ofFn]
  split
  · rename_i hi
    exact h ⟨i, hi⟩
  · rename_i hi
    refine List.getElem?_eq_none ?_
    have hlength : c.values.length = n := hs
    omega

theorem values_eq_ofFn {c : Constant} {n : Nat} {x : Fin n → Scalar} (hty : c.ty = .vector k n)
    (h : ∀ i : Fin n, c.values[i.val]? = some (x i)) : c.values = List.ofFn x :=
  values_eq_ofFn_of_size (size_of_vector hty) h

end Constant

inductive BinaryOp.IsProduct : BinaryOp → Prop
  | matrices : IsProduct matrixTimesMatrix
  | matrixVector : IsProduct matrixTimesVector
  | vectorMatrix : IsProduct vectorTimesMatrix

/-- The shapes of the operands of a product go together. -/
inductive BinaryOp.Multiplies : BinaryOp → (left right : Constant) → Prop
  | matrices {left right : Constant} {k l : Kind} {inner cols rows : Nat}
      (hl : left.ty = .matrix k inner rows) (hr : right.ty = .matrix l cols inner) :
      Multiplies matrixTimesMatrix left right
  | matrixVector {left right : Constant} {k : Kind} {rows : Nat}
      (hl : left.ty = .matrix k right.size rows) : Multiplies matrixTimesVector left right
  | vectorMatrix {left right : Constant} {l : Kind} {cols : Nat}
      (hr : right.ty = .matrix l cols left.size) : Multiplies vectorTimesMatrix left right

namespace BinaryOp

open Constant

variable {left right : Constant} {k l : Kind} {inner cols rows : Nat}

/-- Each entry of a product of matrices is the sum along a row of the left and a column of the
right one, its columns are products of the left matrix with columns, and its rows are products of
rows with the right matrix. -/
theorem matrixTimesMatrix_entries (hl : left.ty = .matrix k inner rows) (hk : k.isNumeric = true)
    (hr : right.ty = .matrix l cols inner) :
    ∃ c, ∃ hc : c.ty = .matrix k cols rows, matrixTimesMatrix.fold left right = .ok c ∧
      (∀ (i : Fin rows) (j : Fin cols), c.values[j * rows + i]? =
        Scalar.ofDouble? k (sumOfProducts (left.entry hl i) fun n => right.entry hr n j)) ∧
      (∀ j, ∃ p, matrixTimesVector.fold left (right.column hr j) = .ok p ∧
        p.values = (c.column hc j).values) ∧
      ∀ i, ∃ p, vectorTimesMatrix.fold (left.row hl i) right = .ok p ∧
        p.values = (c.row hc i).values := by
  obtain ⟨c, hfold, hc, hentries⟩ := exists_matrixTimesMatrix hl hk hr
  refine ⟨c, hc, hfold, hentries, ?_, ?_⟩
  · intro j
    have hcolumn : (right.column hr j).values = List.ofFn fun n => right.entry hr n j := rfl
    obtain ⟨p, hp, hty, hvalues⟩ := exists_matrixTimesVector hl hk hcolumn
    refine ⟨p, hp, values_eq_ofFn hty ?_⟩
    intro i
    rw [hvalues, ← hentries, getElem?_entry hc]
  · intro i
    have hrow : (left.row hl i).values = List.ofFn (left.entry hl i) := rfl
    obtain ⟨p, hp, hty, hvalues⟩ := exists_vectorTimesMatrix hrow hk hr
    refine ⟨p, hp, values_eq_ofFn hty ?_⟩
    intro j
    rw [← getElem?_entry hc, hentries]
    exact hvalues j

theorem matrixTimesMatrix_entries_rectangular :
    let a : Constant :=
      ⟨.matrix .int 3 2, [.int 1, .int 2, .int 3, .int 4, .int 5, .int 6], .dummy, rfl⟩
    let b : Constant := ⟨.matrix .uint 1 3, [.uint 7, .uint 8, .uint 9], .dummy, rfl⟩
    ∃ c, ∃ hc : c.ty = .matrix .int 1 2, matrixTimesMatrix.fold a b = .ok c ∧
      c.values[1]? =
        Scalar.ofDouble? .int (sumOfProducts (a.entry rfl 1) fun n => b.entry rfl n 0) ∧
      (∃ p, matrixTimesVector.fold a (b.column rfl 0) = .ok p ∧
        p.values = (c.column hc 0).values) ∧
      ∃ p, vectorTimesMatrix.fold (a.row rfl 1) b = .ok p ∧ p.values = (c.row hc 1).values := by
  intro a b
  have ha : a.ty = .matrix .int 3 2 := rfl
  have hb : b.ty = .matrix .uint 1 3 := rfl
  obtain ⟨c, hc, hfold, hentries, hcolumns, hrows⟩ := matrixTimesMatrix_entries ha rfl hb
  exact ⟨c, hc, hfold, hentries 1 0, hcolumns 0, hrows 1⟩

example : matrixTimesMatrix.fold
    ⟨.matrix .int 3 2, [.int 1, .int 2, .int 3, .int 4, .int 5, .int 6], .dummy, rfl⟩
    ⟨.matrix .uint 1 3, [.uint 7, .uint 8, .uint 9], .dummy, rfl⟩ =
      .ok ⟨.matrix .int 1 2, [.int 76, .int 100], .dummy, rfl⟩ := by
  decide +kernel

variable {op : BinaryOp}

theorem Multiplies.exists_folded (h : op.Multiplies left right)
    (hk : left.ty.kind.isNumeric = true) : ∃ c, op.fold left right = .ok c := by
  cases h with
  | matrices hl hr =>
    rw [hl] at hk
    obtain ⟨c, hc, _⟩ := exists_matrixTimesMatrix hl hk hr
    exact ⟨c, hc⟩
  | matrixVector hl =>
    rw [hl] at hk
    obtain ⟨c, hc, _⟩ := exists_matrixTimesVector hl hk (List.ofFn_get right.values).symm
    exact ⟨c, hc⟩
  | vectorMatrix hr =>
    obtain ⟨c, hc, _⟩ := exists_vectorTimesMatrix (List.ofFn_get left.values).symm hk hr
    exact ⟨c, hc⟩

theorem IsProduct.fold_of_not_numeric (h : op.IsProduct) (hk : left.ty.kind.isNumeric = false)
    (right : Constant) :
    op.fold left right = .error (.unsupported (.binary op) left.ty.kind) := by
  have hkind : numericKind op left = .error (.unsupported (.binary op) left.ty.kind) :=
    if_neg (ne_true_of_eq_false hk)
  cases h with
  | matrices =>
    change left.matrixTimesMatrix right = _
    rw [Constant.matrixTimesMatrix, hkind]
    rfl
  | matrixVector =>
    change left.matrixTimesVector right = _
    rw [Constant.matrixTimesVector, hkind]
    rfl
  | vectorMatrix =>
    change left.vectorTimesMatrix right = _
    rw [Constant.vectorTimesMatrix, hkind]
    rfl

theorem IsProduct.fold_of_not_multiplies (h : op.IsProduct) (hk : left.ty.kind.isNumeric = true)
    (hm : ¬op.Multiplies left right) :
    op.fold left right = .error (.malformed (.binary op) (.product left.ty right.ty)) := by
  have hkind : numericKind op left = .ok left.ty.kind := if_pos hk
  cases h with
  | matrices =>
    change left.matrixTimesMatrix right = _
    rw [Constant.matrixTimesMatrix, hkind]
    simp only [bind, Except.bind]
    split
    · rename_i hl hr
      split
      · rename_i hinner
        subst hinner
        exact (hm (.matrices hl hr)).elim
      · rfl
    · rfl
  | matrixVector =>
    change left.matrixTimesVector right = _
    rw [Constant.matrixTimesVector, hkind]
    simp only [bind, Except.bind]
    split
    · rename_i hl
      split
      · rename_i hcols
        subst hcols
        exact (hm (.matrixVector hl)).elim
      · rfl
    · rfl
  | vectorMatrix =>
    change left.vectorTimesMatrix right = _
    rw [Constant.vectorTimesMatrix, hkind]
    simp only [bind, Except.bind]
    split
    · rename_i hr
      split
      · rename_i hrows
        subst hrows
        exact (hm (.vectorMatrix hr)).elim
      · rfl
    · rfl

theorem IsProduct.exists_folded_iff (h : op.IsProduct) :
    (∃ c, op.fold left right = .ok c) ↔
      left.ty.kind.isNumeric = true ∧ op.Multiplies left right := by
  constructor
  · rintro ⟨c, hc⟩
    have hk : left.ty.kind.isNumeric = true := by
      by_contra hk
      cases hc.symm.trans (h.fold_of_not_numeric (eq_false_of_ne_true hk) right)
    refine ⟨hk, ?_⟩
    by_contra hm
    cases hc.symm.trans (h.fold_of_not_multiplies hk hm)
  · rintro ⟨hk, hm⟩
    exact hm.exists_folded hk

/-- A product is folded exactly if the left operand is made of numbers and the shapes go together.
The kind of the right operand is never looked at, so it need not be that of numbers. -/
theorem product_folds_iff (h : op.IsProduct) (left right : Constant) :
    ((∃ c, op.fold left right = .ok c) ↔
      left.ty.kind.isNumeric = true ∧ op.Multiplies left right) ∧
    (((∃ c, op.fold left right = .ok c) →
        left.ty.kind.isNumeric = true ∧ right.ty.kind.isNumeric = true) ↔
      (left.ty.kind.isNumeric = true → op.Multiplies left right →
        right.ty.kind.isNumeric = true)) ∧
    (left.ty.kind.isNumeric = false →
      op.fold left right = .error (.unsupported (.binary op) left.ty.kind)) ∧
    (left.ty.kind.isNumeric = true → ¬op.Multiplies left right →
      op.fold left right = .error (.malformed (.binary op) (.product left.ty right.ty))) := by
  refine ⟨h.exists_folded_iff, ?_, fun hk => h.fold_of_not_numeric hk right,
    h.fold_of_not_multiplies⟩
  rw [h.exists_folded_iff]
  constructor
  · intro hboth hk hm
    exact (hboth ⟨hk, hm⟩).2
  · rintro hright ⟨hk, hm⟩
    exact ⟨hk, hright hk hm⟩

theorem product_folds_iff_structure :
    let matrix : Constant := ⟨.matrix .float 2 3, List.replicate 6 (.float 1), .dummy, rfl⟩
    let light : Constant :=
      ⟨.struct [⟨"on", .scalar .bool⟩, ⟨"level", .scalar .int⟩], [.bool true, .int 4],
        .dummy, rfl⟩
    light.ty.kind = .struct ∧ ∃ c, matrixTimesVector.fold matrix light = .ok c := by
  intro matrix light
  exact ⟨rfl, (product_folds_iff .matrixVector matrix light).1.2 ⟨rfl, .matrixVector rfl⟩⟩

theorem product_folds_booleans :
    let matrix : Constant := ⟨.matrix .int 2 1, [.int 3, .int 5], .dummy, rfl⟩
    let flags : Constant := ⟨.vector .bool 2, [.bool true, .bool true], .dummy, rfl⟩
    flags.ty.kind.isNumeric = false ∧
      matrixTimesVector.fold matrix flags = .ok ⟨.vector .int 1, [.int 8], .dummy, rfl⟩ := by
  decide +kernel

end BinaryOp

end ShaderFold
