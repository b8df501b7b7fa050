import Mathlib.Algebra.BigOperators.Fin
import Mathlib.Data.Matrix.Mul
import ShaderFold.Proofs.ExactIntegers
import ShaderFold.Proofs.VectorProduct

namespace ShaderFold

open FloatFormat

/-- Accumulating integers is exact if all their magnitudes together can be counted. -/
theorem BinaryFloat.isInt_foldl_add {n : Nat} {x : Double} {xs : Fin n → Double} {m : ℤ}
    {zs : Fin n → ℤ} (hx : x.IsInt m) (hxs : ∀ i, (xs i).IsInt (zs i))
    (h : m.natAbs + ∑ i, (zs i).natAbs ≤ 2 ^ 53) :
    ((List.ofFn xs).foldl (· + ·) x).IsInt (m + ∑ i, zs i) := by
  induction n generalizing x m with
  | zero => simpa using hx
  | succ n ih =>
    rw [Fin.sum_univ_succ] at h ⊢
    rw [List.ofFn_succ, List.foldl_cons, ← Int.add_assoc]
    -- No partial sum is larger than the magnitudes that went into it.
    have hpartial : (m + zs 0).natAbs ≤ m.natAbs + (zs 0).natAbs := Int.natAbs_add_le ..
    apply ih (hx.add (hxs 0) (double_holds (by omega))) (fun i => hxs i.succ)
    omega

theorem isInt_sumOfProducts {n : Nat} {x y : Fin n → Scalar} {a b : Fin n → ℤ}
    (hx : ∀ i, (x i).integer? = some (a i)) (hy : ∀ i, (y i).integer? = some (b i))
    (h : ∑ i, (a i * b i).natAbs ≤ 2 ^ 53) : (sumOfProducts x y).IsInt (∑ i, a i * b i) := by
  have hproducts (i : Fin n) : ((x i).toDouble * (y i).toDouble).IsInt (a i * b i) := by
    have hle : (a i * b i).natAbs ≤ ∑ i, (a i * b i).natAbs :=
      Finset.single_le_sum (f := fun i => (a i * b i).natAbs) (fun _ _ => Nat.zero_le _)
        (Finset.mem_univ i)
    exact (Scalar.isInt_toDouble (hx i)).mul (Scalar.isInt_toDouble (hy i))
      (double_holds (hle.trans h))
  have hsum := BinaryFloat.isInt_foldl_add (BinaryFloat.isInt_zero true) hproducts
    (by rwa [Int.natAbs_zero, Nat.zero_add])
  rwa [Int.zero_add] at hsum

theorem Scalar.integer_of_sumOfProducts {n : Nat} {x y : Fin n → Scalar} {a b : Fin n → ℤ}
    {k : Kind} {v : Scalar} {m : ℤ} (hk : k.isInteger = true)
    (hx : ∀ i, (x i).integer? = some (a i)) (hy : ∀ i, (y i).integer? = some (b i))
    (hv : ofDouble? k (sumOfProducts x y) = some v) (hm : v.integer? = some m)
    (h : ∑ i, (a i * b i).natAbs ≤ 2 ^ 53) :
    m = k.saturate (∑ i, a i * b i) := by
  obtain ⟨w, hw, _, hinteger⟩ := exists_ofDouble?_of_isInt (isInt_sumOfProducts hx hy h) hk
  cases hv.symm.trans hw
  exact Option.some.inj (hm.symm.trans hinteger)

def Scalar.integer (v : Scalar) (h : v.kind.isInteger = true) : ℤ :=
  v.integer?.get (Option.isSome_iff_exists.2 (exists_integer? h))

theorem Scalar.integer?_eq_some (v : Scalar) (h : v.kind.isInteger = true) :
    v.integer? = some (v.integer h) :=
  (Option.some_get _).symm

namespace Constant

variable {c : Constant} {k : Kind} {cols rows n : Nat}

theorem kind_component (h : c.ty = .vector k n) (i : Fin n) : (c.component h i).kind = k := by
  rw [← entry_asColumn h]
  exact kind_entry rfl i 0

theorem getElem?_component (h : c.ty = .vector k n) (i : Fin n) :
    c.values[i.val]? = some (c.component h i) :=
  List.getElem?_eq_getElem _

def integerMatrix (c : Constant) (h : c.ty = .matrix k cols rows) (hk : k.isInteger = true) :
    Matrix (Fin rows) (Fin cols) ℤ :=
  .of fun i j => (c.entry h i j).integer (by rwa [kind_entry h])

def integerVector (c : Constant) (h : c.ty = .vector k n) (hk : k.isInteger = true)
    (i : Fin n) : ℤ :=
  (c.component h i).integer (by rwa [kind_component h])

theorem integer?_entry (h : c.ty = .matrix k cols rows) (hk : k.isInteger = true) (i : Fin rows)
    (j : Fin cols) : (c.entry h i j).integer? = some (c.integerMatrix h hk i j) :=
  (c.entry h i j).integer?_eq_some (by rwa [kind_entry h])

theorem integer?_component (h : c.ty = .vector k n) (hk : k.isInteger = true) (i : Fin n) :
    (c.component h i).integer? = some (c.integerVector h hk i) :=
  (c.component h i).integer?_eq_some (by rwa [kind_component h])

end Constant

namespace BinaryOp

open Constant

/-- Products of matrices and vectors of one integer kind are exact and saturate. -/
theorem integer_products {k : Kind} (hk : k.isInteger = true) :
    (∀ {a b : Constant} {inner cols rows : Nat} (ha : a.ty = .matrix k inner rows)
      (hb : b.ty = .matrix k cols inner), ∃ c, ∃ hc : c.ty = .matrix k cols rows,
        matrixTimesMatrix.fold a b = .ok c ∧
        ∀ i j, ∑ n, (a.integerMatrix ha hk i n * b.integerMatrix hb hk n j).natAbs ≤ 2 ^ 53 →
          c.integerMatrix hc hk i j =
            k.saturate ((a.integerMatrix ha hk * b.integerMatrix hb hk) i j)) ∧
    (∀ {a x : Constant} {cols rows : Nat} (ha : a.ty = .matrix k cols rows)
      (hx : x.ty = .vector k cols), ∃ c, ∃ hc : c.ty = .vector k rows,
        matrixTimesVector.fold a x = .ok c ∧
        ∀ i, ∑ n, (a.integerMatrix ha hk i n * x.integerVector hx hk n).natAbs ≤ 2 ^ 53 →
          c.integerVector hc hk i =
            k.saturate ((a.integerMatrix ha hk).mulVec (x.integerVector hx hk) i)) ∧
    ∀ {x b : Constant} {cols rows : Nat} (hx : x.ty = .vector k rows)
      (hb : b.ty = .matrix k cols rows), ∃ c, ∃ hc : c.ty = .vector k cols,
        vectorTimesMatrix.fold x b = .ok c ∧
        ∀ j, ∑ n, (x.integerVector hx hk n * b.integerMatrix hb hk n j).natAbs ≤ 2 ^ 53 →
          c.integerVector hc hk j =
            k.saturate ((b.integerMatrix hb hk).vecMul (x.integerVector hx hk) j) := by
  have hnumeric : k.isNumeric = true := Kind.isNumeric_of_isInteger hk
  refine ⟨?_, ?_, ?_⟩
  · intro a b inner cols rows ha hb
    obtain ⟨c, hfold, hc, hentries⟩ := exists_matrixTimesMatrix ha hnumeric hb
    refine ⟨c, hc, hfold, ?_⟩
    intro i j hbound
    have hstored := (hentries i j).symm.trans (getElem?_entry hc i j)
    exact Scalar.integer_of_sumOfProducts hk (integer?_entry ha hk i)
      (fun n => integer?_entry hb hk n j) hstored (integer?_entry hc hk i j) hbound
  · intro a x cols rows ha hx
    obtain ⟨c, hfold, hc, hentries⟩ :=
      exists_matrixTimesVector ha hnumeric (values_eq_components hx)
    refine ⟨c, hc, hfold, ?_⟩
    intro i hbound
    have hstored := (hentries i).symm.trans (getElem?_component hc i)
    exact Scalar.integer_of_sumOfProducts hk (integer?_entry ha hk i) (integer?_component hx hk)
      hstored (integer?_component hc hk i) hbound
  · intro x b cols rows hx hb
    have hkind : x.ty.kind = k := kind_of_vector hx
    obtain ⟨c, hfold, hc, hentries⟩ :=
      exists_vectorTimesMatrix (values_eq_components hx) (hkind ▸ hnumeric) hb
    rw [hkind] at hc hentries
    refine ⟨c, hc, hfold, ?_⟩
    intro j hbound
    have hstored := (hentries j).symm.trans (getElem?_component hc j)
    exact Scalar.integer_of_sumOfProducts hk (integer?_component hx hk)
      (fun n => integer?_entry hb hk n j) hstored (integer?_component hc hk j) hbound

theorem integer_products_saturated :
    let a : Constant := ⟨.matrix .int 2 1, [.int 0x7FFFFFFF, .int (-7)], .dummy, rfl⟩
    let b : Constant := ⟨.matrix .int 1 2, [.int 0x100000, .int 3], .dummy, rfl⟩
    let x : Constant := ⟨.vector .int 2, [.int 0x7FFFFFFF, .int (-7)], .dummy, rfl⟩
    let y : Constant := ⟨.vector .int 2, [.int 0x100000, .int 3], .dummy, rfl⟩
    (∃ c, ∃ hc : c.ty = .matrix .int 1 1, matrixTimesMatrix.fold a b = .ok c ∧
      c.integerMatrix hc rfl 0 0 = 0x7FFFFFFF) ∧
    (∃ c, ∃ hc : c.ty = .vector .int 1, matrixTimesVector.fold a y = .ok c ∧
      c.integerVector hc rfl 0 = 0x7FFFFFFF) ∧
    ∃ c, ∃ hc : c.ty = .vector .int 1, vectorTimesMatrix.fold x b = .ok c ∧
      c.integerVector hc rfl 0 = 0x7FFFFFFF := by
  intro a b x y
  obtain ⟨hmatrices, hcolumn, hrow⟩ := integer_products (k := .int) rfl
  refine ⟨?_, ?_, ?_⟩
  · obtain ⟨c, hc, hfold, hentries⟩ := hmatrices (a := a) (b := b) rfl rfl
    exact ⟨c, hc, hfold, hentries 0 0 (by decide +kernel)⟩
  · obtain ⟨c, hc, hfold, hentries⟩ := hcolumn (a := a) (x := y) rfl rfl
    exact ⟨c, hc, hfold, hentries 0 (by decide +kernel)⟩
  · obtain ⟨c, hc, hfold, hentries⟩ := hrow (x := x) (b := b) rfl rfl
    exact ⟨c, hc, hfold, hentries 0 (by decide +kernel)⟩

end BinaryOp

end ShaderFold
