import ShaderFold.Fold.Binary
import ShaderFold.Fold.Call

namespace ShaderFold

theorem bind_eq_ok_iff {α β : Type} {x : Except Failure α} {f : α → Except Failure β} {b : β} :
    x >>= f = .ok b ↔ ∃ a, x = .ok a ∧ f a = .ok b := by
  cases x with
  | error failure => simp [bind, Except.bind]
  | ok a => simp [bind, Except.bind]

theorem exists_mapM {α β : Type} {f : α → Except Failure β} {xs : List α}
    (h : ∀ x ∈ xs, ∃ y, f x = .ok y) : ∃ ys, xs.mapM f = .ok ys ∧ ys.length = xs.length := by
  induction xs with
  | nil => exact ⟨[], rfl, rfl⟩
  | cons x xs ih =>
    obtain ⟨y, hy⟩ := h x List.mem_cons_self
    obtain ⟨ys, hys, hlen⟩ := ih fun z hz => h z (List.mem_cons_of_mem x hz)
    refine ⟨y :: ys, ?_, by rw [List.length_cons, List.length_cons, hlen]⟩
    rw [List.mapM_cons, hy, hys]
    rfl

theorem exists_mapM_range {β : Type} {f : Nat → Except Failure β} {n : Nat}
    (h : ∀ i < n, ∃ y, f i = .ok y) : ∃ ys, (List.range n).mapM f = .ok ys ∧ ys.length = n := by
  obtain ⟨ys, hys, hlen⟩ := exists_mapM fun i hi => h i (List.mem_range.1 hi)
  exact ⟨ys, hys, hlen.trans List.length_range⟩

namespace Constant

/-- A leaf stands at each index below `n`. -/
def Covers (c : Constant) (n : Nat) : Prop :=
  c.size = 1 ∨ n ≤ c.size

theorem exists_leaf {c : Constant} {index : Nat} (h : index < c.size) :
    ∃ v, c.leaf index = .ok v :=
  ⟨_, c.leaf_eq_ok h⟩

theorem broadcast?_of_lt {c : Constant} {i : Nat} (h : i < c.size) :
    c.broadcast? i = c.values[i]? := by
  by_cases h1 : c.size = 1
  · obtain rfl : i = 0 := by omega
    rw [broadcast?, if_pos h1]
  · rw [broadcast?, if_neg h1]

theorem broadcast?_of_size_one {c : Constant} (h : c.size = 1) (i j : Nat) :
    c.broadcast? i = c.broadcast? j := by
  rw [broadcast?, broadcast?, if_pos h, if_pos h]

theorem lt_size_of_broadcast? {c : Constant} (h1 : c.size ≠ 1) {i : Nat} {v : Scalar}
    (h : c.broadcast? i = some v) : i < c.size := by
  rw [broadcast?, if_neg h1] at h
  exact (List.getElem?_eq_some_iff.1 h).1

theorem exists_broadcast? {c : Constant} {n index : Nat} (h : c.Covers n) (hi : index < n) :
    ∃ v, c.broadcast? index = some v := by
  by_cases h1 : c.size = 1
  · have h0 : 0 < c.values.length := by rw [size] at h1; omega
    exact ⟨_, by rw [broadcast?, if_pos h1, List.getElem?_eq_getElem h0]⟩
  · have hlt : index < c.values.length := Nat.lt_of_lt_of_le hi (h.resolve_left h1)
    exact ⟨_, by rw [broadcast?, if_neg h1, List.getElem?_eq_getElem hlt]⟩

theorem exists_broadcast {c : Constant} {n index : Nat} (h : c.Covers n) (hi : index < n) :
    ∃ v, c.broadcast index = .ok v := by
  obtain ⟨v, hv⟩ := exists_broadcast? h hi
  exact ⟨v, broadcast_eq_ok_iff.2 hv⟩

theorem exists_number {c : Constant} {n index : Nat} (h : c.Covers n) (hi : index < n) :
    ∃ x, c.number index = .ok x := by
  obtain ⟨v, hv⟩ := exists_broadcast h hi
  refine ⟨v.toDouble, ?_⟩
  rw [number, hv]
  rfl

theorem size_of_matrix {c : Constant} {k : Kind} {cols rows : Nat}
    (h : c.ty = .matrix k cols rows) :
    c.size = cols * rows := by
  rw [← size_ty, h, Ty.size]

theorem covers_size (c : Constant) : c.Covers c.size :=
  .inr (Nat.le_refl _)

theorem covers_of_size_eq {c : Constant} {n : Nat} (h : n = c.size) : c.Covers n :=
  .inr (Nat.le_of_eq h)

theorem covers_of_one_or {c : Constant} {n : Nat} (h : c.size = 1 ∨ c.size = n) : c.Covers n :=
  h.imp_right fun h => Nat.le_of_eq h.symm

end Constant

theorem exists_onPairs {a b : Constant} {n : Nat} (ha : a.Covers n) (hb : b.Covers n)
    (function : Double → Double → Double) :
    ∃ xs, onPairs n a b function = .ok xs ∧ xs.length = n := by
  apply exists_mapM_range
  intro j hj
  obtain ⟨x, hx⟩ := Constant.exists_number ha hj
  obtain ⟨y, hy⟩ := Constant.exists_number hb hj
  exact ⟨function x y, by rw [hx, hy]; rfl⟩

theorem exists_onTriples {a b c : Constant} {n : Nat} (ha : a.Covers n) (hb : b.Covers n)
    (hc : c.Covers n) (function : Double → Double → Double → Double) :
    ∃ xs, onTriples n a b c function = .ok xs ∧ xs.length = n := by
  apply exists_mapM_range
  intro j hj
  obtain ⟨x, hx⟩ := Constant.exists_number ha hj
  obtain ⟨y, hy⟩ := Constant.exists_number hb hj
  obtain ⟨z, hz⟩ := Constant.exists_number hc hj
  exact ⟨function x y z, by rw [hx, hy, hz]; rfl⟩

namespace Constant

variable {a b c : Constant}

theorem exists_dot (h : a.size = b.size) : ∃ d, a.dot b = .ok d := by
  obtain ⟨terms, hterms, _⟩ := exists_onPairs a.covers_size (covers_of_size_eq h) (· * ·)
  exact ⟨BinaryFloat.sum terms, by rw [dot, hterms]; rfl⟩

theorem exists_distance (h : a.size = b.size) : ∃ d, a.distance b = .ok d := by
  obtain ⟨terms, hterms, _⟩ := exists_onPairs a.covers_size (covers_of_size_eq h)
    fun x y => (x - y) * (x - y)
  exact ⟨(BinaryFloat.sum terms).sqrt, by rw [distance, hterms]; rfl⟩

theorem exists_cross (ha : a.size = 3) (hb : b.size = 3) :
    ∃ xs, a.cross b = .ok xs ∧ xs.length = 3 := by
  apply exists_mapM
  intro j _
  have hp : (j + 1) % 3 < 3 := Nat.mod_lt _ (by decide)
  have hq : (j + 2) % 3 < 3 := Nat.mod_lt _ (by decide)
  obtain ⟨ap, hap⟩ := exists_number (covers_of_size_eq ha.symm) hp
  obtain ⟨bq, hbq⟩ := exists_number (covers_of_size_eq hb.symm) hq
  obtain ⟨aq, haq⟩ := exists_number (covers_of_size_eq ha.symm) hq
  obtain ⟨bp, hbp⟩ := exists_number (covers_of_size_eq hb.symm) hp
  exact ⟨ap * bq - aq * bp, by simp only [hap, hbq, haq, hbp]; rfl⟩

theorem exists_faceForward (hb : a.size = b.size) (hc : a.size = c.size) :
    ∃ xs, a.faceForward b c = .ok xs ∧ xs.length = a.size := by
  obtain ⟨d, hd⟩ := exists_dot (hc.symm.trans hb)
  rw [faceForward, hd]
  apply exists_mapM_range
  intro j hj
  obtain ⟨x, hx⟩ := exists_number a.covers_size hj
  exact ⟨_, by rw [hx]; rfl⟩

theorem exists_reflect (h : a.size = b.size) :
    ∃ xs, a.reflect b = .ok xs ∧ xs.length = a.size := by
  obtain ⟨d, hd⟩ := exists_dot h.symm
  obtain ⟨xs, hxs, hlen⟩ := exists_onPairs a.covers_size (covers_of_size_eq h)
    fun x n => x - 2 * d * n
  exact ⟨xs, by rw [reflect, hd]; exact hxs, hlen⟩

theorem exists_refract (h : a.size = b.size) (hc : c.size = 1) :
    ∃ xs, a.refract b c = .ok xs ∧ xs.length = a.size := by
  obtain ⟨d, hd⟩ := exists_dot h.symm
  obtain ⟨eta, heta⟩ : ∃ x, c.number 0 = .ok x := exists_number (.inl hc) Nat.zero_lt_one
  obtain ⟨xs, hxs, hlen⟩ := exists_onPairs a.covers_size (covers_of_size_eq h) fun x n =>
    eta * x - (eta * d + (1 - eta * eta * (1 - d * d)).sqrt) * n
  by_cases hk : (1 - eta * eta * (1 - d * d)).less 0 = true
  · refine ⟨List.replicate a.size 0, ?_, List.length_replicate⟩
    rw [refract, hd]
    simp only [bind, Except.bind, heta, hk, ↓reduceIte]
  · refine ⟨xs, ?_, hlen⟩
    rw [refract, hd]
    simp only [bind, Except.bind, heta, hk]
    exact hxs

theorem exists_outerProduct (column row : Constant) :
    ∃ xs, column.outerProduct row = .ok xs ∧ xs.length = row.size * column.size := by
  apply exists_mapM_range
  intro index hlt
  have hrows : column.size ≠ 0 := by
    intro h0
    rw [h0] at hlt
    omega
  have hrow : index / column.size < row.size := Nat.div_lt_of_lt_mul (Nat.mul_comm .. ▸ hlt)
  have hcol : index % column.size < column.size := Nat.mod_lt _ (Nat.pos_of_ne_zero hrows)
  obtain ⟨x, hx⟩ := exists_number column.covers_size hcol
  obtain ⟨y, hy⟩ := exists_number row.covers_size hrow
  refine ⟨x * y, ?_⟩
  rw [position, if_neg hrows]
  simp only [bind, Except.bind, hx, hy]

end Constant

namespace BuiltinCall

theorem size_of_broadcasts {ty : Ty} {operands : List Constant}
    (h : broadcasts ty operands = true) : ∀ c ∈ operands, c.size = 1 ∨ c.size = ty.size := by
  intro c hc
  have hsize := List.all_eq_true.1 h c hc
  exact of_decide_eq_true hsize

theorem covers_of_broadcasts {ty : Ty} {operands : List Constant}
    (h : broadcasts ty operands = true) : ∀ c ∈ operands, c.Covers ty.size := by
  intro c hc
  exact Constant.covers_of_one_or (size_of_broadcasts h c hc)

theorem exists_pairwise {ty : Ty} {a b : Constant} {function : Double → Double → Double}
    (h : (pairwise ty a b function).agree = true) :
    ∃ xs, (pairwise ty a b function).numbers = .ok xs ∧ xs.length = ty.size := by
  have hc := covers_of_broadcasts h
  exact exists_onPairs (hc a (by simp)) (hc b (by simp)) function

theorem exists_triplewise {ty : Ty} {a b c : Constant}
    {function : Double → Double → Double → Double}
    (h : (triplewise ty a b c function).agree = true) :
    ∃ xs, (triplewise ty a b c function).numbers = .ok xs ∧ xs.length = ty.size := by
  have hc := covers_of_broadcasts h
  exact exists_onTriples (hc a (by simp)) (hc b (by simp)) (hc c (by simp)) function

end BuiltinCall

theorem Builtin.numbers_modf {operands : List Constant} {call : BuiltinCall}
    (h : modf.call? operands = some call) :
    call.numbers = .error (.notFoldable (.builtin modf)) := by
  rcases operands with _ | ⟨x, _ | ⟨y, _ | ⟨z, rest⟩⟩⟩ <;> cases h
  rfl

/-- A built-in function other than `modf` gives as many numbers as its type has leaves, if its
operands go together. -/
theorem Builtin.exists_numbers {op : Builtin} {operands : List Constant} {call : BuiltinCall}
    (hm : op ≠ .modf) (h : op.call? operands = some call) (ha : call.agree = true) :
    ∃ xs, call.numbers = .ok xs ∧ xs.length = call.ty.size := by
  -- The cases follow the rows of `call?`.
  unfold call? at h
  split at h <;> cases h
  · exact BuiltinCall.exists_pairwise ha
  · exact BuiltinCall.exists_pairwise ha
  · exact BuiltinCall.exists_pairwise ha
  · exact BuiltinCall.exists_pairwise ha
  · exact (hm rfl).elim
  · exact BuiltinCall.exists_triplewise ha
  · exact BuiltinCall.exists_triplewise ha
  · exact BuiltinCall.exists_pairwise ha
  · exact BuiltinCall.exists_triplewise ha
  · obtain ⟨d, hd⟩ := Constant.exists_distance (of_decide_eq_true ha)
    exact ⟨[d], by simp only [hd]; rfl, by simp [Ty.size]⟩
  · obtain ⟨d, hd⟩ := Constant.exists_dot (of_decide_eq_true ha)
    exact ⟨[d], by simp only [hd]; rfl, by simp [Ty.size]⟩
  · have hs := of_decide_eq_true ha
    obtain ⟨xs, hxs, hlen⟩ := Constant.exists_cross hs.1 hs.2
    exact ⟨xs, hxs, by rw [hlen, Constant.size_ty, hs.1]⟩
  · have hs := of_decide_eq_true ha
    obtain ⟨xs, hxs, hlen⟩ := Constant.exists_faceForward hs.1 hs.2
    exact ⟨xs, hxs, by rw [hlen, Constant.size_ty]⟩
  · obtain ⟨xs, hxs, hlen⟩ := Constant.exists_reflect (of_decide_eq_true ha)
    exact ⟨xs, hxs, by rw [hlen, Constant.size_ty]⟩
  · have hs := of_decide_eq_true ha
    obtain ⟨xs, hxs, hlen⟩ := Constant.exists_refract hs.1 hs.2
    exact ⟨xs, hxs, by rw [hlen, Constant.size_ty]⟩
  · obtain ⟨xs, hxs, hlen⟩ := Constant.exists_outerProduct _ _
    exact ⟨xs, hxs, by rw [hlen, Ty.size]⟩

theorem exists_contract {left right : Constant} {n : Nat} {i j : Nat → Nat}
    (hi : ∀ k < n, i k < left.size) (hj : ∀ k < n, j k < right.size) :
    ∃ x, contract left right n i j = .ok x := by
  have h : ∀ k < n, ∃ y, (do
      let a ← left.leaf (i k)
      let b ← right.leaf (j k)
      .ok (a.toDouble * b.toDouble) : Except Failure Double) = .ok y := by
    intro k hk
    obtain ⟨a, ha⟩ := Constant.exists_leaf (hi k hk)
    obtain ⟨b, hb⟩ := Constant.exists_leaf (hj k hk)
    exact ⟨a.toDouble * b.toDouble, by rw [ha, hb]; rfl⟩
  obtain ⟨terms, hterms, _⟩ := exists_mapM_range h
  exact ⟨BinaryFloat.sum terms, by rw [contract, hterms]; rfl⟩

theorem mul_add_lt_mul {col cols row rows : Nat} (hc : col < cols) (hr : row < rows) :
    col * rows + row < cols * rows :=
  calc col * rows + row < col * rows + rows := by omega
    _ = (col + 1) * rows := (Nat.succ_mul ..).symm
    _ ≤ cols * rows := Nat.mul_le_mul_right _ hc

theorem mul_add_mod_of_lt (col : Nat) {row rows : Nat} (h : row < rows) :
    (col * rows + row) % rows = row := by
  rw [Nat.mul_add_mod', Nat.mod_eq_of_lt h]

theorem mul_add_div_of_lt (col : Nat) {row rows : Nat} (h : row < rows) :
    (col * rows + row) / rows = col := by
  rw [Nat.mul_comm, Nat.mul_add_div (Nat.zero_lt_of_lt h), Nat.div_eq_of_lt h, Nat.add_zero]

namespace Constant

variable {left right : Constant} {inner cols rows : Nat}

theorem exists_matrixTimesMatrix_sums (hl : left.size = inner * rows)
    (hr : right.size = cols * inner) :
    ∃ sums, (List.range (cols * rows)).mapM (fun index =>
        contract left right inner (fun k => k * rows + index % rows)
          (fun k => index / rows * inner + k)) = .ok sums ∧ sums.length = cols * rows := by
  apply exists_mapM_range
  intro index hlt
  have hrows : 0 < rows := Nat.pos_of_ne_zero fun h0 => by rw [h0] at hlt; omega
  have hcol : index / rows < cols := Nat.div_lt_of_lt_mul (Nat.mul_comm .. ▸ hlt)
  apply exists_contract
  · intro k hk
    rw [hl]
    exact mul_add_lt_mul hk (Nat.mod_lt _ hrows)
  · intro k hk
    rw [hr]
    exact mul_add_lt_mul hcol hk

theorem exists_matrixTimesVector_sums (hl : left.size = cols * rows) (hr : right.size = cols) :
    ∃ sums, (List.range rows).mapM (fun row =>
        contract left right cols (fun k => k * rows + row) id) = .ok sums ∧
      sums.length = rows := by
  apply exists_mapM_range
  intro row hrow
  apply exists_contract
  · intro k hk
    rw [hl]
    exact mul_add_lt_mul hk hrow
  · intro k hk
    rw [hr]
    exact hk

theorem exists_vectorTimesMatrix_sums (hl : left.size = rows) (hr : right.size = cols * rows) :
    ∃ sums, (List.range cols).mapM (fun col =>
        contract left right rows id (fun k => col * rows + k)) = .ok sums ∧
      sums.length = cols := by
  apply exists_mapM_range
  intro col hcol
  apply exists_contract
  · intro k hk
    rw [hl]
    exact hk
  · intro k hk
    rw [hr]
    exact mul_add_lt_mul hcol hk

end Constant

theorem covers_of_broadcastTy {op : BinaryOp} {left right : Constant} {ty : Ty}
    (h : broadcastTy op left right = .ok ty) : left.Covers ty.size ∧ right.Covers ty.size := by
  unfold broadcastTy at h
  split at h
  · rename_i hs
    cases h
    rw [Constant.size_ty]
    exact ⟨left.covers_size, Constant.covers_of_size_eq hs⟩
  · split at h
    · rename_i h1
      cases h
      rw [Constant.size_ty]
      exact ⟨.inl h1, right.covers_size⟩
    · split at h
      · rename_i h1
        cases h
        rw [Constant.size_ty]
        exact ⟨left.covers_size, .inl h1⟩
      · cases h

end ShaderFold
