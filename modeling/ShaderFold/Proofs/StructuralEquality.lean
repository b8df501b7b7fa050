import Mathlib.Data.List.Forall2
import ShaderFold.Fold.Binary

namespace ShaderFold

theorem equalLeaves_append {a b : List Scalar} (h : a.length = b.length) (c d : List Scalar) :
    equalLeaves (a ++ c) (b ++ d) = (equalLeaves a b && equalLeaves c d) := by
  induction a generalizing b with
  | nil =>
    obtain rfl := List.eq_nil_of_length_eq_zero h.symm
    rfl
  | cons x a ih =>
    cases b with
    | nil => simp at h
    | cons y b =>
      have hab : a.length = b.length := by simpa using h
      simp only [List.cons_append, equalLeaves, ih hab, Bool.and_assoc]

theorem equalLeaves_eq_true_iff (left right : List Scalar) :
    equalLeaves left right = true ↔ List.Forall₂ (fun a b => a.equal b = true) left right := by
  induction left generalizing right with
  | nil => cases right <;> simp [equalLeaves]
  | cons a left ih =>
    cases right with
    | nil => simp [equalLeaves]
    | cons b right => simp [equalLeaves, ih]

theorem equalLeaves_take_add {left right : List Scalar} {m : Nat} (hl : m ≤ left.length)
    (hr : m ≤ right.length) (n : Nat) :
    equalLeaves (left.take (m + n)) (right.take (m + n)) =
      (equalLeaves (left.take m) (right.take m) &&
        equalLeaves ((left.drop m).take n) ((right.drop m).take n)) := by
  rw [List.take_add, List.take_add]
  apply equalLeaves_append
  rw [List.length_take_of_le hl, List.length_take_of_le hr]

theorem slice_eq_ok {values : List Scalar} {stop : Nat} (h : stop ≤ values.length) (start : Nat) :
    slice values start stop = .ok ((values.drop start).take (stop - start)) :=
  if_pos h

theorem allM_eq_ok {α : Type} {f : α → Except Failure Bool} {g : α → Bool} {xs : List α}
    (h : ∀ x ∈ xs, f x = .ok (g x)) : xs.allM f = .ok (xs.all g) := by
  induction xs with
  | nil => rfl
  | cons x xs ih =>
    have hx := h x List.mem_cons_self
    have hxs := ih fun y hy => h y (List.mem_cons_of_mem x hy)
    rw [List.allM, hx, List.all_cons]
    cases g x with
    | true => exact hxs
    | false => rfl

/-- Comparing consecutive stretches of equal length compares the whole. -/
theorem all_stretches_equal {left right : List Scalar} (stride n : Nat)
    (hl : n * stride ≤ left.length) (hr : n * stride ≤ right.length) :
    (List.range n).all (fun i => equalLeaves ((left.drop (i * stride)).take stride)
        ((right.drop (i * stride)).take stride)) =
      equalLeaves (left.take (n * stride)) (right.take (n * stride)) := by
  induction n with
  | zero => simp [equalLeaves]
  | succ n ih =>
    rw [Nat.succ_mul] at hl hr ⊢
    rw [List.range_succ, List.all_append, ih (by omega) (by omega),
      equalLeaves_take_add (by omega) (by omega)]
    simp

namespace Ty

theorem valuesEqual_of_length_ne {ty : Ty} {left right : List Scalar}
    (h : ¬(left.length = ty.size ∧ right.length = ty.size)) :
    ty.valuesEqual left right = .ok false := by
  unfold valuesEqual
  exact if_neg h

theorem valuesEqual_array {element : Ty} {len : Nat} {left right : List Scalar}
    (he : ∀ a b : List Scalar, a.length = element.size → b.length = element.size →
      element.valuesEqual a b = .ok (equalLeaves a b))
    (hl : left.length = (array element len).size) (hr : right.length = (array element len).size) :
    (array element len).valuesEqual left right = .ok (equalLeaves left right) := by
  rw [valuesEqual, if_pos ⟨hl, hr⟩]
  by_cases h0 : (array element len).size = 0
  · rw [h0] at hl hr
    simp [h0, List.eq_nil_of_length_eq_zero hl, List.eq_nil_of_length_eq_zero hr, equalLeaves]
  · simp only [h0, ↓reduceIte]
    rw [size] at hl hr
    have hstep : ∀ i ∈ List.range len,
        (do let a ← slice left (i * element.size) ((i + 1) * element.size)
            let b ← slice right (i * element.size) ((i + 1) * element.size)
            element.valuesEqual a b) =
          .ok (equalLeaves ((left.drop (i * element.size)).take element.size)
            ((right.drop (i * element.size)).take element.size)) := by
      intro i hi
      have hle : (i + 1) * element.size ≤ len * element.size :=
        Nat.mul_le_mul_right _ (List.mem_range.1 hi)
      have hsub : (i + 1) * element.size - i * element.size = element.size := by
        rw [Nat.succ_mul, Nat.add_sub_cancel_left]
      rw [slice_eq_ok (hl ▸ hle), slice_eq_ok (hr ▸ hle), hsub]
      rw [Nat.succ_mul] at hle
      apply he
      · rw [List.length_take, List.length_drop, hl]; omega
      · rw [List.length_take, List.length_drop, hr]; omega
    rw [allM_eq_ok hstep, all_stretches_equal element.size len (Nat.le_of_eq hl.symm)
      (Nat.le_of_eq hr.symm), ← hl, List.take_length,
      hl, ← hr, List.take_length]

mutual

/-- Values of the length that a type asks for agree along the type exactly if their leaves do. -/
theorem valuesEqual_of_length : (ty : Ty) → (left right : List Scalar) →
    left.length = ty.size → right.length = ty.size →
      ty.valuesEqual left right = .ok (equalLeaves left right)
  | scalar _, left, right, hl, hr => by simp only [valuesEqual, hl, hr, and_self, ↓reduceIte]
  | vector .., left, right, hl, hr => by simp only [valuesEqual, hl, hr, and_self, ↓reduceIte]
  | matrix .., left, right, hl, hr => by simp only [valuesEqual, hl, hr, and_self, ↓reduceIte]
  | array element len, left, right, hl, hr =>
    valuesEqual_array (valuesEqual_of_length element) hl hr
  | struct members, left, right, hl, hr => by
    rw [valuesEqual, if_pos ⟨hl, hr⟩]
    rw [size] at hl hr
    have h := membersEqual_of_length members 0 left right (by omega) (by omega)
    rw [h, List.drop_zero, List.drop_zero, ← hl, List.take_length, hl, ← hr, List.take_length]

theorem membersEqual_of_length : (members : List (Member Ty)) → (offset : Nat) →
    (left right : List Scalar) → offset + sizeMembers members ≤ left.length →
      offset + sizeMembers members ≤ right.length →
        membersEqual members offset left right =
          .ok (equalLeaves ((left.drop offset).take (sizeMembers members))
            ((right.drop offset).take (sizeMembers members)))
  | [], offset, left, right, _, _ => by simp [membersEqual, sizeMembers, equalLeaves]
  | ⟨name, ty⟩ :: members, offset, left, right, hl, hr => by
    have hcons : sizeMembers (⟨name, ty⟩ :: members) = ty.size + sizeMembers members := by
      rw [sizeMembers]
    rw [hcons] at hl hr ⊢
    have hsub : offset + ty.size - offset = ty.size := Nat.add_sub_cancel_left ..
    have hhead := valuesEqual_of_length ty ((left.drop offset).take ty.size)
      ((right.drop offset).take ty.size)
      (by rw [List.length_take, List.length_drop]; omega)
      (by rw [List.length_take, List.length_drop]; omega)
    have htail := membersEqual_of_length members (offset + ty.size) left right
      (by omega) (by omega)
    rw [equalLeaves_take_add (by rw [List.length_drop]; omega) (by rw [List.length_drop]; omega),
      List.drop_drop, List.drop_drop]
    rw [membersEqual, slice_eq_ok (by omega), slice_eq_ok (by omega), hsub]
    simp only [bind, Except.bind, hhead, htail, ite_self]
    cases equalLeaves ((left.drop offset).take ty.size) ((right.drop offset).take ty.size) <;> rfl

end

theorem valuesEqual_eq_ok (ty : Ty) (left right : List Scalar) :
    ty.valuesEqual left right =
      .ok (decide (left.length = ty.size ∧ right.length = ty.size) &&
        equalLeaves left right) := by
  by_cases h : left.length = ty.size ∧ right.length = ty.size
  · rw [valuesEqual_of_length ty left right h.1 h.2, decide_eq_true h, Bool.true_and]
  · rw [valuesEqual_of_length_ne h, decide_eq_false h, Bool.false_and]

/-- Lists of values agree along a type exactly if both have as many leaves as the type and these
are equal one by one. Types with equally many leaves compare alike, whatever their members and
nesting. -/
theorem valuesEqual_leafwise (ty : Ty) (left right : List Scalar) :
    (∃ same, ty.valuesEqual left right = .ok same ∧
      (same = true ↔ left.length = ty.size ∧ right.length = ty.size ∧
        List.Forall₂ (fun a b => a.equal b = true) left right)) ∧
      ∀ ty' : Ty, ty'.size = ty.size →
        ty'.valuesEqual left right = ty.valuesEqual left right := by
  constructor
  · refine ⟨_, valuesEqual_eq_ok ty left right, ?_⟩
    rw [Bool.and_eq_true, decide_eq_true_iff, equalLeaves_eq_true_iff, and_assoc]
  · intro ty' hsize
    rw [valuesEqual_eq_ok, valuesEqual_eq_ok, hsize]

theorem valuesEqual_leafwise_layers :
    let layer : Ty := struct [⟨"weight", scalar .int⟩, ⟨"id", scalar .uint⟩]
    let material : Ty := struct [⟨"unused", array layer 0⟩, ⟨"layers", array layer 2⟩]
    let left : List Scalar := [.int 1, .uint 1, .int 3, .uint 2]
    let right : List Scalar := [.int 1, .uint 1, .int 3, .uint 5]
    (∃ same, material.valuesEqual left right = .ok same ∧
      (same = true ↔ left.length = 4 ∧ right.length = 4 ∧
        List.Forall₂ (fun a b => a.equal b = true) left right)) ∧
      (vector .int 4).valuesEqual left right = material.valuesEqual left right := by
  intro layer material left right
  have h := valuesEqual_leafwise material left right
  exact ⟨h.1, h.2 (vector .int 4) rfl⟩

end Ty

end ShaderFold
