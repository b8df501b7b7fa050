import ShaderFold.Proofs.Conversion
import ShaderFold.Proofs.Equality
import ShaderFold.Proofs.MatrixProduct
import ShaderFold.Proofs.UnaryLeaves

namespace ShaderFold

theorem forall₂_ofFn_iff {α β : Type} {R : α → β → Prop} {n : Nat} {f : Fin n → α}
    {g : Fin n → β} :
    List.Forall₂ R (List.ofFn f) (List.ofFn g) ↔ ∀ i, R (f i) (g i) := by
  rw [List.forall₂_iff_get]
  simp only [List.length_ofFn, List.get_ofFn, true_and]
  exact ⟨fun h i => h i i.isLt i.isLt, fun h i hi _ => h ⟨i, hi⟩⟩

namespace Scalar

variable {k l : Kind}

/-- The integer that has the given bits, signed or unsigned as its kind says. -/
def ofWord (k : Kind) (w : BitVec 32) : Scalar :=
  if k = .int then int (.ofBitVec w) else uint (.ofBitVec w)

theorem kind_ofWord (hk : k.isInteger = true) (w : BitVec 32) : (ofWord k w).kind = k := by
  cases k <;> cases hk <;> rfl

theorem exists_eq_ofWord {v : Scalar} (hk : v.kind.isInteger = true) :
    ∃ w, v = ofWord v.kind w := by
  cases v with
  | int v => exact ⟨v.toBitVec, rfl⟩
  | uint v => exact ⟨v.toBitVec, rfl⟩
  | bool _ => cases hk
  | float _ => cases hk
  | double _ => cases hk

theorem convert?_ofWord (hk : k.isInteger = true) (hl : l.isInteger = true) (w : BitVec 32) :
    (ofWord k w).convert? l = some (ofWord l w) := by
  cases k <;> cases hk <;> cases l <;> cases hl <;> rfl

theorem equal_ofWord (k : Kind) (u w : BitVec 32) :
    (ofWord k u).equal (ofWord k w) = decide (u = w) := by
  by_cases hk : k = .int
  · rw [ofWord, ofWord, if_pos hk, if_pos hk, equal, decide_eq_decide]
    exact ⟨fun h => congrArg Int32.toBitVec h, fun h => congrArg Int32.ofBitVec h⟩
  · rw [ofWord, ofWord, if_neg hk, if_neg hk, equal, decide_eq_decide]
    exact ⟨fun h => congrArg UInt32.toBitVec h, fun h => congrArg UInt32.ofBitVec h⟩

theorem equalLeaves_ofWord (k : Kind) {n : Nat} (x y : Fin n → BitVec 32) :
    equalLeaves (List.ofFn fun i => ofWord k (x i)) (List.ofFn fun i => ofWord k (y i)) =
      decide (x = y) := by
  rw [Bool.eq_iff_iff, equalLeaves_eq_true_iff, forall₂_ofFn_iff]
  simp only [equal_ofWord, decide_eq_true_eq, funext_iff]

end Scalar

theorem Supplies.getElem?_of_single {c : Constant} {i : Nat} {v : Scalar} (h : Supplies [c] i v)
    (hi : i < c.size) : c.values[i]? = some v := by
  cases h with
  | lone h =>
    obtain ⟨single, hc, hv⟩ := h
    cases hc
    rw [Constant.size, hv, List.length_singleton] at hi
    obtain rfl : i = 0 := by omega
    rw [hv]
    rfl
  | inOrder _ hv => rwa [List.flatMap_singleton] at hv

namespace Constant

variable {k l : Kind} {n : Nat}

theorem eq_of_values {c d : Constant} (hty : c.ty = d.ty) (hvalues : c.values = d.values)
    (hspan : c.span = d.span) : c = d := by
  obtain ⟨ty, values, span, fits⟩ := c
  subst hty hvalues hspan
  rfl

def ofWords (hk : k.isInteger = true) (x : Fin n → BitVec 32) (span : Span) : Constant :=
  vector k (fun i => .ofWord k (x i)) (fun _ => Scalar.kind_ofWord hk _) span

theorem size_ofWords (hk : k.isInteger = true) (x : Fin n → BitVec 32) (span : Span) :
    (ofWords hk x span).size = n :=
  List.length_ofFn

theorem getElem?_ofWords (hk : k.isInteger = true) (x : Fin n → BitVec 32) (span : Span)
    (i : Fin n) :
    (ofWords hk x span).values[i.val]? = some (.ofWord k (x i)) := by
  rw [ofWords, vector, List.getElem?_ofFn, dif_pos i.isLt]

theorem broadcast?_ofWords (hk : k.isInteger = true) (x : Fin n → BitVec 32) (span : Span)
    (i : Fin n) :
    (ofWords hk x span).broadcast? i = some (.ofWord k (x i)) := by
  rw [broadcast?_of_lt (by rw [size_ofWords]; exact i.isLt), getElem?_ofWords]

theorem exists_eq_ofWords (hk : k.isInteger = true) {c : Constant} (h : c.ty = .vector k n) :
    ∃ (x : Fin n → BitVec 32) (span : Span), c = ofWords hk x span := by
  have hstruct : k ≠ .struct := Kind.ne_struct_of_isInteger hk
  have hleaf (i : Fin n) : ∃ w, c.values[i.val]? = some (.ofWord k w) := by
    obtain ⟨v, hv⟩ := exists_broadcast? (covers_of_size_eq (size_of_vector h).symm) i.isLt
    have hkind : v.kind = k := kind_of_broadcast? hstruct (by rw [h, Ty.kind]) hv
    obtain ⟨w, hw⟩ := Scalar.exists_eq_ofWord (hkind ▸ hk)
    rw [broadcast?_of_lt (by rw [size_of_vector h]; exact i.isLt), hw, hkind] at hv
    exact ⟨w, hv⟩
  choose x hx using hleaf
  exact ⟨x, c.span, eq_of_values h (values_eq_ofFn h hx) rfl⟩

theorem construct_ofWords (hk : k.isInteger = true) (hl : l.isInteger = true)
    (x : Fin n → BitVec 32) (span place : Span) :
    (Ty.vector l n).construct [ofWords hk x span] place = .ok (ofWords hl x place) := by
  have henough : ¬FallsShort (Ty.vector l n).size [ofWords hk x span] := by
    rintro ⟨_, hlt⟩
    rw [List.flatMap_singleton, ← size, size_ofWords, Ty.size] at hlt
    exact Nat.lt_irrefl n hlt
  have hstruct : .struct ∉ (Ty.vector l n).leafKinds := by
    rw [Ty.leafKinds]
    intro hmem
    cases List.eq_of_mem_replicate hmem
    cases hl
  obtain ⟨c, hc, hty, hspan, hleaves⟩ :=
    Ty.exists_constructed (List.cons_ne_nil _ _) henough hstruct place
  rw [hc]
  refine congrArg Except.ok (eq_of_values hty (values_eq_ofFn hty ?_) hspan)
  intro i
  have hkind : (Ty.vector l n).leafKinds[i.val]? = some l := by
    rw [Ty.leafKinds, List.getElem?_replicate, if_pos i.isLt]
  obtain ⟨v, w, hv, hw, hget⟩ := hleaves i l hkind
  have hvi := hv.getElem?_of_single (by rw [size_ofWords]; exact i.isLt)
  cases (getElem?_ofWords hk x span i).symm.trans hvi
  rw [hget, ← hw, Scalar.convert?_ofWord hk hl]

end Constant

namespace BinaryOp

open Constant

/-- What an operator does with the bits of two integers, if it does the same for both kinds. -/
def onWords? : BinaryOp → Option (BitVec 32 → BitVec 32 → BitVec 32)
  | add => some (· + ·)
  | sub => some (· - ·)
  | mul => some (· * ·)
  | bitAnd => some (· &&& ·)
  | bitOr => some (· ||| ·)
  | bitXor => some (· ^^^ ·)
  | _ => none

variable {op : BinaryOp} {rule : Scalar → Scalar → Option Scalar}
  {f : BitVec 32 → BitVec 32 → BitVec 32} {k l : Kind} {n : Nat}

theorem isSome_onWords? :
    ∀ op ∈ [add, sub, mul, bitAnd, bitOr, bitXor], op.onWords?.isSome = true := by
  decide

theorem exists_rule_on_words (h : op.onWords? = some f) (hk : k.isInteger = true) :
    ∃ rule, op.onLeaves? = some rule ∧
      ∀ u w, rule (.ofWord k u) (.ofWord k w) = some (.ofWord k (f u w)) := by
  cases op <;> cases h <;> cases k <;> cases hk <;> exact ⟨_, rfl, fun _ _ => rfl⟩

theorem shiftLeft?_ofWord (hk : k.isInteger = true) (hl : l.isInteger = true) (u w : BitVec 32) :
    Scalar.shiftLeft? (.ofWord k u) (.ofWord l w) = some (.ofWord k (u <<< (w.toNat % 32))) := by
  cases k <;> cases hk <;> cases l <;> cases hl <;> rfl

theorem fold_of_rule_on_words (h : op.onLeaves? = some rule) (hk : k.isInteger = true)
    (hl : l.isInteger = true)
    (hrule : ∀ u w, rule (.ofWord k u) (.ofWord l w) = some (.ofWord k (f u w)))
    (x y : Fin n → BitVec 32) (s t : Span) :
    op.fold (ofWords hk x s) (ofWords hl y t) = .ok (ofWords hk (fun i => f (x i) (y i)) s) := by
  have hsizes : (ofWords hk x s).size = (ofWords hl y t).size := by
    rw [size_ofWords, size_ofWords]
  have hty : (ofWords hk x s).matchedTy (ofWords hl y t) = .vector k n := if_neg (by omega)
  rw [fold_of_onLeaves? h, elementwise_of_sizesMatch op rule (.inl hsizes), hty, Ty.size,
    mapM_range_eq_ofFn (g := fun i => .ofWord k (f (x i) (y i)))]
  · exact result_of_fits _ _ _
  · intro i
    rw [joinAt_of_broadcast? (broadcast?_ofWords hk x s i) (broadcast?_ofWords hl y t i), hrule]
    rfl

theorem fold_ofWords (h : op.onWords? = some f) (hk : k.isInteger = true)
    (x y : Fin n → BitVec 32) (s t : Span) :
    op.fold (ofWords hk x s) (ofWords hk y t) = .ok (ofWords hk (fun i => f (x i) (y i)) s) := by
  obtain ⟨rule, hrule, hwords⟩ := exists_rule_on_words h hk
  exact fold_of_rule_on_words hrule hk hk hwords x y s t

theorem shiftLeft_ofWords (hk : k.isInteger = true) (hl : l.isInteger = true)
    (x y : Fin n → BitVec 32) (s t : Span) :
    shiftLeft.fold (ofWords hk x s) (ofWords hl y t) =
      .ok (ofWords hk (fun i => x i <<< ((y i).toNat % 32)) s) :=
  fold_of_rule_on_words rfl hk hl (shiftLeft?_ofWord hk hl) x y s t

theorem equal_ofWords (hk : k.isInteger = true) (x y : Fin n → BitVec 32) (s t : Span) :
    equal.fold (ofWords hk x s) (ofWords hk y t) = .ok (.scalar (.bool (decide (x = y))) s) := by
  rw [← Scalar.equalLeaves_ofWord k x y]
  exact fold_of_ty_eq (.inl rfl) rfl

end BinaryOp

namespace UnaryOp

open Constant

def onWord? : UnaryOp → Option (BitVec 32 → BitVec 32)
  | negate => some (- ·)
  | bitNot => some (~~~ ·)
  | _ => none

theorem isSome_onWord? : ∀ op ∈ [negate, bitNot], op.onWord?.isSome = true := by
  decide

theorem fold_ofWords {op : UnaryOp} {f : BitVec 32 → BitVec 32} {k : Kind} {n : Nat}
    (h : op.onWord? = some f) (hk : k.isInteger = true) (x : Fin n → BitVec 32) (span : Span) :
    op.fold (ofWords hk x span) (.vector k n) = .ok (ofWords hk (fun i => f (x i)) span) := by
  have hop : op.ActsOnLeaves := by cases op <;> cases h <;> exact ⟨rfl, nofun, nofun⟩
  have hmakes (w : BitVec 32) : op.Makes k (.ofWord k w) (.ofWord k (f w)) := by
    cases op <;> cases h <;> cases k <;> cases hk <;> exact ⟨rfl, rfl⟩
  have hstruct : (Ty.vector k n).kind ≠ .struct := Kind.ne_struct_of_isInteger hk
  have hsize : (Ty.vector k n).size = (ofWords hk x span).size := by rw [size_ofWords, Ty.size]
  exact (hop.fold_eq_ok_iff hstruct hsize).2 ⟨rfl, rfl, forall₂_ofFn_iff.2 fun i => hmakes (x i)⟩

end UnaryOp

/-- What came out signed has, as unsigned integers, the leaves of what came out unsigned. -/
def ConvertsTo (n : Nat) (left right : Folded) : Prop :=
  ∀ place, ∃ c d e, left = .ok c ∧ (Ty.vector .uint n).construct [c] place = .ok d ∧
    right = .ok e ∧ d.values = e.values

theorem convertsTo_of_words {n : Nat} {left right : Folded} {x : Fin n → BitVec 32} {s t : Span}
    (hl : left = .ok (.ofWords (k := .int) rfl x s))
    (hr : right = .ok (.ofWords (k := .uint) rfl x t)) :
    ConvertsTo n left right := by
  intro place
  exact ⟨_, _, _, hl, Constant.construct_ofWords rfl rfl x s place, hr, rfl⟩

namespace Constant

/-- Vectors of signed integers can be converted to unsigned ones and back. Operators that wrap
around give the same bits before the conversion and after it, whichever kind the amounts of a
shift have, and equal vectors stay equal and others different. -/
theorem reinterpreted_operators {n : Nat} {a b : Constant} (ha : a.ty = .vector .int n)
    (hb : b.ty = .vector .int n) (p q : Span) :
    ∃ u w, (Ty.vector .uint n).construct [a] p = .ok u ∧
      (Ty.vector .uint n).construct [b] q = .ok w ∧
      (∀ place, ∃ c, (Ty.vector .int n).construct [u] place = .ok c ∧ c.values = a.values) ∧
      (∀ op ∈ [BinaryOp.add, .sub, .mul, .bitAnd, .bitOr, .bitXor],
        ConvertsTo n (op.fold a b) (op.fold u w)) ∧
      ConvertsTo n (BinaryOp.shiftLeft.fold a b) (BinaryOp.shiftLeft.fold u b) ∧
      ConvertsTo n (BinaryOp.shiftLeft.fold a b) (BinaryOp.shiftLeft.fold u w) ∧
      (∀ op ∈ [UnaryOp.negate, .bitNot],
        ConvertsTo n (op.fold a (.vector .int n)) (op.fold u (.vector .uint n))) ∧
      ∃ same, BinaryOp.equal.fold a b = .ok (.scalar (.bool same) a.span) ∧
        BinaryOp.equal.fold u w = .ok (.scalar (.bool same) u.span) := by
  obtain ⟨x, s, rfl⟩ := exists_eq_ofWords rfl ha
  obtain ⟨y, t, rfl⟩ := exists_eq_ofWords rfl hb
  refine ⟨_, _, construct_ofWords rfl rfl x s p, construct_ofWords rfl rfl y t q,
    ?_, ?_, ?_, ?_, ?_, ?_⟩
  · intro place
    exact ⟨_, construct_ofWords rfl rfl x p place, rfl⟩
  · intro op hop
    obtain ⟨f, hf⟩ := Option.isSome_iff_exists.1 (BinaryOp.isSome_onWords? op hop)
    exact convertsTo_of_words (BinaryOp.fold_ofWords hf rfl x y s t)
      (BinaryOp.fold_ofWords hf rfl x y p q)
  · exact convertsTo_of_words (BinaryOp.shiftLeft_ofWords rfl rfl x y s t)
      (BinaryOp.shiftLeft_ofWords rfl rfl x y p t)
  · exact convertsTo_of_words (BinaryOp.shiftLeft_ofWords rfl rfl x y s t)
      (BinaryOp.shiftLeft_ofWords rfl rfl x y p q)
  · intro op hop
    obtain ⟨f, hf⟩ := Option.isSome_iff_exists.1 (UnaryOp.isSome_onWord? op hop)
    exact convertsTo_of_words (UnaryOp.fold_ofWords hf rfl x s) (UnaryOp.fold_ofWords hf rfl x p)
  · exact ⟨decide (x = y), BinaryOp.equal_ofWords rfl x y s t, BinaryOp.equal_ofWords rfl x y p q⟩

theorem reinterpreted_operators_wrapping :
    let a : Constant := ⟨.vector .int 2, [.int (-1), .int 2147483647], .dummy, rfl⟩
    let b : Constant := ⟨.vector .int 2, [.int (-31), .int 1], .dummy, rfl⟩
    let u : Constant := ⟨.vector .uint 2, [.uint 4294967295, .uint 2147483647], .dummy, rfl⟩
    let w : Constant := ⟨.vector .uint 2, [.uint 4294967265, .uint 1], .dummy, rfl⟩
    (Ty.vector .uint 2).construct [a] .dummy = .ok u ∧
      (Ty.vector .uint 2).construct [b] .dummy = .ok w ∧
      (∃ c, (Ty.vector .int 2).construct [u] .dummy = .ok c ∧ c.values = a.values) ∧
      ConvertsTo 2 (BinaryOp.add.fold a b) (BinaryOp.add.fold u w) ∧
      ConvertsTo 2 (BinaryOp.shiftLeft.fold a b) (BinaryOp.shiftLeft.fold u b) ∧
      ConvertsTo 2 (UnaryOp.negate.fold a a.ty) (UnaryOp.negate.fold u u.ty) := by
  intro a b u w
  have hu : (Ty.vector .uint 2).construct [a] .dummy = .ok u := rfl
  have hw : (Ty.vector .uint 2).construct [b] .dummy = .ok w := rfl
  obtain ⟨u', w', hu', hw', hback, hbinary, hshift, _, hunary, _⟩ :=
    reinterpreted_operators (rfl : a.ty = .vector .int 2) (rfl : b.ty = .vector .int 2)
      .dummy .dummy
  cases hu.symm.trans hu'
  cases hw.symm.trans hw'
  exact ⟨hu, hw, hback .dummy, hbinary .add (by decide), hshift, hunary .negate (by decide)⟩

end Constant

end ShaderFold
