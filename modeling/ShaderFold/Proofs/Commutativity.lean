import ShaderFold.Proofs.SameKind

namespace ShaderFold

namespace Scalar

theorem arithmetic?_comm {onInt : Int32 → Int32 → Int32} {onUint : UInt32 → UInt32 → UInt32}
    {onFloat : Single → Single → Single} {onDouble : Double → Double → Double}
    (hint : ∀ x y, onInt x y = onInt y x) (huint : ∀ x y, onUint x y = onUint y x)
    (hfloat : ∀ x y, onFloat x y = onFloat y x) (hdouble : ∀ x y, onDouble x y = onDouble y x)
    (a b : Scalar) :
    arithmetic? onInt onUint onFloat onDouble a b =
      arithmetic? onInt onUint onFloat onDouble b a := by
  cases a <;> cases b <;> simp only [arithmetic?, hint, huint, hfloat, hdouble]

theorem bitwise?_comm {onInt : Int32 → Int32 → Int32} {onUint : UInt32 → UInt32 → UInt32}
    (hint : ∀ x y, onInt x y = onInt y x) (huint : ∀ x y, onUint x y = onUint y x)
    (a b : Scalar) :
    bitwise? onInt onUint a b = bitwise? onInt onUint b a := by
  cases a <;> cases b <;> simp only [bitwise?, hint, huint]

theorem logical?_comm {op : Bool → Bool → Bool} (hop : ∀ x y, op x y = op y x) (a b : Scalar) :
    logical? op a b = logical? op b a := by
  cases a <;> cases b <;> simp only [logical?, hop]

theorem add?_comm (a b : Scalar) : add? a b = add? b a := by
  apply arithmetic?_comm
  · exact Int32.add_comm
  · exact UInt32.add_comm
  · exact BinaryFloat.add_comm
  · exact BinaryFloat.add_comm

theorem mul?_comm (a b : Scalar) : mul? a b = mul? b a := by
  apply arithmetic?_comm
  · exact Int32.mul_comm
  · exact UInt32.mul_comm
  · exact BinaryFloat.mul_comm
  · exact BinaryFloat.mul_comm

end Scalar

namespace BinaryOp

open Constant

/-- The operators that act leaf by leaf and do not tell the left leaf from the right one, with
what they do to two leaves. -/
inductive Commutes : BinaryOp → (Scalar → Scalar → Option Scalar) → Prop
  | add : Commutes add Scalar.add?
  | mul : Commutes mul Scalar.mul?
  | vectorTimesScalar : Commutes vectorTimesScalar Scalar.mul?
  | matrixTimesScalar : Commutes matrixTimesScalar Scalar.mul?
  | bitAnd : Commutes bitAnd Scalar.bitAnd?
  | bitOr : Commutes bitOr Scalar.bitOr?
  | bitXor : Commutes bitXor Scalar.bitXor?
  | logicalAnd : Commutes logicalAnd Scalar.logicalAnd?
  | logicalOr : Commutes logicalOr Scalar.logicalOr?
  | logicalXor : Commutes logicalXor Scalar.logicalXor?

variable {op : BinaryOp} {rule : Scalar → Scalar → Option Scalar} {left right : Constant}

theorem Commutes.joinsOneKind (h : op.Commutes rule) : op.JoinsOneKind rule := by
  cases h <;> constructor

theorem Commutes.rule_comm (h : op.Commutes rule) (a b : Scalar) : rule a b = rule b a := by
  cases h with
  | add => exact Scalar.add?_comm a b
  | mul => exact Scalar.mul?_comm a b
  | vectorTimesScalar => exact Scalar.mul?_comm a b
  | matrixTimesScalar => exact Scalar.mul?_comm a b
  | bitAnd => exact Scalar.bitwise?_comm Int32.and_comm UInt32.and_comm a b
  | bitOr => exact Scalar.bitwise?_comm Int32.or_comm UInt32.or_comm a b
  | bitXor => exact Scalar.bitwise?_comm Int32.xor_comm UInt32.xor_comm a b
  | logicalAnd => exact Scalar.logical?_comm Bool.and_comm a b
  | logicalOr => exact Scalar.logical?_comm Bool.or_comm a b
  | logicalXor => exact Scalar.logical?_comm Bool.xor_comm a b

theorem Commutes.joined_swap (h : op.Commutes rule) {i : Nat} {v : Scalar}
    (hv : Joined rule left right i v) : Joined rule right left i v := by
  obtain ⟨a, b, ha, hb, hab⟩ := hv
  exact ⟨b, a, hb, ha, (h.rule_comm b a).trans hab⟩

theorem Commutes.all_joined_swap (h : op.Commutes rule) (hs : left.SizesMatch right)
    (hv : ∀ i < (left.matchedTy right).size, ∃ v, Joined rule left right i v) :
    ∀ i < (right.matchedTy left).size, ∃ v, Joined rule right left i v := by
  intro i hi
  rw [← hs.size_matchedTy_comm] at hi
  obtain ⟨v, hv⟩ := hv i hi
  exact ⟨v, h.joined_swap hv⟩

theorem Commutes.values_eq (h : op.Commutes rule) {c d : Constant}
    (hc : op.fold left right = .ok c) (hd : op.fold right left = .ok d) :
    c.values = d.values := by
  obtain ⟨hs, hcty, _, hcleaves⟩ := leaves_of_folded h.joinsOneKind.onLeaves?_eq hc
  obtain ⟨_, hdty, _, hdleaves⟩ := leaves_of_folded h.joinsOneKind.onLeaves?_eq hd
  have hsize : c.size = d.size := by
    rw [← size_ty, ← size_ty, hcty, hdty, hs.size_matchedTy_comm]
  apply values_ext hsize
  intro i hi
  obtain ⟨v, ⟨a, b, ha, hb, hv⟩, hget⟩ := hcleaves i hi
  obtain ⟨w, ⟨b', a', hb', ha', hw⟩, hget'⟩ := hdleaves i (hsize ▸ hi)
  cases ha.symm.trans ha'
  cases hb.symm.trans hb'
  rw [hget, hget', ← hv, ← hw, h.rule_comm]

theorem Commutes.fold_swap_cases (h : op.Commutes rule) (hs : left.SizesMatch right) :
    (∃ c d, op.fold left right = .ok c ∧ op.fold right left = .ok d ∧
      c.ty = left.matchedTy right ∧ d.ty = right.matchedTy left ∧ c.values = d.values) ∨
    ∃ k l, op.fold left right = .error (.unsupported (.binary op) k) ∧
      op.fold right left = .error (.unsupported (.binary op) l) := by
  have hjoins := h.joinsOneKind
  by_cases hv : ∀ i < (left.matchedTy right).size, ∃ v, Joined rule left right i v
  · obtain ⟨c, hc, hcty, _⟩ := hjoins.exists_folded hs hv
    obtain ⟨d, hd, hdty, _⟩ := hjoins.exists_folded hs.symm (h.all_joined_swap hs hv)
    exact .inl ⟨c, d, hc, hd, hcty, hdty, h.values_eq hc hd⟩
  · have hv' := mt (h.all_joined_swap hs.symm) hv
    obtain ⟨_, _, a, _, _, hfail⟩ := exists_unjoined_of_not_joined hjoins.onLeaves?_eq hs hv
    obtain ⟨_, _, b, _, _, hfail'⟩ :=
      exists_unjoined_of_not_joined hjoins.onLeaves?_eq hs.symm hv'
    exact .inr ⟨a.kind, b.kind, hfail, hfail'⟩

/-- The side on which an operand stands matters neither between an operand of any type and a
single leaf nor between operands of one type. -/
theorem fold_from_either_side (h : op.Commutes rule) :
    (∀ many single : Constant, many.size ≠ 1 → single.size = 1 →
      (∃ c d, op.fold many single = .ok c ∧ op.fold single many = .ok d ∧ c.ty = many.ty ∧
        d.ty = many.ty ∧ c.values = d.values) ∨
      ∃ k l, op.fold many single = .error (.unsupported (.binary op) k) ∧
        op.fold single many = .error (.unsupported (.binary op) l)) ∧
    ∀ a b : Constant, a.ty = b.ty →
      (∃ c d, op.fold a b = .ok c ∧ op.fold b a = .ok d ∧ c.ty = d.ty ∧ c.values = d.values) ∨
      ∃ k, op.fold a b = .error (.unsupported (.binary op) k) ∧
        op.fold b a = .error (.unsupported (.binary op) k) := by
  constructor
  · intro many single hmany hsingle
    have hty : many.matchedTy single = many.ty := if_neg fun hone => hmany hone.1
    have hty' : single.matchedTy many = many.ty := if_pos ⟨hsingle, hmany⟩
    have hcases := h.fold_swap_cases (.inr (.inr hsingle) : many.SizesMatch single)
    rwa [hty, hty'] at hcases
  · intro a b hty
    have hcomparable : op.Comparable a b := fun _ => by rw [hty]
    -- The types alone settle the type of the result and the failure.
    have hagree := op.fold_agree hty hty.symm hcomparable
    rcases h.fold_swap_cases (.inl (size_congr hty)) with
      ⟨c, d, hc, hd, _, _, hvalues⟩ | ⟨k, l, hk, hl⟩
    · rw [hc, hd] at hagree
      exact .inl ⟨c, d, hc, hd, Except.ok.inj hagree, hvalues⟩
    · rw [hk, hl] at hagree
      cases hagree
      exact .inr ⟨k, hk, hl⟩

theorem fold_from_either_side_structures :
    let two : Constant := .scalar (.int 2) .dummy
    let sizes : Constant :=
      ⟨.struct [⟨"depth", .scalar .int⟩, ⟨"area", .vector .int 2⟩],
        [.int 3, .int 4, .int 5], .dummy, rfl⟩
    let light (level : Int32) (tint : Double) : Constant :=
      ⟨.struct [⟨"level", .scalar .int⟩, ⟨"tint", .scalar .double⟩],
        [.int level, .double tint], .dummy, rfl⟩
    (∃ c d, mul.fold sizes two = .ok c ∧ mul.fold two sizes = .ok d ∧ c.ty = sizes.ty ∧
      d.ty = sizes.ty ∧ c.values = d.values) ∧
    ∃ c d, add.fold (light 1 3) (light 2 7) = .ok c ∧ add.fold (light 2 7) (light 1 3) = .ok d ∧
      c.ty = d.ty ∧ c.values = d.values := by
  intro two sizes light
  have hsizes : mul.fold sizes two =
      .ok ⟨sizes.ty, [.int 6, .int 8, .int 10], .dummy, rfl⟩ := by decide +kernel
  have hlight : add.fold (light 1 3) (light 2 7) =
      .ok ⟨(light 1 3).ty, [.int 3, .double 10], .dummy, rfl⟩ := by decide +kernel
  constructor
  · rcases (fold_from_either_side .mul).1 sizes two (by decide) rfl with hok | ⟨k, l, hfail, _⟩
    · exact hok
    · cases hsizes.symm.trans hfail
  · rcases (fold_from_either_side .add).2 (light 1 3) (light 2 7) rfl with hok | ⟨k, hfail, _⟩
    · exact hok
    · cases hlight.symm.trans hfail

-- A refusal names the kind of the leaf on the left.
example :
    let flags : Constant := ⟨.vector .bool 2, [.bool true, .bool false], .dummy, rfl⟩
    let one : Constant := .scalar (.uint 1) .dummy
    bitXor.fold flags one = .error (.unsupported (.binary .bitXor) .bool) ∧
      bitXor.fold one flags = .error (.unsupported (.binary .bitXor) .uint) := by
  decide +kernel

end BinaryOp

end ShaderFold
