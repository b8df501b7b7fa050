import ShaderFold.Proofs.Componentwise
import ShaderFold.Proofs.ExactIntegers

namespace ShaderFold

def Constant.integerAt? (c : Constant) (j : Nat) : Option Int :=
  (c.broadcast? j).bind Scalar.integer?

namespace Builtin

/-- What the functions that choose among their operands give on integers. Where the bounds of
`clamp` are in the wrong order, the upper one is chosen. -/
def onIntegers? : Builtin → List Int → Option Int
  | min, [x, y] => some (Min.min x y)
  | max, [x, y] => some (Max.max x y)
  | clamp, [x, lo, hi] => some (Min.min (Max.max x lo) hi)
  | _, _ => none

def IntegerAt (op : Builtin) (operands : List Constant) (j : Nat) (n : Int) : Prop :=
  ∃ args, List.Forall₂ (fun c n => Constant.integerAt? c j = some n) operands args ∧
    op.onIntegers? args = some n

end Builtin

variable {operands : List Constant} {c : Constant} {k : Kind} {j : Nat} {n : Int}

theorem Constant.exists_integerAt? {x : Double} (hk : k.isInteger = true) (hc : c.ty.kind = k)
    (h : c.number j = .ok x) :
    ∃ n, c.integerAt? j = some n ∧ x.IsInt n ∧ k.least ≤ n ∧ n ≤ k.greatest := by
  obtain ⟨v, hv, rfl⟩ := number_eq_ok_iff.1 h
  have hkind : v.kind = k := kind_of_broadcast? (Kind.ne_struct_of_isInteger hk) hc hv
  obtain ⟨n, hn⟩ := Scalar.exists_integer? (hkind ▸ hk)
  refine ⟨n, ?_, Scalar.isInt_toDouble hn, hkind ▸ Scalar.integer?_bounds hn⟩
  rw [integerAt?, hv, Option.bind_some, hn]

theorem exists_integers {xs : List Double} (hk : k.isInteger = true)
    (hkinds : ∀ c ∈ operands, c.ty.kind = k)
    (h : List.Forall₂ (fun c x => Constant.number c j = .ok x) operands xs) :
    ∃ ns, List.Forall₂ (fun c n => Constant.integerAt? c j = some n) operands ns ∧
      List.Forall₂ BinaryFloat.IsInt xs ns ∧ ∀ n ∈ ns, k.least ≤ n ∧ n ≤ k.greatest := by
  induction h with
  | nil => exact ⟨[], .nil, .nil, nofun⟩
  | cons hx _ ih =>
    obtain ⟨hc, hrest⟩ := List.forall_mem_cons.1 hkinds
    obtain ⟨n, hn, hint, hbounds⟩ := Constant.exists_integerAt? hk hc hx
    obtain ⟨ns, hns, hints, hall⟩ := ih hrest
    exact ⟨n :: ns, .cons hn hns, .cons hint hints, List.forall_mem_cons.2 ⟨hbounds, hall⟩⟩

namespace Builtin

variable {op : Builtin}

theorem exists_onIntegers? {kinds : List Kind} {xs : List Double} {ns : List Int} {x : Double}
    (hop : op ∈ [min, max, clamp]) (hints : List.Forall₂ BinaryFloat.IsInt xs ns)
    (hx : op.onNumbers? kinds xs = some x) : ∃ n, op.onIntegers? ns = some n ∧ x.IsInt n := by
  simp only [List.mem_cons, List.not_mem_nil, or_false] at hop
  rcases hop with rfl | rfl | rfl
  · obtain _ | ⟨hm, _ | ⟨hn, _ | _⟩⟩ := hints <;> cases hx
    exact ⟨_, rfl, hm.min hn⟩
  · obtain _ | ⟨hm, _ | ⟨hn, _ | _⟩⟩ := hints <;> cases hx
    exact ⟨_, rfl, hm.max hn⟩
  · obtain _ | ⟨hn, _ | ⟨hlo, _ | ⟨hhi, _ | _⟩⟩⟩ := hints <;> cases hx
    exact ⟨_, rfl, (hn.max hlo).min hhi⟩

theorem mem_of_onIntegers? {ns : List Int} (h : op.onIntegers? ns = some n) : n ∈ ns := by
  rw [onIntegers?.eq_def] at h
  split at h <;> cases h <;> simp only [List.mem_cons, List.not_mem_nil, or_false] <;> omega

theorem isComponentwise_of_mem (hop : op ∈ [min, max, clamp]) : op.isComponentwise = true := by
  revert op
  decide

/-- The lesser, the greater and the clamped integer of operands of one integer kind are exact: no
leaf is rounded or brought to the bounds of the kind, and the kind stays. -/
theorem fold_integer_bounds {span : Span} (hop : op ∈ [min, max, clamp]) (hk : k.isInteger = true)
    (hkinds : ∀ o ∈ operands, o.ty.kind = k) (h : op.fold operands span = .ok c) :
    c.ty.kind = k ∧ ∀ j < c.size, ∃ n v, op.IntegerAt operands j n ∧ c.values[j]? = some v ∧
      v.kind = k ∧ v.integer? = some n := by
  have hkind : c.ty.kind = k := by
    obtain ⟨k', later, hkinds', hfit, hshape⟩ := exists_kindsFit_of_folded h
    have hmem : k' ∈ kindsOf operands := hkinds' ▸ List.mem_cons_self
    obtain ⟨o, ho, rfl⟩ := List.mem_map.1 hmem
    exact (hfit.kind_of_shape? (List.map_map.trans hkinds') hshape).trans (hkinds o ho)
  refine ⟨hkind, ?_⟩
  intro j hj
  obtain ⟨x, v, ⟨xs, hxs, hx⟩, hv, hvalue⟩ :=
    exists_numberAt_of_folded (isComponentwise_of_mem hop) h hj
  obtain ⟨ns, hns, hints, hbounds⟩ := exists_integers hk hkinds hxs
  obtain ⟨n, hn, hint⟩ := exists_onIntegers? hop hints hx
  obtain ⟨hleast, hgreatest⟩ := hbounds n (mem_of_onIntegers? hn)
  obtain ⟨w, hw, hwkind, hwint⟩ := Scalar.exists_ofDouble?_of_isInt hint hk
  rw [hkind] at hv
  cases hv.symm.trans hw
  rw [Kind.saturate_eq_self hleast hgreatest] at hwint
  exact ⟨n, v, ⟨ns, hns, hn⟩, hvalue, hwkind, hwint⟩

theorem fold_integer_bounds_extremes :
    let x : Constant :=
      ⟨.vector .int 3, [.int (-0x80000000), .int 0x7FFFFFFF, .int 0x7FFFFFFF], .dummy, rfl⟩
    let lo : Constant := .scalar (.int (-5)) .dummy
    let hi : Constant :=
      ⟨.vector .int 3, [.int 0x7FFFFFFF, .int 0x7FFFFFFF, .int (-0x80000000)], .dummy, rfl⟩
    let c : Constant :=
      ⟨.vector .int 3, [.int (-5), .int 0x7FFFFFFF, .int (-0x80000000)], ⟨3, 4⟩, rfl⟩
    clamp.fold [x, lo, hi] ⟨3, 4⟩ = .ok c ∧ c.ty.kind = .int ∧
      ∀ j < 3, ∃ n v, clamp.IntegerAt [x, lo, hi] j n ∧ c.values[j]? = some v ∧ v.kind = .int ∧
        v.integer? = some n := by
  intro x lo hi c
  have hfold : clamp.fold [x, lo, hi] ⟨3, 4⟩ = .ok c := by decide +kernel
  exact ⟨hfold, fold_integer_bounds (by decide) rfl (by decide) hfold⟩

end Builtin

end ShaderFold
