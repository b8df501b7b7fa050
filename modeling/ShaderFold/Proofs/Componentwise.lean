import ShaderFold.Proofs.CallRules

namespace ShaderFold

section Entries

variable {a b c : Constant} {n j : Nat} {xs : List Double}

theorem Constant.number_eq_ok_iff {c : Constant} {x : Double} :
    c.number j = .ok x ↔ ∃ v, c.broadcast? j = some v ∧ v.toDouble = x := by
  rw [number, bind_eq_ok_iff]
  simp only [broadcast_eq_ok_iff, Except.ok.injEq]

theorem exists_entry_of_onPairs {function : Double → Double → Double}
    (h : onPairs n a b function = .ok xs) (hj : j < n) :
    ∃ x y, a.number j = .ok x ∧ b.number j = .ok y ∧ xs[j]? = some (function x y) := by
  obtain ⟨z, hz, hget⟩ := exists_getElem?_of_mapM_range h hj
  obtain ⟨x, hx, hz⟩ := bind_eq_ok_iff.1 hz
  obtain ⟨y, hy, hz⟩ := bind_eq_ok_iff.1 hz
  cases hz
  exact ⟨x, y, hx, hy, hget⟩

theorem exists_entry_of_onTriples {function : Double → Double → Double → Double}
    (h : onTriples n a b c function = .ok xs) (hj : j < n) :
    ∃ x y z, a.number j = .ok x ∧ b.number j = .ok y ∧ c.number j = .ok z ∧
      xs[j]? = some (function x y z) := by
  obtain ⟨w, hw, hget⟩ := exists_getElem?_of_mapM_range h hj
  obtain ⟨x, hx, hw⟩ := bind_eq_ok_iff.1 hw
  obtain ⟨y, hy, hw⟩ := bind_eq_ok_iff.1 hw
  obtain ⟨z, hz, hw⟩ := bind_eq_ok_iff.1 hw
  cases hw
  exact ⟨x, y, z, hx, hy, hz, hget⟩

theorem StoredAt.exists_getElem? {k : Kind} {values : List Scalar} (h : StoredAt k xs values)
    {x : Double} (hx : xs[j]? = some x) :
    ∃ v, Scalar.ofDouble? k x = some v ∧ values[j]? = some v :=
  exists_getElem?_of_forall₂ h hx

end Entries

namespace Builtin

def isComponentwise : Builtin → Bool
  | min | max | atan | pow | clamp | mix | step | smoothStep => true
  | _ => false

/-- What such a function makes of one number of each operand, the operands being of the given
kinds. -/
def onNumbers? : Builtin → List Kind → List Double → Option Double
  | min, _, [x, y] => some (x.min y)
  | max, _, [x, y] => some (x.max y)
  | atan, _, [y, x] => some (y.arctan2 x)
  | pow, _, [x, y] => some (x.pow y)
  | clamp, _, [x, lo, hi] => some ((x.max lo).min hi)
  | mix, [_, _, .bool], [x, y, a] => some (Double.select x y a)
  | mix, _, [x, y, a] => some (Double.mix x y a)
  | step, _, [edge, x] => some (Double.step edge x)
  | smoothStep, _, [edge0, edge1, x] => some (Double.smoothStep edge0 edge1 x)
  | _, _, _ => none

/-- The number that a function gives on what stands at an index of its operands. -/
def NumberAt (op : Builtin) (operands : List Constant) (j : Nat) (x : Double) : Prop :=
  ∃ args, List.Forall₂ (fun c x => Constant.number c j = .ok x) operands args ∧
    op.onNumbers? (kindsOf operands) args = some x

section Leaves

variable {op : Builtin} {operands : List Constant} {j : Nat}

theorem exists_entry_of_pairwise {ty : Ty} {a b : Constant} {function : Double → Double → Double}
    {xs : List Double} (hxs : (BuiltinCall.pairwise ty a b function).numbers = .ok xs)
    (hj : j < ty.size)
    (hop : ∀ x y, op.onNumbers? (kindsOf [a, b]) [x, y] = some (function x y)) :
    ∃ x, op.NumberAt [a, b] j x ∧ xs[j]? = some x := by
  obtain ⟨x, y, hx, hy, hget⟩ := exists_entry_of_onPairs hxs hj
  exact ⟨_, ⟨[x, y], .cons hx (.cons hy .nil), hop x y⟩, hget⟩

theorem exists_entry_of_triplewise {ty : Ty} {a b c : Constant}
    {function : Double → Double → Double → Double} {xs : List Double}
    (hxs : (BuiltinCall.triplewise ty a b c function).numbers = .ok xs) (hj : j < ty.size)
    (hop : ∀ x y z, op.onNumbers? (kindsOf [a, b, c]) [x, y, z] = some (function x y z)) :
    ∃ x, op.NumberAt [a, b, c] j x ∧ xs[j]? = some x := by
  obtain ⟨x, y, z, hx, hy, hz, hget⟩ := exists_entry_of_onTriples hxs hj
  exact ⟨_, ⟨[x, y, z], .cons hx (.cons hy (.cons hz .nil)), hop x y z⟩, hget⟩

theorem onNumbers?_mix (a b c : Constant) (x y z : Double) :
    mix.onNumbers? (kindsOf [a, b, c]) [x, y, z] =
      some ((if c.ty.kind = .bool then Double.select else Double.mix) x y z) := by
  cases h : c.ty.kind <;> simp [onNumbers?, kindsOf, h]

theorem exists_entry {call : BuiltinCall} {xs : List Double} (hop : op.isComponentwise = true)
    (hcall : op.call? operands = some call) (hxs : call.numbers = .ok xs)
    (hj : j < call.ty.size) :
    ∃ x, op.NumberAt operands j x ∧ xs[j]? = some x := by
  -- The cases that are left follow the rows of `call?`.
  rw [call?.eq_def] at hcall
  split at hcall <;> cases hcall <;> cases hop
  · exact exists_entry_of_pairwise hxs hj fun x y => rfl
  · exact exists_entry_of_pairwise hxs hj fun x y => rfl
  · exact exists_entry_of_pairwise hxs hj fun x y => rfl
  · exact exists_entry_of_pairwise hxs hj fun x y => rfl
  · exact exists_entry_of_triplewise hxs hj fun x y z => rfl
  · exact exists_entry_of_triplewise hxs hj (onNumbers?_mix _ _ _)
  · exact exists_entry_of_pairwise hxs hj fun x y => rfl
  · exact exists_entry_of_triplewise hxs hj fun x y z => rfl

theorem exists_numberAt_of_folded {span : Span} {c : Constant} (hop : op.isComponentwise = true)
    (h : op.fold operands span = .ok c) (hj : j < c.size) :
    ∃ x v, op.NumberAt operands j x ∧ Scalar.ofDouble? c.ty.kind x = some v ∧
      c.values[j]? = some v := by
  obtain ⟨call, xs, hcall, _, _, hxs, hstored, hty, _⟩ := fold_eq_ok_iff.1 h
  rw [← hty] at hstored
  rw [← Constant.size_ty, hty] at hj
  obtain ⟨x, hx, hget⟩ := exists_entry hop hcall hxs hj
  obtain ⟨v, hv, hvalue⟩ := hstored.exists_getElem? hget
  exact ⟨x, v, hx, hv, hvalue⟩

theorem NumberAt.unique {x y : Double} (hx : op.NumberAt operands j x)
    (hy : op.NumberAt operands j y) : x = y := by
  obtain ⟨args, hargs, hx⟩ := hx
  obtain ⟨args', hargs', hy⟩ := hy
  have hunique : Relator.RightUnique fun (c : Constant) (x : Double) => c.number j = .ok x := by
    intro c x y hx hy
    exact Except.ok.inj (hx.symm.trans hy)
  have hsame : args = args' := List.right_unique_forall₂' hunique hargs hargs'
  subst hsame
  exact Option.some.inj (hx.symm.trans hy)

end Leaves

end Builtin

section Scalars

variable {operands scalars : List Constant} {j : Nat}

/-- Constants of a single leaf, the ones that stand at an index of operands. -/
def LeavesAt (j : Nat) (operands scalars : List Constant) : Prop :=
  List.Forall₂ (fun c s => ∃ v place, Constant.broadcast? c j = some v ∧ s = .scalar v place)
    operands scalars

theorem LeavesAt.numbers (h : LeavesAt j operands scalars) {args : List Double}
    (hargs : List.Forall₂ (fun c x => Constant.number c j = .ok x) operands args) :
    List.Forall₂ (fun c x => Constant.number c 0 = .ok x) scalars args := by
  induction h generalizing args with
  | nil =>
    cases hargs
    exact .nil
  | cons hs _ ih =>
    cases hargs with
    | cons hnumber hrest =>
      obtain ⟨v, place, hv, rfl⟩ := hs
      obtain ⟨w, hw, rfl⟩ := Constant.number_eq_ok_iff.1 hnumber
      cases hv.symm.trans hw
      exact .cons (Constant.number_eq_ok_iff.2 ⟨v, rfl, rfl⟩) (ih hrest)

theorem LeavesAt.kindsOf_eq (h : LeavesAt j operands scalars) (hs : .struct ∉ kindsOf operands) :
    kindsOf scalars = kindsOf operands := by
  induction h with
  | nil => rfl
  | cons hleaf _ ih =>
    obtain ⟨v, place, hv, rfl⟩ := hleaf
    obtain ⟨hne, hrest⟩ := not_or.1 (mt List.mem_cons.2 hs)
    have hkind := Constant.kind_of_mem (Ne.symm hne) (Constant.mem_of_broadcast? hv)
    exact congrArg₂ List.cons hkind (ih hrest)

theorem LeavesAt.types (h : LeavesAt j operands scalars) :
    scalars.map Constant.ty = (kindsOf scalars).map .scalar := by
  induction h with
  | nil => rfl
  | cons hleaf _ ih =>
    obtain ⟨v, place, _, rfl⟩ := hleaf
    exact congrArg _ ih

end Scalars

namespace Builtin

variable {op : Builtin} {operands scalars : List Constant} {j : Nat}

theorem KindsFit.struct_notMem {k : Kind} {later : List Kind} (h : op.KindsFit k later) :
    .struct ∉ k :: later := by
  have hk : k ≠ .struct := Kind.ne_struct_of_isNumeric h.takes.isNumeric
  intro hmem
  rcases List.mem_cons.1 hmem with hs | hlater
  · exact hk hs.symm
  · obtain ⟨i, hi⟩ := List.getElem?_of_mem hlater
    rcases h.admits i _ hi with hs | ⟨_, _, hs⟩
    · exact hk hs.symm
    · cases hs

theorem shape?_scalars {k : Kind} {later : List Kind} (hop : op.isComponentwise = true)
    (hcount : later.length + 1 = op.arity) :
    op.shape? ((k :: later).map .scalar) = some (.scalar k, true) := by
  cases op <;> cases hop <;>
    rcases later with _ | ⟨l, _ | ⟨m, _ | ⟨n, rest⟩⟩⟩ <;> cases hcount <;>
    simp [shape?, Ty.broadcasts, Ty.larger, Ty.size]

theorem NumberAt.exists_leavesAt {x : Double} (hx : op.NumberAt operands j x) :
    ∃ scalars, LeavesAt j operands scalars := by
  obtain ⟨args, hargs, _⟩ := hx
  apply exists_forall₂_iff.2
  intro c hc
  obtain ⟨y, hy⟩ := exists_forall₂_iff.1 ⟨args, hargs⟩ c hc
  obtain ⟨v, hv, _⟩ := Constant.number_eq_ok_iff.1 hy
  exact ⟨.scalar v .dummy, v, .dummy, hv, rfl⟩

theorem NumberAt.of_leavesAt {x : Double} (hx : op.NumberAt operands j x)
    (h : LeavesAt j operands scalars) (hkinds : kindsOf scalars = kindsOf operands) :
    op.NumberAt scalars 0 x := by
  obtain ⟨args, hargs, hx⟩ := hx
  exact ⟨args, h.numbers hargs, hkinds ▸ hx⟩

theorem KindsFit.exists_folded_leaves {k : Kind} {later : List Kind} (hfit : op.KindsFit k later)
    (hop : op.isComponentwise = true) (hkinds : kindsOf scalars = k :: later)
    (h : LeavesAt j operands scalars) (span : Span) :
    ∃ c, op.fold scalars span = .ok c ∧ c.ty = .scalar k ∧ c.span = span := by
  have hmodf : op ≠ .modf := by
    rintro rfl
    cases hop
  have hshape : op.shape? (scalars.map Constant.ty) = some (.scalar k, true) := by
    rw [h.types, hkinds]
    exact shape?_scalars hop hfit.count
  exact hfit.exists_folded hkinds hmodf hshape span

/-- A function that is computed index by index gives at each index what it gives on the single
leaves that stand there. -/
theorem fold_componentwise {span : Span} {c : Constant} (hop : op.isComponentwise = true)
    (h : op.fold operands span = .ok c) (hj : j < c.size) :
    (∃ scalars, LeavesAt j operands scalars) ∧
      ∀ scalars, LeavesAt j operands scalars →
        ∃ v, op.fold scalars span = .ok (.scalar v span) ∧ c.values[j]? = some v := by
  obtain ⟨k, later, hkinds, hfit, hshape⟩ := exists_kindsFit_of_folded h
  obtain ⟨x, v, hx, hv, hvalue⟩ := exists_numberAt_of_folded hop h hj
  refine ⟨hx.exists_leavesAt, ?_⟩
  intro scalars hscalars
  have hsame := hscalars.kindsOf_eq (hkinds ▸ hfit.struct_notMem)
  obtain ⟨d, hd, hty, rfl⟩ := hfit.exists_folded_leaves hop (hsame.trans hkinds) hscalars span
  obtain ⟨w, rfl, hscalar⟩ := Constant.exists_eq_scalar hty
  rw [hscalar] at hd
  -- Both folds store the same number at the same kind.
  obtain ⟨y, w', hy, hw, hget⟩ := exists_numberAt_of_folded hop hd Nat.zero_lt_one
  cases hget
  obtain rfl := (hx.of_leavesAt hscalars hsame).unique hy
  have hkind : c.ty.kind = w.kind := hfit.kind_of_shape? (List.map_map.trans hkinds) hshape
  rw [hkind] at hv
  cases hv.symm.trans hw
  exact ⟨v, hd, hvalue⟩

theorem fold_componentwise_selection :
    let x : Constant := ⟨.vector .double 2, [.double 1, .double 2], .dummy, rfl⟩
    let y : Constant := .scalar (.double 5) .dummy
    let a : Constant := ⟨.vector .bool 2, [.bool false, .bool true], .dummy, rfl⟩
    let c : Constant := ⟨.vector .double 2, [.double 1, .double 5], ⟨3, 4⟩, rfl⟩
    mix.fold [x, y, a] ⟨3, 4⟩ = .ok c ∧
      ∃ v, mix.fold [.scalar (.double 2) .dummy, y, .scalar (.bool true) .dummy] ⟨3, 4⟩ =
        .ok (.scalar v ⟨3, 4⟩) ∧ c.values[1]? = some v := by
  intro x y a c
  have hfold : mix.fold [x, y, a] ⟨3, 4⟩ = .ok c := by decide +kernel
  obtain ⟨_, hscalars⟩ := fold_componentwise rfl hfold (j := 1) (by decide)
  have hleaves :
      LeavesAt 1 [x, y, a] [.scalar (.double 2) .dummy, y, .scalar (.bool true) .dummy] :=
    .cons ⟨_, _, rfl, rfl⟩ (.cons ⟨_, _, rfl, rfl⟩ (.cons ⟨_, _, rfl, rfl⟩ .nil))
  exact ⟨hfold, hscalars _ hleaves⟩

end Builtin

end ShaderFold
