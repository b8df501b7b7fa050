import Mathlib.Data.List.Forall2
import ShaderFold.Fold.Binary
import ShaderFold.Fold.LeafFunction

namespace ShaderFold

theorem forall₂_of_map_eq {α β : Type} {p : α → β} {xs ys : List α} (h : xs.map p = ys.map p) :
    List.Forall₂ (fun x y => p x = p y) xs ys := by
  rw [← List.forall₂_eq_eq_eq] at h
  exact List.forall₂_map_right_iff.1 (List.forall₂_map_left_iff.1 h)

theorem length_eq_of_map_eq {α β : Type} {p : α → β} {xs ys : List α} (h : xs.map p = ys.map p) :
    xs.length = ys.length :=
  (forall₂_of_map_eq h).length_eq

theorem exists_forall₂_iff {α β : Type} {R : α → β → Prop} {xs : List α} :
    (∃ ys, List.Forall₂ R xs ys) ↔ ∀ x ∈ xs, ∃ y, R x y := by
  induction xs with
  | nil => exact ⟨fun _ => List.forall_mem_nil _, fun _ => ⟨[], .nil⟩⟩
  | cons x xs ih =>
    rw [List.forall_mem_cons, ← ih]
    constructor
    · rintro ⟨_, h⟩
      cases h with
      | cons hy hys => exact ⟨⟨_, hy⟩, _, hys⟩
    · rintro ⟨⟨y, hy⟩, ys, hys⟩
      exact ⟨y :: ys, .cons hy hys⟩

theorem exists_getElem?_of_forall₂ {α β : Type} {R : α → β → Prop} {xs : List α} {ys : List β}
    (h : List.Forall₂ R xs ys) {i : Nat} {x : α} (hx : xs[i]? = some x) :
    ∃ y, R x y ∧ ys[i]? = some y := by
  induction h generalizing i with
  | nil => cases hx
  | cons hxy _ ih =>
    cases i with
    | zero =>
      cases hx
      exact ⟨_, hxy, rfl⟩
    | succ i => exact ih hx

def Kind.leaf? (k : Kind) : Option Kind :=
  if k = .struct then none else some k

theorem Kind.ne_struct_of_isNumeric {k : Kind} (h : k.isNumeric = true) : k ≠ .struct := by
  rintro rfl
  cases h

theorem Kind.isNumeric_of_isInteger {k : Kind} (h : k.isInteger = true) : k.isNumeric = true := by
  rw [isNumeric, h, Bool.or_true]

theorem Kind.ne_struct_of_isInteger {k : Kind} (h : k.isInteger = true) : k ≠ .struct :=
  ne_struct_of_isNumeric (isNumeric_of_isInteger h)

theorem kinds_of_forall₂ {α : Type} {R : α → Scalar → Prop} {k : Kind}
    (hR : ∀ a v, R a v → v.kind = k) {xs : List α} {values : List Scalar}
    (h : List.Forall₂ R xs values) : values.map Scalar.kind = List.replicate xs.length k := by
  induction h with
  | nil => rfl
  | cons hv _ ih => rw [List.map_cons, ih, hR _ _ hv, List.length_cons, List.replicate_succ]

namespace Scalar

theorem exists_ofDouble? {k : Kind} (h : k.isNumeric = true) (x : Double) :
    ∃ v, ofDouble? k x = some v := by
  cases k with
  | bool => cases h
  | int => exact ⟨_, rfl⟩
  | uint => exact ⟨_, rfl⟩
  | float => exact ⟨_, rfl⟩
  | double => exact ⟨_, rfl⟩
  | struct => cases h

theorem ofDouble?_kind (k : Kind) (x : Double) : (ofDouble? k x).map kind = k.leaf? := by
  cases k <;> rfl

theorem convert?_kind (s : Scalar) (k : Kind) : (s.convert? k).map kind = k.leaf? := by
  cases k <;> cases s <;> rfl

theorem isSome_less? (a b : Scalar) :
    (a.less? b).isSome = (decide (a.kind = b.kind) && a.kind.isNumeric) := by
  cases a <;> cases b <;> rfl

end Scalar

/-- Whether an operator that acts leaf by leaf has a rule for leaves of the given kinds. -/
def BinaryOp.supports : BinaryOp → (left right : Kind) → Bool
  | add, k, l | sub, k, l | mul, k, l | vectorTimesScalar, k, l | matrixTimesScalar, k, l
  | div, k, l => k = l && k.isNumeric
  | mod, k, l | bitAnd, k, l | bitOr, k, l | bitXor, k, l => k = l && k.isInteger
  | shiftLeft, k, l | shiftRight, k, l => k.isInteger && l.isInteger
  | logicalAnd, k, l | logicalOr, k, l | logicalXor, k, l => k = l && k = .bool
  | _, _, _ => false

/-- A rule applies by the kinds of both leaves and gives a leaf of the kind of the left one. -/
theorem BinaryOp.onLeaves?_kind {op : BinaryOp} {rule : Scalar → Scalar → Option Scalar}
    (h : op.onLeaves? = some rule) (a b : Scalar) :
    (rule a b).map Scalar.kind = if op.supports a.kind b.kind then some a.kind else none := by
  cases op <;> cases h <;> cases a <;> cases b <;> rfl

theorem BinaryOp.exists_of_supports {op : BinaryOp} {rule : Scalar → Scalar → Option Scalar}
    (h : op.onLeaves? = some rule) {a b : Scalar} (hs : op.supports a.kind b.kind = true) :
    ∃ v, rule a b = some v ∧ v.kind = a.kind := by
  have hkind := onLeaves?_kind h a b
  rw [if_pos hs] at hkind
  exact Option.map_eq_some_iff.1 hkind

theorem BinaryOp.supports_of_onLeaves? {op : BinaryOp} {rule : Scalar → Scalar → Option Scalar}
    (h : op.onLeaves? = some rule) {a b v : Scalar} (hv : rule a b = some v) :
    op.supports a.kind b.kind = true := by
  have hkind := onLeaves?_kind h a b
  rw [hv] at hkind
  by_contra hs
  rw [if_neg hs] at hkind
  cases hkind

theorem BinaryOp.kind_of_onLeaves? {op : BinaryOp} {rule : Scalar → Scalar → Option Scalar}
    (h : op.onLeaves? = some rule) {a b v : Scalar} (hv : rule a b = some v) :
    v.kind = a.kind := by
  have hkind := onLeaves?_kind h a b
  rw [hv, if_pos (supports_of_onLeaves? h hv)] at hkind
  exact Option.some.inj hkind

theorem BinaryOp.isSome_holds?_congr (op : BinaryOp) {a a' b b' : Scalar} (ha : a.kind = a'.kind)
    (hb : b.kind = b'.kind) : (op.holds? a b).isSome = (op.holds? a' b').isSome := by
  have hless : (a.less? b).isSome = (a'.less? b').isSome := by
    rw [Scalar.isSome_less?, Scalar.isSome_less?, ha, hb]
  have hgreater : (a.greater? b).isSome = (a'.greater? b').isSome := by
    rw [Scalar.greater?, Scalar.greater?, Scalar.isSome_less?, Scalar.isSome_less?, ha, hb]
  cases op <;> simp only [holds?, Option.isSome_map, hless, hgreater]

def UnaryOp.leafKind? (op : UnaryOp) (resultKind k : Kind) : Option Kind :=
  match op with
  | negate | abs => if k.isNumeric then some k else none
  | logicalNot | vectorLogicalNot => if k = .bool then some k else none
  | bitNot => if k.isInteger then some k else none
  | sign => if k = .int then some k else if k.isFloat then resultKind.leaf? else none
  | derivativeX | derivativeY | derivativeWidth => resultKind.leaf?
  | _ => if op.onDouble?.isSome && k.isFloat then resultKind.leaf? else none

theorem UnaryOp.onLeaf?_kind (op : UnaryOp) (resultKind : Kind) (v : Scalar) :
    (op.onLeaf? resultKind v).map Scalar.kind = op.leafKind? resultKind v.kind := by
  have hdouble : (op.onDouble?.bind fun function =>
      if v.kind.isFloat then Scalar.ofDouble? resultKind (function v.toDouble)
      else none).map Scalar.kind =
      if op.onDouble?.isSome && v.kind.isFloat then resultKind.leaf? else none := by
    cases op.onDouble? with
    | none => rfl
    | some function => by_cases hf : v.kind.isFloat <;> simp [hf, Scalar.ofDouble?_kind]
  cases op
  case negate => cases v <;> rfl
  case abs => cases v <;> rfl
  case logicalNot => cases v <;> rfl
  case vectorLogicalNot => cases v <;> rfl
  case bitNot => cases v <;> rfl
  case sign =>
    cases v with
    | bool b => rfl
    | int v => rfl
    | uint v => rfl
    | float x => exact Scalar.ofDouble?_kind _ _
    | double x => exact Scalar.ofDouble?_kind _ _
  case derivativeX => exact Scalar.ofDouble?_kind _ _
  case derivativeY => exact Scalar.ofDouble?_kind _ _
  case derivativeWidth => exact Scalar.ofDouble?_kind _ _
  all_goals exact hdouble

namespace LayoutMismatch

theorem firstKind?_congr (index : Nat) (expected : List Kind) {found found' : List Scalar}
    (h : found.map Scalar.kind = found'.map Scalar.kind) :
    firstKind? index expected found = firstKind? index expected found' := by
  have hall := forall₂_of_map_eq h
  clear h
  induction hall generalizing index expected with
  | nil => rfl
  | cons hv _ ih =>
    cases expected with
    | nil => rfl
    | cons k expected => rw [firstKind?, firstKind?, hv, ih (index + 1) expected]

theorem find?_congr (ty : Ty) {values values' : List Scalar}
    (h : values.map Scalar.kind = values'.map Scalar.kind) :
    find? ty values = find? ty values' := by
  rw [find?, find?, length_eq_of_map_eq h, firstKind?_congr 0 ty.leafKinds h]

end LayoutMismatch

/-- All leaves of a type that is no structure have the kind of the type. -/
theorem Ty.leafKinds_eq_replicate : (t : Ty) → t.kind ≠ .struct →
    t.leafKinds = List.replicate t.size t.kind
  | scalar _, _ => by rw [leafKinds, size, kind]; rfl
  | vector .., _ => by rw [leafKinds, size, kind]
  | matrix .., _ => by rw [leafKinds, size, kind]
  | array element len, h => by
    rw [kind] at h
    rw [leafKinds_array, leafKinds_eq_replicate element h, size, kind,
      List.flatten_replicate_replicate]
  | struct _, h => (h rfl).elim

namespace Constant

theorem result_of_fits (op : Operator) {ty : Ty} {values : List Scalar}
    (h : values.map Scalar.kind = ty.leafKinds) (span : Span) :
    result op ty values span = .ok ⟨ty, values, span, h⟩ := by
  have hok : ofValues ty values span = .ok ⟨ty, values, span, h⟩ :=
    ofValues_eq_ok_iff.2 ⟨rfl, rfl, rfl⟩
  rw [result, hok]

theorem result_eq_ok_iff {op : Operator} {ty : Ty} {values : List Scalar} {span : Span}
    {c : Constant} :
    result op ty values span = .ok c ↔ c.ty = ty ∧ c.values = values ∧ c.span = span := by
  rw [result, ← ofValues_eq_ok_iff]
  cases ofValues ty values span with
  | ok d => simp only [Except.ok.injEq]
  | error mismatch => simp only [reduceCtorEq]

theorem exists_mismatch_of_result {op : Operator} {ty : Ty} {values : List Scalar} {span : Span}
    {failure : Failure} (h : result op ty values span = .error failure) :
    ∃ mismatch, failure = .malformed op (.layout mismatch) := by
  rw [result] at h
  split at h
  · cases h
  · cases h
    exact ⟨_, rfl⟩

theorem kind_of_mem {c : Constant} (h : c.ty.kind ≠ .struct) {v : Scalar}
    (hv : v ∈ c.values) : v.kind = c.ty.kind := by
  have hmem : v.kind ∈ c.ty.leafKinds := c.fits ▸ List.mem_map_of_mem hv
  rw [Ty.leafKinds_eq_replicate _ h] at hmem
  exact List.eq_of_mem_replicate hmem

theorem exists_eq_scalar {c : Constant} {k : Kind} (h : c.ty = .scalar k) :
    ∃ v, v.kind = k ∧ c = .scalar v c.span := by
  obtain ⟨ty, values, span, fits⟩ := c
  subst h
  obtain ⟨v, rfl, rfl⟩ := List.map_eq_singleton_iff.1 fits
  exact ⟨v, rfl, rfl⟩

theorem leafKinds_of_kinds {c : Constant} {k : Kind} (h : ∀ v ∈ c.values, v.kind = k) :
    c.ty.leafKinds = List.replicate c.size k := by
  refine List.eq_replicate_iff.2 ⟨by rw [Ty.length_leafKinds, size_ty], ?_⟩
  intro l hl
  rw [← c.fits] at hl
  obtain ⟨v, hv, rfl⟩ := List.mem_map.1 hl
  exact h v hv

theorem mem_of_broadcast? {c : Constant} {index : Nat} {v : Scalar}
    (h : c.broadcast? index = some v) : v ∈ c.values := by
  rw [broadcast?] at h
  split at h
  · exact List.mem_of_getElem? h
  · exact List.mem_of_getElem? h

theorem kind_of_broadcast? {c : Constant} {k : Kind} (hk : k ≠ .struct) (hc : c.ty.kind = k)
    {index : Nat} {v : Scalar} (hv : c.broadcast? index = some v) : v.kind = k := by
  subst hc
  exact kind_of_mem hk (mem_of_broadcast? hv)

theorem mem_of_broadcast {c : Constant} {index : Nat} {v : Scalar}
    (h : c.broadcast index = .ok v) : v ∈ c.values :=
  mem_of_broadcast? (broadcast_eq_ok_iff.1 h)

theorem kind_of_broadcast {c : Constant} (h : c.ty.kind ≠ .struct) {index : Nat} {v : Scalar}
    (hv : c.broadcast index = .ok v) : v.kind = c.ty.kind :=
  kind_of_mem h (mem_of_broadcast hv)

end Constant

end ShaderFold
