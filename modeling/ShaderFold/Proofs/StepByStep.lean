import ShaderFold.Proofs.SameKind
import ShaderFold.Proofs.UnaryLeaves
import ShaderFold.Proofs.VectorProduct

namespace ShaderFold

/-- The definition of a function by simpler ones, folded step by step. The numbers and the calls
in it stand at the given place. -/
def Builtin.bySteps? (place : Span) : Builtin → List Constant → Option Folded
  | distance, [p, q] => some do
    let difference ← BinaryOp.sub.fold p q
    UnaryOp.length.fold difference (.scalar .double)
  | reflect, [i, n] => some do
    let d ← dot.fold [n, i] place
    let twice ← BinaryOp.mul.fold (.scalar (.double 2) place) d
    let part ← BinaryOp.mul.fold twice n
    BinaryOp.sub.fold i part
  | faceForward, [n, i, r] => some do
    let d ← dot.fold [r, i] place
    let facing ← BinaryOp.less.fold d (.scalar (.double 0) place)
    if facing.values = [.bool true] then .ok n else UnaryOp.negate.fold n n.ty
  | mix, [x, y, a] => some do
    let rest ← BinaryOp.sub.fold (.scalar (.double 1) place) a
    let first ← BinaryOp.mul.fold x rest
    let second ← BinaryOp.mul.fold y a
    BinaryOp.add.fold first second
  | clamp, [x, lo, hi] => some do
    let raised ← max.fold [x, lo] place
    min.fold [raised, hi] place
  | _, _ => none

theorem storedAt_double_iff {xs : List Double} {values : List Scalar} :
    StoredAt .double xs values ↔ values = xs.map .double := by
  constructor
  · intro h
    induction h with
    | nil => rfl
    | cons hv _ ih =>
      cases hv
      rw [List.map_cons, ih]
  · rintro rfl
    exact List.forall₂_map_right_iff.2 (List.forall₂_same.2 fun _ _ => rfl)

theorem Ty.leafKinds_of_doubles {ty : Ty} {xs : List Double} (hk : ty.kind = .double)
    (hlen : xs.length = ty.size) : (xs.map Scalar.double).map Scalar.kind = ty.leafKinds := by
  have hstruct : ty.kind ≠ .struct := by
    rw [hk]
    nofun
  rw [(storedAt_double_iff.2 rfl).kinds, hlen, leafKinds_eq_replicate _ hstruct, hk]

namespace Constant

variable {a b c : Constant} {n : Nat} {x y z : Fin n → Double}

/-- The doubles that stand at the indices of a constant when it is matched with one of `n` leaves.
-/
structure Doubles (c : Constant) (x : Fin n → Double) : Prop where
  kind : c.ty.kind = .double
  size : c.size = 1 ∨ c.size = n
  leaf : ∀ j : Fin n, c.broadcast? j = some (.double (x j))

theorem exists_doubles (hk : c.ty.kind = .double) (hs : c.size = 1 ∨ c.size = n) :
    ∃ x : Fin n → Double, c.Doubles x := by
  have hleaf (j : Fin n) : ∃ x, c.broadcast? j = some (.double x) := by
    obtain ⟨v, hv⟩ := exists_broadcast? (covers_of_one_or hs) j.isLt
    have hkind := kind_of_broadcast? (k := .double) nofun hk hv
    cases v with
    | double x => exact ⟨x, hv⟩
    | _ => cases hkind
  choose x hx using hleaf
  exact ⟨x, hk, hs, hx⟩

theorem doubles_scalar (x : Double) (place : Span) :
    (scalar (.double x) place).Doubles fun _ : Fin n => x :=
  ⟨rfl, .inl rfl, fun _ => rfl⟩

theorem doubles_of_values (hk : c.ty.kind = .double) (h : c.values = (List.ofFn x).map .double) :
    c.Doubles x := by
  have hsize : c.size = n := by rw [size, h, List.length_map, List.length_ofFn]
  refine ⟨hk, .inr hsize, ?_⟩
  intro j
  rw [broadcast?_of_lt (by rw [hsize]; exact j.isLt), h, List.getElem?_map, List.getElem?_ofFn,
    dif_pos j.isLt]
  rfl

namespace Doubles

theorem values_eq (h : c.Doubles x) (hs : c.size = n) : c.values = (List.ofFn x).map .double := by
  rw [List.map_ofFn]
  apply values_eq_ofFn_of_size hs
  intro j
  rw [← broadcast?_of_lt (by rw [hs]; exact j.isLt)]
  exact h.leaf j

theorem number_eq (h : c.Doubles x) (j : Fin n) : c.number j = .ok (x j) :=
  number_eq_ok_iff.2 ⟨_, h.leaf j, rfl⟩

theorem sizesMatch (ha : a.Doubles x) (hb : b.Doubles y) : a.SizesMatch b := by
  rcases ha.size with h | h
  · exact .inr (.inl h)
  · rcases hb.size with h' | h'
    · exact .inr (.inr h')
    · exact .inl (h.trans h'.symm)

theorem matchedTy_eq (hs : a.size = n) (hb : b.Doubles y) : a.matchedTy b = a.ty := by
  have hsize := hb.size
  rw [matchedTy, if_neg (by omega)]

theorem onPairs_eq (ha : a.Doubles x) (hb : b.Doubles y) (f : Double → Double → Double) :
    onPairs n a b f = .ok (List.ofFn fun j => f (x j) (y j)) := by
  apply mapM_range_eq_ofFn
  intro j
  rw [ha.number_eq, hb.number_eq]
  rfl

theorem onTriples_eq (ha : a.Doubles x) (hb : b.Doubles y) (hc : c.Doubles z)
    (f : Double → Double → Double → Double) :
    onTriples n a b c f = .ok (List.ofFn fun j => f (x j) (y j) (z j)) := by
  apply mapM_range_eq_ofFn
  intro j
  rw [ha.number_eq, hb.number_eq, hc.number_eq]
  rfl

theorem map_toDouble (h : c.Doubles x) (hs : c.size = n) (f : Double → Double) :
    (c.values.map fun v => f v.toDouble) = List.ofFn fun j => f (x j) := by
  rw [h.values_eq hs, List.map_map, List.map_ofFn]
  rfl

theorem norm_eq (h : c.Doubles x) (hs : c.size = n) :
    c.norm = (BinaryFloat.sum (List.ofFn fun j => x j * x j)).sqrt := by
  rw [norm, h.map_toDouble hs fun x => x * x]

end Doubles

end Constant

namespace BinaryOp

open Constant

def onDoubles? : BinaryOp → Option (Double → Double → Double)
  | add => some (· + ·)
  | sub => some (· - ·)
  | mul => some (· * ·)
  | div => some fun x y => if y.equal 0 then .largest else x / y
  | _ => none

variable {f : Double → Double → Double} {a b : Constant} {n : Nat} {x y : Fin n → Double}

theorem exists_rule_on_doubles (op : BinaryOp) (h : op.onDoubles? = some f) :
    ∃ rule, op.JoinsOneKind rule ∧ op.supports .double .double = true ∧
      ∀ x y, rule (.double x) (.double y) = some (.double (f x y)) := by
  cases op <;> cases h <;> exact ⟨_, by constructor, rfl, fun _ _ => rfl⟩

/-- Arithmetic on doubles always succeeds and is done at each index. -/
theorem exists_folded_doubles (op : BinaryOp) (h : op.onDoubles? = some f) (ha : a.Doubles x)
    (hb : b.Doubles y) :
    ∃ c, op.fold a b = .ok c ∧ c.ty = a.matchedTy b ∧ c.Doubles fun j => f (x j) (y j) := by
  obtain ⟨rule, hrule, hsup, hon⟩ := exists_rule_on_doubles op h
  obtain ⟨c, hc, hty⟩ := hrule.exists_folded_of_kind (ha.sizesMatch hb) hsup ha.kind hb.kind
  refine ⟨c, hc, hty, ⟨?_, ?_, ?_⟩⟩
  · rw [hty]
    exact kind_matchedTy ha.kind hb.kind
  · rw [size_of_matchedTy hty]
    split
    · exact hb.size
    · exact ha.size
  · intro j
    rw [broadcast?_of_folded hrule.onLeaves?_eq hc (ha.leaf j) (hb.leaf j), hon]

theorem exists_folded_doubles_left (op : BinaryOp) (h : op.onDoubles? = some f) (ha : a.Doubles x)
    (hs : a.size = n) (hb : b.Doubles y) :
    ∃ c, op.fold a b = .ok c ∧ c.ty = a.ty ∧ c.size = n ∧ c.Doubles fun j => f (x j) (y j) := by
  obtain ⟨c, hc, hty, hx⟩ := exists_folded_doubles op h ha hb
  rw [hb.matchedTy_eq hs] at hty
  exact ⟨c, hc, hty, (size_congr hty).trans hs, hx⟩

end BinaryOp

namespace UnaryOp

variable {op : UnaryOp} {c : Constant} {ty : Ty} {xs : List Double}

theorem exists_folded_of_storeVector (h : op.isNeverFolded = false) (hk : c.ty.kind = .double)
    (hty : ty.kind = .double) (hs : ty.size = op.resultSize c) (hlen : xs.length = ty.size)
    (hxs : op.values c .double = storeVector op c .double xs) :
    ∃ d, op.fold c ty = .ok d ∧ d.ty = ty ∧ d.values = xs.map .double ∧ d.span = c.span := by
  have hfits := Ty.leafKinds_of_doubles hty hlen
  refine ⟨⟨ty, _, c.span, hfits⟩, ?_, rfl, rfl, rfl⟩
  rw [fold, resultSize_eq h, if_neg (ne_true_of_eq_false h), if_neg (not_not_intro hs), hty, hxs,
    storeVector, hk, if_pos (by decide), storeAll_eq_ok_iff.2 (storedAt_double_iff.2 rfl)]
  exact Constant.result_of_fits _ hfits _

theorem fold_length (hk : c.ty.kind = .double) :
    length.fold c (.scalar .double) = .ok (.scalar (.double c.norm) c.span) := by
  have hxs : length.values c .double = storeVector length c .double [c.norm] := rfl
  have hs : (Ty.scalar .double).size = length.resultSize c := rfl
  obtain ⟨d, hd, hty, hvalues, hspan⟩ := exists_folded_of_storeVector rfl hk rfl hs rfl hxs
  obtain ⟨v, _, hscalar⟩ := Constant.exists_eq_scalar hty
  rw [hscalar] at hvalues
  cases hvalues
  rw [hd, hscalar, hspan]

theorem exists_folded_normalize {n : Nat} {x : Fin n → Double} (h : c.Doubles x)
    (hs : c.size = n) :
    ∃ d, normalize.fold c c.ty = .ok d ∧ d.ty = c.ty ∧
      d.values = (List.ofFn fun j => x j / c.norm).map .double := by
  have hxs : normalize.values c .double =
      storeVector normalize c .double (List.ofFn fun j => x j / c.norm) := by
    rw [← h.map_toDouble hs fun x => x / c.norm]
    rfl
  have hlen : (List.ofFn fun j => x j / c.norm).length = c.ty.size := by
    rw [List.length_ofFn, c.size_ty, hs]
  have hsize : c.ty.size = normalize.resultSize c := c.size_ty
  obtain ⟨d, hd, hty, hvalues, _⟩ := exists_folded_of_storeVector rfl h.kind h.kind hsize hlen hxs
  exact ⟨d, hd, hty, hvalues⟩

theorem exists_folded_negate {n : Nat} {x : Fin n → Double} (h : c.Doubles x) (hs : c.size = n) :
    ∃ d, negate.fold c c.ty = .ok d ∧ d.ty = c.ty ∧
      d.values = (List.ofFn fun j => -x j).map .double := by
  have hop : negate.ActsOnLeaves := ⟨rfl, nofun, nofun⟩
  have hk : c.ty.kind ≠ .struct := by
    rw [h.kind]
    nofun
  have hlen : (List.ofFn fun j => -x j).length = c.ty.size := by
    rw [List.length_ofFn, c.size_ty, hs]
  have hneg : (List.ofFn fun j => -x j) = (List.ofFn x).map (-·) := by
    rw [List.map_ofFn]
    rfl
  have hleaves : List.Forall₂ (negate.Makes c.ty.kind) c.values
      ((List.ofFn fun j => -x j).map .double) := by
    rw [h.values_eq hs, h.kind, hneg, List.forall₂_map_left_iff, List.forall₂_map_right_iff,
      List.forall₂_map_right_iff, List.forall₂_same]
    intro u _
    exact ⟨rfl, rfl⟩
  exact ⟨⟨c.ty, _, c.span, Ty.leafKinds_of_doubles h.kind hlen⟩,
    (hop.fold_eq_ok_iff hk c.size_ty).2 ⟨rfl, rfl, hleaves⟩, rfl, rfl⟩

end UnaryOp

namespace Builtin

open Constant

variable {op : Builtin} {operands : List Constant} {call : BuiltinCall} {span : Span}
  {c : Constant}

theorem numbers_of_folded (hcall : op.call? operands = some call) (hk : call.ty.kind = .double)
    (h : op.fold operands span = .ok c) :
    call.agree = true ∧ c.ty = call.ty ∧
      ∃ xs, call.numbers = .ok xs ∧ c.values = xs.map .double := by
  obtain ⟨call', xs, hcall', _, hagree, hxs, hstored, hty, _⟩ := fold_eq_ok_iff.1 h
  cases hcall.symm.trans hcall'
  rw [hk] at hstored
  exact ⟨hagree, hty, xs, hxs, storedAt_double_iff.1 hstored⟩

theorem fold_dot {a b : Constant} (ha : a.ty.kind = .double) (hb : b.ty.kind = .double)
    (hs : a.size = b.size) {d : Double} (hd : a.dot b = .ok d) (span : Span) :
    dot.fold [a, b] span = .ok (.scalar (.double d) span) := by
  obtain ⟨s, hfold, hstored⟩ := exists_dot_folded rfl ha hb hs hd span
  cases hstored
  exact hfold

theorem exists_folded_pairwise (op : Builtin) {a b : Constant} {n : Nat} {x y : Fin n → Double}
    {f : Double → Double → Double} (hcall : op.call? [a, b] = some (.pairwise a.ty a b f))
    (ha : a.Doubles x) (hs : a.size = n) (hb : b.Doubles y) (span : Span) :
    ∃ c, op.fold [a, b] span = .ok c ∧ c.ty = a.ty ∧
      c.values = (List.ofFn fun j => f (x j) (y j)).map .double := by
  subst hs
  have hagree : BuiltinCall.broadcasts a.ty [a, b] = true := by
    simp [BuiltinCall.broadcasts, hb.size]
  rw [BuiltinCall.pairwise, hagree, a.size_ty, ha.onPairs_eq hb] at hcall
  have hlen : (List.ofFn fun j => f (x j) (y j)).length = a.ty.size := by
    rw [List.length_ofFn, a.size_ty]
  obtain ⟨c, hc, hty, _, hstored⟩ :=
    exists_folded_of_isFloat rfl (kind_of_mem_pair ha.kind hb.kind)
    hcall ha.kind hlen span
  exact ⟨c, hc, hty, storedAt_double_iff.1 hstored⟩

theorem exists_doubles_of_triplewise {x y z : Constant} {f : Double → Double → Double → Double}
    (hcall : op.call? [x, y, z] = some (.triplewise x.ty x y z f)) (hx : x.ty.kind = .double)
    (hy : y.ty.kind = .double) (hz : z.ty.kind = .double) (h : op.fold [x, y, z] span = .ok c) :
    c.ty = x.ty ∧ ∃ u v w : Fin x.size → Double, x.Doubles u ∧ y.Doubles v ∧ z.Doubles w ∧
      c.values = (List.ofFn fun j => f (u j) (v j) (w j)).map .double := by
  obtain ⟨hagree, hty, xs, hxs, hvalues⟩ := numbers_of_folded hcall hx h
  have hsizes := BuiltinCall.size_of_broadcasts hagree
  rw [x.size_ty] at hsizes
  obtain ⟨u, hu⟩ := exists_doubles hx (.inr rfl)
  obtain ⟨v, hv⟩ := exists_doubles hy (hsizes y (by simp))
  obtain ⟨w, hw⟩ := exists_doubles hz (hsizes z (by simp))
  refine ⟨hty, u, v, w, hu, hv, hw, ?_⟩
  change onTriples x.ty.size x y z f = .ok xs at hxs
  rw [x.size_ty, hu.onTriples_eq hv hw] at hxs
  cases hxs
  exact hvalues

section Functions

variable {place : Span}

theorem exists_distance_by_steps {p q : Constant} (hp : p.ty.kind = .double)
    (hq : q.ty.kind = .double) (h : distance.fold [p, q] span = .ok c) :
    ∃ d, distance.bySteps? place [p, q] = some (.ok d) ∧ d.ty = c.ty ∧ d.values = c.values := by
  obtain ⟨hagree, hty, xs, hxs, hvalues⟩ := numbers_of_folded rfl hp h
  have hs : p.size = q.size := of_decide_eq_true hagree
  obtain ⟨x, hx⟩ := exists_doubles hp (.inr rfl)
  obtain ⟨y, hy⟩ := exists_doubles hq (.inr hs.symm)
  obtain ⟨e, he, hety, hesize, hedoubles⟩ :=
    BinaryOp.exists_folded_doubles_left .sub rfl hx rfl hy
  have hnorm : p.distance q = .ok e.norm := by
    rw [Constant.distance, hx.onPairs_eq hy, hedoubles.norm_eq hesize]
    rfl
  change (p.distance q >>= fun d => .ok [d]) = .ok xs at hxs
  rw [hnorm] at hxs
  cases hxs
  refine ⟨.scalar (.double e.norm) e.span, ?_, ?_, hvalues.symm⟩
  · simp only [bySteps?, bind, Except.bind, he, UnaryOp.fold_length hedoubles.kind]
  · rw [hty, hp]
    rfl

theorem exists_reflect_by_steps {i n : Constant} (hi : i.ty.kind = .double)
    (hn : n.ty.kind = .double) (h : reflect.fold [i, n] span = .ok c) :
    ∃ d, reflect.bySteps? place [i, n] = some (.ok d) ∧ d.ty = c.ty ∧ d.values = c.values := by
  obtain ⟨hagree, hty, xs, hxs, hvalues⟩ := numbers_of_folded rfl hi h
  have hs : i.size = n.size := of_decide_eq_true hagree
  obtain ⟨x, hx⟩ := exists_doubles hi (.inr rfl)
  obtain ⟨y, hy⟩ := exists_doubles hn (.inr hs.symm)
  -- Whatever number the product is, both sides go on with it.
  obtain ⟨d, hd⟩ := exists_dot hs.symm
  change (n.dot i >>= fun d => onPairs i.size i n fun x n => x - 2 * d * n) = .ok xs at hxs
  rw [hd] at hxs
  cases (hx.onPairs_eq hy _).symm.trans hxs
  obtain ⟨twice, htwice, _, htwo⟩ := BinaryOp.exists_folded_doubles .mul rfl
    (doubles_scalar 2 place) (doubles_scalar d place)
  obtain ⟨part, hpart, _, hscaled⟩ := BinaryOp.exists_folded_doubles .mul rfl htwo hy
  obtain ⟨e, he, hety, hesize, hedoubles⟩ :=
    BinaryOp.exists_folded_doubles_left .sub rfl hx rfl hscaled
  refine ⟨e, ?_, hety.trans hty.symm, (hedoubles.values_eq hesize).trans hvalues.symm⟩
  simp only [bySteps?, bind, Except.bind, fold_dot hn hi hs.symm hd, htwice, hpart, he]

theorem exists_faceForward_by_steps {n i r : Constant} (hn : n.ty.kind = .double)
    (hi : i.ty.kind = .double) (hr : r.ty.kind = .double)
    (h : faceForward.fold [n, i, r] span = .ok c) :
    ∃ d, faceForward.bySteps? place [n, i, r] = some (.ok d) ∧
      d.ty = c.ty ∧ d.values = c.values := by
  obtain ⟨hagree, hty, xs, hxs, hvalues⟩ := numbers_of_folded rfl hn h
  obtain ⟨hsi, hsr⟩ : n.size = i.size ∧ n.size = r.size := of_decide_eq_true hagree
  have hs : r.size = i.size := hsr.symm.trans hsi
  obtain ⟨x, hx⟩ := exists_doubles hn (.inr rfl)
  obtain ⟨d, hd⟩ := exists_dot hs
  have hfacing : BinaryOp.less.fold (.scalar (.double d) place) (.scalar (.double 0) place) =
      .ok (.scalar (.bool (d.less 0)) place) := rfl
  have hnumbers :
      n.faceForward i r = .ok (List.ofFn fun j => if d.less 0 then x j else -x j) := by
    rw [Constant.faceForward, hd]
    apply mapM_range_eq_ofFn
    intro j
    rw [hx.number_eq]
    rfl
  cases hnumbers.symm.trans hxs
  simp only [bySteps?, bind, Except.bind, fold_dot hr hi hs hd, hfacing]
  cases hless : d.less 0 with
  | true =>
    rw [hless] at hvalues
    exact ⟨n, rfl, hty.symm, (hx.values_eq rfl).trans hvalues.symm⟩
  | false =>
    rw [hless] at hvalues
    obtain ⟨e, he, hety, hevalues⟩ := UnaryOp.exists_folded_negate hx rfl
    exact ⟨e, congrArg some he, hety.trans hty.symm, hevalues.trans hvalues.symm⟩

theorem exists_mix_by_steps {x y a : Constant} (hx : x.ty.kind = .double)
    (hy : y.ty.kind = .double) (ha : a.ty.kind = .double) (h : mix.fold [x, y, a] span = .ok c) :
    ∃ d, mix.bySteps? place [x, y, a] = some (.ok d) ∧ d.ty = c.ty ∧ d.values = c.values := by
  have hcall : mix.call? [x, y, a] = some (.triplewise x.ty x y a Double.mix) := by
    rw [call?, ha, if_neg (by decide)]
  obtain ⟨hty, u, v, w, hu, hv, hw, hvalues⟩ := exists_doubles_of_triplewise hcall hx hy ha h
  obtain ⟨rest, hrest, _, hone⟩ :=
    BinaryOp.exists_folded_doubles .sub rfl (doubles_scalar 1 place) hw
  obtain ⟨first, hfirst, hfirstty, hsize, hleft⟩ :=
    BinaryOp.exists_folded_doubles_left .mul rfl hu rfl hone
  obtain ⟨second, hsecond, _, hright⟩ := BinaryOp.exists_folded_doubles .mul rfl hv hw
  obtain ⟨e, he, hety, hesize, hsum⟩ :=
    BinaryOp.exists_folded_doubles_left .add rfl hleft hsize hright
  refine ⟨e, ?_, ?_, (hsum.values_eq hesize).trans hvalues.symm⟩
  · simp only [bySteps?, bind, Except.bind, hrest, hfirst, hsecond, he]
  · rw [hety, hfirstty, hty]

theorem exists_clamp_by_steps {x lo hi : Constant} (hx : x.ty.kind = .double)
    (hlo : lo.ty.kind = .double) (hhi : hi.ty.kind = .double)
    (h : clamp.fold [x, lo, hi] span = .ok c) :
    ∃ d, clamp.bySteps? place [x, lo, hi] = some (.ok d) ∧ d.ty = c.ty ∧ d.values = c.values := by
  obtain ⟨hty, u, v, w, hu, hv, hw, hvalues⟩ := exists_doubles_of_triplewise rfl hx hlo hhi h
  obtain ⟨raised, hraised, hraisedty, hmax⟩ := exists_folded_pairwise max rfl hu rfl hv place
  have hdoubles := doubles_of_values (by rw [hraisedty, hx]) hmax
  obtain ⟨e, he, hety, hmin⟩ :=
    exists_folded_pairwise min rfl hdoubles (size_congr hraisedty) hw place
  refine ⟨e, ?_, ?_, hmin.trans hvalues.symm⟩
  · simp only [bySteps?, bind, Except.bind, hraised, he]
  · rw [hety, hraisedty, hty]

end Functions

end Builtin

theorem UnaryOp.normalize_by_steps {v : Constant} (hv : v.ty.kind = .double) :
    ∃ c x, normalize.fold v v.ty = .ok c ∧
      length.fold v (.scalar .double) = .ok (.scalar (.double x) v.span) ∧
      ((v.size = 0 ∨ x.equal 0 = false) →
        ∃ d, BinaryOp.div.fold v (.scalar (.double x) v.span) = .ok d ∧ d.ty = c.ty ∧
          d.values = c.values) := by
  obtain ⟨x, hx⟩ := Constant.exists_doubles hv (.inr rfl)
  obtain ⟨c, hc, hty, hvalues⟩ := exists_folded_normalize hx rfl
  refine ⟨c, v.norm, hc, fold_length hv, ?_⟩
  intro hzero
  obtain ⟨d, hd, hdty, hsize, hquotient⟩ := BinaryOp.exists_folded_doubles_left .div rfl hx rfl
    (Constant.doubles_scalar v.norm v.span)
  refine ⟨d, hd, hdty.trans hty.symm, ?_⟩
  rw [hquotient.values_eq hsize, hvalues]
  congr 2
  funext j
  -- A vector with an index `j` is not empty.
  have hnorm : v.norm.equal 0 = false := hzero.resolve_left (Nat.ne_zero_of_lt j.isLt)
  rw [if_neg (ne_true_of_eq_false hnorm)]

namespace Builtin

theorem exists_by_steps {op : Builtin} {operands : List Constant} {steps : Folded}
    {place span : Span} {c : Constant} (h : op.bySteps? place operands = some steps)
    (hkinds : ∀ o ∈ operands, o.ty.kind = .double) (hc : op.fold operands span = .ok c) :
    ∃ d, op.bySteps? place operands = some (.ok d) ∧ d.ty = c.ty ∧ d.values = c.values := by
  -- The cases follow the rows of `bySteps?`.
  rw [bySteps?.eq_def] at h
  split at h
  · exact exists_distance_by_steps (hkinds _ (by simp)) (hkinds _ (by simp)) hc
  · exact exists_reflect_by_steps (hkinds _ (by simp)) (hkinds _ (by simp)) hc
  · exact exists_faceForward_by_steps (hkinds _ (by simp)) (hkinds _ (by simp))
      (hkinds _ (by simp)) hc
  · exact exists_mix_by_steps (hkinds _ (by simp)) (hkinds _ (by simp)) (hkinds _ (by simp)) hc
  · exact exists_clamp_by_steps (hkinds _ (by simp)) (hkinds _ (by simp)) (hkinds _ (by simp)) hc
  · cases h

/-- Where a function on doubles is folded, so is its definition, and both have the same type and
the same leaves. A vector is normalized by dividing it by its length, unless that is zero. -/
theorem fold_step_by_step (place span : Span) :
    (∀ (op : Builtin) (operands : List Constant) (steps : Folded) (c : Constant),
      op.bySteps? place operands = some steps → (∀ o ∈ operands, o.ty.kind = .double) →
      op.fold operands span = .ok c → ∃ d, steps = .ok d ∧ d.ty = c.ty ∧ d.values = c.values) ∧
    ∀ v : Constant, v.ty.kind = .double →
      ∃ c x, UnaryOp.normalize.fold v v.ty = .ok c ∧
        UnaryOp.length.fold v (.scalar .double) = .ok (.scalar (.double x) v.span) ∧
        (v.size = 0 ∨ x.equal 0 = false →
          ∃ d, BinaryOp.div.fold v (.scalar (.double x) v.span) = .ok d ∧ d.ty = c.ty ∧
            d.values = c.values) := by
  constructor
  · intro op operands steps c hsteps hkinds hc
    obtain ⟨d, hd, hresult⟩ := exists_by_steps hsteps hkinds hc
    exact ⟨d, Option.some.inj (hsteps.symm.trans hd), hresult⟩
  · intro v hv
    exact UnaryOp.normalize_by_steps hv

theorem fold_step_by_step_vectors :
    let x : Constant := ⟨.vector .double 2, [.double 3, .double 4], .dummy, rfl⟩
    let y : Constant := .scalar (.double 5) .dummy
    let a : Constant := .scalar (.double 2) .dummy
    let c : Constant := ⟨.vector .double 2, [.double 7, .double 6], ⟨3, 4⟩, rfl⟩
    (mix.fold [x, y, a] ⟨3, 4⟩ = .ok c ∧
      ∃ d, mix.bySteps? .dummy [x, y, a] = some (.ok d) ∧ d.ty = c.ty ∧ d.values = c.values) ∧
    ∃ c d, UnaryOp.normalize.fold x x.ty = .ok c ∧
      BinaryOp.div.fold x (.scalar (.double 5) .dummy) = .ok d ∧
      d.ty = c.ty ∧ d.values = c.values := by
  intro x y a c
  obtain ⟨hcalls, hnormalize⟩ := fold_step_by_step .dummy ⟨3, 4⟩
  have hfold : mix.fold [x, y, a] ⟨3, 4⟩ = .ok c := by decide +kernel
  obtain ⟨d, hd, hresult⟩ := hcalls mix [x, y, a] _ c rfl (by decide) hfold
  refine ⟨⟨hfold, d, congrArg some hd, hresult⟩, ?_⟩
  obtain ⟨e, l, he, hl, hdiv⟩ := hnormalize x rfl
  have hfive : UnaryOp.length.fold x (.scalar .double) = .ok (.scalar (.double 5) .dummy) := by
    decide +kernel
  have hvalues := congrArg Constant.values (Except.ok.inj (hl.symm.trans hfive))
  have hnorm : l = 5 := Scalar.double.inj (List.cons.inj hvalues).1
  rw [hnorm] at hdiv
  obtain ⟨q, hq, hresult⟩ := hdiv (.inr (by decide +kernel))
  exact ⟨e, q, he, hq, hresult⟩

end Builtin

end ShaderFold
