import ShaderFold.Proofs.Elementwise
import ShaderFold.Proofs.Foldability

namespace ShaderFold

section Storing

variable {k : Kind} {xs : List Double} {values : List Scalar}

def StoredAt (k : Kind) (xs : List Double) (values : List Scalar) : Prop :=
  List.Forall₂ (fun x v => Scalar.ofDouble? k x = some v) xs values

theorem storeAll_eq_ok_iff {op : Operator} :
    storeAll op k xs = .ok values ↔ StoredAt k xs values := by
  rw [storeAll, mapM_eq_ok_iff, StoredAt]
  simp only [orFail_eq_ok_iff]

theorem exists_storedAt (hk : k.isNumeric = true) (xs : List Double) :
    ∃ values, StoredAt k xs values :=
  exists_forall₂_iff.2 fun x _ => Scalar.exists_ofDouble? hk x

theorem StoredAt.kinds (h : StoredAt k xs values) :
    values.map Scalar.kind = List.replicate xs.length k :=
  kinds_of_forall₂ (fun _ _ hv => Scalar.kind_of_ofDouble?_eq_some hv) h

end Storing

def kindsOf (operands : List Constant) : List Kind :=
  operands.map fun c => c.ty.kind

theorem Ty.kind_larger {s t : Ty} {k : Kind} (hs : s.kind = k) (ht : t.kind = k) :
    (s.larger t).kind = k := by
  rw [larger]
  split
  · exact ht
  · exact hs

namespace Builtin

/-- The kinds of a first operand for which a function has a rule. -/
def Takes (op : Builtin) (k : Kind) : Prop :=
  k = .float ∨ k = .double ∨ (op = .min ∨ op = .max ∨ op = .clamp) ∧ (k = .int ∨ k = .uint)

/-- The kinds of a later operand that go with the kind of the first one. Booleans may stand third
in `mix`, where they select. -/
def Admits (op : Builtin) (k : Kind) (position : Nat) (l : Kind) : Prop :=
  l = k ∨ op = .mix ∧ position = 2 ∧ l = .bool

def AdmitsFrom (op : Builtin) (k : Kind) (start : Nat) (kinds : List Kind) : Prop :=
  ∀ (i : Nat) (l : Kind), kinds[i]? = some l → op.Admits k (start + i) l

/-- The first kind, counting from position `start`, that does not go with the kind of the first
operand. -/
def FirstStray (op : Builtin) (k : Kind) (start : Nat) (kinds : List Kind) (l : Kind) : Prop :=
  ∃ before after, kinds = before ++ l :: after ∧ op.AdmitsFrom k start before ∧
    ¬op.Admits k (start + before.length) l

structure KindsFit (op : Builtin) (k : Kind) (later : List Kind) : Prop where
  count : later.length + 1 = op.arity
  takes : op.Takes k
  admits : op.AdmitsFrom k 1 later

/-- How a call comes out: the failure, or the type and the place of the result. A rule applies
where none before it does. -/
inductive Outcome (op : Builtin) (operands : List Constant) (span : Span) :
    Except Failure (Ty × Span) → Prop
  | count (h : operands.length ≠ op.arity) :
      Outcome op operands span
        (.error (.malformed (.builtin op) (.operandCount op.arity operands.length)))
  | firstKind {k : Kind} {later : List Kind} (hcount : operands.length = op.arity)
      (hkinds : kindsOf operands = k :: later) (h : ¬op.Takes k) :
      Outcome op operands span (.error (.unsupported (.builtin op) k))
  | laterKind {k l : Kind} {later : List Kind} (hcount : operands.length = op.arity)
      (hkinds : kindsOf operands = k :: later) (htakes : op.Takes k)
      (h : op.FirstStray k 1 later l) :
      Outcome op operands span (.error (.unsupported (.builtin op) l))
  | sizes {k : Kind} {later : List Kind} {ty : Ty} (hkinds : kindsOf operands = k :: later)
      (hfit : op.KindsFit k later)
      (h : op.shape? (operands.map Constant.ty) = some (ty, false)) :
      Outcome op operands span
        (.error (.malformed (.builtin op) (.operandTypes (operands.map Constant.ty))))
  | modf {k : Kind} {later : List Kind} (hkinds : kindsOf operands = k :: later)
      (hfit : op.KindsFit k later) (hop : op = .modf) :
      Outcome op operands span (.error (.notFoldable (.builtin op)))
  | folded {k : Kind} {later : List Kind} {ty : Ty} (hkinds : kindsOf operands = k :: later)
      (hfit : op.KindsFit k later) (hop : op ≠ .modf)
      (h : op.shape? (operands.map Constant.ty) = some (ty, true)) :
      Outcome op operands span (.ok (ty, span))

section Kinds

variable {op : Builtin} {k l : Kind} {later : List Kind} {operands : List Constant}

theorem takes_iff : op.Takes k ↔ (k.isFloat || op.takesIntegers && k.isInteger) = true := by
  cases op <;> cases k <;> simp [Takes, Kind.isFloat, takesIntegers, Kind.isInteger]

theorem admitsFrom_nil (op : Builtin) (k : Kind) (start : Nat) : op.AdmitsFrom k start [] := by
  intro i l h
  cases h

theorem admitsFrom_cons_iff {start : Nat} {kinds : List Kind} :
    op.AdmitsFrom k start (l :: kinds) ↔
      op.Admits k start l ∧ op.AdmitsFrom k (start + 1) kinds := by
  constructor
  · intro h
    refine ⟨h 0 l rfl, ?_⟩
    intro i m hi
    have hm := h (i + 1) m hi
    rwa [← Nat.add_assoc, Nat.add_right_comm] at hm
  · rintro ⟨hl, hrest⟩ i m hi
    cases i with
    | zero =>
      cases hi
      exact hl
    | succ i =>
      rw [← Nat.add_assoc, Nat.add_right_comm]
      exact hrest i m hi

theorem strayKind?_of_admitsFrom {start : Nat}
    (h : op.AdmitsFrom k start (kindsOf operands)) : op.strayKind? k start operands = none := by
  induction operands generalizing start with
  | nil => rfl
  | cons c operands ih =>
    obtain ⟨hc, hrest⟩ := admitsFrom_cons_iff.1 h
    exact (if_pos hc).trans (ih hrest)

theorem FirstStray.strayKind?_eq_some {start : Nat}
    (h : op.FirstStray k start (kindsOf operands) l) :
    op.strayKind? k start operands = some l := by
  obtain ⟨before, after, hkinds, hbefore, hl⟩ := h
  induction operands generalizing start before with
  | nil =>
    cases before with
    | nil => cases hkinds
    | cons m before => cases hkinds
  | cons c operands ih =>
    cases before with
    | nil =>
      obtain ⟨rfl, _⟩ := List.cons.inj hkinds
      exact if_neg hl
    | cons m before =>
      obtain ⟨rfl, hrest⟩ := List.cons.inj hkinds
      obtain ⟨hc, hbefore⟩ := admitsFrom_cons_iff.1 hbefore
      rw [List.length_cons, ← Nat.add_assoc, Nat.add_right_comm] at hl
      exact (if_pos hc).trans (ih before hrest hbefore hl)

theorem admitsFrom_or_exists_firstStray (op : Builtin) (k : Kind) (start : Nat)
    (kinds : List Kind) :
    op.AdmitsFrom k start kinds ∨ ∃ l, op.FirstStray k start kinds l := by
  induction kinds generalizing start with
  | nil => exact .inl (admitsFrom_nil op k start)
  | cons m kinds ih =>
    by_cases hm : op.Admits k start m
    · rcases ih (start + 1) with hrest | ⟨l, before, after, rfl, hbefore, hl⟩
      · exact .inl (admitsFrom_cons_iff.2 ⟨hm, hrest⟩)
      · refine .inr ⟨l, m :: before, after, rfl, admitsFrom_cons_iff.2 ⟨hm, hbefore⟩, ?_⟩
        rwa [List.length_cons, ← Nat.add_assoc, Nat.add_right_comm]
    · exact .inr ⟨m, [], kinds, rfl, admitsFrom_nil op k start, hm⟩

theorem unsupportedKind?_of_not_takes (hkinds : kindsOf operands = k :: later) (h : ¬op.Takes k) :
    op.unsupportedKind? operands = some k := by
  cases operands with
  | nil => cases hkinds
  | cons first rest =>
    obtain ⟨rfl, rfl⟩ := List.cons.inj hkinds
    exact if_neg (mt takes_iff.2 h)

theorem unsupportedKind?_of_firstStray (hkinds : kindsOf operands = k :: later)
    (htakes : op.Takes k) (h : op.FirstStray k 1 later l) :
    op.unsupportedKind? operands = some l := by
  cases operands with
  | nil => cases hkinds
  | cons first rest =>
    obtain ⟨rfl, rfl⟩ := List.cons.inj hkinds
    exact (if_pos (takes_iff.1 htakes)).trans h.strayKind?_eq_some

theorem KindsFit.unsupportedKind?_eq_none (h : op.KindsFit k later)
    (hkinds : kindsOf operands = k :: later) : op.unsupportedKind? operands = none := by
  cases operands with
  | nil => cases hkinds
  | cons first rest =>
    obtain ⟨rfl, rfl⟩ := List.cons.inj hkinds
    exact (if_pos (takes_iff.1 h.takes)).trans (strayKind?_of_admitsFrom h.admits)

theorem unsupportedKind?_of_isFloat (hk : k.isFloat = true) (h : ∀ c ∈ operands, c.ty.kind = k) :
    op.unsupportedKind? operands = none := by
  cases operands with
  | nil => rfl
  | cons first rest =>
    obtain ⟨rfl, hrest⟩ := List.forall_mem_cons.1 h
    have htakes :
        (first.ty.kind.isFloat || op.takesIntegers && first.ty.kind.isInteger) = true := by
      rw [hk, Bool.true_or]
    apply (if_pos htakes).trans
    apply strayKind?_of_admitsFrom
    intro i l hi
    obtain ⟨c, hc, rfl⟩ := List.mem_map.1 (List.mem_of_getElem? hi)
    exact .inl (hrest c hc)

end Kinds

section Calls

variable {op : Builtin} {operands : List Constant} {call : BuiltinCall} {span : Span}
  {c : Constant}

theorem call?_eq_none_iff : op.call? operands = none ↔ operands.length ≠ op.arity := by
  rcases operands with _ | ⟨a, _ | ⟨b, _ | ⟨c, _ | ⟨d, rest⟩⟩⟩⟩ <;> cases op <;>
    simp [call?, arity]

theorem exists_call (h : operands.length = op.arity) : ∃ call, op.call? operands = some call :=
  Option.ne_none_iff_exists'.1 fun hnone => call?_eq_none_iff.1 hnone h

theorem exists_call_of_shape? {ty : Ty} {fits : Bool}
    (h : op.shape? (operands.map Constant.ty) = some (ty, fits)) :
    ∃ call, op.call? operands = some call ∧ call.ty = ty ∧ call.agree = fits := by
  rw [← op.call?_shape operands] at h
  obtain ⟨call, hcall, heq⟩ := Option.map_eq_some_iff.1 h
  obtain ⟨hty, hfits⟩ := Prod.mk.inj heq
  exact ⟨call, hcall, hty, hfits⟩

theorem fold_of_length_ne (h : operands.length ≠ op.arity) (span : Span) :
    op.fold operands span =
      .error (.malformed (.builtin op) (.operandCount op.arity operands.length)) := by
  rw [fold, call?_eq_none_iff.2 h]

theorem fold_of_unsupportedKind? {k : Kind} (hcall : op.call? operands = some call)
    (h : op.unsupportedKind? operands = some k) (span : Span) :
    op.fold operands span = .error (.unsupported (.builtin op) k) := by
  rw [fold, hcall]
  simp only [h]

theorem fold_of_not_agree (hcall : op.call? operands = some call)
    (hkinds : op.unsupportedKind? operands = none) (h : call.agree = false) (span : Span) :
    op.fold operands span =
      .error (.malformed (.builtin op) (.operandTypes (operands.map Constant.ty))) := by
  rw [fold, hcall]
  simp only [hkinds, h, Bool.false_eq_true, ↓reduceIte]

theorem fold_of_agree (hcall : op.call? operands = some call)
    (hkinds : op.unsupportedKind? operands = none) (h : call.agree = true) (span : Span) :
    op.fold operands span = (do
      let xs ← call.numbers
      let values ← storeAll (.builtin op) call.ty.kind xs
      Constant.result (.builtin op) call.ty values span) := by
  rw [fold, hcall]
  simp only [hkinds, h, ↓reduceIte]

theorem fold_eq_ok_iff : op.fold operands span = .ok c ↔
    ∃ call xs, op.call? operands = some call ∧ op.unsupportedKind? operands = none ∧
      call.agree = true ∧ call.numbers = .ok xs ∧ StoredAt call.ty.kind xs c.values ∧
      c.ty = call.ty ∧ c.span = span := by
  constructor
  · intro h
    cases hcall : op.call? operands with
    | none =>
      rw [fold_of_length_ne (call?_eq_none_iff.1 hcall)] at h
      cases h
    | some call =>
      cases hkinds : op.unsupportedKind? operands with
      | some k =>
        rw [fold_of_unsupportedKind? hcall hkinds] at h
        cases h
      | none =>
        cases hagree : call.agree with
        | false =>
          rw [fold_of_not_agree hcall hkinds hagree] at h
          cases h
        | true =>
          rw [fold_of_agree hcall hkinds hagree] at h
          obtain ⟨xs, hxs, h⟩ := bind_eq_ok_iff.1 h
          obtain ⟨values, hvalues, h⟩ := bind_eq_ok_iff.1 h
          obtain ⟨hty, rfl, hspan⟩ := Constant.result_eq_ok_iff.1 h
          exact ⟨call, xs, rfl, rfl, hagree, hxs, storeAll_eq_ok_iff.1 hvalues, hty, hspan⟩
  · rintro ⟨call, xs, hcall, hkinds, hagree, hxs, hstored, hty, hspan⟩
    rw [fold_of_agree hcall hkinds hagree, hxs]
    apply bind_eq_ok_iff.2
    refine ⟨xs, rfl, bind_eq_ok_iff.2 ⟨c.values, storeAll_eq_ok_iff.2 hstored, ?_⟩⟩
    exact Constant.result_eq_ok_iff.2 ⟨hty, rfl, hspan⟩

theorem exists_folded_of_numbers (hcall : op.call? operands = some call)
    (hkinds : op.unsupportedKind? operands = none) (hagree : call.agree = true)
    (hk : call.ty.kind.isNumeric = true) {xs : List Double} (hxs : call.numbers = .ok xs)
    (hlen : xs.length = call.ty.size) (span : Span) :
    ∃ c, op.fold operands span = .ok c ∧ c.ty = call.ty ∧ c.span = span ∧
      StoredAt call.ty.kind xs c.values := by
  obtain ⟨values, hstored⟩ := exists_storedAt hk xs
  have hfits : values.map Scalar.kind = call.ty.leafKinds := by
    rw [hstored.kinds, hlen, Ty.leafKinds_eq_replicate _ (Kind.ne_struct_of_isNumeric hk)]
  exact ⟨⟨call.ty, values, span, hfits⟩,
    fold_eq_ok_iff.2 ⟨call, xs, hcall, hkinds, hagree, hxs, hstored, rfl, rfl⟩, rfl, rfl, hstored⟩

theorem exists_folded_of_isFloat {k : Kind} (hk : k.isFloat = true)
    (hkinds : ∀ c ∈ operands, c.ty.kind = k) {ty : Ty} {xs : List Double}
    (hcall : op.call? operands = some ⟨ty, true, .ok xs⟩) (hty : ty.kind = k)
    (hlen : xs.length = ty.size) (span : Span) :
    ∃ c, op.fold operands span = .ok c ∧ c.ty = ty ∧ c.span = span ∧ StoredAt k xs c.values := by
  subst hty
  have hnumeric : ty.kind.isNumeric = true := by rw [Kind.isNumeric, hk, Bool.true_or]
  exact exists_folded_of_numbers hcall (unsupportedKind?_of_isFloat hk hkinds) rfl hnumeric
    rfl hlen span

end Calls

section KindsFit

variable {op : Builtin} {k : Kind} {later : List Kind} {operands : List Constant}

theorem Takes.isNumeric (h : op.Takes k) : k.isNumeric = true := by
  rcases h with rfl | rfl | ⟨_, rfl | rfl⟩ <;> rfl

theorem AdmitsFrom.eq_of_ne {start : Nat} {kinds : List Kind} (h : op.AdmitsFrom k start kinds)
    {i : Nat} {l : Kind} (hi : kinds[i]? = some l) (hne : op ≠ .mix ∨ start + i ≠ 2) : l = k := by
  rcases h i l hi with hl | ⟨hop, hpos, _⟩
  · exact hl
  · rcases hne with hne | hne
    · exact (hne hop).elim
    · exact (hne hpos).elim

theorem KindsFit.kind_of_shape? (h : op.KindsFit k later) {types : List Ty}
    (hkinds : types.map Ty.kind = k :: later) {ty : Ty} {fits : Bool}
    (hs : op.shape? types = some (ty, fits)) : ty.kind = k := by
  rw [shape?.eq_def] at hs
  split at hs <;> cases hs <;> cases hkinds
  -- Only `step` and `smoothStep` may take the type of a later operand.
  case h_7 a b => exact Ty.kind_larger rfl (h.admits.eq_of_ne (i := 0) rfl (.inl nofun))
  case h_8 a b c => exact Ty.kind_larger rfl (h.admits.eq_of_ne (i := 1) rfl (.inl nofun))
  all_goals rfl

theorem KindsFit.exists_folded (h : op.KindsFit k later) (hkinds : kindsOf operands = k :: later)
    (hop : op ≠ .modf) {ty : Ty} (hs : op.shape? (operands.map Constant.ty) = some (ty, true))
    (span : Span) : ∃ c, op.fold operands span = .ok c ∧ c.ty = ty ∧ c.span = span := by
  obtain ⟨call, hcall, rfl, hagree⟩ := exists_call_of_shape? hs
  obtain ⟨xs, hxs, hlen⟩ := exists_numbers hop hcall hagree
  have hkind : call.ty.kind = k := h.kind_of_shape? (List.map_map.trans hkinds) hs
  obtain ⟨c, hc, hty, hspan, _⟩ :=
    exists_folded_of_numbers hcall (h.unsupportedKind?_eq_none hkinds)
    hagree (hkind ▸ h.takes.isNumeric) hxs hlen span
  exact ⟨c, hc, hty, hspan⟩

theorem agree_modf {call : BuiltinCall} (h : modf.call? operands = some call) :
    call.agree = true := by
  rcases operands with _ | ⟨x, _ | ⟨y, _ | ⟨z, rest⟩⟩⟩ <;> cases h
  rfl

theorem KindsFit.length_eq (h : op.KindsFit k later) (hkinds : kindsOf operands = k :: later) :
    operands.length = op.arity := by
  rw [← h.count, ← List.length_cons, ← hkinds, kindsOf, List.length_map]

theorem KindsFit.fold_modf (h : modf.KindsFit k later) (hkinds : kindsOf operands = k :: later)
    (span : Span) : modf.fold operands span = .error (.notFoldable (.builtin modf)) := by
  obtain ⟨call, hcall⟩ := exists_call (h.length_eq hkinds)
  rw [fold_of_agree hcall (h.unsupportedKind?_eq_none hkinds) (agree_modf hcall),
    numbers_modf hcall]
  rfl

theorem KindsFit.fold_of_sizes (h : op.KindsFit k later) (hkinds : kindsOf operands = k :: later)
    {ty : Ty} (hs : op.shape? (operands.map Constant.ty) = some (ty, false)) (span : Span) :
    op.fold operands span =
      .error (.malformed (.builtin op) (.operandTypes (operands.map Constant.ty))) := by
  obtain ⟨call, hcall, _, hagree⟩ := exists_call_of_shape? hs
  exact fold_of_not_agree hcall (h.unsupportedKind?_eq_none hkinds) hagree span

end KindsFit

section Rules

variable {op : Builtin} {operands : List Constant} {span : Span} {r : Except Failure (Ty × Span)}

theorem Outcome.eq_fold (h : op.Outcome operands span r) :
    (op.fold operands span).map (fun c => (c.ty, c.span)) = r := by
  cases h with
  | count h =>
    rw [fold_of_length_ne h]
    rfl
  | firstKind hcount hkinds h =>
    obtain ⟨call, hcall⟩ := exists_call hcount
    rw [fold_of_unsupportedKind? hcall (unsupportedKind?_of_not_takes hkinds h)]
    rfl
  | laterKind hcount hkinds htakes h =>
    obtain ⟨call, hcall⟩ := exists_call hcount
    rw [fold_of_unsupportedKind? hcall (unsupportedKind?_of_firstStray hkinds htakes h)]
    rfl
  | sizes hkinds hfit h =>
    rw [hfit.fold_of_sizes hkinds h]
    rfl
  | modf hkinds hfit hop =>
    subst hop
    rw [hfit.fold_modf hkinds]
    rfl
  | folded hkinds hfit hop h =>
    obtain ⟨c, hc, rfl, rfl⟩ := hfit.exists_folded hkinds hop h span
    rw [hc]
    rfl

theorem KindsFit.exists_outcome {k : Kind} {later : List Kind} (h : op.KindsFit k later)
    (hkinds : kindsOf operands = k :: later) (span : Span) : ∃ r, op.Outcome operands span r := by
  by_cases hop : op = .modf
  · exact ⟨_, .modf hkinds h hop⟩
  · obtain ⟨call, hcall⟩ := exists_call (h.length_eq hkinds)
    have hshape := op.call?_shape operands
    rw [hcall] at hshape
    cases hagree : call.agree with
    | false =>
      rw [Option.map_some, hagree] at hshape
      exact ⟨_, .sizes hkinds h hshape.symm⟩
    | true =>
      rw [Option.map_some, hagree] at hshape
      exact ⟨_, .folded hkinds h hop hshape.symm⟩

theorem exists_outcome (op : Builtin) (operands : List Constant) (span : Span) :
    ∃ r, op.Outcome operands span r := by
  by_cases hcount : operands.length = op.arity
  · cases operands with
    | nil => cases op <;> cases hcount
    | cons first rest =>
      by_cases htakes : op.Takes first.ty.kind
      · rcases op.admitsFrom_or_exists_firstStray first.ty.kind 1 (kindsOf rest) with
          hadmits | ⟨l, hl⟩
        · have hlength : (kindsOf rest).length + 1 = op.arity := by
            rw [kindsOf, List.length_map, ← hcount, List.length_cons]
          exact KindsFit.exists_outcome ⟨hlength, htakes, hadmits⟩ rfl span
        · exact ⟨_, .laterKind hcount rfl htakes hl⟩
      · exact ⟨_, .firstKind hcount rfl htakes⟩
  · exact ⟨_, .count hcount⟩

theorem exists_kindsFit_of_folded {c : Constant} (h : op.fold operands span = .ok c) :
    ∃ k later, kindsOf operands = k :: later ∧ op.KindsFit k later ∧
      op.shape? (operands.map Constant.ty) = some (c.ty, true) := by
  obtain ⟨r, hr⟩ := exists_outcome op operands span
  have hfold := hr.eq_fold
  rw [h] at hfold
  subst hfold
  cases hr with
  | folded hkinds hfit hop hshape => exact ⟨_, _, hkinds, hfit, hshape⟩

/-- The rules settle the failure of every call, or the type and the place of its result. -/
theorem fold_by_rules (op : Builtin) (operands : List Constant) (span : Span)
    (r : Except Failure (Ty × Span)) :
    (op.fold operands span).map (fun c => (c.ty, c.span)) = r ↔ op.Outcome operands span r := by
  constructor
  · rintro rfl
    obtain ⟨r, hr⟩ := exists_outcome op operands span
    rw [hr.eq_fold]
    exact hr
  · exact Outcome.eq_fold

end Rules

end Builtin

end ShaderFold
