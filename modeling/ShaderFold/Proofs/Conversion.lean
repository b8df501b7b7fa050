import ShaderFold.Proofs.Construction

namespace ShaderFold

section Leaves

variable {v w : Scalar} {k : Kind}

theorem Scalar.convert?_eq_none_iff : v.convert? k = none ↔ k = .struct := by
  have hkind := v.convert?_kind k
  constructor
  · intro h
    by_contra hk
    rw [h, Kind.leaf?, if_neg hk] at hkind
    cases hkind
  · rintro rfl
    exact Option.map_eq_none_iff.1 hkind

theorem Scalar.kind_of_convert?_eq_some (h : v.convert? k = some w) : w.kind = k := by
  have hkind := v.convert?_kind k
  rw [h, Kind.leaf?] at hkind
  split at hkind
  · cases hkind
  · exact Option.some.inj hkind

variable {kinds : List Kind} {values : List Scalar}

theorem exists_convertAll (hlen : kinds.length ≤ values.length) (hk : .struct ∉ kinds) :
    ∃ ws, convertAll kinds values = .ok ws ∧ ws.map Scalar.kind = kinds ∧
      ∀ (i : Nat) (k : Kind), kinds[i]? = some k →
        ∃ v w, values[i]? = some v ∧ v.convert? k = some w ∧ ws[i]? = some w := by
  induction kinds generalizing values with
  | nil => exact ⟨[], rfl, rfl, nofun⟩
  | cons k kinds ih =>
    obtain ⟨hkne, hkrest⟩ : Kind.struct ≠ k ∧ Kind.struct ∉ kinds := by
      simpa only [List.mem_cons, not_or] using hk
    cases values with
    | nil => cases hlen
    | cons v values =>
      obtain ⟨ws, hws, hkinds, hleaves⟩ := ih (Nat.le_of_succ_le_succ hlen) hkrest
      cases hw : v.convert? k with
      | none => exact (hkne (Scalar.convert?_eq_none_iff.1 hw).symm).elim
      | some w =>
        refine ⟨w :: ws, ?_, ?_, ?_⟩
        · rw [convertAll_cons, hw, hws]
          rfl
        · rw [List.map_cons, hkinds, Scalar.kind_of_convert?_eq_some hw]
        · intro i l hi
          cases i with
          | zero =>
            cases hi
            exact ⟨v, w, rfl, hw, rfl⟩
          | succ i => exact hleaves i l hi

theorem exists_refused_of_struct_mem (hlen : kinds.length ≤ values.length)
    (hk : .struct ∈ kinds) :
    ∃ (i : Nat) (v : Scalar), kinds[i]? = some .struct ∧ (∀ j < i, kinds[j]? ≠ some .struct) ∧
      values[i]? = some v ∧
      convertAll kinds values = .error (.unsupported .construct v.kind) := by
  induction kinds generalizing values with
  | nil => cases hk
  | cons k kinds ih =>
    cases values with
    | nil => cases hlen
    | cons v values =>
      rw [convertAll_cons]
      cases hw : v.convert? k with
      | none =>
        obtain rfl := Scalar.convert?_eq_none_iff.1 hw
        exact ⟨0, v, rfl, fun j hj => (Nat.not_lt_zero j hj).elim, rfl, rfl⟩
      | some w =>
        have hne : k ≠ .struct := by
          intro he
          cases hw.symm.trans (Scalar.convert?_eq_none_iff.2 he)
        have hrest : .struct ∈ kinds := (List.mem_cons.1 hk).resolve_left hne.symm
        obtain ⟨i, x, hi, hfirst, hx, hfail⟩ := ih (Nat.le_of_succ_le_succ hlen) hrest
        refine ⟨i + 1, x, hi, ?_, hx, ?_⟩
        · intro j hj
          cases j with
          | zero => exact fun he => hne (Option.some.inj he)
          | succ j => exact hfirst j (Nat.lt_of_succ_lt_succ hj)
        · rw [hfail]
          rfl

end Leaves

section Supply

variable {sources : List Constant} {needed : Nat}

/-- The leaf of the arguments that is taken for the leaf at an index. -/
inductive Supplies (sources : List Constant) (i : Nat) (v : Scalar) : Prop
  | lone (h : IsLoneLeaf sources v)
  | inOrder (h : ∀ w, ¬IsLoneLeaf sources w)
      (hv : (sources.flatMap Constant.values)[i]? = some v)

/-- The arguments have fewer leaves than are asked for and are not a single leaf. -/
def FallsShort (needed : Nat) (sources : List Constant) : Prop :=
  (∀ w, ¬IsLoneLeaf sources w) ∧ (sources.flatMap Constant.values).length < needed

theorem exists_supplied (h : ¬FallsShort needed sources) :
    ∃ supplied, supply needed sources = .ok supplied ∧ needed ≤ supplied.length ∧
      ∀ i < needed, ∀ v, supplied[i]? = some v → Supplies sources i v := by
  by_cases hlone : ∃ w, IsLoneLeaf sources w
  · obtain ⟨w, hw⟩ := hlone
    refine ⟨_, supply_of_isLoneLeaf hw needed, Nat.le_of_eq List.length_replicate.symm, ?_⟩
    intro i hi v hv
    rw [List.getElem?_replicate, if_pos hi] at hv
    cases hv
    exact .lone hw
  · have hnot : ∀ w, ¬IsLoneLeaf sources w := not_exists.1 hlone
    refine ⟨_, supply_of_not_isLoneLeaf hnot needed, ?_, fun i _ v hv => .inOrder hnot hv⟩
    rw [← Nat.not_lt]
    exact fun hlt => h ⟨hnot, hlt⟩

end Supply

namespace Ty

variable {target : Ty} {sources : List Constant}

theorem construct_of_fallsShort (hne : sources ≠ []) (h : FallsShort target.size sources)
    (span : Span) :
    target.construct sources span =
      .error (.malformed .construct
        (.tooFewValues target target.size (sources.flatMap Constant.values).length)) := by
  unfold construct
  rw [List.isEmpty_eq_false_iff.2 hne, supply_of_not_isLoneLeaf h.1]
  simp only [bind, Except.bind, Bool.false_eq_true, h.2, ↓reduceIte]

theorem lt_size_of_leafKinds {i : Nat} {k : Kind} (h : target.leafKinds[i]? = some k) :
    i < target.size := by
  rw [← length_leafKinds]
  exact (List.getElem?_eq_some_iff.1 h).1

theorem exists_constructed (hne : sources ≠ []) (h : ¬FallsShort target.size sources)
    (hk : .struct ∉ target.leafKinds) (span : Span) :
    ∃ c, target.construct sources span = .ok c ∧ c.ty = target ∧ c.span = span ∧
      ∀ (i : Nat) (k : Kind), target.leafKinds[i]? = some k →
        ∃ v w, Supplies sources i v ∧ v.convert? k = some w ∧ c.values[i]? = some w := by
  obtain ⟨supplied, hsupply, hlen, hsupplied⟩ := exists_supplied h
  obtain ⟨values, hvalues, hkinds, hleaves⟩ :=
    exists_convertAll ((length_leafKinds target).symm ▸ hlen) hk
  refine ⟨⟨target, values, span, hkinds⟩, ?_, rfl, rfl, ?_⟩
  · rw [construct_of_supply hne hsupply hlen, hvalues]
    exact Constant.result_of_fits .construct hkinds span
  · intro i k hi
    obtain ⟨v, w, hv, hw, hget⟩ := hleaves i k hi
    exact ⟨v, w, hsupplied i (lt_size_of_leafKinds hi) v hv, hw, hget⟩

theorem exists_refused (hne : sources ≠ []) (h : ¬FallsShort target.size sources)
    (hk : .struct ∈ target.leafKinds) (span : Span) :
    ∃ (i : Nat) (v : Scalar), target.leafKinds[i]? = some .struct ∧
      (∀ j < i, target.leafKinds[j]? ≠ some .struct) ∧ Supplies sources i v ∧
      target.construct sources span = .error (.unsupported .construct v.kind) := by
  obtain ⟨supplied, hsupply, hlen, hsupplied⟩ := exists_supplied h
  obtain ⟨i, v, hi, hfirst, hv, hfail⟩ :=
    exists_refused_of_struct_mem ((length_leafKinds target).symm ▸ hlen) hk
  refine ⟨i, v, hi, hfirst, hsupplied i (lt_size_of_leafKinds hi) v hv, ?_⟩
  rw [construct_of_supply hne hsupply hlen, hfail]
  rfl

theorem struct_notMem_of_constructed (hne : sources ≠ []) (h : ¬FallsShort target.size sources)
    {span : Span} {c : Constant} (hc : target.construct sources span = .ok c) :
    .struct ∉ target.leafKinds := by
  intro hk
  obtain ⟨_, _, _, _, _, hfail⟩ := exists_refused hne h hk span
  cases hc.symm.trans hfail

theorem construct_ne_layout (target : Ty) (sources : List Constant) (span : Span)
    (mismatch : LayoutMismatch) :
    target.construct sources span ≠ .error (.malformed .construct (.layout mismatch)) := by
  intro hlayout
  by_cases hne : sources = []
  · subst hne
    cases hlayout
  · by_cases h : FallsShort target.size sources
    · cases hlayout.symm.trans (construct_of_fallsShort hne h span)
    · by_cases hk : .struct ∈ target.leafKinds
      · obtain ⟨_, _, _, _, _, hfail⟩ := exists_refused hne h hk span
        cases hlayout.symm.trans hfail
      · obtain ⟨c, hc, _⟩ := exists_constructed hne h hk span
        cases hlayout.symm.trans hc

/-- Construction fails without arguments, with too few leaves and at the first leaf of the kind of
structures. Otherwise each leaf is converted from the one supplied for it, and the result always
fits the target. -/
theorem construct_by_conversion (target : Ty) (sources : List Constant) (span : Span) :
    (sources = [] →
      target.construct sources span = .error (.malformed .construct .noArguments)) ∧
    (sources ≠ [] → FallsShort target.size sources →
      target.construct sources span =
        .error (.malformed .construct
          (.tooFewValues target target.size (sources.flatMap Constant.values).length))) ∧
    (sources ≠ [] → ¬FallsShort target.size sources →
      ((∃ c, target.construct sources span = .ok c) ↔ .struct ∉ target.leafKinds) ∧
      (∀ c, target.construct sources span = .ok c → c.ty = target ∧ c.span = span ∧
        ∀ (i : Nat) (k : Kind), target.leafKinds[i]? = some k →
          ∃ v w, Supplies sources i v ∧ v.convert? k = some w ∧ c.values[i]? = some w) ∧
      (.struct ∈ target.leafKinds →
        ∃ (i : Nat) (v : Scalar), target.leafKinds[i]? = some .struct ∧
          (∀ j < i, target.leafKinds[j]? ≠ some .struct) ∧ Supplies sources i v ∧
          target.construct sources span = .error (.unsupported .construct v.kind))) ∧
    ∀ mismatch,
      target.construct sources span ≠ .error (.malformed .construct (.layout mismatch)) := by
  refine ⟨?_, fun hne h => construct_of_fallsShort hne h span, ?_,
    construct_ne_layout target sources span⟩
  · rintro rfl
    rfl
  · intro hne h
    refine ⟨⟨?_, ?_⟩, ?_, fun hk => exists_refused hne h hk span⟩
    · rintro ⟨c, hc⟩
      exact struct_notMem_of_constructed hne h hc
    · intro hk
      obtain ⟨c, hc, _⟩ := exists_constructed hne h hk span
      exact ⟨c, hc⟩
    · intro c hc
      have hk := struct_notMem_of_constructed hne h hc
      obtain ⟨d, hd, hleaves⟩ := exists_constructed hne h hk span
      cases hc.symm.trans hd
      exact hleaves

theorem construct_by_conversion_structure :
    let target : Ty := .struct [⟨"lit", .scalar .bool⟩, ⟨"at", .array (.vector .float 2) 1⟩]
    let sources : List Constant :=
      [⟨.vector .int 2, [.int 2, .int 0], .dummy, rfl⟩, .scalar (.uint 7) .dummy,
        .scalar (.double 9) .dummy]
    ∃ c, target.construct sources .dummy = .ok c ∧ c.ty = target ∧ c.span = .dummy ∧
      ∀ (i : Nat) (k : Kind), target.leafKinds[i]? = some k →
        ∃ v w, Supplies sources i v ∧ v.convert? k = some w ∧ c.values[i]? = some w := by
  intro target sources
  have henough : ¬FallsShort target.size sources := by
    rintro ⟨_, hlt⟩
    have htotal : (sources.flatMap Constant.values).length = 4 := rfl
    have hsize : target.size = 3 := rfl
    omega
  obtain ⟨_, _, hdecided, _⟩ := construct_by_conversion target sources .dummy
  obtain ⟨hfolds, hresult, _⟩ := hdecided nofun henough
  obtain ⟨c, hc⟩ := hfolds.2 (by decide)
  exact ⟨c, hc, hresult c hc⟩

end Ty

end ShaderFold
