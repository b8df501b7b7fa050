import ShaderFold.Proofs.Foldability
import ShaderFold.Proofs.Layout

namespace ShaderFold

theorem Scalar.convert?_self (v : Scalar) : v.convert? v.kind = some v :=
  if_pos rfl

theorem convertAll_cons (k : Kind) (kinds : List Kind) (v : Scalar) (values : List Scalar) :
    convertAll (k :: kinds) (v :: values) = (do
      let w ← orFail (v.convert? k) (.unsupported .construct v.kind)
      let ws ← convertAll kinds values
      .ok (w :: ws)) := by
  rw [convertAll, List.zip_cons_cons, List.mapM_cons]
  rfl

theorem convertAll_of_kinds (front back : List Scalar) :
    convertAll (front.map Scalar.kind) (front ++ back) = .ok front := by
  induction front with
  | nil => rfl
  | cons v front ih =>
    rw [List.map_cons, List.cons_append, convertAll_cons, Scalar.convert?_self, ih]
    rfl

section Supply

variable {sources : List Constant} {v : Scalar}

/-- The arguments are a single leaf, which stands for every leaf that is asked for. -/
def IsLoneLeaf (sources : List Constant) (v : Scalar) : Prop :=
  ∃ single, sources = [single] ∧ single.values = [v]

theorem IsLoneLeaf.flatMap_values (h : IsLoneLeaf sources v) :
    sources.flatMap Constant.values = [v] := by
  obtain ⟨single, rfl, hv⟩ := h
  rw [List.flatMap_singleton, hv]

theorem supply_of_isLoneLeaf (h : IsLoneLeaf sources v) (needed : Nat) :
    supply needed sources = .ok (List.replicate needed v) := by
  obtain ⟨single, rfl, hv⟩ := h
  have hsize : single.size = 1 := by rw [Constant.size, hv, List.length_singleton]
  have hleaf : single.leaf 0 = .ok v := by rw [Constant.leaf, hv]; rfl
  rw [supply, if_pos hsize, hleaf]
  rfl

theorem supply_of_not_isLoneLeaf (h : ∀ w, ¬IsLoneLeaf sources w) (needed : Nat) :
    supply needed sources = .ok (sources.flatMap Constant.values) := by
  unfold supply
  split
  · rename_i single
    split
    · rename_i hone
      obtain ⟨v, hv⟩ := List.length_eq_one_iff.1 hone
      exact (h v ⟨single, rfl, hv⟩).elim
    · rw [List.flatMap_singleton]
  · rfl

/-- As long as no leaf has to be repeated, the leaves of the arguments are supplied in order. -/
theorem exists_supply {needed : Nat} {front back : List Scalar}
    (h : sources.flatMap Constant.values = front ++ back) (hlen : front.length = needed) :
    ∃ rest, supply needed sources = .ok (front ++ rest) := by
  by_cases hlone : ∃ v, IsLoneLeaf sources v
  · obtain ⟨v, hv⟩ := hlone
    have hfront : front = List.replicate needed v := by
      refine List.eq_replicate_iff.2 ⟨hlen, ?_⟩
      intro w hw
      have hmem : w ∈ sources.flatMap Constant.values := h ▸ List.mem_append_left back hw
      rwa [hv.flatMap_values, List.mem_singleton] at hmem
    exact ⟨[], by rw [supply_of_isLoneLeaf hv, hfront, List.append_nil]⟩
  · exact ⟨back, by rw [supply_of_not_isLoneLeaf (not_exists.1 hlone), h]⟩

end Supply

namespace Ty

theorem construct_of_supply {target : Ty} {sources : List Constant} {supplied : List Scalar}
    (hne : sources ≠ []) (h : supply target.size sources = .ok supplied)
    (hlen : target.size ≤ supplied.length) (span : Span) :
    target.construct sources span = (do
      let values ← convertAll target.leafKinds supplied
      Constant.result .construct target values span) := by
  unfold construct
  rw [List.isEmpty_eq_false_iff.2 hne, h]
  simp only [bind, Except.bind, Bool.false_eq_true, Nat.not_lt.2 hlen, ↓reduceIte]

theorem construct_of_leaves {target : Ty} {sources : List Constant} {values back : List Scalar}
    (hne : sources ≠ []) (hs : sources.flatMap Constant.values = values ++ back)
    (hk : values.map Scalar.kind = target.leafKinds) (span : Span) :
    target.construct sources span = .ok ⟨target, values, span, hk⟩ := by
  have hlen : values.length = target.size := by
    rw [← length_leafKinds, ← hk, List.length_map]
  obtain ⟨rest, hsupply⟩ := exists_supply hs hlen
  have henough : target.size ≤ (values ++ rest).length := by
    rw [List.length_append]
    omega
  rw [construct_of_supply hne hsupply henough, ← hk, convertAll_of_kinds]
  exact Constant.result_of_fits .construct hk span

theorem leafKindsMembers_eq_flatMap (members : List (Member Ty)) :
    leafKindsMembers members = (members.map Member.ty).flatMap leafKinds := by
  induction members with
  | nil => rw [leafKindsMembers, List.map_nil, List.flatMap_nil]
  | cons m ms ih => rw [leafKindsMembers, ih, List.map_cons, List.flatMap_cons]

section Members

variable {members : List (Member Ty)} {sources : List Constant}

theorem kinds_of_members (h : sources.map Constant.ty = members.map Member.ty) :
    (sources.flatMap Constant.values).map Scalar.kind = (struct members).leafKinds := by
  rw [kinds_flatMap_values, h, leafKinds, leafKindsMembers_eq_flatMap]

theorem construct_struct (hm : members ≠ []) (h : sources.map Constant.ty = members.map Member.ty)
    (span : Span) :
    (struct members).construct sources span =
      .ok ⟨struct members, sources.flatMap Constant.values, span, kinds_of_members h⟩ := by
  have hne : sources ≠ [] := by
    rintro rfl
    exact hm (List.map_eq_nil_iff.1 h.symm)
  exact construct_of_leaves hne (List.append_nil _).symm (kinds_of_members h) span

theorem leaves_at_offsetsFrom (h : sources.map Constant.ty = members.map Member.ty)
    (front : List Scalar) :
    List.Forall₂ (fun p c =>
        ((front ++ sources.flatMap Constant.values).drop p.1).take p.2.ty.size =
          Constant.values c)
      (offsetsFrom front.length members) sources := by
  induction members generalizing sources front with
  | nil =>
    obtain rfl := List.map_eq_nil_iff.1 h
    exact .nil
  | cons m ms ih =>
    cases sources with
    | nil => cases h
    | cons c cs =>
      obtain ⟨hty, htys⟩ := List.cons.inj h
      have hsize : m.ty.size = c.values.length := hty ▸ c.size_ty
      have hrest := ih htys (front ++ c.values)
      rw [List.length_append, ← hsize, List.append_assoc] at hrest
      rw [offsetsFrom, List.flatMap_cons]
      refine .cons ?_ hrest
      rw [hsize]
      exact take_drop_middle _ _ _

end Members

section Reassembly

theorem result_elsewhere (op : Operator) (ty : Ty) (values : List Scalar)
    (span elsewhere : Span) :
    (Constant.result op ty values span).map (fun c => { c with span := elsewhere }) =
      Constant.result op ty values elsewhere := by
  cases h : LayoutMismatch.find? ty values with
  | none =>
    rw [Constant.result, Constant.result, Constant.ofValues_of_find?_eq_none h,
      Constant.ofValues_of_find?_eq_none h]
    rfl
  | some mismatch =>
    rw [Constant.result, Constant.result, Constant.ofValues_of_find?_eq_some h,
      Constant.ofValues_of_find?_eq_some h]
    rfl

theorem construct_elsewhere (target : Ty) (sources : List Constant) (span elsewhere : Span) :
    (target.construct sources span).map (fun c => { c with span := elsewhere }) =
      target.construct sources elsewhere := by
  rw [construct, construct]
  split
  · rfl
  · cases supply target.size sources with
    | error failure => rfl
    | ok supplied =>
      simp only [bind, Except.bind]
      split
      · rfl
      · cases convertAll target.leafKinds supplied with
        | error failure => rfl
        | ok values => exact result_elsewhere _ _ _ _ _

theorem ty_of_construct {target : Ty} {sources : List Constant} {span : Span} {c : Constant}
    (h : target.construct sources span = .ok c) : c.ty = target := by
  rw [construct] at h
  split at h
  · cases h
  · obtain ⟨supplied, _, h⟩ := bind_eq_ok_iff.1 h
    split at h
    · cases h
    · obtain ⟨values, _, h⟩ := bind_eq_ok_iff.1 h
      exact (Constant.result_eq_ok_iff.1 h).1

theorem construct_of_parts {n : Constant} {parts further : List Constant}
    (h : parts.flatMap Constant.values = n.values) (hne : parts ++ further ≠ []) (span : Span) :
    n.ty.construct (parts ++ further) span = .ok { n with span := span } := by
  have hleaves : (parts ++ further).flatMap Constant.values =
      n.values ++ further.flatMap Constant.values := by
    rw [List.flatMap_append, h]
  exact construct_of_leaves hne hleaves n.fits span

theorem construct_self (n : Constant) (span : Span) :
    n.ty.construct [n] span = .ok { n with span := span } :=
  construct_of_parts (List.flatMap_singleton ..) (List.cons_ne_nil n []) span

theorem construct_again (target : Ty) (sources : List Constant) (inner outer : Span) :
    (do let c ← target.construct sources inner; target.construct [c] outer) =
      target.construct sources outer := by
  rw [← construct_elsewhere target sources inner outer]
  cases h : target.construct sources inner with
  | error failure => rfl
  | ok c =>
    obtain rfl := ty_of_construct h
    exact construct_self c outer

/-- Parts that hold the leaves of a constant in order make it up again, whatever follows them. So
a constant makes up itself, and constructing a second time at the same type changes nothing. -/
theorem construct_lossless :
    (∀ (n : Constant) (parts further : List Constant), parts.flatMap Constant.values = n.values →
      parts ++ further ≠ [] → n.ty.construct (parts ++ further) n.span = .ok n) ∧
    (∀ (n : Constant) (span : Span), n.ty.construct [n] span = .ok { n with span := span }) ∧
    ∀ (target : Ty) (sources : List Constant) (inner outer : Span),
      (do let c ← target.construct sources inner; target.construct [c] outer) =
        target.construct sources outer :=
  ⟨fun n _ _ h hne => construct_of_parts h hne n.span, construct_self, construct_again⟩

theorem construct_lossless_across_members :
    let n : Constant := ⟨.struct [⟨"at", .vector .int 2⟩, ⟨"lit", .scalar .bool⟩],
      [.int 3, .int 4, .bool true], ⟨7, 9⟩, rfl⟩
    let parts : List Constant := [.scalar (.int 3) .dummy, ⟨.vector .float 0, [], .dummy, rfl⟩,
      ⟨.struct [⟨"y", .scalar .int⟩, ⟨"on", .scalar .bool⟩], [.int 4, .bool true], .dummy, rfl⟩]
    parts.flatMap Constant.values = n.values ∧
      n.ty.construct (parts ++ [.scalar (.uint 1) .dummy]) n.span = .ok n := by
  intro n parts
  have hparts : parts.flatMap Constant.values = n.values := rfl
  obtain ⟨hreassembled, _⟩ := construct_lossless
  exact ⟨hparts, hreassembled n parts _ hparts (List.cons_ne_nil _ _)⟩

end Reassembly

end Ty

end ShaderFold
