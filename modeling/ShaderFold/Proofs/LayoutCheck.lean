import ShaderFold.Proofs.Foldability

namespace ShaderFold

namespace Ty

mutual

/-- The kinds of the leaves of a type, part by part. Every element of an array is written down,
also where it has no leaves. -/
def layout : Ty → List Kind
  | scalar k => [k]
  | vector k n => List.replicate n k
  | matrix k cols rows => List.replicate (cols * rows) k
  | array element len => (List.replicate len element.layout).flatten
  | struct members => layoutMembers members

def layoutMembers : List (Member Ty) → List Kind
  | [] => []
  | m :: ms => m.ty.layout ++ layoutMembers ms

end

mutual

theorem leafKinds_eq_layout : (t : Ty) → t.leafKinds = t.layout
  | scalar _ => by rw [leafKinds, layout]
  | vector .. => by rw [leafKinds, layout]
  | matrix .. => by rw [leafKinds, layout]
  | array element len => by rw [leafKinds_array, layout, leafKinds_eq_layout element]
  | struct members => by rw [leafKinds, layout, leafKindsMembers_eq_layoutMembers members]

theorem leafKindsMembers_eq_layoutMembers : (ms : List (Member Ty)) →
    leafKindsMembers ms = layoutMembers ms
  | [] => by rw [leafKindsMembers, layoutMembers]
  | m :: ms => by
    rw [leafKindsMembers, layoutMembers, leafKinds_eq_layout m.ty,
      leafKindsMembers_eq_layoutMembers ms]

end

theorem length_layout (t : Ty) : t.layout.length = t.size := by
  rw [← leafKinds_eq_layout, length_leafKinds]

end Ty

namespace LayoutMismatch

/-- The first index at which values have another kind than a list asks for, with both kinds. -/
structure FirstDifference (kinds : List Kind) (values : List Scalar) (index : Nat)
    (expected found : Kind) : Prop where
  asked : kinds[index]? = some expected
  held : (values.map Scalar.kind)[index]? = some found
  differ : found ≠ expected
  before : ∀ i < index, (values.map Scalar.kind)[i]? = kinds[i]?

theorem FirstDifference.succ {kinds : List Kind} {values : List Scalar} {index : Nat}
    {expected found : Kind} (h : FirstDifference kinds values index expected found) (v : Scalar) :
    FirstDifference (v.kind :: kinds) (v :: values) (index + 1) expected found where
  asked := h.asked
  held := h.held
  differ := h.differ
  before i hi := by
    cases i with
    | zero => rfl
    | succ i => exact h.before i (Nat.lt_of_succ_lt_succ hi)

theorem exists_firstDifference (start : Nat) {kinds : List Kind} {values : List Scalar}
    (hlen : values.length = kinds.length) (hne : values.map Scalar.kind ≠ kinds) :
    ∃ index expected found, FirstDifference kinds values index expected found ∧
      firstKind? start kinds values = some (.kind (start + index) expected found) := by
  induction kinds generalizing start values with
  | nil =>
    obtain rfl := List.eq_nil_of_length_eq_zero hlen
    exact (hne rfl).elim
  | cons k kinds ih =>
    cases values with
    | nil => cases hlen
    | cons v values =>
      by_cases hk : v.kind = k
      · subst hk
        have hrest : values.map Scalar.kind ≠ kinds := by
          rintro rfl
          exact hne rfl
        obtain ⟨index, expected, found, hfirst, hfind⟩ :=
          ih (start + 1) (Nat.succ.inj hlen) hrest
        refine ⟨index + 1, expected, found, hfirst.succ v, ?_⟩
        rw [firstKind?, if_pos rfl, hfind, Nat.add_right_comm]
        rfl
      · refine ⟨0, k, v.kind, ⟨rfl, rfl, hk, fun i hi => (Nat.not_lt_zero i hi).elim⟩, ?_⟩
        rw [firstKind?, if_neg hk]
        rfl

end LayoutMismatch

namespace Constant

open LayoutMismatch

variable {ty : Ty} {values : List Scalar}

theorem exists_ofValues_iff (ty : Ty) (values : List Scalar) (span : Span) :
    (∃ c, ofValues ty values span = .ok c) ↔ values.map Scalar.kind = ty.layout := by
  rw [← Ty.leafKinds_eq_layout]
  constructor
  · rintro ⟨c, hc⟩
    obtain ⟨rfl, rfl, _⟩ := ofValues_eq_ok_iff.1 hc
    exact c.fits
  · intro hfits
    exact ⟨⟨ty, values, span, hfits⟩, ofValues_eq_ok_iff.2 ⟨rfl, rfl, rfl⟩⟩

theorem ofValues_of_length_ne (h : values.length ≠ ty.layout.length) (span : Span) :
    ofValues ty values span = .error (.length ty ty.layout.length values.length) := by
  rw [Ty.length_layout] at h ⊢
  exact ofValues_of_find?_eq_some (if_neg h) span

theorem exists_ofValues_of_kinds_ne (hlen : values.length = ty.layout.length)
    (hne : values.map Scalar.kind ≠ ty.layout) (span : Span) :
    ∃ index expected found, FirstDifference ty.layout values index expected found ∧
      ofValues ty values span = .error (.kind index expected found) := by
  obtain ⟨index, expected, found, hfirst, hfind⟩ := exists_firstDifference 0 hlen hne
  rw [Nat.zero_add, ← Ty.leafKinds_eq_layout] at hfind
  rw [Ty.length_layout] at hlen
  exact ⟨index, expected, found, hfirst,
    ofValues_of_find?_eq_some ((if_pos hlen).trans hfind) span⟩

/-- Values are accepted exactly if their kinds are the layout of the type, and are then kept as
they are. Otherwise a wrong number of values is reported whatever their kinds, and of the right
number the first that has another kind than the layout asks for. -/
theorem ofValues_by_layout (ty : Ty) (values : List Scalar) (span : Span) :
    ((∃ c, ofValues ty values span = .ok c) ↔ values.map Scalar.kind = ty.layout) ∧
    (∀ c, ofValues ty values span = .ok c → c.ty = ty ∧ c.values = values ∧ c.span = span) ∧
    (values.length ≠ ty.layout.length →
      ofValues ty values span = .error (.length ty ty.layout.length values.length)) ∧
    (values.length = ty.layout.length → values.map Scalar.kind ≠ ty.layout →
      ∃ index expected found, FirstDifference ty.layout values index expected found ∧
        ofValues ty values span = .error (.kind index expected found)) := by
  refine ⟨exists_ofValues_iff ty values span, ?_, fun h => ofValues_of_length_ne h span,
    fun hlen hne => exists_ofValues_of_kinds_ne hlen hne span⟩
  intro c hc
  exact ofValues_eq_ok_iff.1 hc

theorem ofValues_by_layout_lamps :
    let lamp : Ty :=
      .struct [⟨"level", .scalar .int⟩, ⟨"tags", .array (.vector .uint 3) 0⟩,
        ⟨"on", .scalar .bool⟩]
    let lamps : Ty := .array lamp 2
    let own : List Scalar := [.int 1, .bool true, .int 2, .bool false]
    let wrong : List Scalar := [.int 1, .bool true, .uint 2, .int 0]
    let more : List Scalar := [.bool true, .int 1, .uint 2, .bool false, .int 7]
    lamps.layout = [.int, .bool, .int, .bool] ∧
      (∃ c, ofValues lamps own .dummy = .ok c ∧ c.ty = lamps ∧ c.values = own) ∧
      FirstDifference lamps.layout wrong 2 .int .uint ∧
      (∃ index expected found, FirstDifference lamps.layout wrong index expected found ∧
        ofValues lamps wrong .dummy = .error (.kind index expected found)) ∧
      ofValues lamps more .dummy = .error (.length lamps 4 5) := by
  intro lamp lamps own wrong more
  obtain ⟨haccepts, hkeeps, _, _⟩ := ofValues_by_layout lamps own .dummy
  obtain ⟨_, _, _, hkinds⟩ := ofValues_by_layout lamps wrong .dummy
  obtain ⟨_, _, hcount, _⟩ := ofValues_by_layout lamps more .dummy
  obtain ⟨c, hc⟩ := haccepts.2 rfl
  obtain ⟨hty, hvalues, _⟩ := hkeeps c hc
  refine ⟨rfl, ⟨c, hc, hty, hvalues⟩, ⟨rfl, rfl, nofun, by decide⟩, hkinds rfl (by decide), ?_⟩
  exact hcount (by decide)

end Constant

end ShaderFold
