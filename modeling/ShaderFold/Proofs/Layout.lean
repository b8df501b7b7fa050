import Mathlib.Data.List.Chain
import Mathlib.Order.Interval.Finset.Nat
import ShaderFold.Proofs.Kinds

namespace ShaderFold

theorem take_drop_middle {α : Type} (front middle back : List α) :
    ((front ++ (middle ++ back)).drop front.length).take middle.length = middle := by
  rw [List.drop_left, List.take_left]

namespace Ty

/-- The types that occur in a type, itself included. -/
inductive Occurs (s : Ty) : Ty → Prop where
  | self : Occurs s s
  | element {element : Ty} {len : Nat} (h : Occurs s element) : Occurs s (array element len)
  | member {m : Member Ty} {members : List (Member Ty)} (hm : m ∈ members) (h : Occurs s m.ty) :
    Occurs s (struct members)

theorem Occurs.kind_eq {s t : Ty} (h : Occurs s t) (ht : t.kind ≠ .struct) : s.kind = t.kind := by
  induction h with
  | self => rfl
  | element _ ih => exact ih ht
  | member _ _ _ => exact absurd rfl ht

theorem not_occurs_struct {t : Ty} (ht : t.kind ≠ .struct) (members : List (Member Ty)) :
    ¬Occurs (struct members) t := by
  intro h
  exact ht (h.kind_eq ht).symm

theorem leafKindsMembers_append (ms ns : List (Member Ty)) :
    leafKindsMembers (ms ++ ns) = leafKindsMembers ms ++ leafKindsMembers ns := by
  induction ms with
  | nil => rw [List.nil_append, leafKindsMembers, List.nil_append]
  | cons m ms ih =>
    rw [List.cons_append, leafKindsMembers, leafKindsMembers, ih, List.append_assoc]

section Offsets

variable {start : Nat} {members : List (Member Ty)} {p : Nat × Member Ty}

def leafRange (p : Nat × Member Ty) : Finset Nat :=
  Finset.Ico p.1 (p.1 + p.2.ty.size)

theorem map_snd_offsetsFrom (start : Nat) (members : List (Member Ty)) :
    (offsetsFrom start members).map Prod.snd = members := by
  induction members generalizing start with
  | nil => rfl
  | cons m ms ih => rw [offsetsFrom, List.map_cons, ih]

theorem head_offsetsFrom (h : p ∈ (offsetsFrom start members).head?) : p.1 = start := by
  cases members with
  | nil => cases h
  | cons m ms =>
    cases Option.mem_some.1 h
    rfl

theorem exists_of_mem_offsetsFrom (h : p ∈ offsetsFrom start members) :
    ∃ front back, members = front ++ p.2 :: back ∧ p.1 = start + sizeMembers front := by
  induction members generalizing start with
  | nil => cases h
  | cons m ms ih =>
    rcases List.mem_cons.1 h with rfl | h
    · exact ⟨[], ms, rfl, rfl⟩
    · obtain ⟨front, back, hms, hp⟩ := ih h
      refine ⟨m :: front, back, congrArg (m :: ·) hms, ?_⟩
      rw [hp, sizeMembers, Nat.add_assoc]

theorem le_of_mem_offsetsFrom (h : p ∈ offsetsFrom start members) : start ≤ p.1 := by
  obtain ⟨front, _, _, hp⟩ := exists_of_mem_offsetsFrom h
  omega

theorem isChain_offsetsFrom (start : Nat) (members : List (Member Ty)) :
    (offsetsFrom start members).IsChain fun p q => p.1 + p.2.ty.size = q.1 := by
  induction members generalizing start with
  | nil => exact .nil
  | cons m ms ih =>
    refine List.isChain_cons.2 ⟨?_, ih (start + m.ty.size)⟩
    intro q hq
    exact (head_offsetsFrom hq).symm

theorem pairwise_offsetsFrom (start : Nat) (members : List (Member Ty)) :
    (offsetsFrom start members).Pairwise fun p q => Disjoint (leafRange p) (leafRange q) := by
  induction members generalizing start with
  | nil => exact .nil
  | cons m ms ih =>
    refine .cons ?_ (ih (start + m.ty.size))
    intro q hq
    refine Finset.disjoint_left.2 ?_
    intro i hi hi'
    have hle : start + m.ty.size ≤ q.1 := le_of_mem_offsetsFrom hq
    have hlt : i < start + m.ty.size := (Finset.mem_Ico.1 hi).2
    have hge : q.1 ≤ i := (Finset.mem_Ico.1 hi').1
    omega

theorem exists_leafRange_iff (start : Nat) (members : List (Member Ty)) (i : Nat) :
    (∃ p ∈ offsetsFrom start members, i ∈ leafRange p) ↔
      start ≤ i ∧ i < start + sizeMembers members := by
  induction members generalizing start with
  | nil =>
    simp only [offsetsFrom, List.not_mem_nil, false_and, exists_false, sizeMembers, false_iff]
    omega
  | cons m ms ih =>
    have hhead : i ∈ leafRange (start, m) ↔ start ≤ i ∧ i < start + m.ty.size := Finset.mem_Ico
    rw [offsetsFrom, List.exists_mem_cons_iff, hhead, ih, sizeMembers]
    omega

theorem take_drop_leafKindsMembers (h : p ∈ offsetsFrom 0 members) :
    ((leafKindsMembers members).drop p.1).take p.2.ty.size = p.2.ty.leafKinds := by
  obtain ⟨front, back, rfl, hp⟩ := exists_of_mem_offsetsFrom h
  rw [Nat.zero_add, ← length_leafKindsMembers] at hp
  rw [hp, leafKindsMembers_append, leafKindsMembers, ← length_leafKinds]
  exact take_drop_middle _ _ _

end Offsets

/-- How the members of a structure lie among its leaves. -/
structure MemberLayout (members : List (Member Ty)) : Prop where
  in_order : (struct members).memberOffsets.map Prod.snd = members
  starts : ∀ p ∈ (struct members).memberOffsets.head?, p.1 = 0
  consecutive : (struct members).memberOffsets.IsChain fun p q => p.1 + p.2.ty.size = q.1
  disjoint :
    (struct members).memberOffsets.Pairwise fun p q => Disjoint (leafRange p) (leafRange q)
  covering : ∀ i, (∃ p ∈ (struct members).memberOffsets, i ∈ leafRange p) ↔
    i ∈ Finset.range (struct members).size
  kinds : ∀ p ∈ (struct members).memberOffsets,
    ((struct members).leafKinds.drop p.1).take p.2.ty.size = p.2.ty.leafKinds

theorem memberLayout (members : List (Member Ty)) : MemberLayout members where
  in_order := map_snd_offsetsFrom 0 members
  starts _ := head_offsetsFrom
  consecutive := isChain_offsetsFrom 0 members
  disjoint := pairwise_offsetsFrom 0 members
  covering i := by
    rw [memberOffsets, Ty.members, exists_leafRange_iff, size, Finset.mem_range]
    omega
  kinds p hp := by
    rw [leafKinds]
    exact take_drop_leafKindsMembers hp

theorem take_drop_leafKinds_array (element : Ty) {len i : Nat} (h : i < len) :
    ((array element len).leafKinds.drop (i * element.size)).take element.size =
      element.leafKinds := by
  obtain ⟨rest, rfl⟩ := Nat.exists_eq_add_of_lt h
  have hfront : (List.replicate i element.leafKinds).flatten.length = i * element.size := by
    rw [← leafKinds_array, length_leafKinds, size]
  have hsplit : List.replicate (i + rest + 1) element.leafKinds =
      List.replicate i element.leafKinds ++
        element.leafKinds :: List.replicate rest element.leafKinds := by
    rw [← List.replicate_succ, ← List.replicate_add, Nat.add_assoc]
  rw [leafKinds_array, hsplit, List.flatten_append, List.flatten_cons, ← hfront,
    ← length_leafKinds]
  exact take_drop_middle _ _ _

/-- Size, offsets and leaf kinds of a type agree, whatever it is made of. -/
theorem layout_coherent (t : Ty) :
    t.leafKinds.length = t.size ∧
      (t.kind ≠ .struct →
        (∀ members, ¬Occurs (struct members) t) ∧ ∀ k ∈ t.leafKinds, k = t.kind) ∧
      (∀ members, t = struct members → MemberLayout members) ∧
      (∀ element len, t = array element len → ∀ i < len,
        (t.leafKinds.drop (i * element.size)).take element.size = element.leafKinds) := by
  refine ⟨length_leafKinds t, ?_, ?_, ?_⟩
  · intro ht
    refine ⟨not_occurs_struct ht, ?_⟩
    intro k hk
    rw [leafKinds_eq_replicate t ht] at hk
    exact List.eq_of_mem_replicate hk
  · intro members _
    exact memberLayout members
  · rintro element len rfl i hi
    exact take_drop_leafKinds_array element hi

theorem layout_coherent_nested :
    let members : List (Member Ty) :=
      [⟨"position", vector .float 2⟩, ⟨"unused", array (scalar .int) 0⟩, ⟨"lit", scalar .bool⟩]
    (struct members).memberOffsets.map Prod.fst = [0, 2, 2] ∧
      MemberLayout members ∧
      ((array (struct members) 4).leafKinds.drop (2 * 3)).take 3 = [.float, .float, .bool] ∧
      ¬Occurs (struct members) (array (vector .float 2) 4) := by
  intro members
  refine ⟨rfl, (layout_coherent (struct members)).2.2.1 members rfl, ?_, ?_⟩
  · exact (layout_coherent (array (struct members) 4)).2.2.2 (struct members) 4 rfl 2 (by decide)
  · exact ((layout_coherent (array (vector .float 2) 4)).2.1 (by decide)).1 members

end Ty

end ShaderFold
