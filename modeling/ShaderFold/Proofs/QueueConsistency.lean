import Mathlib.Data.List.Chain
import ShaderFold.Diagnostic.Queue

namespace ShaderFold

namespace Queue

variable {hash : List Char → UInt64} {q : Queue hash} {d : Diagnostic} {policy : QueuePolicy}

theorem add_refused (h : q.refuses d = true) : q.add d = (false, q) :=
  if_pos h

theorem add_error (hd : d.isError = true) (h : q.refuses d = false) :
    q.add d = (true, ⟨q.policy, q.held ++ [d], q.errorCount + 1, some (d.key hash)⟩) := by
  rw [add, if_neg (ne_true_of_eq_false h), if_pos hd]

theorem add_other (hd : d.isError = false) :
    q.add d = (true, { q with held := q.held ++ [d] }) := by
  have h : q.refuses d = false := by rw [refuses, hd, Bool.false_and]
  rw [add, if_neg (ne_true_of_eq_false h), if_neg (ne_true_of_eq_false hd)]

theorem refuses_error (hd : d.isError = true) :
    q.refuses d = false ↔
      q.isFull = false ∧ (q.policy.deduplicate = true → q.lastError ≠ some (d.key hash)) := by
  simp only [refuses, hd, Bool.true_and, Bool.or_eq_false_iff, Bool.and_eq_false_imp,
    decide_eq_false_iff_not, ne_eq]

theorem isFull_eq_true :
    q.isFull = true ↔ 0 < q.policy.errorLimit ∧ q.policy.errorLimit ≤ q.errorCount := by
  simp only [isFull, Bool.and_eq_true, decide_eq_true_eq]

theorem isFull_eq_false :
    q.isFull = false ↔ (0 < q.policy.errorLimit → q.errorCount < q.policy.errorLimit) := by
  simp only [isFull, Bool.and_eq_false_imp, decide_eq_true_eq, decide_eq_false_iff_not,
    Nat.not_le]

inductive Action where
  | add (d : Diagnostic)
  | emit (d : Diagnostic)
  | peek
  | flush

def after (q : Queue hash) : Action → Queue hash
  | .add d => (q.add d).2
  | .emit d => Sink.emit q d
  | .peek => q
  | .flush => q.flush.2

def run (q : Queue hash) (actions : List Action) : Queue hash :=
  actions.foldl after q

def errors (q : Queue hash) : List Diagnostic :=
  q.held.filter Diagnostic.isError

/-- The records of a queue under a policy are true of the errors it holds, and these obey the
policy. -/
structure Consistent (policy : QueuePolicy) (q : Queue hash) : Prop where
  policy_eq : q.policy = policy
  errorCount_eq : q.errorCount = q.errors.length
  lastError_eq : q.lastError = q.errors.getLast?.map (Diagnostic.key hash)
  bounded : 0 < policy.errorLimit → q.errors.length ≤ policy.errorLimit
  distinct : policy.deduplicate = true →
    q.errors.IsChain fun d e => d.key hash ≠ e.key hash

namespace Consistent

theorem empty (policy : QueuePolicy) : (Queue.empty policy : Queue hash).Consistent policy where
  policy_eq := rfl
  errorCount_eq := rfl
  lastError_eq := rfl
  bounded _ := Nat.zero_le _
  distinct _ := .nil

theorem add_error (h : q.Consistent policy) (hd : d.isError = true) (hr : q.refuses d = false) :
    (⟨q.policy, q.held ++ [d], q.errorCount + 1, some (d.key hash)⟩ : Queue hash).Consistent
      policy := by
  have herrors : (q.held ++ [d]).filter Diagnostic.isError = q.errors ++ [d] := by
    rw [List.filter_append, List.filter_cons_of_pos hd, List.filter_nil, errors]
  obtain ⟨hfull, hlast⟩ := (refuses_error hd).1 hr
  rw [isFull_eq_false, h.policy_eq, h.errorCount_eq] at hfull
  rw [h.policy_eq, h.lastError_eq] at hlast
  constructor
  case policy_eq => exact h.policy_eq
  case errorCount_eq =>
    rw [errors, herrors, List.length_append, List.length_singleton, h.errorCount_eq]
  case lastError_eq => rw [errors, herrors, List.getLast?_concat, Option.map_some]
  case bounded =>
    intro hlimit
    rw [errors, herrors, List.length_append, List.length_singleton]
    exact hfull hlimit
  case distinct =>
    intro hdedup
    rw [errors, herrors]
    refine (h.distinct hdedup).append (.singleton d) ?_
    rintro e he d' hd' hkey
    cases Option.mem_some.1 hd'
    rw [Option.mem_def.1 he] at hlast
    exact hlast hdedup (congrArg some hkey)

theorem add_other (h : q.Consistent policy) (hd : d.isError = false) :
    ({ q with held := q.held ++ [d] } : Queue hash).Consistent policy := by
  have herrors : ({ q with held := q.held ++ [d] } : Queue hash).errors = q.errors := by
    rw [errors, errors, List.filter_append, List.filter_cons_of_neg (ne_true_of_eq_false hd),
      List.filter_nil, List.append_nil]
  constructor
  case policy_eq => exact h.policy_eq
  case errorCount_eq => rw [herrors]; exact h.errorCount_eq
  case lastError_eq => rw [herrors]; exact h.lastError_eq
  case bounded => rw [herrors]; exact h.bounded
  case distinct => rw [herrors]; exact h.distinct

theorem add (h : q.Consistent policy) (d : Diagnostic) : (q.add d).2.Consistent policy := by
  cases hd : d.isError with
  | false =>
    rw [Queue.add_other hd]
    exact h.add_other hd
  | true =>
    cases hr : q.refuses d with
    | false =>
      rw [Queue.add_error hd hr]
      exact h.add_error hd hr
    | true =>
      rw [add_refused hr]
      exact h

theorem after (h : q.Consistent policy) (action : Action) :
    (q.after action).Consistent policy := by
  cases action with
  | add d => exact h.add d
  | emit d => exact h.add d
  | peek => exact h
  | flush =>
    rw [Queue.after, flush, h.policy_eq]
    exact empty policy

theorem run (h : q.Consistent policy) (actions : List Action) :
    (q.run actions).Consistent policy := by
  induction actions generalizing q with
  | nil => exact h
  | cons action rest ih => exact ih (h.after action)

end Consistent

theorem Consistent.emit_all (h : q.Consistent policy) (ds : List Diagnostic) :
    (ds.foldl Sink.emit q).Consistent policy := by
  have he : q.run (ds.map .emit) = ds.foldl Sink.emit q := List.foldl_map
  exact he ▸ h.run (ds.map .emit)

/-- After any run a queue has counted the errors it holds and kept to its limit, remembers the key
of the last of them, and if it deduplicates no error has the key of the error before it. -/
theorem errors_recorded (policy : QueuePolicy) (actions : List Action) :
    let q : Queue hash := (empty policy).run actions
    let errors : List Diagnostic := q.held.filter fun d => d.severity = .error
    let key (d : Diagnostic) : Span × UInt64 :=
      (d.primarySpan?.getD .dummy, hash (d.message.toList.take 30))
    q.errorCount = errors.length ∧
      (0 < policy.errorLimit → q.errorCount ≤ policy.errorLimit) ∧
      (q.lastError = none ↔ errors = []) ∧
      (∀ d, errors.getLast? = some d → q.lastError = some (key d)) ∧
      (policy.deduplicate = true → errors.IsChain fun d e => key d ≠ key e) := by
  intro q errors key
  have h : q.Consistent policy := (Consistent.empty policy).run actions
  have hcount : q.errorCount = errors.length := h.errorCount_eq
  have hlast : q.lastError = errors.getLast?.map key := h.lastError_eq
  refine ⟨hcount, ?_, ?_, ?_, h.distinct⟩
  · rw [hcount]
    exact h.bounded
  · rw [hlast, Option.map_eq_none_iff, List.getLast?_eq_none_iff]
  · intro d hd
    rw [hlast, hd, Option.map_some]

end Queue

/-- The part of a list of errors that the limit leaves room for. -/
def QueuePolicy.cut (policy : QueuePolicy) (ds : List Diagnostic) : List Diagnostic :=
  if policy.errorLimit = 0 then ds else ds.take policy.errorLimit

namespace QueuePolicy

variable {policy : QueuePolicy} {ds : List Diagnostic}

theorem cut_of_le (h : 0 < policy.errorLimit → ds.length ≤ policy.errorLimit) :
    policy.cut ds = ds := by
  rw [cut]
  split
  · rfl
  · exact List.take_of_length_le (h (by omega))

theorem cut_append (hlimit : 0 < policy.errorLimit) (h : policy.errorLimit ≤ ds.length)
    (es : List Diagnostic) : policy.cut (ds ++ es) = policy.cut ds := by
  rw [cut, cut, if_neg (by omega), if_neg (by omega), List.take_append_of_le_length h]

theorem cut_sublist (policy : QueuePolicy) (ds : List Diagnostic) :
    (policy.cut ds).Sublist ds := by
  rw [cut]
  split
  · exact .refl ds
  · exact List.take_sublist _ ds

theorem cut_of_room (h : 0 < policy.errorLimit → (policy.cut ds).length < policy.errorLimit) :
    policy.cut ds = ds := by
  apply cut_of_le
  intro hlimit
  have hroom := h hlimit
  rw [cut, if_neg (by omega), List.length_take] at hroom
  omega

end QueuePolicy

namespace Queue

variable {hash : List Char → UInt64} {q : Queue hash} {d : Diagnostic} {policy : QueuePolicy}
  {ds : List Diagnostic}

theorem emit_error (hd : d.isError = true) (h : q.refuses d = false) :
    Sink.emit q d = ⟨q.policy, q.held ++ [d], q.errorCount + 1, some (d.key hash)⟩ :=
  congrArg Prod.snd (add_error hd h)

theorem emit_full (hd : d.isError = true) (h : q.isFull = true) : Sink.emit q d = q := by
  have hr : q.refuses d = true := by rw [refuses, hd, h, Bool.true_or, Bool.and_true]
  exact congrArg Prod.snd (add_refused hr)

theorem errors_eq_cut (hheld : q.held = policy.cut ds) (herr : ∀ e ∈ ds, e.isError = true) :
    q.errors = policy.cut ds := by
  rw [errors, hheld, List.filter_eq_self]
  intro e he
  exact herr e ((policy.cut_sublist ds).mem he)

/-- A queue that holds what the limit leaves of some errors holds what it leaves of one more,
unless that one repeats the last of them. -/
theorem held_emit (hq : q.Consistent policy) (hheld : q.held = policy.cut ds)
    (herr : ∀ e ∈ ds, e.isError = true) (hd : d.isError = true)
    (hne : policy.deduplicate = true → ∀ e ∈ ds.getLast?, e.key hash ≠ d.key hash) :
    (Sink.emit q d).held = policy.cut (ds ++ [d]) := by
  have herrors : q.errors = policy.cut ds := errors_eq_cut hheld herr
  have hcount : q.errorCount = (policy.cut ds).length := by rw [hq.errorCount_eq, herrors]
  -- A full queue has already been cut. One with room holds all errors so far, so the key it
  -- remembers is that of the last of them.
  cases hfull : q.isFull with
  | true =>
    rw [emit_full hd hfull, hheld]
    rw [isFull_eq_true, hq.policy_eq, hcount] at hfull
    have hle : (policy.cut ds).length ≤ ds.length := (policy.cut_sublist ds).length_le
    exact (QueuePolicy.cut_append hfull.1 (hfull.2.trans hle) [d]).symm
  | false =>
    have hroom := isFull_eq_false.1 hfull
    rw [hq.policy_eq, hcount] at hroom
    have hcut : policy.cut ds = ds := QueuePolicy.cut_of_room hroom
    rw [hcut] at hroom herrors hheld
    have hr : q.refuses d = false := by
      refine (refuses_error hd).2 ⟨hfull, ?_⟩
      intro hdedup hlast
      rw [hq.lastError_eq, herrors, Option.map_eq_some_iff] at hlast
      obtain ⟨e, he, hkey⟩ := hlast
      exact hne (hq.policy_eq ▸ hdedup) e he hkey
    rw [emit_error hd hr, hheld, QueuePolicy.cut_of_le]
    intro hlimit
    rw [List.length_append, List.length_singleton]
    exact hroom hlimit

theorem held_errors (herr : ∀ d ∈ ds, d.isError = true)
    (hds : policy.deduplicate = true → ds.IsChain fun d e => d.key hash ≠ e.key hash) :
    (ds.foldl Sink.emit (empty policy : Queue hash)).held = policy.cut ds := by
  induction ds using List.reverseRecOn with
  | nil => exact (QueuePolicy.cut_of_le fun _ => Nat.zero_le _).symm
  | append_singleton ds d ih =>
    rw [List.forall_mem_append, List.forall_mem_singleton] at herr
    have hheld := ih herr.1 fun h => (hds h).left_of_append
    rw [List.foldl_append, List.foldl_cons, List.foldl_nil]
    refine held_emit ((Consistent.empty policy).emit_all ds) hheld herr.1 herr.2 ?_
    intro hdedup e he
    exact (List.isChain_append.1 (hds hdedup)).2.2 e he d rfl

theorem emit_others (hds : ∀ d ∈ ds, d.isError = false) :
    ds.foldl Sink.emit q = { q with held := q.held ++ ds } := by
  induction ds generalizing q with
  | nil => rw [List.foldl_nil, List.append_nil]
  | cons d ds ih =>
    obtain ⟨hd, hrest⟩ := List.forall_mem_cons.1 hds
    have hemit : Sink.emit q d = { q with held := q.held ++ [d] } :=
      congrArg Prod.snd (add_other hd)
    rw [List.foldl_cons, hemit, ih hrest, List.append_assoc, List.singleton_append]

end Queue

end ShaderFold
