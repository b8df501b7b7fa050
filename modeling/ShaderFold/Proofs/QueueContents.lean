import ShaderFold.Proofs.QueueConsistency

namespace ShaderFold

namespace Queue

variable {hash : List Char → UInt64} {q : Queue hash} {d : Diagnostic}

theorem held_add (q : Queue hash) (d : Diagnostic) :
    (q.add d).2.held = if (q.add d).1 = true then q.held ++ [d] else q.held := by
  cases hr : q.refuses d with
  | true => rw [add_refused hr]; rfl
  | false =>
    cases hd : d.isError with
    | true => rw [add_error hd hr]; rfl
    | false => rw [add_other hd]; rfl

section Errors

/-- The queue as it were without the warnings and notes that it holds. -/
def onlyErrors (q : Queue hash) : Queue hash :=
  { q with held := q.errors }

@[simp] theorem errorCount_onlyErrors : q.onlyErrors.errorCount = q.errorCount := rfl

@[simp] theorem isFull_onlyErrors : q.onlyErrors.isFull = q.isFull := rfl

theorem add_onlyErrors (hd : d.isError = true) :
    q.onlyErrors.add d = ((q.add d).1, (q.add d).2.onlyErrors) := by
  -- Whether an error is refused is read off the records, which are the same in both queues.
  have hsame : q.onlyErrors.refuses d = q.refuses d := rfl
  cases hr : q.refuses d with
  | true => rw [add_refused (hsame.trans hr), add_refused hr]
  | false =>
    rw [add_error hd (hsame.trans hr), add_error hd hr]
    simp only [onlyErrors, errors, List.filter_append, List.filter_cons_of_pos hd,
      List.filter_nil]

theorem onlyErrors_add (hd : d.isError = false) : (q.add d).2.onlyErrors = q.onlyErrors := by
  rw [add_other hd, onlyErrors, onlyErrors, errors, errors, List.filter_append,
    List.filter_cons_of_neg (ne_true_of_eq_false hd), List.filter_nil, List.append_nil]

def answers (q : Queue hash) : List Diagnostic → List Bool
  | [] => []
  | d :: ds => (q.add d).1 :: (q.add d).2.answers ds

def errorAnswers (q : Queue hash) (ds : List Diagnostic) : List Bool :=
  ((ds.zip (q.answers ds)).filter fun p => p.1.isError).map Prod.snd

theorem errorAnswers_cons_error (hd : d.isError = true) (ds : List Diagnostic) :
    q.errorAnswers (d :: ds) = (q.add d).1 :: (q.add d).2.errorAnswers ds := by
  simp only [errorAnswers, answers, List.zip_cons_cons, List.filter_cons, hd, ↓reduceIte,
    List.map_cons]

theorem errorAnswers_cons_other (hd : d.isError = false) (ds : List Diagnostic) :
    q.errorAnswers (d :: ds) = (q.add d).2.errorAnswers ds := by
  simp only [errorAnswers, answers, List.zip_cons_cons, List.filter_cons, hd, Bool.false_eq_true,
    ↓reduceIte]

theorem errorAnswers_eq (q : Queue hash) (ds : List Diagnostic) :
    q.errorAnswers ds = q.onlyErrors.answers (ds.filter Diagnostic.isError) := by
  induction ds generalizing q with
  | nil => rfl
  | cons d ds ih =>
    cases hd : d.isError with
    | true =>
      rw [errorAnswers_cons_error hd, ih, List.filter_cons_of_pos hd, answers, add_onlyErrors hd]
    | false =>
      rw [errorAnswers_cons_other hd, ih, onlyErrors_add hd,
        List.filter_cons_of_neg (ne_true_of_eq_false hd)]

theorem run_add_cons (q : Queue hash) (d : Diagnostic) (ds : List Diagnostic) :
    q.run ((d :: ds).map .add) = (q.add d).2.run (ds.map .add) :=
  rfl

theorem onlyErrors_run (q : Queue hash) (ds : List Diagnostic) :
    (q.run (ds.map .add)).onlyErrors =
      q.onlyErrors.run ((ds.filter Diagnostic.isError).map .add) := by
  induction ds generalizing q with
  | nil => rfl
  | cons d ds ih =>
    cases hd : d.isError with
    | true =>
      rw [run_add_cons, ih, List.filter_cons_of_pos hd, run_add_cons, add_onlyErrors hd]
    | false =>
      rw [run_add_cons, ih, onlyErrors_add hd, List.filter_cons_of_neg (ne_true_of_eq_false hd)]

end Errors

section Others

def others (ds : List Diagnostic) : List Diagnostic :=
  ds.filter fun d => !d.isError

theorem others_append (ds es : List Diagnostic) : others (ds ++ es) = others ds ++ others es :=
  List.filter_append ds es

theorem others_add (q : Queue hash) (d : Diagnostic) :
    others (q.add d).2.held = others q.held ++ others [d] := by
  cases hd : d.isError with
  | false => rw [add_other hd, others_append]
  | true =>
    have hnone : others [d] = [] := List.filter_cons_of_neg (by rw [hd]; decide)
    rw [held_add, hnone, List.append_nil]
    split
    · rw [others_append, hnone, List.append_nil]
    · rfl

theorem others_run (q : Queue hash) (ds : List Diagnostic) :
    others (q.run (ds.map .add)).held = others q.held ++ others ds := by
  induction ds generalizing q with
  | nil => exact (List.append_nil _).symm
  | cons d ds ih =>
    rw [run_add_cons, ih, others_add, List.append_assoc, ← others_append, List.singleton_append]

end Others

section Submission

def Action.submit (submitted : List Diagnostic) : Action → List Diagnostic
  | .add d | .emit d => submitted ++ [d]
  | .peek => submitted
  | .flush => []

/-- What actions submit since the last flush among them. -/
def submitted (actions : List Action) : List Diagnostic :=
  actions.foldl Action.submit []

theorem held_add_sublist {ds : List Diagnostic} (h : q.held.Sublist ds) (d : Diagnostic) :
    (q.add d).2.held.Sublist (ds ++ [d]) := by
  rw [held_add]
  split
  · exact h.append (.refl [d])
  · exact h.trans (List.sublist_append_left ds [d])

theorem held_after_sublist {ds : List Diagnostic} (h : q.held.Sublist ds) (action : Action) :
    (q.after action).held.Sublist (action.submit ds) := by
  cases action with
  | add d => exact held_add_sublist h d
  | emit d => exact held_add_sublist h d
  | peek => exact h
  | flush => exact .slnil

theorem held_run_sublist {ds : List Diagnostic} (h : q.held.Sublist ds) (actions : List Action) :
    (q.run actions).held.Sublist (actions.foldl Action.submit ds) := by
  induction actions generalizing q ds with
  | nil => exact h
  | cons action rest ih => exact ih (held_after_sublist h action)

theorem foldl_submit_add (submitted ds : List Diagnostic) :
    (ds.map Action.add).foldl Action.submit submitted = submitted ++ ds := by
  rw [List.foldl_map]
  exact foldl_emit_list submitted ds

end Submission

/-- Warnings and notes do not influence which errors are kept, and are all kept themselves. -/
theorem errors_undisturbed (policy : QueuePolicy) {ds es : List Diagnostic}
    (h : ds.filter Diagnostic.isError = es.filter Diagnostic.isError) :
    let start : Queue hash := empty policy
    let filled (ds : List Diagnostic) : Queue hash := start.run (ds.map .add)
    start.errorAnswers ds = start.errorAnswers es ∧
      (filled ds).errors = (filled es).errors ∧
      (filled ds).errorCount = (filled es).errorCount ∧
      (filled ds).isFull = (filled es).isFull ∧
      ∀ added, (filled added).held.Sublist added ∧ others (filled added).held = others added := by
  intro start filled
  have hqueue : (filled ds).onlyErrors = (filled es).onlyErrors := by
    rw [onlyErrors_run, onlyErrors_run, h]
  refine ⟨?_, congrArg held hqueue, ?_, ?_, ?_⟩
  · rw [errorAnswers_eq, errorAnswers_eq, h]
  · simpa using congrArg errorCount hqueue
  · simpa using congrArg isFull hqueue
  · intro added
    refine ⟨?_, others_run start added⟩
    have hheld := held_run_sublist (.refl start.held) (added.map .add)
    rwa [foldl_submit_add] at hheld

theorem errors_undisturbed_between_repeats :
    let hash (opening : List Char) : UInt64 :=
      .ofNat (opening.foldl (fun n c => 31 * n + c.toNat) 7)
    let at4 (severity : Severity) (message : String) : Diagnostic :=
      ⟨.noRule, severity, message, [⟨⟨4, 9⟩, "", true⟩], []⟩
    let ds := [at4 .error "a", at4 .warning "b", at4 .error "a", at4 .error "c", at4 .error "d"]
    let es := [at4 .error "a", at4 .error "a", at4 .error "c", at4 .note "a", at4 .error "d"]
    let start : Queue hash := empty ⟨2, true⟩
    ds.filter Diagnostic.isError = es.filter Diagnostic.isError ∧
      start.errorAnswers ds = [true, false, true, false] ∧
      start.errorAnswers es = [true, false, true, false] ∧
      (start.run (ds.map .add)).held = [at4 .error "a", at4 .warning "b", at4 .error "c"] ∧
      (start.run (es.map .add)).errors = (start.run (ds.map .add)).errors := by
  intro hash at4 ds es start
  have h : ds.filter Diagnostic.isError = es.filter Diagnostic.isError := by decide
  have hsame := @errors_undisturbed hash ⟨2, true⟩ ds es h
  have hanswers : start.errorAnswers ds = [true, false, true, false] := by decide
  exact ⟨h, hanswers, hsame.1.symm.trans hanswers, by decide, hsame.2.1.symm⟩

section Flush

/-- Where a diagnostic stands: at the start of its first primary label, or at the beginning of the
source text if it has none. -/
def position (d : Diagnostic) : Nat :=
  match d.labels.filter Label.primary with
  | [] => 0
  | label :: _ => label.span.start

theorem sortKey_eq (d : Diagnostic) : sortKey d = position d := by
  rw [sortKey, Diagnostic.primarySpan?, ← List.head?_filter, position]
  cases d.labels.filter Label.primary with
  | nil => rfl
  | cons label rest => rfl

theorem sortKey_trans (c d e : Diagnostic) (hcd : decide (sortKey c ≤ sortKey d) = true)
    (hde : decide (sortKey d ≤ sortKey e) = true) : decide (sortKey c ≤ sortKey e) = true :=
  decide_eq_true ((of_decide_eq_true hcd).trans (of_decide_eq_true hde))

theorem sortKey_total (d e : Diagnostic) :
    (decide (sortKey d ≤ sortKey e) || decide (sortKey e ≤ sortKey d)) = true := by
  rw [Bool.or_eq_true, decide_eq_true_eq, decide_eq_true_eq]
  exact Nat.le_total _ _

theorem flush_perm (q : Queue hash) : q.flush.1.Perm q.held :=
  List.mergeSort_perm q.held _

theorem flush_pairwise (q : Queue hash) :
    q.flush.1.Pairwise fun d e => position d ≤ position e := by
  refine (List.pairwise_mergeSort sortKey_trans sortKey_total q.held).imp ?_
  intro d e h
  rw [← sortKey_eq, ← sortKey_eq]
  exact of_decide_eq_true h

theorem flush_filter (q : Queue hash) (n : Nat) :
    q.flush.1.filter (fun d => position d = n) = q.held.filter fun d => position d = n := by
  have hpairs : (q.held.filter fun d => position d = n).Pairwise fun d e =>
      decide (sortKey d ≤ sortKey e) = true := by
    refine List.pairwise_of_forall_mem_list ?_
    intro d hd e he
    have hd' := of_decide_eq_true (List.mem_filter.1 hd).2
    have he' := of_decide_eq_true (List.mem_filter.1 he).2
    rw [sortKey_eq, sortKey_eq, hd', he']
    exact decide_eq_true (Nat.le_refl n)
  have hsub := List.sublist_mergeSort sortKey_trans sortKey_total hpairs List.filter_sublist
  have hfilter := hsub.filter fun d => position d = n
  rw [List.filter_filter] at hfilter
  simp only [Bool.and_self] at hfilter
  exact (hfilter.eq_of_length ((q.flush_perm.filter _).length_eq.symm)).symm

end Flush

inductive Reply where
  | added (put : Bool)
  | emitted
  | listed (ds : List Diagnostic)

def reply (q : Queue hash) : Action → Reply
  | .add d => .added (q.add d).1
  | .emit _ => .emitted
  | .peek => .listed q.held
  | .flush => .listed q.flush.1

def replies (q : Queue hash) : List Action → List Reply
  | [] => []
  | action :: rest => q.reply action :: (q.after action).replies rest

/-- A flush hands over what the queue holds, in source order and as submitted where positions are
equal, and leaves a queue that behaves as a fresh one. -/
theorem flush_in_source_order (policy : QueuePolicy) (actions : List Action) :
    let q : Queue hash := (empty policy).run actions
    ∃ peeked flushed,
      q.reply .peek = .listed peeked ∧ q.reply .flush = .listed flushed ∧
      flushed.Perm peeked ∧
      flushed.Pairwise (fun d e => position d ≤ position e) ∧
      (∀ n, flushed.filter (fun d => position d = n) = peeked.filter fun d => position d = n) ∧
      peeked.Sublist (submitted actions) ∧
      q.after .flush = empty policy ∧
      ∀ later, (q.after .flush).replies later = (empty policy : Queue hash).replies later ∧
        (q.after .flush).run later = (empty policy).run later := by
  intro q
  have hfresh : q.after .flush = empty policy :=
    congrArg empty ((Consistent.empty policy).run actions).policy_eq
  refine ⟨q.held, q.flush.1, rfl, rfl, q.flush_perm, q.flush_pairwise, q.flush_filter,
    held_run_sublist .slnil actions, hfresh, ?_⟩
  intro later
  rw [hfresh]
  exact ⟨rfl, rfl⟩

end Queue

end ShaderFold
