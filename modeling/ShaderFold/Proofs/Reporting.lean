import ShaderFold.Folder
import ShaderFold.Proofs.InRange
import ShaderFold.Proofs.QueueConsistency

namespace ShaderFold

inductive Step where
  | request (asked : Request)
  | node (callee : Callee) (children : List (Option Constant)) (span : Span)

/-- The answer to a step; a node that is kept as it is folds to nothing. -/
abbrev Answer := Except Failure (Option Constant)

namespace Step

def span : Step → Span
  | request asked => asked.span
  | node _ _ span => span

def failure? (step : Step) (answer : Answer) : Option (Failure × Span) :=
  match answer with
  | .ok _ => none
  | .error failure => some (failure, step.span)

end Step

namespace Folder

variable {σ : Type} [Sink σ]

def take (folder : Folder σ) : Step → Answer × Folder σ
  | .request asked => ((folder.fold asked).1.map some, (folder.fold asked).2)
  | .node callee children span => folder.foldNode callee children span

def run (folder : Folder σ) : List Step → List Answer × Folder σ
  | [] => ([], folder)
  | step :: rest =>
    let (answer, folder) := folder.take step
    let (answers, folder) := folder.run rest
    (answer :: answers, folder)

/-- The failures that the answers to steps tell of, with their places. -/
def failures (steps : List Step) (answers : List Answer) : List (Failure × Span) :=
  (steps.zipWith Step.failure? answers).filterMap id

def reportsOn (strict : Bool) (failed : List (Failure × Span)) : List Diagnostic :=
  failed.flatMap fun (failure, span) => reports strict failure span

def emitAll (folder : Folder σ) (ds : List Diagnostic) : Folder σ :=
  { folder with sink := ds.foldl Sink.emit folder.sink }

theorem emitAll_append (folder : Folder σ) (ds es : List Diagnostic) :
    folder.emitAll (ds ++ es) = (folder.emitAll ds).emitAll es := by
  rw [emitAll, emitAll, emitAll, List.foldl_append]

theorem reportsOn_append (strict : Bool) (failed failed' : List (Failure × Span)) :
    reportsOn strict (failed ++ failed') = reportsOn strict failed ++ reportsOn strict failed' :=
  List.flatMap_append

theorem failures_cons (step : Step) (steps : List Step) (answer : Answer)
    (answers : List Answer) :
    failures (step :: steps) (answer :: answers) =
      (step.failure? answer).toList ++ failures steps answers := by
  rw [failures, List.zipWith_cons_cons, List.filterMap_cons]
  cases step.failure? answer with
  | none => rfl
  | some failed => rfl

theorem report_eq (folder : Folder σ) (step : Step) (outcome : Folded) :
    folder.report outcome step.span =
      folder.emitAll (reportsOn folder.strict (step.failure? (outcome.map some)).toList) := by
  cases outcome with
  | ok c => rfl
  | error failure =>
    have hone : reportsOn folder.strict [(failure, step.span)] =
        reports folder.strict failure step.span := List.append_nil _
    exact congrArg folder.emitAll hone.symm

theorem span_request (callee : Callee) (operands : List Constant) (span : Span) :
    (callee.request operands span).span = span := by
  cases callee with
  | builtin op => rfl
  | constructor target => rfl

theorem take_answer (folder folder' : Folder σ) (step : Step) :
    (folder.take step).1 = (folder'.take step).1 := by
  cases step with
  | request asked => rfl
  | node callee children span =>
    rw [take, take, foldNode, foldNode]
    cases children.mapM id with
    | none => rfl
    | some operands => rfl

theorem run_answers (folder folder' : Folder σ) (steps : List Step) :
    (folder.run steps).1 = (folder'.run steps).1 := by
  induction steps generalizing folder folder' with
  | nil => rfl
  | cons step rest ih =>
    rw [run, run]
    exact congrArg₂ List.cons (folder.take_answer folder' step) (ih _ _)

/-- A step reports its failure, if it fails, and does nothing else. -/
theorem take_folder (folder : Folder σ) (step : Step) :
    (folder.take step).2 =
      folder.emitAll (reportsOn folder.strict (step.failure? (folder.take step).1).toList) := by
  cases step with
  | request asked => exact folder.report_eq (.request asked) asked.fold
  | node callee children span =>
    rw [take, foldNode]
    cases children.mapM id with
    | none => rfl
    | some operands =>
      change folder.report _ (callee.request operands span).span = _
      rw [span_request]
      exact folder.report_eq (.node callee children span) _

theorem run_folder (folder : Folder σ) (steps : List Step) :
    (folder.run steps).2 =
      folder.emitAll (reportsOn folder.strict (failures steps (folder.run steps).1)) := by
  induction steps generalizing folder with
  | nil => rfl
  | cons step rest ih =>
    have hstep := folder.take_folder step
    have hstrict : (folder.take step).2.strict = folder.strict := by rw [hstep, emitAll]
    have hrest := ih (folder.take step).2
    rw [hstrict] at hrest
    rw [run, failures_cons, reportsOn_append, emitAll_append, ← hstep]
    exact hrest

theorem exists_request_of_take {folder : Folder σ} {step : Step} {failure : Failure}
    (h : (folder.take step).1 = .error failure) :
    ∃ request : Request, request.fold = .error failure := by
  have hmap {outcome : Folded} (h : outcome.map some = .error failure) :
      outcome = .error failure := by
    cases outcome with
    | error failure' => exact congrArg Except.error (Except.error.inj h)
    | ok c => cases h
  cases step with
  | request asked => exact ⟨asked, hmap h⟩
  | node callee children span =>
    rw [take, foldNode] at h
    cases hc : children.mapM id with
    | none =>
      rw [hc] at h
      cases h
    | some operands =>
      rw [hc] at h
      exact ⟨callee.request operands span, hmap h⟩

theorem exists_request_of_mem {folder : Folder σ} {steps : List Step} {failed : Failure × Span}
    (h : failed ∈ failures steps (folder.run steps).1) :
    ∃ request : Request, request.fold = .error failed.1 := by
  induction steps generalizing folder with
  | nil => cases h
  | cons step rest ih =>
    rw [run, failures_cons, List.mem_append] at h
    cases h with
    | inr h => exact ih h
    | inl h =>
      cases ha : (folder.take step).1 with
      | ok answer =>
        rw [ha] at h
        cases h
      | error failure =>
        rw [ha] at h
        cases List.mem_singleton.1 h
        exact exists_request_of_take ha

end Folder

def Failure.openings : List String :=
  ["constant folding failed: no fo", "constant folding failed: foldi",
    "constant folding failed: malfo"]

theorem starts_append {start : List Char} {text : String} (h : start <+: text.toList)
    (rest : String) : start <+: (text ++ rest).toList := by
  rw [String.toList_append]
  exact h.trans (List.prefix_append _ _)

theorem Failure.opening_diagnostic {failure : Failure} {start : String}
    (h : start.toList <+: failure.message.toList) (hlen : 5 ≤ start.toList.length)
    (severity : Severity) (span : Span) :
    (failure.diagnostic severity span).opening =
      "constant folding failed: ".toList ++ start.toList.take 5 := by
  obtain ⟨rest, hrest⟩ := h
  have hmessage : (failure.diagnostic severity span).message.toList =
      "constant folding failed: ".toList ++ failure.message.toList := String.toList_append
  rw [Diagnostic.opening, hmessage, List.take_append, ← hrest]
  exact congrArg _ (List.take_append_of_le_length hlen)

theorem Failure.opening_mem {failure : Failure}
    (h : ∀ index size, failure ≠ .outOfRange index size) (severity : Severity) (span : Span) :
    (failure.diagnostic severity span).opening ∈ openings.map String.toList := by
  cases failure with
  | unsupported op kind =>
    have hm : "no folding rule for ".toList <+: (unsupported op kind).message.toList :=
      starts_append (starts_append (starts_append (starts_append List.prefix_rfl _) _) _) _
    rw [opening_diagnostic hm (by decide)]
    decide
  | notFoldable op =>
    have hm : "folding ".toList <+: (notFoldable op).message.toList :=
      starts_append (starts_append List.prefix_rfl _) _
    rw [opening_diagnostic hm (by decide)]
    decide
  | malformed op cause =>
    have hm : "malformed operands for ".toList <+: (malformed op cause).message.toList :=
      starts_append (starts_append (starts_append List.prefix_rfl _) _) _
    rw [opening_diagnostic hm (by decide)]
    decide
  | outOfRange index size => exact absurd rfl (h index size)

/-- The hash tells the error of what is not constant from the reports of failures to fold. -/
def TellsApart (hash : List Char → UInt64) : Prop :=
  ∀ opening ∈ Failure.openings,
    hash opening.toList ≠ hash "expression is not a valid cons".toList

instance (hash : List Char → UInt64) : Decidable (TellsApart hash) :=
  inferInstanceAs (Decidable (∀ opening ∈ Failure.openings,
    hash opening.toList ≠ hash "expression is not a valid cons".toList))

theorem Folder.opening_notConstant (span : Span) :
    (notConstant span).opening = "expression is not a valid cons".toList := by
  change "expression is not a valid constant expression".toList.take 30 = _
  decide

theorem TellsApart.hash_ne {hash : List Char → UInt64} (h : TellsApart hash) {failure : Failure}
    (hf : ∀ index size, failure ≠ .outOfRange index size) (span place : Span) :
    hash (failure.diagnostic .error span).opening ≠ hash (Folder.notConstant place).opening := by
  obtain ⟨text, htext, hopening⟩ := List.mem_map.1 (Failure.opening_mem hf .error span)
  rw [← hopening, Folder.opening_notConstant]
  exact h text htext

namespace Folder

variable {hash : List Char → UInt64} {failed : List (Failure × Span)}

theorem isChain_reportsOn (h : TellsApart hash)
    (hf : ∀ f ∈ failed, ∀ index size, f.1 ≠ .outOfRange index size) :
    (reportsOn true failed).IsChain fun d e => d.key hash ≠ e.key hash := by
  induction failed with
  | nil => exact .nil
  | cons f rest ih =>
    -- The openings alternate, so it does not matter whether failures share their place and text.
    obtain ⟨hfirst, hrest⟩ := List.forall_mem_cons.1 hf
    have hpair : (f.1.diagnostic .error f.2).key hash ≠ (notConstant f.2).key hash := by
      intro hkey
      exact h.hash_ne hfirst f.2 f.2 (congrArg Prod.snd hkey)
    refine .cons_cons hpair ?_
    cases rest with
    | nil => exact .singleton _
    | cons g rest =>
      refine .cons_cons ?_ (ih hrest)
      intro hkey
      exact h.hash_ne (hrest g List.mem_cons_self) g.2 f.2 (congrArg Prod.snd hkey).symm

theorem isError_reportsOn : ∀ d ∈ reportsOn true failed, d.isError = true := by
  intro d hd
  obtain ⟨f, _, hd⟩ := List.mem_flatMap.1 hd
  have hpair : d ∈ [f.1.diagnostic .error f.2, notConstant f.2] := hd
  rcases List.mem_pair.1 hpair with rfl | rfl
  · rfl
  · rfl

theorem reportsOn_lenient :
    reportsOn false failed = failed.map fun (failure, span) =>
      (failure.diagnostic .warning span).addNote
        "the expression is left for run-time evaluation" :=
  List.map_eq_flatMap.symm

theorem not_isError_reportsOn : ∀ d ∈ reportsOn false failed, d.isError = false := by
  intro d hd
  rw [reportsOn_lenient] at hd
  obtain ⟨f, _, rfl⟩ := List.mem_map.1 hd
  rfl

theorem held_strict (h : TellsApart hash)
    (hf : ∀ f ∈ failed, ∀ index size, f.1 ≠ .outOfRange index size) (policy : QueuePolicy) :
    let q : Queue hash := (reportsOn true failed).foldl Sink.emit (.empty policy)
    q.held = policy.cut (reportsOn true failed) ∧ q.errorCount = q.held.length := by
  intro q
  have hheld : q.held = policy.cut (reportsOn true failed) :=
    Queue.held_errors isError_reportsOn fun _ => isChain_reportsOn h hf
  have hq : q.Consistent policy := (Queue.Consistent.empty policy).emit_all _
  refine ⟨hheld, ?_⟩
  rw [hq.errorCount_eq, Queue.errors_eq_cut hheld isError_reportsOn, hheld]

theorem emit_lenient (policy : QueuePolicy) :
    (reportsOn false failed).foldl Sink.emit (Queue.empty policy : Queue hash) =
      ⟨policy, reportsOn false failed, 0, none⟩ :=
  Queue.emit_others not_isError_reportsOn

end Folder

end ShaderFold
