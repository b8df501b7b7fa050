import Mathlib.Data.List.ReduceOption
import ShaderFold.Proofs.Reporting

namespace ShaderFold

theorem mapM_id_eq {α : Type} (xs : List (Option α)) :
    xs.mapM id = if xs.all Option.isSome = true then some xs.reduceOption else none := by
  induction xs with
  | nil => rfl
  | cons x xs ih =>
    cases x with
    | none => rfl
    | some a =>
      rw [List.mapM_cons, ih, List.all_cons, List.reduceOption_cons_of_some]
      cases xs.all Option.isSome with
      | true => rfl
      | false => rfl

def Callee.fold (callee : Callee) (operands : List Constant) (span : Span) : Folded :=
  match callee with
  | builtin op => op.fold operands span
  | constructor target => target.construct operands span

theorem Callee.fold_request (callee : Callee) (operands : List Constant) (span : Span) :
    (callee.request operands span).fold = callee.fold operands span := by
  cases callee with
  | builtin op => rfl
  | constructor target => rfl

namespace Step

/-- What a step folds to by itself. A node is folded if all its children are constants. -/
def answer : Step → Answer
  | request (.binary op left right) => (op.fold left right).map some
  | request (.unary op operand resultTy) => (op.fold operand resultTy).map some
  | request (.builtin op operands span) => (op.fold operands span).map some
  | request (.construct target sources span) => (target.construct sources span).map some
  | node callee children span =>
    if allConstant children = true then (callee.fold children.reduceOption span).map some
    else .ok none

def place : Step → Span
  | request (.binary _ left right) => left.span.merge right.span
  | request (.unary _ operand _) => operand.span
  | request (.builtin _ _ span) | request (.construct _ _ span) | node _ _ span => span

theorem span_eq (step : Step) : step.span = step.place := by
  cases step with
  | node callee children span => rfl
  | request asked => cases asked <;> rfl

end Step

/-- What a diagnostic says apart from its texts. -/
structure Diagnostic.Outline where
  code : Code
  severity : Severity
  places : List Span
  noteCount : Nat

def Diagnostic.outline (d : Diagnostic) : Outline :=
  ⟨d.code, d.severity, d.labels.map Label.span, d.notes.length⟩

def Step.outlines (strict : Bool) (step : Step) : List Diagnostic.Outline :=
  match step.answer with
  | .ok _ => []
  | .error failure =>
    if strict = true then
      [⟨failure.code, .error, [step.place], 0⟩, ⟨.notConstant, .error, [step.place], 0⟩]
    else [⟨failure.code, .warning, [step.place], 1⟩]

namespace Folder

section Answers

variable {σ : Type} [Sink σ]

theorem foldNode_answer (folder : Folder σ) (callee : Callee) (children : List (Option Constant))
    (span : Span) :
    (folder.foldNode callee children span).1 = (Step.node callee children span).answer := by
  rw [foldNode, mapM_id_eq, Step.answer, allConstant]
  cases children.all Option.isSome with
  | false => rfl
  | true =>
    rw [if_pos rfl, if_pos rfl, ← Callee.fold_request]
    rfl

theorem take_eq_answer (folder : Folder σ) (step : Step) :
    (folder.take step).1 = step.answer := by
  cases step with
  | node callee children span => exact folder.foldNode_answer callee children span
  | request asked => cases asked <;> rfl

theorem run_eq_answers (folder : Folder σ) (steps : List Step) :
    (folder.run steps).1 = steps.map Step.answer := by
  induction steps generalizing folder with
  | nil => rfl
  | cons step rest ih =>
    rw [run, List.map_cons]
    exact congrArg₂ List.cons (folder.take_eq_answer step) (ih _)

theorem foldNode_eq_none_iff (folder : Folder σ) (callee : Callee)
    (children : List (Option Constant)) (span : Span) :
    (folder.foldNode callee children span).1 = .ok none ↔ allConstant children = false := by
  have hsome (outcome : Folded) : outcome.map some ≠ .ok none := by
    cases outcome <;> nofun
  rw [foldNode_answer, Step.answer]
  cases allConstant children with
  | false => exact iff_of_true rfl rfl
  | true => exact iff_of_false (hsome _) nofun

end Answers

def reportsOnStep (strict : Bool) (step : Step) : List Diagnostic :=
  reportsOn strict (step.failure? step.answer).toList

theorem reportsOn_failures (strict : Bool) (steps : List Step) :
    reportsOn strict (failures steps (steps.map Step.answer)) =
      steps.flatMap (reportsOnStep strict) := by
  induction steps with
  | nil => rfl
  | cons step rest ih =>
    rw [List.map_cons, failures_cons, reportsOn_append, ih, List.flatMap_cons, reportsOnStep]

theorem outline_reportsOnStep (strict : Bool) (step : Step) :
    (reportsOnStep strict step).map Diagnostic.outline = step.outlines strict := by
  rw [reportsOnStep, Step.outlines, ← Step.span_eq]
  cases step.answer with
  | ok node => rfl
  | error failure => cases strict <;> rfl

theorem sink_run (strict : Bool) (steps : List Step) :
    ((⟨[], strict⟩ : Folder (List Diagnostic)).run steps).2.sink =
      steps.flatMap (reportsOnStep strict) := by
  rw [run_folder, run_eq_answers, reportsOn_failures]
  exact foldl_emit_list [] _

/-- A folder with a list for its sink answers every step as its operation does by itself, keeps
the nodes that have a child which is not a constant, and lists the reports on the steps one after
the other: a pair of errors on a failure if it is strict, otherwise a warning with a note. -/
theorem run_only_reports (strict : Bool) (steps : List Step) :
    let start : Folder (List Diagnostic) := ⟨[], strict⟩
    (start.run steps).1 = steps.map Step.answer ∧
      (∀ (folder : Folder (List Diagnostic)) callee children span,
        (folder.foldNode callee children span).1 = .ok none ↔ allConstant children = false) ∧
      (start.run steps).2.sink = steps.flatMap (reportsOnStep strict) ∧
      (start.run steps).2.sink.map Diagnostic.outline = steps.flatMap (Step.outlines strict) := by
  intro start
  refine ⟨start.run_eq_answers steps, foldNode_eq_none_iff, sink_run strict steps, ?_⟩
  rw [sink_run, List.map_flatMap]
  simp only [outline_reportsOnStep]

end Folder

end ShaderFold
