import ShaderFold.Diagnostic.Basic

namespace ShaderFold

class Sink (σ : Type) where
  emit : σ → Diagnostic → σ

instance : Sink (List Diagnostic) where
  emit held d := held ++ [d]

theorem foldl_emit_list (held ds : List Diagnostic) : ds.foldl Sink.emit held = held ++ ds := by
  induction ds generalizing held with
  | nil => exact (List.append_nil held).symm
  | cons d ds ih => exact (ih (held ++ [d])).trans (List.append_assoc held [d] ds)

/-- How a queue filters errors. A limit of zero is no limit. -/
structure QueuePolicy where
  errorLimit : Nat
  deduplicate : Bool
deriving DecidableEq

namespace QueuePolicy

def standard : QueuePolicy := ⟨10, true⟩

def unlimited : QueuePolicy := ⟨0, false⟩

end QueuePolicy

def Diagnostic.opening (d : Diagnostic) : List Char :=
  d.message.toList.take 30

/-- What two errors have in common when one repeats the other: the primary place and the hash of
the opening of the message. -/
def Diagnostic.key (hash : List Char → UInt64) (d : Diagnostic) : Span × UInt64 :=
  (d.primarySpan?.getD .dummy, hash d.opening)

structure Queue (hash : List Char → UInt64) where
  policy : QueuePolicy
  held : List Diagnostic
  errorCount : Nat
  lastError : Option (Span × UInt64)
deriving DecidableEq

namespace Queue

variable {hash : List Char → UInt64}

def empty (policy : QueuePolicy) : Queue hash :=
  ⟨policy, [], 0, none⟩

def isFull (q : Queue hash) : Bool :=
  0 < q.policy.errorLimit && q.policy.errorLimit ≤ q.errorCount

def hasErrors (q : Queue hash) : Bool :=
  0 < q.errorCount

/-- Whether the queue turns a diagnostic away; it turns away errors only. -/
def refuses (q : Queue hash) (d : Diagnostic) : Bool :=
  d.isError && (q.isFull || q.policy.deduplicate && q.lastError = some (d.key hash))

def add (q : Queue hash) (d : Diagnostic) : Bool × Queue hash :=
  if q.refuses d then (false, q)
  else if d.isError then
    (true, ⟨q.policy, q.held ++ [d], q.errorCount + 1, some (d.key hash)⟩)
  else (true, { q with held := q.held ++ [d] })

def sortKey (d : Diagnostic) : Nat :=
  (d.primarySpan?.map Span.start).getD 0

/-- Hand over all diagnostics in source order, those at one offset as they were added, and start
afresh. -/
def flush (q : Queue hash) : List Diagnostic × Queue hash :=
  (q.held.mergeSort (fun d e => sortKey d ≤ sortKey e), empty q.policy)

instance : Sink (Queue hash) where
  emit q d := (q.add d).2

end Queue

end ShaderFold
