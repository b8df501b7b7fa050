namespace ShaderFold

/-- The stretch of source text from offset `start` up to offset `stop`. -/
structure Span where
  start : Nat
  stop : Nat
deriving DecidableEq

namespace Span

/-- The span of what has no place in a source text. -/
def dummy : Span := ⟨0, 0⟩

def isEmpty (s : Span) : Bool :=
  s.start = s.stop

def merge (s t : Span) : Span :=
  ⟨min s.start t.start, max s.stop t.stop⟩

def text (s : Span) : String :=
  s!"{s.start}..{s.stop}"

end Span

inductive Code where
  | notConstant
  | noRule
  | notImplemented
  | malformedOperands
deriving DecidableEq

namespace Code

def all : List Code :=
  [notConstant, noRule, notImplemented, malformedOperands]

def text : Code → String
  | notConstant => "E2001"
  | noRule => "E9001"
  | notImplemented => "E9002"
  | malformedOperands => "E9003"

/-- Whether the code tells of a shortcoming of the folder and not of the source text. -/
def isInternal (c : Code) : Bool :=
  c ≠ notConstant

def ofText? (s : String) : Option Code :=
  all.find? fun c => c.text.toList.map Char.toLower = s.toList.map Char.toLower

end Code

inductive Severity where
  | error
  | warning
  | note
deriving DecidableEq

def Severity.text : Severity → String
  | error => "error"
  | warning => "warning"
  | note => "note"

structure Label where
  span : Span
  message : String
  primary : Bool
deriving DecidableEq

structure Diagnostic where
  code : Code
  severity : Severity
  message : String
  labels : List Label
  notes : List String
deriving DecidableEq

namespace Diagnostic

def blank (severity : Severity) (code : Code) : Diagnostic :=
  ⟨code, severity, "", [], []⟩

def addLabel (d : Diagnostic) (label : Label) : Diagnostic :=
  { d with labels := d.labels ++ [label] }

def addNote (d : Diagnostic) (note : String) : Diagnostic :=
  { d with notes := d.notes ++ [note] }

def primarySpan? (d : Diagnostic) : Option Span :=
  (d.labels.find? Label.primary).map Label.span

def isError (d : Diagnostic) : Bool :=
  d.severity = .error

def text (d : Diagnostic) : String :=
  let label (l : Label) : String :=
    "\n  " ++ (if l.primary then "-->" else "   ") ++ " " ++ l.span.text ++ ": " ++ l.message
  let head := s!"{d.severity.text} [{d.code.text}]: {d.message}"
  String.join (head :: d.labels.map label ++ d.notes.map ("\n  = note: " ++ ·))

end Diagnostic

end ShaderFold
