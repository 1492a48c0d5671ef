import Sierra.Failure
import Sierra.Text.Lower
import Sierra.Text.Quoted

/-!
# Trace events

Spans that begin and end and points in between. Each event has a scope; a level admits scopes that
are coarse enough. Spans are numbered from one; zero names none.
-/

namespace Sierra.Trace

inductive EventKind where
  | spanBegin
  | spanEnd
  | point
  | unlisted
deriving DecidableEq, Repr, Inhabited

namespace EventKind

def ofNumber : Nat → EventKind
  | 1 => spanBegin
  | 2 => spanEnd
  | 3 => point
  | _ => unlisted

def name : EventKind → String
  | spanBegin => "begin"
  | spanEnd => "end"
  | point => "point"
  | unlisted => "unknown"

end EventKind

structure Scope where
  number : Nat
deriving DecidableEq, Repr, Inhabited

namespace Scope

def driver : Scope := ⟨1⟩

def pass : Scope := ⟨2⟩

def function : Scope := ⟨3⟩

def statement : Scope := ⟨4⟩

def all : List Scope := [driver, pass, function, statement]

def name (s : Scope) : String :=
  match s.number with
  | 1 => "driver"
  | 2 => "pass"
  | 3 => "function"
  | 4 => "statement"
  | _ => "unknown"

end Scope

inductive Level where
  | off
  | error
  | phase
  | detail
  | debug
deriving DecidableEq, Repr, Inhabited

namespace Level

def all : List Level := [off, error, phase, detail, debug]

def name : Level → String
  | off => "off"
  | error => "error"
  | phase => "phase"
  | detail => "detail"
  | debug => "debug"

def rank (l : Level) : Nat := all.idxOf l

def parse (text : String) : Except Failure Level :=
  match all.find? fun l => Text.sameFolded l.name text with
  | some l => .ok l
  | none =>
    .error (.plain ("invalid trace level: " ++ Text.quote text ++
      " (expected: off|error|phase|detail|debug)"))

def admits (l : Level) (s : Scope) : Bool :=
  match l with
  | off | error => false
  | phase => s.number ≤ Scope.pass.number
  | detail => s.number ≤ Scope.function.number
  | debug => true

def isEnabled (l : Level) : Bool := l ≠ off

def highest (a b : Level) : Level := if a.rank < b.rank then b else a

end Level

structure Event where
  kind : EventKind
  scope : Scope
  span : Nat := 0
  parent : Nat := 0
  name : String := ""
  detail : String := ""
  /-- Keys and values in ascending order of the keys. -/
  extra : List (String × String) := []
deriving DecidableEq, Repr, Inhabited

def renumberSpan (known : List Nat) (span : Nat) : Nat × List Nat :=
  if span = 0 then (0, known)
  else
    match known.idxOf? span with
    | some i => (i + 1, known)
    | none => (known.length + 1, known ++ [span])

/-- From one, in the order in which spans are met. -/
def renumber : (known : List Nat) → List Event → List Event
  | _, [] => []
  | known, e :: rest =>
    let (span, known) := renumberSpan known e.span
    let (parent, known) := renumberSpan known e.parent
    { e with span := span, parent := parent } :: renumber known rest

def recorded (level : Level) (events : List Event) : List Event :=
  renumber [] (events.filter fun e => level.admits e.scope)

end Sierra.Trace
