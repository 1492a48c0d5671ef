import Sierra.Clock
import Sierra.Text.Fixed
import Sierra.Text.Json
import Sierra.Trace.Event

/-!
# Written traces

An event with its time is written as a line for readers or as a line of JSON. A
sink writes the events that its level admits.
-/

namespace Sierra.Trace

inductive Format where
  | auto
  | text
  | json
deriving DecidableEq, Repr, Inhabited

namespace Format

def number : Format → Nat
  | auto => 0
  | text => 1
  | json => 2

def parse (name : String) : Except Failure Format :=
  match Text.lower name with
  | "" | "auto" => .ok auto
  | "text" => .ok text
  | "ndjson" | "json" => .ok json
  | _ =>
    .error (.plain ("invalid trace format " ++ Text.quote name ++
      " (want auto, text or ndjson)"))

def forPath (f : Format) (path : String) : Format :=
  match f with
  | auto => if path.endsWith ".ndjson" then json else text
  | f => f

end Format

structure Stamped where
  event : Event
  time : Instant
  sequence : Nat := 0
  thread : Nat := 0
  elapsed : Int := 0

namespace Stamped

def mark : EventKind → String
  | .spanBegin => "→"
  | .spanEnd => "←"
  | .point => "•"
  | .unlisted => ""

def line (s : Stamped) : String :=
  let e := s.event
  "[" ++ s.time.clockText ++ "] " ++ Text.padRight 9 e.scope.name ++ " " ++
    (if e.parent = 0 then "" else "  ") ++ mark e.kind ++ " " ++ e.name ++
    (if e.detail = "" then "" else " (" ++ e.detail ++ ")") ++
    (if e.extra.isEmpty then ""
      else " \x7b" ++ Text.join ", " (e.extra.map fun (k, v) => k ++ "=" ++ v) ++ "\x7d") ++
    (if e.kind = .spanEnd then " " ++ Text.fixed 2 (s.elapsed < 0) s.elapsed.natAbs 1000 ++ "ms"
      else "") ++ "\n"

def toJson (s : Stamped) : Text.Json :=
  let e := s.event
  let count (key : String) (n : Int) : List (String × Text.Json) :=
    if n = 0 then [] else [(key, .number n)]
  .object ([("time", .string s.time.text), ("seq", .number s.sequence),
      ("kind", .string e.kind.name), ("scope", .string e.scope.name)] ++
    count "span_id" e.span ++ count "parent_id" e.parent ++ count "gid" s.thread ++
    [("name", .string e.name)] ++
    (if e.detail = "" then [] else [("detail", .string e.detail)]) ++
    count "elapsed_us" s.elapsed ++
    (if e.extra.isEmpty then []
      else [("extra", .object (e.extra.map fun (k, v) => (k, .string v)))]))

def text (s : Stamped) : Format → String
  | .json => s.toJson.compact ++ "\n"
  | .auto | .text => s.line

end Stamped

def written (level : Level) (format : Format) (path : String) (events : List Stamped) : String :=
  String.join ((events.filter fun s => level.admits s.event.scope).map fun s =>
    s.text (format.forPath path))

end Sierra.Trace
