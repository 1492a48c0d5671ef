import Sierra.Text.Quoted
import Sierra.Text.Search
import Sierra.Toml.Written

/-!
# TOML documents

A table only passed through on the way to another is implied, and may be opened once by its own
header. A key is given one value; only an array may take the place of an array. Keys are remembered
in the order written.
-/

namespace Sierra.Toml

inductive Value where
  | string (text : String)
  | integer (value : Int)
  | float (text : String)
  | boolean (value : Bool)
  | time (text : String)
  | array (items : List Value)
  | table (entries : List (String × Value))
  | tables (items : List (List (String × Value)))
deriving Inhabited

abbrev Table := List (String × Value)

def Table.put (t : Table) (key : String) (v : Value) : Table :=
  match t with
  | [] => [(key, v)]
  | (other, old) :: rest =>
    if other = key then (key, v) :: rest else (other, old) :: Table.put rest key v

def Value.last? : Value → Option Table
  | .table entries => some entries
  | .tables items => items.getLast?
  | _ => none

def Value.withLast (t : Table) : Value → Value
  | .tables items => .tables (items.dropLast ++ [t])
  | _ => .table t

def Table.at? (t : Table) : Key → Option Table
  | [] => some t
  | key :: rest => do Table.at? (← (← t.lookup key).last?) rest

def Table.change? (f : Table → Table) (t : Table) : Key → Option Table
  | [] => some (f t)
  | key :: rest => do
    let v ← t.lookup key
    let inner ← Table.change? f (← v.last?) rest
    return t.put key (v.withLast inner)

structure Document where
  root : Table := []
  /-- Tables that may still be opened. -/
  implied : List Key := []
  /-- Keys whose last value is an array. -/
  arrays : List Key := []
  /-- The keys in the order in which they are written. -/
  keys : List Key := []
deriving Inhabited

namespace Document

def imply (d : Document) (key : Key) : Document := { d with implied := key :: d.implied }

def settle (d : Document) (key : Key) : Document :=
  { d with implied := d.implied.filter (· ≠ key) }

def note (d : Document) (key : Key) : Document := { d with keys := d.keys ++ [key] }

def markArray (d : Document) (full : Key) (isArray : Bool) : Document :=
  let others := d.arrays.filter (· ≠ full)
  { d with arrays := if isArray then full :: others else others }

/-- An empty key counts as its table. -/
def noteArray (d : Document) (context : Key) (key : String) (isArray : Bool) : Document :=
  d.markArray (if key = "" ∧ context ≠ [] then context else context ++ [key]) isArray

def assign (d : Document) (context : Key) (key : String) (v : Value) : Option Document := do
  let t ← d.root.at? context
  let full := context ++ [key]
  let put (d : Document) : Option Document := do
    return { d with root := ← d.root.change? (·.put key v) context }
  if (t.lookup key).isNone then put d
  else if d.arrays.contains full then put (d.settle full)
  else if d.implied.contains full then some (d.settle full)
  else none

def passThrough (d : Document) (done : Key) : Key → Option Document
  | [] => some d
  | key :: rest => do
    let t ← d.root.at? done
    match t.lookup key with
    | none =>
      let d := d.imply (done ++ [key])
      let root ← d.root.change? (·.put key (.table [])) done
      passThrough { d with root := root } (done ++ [key]) rest
    | some v => if v.last?.isSome then passThrough d (done ++ [key]) rest else none

def enter (d : Document) (key : Key) (intoArray : Bool) : Option Document := do
  let context := key.dropLast
  let name := key.getLastD ""
  let d ← d.passThrough [] context
  if intoArray then
    let t ← d.root.at? context
    let items ← match t.lookup name with
      | none => some []
      | some (.tables items) => some items
      | some _ => none
    return { d with root := ← d.root.change? (·.put name (.tables (items ++ [[]]))) context }
  else d.assign context name (.table [])

def enterParts (d : Document) (context : Key) : Key → Option (Document × Key)
  | [] => some (d, context)
  | part :: rest => do
    let next := context ++ [part]
    enterParts (← (d.imply next).enter next false) next rest

def isArrayTerm : Term → Bool
  | .array _ => true
  | _ => false

mutual

def valueOf (d : Document) (context : Key) (key : String) (inArray : Bool) :
    Term → Option (Document × Value)
  | .string text => some (d, .string text)
  | .integer n => some (d, .integer n)
  | .float text => some (d, .float text)
  | .boolean b => some (d, .boolean b)
  | .time text => some (d, .time text)
  | .array items => do
    let (d, values) ← valuesOf (d.noteArray context key true) context key items
    return (d, .array values)
  | .inline entries => do
    let inner := context ++ [key]
    let d ← (d.imply inner).enter inner inArray
    let (d, t) ← entriesOf d inner [] entries
    return (d, .table t)

def valuesOf (d : Document) (context : Key) (key : String) :
    List Term → Option (Document × List Value)
  | [] => some (d, [])
  | item :: rest => do
    let (d, v) ← valueOf d context key true item
    let (d, vs) ← valuesOf d context key rest
    return (d, v :: vs)

def entriesOf (d : Document) (context : Key) (t : Table) :
    List (Key × Term) → Option (Document × Table)
  | [] => some (d, t)
  | (key, term) :: rest => do
    let (d, inner) ← d.enterParts context key.dropLast
    let name := key.getLastD ""
    let (d, v) ← valueOf (d.note (inner ++ [name])) inner name false term
    let d ← d.assign inner name v
    entriesOf (d.noteArray inner name (isArrayTerm term)) context (t.put name v) rest

end

/-- The key of the table that is open comes back. -/
def addLine (d : Document) (context : Key) : Line → Option (Document × Key)
  | .table key => do
    let d ← d.enter key false
    return ((d.markArray key false).note key, key)
  | .tables key => do
    let d ← d.enter key true
    return ((d.markArray key false).note key, key)
  | .pair key term => do
    let (d, inner) ← d.enterParts context key.dropLast
    let name := key.getLastD ""
    let (d, v) ← valueOf (d.note (inner ++ [name])) inner name false term
    let d ← d.assign inner name v
    return (d.noteArray inner name (isArrayTerm term), context)

def ofLines (lines : List Line) : Option Document := do
  let (d, _) ← lines.foldlM (fun (d, context) line => addLine d context line)
    (({}, []) : Document × Key)
  return d

def parse (text : String) : Option Document := do ofLines (← lines text)

end Document

def keyChar (c : Char) : String :=
  match c with
  | '"' => "\\\""
  | '\\' => "\\\\"
  | '\x08' => "\\b"
  | '\t' => "\\t"
  | '\n' => "\\n"
  | '\x0c' => "\\f"
  | '\r' => "\\r"
  | _ =>
    if c.toNat < 0x20 ∨ c.toNat = 0x7f then
      let digits := (Text.hexNumeral c.toNat).toList
      "\\u" ++ String.ofList (List.replicate (4 - digits.length) '0' ++ digits)
    else String.singleton c

def keyPartText (part : String) : String :=
  if part ≠ "" ∧ part.toList.all isBare then part
  else "\"" ++ String.join (part.toList.map keyChar) ++ "\""

def keyText (key : Key) : String := Text.join "." (key.map keyPartText)

end Sierra.Toml
