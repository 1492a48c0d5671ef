import Sierra.Packed

/-!
# Reading records from packed trees

A record is a map from field names to values: in any order, with unknown fields skipped and missing
ones zero. An array in its place gives all fields in order.

A field given again replaces a number, a text or bytes; in a record it changes the fields it names;
in a list the items it has, and an earlier item that it does not reach comes back when a later list
does. Nothing, and for a record also an empty array, takes away all that was given before. So a
decoder has two parts: the fault of one value, and what all values given for one place amount to.
-/

namespace Sierra.Packed

inductive Fault where
  | truncated
  | malformed
deriving DecidableEq, Repr, Inhabited

def fault? : Packed → Option Fault
  | cut _ => some .truncated
  | bad => some .malformed
  | array items | stopped _ items => firstOfItems items
  | map entries => firstOfEntries entries
  | _ => none
where
  firstOfItems : List Packed → Option Fault
    | [] => none
    | item :: rest => item.fault?.or (firstOfItems rest)
  firstOfEntries : List (Packed × Packed) → Option Fault
    | [] => none
    | (key, value) :: rest => (key.fault?.or value.fault?).or (firstOfEntries rest)
termination_by structural value => value

def unexpected (wanted : Form) : Packed → Fault
  | cut form => if form = .absent ∨ form = wanted then .truncated else .malformed
  | _ => .malformed

/-! ## Single values -/

def toInt : Packed → Except Fault Int
  | nil => .ok 0
  | int n => .ok n
  | uint8 n | uint64 n => .ok n
  | int32 n => .ok n
  | other => .error (other.unexpected .number)

def toBool : Packed → Except Fault Bool
  | nil => .ok false
  | bool b => .ok b
  | cut .absent => .error .truncated
  | _ => .error .malformed

def toText : Packed → Except Fault String
  | nil => .ok ""
  | str text => .ok text
  | bin data => .ok data.toText
  | other => .error (other.unexpected .text)

def toBytes : Packed → Except Fault Bytes
  | nil => .ok []
  | bin data => .ok data
  | str text => .ok (Bytes.ofString text)
  | other => .error (other.unexpected .text)

/-! ## Decoders -/

structure Decoder (α : Type) where
  fault? : Packed → Option Fault
  value : List Packed → α

namespace Decoder

def read {α : Type} (r : Decoder α) (p : Packed) : Except Fault α :=
  match r.fault? p with
  | some fault => .error fault
  | none => .ok (r.value [p])

def map {α β : Type} (f : α → β) (r : Decoder α) : Decoder β := ⟨r.fault?, fun given => f (r.value given)⟩

def last {α : Type} (zero : α) (read : Packed → Except Fault α) : Decoder α where
  fault? p := match read p with
    | .error fault => some fault
    | .ok _ => none
  value given := match given.getLast?.map read with
    | some (.ok value) => value
    | _ => zero

def word (bits : Nat) : Decoder Nat :=
  last 0 fun p => p.toInt.map fun (n : Int) => (n % (pow2 bits : Nat)).toNat

def signed (bits : Nat) : Decoder Int := last 0 fun p => p.toInt.map fun n => Int.bmod n (pow2 bits)

def bool : Decoder Bool := last false toBool

def text : Decoder String := last "" toText

def bytes : Decoder Bytes := last [] toBytes

/-- The values after the last one that takes away all before it. -/
def kept (isReset : Packed → Bool) (given : List Packed) : List Packed :=
  (given.reverse.takeWhile fun p => !isReset p).reverse

def optional {α : Type} (r : Decoder α) : Decoder (Option α) where
  fault? p := match p with
    | .nil => none
    | p => r.fault? p
  value given := match kept (fun | .nil => true | _ => false) given with
    | [] => none
    | values => some (r.value values)

/-! ### Lists -/

def items : Packed → List Packed
  | .array items => items
  | _ => []

def columns : (count : Nat) → List (List Packed) → List (List Packed)
  | 0, _ => []
  | count + 1, lists => lists.filterMap List.head? :: columns count (lists.map List.tail)

def list {α : Type} (r : Decoder α) : Decoder (List α) where
  fault? p := match p with
    | .nil => none
    | .array items | .stopped _ items => items.findSome? r.fault?
    | other => some (other.unexpected .array)
  value given :=
    let lists := (kept (fun | .nil => true | _ => false) given).map items
    (columns (lists.getLast?.getD []).length lists).map r.value

/-! ### Records -/

structure Field (α : Type) where
  name : String
  fault? : Packed → Option Fault
  set : α → List Packed → α

def Field.of {α β : Type} (name : String) (r : Decoder β) (put : α → β → α) : Field α :=
  ⟨name, r.fault?, fun record given => put record (r.value given)⟩

/-- Keys are texts, unknown entries are skipped. -/
def entriesFault? {α : Type} (fields : List (Field α)) : List (Packed × Packed) → Option Fault
  | [] => none
  | (key, value) :: rest =>
    match toText key with
    | .error fault => some fault
    | .ok name =>
      (match fields.find? fun (f : Field α) => f.name == name with
        | some f => f.fault? value
        | none => value.fault?).or (entriesFault? fields rest)

def positionsFault? {α : Type} : List (Field α) → List Packed → Option Fault
  | f :: fields, value :: rest => (f.fault? value).or (positionsFault? fields rest)
  | _, _ => none

def entries (names : List String) : Packed → List (String × Packed)
  | .map entries => entries.map fun (key, value) => (key.toText.toOption.getD "", value)
  | .array items => names.zip items
  | _ => []

def record {α : Type} (zero : α) (fields : List (Field α)) : Decoder α where
  fault? p := match p with
    | .nil => none
    | .map entries => entriesFault? fields entries
    | .array items =>
      if items.isEmpty then none
      else if items.length = fields.length then positionsFault? fields items
      else some .malformed
    | .stopped length items =>
      if length = fields.length then positionsFault? fields items else some .malformed
    | other => some (other.unexpected .map)
  value given :=
    let given := kept (fun | .nil | .array [] => true | _ => false) given
    let named := given.flatMap (entries (fields.map (·.name)))
    fields.foldl (fun record f =>
      f.set record (named.filterMap fun (name, value) => if name == f.name then some value else none))
      zero

end Decoder

end Sierra.Packed
