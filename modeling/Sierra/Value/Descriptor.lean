import Sierra.Decl.Types
import Sierra.Value

/-!
# Descriptors

A descriptor says how values of a type lie in memory. Types are mentioned by number, so a table of
descriptors stands alone. A type with the representation of the type it wraps shares its descriptor.
-/

namespace Sierra

structure Descriptor where
  id : Nat
  shape : Shape
  name : String
  bits : Nat := 0
  size : Int
  align : Int
  range : Option (Int × Int) := none
  members : List Nat := []
  offsets : List Int := []
  elem : Nat := 0
  stride : Int := 0
  tagSize : Int := 0
  payloadOffset : Int := 0
  generic : String := ""
deriving DecidableEq, Repr, Inhabited

/-- In ascending order of type numbers. -/
structure Descriptors where
  entries : List (Nat × Descriptor) := []
deriving DecidableEq, Repr, Inhabited

namespace Descriptors

def find? (ds : Descriptors) (id : Nat) : Option Descriptor :=
  (ds.entries.find? fun entry => entry.1 == id).map (·.2)

def get (ds : Descriptors) (id : Nat) : Except Failure Descriptor :=
  match ds.find? id with
  | some d => .ok d
  | none => .error (.report .unexpectedValue s!"abi: no descriptor for type {id}" none)

/-- A present entry stays. -/
def insertEntry (id : Nat) (d : Descriptor) : List (Nat × Descriptor) → List (Nat × Descriptor)
  | [] => [(id, d)]
  | (i, e) :: rest =>
    if id < i then (id, d) :: (i, e) :: rest
    else if id = i then (i, e) :: rest
    else (i, e) :: insertEntry id d rest

def insert (ds : Descriptors) (id : Nat) (d : Descriptor) : Descriptors :=
  ⟨insertEntry id d ds.entries⟩

def erase (ds : Descriptors) (id : Nat) : Descriptors :=
  ⟨ds.entries.filter fun entry => entry.1 != id⟩

end Descriptors

namespace Descriptor

def shapeOf : TypeKind → Shape
  | .felt252 | .address => .felt
  | .uint | .bytes31 => .uint
  | .sint => .sint
  | .boundedInt => .bounded
  | .builtin | .gasBuiltin | .builtinCosts | .system => .builtin
  | .uninitialized => .uninit
  | .ecPoint => .ecPoint
  | .secpPoint => .secpPoint
  | .struct => .struct
  | .enum => .enum
  | .array => .array
  | .box => .box
  | .nullable => .nullable
  | .invalid | .nonZero | .snapshot => .invalid

/-- Given the numbers of the types it mentions and the layout of the type it wraps. -/
def ofInfo (id : TypeId) (info : TypeInfo) (numberOf : TypeId → Nat) (inner : Layout) :
    Descriptor :=
  let l := info.layout
  let base : Descriptor :=
    { id := id.number, shape := shapeOf info.kind, name := id.text, size := l.size
      align := l.align, generic := info.generic }
  match base.shape with
  | .felt | .uint | .sint | .bounded =>
    { base with bits := info.bits, range := do return (← info.lo, ← info.hi) }
  | .builtin => { base with bits := 64 }
  | .ecPoint | .secpPoint => { base with offsets := l.offsets }
  | .struct =>
    { base with
      name := if info.userType.name = "" then base.name else info.userType.name
      offsets := l.offsets, members := info.members.map numberOf }
  | .enum =>
    { base with
      name := if info.userType.name = "" then base.name else info.userType.name
      tagSize := l.tagSize, payloadOffset := l.payloadOffset
      members := info.members.map numberOf }
  | .array | .box | .nullable =>
    { base with elem := numberOf info.inner, stride := inner.stride }
  | .uninit | .invalid => base

end Descriptor

namespace Types

def describedNumber (ds : Descriptors) (id : TypeId) : Nat :=
  (ds.find? id.number).elim id.number (·.id)

def describe (t : Types) (ds : Descriptors) (id : TypeId) (info : TypeInfo) : Descriptors :=
  match info.kind with
  | .nonZero | .snapshot =>
    match ds.find? info.inner.number with
    | some d => ds.insert id.number d
    | none => ds
  | _ =>
    let inner := ((t.info? info.inner).map (·.layout)).getD Layout.unit
    ds.insert id.number (Descriptor.ofInfo id info (describedNumber ds) inner)

def descriptors (t : Types) : Descriptors :=
  t.entries.foldl (fun ds (id, info) => t.describe ds id info) {}

def mentioned (info : TypeInfo) : List TypeId :=
  match info.kind with
  | .struct | .enum => info.members
  | .nonZero | .snapshot | .array | .box | .nullable => [info.inner]
  | _ => []

/-- A type comes after those that mention it, in the reversed order of settling. -/
def reached (t : Types) (roots : List TypeId) : List Nat :=
  t.entries.reverse.foldl (fun seen (id, info) =>
    if seen.contains id.number then seen ++ (mentioned info).map (·.number) else seen)
    (roots.map (·.number))

def descriptorsFor (t : Types) (roots : List TypeId) : Descriptors :=
  let seen := t.reached roots
  ⟨t.descriptors.entries.filter fun entry => seen.contains entry.1⟩

end Types

end Sierra
