import Sierra.Heap
import Sierra.Value.Descriptor

/-!
# Images of values

Elements of arrays and contents of boxes are put on the heap. Writing checks the shape, the counts
and the ranges. Reading goes the other way.
-/

namespace Sierra.Value

open Heap (alloc read write)

structure Codec where
  types : Descriptors
  hasHeap : Bool := true

/-- What was done to the heap stays when a step fails. -/
abbrev Passing := Heap.Action

def lift {α : Type} : Except Failure α → Passing α
  | .ok a => pure a
  | .error e => throw e

def needRoom (size : Int) : Passing Unit :=
  if Bytes.canHold size then return () else throw (.crash none)

def needPart (whole offset size : Int) : Passing Unit :=
  if Bytes.holds whole.toNat offset size then return () else throw (.crash none)

def mismatch (d : Descriptor) (v : Value) : Failure :=
  .native ("abi: cannot pass " ++ v.shape.name ++ " value as " ++ d.name)

def checkRange (d : Descriptor) (n : Int) : Except Failure Unit :=
  match d.range with
  | none => .ok ()
  | some (lo, hi) =>
    if n < lo ∨ hi < n then
      .error (.report .unexpectedValue (s!"abi: {n} is outside [{lo}, {hi}] of " ++ d.name) none)
    else .ok ()

def Codec.needHeap (c : Codec) : Except Failure Unit :=
  if c.hasHeap then .ok () else .error (.native "abi: codec has no heap")

def place (whole : Bytes) (offset : Int) (part : Bytes) : Bytes :=
  whole.take offset.toNat ++ part ++ whole.drop (offset.toNat + part.length)

def twos (bits : Nat) (n : Int) : Nat := if n < 0 then (pow2 bits + n).toNat else n.toNat

/-- The lower half first. -/
def wideImage (n : Nat) : Bytes := Bytes.ofNat 16 n ++ Bytes.ofNat 16 (n / pow2 128)

def ofWideImage (b : Bytes) : Nat :=
  Bytes.toNat (b.take 16) + pow2 128 * Bytes.toNat ((b.drop 16).take 16)

/-- Pointer, length and capacity. -/
def arrayHeader (p count : Nat) : Bytes :=
  Bytes.ofNat 8 p ++ Bytes.ofNat 4 count ++ Bytes.ofNat 4 count

def encodeNumber (d : Descriptor) (sort : NumberSort) (n : Option Int) : Except Failure Bytes :=
  let wrong : Except Failure Bytes := .error (mismatch d (number sort n))
  match d.shape, sort, n with
  | .felt, .felt, some n => do
    let f := Felt.ofInt n
    checkRange d f.val
    return Bytes.fit d.size.toNat f.toBytes
  | .uint, .uint, some n | .uint, .sint, some n | .sint, .uint, some n | .sint, .sint, some n => do
    checkRange d n
    return Bytes.ofNat d.size.toNat (twos d.bits n)
  | .bounded, .bounded, some n => do
    checkRange d n
    match d.range with
    | some (lo, _) => return Bytes.ofNat d.size.toNat (n - lo).natAbs
    | none => .error (.crash none)
  | .builtin, .builtin, n =>
    let n := n.getD 0
    if n < 0 ∨ pow2 64 ≤ n then
      .error (.report .unexpectedValue s!"abi: builtin counter {n} does not fit 64 bits" none)
    else .ok (Bytes.fit d.size.toNat (Bytes.ofNat 8 n.toNat))
  | _, _, _ => wrong

def encodePoint (d : Descriptor) (sort : PointSort) (coords : List Int) : Except Failure Bytes :=
  match d.shape, sort, coords with
  | .ecPoint, .ec, [_, _] =>
    .ok ((coords.zip d.offsets).foldl (fun image (n, offset) =>
      place image offset (Felt.ofInt n).toBytes) (Bytes.zeros d.size.toNat))
  | .secpPoint, .secp, [_, _] =>
    (coords.zip d.offsets).foldlM (fun image (n, offset) =>
      if n < 0 ∨ pow2 256 ≤ n then
        .error (.report .unexpectedValue s!"abi: secp coordinate {n} is not a u256" none)
      else .ok (place image offset (wideImage n.toNat))) (Bytes.zeros d.size.toNat)
  | _, _, _ => .error (mismatch d (point sort coords))

def boxed (d : Descriptor) (image : Bytes) : Passing Nat := do
  let p ← alloc (max d.stride 1).toNat
  write p image
  return p

def encode (c : Codec) (d : Descriptor) : Value → Passing Bytes
  | number sort n => flat (number sort n) (encodeNumber d sort n)
  | point sort coords => flat (point sort coords) (encodePoint d sort coords)
  | struct fields =>
    if d.shape = .struct ∧ fields.length = d.members.length then
      encodeFields c d (d.members.zip d.offsets) 0 (Bytes.zeros d.size.toNat) fields
    else other (struct fields)
  | enum tag (some payload) =>
    match decide (d.shape = .enum ∧ 0 ≤ tag), d.members[tag.toNat]? with
    | true, some member => do
      let e ← lift (c.types.get member)
      needPart d.size d.payloadOffset e.size
      let image ← tryCatch (encode c e payload) fun cause =>
        throw (cause.wrapWith (d.name ++ s!" variant {tag}"))
      let tagged := place (Bytes.zeros d.size.toNat) 0 (Bytes.ofNat d.tagSize.toNat tag.toNat)
      return place tagged d.payloadOffset image
    | _, _ => other (enum tag (some payload))
  | array items =>
    if d.shape ≠ .array then other (array items)
    else if pow2 32 ≤ items.length then
      throw (.report .unexpectedValue s!"abi: array of {items.length} elements is too long" none)
    else if items.isEmpty then return arrayHeader 0 0
    else do
      let e ← lift (c.types.get d.elem)
      lift c.needHeap
      let room := Heap.address (d.stride * items.length)
      let p ← alloc room
      needRoom room
      write p (← encodeItems c d e room 0 items)
      return arrayHeader p items.length
  | nullable none =>
    if d.shape = .nullable then return Bytes.zeros d.size.toNat else other (nullable none)
  | box (some inner) =>
    if d.shape = .box ∨ d.shape = .nullable then do
      let e ← lift (c.types.get d.elem)
      lift c.needHeap
      contents e.size (encode c e inner)
    else other (box (some inner))
  | nullable (some inner) =>
    if d.shape = .box ∨ d.shape = .nullable then do
      let e ← lift (c.types.get d.elem)
      lift c.needHeap
      contents e.size (encode c e inner)
    else other (nullable (some inner))
  | enum tag none => other (enum tag none)
  | box none => other (box none)
  | invalid => other invalid
  | uninit => other uninit
where
  other (v : Value) : Passing Bytes :=
    match d.shape with
    | .invalid => throw (.native "abi: unsupported descriptor kind 0")
    | .uninit => return Bytes.zeros d.size.toNat
    | _ => throw (mismatch d v)
  flat (v : Value) (image : Except Failure Bytes) : Passing Bytes :=
    match d.shape with
    | .invalid | .uninit => other v
    | _ => lift image
  contents (size : Int) (inner : Passing Bytes) : Passing Bytes := do
    needRoom size
    let image ← tryCatch inner fun cause => throw (cause.wrapWith (d.name ++ " contents"))
    return Bytes.fit d.size.toNat (Bytes.ofNat 8 (← boxed d image))
  encodeFields (c : Codec) (d : Descriptor) (places : List (Nat × Int)) (index : Nat)
      (image : Bytes) : List Value → Passing Bytes
    | [] => return image
    | v :: rest =>
      match places with
      | [] => return image
      | (member, offset) :: places => do
        let e ← lift (c.types.get member)
        needPart d.size offset e.size
        let part ← tryCatch (encode c e v) fun cause =>
          throw (cause.wrapWith (d.name ++ s!" field {index}"))
        encodeFields c d places (index + 1) (place image offset part) rest
  encodeItems (c : Codec) (d e : Descriptor) (room index : Nat) : List Value → Passing Bytes
    | [] => return []
    | v :: rest => do
      needPart room (wrap64 (index * d.stride)) e.size
      let image ← tryCatch (encode c e v) fun cause =>
        throw (cause.wrapWith (d.name ++ s!" element {index}"))
      return Bytes.fit d.stride.toNat image ++ (← encodeItems c d e room (index + 1) rest)
termination_by structural v => v

def part (image : Bytes) (offset size : Nat) : Bytes := (image.drop offset).take size

def partOf (image : Bytes) (offset size : Int) : Passing Bytes := do
  needPart image.length offset size
  return part image offset.toNat size.toNat

/-- Cut to a width unless that is zero. -/
def lowBits (bits : Nat) (image : Bytes) : Nat :=
  if bits = 0 then Bytes.toNat image else Bytes.toNat image % pow2 bits

def decodeFlat (d : Descriptor) (image : Bytes) : Option Value :=
  let offset (i : Nat) : Nat := ((d.offsets[i]?).getD 0).toNat
  match d.shape with
  | .felt => some (ofFelt (Felt.ofBytes image))
  | .uint => some (number .uint (some (lowBits d.bits image)))
  | .sint =>
    let n : Int := lowBits d.bits image
    some (number .sint (some (if 0 < d.bits ∧ pow2 (d.bits - 1) ≤ n then n - pow2 d.bits else n)))
  | .bounded =>
    some (number .bounded (some (lowBits d.bits image + (d.range.elim 0 (·.1)))))
  | .builtin => some (number .builtin (some (Bytes.toNat (image.take 8))))
  | .uninit => some uninit
  | .ecPoint =>
    let at_ (i : Nat) : Int := (Felt.ofBytes (part image (offset i) 32)).val
    some (point .ec [at_ 0, at_ 1])
  | .secpPoint =>
    let at_ (i : Nat) : Int := ofWideImage (image.drop (offset i))
    some (point .secp [at_ 0, at_ 1])
  | _ => none

/-- Types may hold each other to a depth. -/
def decode (c : Codec) : (depth : Nat) → Descriptor → Bytes → Passing Value
  | 0, _, _ => throw (.crash none)
  | depth + 1, d, image =>
    match decodeFlat d image, d.shape with
    | some v, _ => return v
    | none, .struct => do
      let fields ← (d.members.zip d.offsets).mapM fun (member, offset) => do
        let e ← lift (c.types.get member)
        decode c depth e (← partOf image offset e.size)
      return struct fields
    | none, .enum => do
      let tag := Bytes.toNat (image.take d.tagSize.toNat)
      match d.members[tag]? with
      | none => throw (.native ("abi: " ++ d.name ++ s!" has no variant {tag}"))
      | some member =>
        let e ← lift (c.types.get member)
        return enum tag (some (← decode c depth e (← partOf image d.payloadOffset e.size)))
    | none, .array => do
      let p := Bytes.toNat (image.take 8)
      let count := Bytes.toNat (part image 8 4)
      if count = 0 then return array []
      if p = 0 then
        throw (.native ("abi: " ++ d.name ++ s!" of length {count} has a null buffer"))
      let e ← lift (c.types.get d.elem)
      lift c.needHeap
      let bytes ← read p (Heap.address (d.stride * count))
      let items ← (List.range count).mapM fun (i : Nat) => do
        decode c depth e (← partOf bytes (wrap64 (i * d.stride)) e.size)
      return array items
    | none, .box | none, .nullable => do
      let p := Bytes.toNat (image.take 8)
      if p = 0 then
        if d.shape = .nullable then return nullable none
        throw (.native ("abi: null " ++ d.name))
      let e ← lift (c.types.get d.elem)
      lift c.needHeap
      let inner ← decode c depth e (← read p (Heap.address e.size))
      return if d.shape = .nullable then nullable (some inner) else box (some inner)
    | none, _ => throw (.native "abi: unsupported descriptor kind 0")

def Codec.encode (c : Codec) (id : Nat) (v : Value) : Passing Bytes := do
  let d ← lift (c.types.get id)
  needRoom d.size
  Value.encode c d v

def Codec.decode (c : Codec) (id : Nat) (image : Bytes) : Passing Value := do
  let d ← lift (c.types.get id)
  if image.length < d.size then
    throw (.native ("abi: " ++ d.name ++ s!" image is {image.length} bytes, want {d.size}"))
  Value.decode c (c.types.entries.length + 1) d (← partOf image 0 d.size)

end Sierra.Value
