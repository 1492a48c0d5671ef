import Sierra.Libfunc.Basic

/-!
# Arrays

An array is a pointer to a buffer, the number of elements and the number that fit. Appending to a
full buffer doubles it. Elements are taken out as boxes.
-/

namespace Sierra.Libfunc

open Ir (Ty ValueId Build)

def arrayPtr : Nat := 0

def arrayLen : Nat := 8

def arrayCap : Nat := 12

def leastCapacity : Nat := 8

structure ArrayParts where
  ptr : ValueId
  len : ValueId
  cap : ValueId

def splitArray (v : ValueId) : Build ArrayParts := do
  let p ← Build.extract v arrayPtr .ptr
  let n ← Build.extract v arrayLen (.int 32)
  let c ← Build.extract v arrayCap (.int 32)
  return ⟨p, n, c⟩

def joinArray (t : Ty) (parts : ArrayParts) : Build ValueId := do
  let v ← Build.zero t
  let v ← Build.insert v parts.ptr arrayPtr
  let v ← Build.insert v parts.len arrayLen
  Build.insert v parts.cap arrayCap

/-- An enum without a tag has tag zero. -/
def loadTag (v : ValueId) (layout : Layout) : Build ValueId :=
  if layout.tagSize = 0 then Build.const (.int 8) 0
  else Build.extract v 0 (.int (layout.tagSize * 8))

def arrayTypes (s : Scope) (args : List GenericArg) :
    Except Failure (TypeId × Layout × TypeId) := do
  let (elem, info) ← s.onlyType args
  return (elem, info.layout, ← s.wrap "Array" elem)

def bytesOf (elem : Layout) (count : ValueId) : Build ValueId := do
  let count ← Build.zext count (.int 64)
  let stride ← i64 elem.stride
  Build.mul count stride

def elementAt (elem : Layout) (buffer index : ValueId) : Build ValueId := do
  let offset ← bytesOf elem index
  Build.ptradd buffer offset

def boxed (elem : Layout) (p : ValueId) : Build ValueId := do
  let size ← i64 (if elem.stride = 0 then 1 else elem.stride)
  let box ← Build.alloc size
  let length ← i64 elem.stride
  Build.memcpy box p length
  return box

def arrayNew : GenericLibfunc := fun s args => do
  let (_, _, arr) ← arrayTypes s args
  return simple "array_new" [] [arr] fun site => do
    site.leave 0 [← Build.zero (← site.register arr)]

def arrayAppend : GenericLibfunc := fun s args => do
  let (elem, layout, arr) ← arrayTypes s args
  return simple "array_append" [arr, elem] [arr] fun site => do
    let t ← Build.typeOf (site.arg 0)
    let parts ← splitArray (site.arg 0)
    let grow ← Build.newBlock
    let put ← Build.newBlock [.ptr, .int 32]
    let full ← Build.icmp .eq parts.len parts.cap
    Build.condBr full ⟨grow, []⟩ ⟨put, [parts.ptr, parts.cap]⟩
    Build.moveTo grow
    let doubled ← Build.add parts.cap parts.cap
    let least ← i32 leastCapacity
    let small ← Build.icmp .ult doubled least
    let first ← i32 leastCapacity
    let capacity ← Build.select small first doubled
    let oldBytes ← bytesOf layout parts.cap
    let newBytes ← bytesOf layout capacity
    let moved ← Build.realloc parts.ptr oldBytes newBytes
    Build.br put [moved, capacity]
    Build.moveTo put
    match ← Build.paramsOf put with
    | [buffer, room] =>
      let place ← elementAt layout buffer parts.len
      Build.store place (site.arg 1)
      let one ← i32 1
      let length ← Build.add parts.len one
      site.leave 0 [← joinArray t ⟨buffer, length, room⟩]
    | _ => throw (.native "append lost its buffer")

def arrayLength : GenericLibfunc := fun s args => do
  let (_, _, arr) ← arrayTypes s args
  let snap ← s.snapshotOf arr
  let u32 ← s.find "u32"
  return simple "array_len" [snap] [u32] fun site => do
    site.leave 0 [← Build.extract (site.arg 0) arrayLen (.int 32)]

def arrayGet : GenericLibfunc := fun s args => do
  let (elem, layout, arr) ← arrayTypes s args
  let rc ← s.find "RangeCheck"
  let snap ← s.snapshotOf arr
  let u32 ← s.find "u32"
  let box ← s.snapshotBox elem
  return branching "array_get" [rc, snap, u32] [[rc, box], [rc]] fun site => do
    let counter ← bump (site.arg 0)
    let parts ← splitArray (site.arg 1)
    let index := site.arg 2
    let inBounds ← Build.newBlock
    let outside ← site.edge 1 [counter]
    let fits ← Build.icmp .ult index parts.len
    Build.condBr fits ⟨inBounds, []⟩ outside
    Build.moveTo inBounds
    let place ← elementAt layout parts.ptr index
    site.leave 0 [counter, ← boxed layout place]

/-- An empty array is passed on or dropped. -/
def popFront (layout : Layout) (keepsEmpty : Bool) (site : Site) : Build Unit := do
  let t ← Build.typeOf (site.arg 0)
  let parts ← splitArray (site.arg 0)
  let nonEmpty ← Build.newBlock
  let none_ ← site.edge 1 (if keepsEmpty then site.args else [])
  let zero ← i32 0
  let isEmpty ← Build.icmp .eq parts.len zero
  Build.condBr isEmpty none_ ⟨nonEmpty, []⟩
  Build.moveTo nonEmpty
  let box ← boxed layout parts.ptr
  let one ← i32 1
  let stride ← i64 layout.stride
  let buffer ← Build.ptradd parts.ptr stride
  let length ← Build.sub parts.len one
  let room ← Build.sub parts.cap one
  let rest ← joinArray t ⟨buffer, length, room⟩
  site.leave 0 [rest, box]

def arrayPopFront : GenericLibfunc := fun s args => do
  let (elem, layout, arr) ← arrayTypes s args
  let box ← s.wrap "Box" elem
  return branching "array_pop_front" [arr] [[arr, box], [arr]] (popFront layout true)

def arrayPopFrontConsume : GenericLibfunc := fun s args => do
  let (elem, layout, arr) ← arrayTypes s args
  let box ← s.wrap "Box" elem
  return branching "array_pop_front_consume" [arr] [[arr, box], []] (popFront layout false)

def arraySnapshotPopFront : GenericLibfunc := fun s args => do
  let (elem, layout, arr) ← arrayTypes s args
  let snap ← s.snapshotOf arr
  let box ← s.snapshotBox elem
  return branching "array_snapshot_pop_front" [snap] [[snap, box], [snap]] (popFront layout true)

def arraySnapshotPopBack : GenericLibfunc := fun s args => do
  let (elem, layout, arr) ← arrayTypes s args
  let snap ← s.snapshotOf arr
  let box ← s.snapshotBox elem
  return branching "array_snapshot_pop_back" [snap] [[snap, box], [snap]] fun site => do
    let t ← Build.typeOf (site.arg 0)
    let parts ← splitArray (site.arg 0)
    let nonEmpty ← Build.newBlock
    let none_ ← site.edge 1 [site.arg 0]
    let zero ← i32 0
    let isEmpty ← Build.icmp .eq parts.len zero
    Build.condBr isEmpty none_ ⟨nonEmpty, []⟩
    Build.moveTo nonEmpty
    let one ← i32 1
    let last ← Build.sub parts.len one
    let place ← elementAt layout parts.ptr last
    let box ← boxed layout place
    let rest ← joinArray t ⟨parts.ptr, last, parts.cap⟩
    site.leave 0 [rest, box]

def arraySlice : GenericLibfunc := fun s args => do
  let (_, layout, arr) ← arrayTypes s args
  let rc ← s.find "RangeCheck"
  let snap ← s.snapshotOf arr
  let u32 ← s.find "u32"
  return branching "array_slice" [rc, snap, u32, u32] [[rc, snap], [rc]] fun site => do
    let counter ← bump (site.arg 0)
    let t ← Build.typeOf (site.arg 1)
    let parts ← splitArray (site.arg 1)
    let start := site.arg 2
    let length := site.arg 3
    let wideStart ← Build.zext start (.int 64)
    let wideLength ← Build.zext length (.int 64)
    let stop ← Build.add wideStart wideLength
    let total ← Build.zext parts.len (.int 64)
    let fits ← Build.icmp .ule stop total
    let inBounds ← Build.newBlock
    let outside ← site.edge 1 [counter]
    Build.condBr fits ⟨inBounds, []⟩ outside
    Build.moveTo inBounds
    let place ← elementAt layout parts.ptr start
    let slice ← joinArray t ⟨place, length, length⟩
    site.leave 0 [counter, slice]

def arrayCatalog : List (String × GenericLibfunc) :=
  [("array_new", arrayNew), ("array_append", arrayAppend), ("array_len", arrayLength),
    ("array_get", arrayGet), ("array_pop_front", arrayPopFront),
    ("array_pop_front_consume", arrayPopFrontConsume),
    ("array_snapshot_pop_front", arraySnapshotPopFront),
    ("array_snapshot_pop_back", arraySnapshotPopBack), ("array_slice", arraySlice)]

end Sierra.Libfunc
