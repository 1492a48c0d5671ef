import Sierra.Failure

/-!
# The heap

A linear memory with bump allocation. The first 16 bytes are reserved; blocks start at multiples of
16 and read as zero until written. A refused access leaves the heap as it was. Only the bytes up to
the last one written are held.

Addresses and sizes are 64-bit words. Three requests are crashes: a size for which the end of the
block wraps to an address within the limit, which cuts the heap there; one beyond all the room there
can be; and growing an empty block that lies beyond the room set aside, after the new block has been
handed out.
-/

namespace Sierra

/-- The bytes up to the last one written, how many are handed out, the limit, the count of
allocations and the room set aside. -/
structure Heap where
  data : ByteArray
  used : Nat
  limit : Nat
  allocations : Nat
  room : Nat

namespace Heap

def alignment : Nat := 16

def defaultLimit : Nat := pow2 30

def addressSpace : Nat := pow2 64

def address (n : Int) : Nat := (n % (addressSpace : Nat)).toNat

def addressLimit : Nat := pow2 63

def roomLimit : Nat := pow2 48

/-- A limit of zero asks for the default one. -/
def new (limit : Nat) : Heap where
  data := .empty
  used := alignment
  limit := if limit = 0 then defaultLimit else limit
  allocations := 0
  room := 4096

/-- In 64-bit words. -/
def rounded (size : Nat) : Nat :=
  (max size 1 + (alignment - 1)) % addressSpace / alignment * alignment

def allocFault? (h : Heap) (size : Nat) : Option Failure :=
  let exhausted := some (.heap ⟨"alloc", h.used, size, "heap exhausted"⟩)
  let stop := (h.used + rounded size) % addressSpace
  if rounded size < size then exhausted
  else if h.limit < stop then exhausted
  else if addressLimit ≤ stop then some (.heap ⟨"alloc", h.used, size, "out of range"⟩)
  else if stop < h.used ∨ roomLimit < stop then some (.crash none)
  else none

/-- The room doubles when it runs out. -/
def roomAt (h : Heap) (stop : Nat) : Nat :=
  if h.room < stop then max stop (2 * h.room) else h.room

def extend (h : Heap) (size : Nat) : Heap :=
  { h with
    used := h.used + rounded size
    allocations := h.allocations + 1
    room := h.roomAt (h.used + rounded size) }

abbrev Action := EStateM Failure Heap

/-- As it was, unless the end of the block wraps around. -/
def refuse (h : Heap) (size : Nat) (fault : Failure) : Heap :=
  let stop := (h.used + rounded size) % addressSpace
  match fault with
  | .crash _ =>
    if stop < h.used then { h with data := h.data.extract 0 stop, used := stop } else h
  | _ => h

def alloc (size : Nat) : Action Nat := fun h =>
  match h.allocFault? size with
  | some fault => .error fault (h.refuse size fault)
  | none => .ok h.used (h.extend size)

/-- An access to no bytes is never refused. -/
def accessFault? (h : Heap) (operation : String) (pointer count : Nat) : Option Failure :=
  if count = 0 then none
  else if pointer = 0 then some (.heap ⟨operation, pointer, count, "null pointer"⟩)
  else if addressSpace ≤ pointer + count ∨ h.used < pointer + count ∨ pointer < alignment then
    some (.heap ⟨operation, pointer, count, "out of bounds"⟩)
  else none

def byteAt (data : ByteArray) (address : Nat) : UInt8 :=
  if h : address < data.size then data.get address h else 0

/-- The last byte is read first. -/
def bytesFrom (data : ByteArray) (pointer : Nat) : (count : Nat) → (tail : Bytes) → Bytes
  | 0, tail => tail
  | count + 1, tail => bytesFrom data pointer count (byteAt data (pointer + count) :: tail)

def peek (h : Heap) (pointer count : Nat) : Bytes := bytesFrom h.data pointer count []

def pushZeros : (count : Nat) → ByteArray → ByteArray
  | 0, data => data
  | count + 1, data => pushZeros count (data.push 0)

def storeAt (data : ByteArray) (address : Nat) (b : UInt8) : ByteArray :=
  if h : address < data.size then data.set address b h
  else (pushZeros (address - data.size) data).push b

def storeFrom (data : ByteArray) (pointer : Nat) : Bytes → ByteArray
  | [] => data
  | b :: rest => storeFrom (storeAt data pointer b) (pointer + 1) rest

def poke (h : Heap) (pointer : Nat) (bytes : Bytes) : Heap :=
  { h with data := storeFrom h.data pointer bytes }

def read (pointer count : Nat) : Action Bytes := fun h =>
  match h.accessFault? "read" pointer count with
  | some fault => .error fault h
  | none => .ok (h.peek pointer count) h

def write (pointer : Nat) (bytes : Bytes) : Action Unit := fun h =>
  match h.accessFault? "write" pointer bytes.length with
  | some fault => .error fault h
  | none => .ok () (h.poke pointer bytes)

/-- The source is looked at first. -/
def copyFault? (h : Heap) (target source count : Nat) : Option Failure :=
  (h.accessFault? "copy" source count).or (h.accessFault? "copy" target count)

/-- As if through a buffer. -/
def move (h : Heap) (target source count : Nat) : Heap :=
  let bytes := h.peek source count
  h.poke target bytes

def copy (target source count : Nat) : Action Unit := fun h =>
  match h.copyFault? target source count with
  | some fault => .error fault h
  | none => .ok () (h.move target source count)

def grow (pointer oldSize newSize : Nat) : Action Nat := fun h =>
  match h.accessFault? "realloc" pointer oldSize with
  | some fault => .error fault h
  | none =>
    match alloc newSize h with
    | .error fault h => .error fault h
    | .ok fresh h =>
      if h.room < pointer then .error (.crash none) h
      else .ok fresh (h.move fresh pointer oldSize)

/-- A null pointer allocates; a block that does not grow stays in place; one that grows is copied.
-/
def realloc (pointer oldSize newSize : Nat) : Action Nat :=
  if pointer = 0 then alloc newSize
  else if newSize ≤ oldSize then pure pointer
  else grow pointer oldSize newSize

end Heap

end Sierra
