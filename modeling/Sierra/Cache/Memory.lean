import Sierra.Artifact.Image
import Sierra.Invoke

/-!
# Compiled programs in memory

A key is compiled once until it is forgotten. A bounded number of executables stays live; the least
recently used one is kept as the bytes of its artifact. A failure is kept like a result.
-/

namespace Sierra

structure MemoryCache where
  /-- Any number when missing. -/
  capacity : Option Nat := none
  /-- The one used last in front. -/
  live : List (String × Executable) := []
  /-- The artifacts of executables that made room. -/
  spilled : List (String × Bytes) := []
  failed : List (String × Failure) := []
  compilations : Nat := 0

namespace MemoryCache

/-- A capacity that is not positive bounds nothing. -/
def new (capacity : Int) : MemoryCache :=
  { capacity := if 0 < capacity then some capacity.toNat else none }

def without {α : Type} (key : String) (entries : List (String × α)) : List (String × α) :=
  entries.filter fun e => e.1 ≠ key

def spill (c : MemoryCache) (entry : String × Executable) : MemoryCache :=
  { c with spilled := (entry.1, entry.2.artifact.encode) :: without entry.1 c.spilled }

/-- What exceeds the capacity is spilled. -/
def add (c : MemoryCache) (key : String) (x : Executable) : MemoryCache :=
  let live := (key, x) :: c.live
  match c.capacity with
  | none => { c with live := live }
  | some n => (live.drop n).foldl spill { c with live := live.take n }

/-- A live executable counts as used. -/
def lookup (c : MemoryCache) (key : String) : Option (Except Failure Executable × MemoryCache) :=
  match c.failed.lookup key with
  | some failure => some (.error failure, c)
  | none =>
    (c.live.lookup key).map fun x => (.ok x, { c with live := (key, x) :: without key c.live })

/-- Bytes that cannot be used are dropped. -/
def revive (c : MemoryCache) (key : String) : Option Executable × MemoryCache :=
  match c.spilled.lookup key with
  | none => (none, c)
  | some bytes =>
    let c := { c with spilled := without key c.spilled }
    match Artifact.decode bytes >>= Executable.load with
    | .ok x => (some x, c.add key x)
    | .error _ => (none, c)

/-- A cancellation says nothing about the program and is not kept. -/
def settle (c : MemoryCache) (key : String) (outcome : Except Failure Artifact) :
    Except Failure Executable × MemoryCache :=
  let c := { c with compilations := c.compilations + 1 }
  match outcome >>= fun a => Executable.load { a with key := key } with
  | .ok x => (.ok x, c.add key x)
  | .error failure =>
    (.error failure,
      if failure.isCancelled then c else { c with failed := (key, failure) :: c.failed })

def get (c : MemoryCache) (cancelled : Bool) (key : String)
    (compile : Unit → Except Failure Artifact) : Except Failure Executable × MemoryCache :=
  match c.lookup key with
  | some known => known
  | none =>
    if cancelled then (.error .cancelled, c)
    else
      match c.revive key with
      | (some x, c) => (.ok x, c)
      | (none, c) => c.settle key (compile ())

def forget (c : MemoryCache) (key : String) : MemoryCache :=
  { c with
    live := without key c.live
    spilled := without key c.spilled
    failed := without key c.failed }

end MemoryCache

end Sierra
