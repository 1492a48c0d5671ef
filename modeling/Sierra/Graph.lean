import Sierra.Failure

/-!
# Dependency graphs

An edge from `a` to `b` orders `a` before `b`. The layered order takes away, wave by wave and
ascending, all nodes whose predecessors are gone; what remains lies on a cycle or behind one.
-/

namespace Sierra

structure Graph where
  successors : Array (List Nat)
deriving DecidableEq, Repr

namespace Graph

def empty (size : Nat) : Graph := ⟨Array.replicate size []⟩

def ofSize (size : Int) : Except Failure Graph :=
  if Bytes.canHold (24 * size) then .ok (empty size.toNat) else .error (.crash none)

def size (g : Graph) : Nat := g.successors.size

def next (g : Graph) (node : Nat) : List Nat := (g.successors[node]?).getD []

/-- An edge is not repeated. -/
def insertEdge (g : Graph) (source target : Nat) : Graph :=
  if source < g.size ∧ target < g.size ∧ ¬ (g.next source).contains target then
    ⟨g.successors.modify source (· ++ [target])⟩
  else g

def addEdge (g : Graph) (source target : Nat) : Except Failure Graph :=
  if source < g.size ∧ target < g.size then .ok (g.insertEdge source target)
  else .error (.crash (some s!"dag: edge {source}->{target} out of range {g.size}"))

def edges (g : Graph) : List (Nat × Nat) :=
  (List.range g.size).flatMap fun source => (g.next source).map fun target => (source, target)

def reverse (g : Graph) : Graph :=
  g.edges.foldl (fun r edge => r.insertEdge edge.2 edge.1) (empty g.size)

def indegrees (g : Graph) : Array Nat :=
  g.edges.foldl (fun counts edge => counts.modify edge.2 (· + 1)) (Array.replicate g.size 0)

/-- A node whose count reaches zero joins the next wave. -/
def release (state : Array Nat × List Nat) (target : Nat) : Array Nat × List Nat :=
  let (counts, ready) := state
  let counts := counts.modify target (· - 1)
  if counts[target]? = some 0 then (counts, ready ++ [target]) else (counts, ready)

def takeWave (g : Graph) (counts : Array Nat) (wave : List Nat) : Array Nat × List Nat :=
  let (counts, ready) := (wave.flatMap g.next).foldl release (counts, [])
  (counts, ready.mergeSort (· ≤ ·))

/-- A wave takes a node away, so as many rounds as there are nodes are enough. -/
def wavesFrom (g : Graph) : (fuel : Nat) → Array Nat → List Nat → List (List Nat) × Array Nat
  | 0, counts, _ => ([], counts)
  | _ + 1, counts, [] => ([], counts)
  | fuel + 1, counts, node :: rest =>
    let (counts, following) := g.takeWave counts (node :: rest)
    let (waves, counts) := wavesFrom g fuel counts following
    ((node :: rest) :: waves, counts)

def indicesWhere (counts : Array Nat) (test : Nat → Bool) : List Nat :=
  (List.range counts.size).filter fun i => (counts[i]?).any test

structure Layers where
  batches : List (List Nat)
  /-- The nodes that lie on a cycle or behind one, ascending. -/
  cycles : List Nat
deriving DecidableEq, Repr

namespace Layers

def order (layers : Layers) : List Nat := layers.batches.flatten

def cyclic (layers : Layers) : Bool := !layers.cycles.isEmpty

end Layers

def layers (g : Graph) : Layers :=
  let counts := g.indegrees
  let (batches, rest) := g.wavesFrom (g.size + 1) counts (indicesWhere counts (· == 0))
  ⟨batches, indicesWhere rest (0 < ·)⟩

end Graph

end Sierra
