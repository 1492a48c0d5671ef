import Sierra.Ir.Fold

/-!
# Dead code

An operation without side effects whose results nobody reads is removed, until a round removes
nothing. At a value number outside the function the pass stops, and what it has removed stays
removed.
-/

namespace Sierra.Ir.DeadCode

def readers? (counts : Array Nat) (v : ValueId) : Option Nat :=
  if v < 0 then none else counts[v.toNat]?

def addReader? (counts : Array Nat) (v : ValueId) : Option (Array Nat) :=
  if v < 0 ∨ counts.size ≤ v.toNat then none else some (counts.modify v.toNat (· + 1))

def dropReader? (counts : Array Nat) (v : ValueId) : Option (Array Nat) :=
  if v < 0 ∨ counts.size ≤ v.toNat then none else some (counts.modify v.toNat (· - 1))

def reads (b : Block) : List ValueId := b.ops.flatMap (·.args) ++ b.term.uses

def unread? (counts : Array Nat) : List ValueId → Option Bool
  | [] => some true
  | v :: rest => do
    let n ← readers? counts v
    if 0 < n then return false else unread? counts rest

def removable? (counts : Array Nat) (op : Op) : Option Bool :=
  if op.code.hasSideEffects then some false else unread? counts op.results

structure Swept (α : Type) where
  counts : Array Nat
  kept : List α
  removed : Nat
  isDone : Bool

def sweepOps : Array Nat → List Op → Swept Op
  | counts, [] => ⟨counts, [], 0, true⟩
  | counts, op :: rest =>
    match removable? counts op with
    | none => ⟨counts, [], 0, false⟩
    | some false =>
      let s := sweepOps counts rest
      { s with kept := op :: s.kept }
    | some true =>
      match op.args.foldlM dropReader? counts with
      | none => ⟨counts, [], 0, false⟩
      | some counts =>
        let s := sweepOps counts rest
        { s with removed := s.removed + 1 }

/-- Kept operations move to the front, so a block in which the sweep stops has those kept first and
all others as they were. -/
def sweepBlocks : Array Nat → List Block → Swept Block
  | counts, [] => ⟨counts, [], 0, true⟩
  | counts, b :: rest =>
    let s := sweepOps counts b.ops
    if s.isDone then
      let t := sweepBlocks s.counts rest
      { t with kept := { b with ops := s.kept } :: t.kept, removed := s.removed + t.removed }
    else
      ⟨s.counts, { b with ops := s.kept ++ b.ops.drop s.kept.length } :: rest, s.removed, false⟩

/-- At most as many removing sweeps as operations. -/
def sweeps : (fuel : Nat) → Array Nat → List Block → Swept Block
  | 0, counts, blocks => ⟨counts, blocks, 0, true⟩
  | fuel + 1, counts, blocks =>
    let s := sweepBlocks counts blocks
    if s.removed = 0 ∨ !s.isDone then s
    else
      let t := sweeps fuel s.counts s.kept
      { t with removed := s.removed + t.removed }

end DeadCode

def Func.prune (f : Func) : Passed :=
  let blocks := f.blocks.toList
  match (blocks.flatMap DeadCode.reads).foldlM DeadCode.addReader?
      (Array.replicate f.values.size 0) with
  | none => .stuck f
  | some counts =>
    let s := DeadCode.sweeps (f.opCount + 1) counts blocks
    let f := { f with blocks := s.kept.toArray }
    if s.isDone then .done f s.removed else .stuck f

end Sierra.Ir
