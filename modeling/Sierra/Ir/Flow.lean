import Sierra.Ir.Replace

/-!
# Simplifying control flow

A jump to a block that only jumps on goes to the end of the chain, with parameters replaced by what
is passed for them. Unreachable blocks are dropped. A block reached by one jump only, from a block
that always takes it, is joined to that block. A jump to no block or with too few values stops the
joining; earlier joins stay.
-/

namespace Sierra.Ir.Flow

/-- The entry and a block that jumps to itself do not count. -/
def passThrough? (f : Func) (id : BlockId) : Option (List ValueId × Edge) :=
  match f.block? id with
  | none => none
  | some b =>
    if id = f.entry then none
    else
      match b.ops, b.term with
      | [], .br edge => if edge.target ≠ id then some (b.params, edge) else none
      | _, _ => none

/-- Of several parameters of one name the last counts. -/
def passed (params args : List ValueId) (v : ValueId) : ValueId :=
  (((params.zip args).reverse.find? fun entry => entry.1 == v).map (·.2)).getD v

/-- A function has no more blocks than `fuel`. -/
def forward (f : Func) : (fuel : Nat) → (visited : List BlockId) → Edge → Edge
  | 0, _, e => e
  | fuel + 1, visited, e =>
    if visited.contains e.target then e
    else
      match passThrough? f e.target with
      | none => e
      | some (params, next) =>
        forward f fuel (e.target :: visited)
          { target := next.target, args := next.args.map (passed params e.args) }

/-- Earlier blocks are done. -/
def redirect (f : Func) (index : Nat) : Func :=
  { f with blocks := f.blocks.modify index fun b =>
      { b with term := b.term.mapEdges (forward f (f.blocks.size + 1) []) } }

def redirectAll (f : Func) : Func := (List.range f.blocks.size).foldl redirect f

/-- Every step takes a waiting block away, and a block adds the targets of its edges once. -/
def reach (f : Func) : (fuel : Nat) → (waiting : List BlockId) → Array Bool → Array Bool
  | 0, _, seen => seen
  | _ + 1, [], seen => seen
  | fuel + 1, id :: waiting, seen =>
    if id < 0 ∨ (seen[id.toNat]?).getD true then reach f fuel waiting seen
    else
      let targets := ((f.block? id).map fun b => b.term.edges.map (·.target)).getD []
      reach f fuel (targets ++ waiting) (seen.setIfInBounds id.toNat true)

def edgeCount (f : Func) : Nat := f.blocks.toList.foldl (fun n b => n + b.term.edges.length) 0

def reachable (f : Func) : Array Bool :=
  reach f (edgeCount f + 2) [f.entry] (Array.replicate f.blocks.size false)

def renumber (blocks : Array Block) : Array Block := blocks.mapIdx fun i b => { b with id := i }

def numbering (marks : Array Bool) : Array (Option Nat) :=
  (marks.foldl (fun (state : Nat × Array (Option Nat)) keep =>
    if keep then (state.1 + 1, state.2.push (some state.1)) else (state.1, state.2.push none))
    (0, #[])).2

def renamed? (names : Array (Option Nat)) (id : BlockId) : Option BlockId :=
  if id < 0 then none else ((names[id.toNat]?).getD none).map Int.ofNat

def compact (f : Func) (marks : Array Bool) : Func :=
  if marks.all id then { f with blocks := renumber f.blocks }
  else
    let names := numbering marks
    let kept := ((f.blocks.zip marks).filter (·.2)).map (·.1)
    let kept := kept.map fun b =>
      { b with term := b.term.mapEdges fun e =>
          { e with target := (renamed? names e.target).getD e.target } }
    { f with
      blocks := renumber kept
      isCleared := kept.isEmpty
      entry := (renamed? names f.entry).getD 0 }

end Flow

def Func.simplify (f : Func) : Func :=
  if f.blocks.isEmpty then f
  else
    let f := Flow.redirectAll f
    Flow.compact f (Flow.reachable f)

namespace Flow

/-- A negative number has no count. -/
def countEdge? (counts : Array Nat) (target : BlockId) : Option (Array Nat) :=
  if target < 0 then none else some (counts.modify target.toNat (· + 1))

def predecessors? (f : Func) : Option (Array Nat) :=
  (f.blocks.toList.flatMap fun b => b.term.edges.map (·.target)).foldlM countEdge?
    (Array.replicate f.blocks.size 0)

structure Merge where
  blocks : Array Block
  replaced : Replacements := {}
  merged : Array Bool

/-- Every parameter needs a value. -/
def bindAll? (r : Replacements) : (params args : List ValueId) → Option Replacements
  | [], _ => some r
  | _ :: _, [] => none
  | p :: params, a :: args => bindAll? (r.set p a) params args

def candidate? (entry : BlockId) (counts : Array Nat) (s : Merge) (index : Nat) :
    Option (Option (Nat × List ValueId)) :=
  match s.blocks[index]? with
  | none => some none
  | some p =>
    match p.term with
    | .br edge =>
      if edge.target = p.id ∨ edge.target = entry then some none
      else if edge.target < 0 then none
      else do
        let count ← counts[edge.target.toNat]?
        let gone ← s.merged[edge.target.toNat]?
        if count = 1 ∧ gone = false then return some (edge.target.toNat, edge.args)
        else return none
    | _ => some none

def join? (s : Merge) (index target : Nat) (args : List ValueId) : Option Merge := do
  let p ← s.blocks[index]?
  let succ ← s.blocks[target]?
  let replaced ← bindAll? s.replaced succ.params args
  let blocks := s.blocks.setIfInBounds index { p with ops := p.ops ++ succ.ops, term := succ.term }
  let blocks := blocks.setIfInBounds target
    { succ with ops := [], term := .trap .unreachable "" }
  return { blocks := blocks, replaced := replaced, merged := s.merged.setIfInBounds target true }

/-- Whether no jump was in the way comes back. Each joined block is gone, so there are fewer joins
than blocks. -/
def mergeAt (entry : BlockId) (counts : Array Nat) (index : Nat) :
    (fuel : Nat) → Merge → Merge × Bool
  | 0, s => (s, true)
  | fuel + 1, s =>
    match candidate? entry counts s index with
    | none => (s, false)
    | some none => (s, true)
    | some (some (target, args)) =>
      match join? s index target args with
      | none => (s, false)
      | some s => mergeAt entry counts index fuel s

def mergeFrom (entry : BlockId) (counts : Array Nat) : List Nat → Merge → Merge × Bool
  | [], s => (s, true)
  | index :: rest, s =>
    if (s.merged[index]?).getD true then mergeFrom entry counts rest s
    else
      match mergeAt entry counts index (s.blocks.size + 1) s with
      | (s, true) => mergeFrom entry counts rest s
      | (s, false) => (s, false)

end Flow

def Func.mergeLinear (f : Func) : Passed :=
  if f.blocks.isEmpty then .done f 0
  else
    let f := f.simplify
    match Flow.predecessors? f with
    | none => .stuck f
    | some counts =>
      let start : Flow.Merge :=
        { blocks := f.blocks, merged := Array.replicate f.blocks.size false }
      match Flow.mergeFrom f.entry counts (List.range f.blocks.size) start with
      | (s, false) => .stuck { f with blocks := s.blocks }
      | (s, true) =>
        let f := s.replaced.apply { f with blocks := s.blocks }
        .done (Flow.compact f (Flow.reachable f)) (s.merged.count true)

end Sierra.Ir
