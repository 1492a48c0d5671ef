import Sierra.Decl.Settle

/-!
# Flow of variables

The reachable statements of a function with the typed variables live before each. An invocation
takes its arguments and each branch brings its results. All ways to a statement bring the same
variables, and a return uses up all of them.
-/

namespace Sierra

/-- In ascending order. -/
abbrev Vars := List (VarId × TypeId)

namespace Vars

def find? (vars : Vars) (v : VarId) : Option TypeId :=
  (List.find? (fun entry => entry.1 == v) vars).map (·.2)

def erase (vars : Vars) (v : VarId) : Vars := vars.filter fun entry => entry.1 != v

def insert (v : VarId) (t : TypeId) : Vars → Vars
  | [] => [(v, t)]
  | (u, s) :: rest => if v < u then (v, t) :: (u, s) :: rest else (u, s) :: insert v t rest

def same (a b : Vars) : Bool :=
  a.length == b.length && (a.zip b).all fun (x, y) => x.1 == y.1 && x.2.same y.2

end Vars

namespace Flow

structure Edge where
  target : Int
  results : List VarId
  types : List TypeId

structure Node where
  index : Int
  statement : Statement
  libfunc : Option Libfunc := none
  state : Vars
  edges : List Edge := []
  remaining : Vars := []

def Node.isReturn (n : Node) : Bool :=
  match n.statement with
  | .ret _ => true
  | .invoke _ => false

structure Walk where
  nodes : Array (Option Node)
  states : Array (Option Vars)
  preds : Array (List Int)
  /-- The statements to visit, next first. -/
  work : List Int

def Walk.start (size : Nat) (entry : Int) (state : Vars) : Walk :=
  { nodes := Array.replicate size none
    states := (Array.replicate size none).modify entry.toNat fun _ => some state
    preds := Array.replicate size []
    work := [entry] }

def fail {α : Type} (f : Function) (index : Int) (fault : FlowFault) : Except Failure α :=
  .error (.flow f.id.text index fault)

/-- Parameters have to be distinct. -/
def initial (f : Function) : Except Failure Vars :=
  f.params.foldlM (fun vars p =>
    if (vars.find? p.var).isSome then fail f f.entry (.variableOverride p.var)
    else .ok (vars.insert p.var p.type)) []

def takeArgs (f : Function) (index : Int) (libfunc : LibfuncId) (vars : Vars)
    (args : List (VarId × TypeId)) : Except Failure Vars :=
  args.zipIdx.foldlM (fun vars ((v, wanted), i) =>
    match vars.find? v with
    | none => fail f index (.missingVariable v)
    | some t =>
      if t.same wanted then .ok (vars.erase v)
      else
        fail f index (.typeMismatch v (s!"argument {i} of " ++ libfunc.text ++ " has type " ++
          t.text ++ ", want " ++ wanted.text))) vars

def bringResults (f : Function) (index : Int) (vars : Vars) (results : List (VarId × TypeId)) :
    Except Failure Vars :=
  results.foldlM (fun vars (v, t) =>
    if (vars.find? v).isSome then fail f index (.variableOverride v)
    else .ok (vars.insert v t)) vars

def checkReturn (f : Function) (index : Int) (state : Vars) (vars : List VarId) :
    Except Failure Unit := do
  if vars.length ≠ f.retTypes.length then
    fail f index (.typeMismatch 0 s!"returns {vars.length} values, want {f.retTypes.length}")
  let left ← (vars.zip f.retTypes).zipIdx.foldlM (fun (left : Vars) ((v, wanted), i) =>
    match left.find? v with
    | none => fail f index (.missingVariable v)
    | some t =>
      if t.same wanted then .ok (left.erase v)
      else
        fail f index (.typeMismatch v (s!"return value {i} has type " ++ t.text ++ ", want " ++
          wanted.text))) state
  match left with
  | [] => .ok ()
  | (v, _) :: _ => fail f index (.unconsumedVariable v)

/-- Results join the untouched variables, and the target has to expect exactly these. -/
def followBranch (p : Program) (f : Function) (index : Int) (libfunc : LibfuncId)
    (remaining : Vars) (number : Nat) (branch : Branch) (signature : BranchSignature)
    (walk : Walk) : Except Failure (Edge × Walk) := do
  if branch.results.length ≠ signature.vars.length then
    fail f index (.typeMismatch 0 (s!"branch {number} of " ++ libfunc.text ++
      s!" yields {signature.vars.length} values, got {branch.results.length}"))
  let next ← bringResults f index remaining (branch.results.zip signature.vars)
  let target := branch.target.resolve index
  if (p.statement? target).isNone then
    fail f index (.inconsistentState
      s!"branch {number} jumps to missing statement {target}")
  let at_ := target.toNat
  let walk := { walk with preds := walk.preds.modify at_ (· ++ [index]) }
  let edge : Edge := ⟨target, branch.results, signature.vars⟩
  match (walk.states[at_]?).getD none with
  | some known =>
    if known.same next then return (edge, walk)
    else
      fail f target (.inconsistentState
        s!"state from statement {index} differs from an earlier one")
  | none =>
    return (edge, { walk with
      states := walk.states.modify at_ fun _ => some next
      work := target :: walk.work })

/-- `number` is the place of the first branch. -/
def followBranches (p : Program) (f : Function) (index : Int) (libfunc : LibfuncId)
    (remaining : Vars) : (number : Nat) → List (Branch × BranchSignature) → Walk →
    Except Failure (List Edge × Walk)
  | _, [], walk => return ([], walk)
  | number, (branch, signature) :: rest, walk => do
    let (edge, walk) ← followBranch p f index libfunc remaining number branch signature walk
    let (edges, walk) ← followBranches p f index libfunc remaining (number + 1) rest walk
    return (edge :: edges, walk)

def visitInvocation (s : Settled) (f : Function) (index : Int) (state : Vars) (call : Invocation)
    (walk : Walk) : Except Failure (Node × Walk) := do
  let libfunc ← s.libfunc call.libfunc
  if call.args.length ≠ libfunc.params.length then
    fail f index (.typeMismatch 0 (call.libfunc.text ++
      s!" takes {libfunc.params.length} arguments, got {call.args.length}"))
  if call.branches.length ≠ libfunc.branches.length then
    fail f index (.typeMismatch 0 (call.libfunc.text ++
      s!" has {libfunc.branches.length} branches, got {call.branches.length}"))
  let remaining ← takeArgs f index call.libfunc state (call.args.zip libfunc.params)
  let (edges, walk) ← followBranches s.program f index call.libfunc remaining 0
    (call.branches.zip libfunc.branches) walk
  return ({ index := index, statement := .invoke call, libfunc := some libfunc, state := state,
            edges := edges, remaining := remaining }, walk)

def visit (s : Settled) (f : Function) (index : Int) (walk : Walk) : Except Failure Walk := do
  let state := ((walk.states[index.toNat]?).getD none).getD []
  match s.program.statement? index with
  | none => fail f index (.inconsistentState "statement out of range")
  | some (.ret vars) =>
    checkReturn f index state vars
    let node : Node := { index := index, statement := .ret vars, state := state }
    return { walk with nodes := walk.nodes.modify index.toNat fun _ => some node }
  | some (.invoke call) =>
    let (node, walk) ← visitInvocation s f index state call walk
    return { walk with nodes := walk.nodes.modify index.toNat fun _ => some node }

/-- A statement is put to work once, so as many rounds as there are statements are enough. -/
def explore (s : Settled) (f : Function) : (fuel : Nat) → Walk → Except Failure Walk
  | 0, walk => .ok walk
  | fuel + 1, walk =>
    match walk.work with
    | [] => .ok walk
    | index :: rest => do
      explore s f fuel (← visit s f index { walk with work := rest })

end Flow

structure Flow where
  function : Function
  nodes : Array (Option Flow.Node)
  /-- In the order of visits. -/
  preds : Array (List Int)

namespace Flow

def node? (g : Flow) (index : Int) : Option Node :=
  if index < 0 then none else (g.nodes[index.toNat]?).getD none

def order (g : Flow) : List Node := g.nodes.toList.filterMap id

def indices (g : Flow) : List Int := g.order.map (·.index)

def predsOf (g : Flow) (index : Int) : List Int :=
  if index < 0 then [] else (g.preds[index.toNat]?).getD []

def ofFunction (s : Settled) (f : Function) : Except Failure Flow := do
  let size := s.program.statements.size
  let walk ← explore s f (size + 1) (Walk.start size f.entry (← initial f))
  return { function := f, nodes := walk.nodes, preds := walk.preds }

end Flow

end Sierra
