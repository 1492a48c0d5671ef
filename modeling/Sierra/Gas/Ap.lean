import Sierra.Flow

/-!
# The allocation pointer

How far a function moves the allocation pointer, when every way through it moves it equally far. The
move may be known, unknown or untracked; ways that meet agree unless one is untracked.
-/

namespace Sierra.Gas

inductive ApState where
  | untracked
  | unknown
  | moved (n : Int)
deriving DecidableEq, Repr, Inhabited

namespace ApState

def text : ApState → String
  | untracked => "untracked"
  | unknown => "unknown"
  | moved n => s!"ap+{n}"

/-- `callee` is what is known of a function called. -/
def after (role : Role) (change : ApChange) (callee : FunctionId → ApChange) :
    ApState → ApState
  | state =>
    match role, state with
    | .disableApTracking, _ => untracked
    | .enableApTracking, untracked => unknown
    | _, untracked => untracked
    | _, unknown => unknown
    | role, moved n =>
      match change, role with
      | .known k, _ => moved (wrap64 (n + k))
      | .callee, .call f =>
        match callee f with
        | .known k => moved (wrap64 (n + k))
        | _ => unknown
      | _, _ => unknown

end ApState

structure ApWalk where
  states : Array (Option ApState)
  work : List Int

def ApWalk.stateOf (w : ApWalk) (index : Int) : Option ApState :=
  if index < 0 then none else (w.states[index.toNat]?).getD none

def ApWalk.revisit (w : ApWalk) (index : Int) (state : ApState) : ApWalk :=
  { states := w.states.modify index.toNat fun _ => some state, work := index :: w.work }

def ApWalk.arrive (f : Function) (origin target : Int) (state : ApState) (w : ApWalk) :
    Except Failure ApWalk :=
  match w.stateOf target with
  | none => .ok (w.revisit target state)
  | some known =>
    if known = state then .ok w
    else if known = .untracked then .ok w
    else if state = .untracked then .ok (w.revisit target .untracked)
    else
      .error (.gas (.inconsistentApChange f.id.text target
        (state.text ++ s!" from statement #{origin}, " ++ known.text ++ " before")))

def apStep (flow : Flow) (callee : FunctionId → ApChange) (index : Int) (w : ApWalk) :
    Except Failure ApWalk :=
  match flow.node? index, w.stateOf index with
  | some n, some state =>
    match n.libfunc with
    | none => .ok w
    | some f =>
      (n.edges.zip f.branches).foldlM (fun w (e, b) =>
        w.arrive flow.function index e.target (state.after f.role b.ap callee)) w
  | _, _ => .ok w

/-- A state changes at most twice: when it is first known, and when it stops being tracked. -/
def apLoop (flow : Flow) (callee : FunctionId → ApChange) : (fuel : Nat) → ApWalk →
    Except Failure ApWalk
  | 0, w => .ok w
  | fuel + 1, w =>
    match w.work with
    | [] => .ok w
    | index :: rest => do
      apLoop flow callee fuel (← apStep flow callee index { w with work := rest })

def apAtReturns : List (Option ApState) → ApChange
  | some (.moved n) :: rest => if rest.all (· == some (.moved n)) then .known n else .unknown
  | _ => .unknown

def apChangeOf (flow : Flow) (callee : FunctionId → ApChange) : Except Failure ApChange := do
  let size := flow.nodes.size
  let start : ApWalk := ⟨Array.replicate size none, []⟩
  let w ← apLoop flow callee (2 * size + 2) (start.revisit flow.function.entry (.moved 0))
  return apAtReturns ((flow.order.filter (·.isReturn)).map fun n => w.stateOf n.index)

end Sierra.Gas
