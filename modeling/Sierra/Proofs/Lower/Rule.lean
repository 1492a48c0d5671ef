import Sierra.Gas.Analysis
import Sierra.Machine.Run
import Sierra.Proofs.Lower.Store

/-!
# The stepping rule

An invocation takes its arguments out of the store; its code leaves through a branch with values for
the variables of the branch. An amount due is first paid from the first gas counter, or the run is
over. What the code of an invocation does is a parameter (`Conduct`).
-/

namespace Sierra.Lower

open Machine (Image World Stop)

abbrev Ending (σ : Type) := EStateM.Result Stop (World σ) (List Image)

/-- What the code of each invocation does, given its arguments. -/
structure Conduct (σ : Type) where
  leaves : (index : Int) → (args : List Image) → World σ → (branch : Nat) →
    (outputs : List Image) → World σ → Prop
  stops : (index : Int) → (args : List Image) → World σ → Ending σ → Prop

structure State (σ : Type) where
  index : Int
  store : Store
  world : World σ

def due (gas : Gas.Analysis) (index : Int) : Nat := (gas.injectedAt index).getD 0

def counter? (types : Types) (store : Store) : Option Binding :=
  store.bindings.find? fun b => (types.info? b.type).any fun info => info.kind == .gasBuiltin

def tick {σ : Type} (world : World σ) : World σ := { world with steps := world.steps + 1 }

def bindAll (vars : List (VarId × TypeId)) (images : List Image) : List Binding :=
  List.zipWith (fun entry image => ⟨entry.1, entry.2, image⟩) vars images

section Rule

variable {σ : Type} (s : Settled) (gas : Gas.Analysis) (f : Function) (code : Conduct σ)

inductive Pays : State σ → State σ → Prop
  | free {x : State σ} (hdue : due gas x.index = 0) : Pays x x
  | paid {x : State σ} {b : Binding} (hdue : 0 < due gas x.index)
      (hcounter : counter? s.types x.store = some b) (henough : due gas x.index ≤ b.image.word) :
      Pays x { x with
        store := x.store.set b.var (Bytes.ofNat 8 (b.image.word - due gas x.index))
        world := tick x.world }

inductive Moves : State σ → (branch : Nat) → State σ → Prop
  | mk {x y : State σ} {call : Invocation} {lib : Libfunc} {args outputs : List Image}
      {left : Store} {branch : Nat} {b : Branch} {signature : BranchSignature} {world : World σ}
      (hstatement : s.program.statement? x.index = some (.invoke call))
      (hlib : s.libfunc call.libfunc = .ok lib) (hpays : Pays s gas x y)
      (htake : y.store.take call.args = some (args, left))
      (hleaves : code.leaves x.index args y.world branch outputs world)
      (hbranch : call.branches[branch]? = some b) (hsignature : lib.branches[branch]? = some signature) :
      Moves x branch
        { index := b.target.resolve x.index
          store := left.bring (bindAll (b.results.zip signature.vars) outputs)
          world := world }

def shortage (index : Int) : Machine.Trap where
  code := .outOfGas
  message := "out of gas in " ++ f.id.text ++ s!" at statement {index}"
  function := f.id.symbol

inductive Finishes : State σ → Ending σ → Prop
  | returned {x y : State σ} {vars : List VarId} {images : List Image} {left : Store}
      (hstatement : s.program.statement? x.index = some (.ret vars)) (hpays : Pays s gas x y)
      (htake : y.store.take vars = some (images, left)) (hleft : left.bindings = []) :
      Finishes x (.ok images y.world)
  | short {x : State σ} {b : Binding} (hcounter : counter? s.types x.store = some b)
      (hshort : b.image.word < due gas x.index) :
      Finishes x (.error (.trap (shortage f x.index)) (tick x.world))
  | stopped {x y : State σ} {call : Invocation} {args : List Image} {left : Store} {r : Ending σ}
      (hstatement : s.program.statement? x.index = some (.invoke call)) (hpays : Pays s gas x y)
      (htake : y.store.take call.args = some (args, left))
      (hstops : code.stops x.index args y.world r) : Finishes x r

/-- The branches taken and where they lead. -/
inductive Follows : State σ → List (Nat × State σ) → State σ → Prop
  | here (x : State σ) : Follows x [] x
  | step {x y z : State σ} {branch : Nat} {path : List (Nat × State σ)}
      (hmoves : Moves s gas code x branch y) (hrest : Follows y path z) :
      Follows x ((branch, y) :: path) z

/-- The parameters have the values of the arguments. -/
def begins (args : List Image) (world : World σ) : State σ where
  index := f.entry
  store := Store.empty.bring (bindAll (f.params.map fun p => (p.var, p.type)) args)
  world := tick world

end Rule

end Sierra.Lower
