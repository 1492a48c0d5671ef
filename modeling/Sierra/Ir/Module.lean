import Sierra.Ir.Op

/-!
# Blocks, functions and modules

A function is an array of blocks over numbered values; its arguments are the parameters of the entry
block. A module is a list of functions with the host functions they may call.
-/

namespace Sierra.Ir

structure Block where
  id : BlockId
  params : List ValueId := []
  ops : List Op := []
  term : Terminator := .none
deriving DecidableEq, Repr, Inhabited

structure Func where
  name : String
  params : List Ty := []
  results : List Ty := []
  values : Array Ty := #[]
  blocks : Array Block := #[]
  /-- The image then holds an empty list of blocks instead of none. -/
  isCleared : Bool := false
  entry : BlockId := 0
  isPublic : Bool := false
deriving DecidableEq, Repr, Inhabited

namespace Func

def typeOf (f : Func) (v : ValueId) : Ty :=
  if v < 0 then .none else (f.values[v.toNat]?).getD .none

def block? (f : Func) (id : BlockId) : Option Block :=
  if id < 0 then none else f.blocks[id.toNat]?

end Func

/-- The function, and the number of changes unless the pass was stuck at code that makes no sense.
-/
structure Passed where
  func : Func
  changes : Option Nat

namespace Passed

def done (f : Func) (changes : Nat) : Passed := ⟨f, some changes⟩

def stuck (f : Func) : Passed := ⟨f, none⟩

def func? (p : Passed) : Option Func := p.changes.map fun _ => p.func

def andThen (p : Passed) (next : Func → Passed) : Passed :=
  if p.changes.isSome then next p.func else p

end Passed

structure RuntimeDecl where
  name : String
  params : List Ty := []
  results : List Ty := []
deriving DecidableEq, Repr, Inhabited

structure Module where
  name : String
  funcs : List Func := []
  runtime : List RuntimeDecl := []
deriving DecidableEq, Repr, Inhabited

namespace Module

def func? (m : Module) (name : String) : Option Func := m.funcs.find? fun f => f.name == name

def runtime? (m : Module) (name : String) : Option RuntimeDecl :=
  m.runtime.find? fun d => d.name == name

def declare (m : Module) (d : RuntimeDecl) : Module :=
  if (m.runtime? d.name).isSome then m else { m with runtime := m.runtime ++ [d] }

/-- Functions in order, up to one at which the pass is stuck. -/
def passAll (pass : Func → Passed) : List Func → List Func × Option (List Nat)
  | [] => ([], some [])
  | f :: rest =>
    match pass f with
    | ⟨f, none⟩ => (f :: rest, none)
    | ⟨f, some n⟩ =>
      let (rest, counts) := passAll pass rest
      (f :: rest, counts.map (n :: ·))

def run (m : Module) (pass : Func → Passed) : Module × Option (List Nat) :=
  let (funcs, counts) := passAll pass m.funcs
  ({ m with funcs := funcs }, counts)

end Module

end Sierra.Ir
