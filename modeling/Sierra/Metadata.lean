import Sierra.Gas.Analysis

/-!
# Side tables of a compilation

What the steps of a compilation leave for each other, at most one table of each kind.
A table is made when it is first needed.
-/

namespace Sierra

inductive TableKind where
  | gas
  | hostCalls
  | clones
  | debugHooks
  | prime
  | weights
deriving DecidableEq, Repr

namespace TableKind

/-- Numbers start from one. -/
def all : List TableKind := [gas, hostCalls, clones, debugHooks, prime, weights]

def name : TableKind → String
  | gas => "gas-metadata"
  | hostCalls => "runtime-bindings"
  | clones => "snapshot-clones"
  | debugHooks => "debug-utils"
  | prime => "prime-modulo"
  | weights => "builtin-costs"

def ofName? (text : String) : Option TableKind := all.find? fun k => k.name == text

def nameOfNumber (n : Nat) : String :=
  match n with
  | 0 => "metadata(0)"
  | i + 1 => ((all[i]?).map name).getD s!"metadata({n})"

end TableKind

structure Metadata where
  gas : Option Gas.Analysis := none
  hostCalls : Option (List String) := none
  clones : Option (List (Nat × String)) := none
  debugHooks : Option (List String) := none
  prime : Option Nat := none
  weights : Option Gas.Cost := none

namespace Metadata

def has (m : Metadata) : TableKind → Bool
  | .gas => m.gas.isSome
  | .hostCalls => m.hostCalls.isSome
  | .clones => m.clones.isSome
  | .debugHooks => m.debugHooks.isSome
  | .prime => m.prime.isSome
  | .weights => m.weights.isSome

def kinds (m : Metadata) : List TableKind := TableKind.all.filter m.has

def erase (m : Metadata) : TableKind → Metadata
  | .gas => { m with gas := none }
  | .hostCalls => { m with hostCalls := none }
  | .clones => { m with clones := none }
  | .debugHooks => { m with debugHooks := none }
  | .prime => { m with prime := none }
  | .weights => { m with weights := none }

/-- Other kinds are left alone. -/
def renew (m : Metadata) : TableKind → Metadata
  | .hostCalls => { m with hostCalls := some [] }
  | .clones => { m with clones := some [] }
  | .debugHooks => { m with debugHooks := some [] }
  | .prime => { m with prime := some Felt.prime }
  | .gas | .weights => m

def missing (k : TableKind) : Failure :=
  .report .missingMetadata ("missing metadata " ++ k.name) none

def useHook (m : Metadata) (hook : String) : Metadata :=
  let hooks := m.debugHooks.getD []
  { m with debugHooks := some (if hooks.contains hook then hooks else hooks ++ [hook]) }

def usedHooks (m : Metadata) : Except Failure (List String) :=
  match m.debugHooks with
  | some hooks => .ok (hooks.mergeSort (· ≤ ·))
  | none => .error (missing .debugHooks)

def fieldPrime (m : Metadata) : Except Failure Nat :=
  match m.prime with
  | some p => .ok p
  | none => .error (missing .prime)

/-- The first name is kept. -/
def registerClone (m : Metadata) (type : Nat) (name : String) : String × Metadata :=
  let known := m.clones.getD []
  match known.lookup type with
  | some first => (first, { m with clones := some known })
  | none => (name, { m with clones := some (known ++ [(type, name)]) })

def declareHost (m : Metadata) (declared : List Ir.RuntimeDecl) (name : String) :
    Except Failure (Ir.RuntimeDecl × List Ir.RuntimeDecl) × Metadata :=
  let called := m.hostCalls.getD []
  match Host.Service.ofName? name with
  | none =>
    (.error (.native ("unknown runtime function " ++ Text.quote name)),
      { m with hostCalls := some called })
  | some service =>
    let decl := service.declaration
    let declared := if declared.any fun d => d.name == name then declared else declared ++ [decl]
    let called := if called.contains name then called else called ++ [name]
    (.ok (decl, declared), { m with hostCalls := some called })

def ofDraft (gas : Gas.Analysis) (weights : Gas.Cost) (d : Ir.Draft) : Metadata :=
  { gas := some gas
    hostCalls := if d.runtime.isEmpty then none else some (d.runtime.map (·.name))
    clones := if d.clones.isEmpty then none else some d.clones
    debugHooks := if d.prints then some ["print"] else none
    prime := some Felt.prime
    weights := some weights }

end Metadata

end Sierra
