import Sierra.Compile
import Sierra.Program.Image
import Sierra.Value.Descriptor

/-!
# Artifacts

A compiled program with what is needed to invoke it: code, descriptors and entry points.
-/

namespace Sierra

/-- A function that can be invoked. -/
structure EntryPoint where
  name : String
  function : Nat := 0
  params : List Nat := []
  returns : List Nat := []
  required : Nat := 0
  /-- The cost of the most expensive way through, or zero. -/
  worst : Nat := 0
  isUnbounded : Bool := false
deriving DecidableEq, Repr, Inhabited

structure Artifact where
  version : Int
  key : String := ""
  hash : String := ""
  options : String := ""
  module : Option Ir.Module := none
  types : Descriptors := {}
  entries : List EntryPoint := []
deriving Inhabited

namespace Artifact

def currentVersion : Int := 1

def entryOf (c : Compiled) (ds : Descriptors) (f : Function) : EntryPoint :=
  let number (id : TypeId) : Nat := Types.describedNumber ds id
  { name := f.id.symbol
    function := f.id.number
    params := f.paramTypes.map number
    returns := f.retTypes.map number
    required := c.gas.requiredGas f.id
    worst := (c.gas.worstCase f.id).getD 0
    isUnbounded := (c.gas.worstCase f.id).isNone }

def ofCompiled (c : Compiled) (options : CompileOptions) : Artifact :=
  let funcs := c.program.funcs
  let ds := c.settled.types.descriptorsFor (funcs.flatMap fun f => f.paramTypes ++ f.retTypes)
  { version := currentVersion
    hash := c.program.contentHash.hex
    options := options.fingerprint
    module := some c.module
    types := ds
    entries := funcs.map (entryOf c ds) }

def entry (a : Artifact) (name : String) : Except Failure EntryPoint :=
  match a.entries.find? fun e => e.name == name with
  | some e => .ok e
  | none => .error (.report .selectorNotFound ("no entry point " ++ Text.quote name) none)

/-- The parameters that the caller supplies: all but counters. -/
def userParams (a : Artifact) (e : EntryPoint) : Except Failure (List Nat) := do
  let ds ← e.params.mapM a.types.get
  return ((e.params.zip ds).filter fun (_, d) => d.shape ≠ .builtin).map (·.1)

/-! ## Checks -/

/-- Checks the parts of a type, to a depth; the types seen come back. -/
def checkType (types : Descriptors) : (depth : Nat) → (id : Nat) → (seen : List Nat) →
    Except Failure (List Nat)
  | 0, _, seen => .ok seen
  | depth + 1, id, seen =>
    if seen.contains id then .ok seen
    else do
      let seen := id :: seen
      let d ← types.get id
      if d.size < 0 then .error (.plain (d.name ++ s!" has size {d.size}"))
      match d.shape with
      | .struct =>
        if d.offsets.length ≠ d.members.length then
          .error (.plain (d.name ++
            s!" has {d.members.length} members but {d.offsets.length} offsets"))
        (d.members.zip d.offsets).zipIdx.foldlM (fun seen ((m, offset), i) => do
          let stop := wrap64 (offset + (← types.get m).size)
          if stop < 0 ∨ d.size < stop then
            .error (.plain (d.name ++ s!" member {i} ends past the struct"))
          checkType types depth m seen) seen
      | .enum =>
        d.members.zipIdx.foldlM (fun seen (m, i) => do
          if d.size < wrap64 (d.payloadOffset + (← types.get m).size) then
            .error (.plain (d.name ++ s!" variant {i} does not fit"))
          checkType types depth m seen) seen
      | .array | .box | .nullable => checkType types depth d.elem seen
      | _ => .ok seen

def checkEntry (types : Descriptors) (m : Ir.Module) (seen : List Nat) (e : EntryPoint) :
    Except Failure (List Nat) := do
  let place := "entry point " ++ e.name
  match m.func? e.name with
  | none => .error (.plain (place ++ " has no function"))
  | some f =>
    if !f.isPublic then .error (.plain (place ++ " is not public"))
    let seen ← (e.params ++ e.returns).foldlM (fun seen id =>
      (checkType types (types.entries.length + 1) id seen).mapError (Failure.noted place)) seen
    if !e.isUnbounded ∧ e.worst ≠ 0 ∧ e.worst < e.required then
      .error (.plain (place ++ s!" requires {e.required} gas, above its worst case {e.worst}"))
    return seen

/-- Checks that the code verifies, entry points name public functions, types are described and hold
together, and no bounded entry point needs more gas than its most expensive way. -/
def check (a : Artifact) : Except Failure Unit := do
  match a.module with
  | none => .error (.plain "nil artifact or module")
  | some m =>
    if a.version ≠ currentVersion then
      .error (.plain s!"artifact version {a.version}, want {currentVersion}")
    m.verify.mapError (Failure.noted "module does not verify")
    discard (a.entries.foldlM (checkEntry a.types m) [])

end Artifact

def Program.artifact (p : Program) (options : CompileOptions) (name : String := "") :
    Except Failure Artifact := do
  return Artifact.ofCompiled (← p.compile options name) options

end Sierra
