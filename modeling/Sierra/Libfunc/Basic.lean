import Sierra.Decl.Types
import Sierra.Host.Signature
import Sierra.Ir.Draft

/-!
# Library functions

A library function has parameters, and branches that yield values. It writes its code at a `Site`,
which has the arguments and a landing for each branch.
-/

namespace Sierra

open Ir (Ty ValueId BlockId Edge Build)

inductive ApChange where
  | known (n : Int)
  | unknown
  | callee
deriving DecidableEq, Repr, Inhabited

structure BranchSignature where
  vars : List TypeId := []
  ap : ApChange := .known 0
deriving DecidableEq, Repr, Inhabited

inductive Role where
  | plain
  | call (callee : FunctionId)
  | withdrawGas
  | withdrawGasAll
  | redepositGas
  | disableApTracking
  | enableApTracking
  | storeTemp
  | jump
deriving DecidableEq, Repr, Inhabited

namespace Role

def number : Role → Nat
  | plain => 0
  | call _ => 1
  | withdrawGas => 2
  | withdrawGasAll => 3
  | redepositGas => 4
  | disableApTracking => 5
  | enableApTracking => 6
  | storeTemp => 7
  | jump => 8

def isCheckpoint : Role → Bool
  | withdrawGas | withdrawGasAll => true
  | _ => false

def callee? : Role → Option FunctionId
  | call callee => some callee
  | _ => none

end Role

/-- A block, and the values it wants given those that the branch yields. -/
structure Landing where
  block : BlockId
  accept : List ValueId → Except Failure (List ValueId)

structure Site where
  types : Types
  statement : Int
  charge : Nat := 0
  refund : Nat := 0
  args : List ValueId := []
  landings : List Landing := []

namespace Site

def arg (s : Site) (i : Nat) : ValueId := (s.args[i]?).getD (-1)

def edge (s : Site) (branch : Nat) (outputs : List ValueId) : Build Edge :=
  match s.landings[branch]? with
  | none => throw (.native s!"statement {s.statement} has no branch {branch}")
  | some landing => do return ⟨landing.block, ← Build.lift (landing.accept outputs)⟩

def leave (s : Site) (branch : Nat) (outputs : List ValueId) : Build Unit := do
  Build.close (.br (← s.edge branch outputs))

def leaveIf (s : Site) (cond : ValueId) (yes : Nat) (yesOutputs : List ValueId) (no : Nat)
    (noOutputs : List ValueId) : Build Unit := do
  let yesEdge ← s.edge yes yesOutputs
  let noEdge ← s.edge no noOutputs
  Build.condBr cond yesEdge noEdge

def leaveBy (s : Site) (value : ValueId) (outputs : List (List ValueId)) : Build Unit := do
  if outputs.isEmpty || outputs.length != s.landings.length then
    throw (.native
      s!"switch with {outputs.length} outputs for {s.landings.length} branches")
  match ← outputs.zipIdx.mapM fun (values, branch) => s.edge branch values with
  | [only] => Build.close (.br only)
  | edges => Build.switch value edges

def register (s : Site) (id : TypeId) : Build Ty := Build.lift (s.types.register id)

def layout (s : Site) (id : TypeId) : Build Layout := Build.lift (s.types.layout id)

end Site

structure Libfunc where
  generic : String
  params : List TypeId := []
  branches : List BranchSignature := []
  role : Role := .plain
  code : Site → Build Unit

namespace Libfunc

def fallthrough (_ : Libfunc) : Nat := 0

def emit (f : Libfunc) (s : Site) : Build Unit :=
  if s.args.length = f.params.length then f.code s
  else
    throw (.native (f.generic ++
      s!" built with {s.args.length} arguments, signature has {f.params.length}"))

def simple (generic : String) (params outs : List TypeId) (code : Site → Build Unit) : Libfunc :=
  { generic := generic, params := params, branches := [{ vars := outs }], code := code }

def branching (generic : String) (params : List TypeId) (outs : List (List TypeId))
    (code : Site → Build Unit) : Libfunc :=
  { generic := generic, params := params, branches := outs.map fun vars => { vars := vars }
    code := code }

def forward (s : Site) : Build Unit := s.leave 0 s.args

def nothing (s : Site) : Build Unit := s.leave 0 []

end Libfunc

abbrev GenericLibfunc := Scope → List GenericArg → Except Failure Libfunc

namespace Libfunc

def i64 (n : Int) : Build ValueId := Build.const (.int 64) n

def i32 (n : Nat) : Build ValueId := Build.const (.int 32) n

def wide (n : Int) : Build ValueId := Build.const (.int 256) n

def prime : Build ValueId := Build.const (.int 252) Felt.prime

def bump (counter : ValueId) : Build ValueId := do Build.add counter (← i64 1)

def zeroLike (v : ValueId) : Build ValueId := do Build.const (← Build.typeOf v) 0

def ask (service : Host.Service) (args : List ValueId) : Build (List ValueId) :=
  Build.callHost service.declaration args

/-- As a signed word of 256 bits. -/
def widen (v : ValueId) (info : TypeInfo) : Build ValueId := do
  let w ← if info.kind = .sint then Build.sext v (.int 256) else Build.zext v (.int 256)
  if info.kind = .boundedInt ∧ info.least ≠ 0 then
    let lo ← wide info.least
    Build.add w lo
  else return w

def narrow (w : ValueId) (info : TypeInfo) : Build ValueId := do
  let stored ←
    if info.kind = .boundedInt ∧ info.least ≠ 0 then do
      let lo ← wide info.least
      Build.sub w lo
    else pure w
  Build.trunc stored (.int info.bits)

def inRange (w : ValueId) (info : TypeInfo) : Build ValueId := do
  let lo ← wide info.least
  let ge ← Build.icmp .sge w lo
  let hi ← wide info.greatest
  let le ← Build.icmp .sle w hi
  Build.binary .and ge le

/-- A negative integer is counted down from the modulus. -/
def toFelt (v : ValueId) (info : TypeInfo) : Build ValueId := do
  let w ← widen v info
  if 0 ≤ info.least then Build.trunc w (.int 252)
  else
    let zero ← wide 0
    let negative ← Build.icmp .slt w zero
    let modulus ← wide Felt.prime
    let shifted ← Build.add w modulus
    let chosen ← Build.select negative shifted w
    Build.trunc chosen (.int 252)

/-- For a type with negative values the upper half of the field counts down from the modulus. -/
def fromFelt (x : ValueId) (info : TypeInfo) : Build (ValueId × ValueId) := do
  let w ← Build.zext x (.int 256)
  let w ←
    if info.least < 0 then do
      let half ← wide ((Felt.prime / 2 : Nat) : Int)
      let negative ← Build.icmp .ugt w half
      let modulus ← wide Felt.prime
      let shifted ← Build.sub w modulus
      Build.select negative shifted w
    else pure w
  let v ← narrow w info
  return (v, ← inRange w info)

def requireInteger (s : Scope) (id : TypeId) (info : TypeInfo) : Except Failure Unit :=
  if info.isIntegerLike then .ok ()
  else .error (.rule .cast id.text s.declaring)

/-- Nothing for zero, else the value with that knowledge. -/
def isZeroOf (s : Scope) (generic : String) (id : TypeId) : Except Failure Libfunc := do
  let nz ← s.wrap "NonZero" id
  return branching generic [id] [[], [nz]] fun site => do
    let zero ← zeroLike (site.arg 0)
    let test ← Build.icmp .eq (site.arg 0) zero
    site.leaveIf test 0 [] 1 site.args

def tryFromFelt (generic : String) (rc felt id : TypeId) (info : TypeInfo) : Libfunc :=
  branching generic [rc, felt] [[rc, id], [rc]] fun site => do
    let counter ← bump (site.arg 0)
    let (v, ok) ← fromFelt (site.arg 1) info
    site.leaveIf ok 0 [counter, v] 1 [counter]

def constantOf (generic typeName : String) : GenericLibfunc := fun s args => do
  s.expectArgs args 1
  let v ← s.valueArg args 0
  let (id, info) ← s.findInfo typeName
  if !info.contains v then s.invalid s!"{v} out of range for {typeName}"
  else
    return simple generic [] [id] fun site => do
      site.leave 0 [← Build.const (.int info.bits) v]

end Libfunc

end Sierra
