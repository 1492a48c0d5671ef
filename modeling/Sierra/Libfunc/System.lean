import Sierra.Libfunc.Basic

/-!
# Curves, addresses and system calls

Curve points, types that hold a field element below a bound, and system calls, which yield a reason
when they fail.
-/

namespace Sierra.Libfunc

open Ir (ValueId Build)
open Host (Syscall CurveName)

/-! ## Points of the curve -/

structure EcTypes where
  felt : TypeId
  point : TypeId
  nonZero : TypeId
  info : TypeInfo

def ecTypes (s : Scope) (args : List GenericArg) : Except Failure EcTypes := do
  s.expectArgs args 0
  let felt ← s.find "felt252"
  let point ← s.find "EcPoint"
  let nonZero ← s.wrap "NonZero" point
  return ⟨felt, point, nonZero, ← s.types.info point⟩

def packPoint (t : EcTypes) (x y : ValueId) : Build ValueId := do
  let v ← Build.zero t.info.register
  let v ← Build.insert v x (t.info.layout.offset 0)
  Build.insert v y (t.info.layout.offset 1)

def coordinates (t : EcTypes) (p : ValueId) : Build (ValueId × ValueId) := do
  let x ← Build.extract p (t.info.layout.offset 0) (.int 252)
  let y ← Build.extract p (t.info.layout.offset 1) (.int 252)
  return (x, y)

def ecPointZero : GenericLibfunc := fun s args => do
  let t ← ecTypes s args
  return simple "ec_point_zero" [] [t.point] fun site => do
    site.leave 0 [← Build.zero t.info.register]

def ecPointTryNew : GenericLibfunc := fun s args => do
  let t ← ecTypes s args
  return branching "ec_point_try_new_nz" [t.felt, t.felt] [[t.nonZero], []] fun site => do
    let ok ← ask .ecPointTryNew [site.arg 0, site.arg 1]
    let p ← packPoint t (site.arg 0) (site.arg 1)
    site.leaveIf (ok.headD (-1)) 0 [p] 1 []

def ecPointFromX : GenericLibfunc := fun s args => do
  let t ← ecTypes s args
  let rc ← s.find "RangeCheck"
  return branching "ec_point_from_x_nz" [rc, t.felt] [[rc, t.nonZero], [rc]] fun site => do
    let counter ← bump (site.arg 0)
    match ← ask .ecPointFromX [site.arg 1] with
    | [ok, y] =>
      let p ← packPoint t (site.arg 1) y
      site.leaveIf ok 0 [counter, p] 1 [counter]
    | _ => throw (.native "point lost its coordinate")

def ecPointUnwrap : GenericLibfunc := fun s args => do
  let t ← ecTypes s args
  return simple "ec_point_unwrap" [t.nonZero] [t.felt, t.felt] fun site => do
    let (x, y) ← coordinates t (site.arg 0)
    site.leave 0 [x, y]

/-- Infinity alone has second coordinate zero. -/
def ecPointIsZero : GenericLibfunc := fun s args => do
  let t ← ecTypes s args
  return branching "ec_point_is_zero" [t.point] [[], [t.nonZero]] fun site => do
    let (_, y) ← coordinates t (site.arg 0)
    let zero ← Build.const (.int 252) 0
    let test ← Build.icmp .eq y zero
    site.leaveIf test 0 [] 1 site.args

def ecNeg : GenericLibfunc := fun s args => do
  let t ← ecTypes s args
  return simple "ec_neg" [t.point] [t.point] fun site => do
    let (x, y) ← coordinates t (site.arg 0)
    let zero ← Build.const (.int 252) 0
    let modulus ← prime
    let negative ← Build.modular .submod zero y modulus
    site.leave 0 [← packPoint t x negative]

/-! ## Addresses and short texts -/

def convert (generic source target : String) : GenericLibfunc := fun s args => do
  s.expectArgs args 0
  let (a, ai) ← s.findInfo source
  let (b, bi) ← s.findInfo target
  return simple generic [a] [b] fun site => do
    let w ← widen (site.arg 0) ai
    site.leave 0 [← narrow w bi]

def tryFromFeltTo (generic target : String) : GenericLibfunc := fun s args => do
  s.expectArgs args 0
  let rc ← s.find "RangeCheck"
  let felt ← s.find "felt252"
  let (id, info) ← s.findInfo target
  return tryFromFelt generic rc felt id info

def storageBaseFromFelt : GenericLibfunc := fun s args => do
  s.expectArgs args 0
  let rc ← s.find "RangeCheck"
  let felt ← s.find "felt252"
  let (id, info) ← s.findInfo "StorageBaseAddress"
  return simple "storage_base_address_from_felt252" [rc, felt] [rc, id] fun site => do
    let counter ← bump (site.arg 0)
    let bound ← Build.const (.int 252) (info.greatest + 1)
    site.leave 0 [counter, ← Build.binary .urem (site.arg 1) bound]

/-! ## System calls -/

structure SystemTypes where
  gas : TypeId
  system : TypeId
  felt : TypeId
  reason : TypeId
  span : TypeId

def systemTypes (s : Scope) : Except Failure SystemTypes := do
  let gas ← s.find "GasBuiltin"
  let system ← s.find "System"
  let felt ← s.find "felt252"
  let reason ← s.wrap "Array" felt
  return ⟨gas, system, felt, reason, ← s.snapshotOf reason⟩

/-- `shape` turns the results of the host into the values yielded. -/
def systemCall (s : Scope) (call : Syscall) (params outs : List TypeId)
    (shape : Site → List ValueId → Build (List ValueId) := fun _ values => pure values) :
    Except Failure Libfunc := do
  let t ← systemTypes s
  return branching (call.name ++ "_syscall") (t.gas :: t.system :: params)
      [t.gas :: t.system :: outs, [t.gas, t.system, t.reason]] fun site => do
    match ← ask (.syscall call) (site.arg 0 :: site.args.drop 2) with
    | gas :: failed :: reason :: values =>
      let values ← shape site values
      let system := site.arg 1
      site.leaveIf failed 1 [gas, system, reason] 0 (gas :: system :: values)
    | _ => throw (.native "system call lost its results")

def withoutArgs (f : Scope → Except Failure Libfunc) : GenericLibfunc := fun s args => do
  s.expectArgs args 0
  f s

def u256Name : String := "core::integer::u256"

def executionInfoName : String := "core::starknet::info::v2::ExecutionInfo"

def storageReadCall (s : Scope) : Except Failure Libfunc := do
  let u32 ← s.find "u32"
  let address ← s.find "StorageAddress"
  let felt ← s.find "felt252"
  systemCall s .storageRead [u32, address] [felt]

def storageWriteCall (s : Scope) : Except Failure Libfunc := do
  let u32 ← s.find "u32"
  let address ← s.find "StorageAddress"
  let felt ← s.find "felt252"
  systemCall s .storageWrite [u32, address, felt] []

def emitEventCall (s : Scope) : Except Failure Libfunc := do
  let t ← systemTypes s
  systemCall s .emitEvent [t.span, t.span] []

def blockHashCall (s : Scope) : Except Failure Libfunc := do
  let u64 ← s.find "u64"
  let felt ← s.find "felt252"
  systemCall s .getBlockHash [u64] [felt]

def executionInfoCall (s : Scope) : Except Failure Libfunc := do
  let info ← s.findUserType .struct executionInfoName
  let box ← s.wrap "Box" info
  systemCall s .getExecutionInfo [] [box]

def contractCall (s : Scope) : Except Failure Libfunc := do
  let t ← systemTypes s
  let address ← s.find "ContractAddress"
  systemCall s .callContract [address, t.felt, t.span] [t.span]

def messageCall (s : Scope) : Except Failure Libfunc := do
  let t ← systemTypes s
  systemCall s .sendMessage [t.felt, t.span] []

def keccakCall (s : Scope) : Except Failure Libfunc := do
  let u64 ← s.find "u64"
  let words ← s.wrap "Array" u64
  let span ← s.snapshotOf words
  let u256 ← s.findUserType .struct u256Name
  systemCall s .keccak [span] [u256]

def pointName : CurveName → String
  | .k1 => "Secp256k1Point"
  | .r1 => "Secp256r1Point"

def curveTypes (s : Scope) (curve : CurveName) : Except Failure (TypeId × TypeId) := do
  let point ← s.find (pointName curve)
  return (point, ← s.findUserType .struct u256Name)

def optionOf (option : TypeId) (site : Site) (values : List ValueId) : Build (List ValueId) := do
  match values with
  | [found, point] =>
    let layout ← site.layout option
    let t ← site.register option
    let some_ ← Build.const (.int (layout.tagSize * 8)) 0
    let none_ ← Build.const (.int (layout.tagSize * 8)) 1
    let tag ← Build.select found some_ none_
    let whole ← Build.zero t
    let tagged ← Build.insert whole tag 0
    return [← Build.insert tagged point layout.payloadOffset]
  | _ => throw (.native "point lost its flag")

def curveNewCall (curve : CurveName) (s : Scope) : Except Failure Libfunc := do
  let (point, u256) ← curveTypes s curve
  let option ← s.findOption point
  systemCall s (.secpNew curve) [u256, u256] [option] (optionOf option)

def curveAddCall (curve : CurveName) (s : Scope) : Except Failure Libfunc := do
  let (point, _) ← curveTypes s curve
  systemCall s (.secpAdd curve) [point, point] [point]

def curveGetCall (curve : CurveName) (s : Scope) : Except Failure Libfunc := do
  let (point, u256) ← curveTypes s curve
  systemCall s (.secpGetXY curve) [point] [u256, u256]

def syscallOf : Syscall → Scope → Except Failure Libfunc
  | .storageRead => storageReadCall
  | .storageWrite => storageWriteCall
  | .emitEvent => emitEventCall
  | .getBlockHash => blockHashCall
  | .getExecutionInfo => executionInfoCall
  | .callContract => contractCall
  | .sendMessage => messageCall
  | .keccak => keccakCall
  | .secpNew curve => curveNewCall curve
  | .secpAdd curve => curveAddCall curve
  | .secpGetXY curve => curveGetCall curve

def systemCatalog : List (String × GenericLibfunc) :=
  [("ec_point_zero", ecPointZero), ("ec_point_try_new_nz", ecPointTryNew),
    ("ec_point_from_x_nz", ecPointFromX), ("ec_point_unwrap", ecPointUnwrap),
    ("ec_point_is_zero", ecPointIsZero), ("ec_neg", ecNeg),
    ("storage_base_address_const", constantOf "storage_base_address_const" "StorageBaseAddress"),
    ("storage_base_address_from_felt252", storageBaseFromFelt),
    ("storage_address_from_base",
      convert "storage_address_from_base" "StorageBaseAddress" "StorageAddress"),
    ("contract_address_const", constantOf "contract_address_const" "ContractAddress"),
    ("contract_address_try_from_felt252",
      tryFromFeltTo "contract_address_try_from_felt252" "ContractAddress"),
    ("contract_address_to_felt252",
      convert "contract_address_to_felt252" "ContractAddress" "felt252"),
    ("bytes31_const", constantOf "bytes31_const" "bytes31"),
    ("bytes31_try_from_felt252", tryFromFeltTo "bytes31_try_from_felt252" "bytes31"),
    ("bytes31_to_felt252", convert "bytes31_to_felt252" "bytes31" "felt252")] ++
  Syscall.all.map fun call => (call.name ++ "_syscall", withoutArgs (syscallOf call))

end Sierra.Libfunc
