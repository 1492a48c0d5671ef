import Sierra.Libfunc.Clone

/-!
# Control flow, storage and gas

Calls, temporaries and locals, copies and drops, boxes and nullable pointers, and the handling of
gas.
-/

namespace Sierra.Libfunc

open Ir (Build)

def functionCall : GenericLibfunc := fun s args => do
  s.expectArgs args 1
  let callee ← match args with
    | .userFunc id :: _ => pure id
    | _ => s.invalid "argument must be a user function"
  match s.funcs.find? fun f => f.id.same callee with
  | none => .error (.decl (.undeclaredFunction callee.text) none)
  | some f =>
    return {
      generic := "function_call"
      params := f.paramTypes
      branches := [{ vars := f.retTypes, ap := .callee }]
      role := .call f.id
      code := fun site => do
        let results ← f.retTypes.mapM site.register
        site.leave 0 (← Build.call f.id.symbol results site.args) }

def requireStorable (s : Scope) (id : TypeId) (info : TypeInfo) : Except Failure Unit :=
  if info.storable then .ok () else s.invalid (id.text ++ " is not storable")

def storeTemp : GenericLibfunc := fun s args => do
  let (id, info) ← s.onlyType args
  requireStorable s id info
  return {
    generic := "store_temp"
    params := [id]
    branches := [{ vars := [id], ap := .known 1 }]
    role := .storeTemp
    code := forward }

def storeLocal : GenericLibfunc := fun s args => do
  let (id, info) ← s.onlyType args
  requireStorable s id info
  let place ← s.wrap "Uninitialized" id
  return simple "store_local" [place, id] [id] fun site => site.leave 0 [site.arg 1]

def allocLocal : GenericLibfunc := fun s args => do
  let (id, _) ← s.onlyType args
  let place ← s.wrap "Uninitialized" id
  return simple "alloc_local" [] [place] fun site => do
    site.leave 0 [← Build.zero (← site.register place)]

def marker (generic : String) (role : Role := .plain) : GenericLibfunc := fun s args => do
  s.expectArgs args 0
  return { simple generic [] [] nothing with role := role }

def rename : GenericLibfunc := fun s args => do
  let (id, _) ← s.onlyType args
  return simple "rename" [id] [id] forward

def dup : GenericLibfunc := fun s args => do
  let (id, info) ← s.onlyType args
  if !info.duplicatable then s.invalid (id.text ++ " is not duplicatable")
  else
    return simple "dup" [id] [id, id] fun site => site.leave 0 [site.arg 0, site.arg 0]

def drop : GenericLibfunc := fun s args => do
  let (id, info) ← s.onlyType args
  if !info.droppable then s.invalid (id.text ++ " is not droppable")
  else return simple "drop" [id] [] nothing

def snapshotTake : GenericLibfunc := fun s args => do
  let (id, info) ← s.onlyType args
  let snap ← s.snapshotOf id
  return simple "snapshot_take" [id] [id, snap] fun site => do
    if info.needsClone ∧ info.kind ≠ .snapshot then
      let name ← cloneFunc site.types id
      let t ← site.register id
      let copied ← Build.call name [t] [site.arg 0]
      site.leave 0 (site.arg 0 :: copied)
    else site.leave 0 [site.arg 0, site.arg 0]

def unwrapNonZero : GenericLibfunc := fun s args => do
  let (id, _) ← s.onlyType args
  let nz ← s.wrap "NonZero" id
  return simple "unwrap_non_zero" [nz] [id] forward

def intoBox : GenericLibfunc := fun s args => do
  let (id, _) ← s.onlyType args
  let box ← s.wrap "Box" id
  return simple "into_box" [id] [box] fun site => do
    let layout ← site.layout id
    let size ← i64 (max layout.size 1)
    let p ← Build.alloc size
    Build.store p (site.arg 0)
    site.leave 0 [p]

def unbox : GenericLibfunc := fun s args => do
  let (id, _) ← s.onlyType args
  let box ← s.wrap "Box" id
  return simple "unbox" [box] [id] fun site => do
    site.leave 0 [← Build.load (site.arg 0) (← site.register id)]

def null : GenericLibfunc := fun s args => do
  let (id, _) ← s.onlyType args
  let nullable ← s.wrap "Nullable" id
  return simple "null" [] [nullable] fun site => do site.leave 0 [← Build.const .ptr 0]

def nullableFromBox : GenericLibfunc := fun s args => do
  let (id, _) ← s.onlyType args
  let box ← s.wrap "Box" id
  let nullable ← s.wrap "Nullable" id
  return simple "nullable_from_box" [box] [nullable] forward

def matchNullable : GenericLibfunc := fun s args => do
  let (id, _) ← s.onlyType args
  let box ← s.wrap "Box" id
  let nullable ← s.wrap "Nullable" id
  return branching "match_nullable" [nullable] [[], [box]] fun site => do
    let zero ← zeroLike (site.arg 0)
    let isNull ← Build.icmp .eq (site.arg 0) zero
    site.leaveIf isNull 0 [] 1 site.args

/-! ## Gas -/

def withdraw (site : Site) : Build Unit := do
  let rc ← bump (site.arg 0)
  let gas := site.arg 1
  let amount ← i64 site.charge
  let ok ← Build.icmp .uge gas amount
  let left ← Build.sub gas amount
  site.leaveIf ok 0 [rc, left] 1 [rc, gas]

def withdrawGas : GenericLibfunc := fun s args => do
  s.expectArgs args 0
  let rc ← s.find "RangeCheck"
  let gas ← s.find "GasBuiltin"
  return { branching "withdraw_gas" [rc, gas] [[rc, gas], [rc, gas]] withdraw with
    role := .withdrawGas }

def withdrawGasAll : GenericLibfunc := fun s args => do
  s.expectArgs args 0
  let rc ← s.find "RangeCheck"
  let gas ← s.find "GasBuiltin"
  let costs ← s.find "BuiltinCosts"
  return { branching "withdraw_gas_all" [rc, gas, costs] [[rc, gas], [rc, gas]] withdraw with
    role := .withdrawGasAll }

def redepositGas : GenericLibfunc := fun s args => do
  s.expectArgs args 0
  let gas ← s.find "GasBuiltin"
  return { simple "redeposit_gas" [gas] [gas] (fun site => do
      if site.refund = 0 then site.leave 0 [site.arg 0]
      else
        let refund ← i64 site.refund
        site.leave 0 [← Build.add (site.arg 0) refund]) with
    role := .redepositGas }

def getAvailableGas : GenericLibfunc := fun s args => do
  s.expectArgs args 0
  let gas ← s.find "GasBuiltin"
  let u128 ← s.find "u128"
  return simple "get_available_gas" [gas] [gas, u128] fun site => do
    site.leave 0 [site.arg 0, ← Build.zext (site.arg 0) (.int 128)]

def getBuiltinCosts : GenericLibfunc := fun s args => do
  s.expectArgs args 0
  let costs ← s.find "BuiltinCosts"
  return simple "get_builtin_costs" [] [costs] fun site => do site.leave 0 [← i64 0]

def print : GenericLibfunc := fun s args => do
  s.expectArgs args 0
  let felt ← s.find "felt252"
  let arr ← s.wrap "Array" felt
  return simple "print" [arr] [] fun site => do
    let _ ← ask .debugPrint [site.arg 0]
    modify fun d => { d with prints := true }
    site.leave 0 []

def controlCatalog : List (String × GenericLibfunc) :=
  [("function_call", functionCall), ("store_temp", storeTemp), ("store_local", storeLocal),
    ("alloc_local", allocLocal), ("finalize_locals", marker "finalize_locals"),
    ("rename", rename), ("dup", dup), ("drop", drop), ("jump", marker "jump" .jump),
    ("branch_align", marker "branch_align"),
    ("disable_ap_tracking", marker "disable_ap_tracking" .disableApTracking),
    ("enable_ap_tracking", marker "enable_ap_tracking" .enableApTracking),
    ("snapshot_take", snapshotTake), ("unwrap_non_zero", unwrapNonZero), ("into_box", intoBox),
    ("unbox", unbox), ("null", null), ("nullable_from_box", nullableFromBox),
    ("match_nullable", matchNullable), ("withdraw_gas", withdrawGas),
    ("withdraw_gas_all", withdrawGasAll), ("redeposit_gas", redepositGas),
    ("get_builtin_costs", getBuiltinCosts), ("get_available_gas", getAvailableGas),
    ("print", print)]

end Sierra.Libfunc
