import Sierra.Libfunc.Array

/-!
# Structs and enums

A struct is written member by member into a block of bytes, without members that have none. An enum
is its tag and the payload of one variant.
-/

namespace Sierra.Libfunc

open Ir (Ty ValueId Build)

def aggregateArg (s : Scope) (args : List GenericArg) (kind : TypeKind) :
    Except Failure (TypeId × TypeInfo) := do
  let (id, info) ← s.onlyType args
  if info.kind = kind then return (id, info)
  else s.invalid (id.text ++ " is a " ++ info.kind.name ++ ", want " ++ kind.name)

def insertAll (whole : ValueId) : List (ValueId × Int) → Build ValueId
  | [] => return whole
  | (part, offset) :: rest => do
    if (← Build.typeOf part).storeSize = 0 then insertAll whole rest
    else insertAll (← Build.insert whole part offset) rest

/-- A part without bytes is made from nothing. -/
def readPart (whole : ValueId) (offset : Int) (t : Ty) : Build ValueId :=
  if t.storeSize = 0 then Build.zero t else Build.extract whole offset t

def structConstruct : GenericLibfunc := fun s args => do
  let (id, info) ← aggregateArg s args .struct
  return simple "struct_construct" info.members [id] fun site => do
    let whole ← Build.zero info.register
    site.leave 0 [← insertAll whole (site.args.zip info.layout.offsets)]

def deconstruct (info : TypeInfo) (site : Site) : Build Unit := do
  let types ← info.members.mapM site.register
  let parts ← (types.zip info.layout.offsets).mapM fun (t, offset) =>
    readPart (site.arg 0) offset t
  site.leave 0 parts

def structDeconstruct : GenericLibfunc := fun s args => do
  let (id, info) ← aggregateArg s args .struct
  return simple "struct_deconstruct" [id] info.members (deconstruct info)

def structSnapshotDeconstruct : GenericLibfunc := fun s args => do
  let (id, info) ← aggregateArg s args .struct
  let snap ← s.snapshotOf id
  let outs ← info.members.mapM s.snapshotOf
  return simple "struct_snapshot_deconstruct" [snap] outs (deconstruct info)

def enumInit : GenericLibfunc := fun s args => do
  s.expectArgs args 2
  let id ← s.typeArg args 0
  let info ← s.types.info id
  if info.kind ≠ .enum then s.invalid (id.text ++ " is not an enum")
  else
    let index ← s.valueArg args 1
    let variants := info.members.length
    match (if index < 0 then none else info.members[index.toNat]?) with
    | none => s.invalid s!"variant {index} out of range for {variants} variants"
    | some member =>
      return simple "enum_init" [member] [id] fun site => do
        let whole ← Build.zero info.register
        let tagged ←
          if info.layout.tagSize ≤ 0 then pure whole
          else do
            let tag ← Build.const (.int (info.layout.tagSize * 8)) index
            Build.insert whole tag 0
        let payload := site.arg 0
        if 0 < (← Build.typeOf payload).storeSize then
          site.leave 0 [← Build.insert tagged payload info.layout.payloadOffset]
        else site.leave 0 [tagged]

def matchVariant (info : TypeInfo) (site : Site) : Build Unit := do
  let types ← info.members.mapM site.register
  let tag ← loadTag (site.arg 0) info.layout
  let payloads ← types.mapM fun t => do
    return [← readPart (site.arg 0) info.layout.payloadOffset t]
  site.leaveBy tag payloads

def enumMatch : GenericLibfunc := fun s args => do
  let (id, info) ← aggregateArg s args .enum
  return branching "enum_match" [id] (info.members.map fun m => [m]) (matchVariant info)

def enumSnapshotMatch : GenericLibfunc := fun s args => do
  let (id, info) ← aggregateArg s args .enum
  let snap ← s.snapshotOf id
  let outs ← info.members.mapM s.snapshotOf
  return branching "enum_snapshot_match" [snap] (outs.map fun m => [m]) (matchVariant info)

def aggregateCatalog : List (String × GenericLibfunc) :=
  [("struct_construct", structConstruct), ("struct_deconstruct", structDeconstruct),
    ("struct_snapshot_deconstruct", structSnapshotDeconstruct), ("enum_init", enumInit),
    ("enum_match", enumMatch), ("enum_snapshot_match", enumSnapshotMatch)]

end Sierra.Libfunc
