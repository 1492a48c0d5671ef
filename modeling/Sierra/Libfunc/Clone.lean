import Sierra.Libfunc.Array

/-!
# Copies of owned memory

A snapshot of a value that owns memory is a deep copy. Each type that needs one has a copying
function, written when it is first asked for.
-/

namespace Sierra.Libfunc

open Ir (Ty ValueId Build)

def cloneName (id : TypeId) : String := s!"clone.{id.number}"

/-- `clone` names the function that copies values of a type. -/
def cloneValue (types : Types) (clone : TypeId → Build String) (v : ValueId) (id : TypeId) :
    Build ValueId := do
  let info ← Build.lift (types.info id)
  if !info.needsClone then return v
  let name ← clone id
  let t ← Build.typeOf v
  let copied ← Build.call name [t] [v]
  return copied.headD v

def cloneArray (types : Types) (clone : TypeId → Build String) (v : ValueId) (elem : TypeId) :
    Build Unit := do
  let info ← Build.lift (types.info elem)
  let arr ← Build.typeOf v
  let src ← Build.extract v arrayPtr .ptr
  let n ← Build.extract v arrayLen (.int 32)
  let count ← Build.zext n (.int 64)
  let stride ← i64 info.layout.stride
  let size ← Build.mul count stride
  let empty ← Build.newBlock
  let full ← Build.newBlock
  let none_ ← i64 0
  let isEmpty ← Build.icmp .eq count none_
  Build.condBr isEmpty ⟨empty, []⟩ ⟨full, []⟩
  Build.moveTo empty
  Build.ret [← Build.zero arr]
  Build.moveTo full
  let dst ← Build.alloc size
  let done ← Build.newBlock
  if !info.needsClone then
    Build.memcpy dst src size
    Build.br done
  else
    let loop ← Build.newBlock [.int 64]
    let first ← i64 0
    Build.br loop [first]
    Build.moveTo loop
    let i := (← Build.paramsOf loop).headD (-1)
    let body ← Build.newBlock
    let beyond ← Build.icmp .uge i count
    Build.condBr beyond ⟨done, []⟩ ⟨body, []⟩
    Build.moveTo body
    let offset ← Build.mul i stride
    let place ← Build.ptradd src offset
    let element ← Build.load place info.register
    let copied ← cloneValue types clone element elem
    let target ← Build.ptradd dst offset
    Build.store target copied
    let one ← i64 1
    let next ← Build.add i one
    Build.br loop [next]
  Build.moveTo done
  let out ← joinArray arr ⟨dst, n, n⟩
  Build.ret [out]

def cloneMembers (types : Types) (clone : TypeId → Build String) (v : ValueId) :
    List (TypeId × Int) → (out : ValueId) → Build ValueId
  | [], out => return out
  | (id, offset) :: rest, out => do
    let info ← Build.lift (types.info id)
    if !info.needsClone then cloneMembers types clone v rest out
    else
      let field ← Build.extract v offset info.register
      let copied ← cloneValue types clone field id
      cloneMembers types clone v rest (← Build.insert out copied offset)

def cloneStruct (types : Types) (clone : TypeId → Build String) (v : ValueId) (info : TypeInfo) :
    Build Unit := do
  Build.ret [← cloneMembers types clone v (info.members.zip info.layout.offsets) v]

def cloneVariant (types : Types) (clone : TypeId → Build String) (v : ValueId) (offset : Int)
    (join : Ir.BlockId) (id : TypeId) : Build Ir.Edge := do
  let block ← Build.newBlock
  Build.moveTo block
  let info ← Build.lift (types.info id)
  if !info.needsClone then Build.br join [v]
  else
    let payload ← Build.extract v offset info.register
    let copied ← cloneValue types clone payload id
    Build.br join [← Build.insert v copied offset]
  return ⟨block, []⟩

def cloneEnum (types : Types) (clone : TypeId → Build String) (v : ValueId) (info : TypeInfo) :
    Build Unit := do
  let tag ← loadTag v info.layout
  let entry := (← get).block
  let join ← Build.newBlock [← Build.typeOf v]
  let edges ← info.members.mapM (cloneVariant types clone v info.layout.payloadOffset join)
  Build.moveTo entry
  Build.switch tag edges
  Build.moveTo join
  Build.ret (← Build.paramsOf join)

/-- A type only contains types settled before it, so as many levels as there are types are enough.
-/
def cloneFuncAt (types : Types) : (fuel : Nat) → TypeId → Build String
  | 0, id => throw (.native ("clone of " ++ id.text ++ " nests too deep"))
  | fuel + 1, id => do
    match (← get).clones.find? fun entry => entry.1 == id.number with
    | some (_, name) => return name
    | none =>
      let info ← Build.lift (types.info id)
      let name := cloneName id
      modify fun d => { d with clones := d.clones ++ [(id.number, name)] }
      let slot ← Build.addFunc name [info.register] [info.register] false
      let clone := cloneFuncAt types fuel
      Build.inFunc slot do
        let v := (← Build.paramsOf 0).headD (-1)
        match info.kind with
        | .array => cloneArray types clone v info.inner
        | .struct => cloneStruct types clone v info
        | .enum => cloneEnum types clone v info
        | .snapshot | .nonZero =>
          let inner ← clone info.inner
          Build.ret (← Build.call inner [info.register] [v])
        | _ => Build.ret [v]
      return name

def cloneFunc (types : Types) (id : TypeId) : Build String :=
  cloneFuncAt types (types.entries.length + 1) id

end Sierra.Libfunc
