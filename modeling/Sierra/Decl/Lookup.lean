import Sierra.Decl.Types

/-!
# Layouts and registers on demand

The layout and the register of a type follow from those of the types it is declared with. They are
found when they are asked for, and what has been found is kept.
-/

namespace Sierra

/-- How the layout of a type follows from others. An array asks for its items, although it is laid
out in the same way whatever they are. -/
def TypeInfo.plan (info : TypeInfo) : Layout.Plan :=
  match info.kind with
  | .nonZero | .snapshot => .ask info.inner .answer
  | .array => .ask info.inner fun _ => .answer Layout.arrayDescriptor
  | .struct => .askAll [] (fun members => .answer (Layout.struct members)) info.members
  | .enum => .askAll [] (fun variants => .answer (Layout.enum variants)) info.members
  | _ => .answer info.layout

/-- What has been found so far, by the numbers of types. -/
structure Lookup where
  layouts : Layout.Cache := ∅
  registers : Std.HashMap Nat Ir.Ty := ∅

namespace Types

/-- The plan of a type that is not declared fails. -/
def planAt (t : Types) (n : Nat) : Layout.Plan :=
  match t.info? ⟨n, ""⟩ with
  | some info => info.plan
  | none => .fail (.layout (.unknownType ⟨n, ""⟩) none)

def findLayout (t : Types) (id : TypeId) (k : Lookup) : Except Failure Layout × Lookup :=
  let (found, layouts) :=
    Layout.layoutOf (fun id => t.planAt id.number) (t.entries.length + 1) [] id k.layouts
  (found, { k with layouts := layouts })

/-- A wrapped type is held as the type inside it, and one with parts as a block of memory. -/
def ownRegister (t : Types) (id : TypeId) (info : TypeInfo)
    (inside : Lookup → Except Failure Ir.Ty × Lookup) (k : Lookup) : Except Failure Ir.Ty × Lookup :=
  match info.kind with
  | .nonZero | .snapshot => inside k
  | .array | .struct | .enum =>
    let (found, k) := t.findLayout id k
    (found.map Ir.Ty.ofLayout, k)
  | _ => (.ok info.register, k)

/-- Types that come back to themselves exhaust every depth. -/
def findRegister (t : Types) : (depth : Nat) → TypeId → Lookup → Except Failure Ir.Ty × Lookup
  | depth, id, k =>
    match k.registers[id.number]? with
    | some known => (.ok known, k)
    | none =>
      match depth, t.info? id with
      | 0, _ => (.error (.crash none), k)
      | _, none => (.error (.decl (.undeclaredType id.text) none), k)
      | depth + 1, some info =>
        match t.ownRegister id info (t.findRegister depth info.inner) k with
        | (.ok found, k) =>
          (.ok found, { k with registers := k.registers.insert id.number found })
        | (.error cause, k) => (.error cause, k)

end Types

/-- A question about a type. -/
inductive Query where
  | layout (id : TypeId)
  | register (id : TypeId)

/-- What is known after a question. -/
def Types.after (t : Types) (k : Lookup) : Query → Lookup
  | .layout id => (t.findLayout id k).2
  | .register id => (t.findRegister (t.entries.length + 1) id k).2

end Sierra
