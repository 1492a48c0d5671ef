import Sierra.Decl.TypeInfo
import Sierra.Felt
import Sierra.Program.Basic

/-!
# Declared types

The types of a program, each after those it mentions, and the generics that declare them. A
declaration sees its `Scope`: the declarations, the types settled so far and the functions.
-/

namespace Sierra

structure Types where
  declared : List Declaration := []
  entries : List (TypeId × TypeInfo) := []
deriving Inhabited

namespace Types

def info? (t : Types) (id : TypeId) : Option TypeInfo :=
  (t.entries.find? fun entry => entry.1.same id).map (·.2)

def info (t : Types) (id : TypeId) : Except Failure TypeInfo :=
  match t.info? id with
  | some info => .ok info
  | none => .error (.decl (.undeclaredType id.text) none)

def register (t : Types) (id : TypeId) : Except Failure Ir.Ty := do return (← t.info id).register

def layout (t : Types) (id : TypeId) : Except Failure Layout := do return (← t.info id).layout

def order (t : Types) : List TypeId := t.entries.map (·.1)

def settle (t : Types) (id : TypeId) (info : TypeInfo) : Types :=
  { t with entries := t.entries ++ [(id, info)] }

def applied (generic : String) (args : List GenericArg) : String :=
  if args.isEmpty then generic
  else generic ++ "<" ++ Text.join ", " (args.map GenericArg.text) ++ ">"

def applies (generic : String) (args : List GenericArg) (d : Declaration) : Bool :=
  d.generic == generic && d.args.length == args.length &&
    (d.args.zip args).all fun pair => pair.1.same pair.2

def find (t : Types) (generic : String) (args : List GenericArg := []) : Except Failure TypeId :=
  match t.declared.find? (applies generic args) with
  | some d => .ok d.id
  | none => .error (.decl (.undeclaredType (applied generic args)) none)

end Types

structure Scope where
  declaring : String
  types : Types
  funcs : List Function := []

namespace Scope

def invalid {α : Type} (s : Scope) (why : String) : Except Failure α :=
  .error (.decl (.invalidGenericArgs s.declaring) (some (.plain why)))

def expectArgs (s : Scope) (args : List GenericArg) (n : Nat) : Except Failure Unit :=
  if args.length = n then .ok ()
  else s.invalid s!"expected {n} generic arguments, got {args.length}"

def typeArg (s : Scope) (args : List GenericArg) (i : Nat) : Except Failure TypeId :=
  match args[i]? with
  | some (.type id) => .ok id
  | _ => s.invalid s!"argument {i} must be a type"

def valueArg (s : Scope) (args : List GenericArg) (i : Nat) : Except Failure Int :=
  match args[i]? with
  | some (.value (some n)) => .ok n
  | _ => s.invalid s!"argument {i} must be a value"

def onlyType (s : Scope) (args : List GenericArg) : Except Failure (TypeId × TypeInfo) := do
  s.expectArgs args 1
  let id ← s.typeArg args 0
  return (id, ← s.types.info id)

def twoTypes (s : Scope) (args : List GenericArg) :
    Except Failure ((TypeId × TypeInfo) × (TypeId × TypeInfo)) := do
  s.expectArgs args 2
  let a ← s.typeArg args 0
  let b ← s.typeArg args 1
  let ai ← s.types.info a
  let bi ← s.types.info b
  return ((a, ai), (b, bi))

def find (s : Scope) (generic : String) : Except Failure TypeId := s.types.find generic

def findInfo (s : Scope) (generic : String) : Except Failure (TypeId × TypeInfo) := do
  let id ← s.find generic
  return (id, ← s.types.info id)

def wrap (s : Scope) (generic : String) (id : TypeId) : Except Failure TypeId :=
  s.types.find generic [.type id]

/-- A snapshot is its own. -/
def snapshotOf (s : Scope) (id : TypeId) : Except Failure TypeId := do
  if (← s.types.info id).kind = .snapshot then return id
  s.wrap "Snapshot" id

def snapshotBox (s : Scope) (id : TypeId) : Except Failure TypeId := do
  s.wrap "Box" (← s.snapshotOf id)

/-- The program has to declare these. -/
def bounded (s : Scope) (lo hi : Int) : Except Failure (TypeId × TypeInfo) := do
  let id ← s.types.find "bounded_int" [.value (some lo), .value (some hi)]
  return (id, ← s.types.info id)

def findUserType (s : Scope) (kind : TypeKind) (name : String) : Except Failure TypeId :=
  let named (d : Declaration) : Bool :=
    match d.args with
    | .userType id :: _ => id.name == name && (s.types.info? d.id).any fun i => i.kind = kind
    | _ => false
  match s.types.declared.find? named with
  | some d => .ok d.id
  | none => .error (.decl (.undeclaredType name) none)

/-- The first enum of two variants whose first is the given type. -/
def findOption (s : Scope) (id : TypeId) : Except Failure TypeId :=
  let isOption (d : Declaration) : Bool :=
    d.generic == "Enum" && (s.types.info? d.id).any fun i =>
      match i.members with
      | [first, _] => first.same id
      | _ => false
  match s.types.declared.find? isOption with
  | some d => .ok d.id
  | none => .error (.decl (.undeclaredType ("Option<" ++ id.text ++ ">")) none)

end Scope

abbrev GenericType := Scope → List GenericArg → Except Failure TypeInfo

namespace GenericType

def integerInfo (kind : TypeKind) (generic : String) (bits : Nat) (lo hi : Int) : TypeInfo :=
  { kind := kind, generic := generic, bits := bits, lo := some lo, hi := some hi
    storable := true, droppable := true, duplicatable := true
    layout := Layout.int bits, register := .int bits }

def integer (kind : TypeKind) (generic : String) (bits : Nat) (lo hi : Int) : GenericType :=
  fun s args => do
    s.expectArgs args 0
    return integerInfo kind generic bits lo hi

/-- The least width, at least one, of differences in the range. -/
def boundedBits (lo hi : Int) : Nat :=
  let span := (hi - lo).natAbs
  if span = 0 then 1 else span.log2 + 1

def boundedInt : GenericType := fun s args => do
  s.expectArgs args 2
  let lo ← s.valueArg args 0
  let hi ← s.valueArg args 1
  if hi < lo then s.invalid s!"empty range [{lo}, {hi}]"
  else return integerInfo .boundedInt "bounded_int" (boundedBits lo hi) lo hi

def counter (kind : TypeKind) (generic : String) : GenericType := fun s args => do
  s.expectArgs args 0
  let free := kind = .builtinCosts
  return { kind := kind, generic := generic, bits := 64, storable := true
           droppable := free, duplicatable := free, layout := Layout.int 64, register := .int 64 }

def point (kind : TypeKind) (generic : String) (layout : Layout) : GenericType := fun s args => do
  s.expectArgs args 0
  return { kind := kind, generic := generic, storable := true, droppable := true
           duplicatable := true, layout := layout, register := .ofLayout layout }

def ecPointLayout : Layout := Layout.struct [Layout.int 252, Layout.int 252]

def u256Layout : Layout := Layout.struct [Layout.int 128, Layout.int 128]

def secpPointLayout : Layout := Layout.struct [u256Layout, u256Layout]

def nonZero : GenericType := fun s args => do
  let (inner, info) ← s.onlyType args
  return { info with kind := .nonZero, generic := "NonZero", inner := inner }

def pointer (kind : TypeKind) (generic : String) : GenericType := fun s args => do
  let (inner, info) ← s.onlyType args
  return { kind := kind, generic := generic, inner := inner, storable := true
           droppable := info.droppable, duplicatable := info.duplicatable
           layout := Layout.pointer, register := .ptr }

def array : GenericType := fun s args => do
  let (inner, info) ← s.onlyType args
  if info.zeroSized then s.invalid ("array of zero sized " ++ inner.text)
  else
    return { kind := .array, generic := "Array", inner := inner, storable := true
             droppable := info.droppable, needsClone := true
             layout := Layout.arrayDescriptor, register := .ofLayout Layout.arrayDescriptor }

def snapshot : GenericType := fun s args => do
  let (inner, info) ← s.onlyType args
  if info.kind = .snapshot then s.invalid ("snapshot of snapshot " ++ inner.text)
  else
    return { info with kind := .snapshot, generic := "Snapshot", inner := inner
                       droppable := true, duplicatable := true }

def uninitialized : GenericType := fun s args => do
  let (inner, _) ← s.onlyType args
  return { kind := .uninitialized, generic := "Uninitialized", inner := inner, droppable := true
           zeroSized := true, layout := Layout.unit, register := .blob 0 1 }

def memberArgs (s : Scope) (args : List GenericArg) (start : Nat) :
    Except Failure (List (TypeId × TypeInfo)) :=
  (List.range' start (args.length - start)).mapM fun i => do
    let id ← s.typeArg args i
    return (id, ← s.types.info id)

def members (s : Scope) (args : List GenericArg) :
    Except Failure (UserTypeId × List (TypeId × TypeInfo)) :=
  match args with
  | .userType name :: _ => do return (name, ← memberArgs s args 1)
  | _ => s.invalid "first argument must be a user type"

def aggregate (kind : TypeKind) (generic : String) (name : UserTypeId)
    (members : List (TypeId × TypeInfo)) (layout : Layout) : TypeInfo :=
  { kind := kind, generic := generic, userType := name, members := members.map (·.1)
    storable := members.all (·.2.storable)
    droppable := members.all (·.2.droppable)
    duplicatable := members.all (·.2.duplicatable)
    needsClone := members.any (·.2.needsClone)
    layout := layout, register := .ofLayout layout }

def struct : GenericType := fun s args => do
  let (name, members) ← members s args
  let info := aggregate .struct "Struct" name members (Layout.struct (members.map (·.2.layout)))
  return { info with zeroSized := members.all (·.2.zeroSized) }

def enum : GenericType := fun s args => do
  let (name, members) ← members s args
  if members.isEmpty then s.invalid "enum without variants"
  else
    return aggregate .enum "Enum" name members (Layout.enum (members.map (·.2.layout)))

def widths : List Nat := [8, 16, 32, 64, 128]

def builtins : List String :=
  ["RangeCheck", "RangeCheck96", "Bitwise", "Pedersen", "Poseidon", "EcOp", "SegmentArena",
    "AddMod", "MulMod"]

def addressBound : Int := pow2 251

def storageBaseBound : Int := pow2 251 - 256

def address (generic : String) (bound : Int) : GenericType :=
  integer .address generic 252 0 (bound - 1)

def catalog : List (String × GenericType) :=
  [("felt252", integer .felt252 "felt252" 252 0 ((Felt.prime : Int) - 1))] ++
  widths.map (fun w => (s!"u{w}", integer .uint s!"u{w}" w 0 (pow2 w - 1))) ++
  widths.map (fun w => (s!"i{w}", integer .sint s!"i{w}" w (-pow2 (w - 1)) (pow2 (w - 1) - 1))) ++
  [("bounded_int", boundedInt), ("bytes31", integer .bytes31 "bytes31" 248 0 (pow2 248 - 1)),
    ("ContractAddress", address "ContractAddress" addressBound),
    ("StorageAddress", address "StorageAddress" addressBound),
    ("StorageBaseAddress", address "StorageBaseAddress" storageBaseBound),
    ("ClassHash", address "ClassHash" addressBound),
    ("NonZero", nonZero), ("Box", pointer .box "Box"), ("Nullable", pointer .nullable "Nullable"),
    ("Array", array), ("Snapshot", snapshot), ("Uninitialized", uninitialized),
    ("Struct", struct), ("Enum", enum)] ++
  builtins.map (fun b => (b, counter .builtin b)) ++
  [("GasBuiltin", counter .gasBuiltin "GasBuiltin"),
    ("BuiltinCosts", counter .builtinCosts "BuiltinCosts"), ("System", counter .system "System"),
    ("EcPoint", point .ecPoint "EcPoint" ecPointLayout),
    ("Secp256k1Point", point .secpPoint "Secp256k1Point" secpPointLayout),
    ("Secp256r1Point", point .secpPoint "Secp256r1Point" secpPointLayout)]

end GenericType

end Sierra
