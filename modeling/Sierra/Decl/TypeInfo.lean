import Sierra.Ir.Type

/-!
# Concrete types

What is known of a declared type: sort, range, members, what may be done with its values, and how
they lie in memory and registers.
-/

namespace Sierra

inductive TypeKind where
  | invalid
  | felt252
  | uint
  | sint
  | boundedInt
  | bytes31
  | address
  | nonZero
  | box
  | nullable
  | array
  | snapshot
  | struct
  | enum
  | uninitialized
  | builtin
  | gasBuiltin
  | builtinCosts
  | system
  | ecPoint
  | secpPoint
deriving DecidableEq, Repr, Inhabited

namespace TypeKind

def all : List TypeKind :=
  [invalid, felt252, uint, sint, boundedInt, bytes31, address, nonZero, box, nullable, array,
    snapshot, struct, enum, uninitialized, builtin, gasBuiltin, builtinCosts, system, ecPoint,
    secpPoint]

def number (k : TypeKind) : Nat := all.idxOf k

def ofNumber (n : Nat) : TypeKind := (all[n]?).getD invalid

def name : TypeKind → String
  | invalid => "invalid"
  | felt252 => "felt252"
  | uint => "uint"
  | sint => "sint"
  | boundedInt => "bounded_int"
  | bytes31 => "bytes31"
  | address => "address"
  | nonZero => "non_zero"
  | box => "box"
  | nullable => "nullable"
  | array => "array"
  | snapshot => "snapshot"
  | struct => "struct"
  | enum => "enum"
  | uninitialized => "uninitialized"
  | builtin => "builtin"
  | gasBuiltin => "gas_builtin"
  | builtinCosts => "builtin_costs"
  | system => "system"
  | ecPoint => "ec_point"
  | secpPoint => "secp_point"

def isIntegerLike : TypeKind → Bool
  | felt252 | uint | sint | boundedInt | bytes31 | address => true
  | _ => false

def hasInner : TypeKind → Bool
  | nonZero | box | nullable | array | snapshot | uninitialized => true
  | _ => false

def isUserType : TypeKind → Bool
  | struct | enum => true
  | _ => false

end TypeKind

structure TypeInfo where
  kind : TypeKind
  generic : String
  bits : Nat := 0
  lo : Option Int := none
  hi : Option Int := none
  members : List TypeId := []
  userType : UserTypeId := ⟨0, ""⟩
  inner : TypeId := ⟨0, ""⟩
  storable : Bool := false
  droppable : Bool := false
  duplicatable : Bool := false
  zeroSized : Bool := false
  needsClone : Bool := false
  layout : Layout
  register : Ir.Ty
deriving DecidableEq, Repr, Inhabited

namespace TypeInfo

def isIntegerLike (info : TypeInfo) : Bool := info.kind.isIntegerLike

def isSigned (info : TypeInfo) : Bool := info.kind = .sint

/-- The least integer, zero for other types. -/
def least (info : TypeInfo) : Int := info.lo.getD 0

/-- The greatest integer, zero for other types. -/
def greatest (info : TypeInfo) : Int := info.hi.getD 0

def contains (info : TypeInfo) (n : Int) : Bool := info.least ≤ n && n ≤ info.greatest

end TypeInfo

end Sierra
