import Sierra.Felt

/-!
# Values

Values as a caller sees them. Numbers are kept as given; a number, the payload of an enum or the
contents of a box may be missing, which matters when the value is passed on.
-/

namespace Sierra

inductive Shape where
  | invalid
  | felt
  | uint
  | sint
  | bounded
  | struct
  | enum
  | array
  | box
  | nullable
  | ecPoint
  | secpPoint
  | builtin
  | uninit
deriving DecidableEq, Repr, Inhabited

namespace Shape

def all : List Shape :=
  [invalid, felt, uint, sint, bounded, struct, enum, array, box, nullable, ecPoint, secpPoint,
    builtin, uninit]

def number (s : Shape) : Nat := all.idxOf s

def ofNumber? (n : Nat) : Option Shape := all[n]?

def name : Shape → String
  | invalid => "invalid"
  | felt => "felt252"
  | uint => "uint"
  | sint => "sint"
  | bounded => "bounded_int"
  | struct => "struct"
  | enum => "enum"
  | array => "array"
  | box => "box"
  | nullable => "nullable"
  | ecPoint => "ec_point"
  | secpPoint => "secp_point"
  | builtin => "builtin"
  | uninit => "uninitialized"

def nameOfNumber (n : Nat) : String := ((ofNumber? n).map name).getD "value?"

end Shape

inductive NumberSort where
  | felt
  | uint
  | sint
  | bounded
  | builtin
deriving DecidableEq, Repr

inductive PointSort where
  | ec
  | secp
deriving DecidableEq, Repr

inductive Value where
  | invalid
  | number (sort : NumberSort) (n : Option Int)
  | struct (fields : List Value)
  | array (items : List Value)
  | enum (tag : Int) (payload : Option Value)
  | box (inner : Option Value)
  | nullable (inner : Option Value)
  | point (sort : PointSort) (coords : List Int)
  | uninit
deriving Inhabited

def NumberSort.shape : NumberSort → Shape
  | felt => .felt
  | uint => .uint
  | sint => .sint
  | bounded => .bounded
  | builtin => .builtin

def PointSort.shape : PointSort → Shape
  | ec => .ecPoint
  | secp => .secpPoint

namespace Value

def shape : Value → Shape
  | invalid => .invalid
  | number sort _ => sort.shape
  | struct _ => .struct
  | array _ => .array
  | enum _ _ => .enum
  | box _ => .box
  | nullable _ => .nullable
  | point sort _ => sort.shape
  | uninit => .uninit

def ofFelt (f : Felt) : Value := number .felt (some f.val)

def ofFelts (fs : List Felt) : Value := array (fs.map ofFelt)

/-- A missing number is a crash. -/
def feltItems? : List Value → Except Failure (Option (List Felt))
  | [] => .ok (some [])
  | number .felt (some n) :: rest => do return (← feltItems? rest).map (Felt.ofInt n :: ·)
  | number .felt none :: _ => .error (.crash none)
  | _ :: _ => .ok none

def felts? : Value → Except Failure (Option (List Felt))
  | array items => feltItems? items
  | _ => .ok none

def same : Value → Value → Bool
  | invalid, invalid => true
  | number s m, number t n => s = t && m = n
  | struct xs, struct ys => sameAll xs ys
  | array xs, array ys => sameAll xs ys
  | enum s (some x), enum t (some y) => s = t && x.same y
  | enum s none, enum t none => s = t
  | box (some x), box (some y) => x.same y
  | box none, box none => true
  | nullable (some x), nullable (some y) => x.same y
  | nullable none, nullable none => true
  | point s xs, point t ys => s = t && xs = ys
  | uninit, uninit => true
  | _, _ => false
where
  sameAll : List Value → List Value → Bool
    | [], [] => true
    | x :: xs, y :: ys => x.same y && sameAll xs ys
    | _, _ => false
termination_by structural value => value

def numberText (n : Option Int) : String := toString (n.getD 0)

def text : Value → String
  | invalid => "<invalid>"
  | number _ n => numberText n
  | struct fields => "\x7b" ++ Text.join ", " (texts fields) ++ "\x7d"
  | array items => "[" ++ Text.join ", " (texts items) ++ "]"
  | enum tag none => s!"variant{tag}"
  | enum tag (some v) => s!"variant{tag}(" ++ v.text ++ ")"
  | box none => "box(<nil>)"
  | box (some v) => "box(" ++ v.text ++ ")"
  | nullable none => "null"
  | nullable (some v) => "nullable(" ++ v.text ++ ")"
  | point _ coords => "(" ++ Text.join ", " (coords.map toString) ++ ")"
  | uninit => "uninit"
where
  texts : List Value → List String
    | [] => []
    | v :: rest => v.text :: texts rest
termination_by structural value => value

end Value

end Sierra
