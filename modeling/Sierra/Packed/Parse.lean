import Sierra.Packed

/-!
# Reading packed bytes

Reading never fails: where the bytes end or make no sense the tree has a leaf that says so, exactly
where reading value by value would have stopped.
-/

namespace Sierra.Packed

def take? (size : Nat) (bytes : Bytes) : Option (Nat × Bytes) :=
  let front := bytes.take size
  if front.length = size then some (Bytes.toNatBE front, bytes.drop size) else none

def fromTwos (size value : Nat) : Int :=
  if value < pow2 (8 * size - 1) then value else (value : Int) - pow2 (8 * size)

inductive Head where
  | leaf (value : Packed)
  | unsigned (size : Nat)
  | twos (size : Nat)
  | text (isText : Bool) (length : Nat ⊕ Nat)
  | array (length : Nat ⊕ Nat)
  | map (length : Nat ⊕ Nat)
  | foreign (length : Nat ⊕ Nat) (extra : Nat)

def Head.ofByte (b : UInt8) : Head :=
  let n := b.toNat
  if n < 0x80 then .leaf (.int n)
  else if n < 0x90 then .map (.inl (n - 0x80))
  else if n < 0xa0 then .array (.inl (n - 0x90))
  else if n < 0xc0 then .text true (.inl (n - 0xa0))
  else if 0xe0 ≤ n then .leaf (.int ((n : Int) - 256))
  else match n with
    | 0xc0 => .leaf .nil
    | 0xc2 => .leaf (.bool false)
    | 0xc3 => .leaf (.bool true)
    | 0xc4 => .text false (.inr 1)
    | 0xc5 => .text false (.inr 2)
    | 0xc6 => .text false (.inr 4)
    | 0xc7 => .foreign (.inr 1) 1
    | 0xc8 => .foreign (.inr 2) 1
    | 0xc9 => .foreign (.inr 4) 1
    | 0xca => .foreign (.inl 4) 0
    | 0xcb => .foreign (.inl 8) 0
    | 0xcc => .unsigned 1
    | 0xcd => .unsigned 2
    | 0xce => .unsigned 4
    | 0xcf => .unsigned 8
    | 0xd0 => .twos 1
    | 0xd1 => .twos 2
    | 0xd2 => .twos 4
    | 0xd3 => .twos 8
    | 0xd4 => .foreign (.inl 1) 1
    | 0xd5 => .foreign (.inl 2) 1
    | 0xd6 => .foreign (.inl 4) 1
    | 0xd7 => .foreign (.inl 8) 1
    | 0xd8 => .foreign (.inl 16) 1
    | 0xd9 => .text true (.inr 1)
    | 0xda => .text true (.inr 2)
    | 0xdb => .text true (.inr 4)
    | 0xdc => .array (.inr 2)
    | 0xdd => .array (.inr 4)
    | 0xde => .map (.inr 2)
    | 0xdf => .map (.inr 4)
    | _ => .leaf .bad

def lengthOf (length : Nat ⊕ Nat) (bytes : Bytes) : Option (Nat × Bytes) :=
  match length with
  | .inl n => some (n, bytes)
  | .inr size => take? size bytes

/-- `none` stands for the end of the bytes. -/
def payload? (length : Nat ⊕ Nat) (bytes : Bytes) : Option (Bytes × Bytes) := do
  let (n, rest) ← lengthOf length bytes
  let front := rest.take n
  if front.length = n then some (front, rest.drop n) else none

mutual

def parseOne : (fuel : Nat) → Bytes → Packed × Option Bytes
  | 0, _ => (.cut .absent, none)
  | _ + 1, [] => (.cut .absent, none)
  | fuel + 1, b :: bytes =>
    match Head.ofByte b with
    | .leaf .bad => (.bad, none)
    | .leaf value => (value, some bytes)
    | .unsigned size =>
      match take? size bytes with
      | some (n, rest) => (.int n, some rest)
      | none => (.cut .number, none)
    | .twos size =>
      match take? size bytes with
      | some (n, rest) => (.int (fromTwos size n), some rest)
      | none => (.cut .number, none)
    | .text isText length =>
      match payload? length bytes with
      | some (front, rest) =>
        (if isText then .str (front.toText) else .bin front, some rest)
      | none => (.cut .text, none)
    | .foreign length extra =>
      match lengthOf length bytes with
      | some (n, rest) =>
        if n + extra ≤ rest.length then (.foreign, some (rest.drop (n + extra)))
        else (.cut .other, none)
      | none => (.cut .other, none)
    | .array length =>
      match lengthOf length bytes with
      | some (n, rest) =>
        match parseItems fuel n rest with
        | (items, some rest) => (.array items, some rest)
        | (items, none) => (.stopped n items, none)
      | none => (.cut .array, none)
    | .map length =>
      match lengthOf length bytes with
      | some (n, rest) =>
        let (entries, rest) := parseEntries fuel n rest
        (.map entries, rest)
      | none => (.cut .map, none)

/-- The last value may be a leaf at which reading stopped. -/
def parseItems : (fuel : Nat) → Nat → Bytes → List Packed × Option Bytes
  | _, 0, bytes => ([], some bytes)
  | 0, _ + 1, _ => ([.cut .absent], none)
  | fuel + 1, n + 1, bytes =>
    match parseOne fuel bytes with
    | (value, none) => ([value], none)
    | (value, some rest) =>
      let (items, rest) := parseItems fuel n rest
      (value :: items, rest)

/-- Reading may have stopped in the last key or value. -/
def parseEntries : (fuel : Nat) → Nat → Bytes → List (Packed × Packed) × Option Bytes
  | _, 0, bytes => ([], some bytes)
  | 0, _ + 1, _ => ([(.cut .absent, .nil)], none)
  | fuel + 1, n + 1, bytes =>
    match parseOne fuel bytes with
    | (key, none) => ([(key, .nil)], none)
    | (key, some rest) =>
      match parseOne fuel rest with
      | (value, none) => ([(key, value)], none)
      | (value, some rest) =>
        let (entries, rest) := parseEntries fuel n rest
        ((key, value) :: entries, rest)

end

/-- What follows the first value is ignored. Every value takes a byte and every list a step more, so
twice the length and one are enough. -/
def parse (bytes : Bytes) : Packed := (parseOne (2 * bytes.length + 2) bytes).1

end Sierra.Packed
