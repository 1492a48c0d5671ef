import Sierra.Bytes

/-!
# Packed images

A tree of tagged values. Plain integers and lengths take the shortest form, integers of a fixed
width the form of that width. A tree that was read may also hold what could not be read.
-/

namespace Sierra

inductive Packed.Form where
  | absent
  | number
  | text
  | array
  | map
  | other
deriving DecidableEq, Repr, Inhabited

inductive Packed where
  | nil
  | bool (value : Bool)
  | int (value : Int)
  | uint8 (value : Nat)
  | uint64 (value : Nat)
  | int32 (value : Int)
  | str (value : String)
  | bin (value : Bytes)
  | array (items : List Packed)
  | map (entries : List (Packed × Packed))
  | foreign
  | stopped (length : Nat) (items : List Packed)
  | cut (form : Packed.Form)
  | bad
deriving Inhabited

namespace Packed

def signedBE (size : Nat) (value : Int) : Bytes :=
  Bytes.ofNatBE size (value % (pow256 size : Nat)).toNat

/-- A short form below `shortLimit`, else the least width that holds it. A form without an 8-bit
width has `none` for its code. -/
def header (shortLimit shortCode : Nat) (code8 : Option Nat) (code16 code32 length : Nat) : Bytes :=
  if length < shortLimit then [UInt8.ofNat (shortCode + length)]
  else
    match code8 with
    | some code =>
      if length < pow2 8 then UInt8.ofNat code :: Bytes.ofNatBE 1 length
      else wide code16 code32 length
    | none => wide code16 code32 length
where
  wide (code16 code32 length : Nat) : Bytes :=
    if length < pow2 16 then UInt8.ofNat code16 :: Bytes.ofNatBE 2 length
    else UInt8.ofNat code32 :: Bytes.ofNatBE 4 length

def shortest (value : Int) : Bytes :=
  if 0 ≤ value then
    let n := value.toNat
    if n < 128 then [UInt8.ofNat n]
    else if n < pow2 8 then 0xcc :: Bytes.ofNatBE 1 n
    else if n < pow2 16 then 0xcd :: Bytes.ofNatBE 2 n
    else if n < pow2 32 then 0xce :: Bytes.ofNatBE 4 n
    else 0xcf :: Bytes.ofNatBE 8 n
  else if -32 ≤ value then signedBE 1 value
  else if -(pow2 7) ≤ value then 0xd0 :: signedBE 1 value
  else if -(pow2 15) ≤ value then 0xd1 :: signedBE 2 value
  else if -(pow2 31) ≤ value then 0xd2 :: signedBE 4 value
  else 0xd3 :: signedBE 8 value

def text (value : String) : Bytes :=
  let bytes := Bytes.ofString value
  header 32 0xa0 (some 0xd9) 0xda 0xdb bytes.length ++ bytes

def encode : Packed → Bytes
  | nil => [0xc0]
  | bool value => [if value then 0xc3 else 0xc2]
  | int value => shortest value
  | uint8 value => 0xcc :: Bytes.ofNatBE 1 value
  | uint64 value => 0xcf :: Bytes.ofNatBE 8 value
  | int32 value => 0xd2 :: signedBE 4 value
  | str value => text value
  | bin value => header 0 0 (some 0xc4) 0xc5 0xc6 value.length ++ value
  | array items => header 16 0x90 none 0xdc 0xdd items.length ++ encodeAll items
  | map entries => header 16 0x80 none 0xde 0xdf entries.length ++ encodeEntries entries
  | foreign | stopped _ _ | cut _ | bad => []
where
  encodeAll : List Packed → Bytes
    | [] => []
    | item :: rest => encode item ++ encodeAll rest
  encodeEntries : List (Packed × Packed) → Bytes
    | [] => []
    | (key, value) :: rest => encode key ++ encode value ++ encodeEntries rest
termination_by structural value => value

end Packed

end Sierra
