import Sierra.Power

/-!
# Byte strings and their number readings

The little- and big-endian readings of a byte string as a number, the writers of a given width, and
hexadecimal text.
-/

namespace Sierra

abbrev Bytes := List UInt8

namespace Bytes

/-- The low bytes of `value`, least significant first. -/
def ofNat : (size value : Nat) → Bytes
  | 0, _ => []
  | size + 1, value => UInt8.ofNat value :: ofNat size (value / 256)

def toNat : Bytes → Nat
  | [] => 0
  | b :: rest => b.toNat + 256 * toNat rest

/-- The low bytes of `value`, most significant first. -/
def ofNatBE (size value : Nat) : Bytes := (ofNat size value).reverse

def toNatBE (bytes : Bytes) : Nat := toNat bytes.reverse

def zeros (size : Nat) : Bytes := List.replicate size 0

/-- Whether there can be a string of so many bytes. -/
def canHold (size : Int) : Bool := decide (0 ≤ size ∧ size ≤ pow2 48)

/-- Whether a part lies in a string of `length` bytes. -/
def holds (length : Nat) (offset size : Int) : Bool :=
  decide (0 ≤ offset ∧ 0 ≤ size ∧ offset + size ≤ length)

/-- The fewest big-endian bytes that hold `value`; zero has none. -/
def minimalBE (value : Nat) : Bytes :=
  if value = 0 then [] else ofNatBE (value.log2 / 8 + 1) value

def fit (size : Nat) (bytes : Bytes) : Bytes :=
  bytes.take size ++ zeros (size - bytes.length)

theorem canHold_iff {size : Int} : canHold size = true ↔ 0 ≤ size ∧ size ≤ pow2 48 := by
  simp [canHold]

theorem holds_iff {length : Nat} {offset size : Int} :
    holds length offset size = true ↔ 0 ≤ offset ∧ 0 ≤ size ∧ offset + size ≤ length := by
  simp [holds]

@[simp] theorem length_ofNat (size value : Nat) : (ofNat size value).length = size := by
  induction size generalizing value with
  | zero => rfl
  | succ size ih => simp [ofNat, ih]

@[simp] theorem length_zeros (size : Nat) : (zeros size).length = size := by
  simp [zeros]

@[simp] theorem length_fit (size : Nat) (bytes : Bytes) : (fit size bytes).length = size := by
  simp [fit]; omega

theorem toNat_take_zeros (size k : Nat) : toNat ((zeros size).take k) = 0 := by
  rw [zeros, List.take_replicate]
  induction min k size with
  | zero => rfl
  | succ n ih => rw [List.replicate_succ, toNat, ih]; rfl

theorem toNat_ofNat (size value : Nat) : toNat (ofNat size value) = value % pow256 size := by
  induction size generalizing value with
  | zero => simp [ofNat, toNat, Nat.mod_one]
  | succ size ih =>
    simp only [ofNat, toNat, ih, UInt8.toNat_ofNat']
    have hpow : pow256 (size + 1) = 256 * pow256 size := Nat.pow_succ'
    rw [hpow, Nat.mod_mul]

theorem toNat_lt (bytes : Bytes) : toNat bytes < pow256 bytes.length := by
  induction bytes with
  | nil => simp [toNat]
  | cons b rest ih =>
    have hb : b.toNat < 256 := b.toNat_lt
    have hpow : pow256 (rest.length + 1) = 256 * pow256 rest.length := Nat.pow_succ'
    simp only [toNat, List.length_cons, hpow]
    omega

theorem ofNat_toNat (bytes : Bytes) : ofNat bytes.length (toNat bytes) = bytes := by
  induction bytes with
  | nil => rfl
  | cons b rest ih =>
    have hb : b.toNat < 256 := b.toNat_lt
    have hdiv : (b.toNat + 256 * toNat rest) / 256 = toNat rest := by omega
    have hmod : UInt8.ofNat (b.toNat + 256 * toNat rest) = b := by
      apply UInt8.toNat_inj.1
      rw [UInt8.toNat_ofNat']
      omega
    simp [ofNat, toNat, hdiv, hmod, ih]

def hexDigit (digit : Nat) : Char :=
  if digit < 10 then Char.ofNat (48 + digit) else Char.ofNat (87 + digit)

def hexValue? (c : Char) : Option Nat :=
  if '0' ≤ c ∧ c ≤ '9' then some (c.toNat - 48)
  else if 'a' ≤ c ∧ c ≤ 'f' then some (c.toNat - 87)
  else if 'A' ≤ c ∧ c ≤ 'F' then some (c.toNat - 55)
  else none

def hex (bytes : Bytes) : String :=
  String.ofList (bytes.flatMap fun b => [hexDigit (b.toNat / 16), hexDigit (b.toNat % 16)])

def ofHexDigits? : List Char → Option Bytes
  | [] => some []
  | [_] => none
  | high :: low :: rest => do
    let h ← hexValue? high
    let l ← hexValue? low
    let tail ← ofHexDigits? rest
    return UInt8.ofNat (16 * h + l) :: tail

def ofHex? (text : String) : Option Bytes := ofHexDigits? text.toList

def ofString (text : String) : Bytes := text.toUTF8.data.toList

/-- The character that UTF-8 bytes begin with, and its count of bytes. -/
def firstChar? : Bytes → Option (Char × Nat)
  | [] => none
  | a :: rest =>
    let tails := (rest.take 3).map UInt8.toNat
    let isTail (n : Nat) : Bool := n / 64 == 2
    let lead := a.toNat
    let code (size low : Nat) (first : Nat) : Option (Char × Nat) :=
      let tails := tails.take (size - 1)
      let value := tails.foldl (fun n t => 64 * n + t % 64) first
      if tails.length + 1 = size ∧ tails.all isTail ∧ low ≤ value ∧ value.isValidChar then
        some (Char.ofNat value, size)
      else none
    if lead < 0x80 then some (Char.ofNat lead, 1)
    else if lead < 0xc0 then none
    else if lead < 0xe0 then code 2 0x80 (lead % 32)
    else if lead < 0xf0 then code 3 0x800 (lead % 16)
    else if lead < 0xf8 then code 4 0x10000 (lead % 8)
    else none

/-- Every byte that belongs to no character becomes a replacement character. -/
def toText (bytes : Bytes) : String :=
  match String.fromUTF8? ⟨bytes.toArray⟩ with
  | some text => text
  | none => String.ofList (go bytes.length bytes)
where
  go : (count : Nat) → Bytes → List Char
    | 0, _ => []
    | count + 1, bytes =>
      match bytes, firstChar? bytes with
      | [], _ => []
      | _ :: rest, none => '\ufffd' :: go count rest
      | _ :: _, some (c, size) => c :: go count (bytes.drop size)

/-- The last piece may be shorter. -/
def pieces (size : Nat) (bytes : Bytes) : List Bytes := go bytes.length bytes
where
  go : (count : Nat) → Bytes → List Bytes
    | 0, _ => []
    | _ + 1, [] => []
    | count + 1, bytes => bytes.take size :: go count (bytes.drop size)

end Bytes

end Sierra
