import Sierra.Bytes

/-!
# Keccak-256

The sponge with a rate of 136 bytes and its padding, which is taken off first for callers that pad
messages themselves.
-/

namespace Sierra.Keccak

def rate : Nat := 136

def rotate (x : UInt64) (n : Nat) : UInt64 :=
  if n = 0 then x else (x <<< UInt64.ofNat n) ||| (x >>> UInt64.ofNat (64 - n))

def constants : List UInt64 :=
  [0x0000000000000001, 0x0000000000008082, 0x800000000000808a, 0x8000000080008000,
    0x000000000000808b, 0x0000000080000001, 0x8000000080008081, 0x8000000000008009,
    0x000000000000008a, 0x0000000000000088, 0x0000000080008009, 0x000000008000000a,
    0x000000008000808b, 0x800000000000008b, 0x8000000000008089, 0x8000000000008003,
    0x8000000000008002, 0x8000000000000080, 0x000000000000800a, 0x800000008000000a,
    0x8000000080008081, 0x8000000000008080, 0x0000000080000001, 0x8000000080008008]

/-- The lane of column `x` and row `y` is at `x + 5 * y`. -/
def offsets : Array Nat :=
  #[0, 1, 62, 28, 27, 36, 44, 6, 55, 20, 3, 10, 43, 25, 39, 41, 45, 15, 21, 8, 18, 2, 61, 56, 14]

def round (s : Array UInt64) (constant : UInt64) : Array UInt64 :=
  let lane (a : Array UInt64) (x y : Nat) : UInt64 := a.getD (x % 5 + 5 * (y % 5)) 0
  let column := (Array.range 5).map fun x =>
    lane s x 0 ^^^ lane s x 1 ^^^ lane s x 2 ^^^ lane s x 3 ^^^ lane s x 4
  let spread := (Array.range 5).map fun x =>
    column.getD ((x + 4) % 5) 0 ^^^ rotate (column.getD ((x + 1) % 5) 0) 1
  let mixed := (Array.range 25).map fun i => s.getD i 0 ^^^ spread.getD (i % 5) 0
  let moved := (Array.range 25).map fun i =>
    let x := i % 5
    let y := i / 5
    let source := (x + 3 * y) % 5 + 5 * x
    rotate (mixed.getD source 0) (offsets.getD source 0)
  let twisted := (Array.range 25).map fun i =>
    let x := i % 5
    let y := i / 5
    lane moved x y ^^^ ((lane moved (x + 1) y ^^^ 0xffffffffffffffff) &&& lane moved (x + 2) y)
  twisted.setIfInBounds 0 (twisted.getD 0 0 ^^^ constant)

def permute (s : Array UInt64) : Array UInt64 := constants.foldl round s

def absorb (s : Array UInt64) (block : Bytes) : Array UInt64 :=
  let words := ((Bytes.pieces 8 block).map fun w => UInt64.ofNat (Bytes.toNat w)).toArray
  permute ((Array.range 25).map fun i => s.getD i 0 ^^^ words.getD i 0)

def pad (message : Bytes) : Bytes :=
  let missing := rate - message.length % rate
  if missing = 1 then message ++ [0x81]
  else message ++ [0x01] ++ Bytes.zeros (missing - 2) ++ [0x80]

def unpad? (bytes : Bytes) : Option Bytes :=
  match bytes.reverse with
  | [] => none
  | last :: before =>
    if last = 0x81 then some before.reverse
    else if last = 0x80 then
      match before.dropWhile (· == 0) with
      | 0x01 :: message => some message.reverse
      | _ => none
    else none

def digest (message : Bytes) : Bytes :=
  let s := (Bytes.pieces rate (pad message)).foldl absorb (Array.replicate 25 0)
  ((List.range 4).map fun i => Bytes.ofNat 8 (s.getD i 0).toNat).flatten

/-- The words have to fill one or more blocks and end in a padding. -/
def ofPaddedWords? (words : List Nat) : Option (Nat × Nat) :=
  if words.isEmpty ∨ words.length % 17 ≠ 0 then none
  else
    (unpad? (words.flatMap (Bytes.ofNat 8))).map fun message =>
      let d := digest message
      (Bytes.toNat (d.take 16), Bytes.toNat (d.drop 16))

end Sierra.Keccak
