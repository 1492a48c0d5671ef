import Sierra.Bytes

/-!
# BLAKE2b

The 256-bit digest that identifies a program by its stored image.
-/

namespace Sierra.Blake2b

def iv : Array UInt64 :=
  #[0x6a09e667f3bcc908, 0xbb67ae8584caa73b, 0x3c6ef372fe94f82b, 0xa54ff53a5f1d36f1,
    0x510e527fade682d1, 0x9b05688c2b3e6c1f, 0x1f83d9abfb41bd6b, 0x5be0cd19137e2179]

def schedule : List (List Nat) :=
  [[0, 1, 2, 3, 4, 5, 6, 7, 8, 9, 10, 11, 12, 13, 14, 15],
    [14, 10, 4, 8, 9, 15, 13, 6, 1, 12, 0, 2, 11, 7, 5, 3],
    [11, 8, 12, 0, 5, 2, 15, 13, 10, 14, 3, 6, 7, 1, 9, 4],
    [7, 9, 3, 1, 13, 12, 11, 14, 2, 6, 5, 10, 4, 0, 15, 8],
    [9, 0, 5, 7, 2, 4, 10, 15, 14, 1, 11, 12, 6, 8, 3, 13],
    [2, 12, 6, 10, 0, 11, 8, 3, 4, 13, 7, 5, 15, 14, 1, 9],
    [12, 5, 1, 15, 14, 13, 4, 10, 0, 7, 6, 3, 9, 2, 8, 11],
    [13, 11, 7, 14, 12, 1, 3, 9, 5, 0, 15, 4, 8, 6, 2, 10],
    [6, 15, 14, 9, 11, 3, 0, 8, 12, 2, 13, 7, 1, 4, 10, 5],
    [10, 2, 8, 4, 7, 6, 1, 5, 15, 11, 9, 14, 3, 12, 13, 0],
    [0, 1, 2, 3, 4, 5, 6, 7, 8, 9, 10, 11, 12, 13, 14, 15],
    [14, 10, 4, 8, 9, 15, 13, 6, 1, 12, 0, 2, 11, 7, 5, 3]]

def lanes : List (Nat × Nat × Nat × Nat) :=
  [(0, 4, 8, 12), (1, 5, 9, 13), (2, 6, 10, 14), (3, 7, 11, 15),
    (0, 5, 10, 15), (1, 6, 11, 12), (2, 7, 8, 13), (3, 4, 9, 14)]

def rotate (x : UInt64) (n : UInt64) : UInt64 := (x >>> n) ||| (x <<< (64 - n))

def mix (v : Array UInt64) (lane : Nat × Nat × Nat × Nat) (x y : UInt64) : Array UInt64 :=
  let (ia, ib, ic, id) := lane
  let word (i : Nat) : UInt64 := v.getD i 0
  let a := word ia + word ib + x
  let d := rotate (word id ^^^ a) 32
  let c := word ic + d
  let b := rotate (word ib ^^^ c) 24
  let a := a + b + y
  let d := rotate (d ^^^ a) 16
  let c := c + d
  let b := rotate (b ^^^ c) 63
  (((v.setIfInBounds ia a).setIfInBounds ib b).setIfInBounds ic c).setIfInBounds id d

def round (m : Array UInt64) : List (Nat × Nat × Nat × Nat) → List Nat → Array UInt64 →
    Array UInt64
  | lane :: lanes, i :: j :: order, v =>
    round m lanes order (mix v lane (m.getD i 0) (m.getD j 0))
  | _, _, v => v

def words (block : Bytes) : Array UInt64 :=
  ((Bytes.pieces 8 (Bytes.fit 128 block)).map fun w => UInt64.ofNat (Bytes.toNat w)).toArray

/-- `count` is the number of bytes up to the end of the block. -/
def compress (h : Array UInt64) (block : Bytes) (count : Nat) (last : Bool) : Array UInt64 :=
  let m := words block
  let tail := #[iv.getD 0 0, iv.getD 1 0, iv.getD 2 0, iv.getD 3 0,
    iv.getD 4 0 ^^^ UInt64.ofNat count, iv.getD 5 0 ^^^ UInt64.ofNat (count / pow2 64),
    if last then iv.getD 6 0 ^^^ 0xffffffffffffffff else iv.getD 6 0, iv.getD 7 0]
  let v := schedule.foldl (fun v order => round m lanes order v) (h ++ tail)
  (Array.range 8).map fun i => h.getD i 0 ^^^ v.getD i 0 ^^^ v.getD (i + 8) 0

def absorb : (h : Array UInt64) → (count : Nat) → List Bytes → Array UInt64
  | h, _, [] => h
  | h, count, [block] => compress h block (count + block.length) true
  | h, count, block :: rest => absorb (compress h block (count + 128) false) (count + 128) rest

def digest (message : Bytes) : Bytes :=
  let start := iv.setIfInBounds 0 (iv.getD 0 0 ^^^ 0x01010020)
  let blocks := if message.isEmpty then [[]] else Bytes.pieces 128 message
  let h := absorb start 0 blocks
  (h.toList.take 4).flatMap fun w => Bytes.ofNat 8 w.toNat

end Sierra.Blake2b
