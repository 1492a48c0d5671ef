import Sierra.Bytes

/-!
# SHA-256

A message is filled up to blocks of 64 bytes, ending in the count of its bits, which go into a state
of eight words one after another.
-/

namespace Sierra.Sha256

def start : List UInt32 :=
  [0x6a09e667, 0xbb67ae85, 0x3c6ef372, 0xa54ff53a, 0x510e527f, 0x9b05688c, 0x1f83d9ab, 0x5be0cd19]

def constants : List UInt32 :=
  [0x428a2f98, 0x71374491, 0xb5c0fbcf, 0xe9b5dba5, 0x3956c25b, 0x59f111f1, 0x923f82a4, 0xab1c5ed5,
    0xd807aa98, 0x12835b01, 0x243185be, 0x550c7dc3, 0x72be5d74, 0x80deb1fe, 0x9bdc06a7, 0xc19bf174,
    0xe49b69c1, 0xefbe4786, 0x0fc19dc6, 0x240ca1cc, 0x2de92c6f, 0x4a7484aa, 0x5cb0a9dc, 0x76f988da,
    0x983e5152, 0xa831c66d, 0xb00327c8, 0xbf597fc7, 0xc6e00bf3, 0xd5a79147, 0x06ca6351, 0x14292967,
    0x27b70a85, 0x2e1b2138, 0x4d2c6dfc, 0x53380d13, 0x650a7354, 0x766a0abb, 0x81c2c92e, 0x92722c85,
    0xa2bfe8a1, 0xa81a664b, 0xc24b8b70, 0xc76c51a3, 0xd192e819, 0xd6990624, 0xf40e3585, 0x106aa070,
    0x19a4c116, 0x1e376c08, 0x2748774c, 0x34b0bcb5, 0x391c0cb3, 0x4ed8aa4a, 0x5b9cca4f, 0x682e6ff3,
    0x748f82ee, 0x78a5636f, 0x84c87814, 0x8cc70208, 0x90befffa, 0xa4506ceb, 0xbef9a3f7, 0xc67178f2]

def rotate (x : UInt32) (n : UInt32) : UInt32 := (x >>> n) ||| (x <<< (32 - n))

def pad (message : Bytes) : Bytes :=
  let missing := (119 - message.length % 64) % 64
  message ++ [0x80] ++ Bytes.zeros missing ++ Bytes.ofNatBE 8 (8 * message.length)

def nextWord (latest : List UInt32) : UInt32 :=
  let nth (i : Nat) : UInt32 := latest.getD i 0
  let small (x : UInt32) : UInt32 := rotate x 7 ^^^ rotate x 18 ^^^ (x >>> 3)
  let large (x : UInt32) : UInt32 := rotate x 17 ^^^ rotate x 19 ^^^ (x >>> 10)
  large (nth 1) + nth 6 + small (nth 14) + nth 15

def lengthen : (rounds : Nat) → List UInt32 → List UInt32
  | 0, latest => latest
  | rounds + 1, latest => lengthen rounds (nextWord latest :: latest)

def schedule (block : Bytes) : List UInt32 :=
  let words := (Bytes.pieces 4 block).map fun w => UInt32.ofNat (Bytes.toNatBE w)
  (lengthen 48 words.reverse).reverse

def round (s : List UInt32) (constant word : UInt32) : List UInt32 :=
  match s with
  | [a, b, c, d, e, f, g, h] =>
    let choice := (e &&& f) ^^^ ((e ^^^ 0xffffffff) &&& g)
    let majority := (a &&& b) ^^^ (a &&& c) ^^^ (b &&& c)
    let first := h + (rotate e 6 ^^^ rotate e 11 ^^^ rotate e 25) + choice + constant + word
    let second := (rotate a 2 ^^^ rotate a 13 ^^^ rotate a 22) + majority
    [first + second, a, b, c, d + first, e, f, g]
  | s => s

def absorb (s : List UInt32) (block : Bytes) : List UInt32 :=
  let mixed := (constants.zip (schedule block)).foldl (fun s (k, w) => round s k w) s
  s.zipWith (· + ·) mixed

def digest (message : Bytes) : Bytes :=
  ((Bytes.pieces 64 (pad message)).foldl absorb start).flatMap fun w => Bytes.ofNatBE 4 w.toNat

end Sierra.Sha256
