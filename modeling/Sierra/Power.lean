/-!
# Powers and words

Powers of natural numbers, written as a function. Sizes, offsets and amounts are signed 64-bit
words, which wrap around.
-/

namespace Sierra

abbrev pow2 (n : Nat) : Nat := Nat.pow 2 n

abbrev pow10 (n : Nat) : Nat := Nat.pow 10 n

abbrev pow256 (n : Nat) : Nat := Nat.pow 256 n

def wrap64 (n : Int) : Int := Int.bmod n (pow2 64)

end Sierra
