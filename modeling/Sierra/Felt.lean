import Sierra.Failure
import Sierra.Text.Blank
import Sierra.Text.Quoted

/-!
# Field elements

Integers modulo `2 ^ 251 + 17 * 2 ^ 192 + 1`, kept reduced. Division by zero is zero; the square
root is the one that the Tonelli–Shanks iteration with the generator `3` ends in.
-/

namespace Sierra

def Felt.prime : Nat := pow2 251 + 17 * pow2 192 + 1

theorem Felt.prime_pos : 0 < Felt.prime := by decide

structure Felt where
  val : Nat
  isLt : val < Felt.prime
deriving DecidableEq

namespace Felt

instance : Inhabited Felt := ⟨⟨0, prime_pos⟩⟩

def ofNat (n : Nat) : Felt := ⟨n % prime, Nat.mod_lt _ prime_pos⟩

def ofInt (n : Int) : Felt := ofNat (n % (prime : Int)).toNat

def zero : Felt := ofNat 0

def isZero (f : Felt) : Bool := f.val == 0

def add (f g : Felt) : Felt := ofNat (f.val + g.val)

def sub (f g : Felt) : Felt := ofNat (f.val + (prime - g.val))

def mul (f g : Felt) : Felt := ofNat (f.val * g.val)

def neg (f : Felt) : Felt := ofNat (prime - f.val)

/-- By repeated squaring. -/
def powMod (modulus base exponent : Nat) : Nat :=
  if h : exponent = 0 then 1 % modulus
  else
    let half := powMod modulus base (exponent / 2)
    let square := half * half % modulus
    if exponent % 2 = 0 then square else square * base % modulus
termination_by exponent

def pow (f : Felt) (exponent : Nat) : Felt := ofNat (powMod prime f.val exponent)

def inv (f : Felt) : Felt := f.pow (prime - 2)

def div (f g : Felt) : Felt := f.mul g.inv

/-- The positive one when two are equally near. -/
def toSigned (f : Felt) : Int :=
  if prime / 2 < f.val then (f.val : Int) - prime else f.val

def toBytes (f : Felt) : Bytes := Bytes.ofNat 32 f.val

def ofBytes (bytes : Bytes) : Felt := ofNat (Bytes.toNat bytes)

/-- Lowest first. -/
def limbs (f : Felt) : List Nat :=
  [f.val % pow2 64, f.val / pow2 64 % pow2 64, f.val / pow2 128 % pow2 64, f.val / pow2 192 % pow2 64]

def toWord64? (f : Felt) : Option Nat := if f.val < pow2 64 then some f.val else none

def text (f : Felt) : String := toString f.val

def hex (f : Felt) : String := "0x" ++ Text.hexNumeral f.val

def twoAdicity : Nat := 192

def oddPart : Nat := (prime - 1) / pow2 twoAdicity

/-- At most `fuel` squarings. -/
def squaringsToOne : (fuel : Nat) → (b : Nat) → Nat
  | 0, _ => 0
  | fuel + 1, b => if b = 1 then 0 else 1 + squaringsToOne fuel (b * b % prime)

/-- The order of `b` is a power of two that falls in every round, so the exponent `r` bounds the
rounds. -/
def sqrtLoop : (fuel : Nat) → (y b g r : Nat) → Nat
  | 0, y, _, _, _ => y
  | fuel + 1, y, b, g, r =>
    let m := squaringsToOne r b
    if m = 0 then y
    else
      let t := powMod prime g (pow2 (r - m - 1))
      let g' := t * t % prime
      sqrtLoop fuel (y * t % prime) (b * g' % prime) g' m

def sqrt? (f : Felt) : Option Felt :=
  if f.val = 0 then some zero
  else if powMod prime f.val ((prime - 1) / 2) ≠ 1 then none
  else
    let w := powMod prime f.val ((oddPart - 1) / 2)
    let y := f.val * w % prime
    let b := w * y % prime
    some (ofNat (sqrtLoop (twoAdicity + 1) y b (powMod prime 3 oddPart) twoAdicity))

def ofShortString? (text : String) : Option Felt :=
  let bytes := Bytes.ofString text
  if bytes.length ≤ 31 then some (ofNat (Bytes.toNatBE bytes)) else none

def isShown (b : UInt8) : Bool := 0x20 ≤ b && b ≤ 0x7e

/-- 1 to 31 printable ASCII bytes. -/
def shortString? (f : Felt) : Option String :=
  let bytes := Bytes.minimalBE f.val
  if bytes.length = 0 ∨ 31 < bytes.length then none
  else if bytes.all isShown then some (String.ofList (bytes.map fun b => Char.ofNat b.toNat))
  else none

def parse (text : String) : Except Failure Felt :=
  match Text.literal? (Text.trim text) with
  | some n => .ok (ofInt n)
  | none => .error (.plain ("invalid felt252 literal " ++ Text.quote (Text.trim text)))

def ofShortString (text : String) : Except Failure Felt :=
  match ofShortString? text with
  | some f => .ok f
  | none => .error (.plain ("short string " ++ Text.quote text ++ " longer than 31 bytes"))

end Felt

end Sierra
