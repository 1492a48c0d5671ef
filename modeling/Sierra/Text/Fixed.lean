import Sierra.Power
import Sierra.Text.Search

/-!
# Numbers with a fixed count of decimals

A quotient is rounded to 53 significant binary digits and then to the decimals shown. Both times a
tie goes to the even neighbour.
-/

namespace Sierra.Text

/-- A tie goes to the even integer. -/
def roundDiv (num den : Nat) : Nat :=
  let q := num / den
  let twice := 2 * (num % den)
  if twice > den ∨ (twice = den ∧ q % 2 = 1) then q + 1 else q

structure Binary where
  mantissa : Nat
  exponent : Int
deriving DecidableEq, Repr

namespace Binary

/-- Fewer digits below `2 ^ (-1022)`. -/
def nearest (num den : Nat) : Binary :=
  if num = 0 ∨ den = 0 then ⟨0, 0⟩
  else
    let guess : Int := (Nat.log2 num : Int) - (Nat.log2 den : Int) - 53
    let fits (e : Int) : Bool :=
      if 0 ≤ e then num < pow2 53 * (den * pow2 e.toNat) else num * pow2 (-e).toNat < pow2 53 * den
    let e := [guess, guess + 1, guess + 2].find? fits |>.getD (guess + 2)
    let e := max e (-1074)
    let m := if 0 ≤ e then roundDiv num (den * pow2 e.toNat)
      else roundDiv (num * pow2 (-e).toNat) den
    ⟨m, e⟩

def scaled (b : Binary) (places : Nat) : Nat :=
  if 0 ≤ b.exponent then b.mantissa * pow2 b.exponent.toNat * pow10 places
  else roundDiv (b.mantissa * pow10 places) (pow2 (-b.exponent).toNat)

end Binary

def fixed (places : Nat) (negative : Bool) (num den : Nat) : String :=
  let digits := toString ((Binary.nearest num den).scaled places)
  let digits := String.ofList (List.replicate (places + 1 - digits.length) '0') ++ digits
  let whole := digits.toList.take (digits.length - places)
  let part := digits.toList.drop (digits.length - places)
  (if negative then "-" else "") ++ String.ofList whole ++
    (if places = 0 then "" else "." ++ String.ofList part)

end Sierra.Text
