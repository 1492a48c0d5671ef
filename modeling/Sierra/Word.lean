import Sierra.Power

/-!
# Machine words

Words of 1 to 256 bits. Operations work on natural numbers below `2 ^ 256` and cut their result to a
width; signed ones read two's complement. Operands may carry bits above the width.
-/

namespace Sierra.Word

def modulus : Nat := pow2 256

/-- A negative width is beyond every word. -/
def width (bits : Int) : Nat := (bits % (pow2 64 : Nat)).toNat

def mask (bits x : Nat) : Nat := if 256 ≤ bits then x else x % pow2 bits

/-- The low `bits` bits as a signed number, in 256 bits. -/
def signExtend (bits x : Nat) : Nat :=
  if 256 ≤ bits ∨ bits = 0 then x
  else
    let low := x % pow2 bits
    if low < pow2 (bits - 1) then low else low + (modulus - pow2 bits)

def toSigned (x : Nat) : Int := if x < pow2 255 then x else (x : Int) - modulus

def ofInt (n : Int) : Nat := (n % (modulus : Int)).toNat

inductive Binary where
  | add | sub | mul | udiv | urem | sdiv | srem | and | or | xor | shl | lshr | ashr
deriving DecidableEq, Repr

inductive Modular where
  | addmod | submod | mulmod
deriving DecidableEq, Repr

inductive Pred where
  | eq | ne | ult | ule | ugt | uge | slt | sle | sgt | sge
deriving DecidableEq, Repr

inductive Cast where
  | zext | sext | trunc | bitcast
deriving DecidableEq, Repr

/-- Truncated toward zero; zero when dividing by zero. -/
def sdiv (x y : Nat) : Nat := ofInt ((toSigned x).tdiv (toSigned y))

/-- With the sign of the dividend; zero when dividing by zero. -/
def srem (x y : Nat) : Nat := if y = 0 then 0 else ofInt ((toSigned x).tmod (toSigned y))

def sar (x shift : Nat) : Nat := ofInt ((toSigned x) / pow2 shift)

/-- Before the result is cut; `none` for a zero divisor. -/
def binaryWide (op : Binary) (bits x y : Nat) : Option Nat :=
  match op with
  | .add => some ((x + y) % modulus)
  | .sub => some ((x + (modulus - y)) % modulus)
  | .mul => some (x * y % modulus)
  | .udiv => if y = 0 then none else some (x / y)
  | .urem => if y = 0 then none else some (x % y)
  | .sdiv => if y = 0 then none else some (sdiv (signExtend bits x) (signExtend bits y))
  | .srem => if y = 0 then none else some (srem (signExtend bits x) (signExtend bits y))
  | .and => some (x &&& y)
  | .or => some (x ||| y)
  | .xor => some (x ^^^ y)
  | .shl => some (if y < min bits 256 then (x <<< y) % modulus else 0)
  | .lshr => some (if y < min bits 256 then x >>> y else 0)
  | .ashr => some (sar (signExtend bits x) (min (if y < bits then y else bits) 255))

def binary (op : Binary) (bits x y : Nat) : Option Nat :=
  (binaryWide op bits x y).map (mask bits)

/-- Before the result is cut. -/
def modularWide (op : Modular) (x y m : Nat) : Nat :=
  match op with
  | .addmod => (x + y) % m
  | .mulmod => x * y % m
  | .submod =>
    let a := x % m
    let b := y % m
    if b ≤ a then a - b else m - b + a

def modular (op : Modular) (bits x y m : Nat) : Option Nat :=
  if m = 0 then none else some (mask bits (modularWide op x y m))

def compare (p : Pred) (bits x y : Nat) : Bool :=
  match p with
  | .eq => x == y
  | .ne => x != y
  | .ult => decide (x < y)
  | .ule => decide (x ≤ y)
  | .ugt => decide (y < x)
  | .uge => decide (y ≤ x)
  | .slt => decide (toSigned (signExtend bits x) < toSigned (signExtend bits y))
  | .sle => decide (toSigned (signExtend bits x) ≤ toSigned (signExtend bits y))
  | .sgt => decide (toSigned (signExtend bits y) < toSigned (signExtend bits x))
  | .sge => decide (toSigned (signExtend bits y) ≤ toSigned (signExtend bits x))

def cast (op : Cast) (fromBits toBits x : Nat) : Nat :=
  match op with
  | .sext => mask toBits (signExtend fromBits x)
  | .zext | .trunc | .bitcast => mask toBits (mask fromBits x)

end Sierra.Word
