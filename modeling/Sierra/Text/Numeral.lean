import Sierra.Bytes

/-!
# Numerals

A decimal numeral is an optional sign and digits. A literal also knows the marks `0b`, `0o` and
`0x`, takes a leading zero as base eight, and allows single underscores between digits or after a
mark.
-/

namespace Sierra.Text

def digitValue? (c : Char) : Option Nat :=
  if '0' ≤ c ∧ c ≤ '9' then some (c.toNat - 48)
  else if 'a' ≤ c ∧ c ≤ 'z' then some (c.toNat - 87)
  else if 'A' ≤ c ∧ c ≤ 'Z' then some (c.toNat - 55)
  else none

def digitIn? (base : Nat) (c : Char) : Option Nat :=
  match digitValue? c with
  | some d => if d < base then some d else none
  | none => none

/-- `acc` is the value so far. -/
def digitsFrom? (base : Nat) : (acc : Nat) → List Char → Option Nat
  | acc, [] => some acc
  | acc, c :: rest => do digitsFrom? base (acc * base + (← digitIn? base c)) rest

def digits? (base : Nat) (cs : List Char) : Option Nat :=
  if cs.isEmpty then none else digitsFrom? base 0 cs

/-- `digitBefore` says whether the character before was a digit or a base mark. -/
def separatedFrom? (base : Nat) : (acc : Nat) → (digitBefore : Bool) → List Char → Option Nat
  | acc, digitBefore, [] => if digitBefore then some acc else none
  | acc, digitBefore, c :: rest =>
    if c = '_' then
      if digitBefore then separatedFrom? base acc false rest else none
    else do separatedFrom? base (acc * base + (← digitIn? base c)) true rest

def magnitude? : List Char → Option Nat
  | [] => none
  | ['0'] => some 0
  | '0' :: c :: rest =>
    if c = 'x' ∨ c = 'X' then marked 16 rest
    else if c = 'o' ∨ c = 'O' then marked 8 rest
    else if c = 'b' ∨ c = 'B' then marked 2 rest
    else separatedFrom? 8 0 true (c :: rest)
  | c :: rest => separatedFrom? 10 0 false (c :: rest)
where
  /-- At least one digit is required. -/
  marked (base : Nat) (rest : List Char) : Option Nat :=
    if rest.isEmpty then none else separatedFrom? base 0 true rest

/-- The flag is set for a minus. -/
def splitSign : List Char → Bool × List Char
  | '-' :: rest => (true, rest)
  | '+' :: rest => (false, rest)
  | cs => (false, cs)

def signed (negative : Bool) (magnitude : Nat) : Int :=
  if negative then -(magnitude : Int) else magnitude

def literal? (text : String) : Option Int :=
  let (negative, rest) := splitSign text.toList
  (magnitude? rest).map (signed negative)

/-- No marks, no underscores. -/
def decimal? (text : String) : Option Int :=
  let (negative, rest) := splitSign text.toList
  (digits? 10 rest).map (signed negative)

/-- No sign is allowed. -/
def decimalBelow? (bound : Nat) (text : String) : Option Nat :=
  match digits? 10 text.toList with
  | some n => if n < bound then some n else none
  | none => none

def hexNumeral (value : Nat) : String := String.ofList (Nat.toDigits 16 value)

end Sierra.Text
