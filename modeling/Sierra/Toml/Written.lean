import Sierra.Text.Numeral

/-!
# Written TOML

Table headers and pairs of a key and a value, by version 1.0 of the format; a time of day may have a
single digit for the hour.
-/

namespace Sierra.Toml

abbrev Key := List String

inductive Term where
  | string (text : String)
  | integer (value : Int)
  | float (text : String)
  | boolean (value : Bool)
  | time (text : String)
  | array (items : List Term)
  | inline (entries : List (Key × Term))
deriving Inhabited

inductive Line where
  | table (key : Key)
  | tables (key : Key)
  | pair (key : Key) (value : Term)
deriving Inhabited

/-! ## Characters -/

def isGap (c : Char) : Bool := c = ' ' || c = '\t'

def isBreak (c : Char) : Bool := c = '\n' || c = '\r'

def isDigit (c : Char) : Bool := '0' ≤ c && c ≤ '9'

def isHex (c : Char) : Bool := (Text.digitIn? 16 c).isSome

def isBare (c : Char) : Bool :=
  ('a' ≤ c && c ≤ 'z') || ('A' ≤ c && c ≤ 'Z') || isDigit c || c = '_' || c = '-'

def skipGap (cs : List Char) : List Char := cs.dropWhile isGap

/-- No control characters but tabs and ends of lines, a carriage return only before a line feed, and
no replacement character, which stands for bytes that are no text. -/
def isClean : List Char → Bool
  | [] => true
  | '\r' :: '\n' :: rest => isClean rest
  | c :: rest => (c = '\t' || c = '\n' || (0x20 ≤ c.toNat && c.toNat ≠ 0x7f && c ≠ '\ufffd')) && isClean rest

/-! ## Strings -/

def codePoint (count : Nat) (cs : List Char) : Option (Char × List Char) := do
  let digits := cs.take count
  if digits.length < count ∨ !digits.all isHex then none
  let n ← Text.digits? 16 digits
  if n < 0xd800 ∨ (0xe000 ≤ n ∧ n < 0x110000) then some (Char.ofNat n, cs.drop count) else none

def escape : List Char → Option (Char × List Char)
  | 'b' :: rest => some ('\x08', rest)
  | 't' :: rest => some ('\t', rest)
  | 'n' :: rest => some ('\n', rest)
  | 'f' :: rest => some ('\x0c', rest)
  | 'r' :: rest => some ('\r', rest)
  | '"' :: rest => some ('"', rest)
  | '\\' :: rest => some ('\\', rest)
  | 'u' :: rest => codePoint 4 rest
  | 'U' :: rest => codePoint 8 rest
  | _ => none

def basic : (fuel : Nat) → List Char → Option (List Char × List Char)
  | 0, _ => none
  | _, [] => none
  | _, '"' :: rest => some ([], rest)
  | fuel + 1, '\\' :: rest => do
    let (c, rest) ← escape rest
    let (more, rest) ← basic fuel rest
    return (c :: more, rest)
  | fuel + 1, c :: rest =>
    if isBreak c then none
    else do
      let (more, rest) ← basic fuel rest
      return (c :: more, rest)

def raw (cs : List Char) : Option (List Char × List Char) :=
  let text := cs.takeWhile fun c => c ≠ '\'' && !isBreak c
  match cs.drop text.length with
  | '\'' :: rest => some (text, rest)
  | _ => none

def skipBreak : List Char → List Char
  | '\n' :: rest => rest
  | '\r' :: '\n' :: rest => rest
  | cs => cs

/-- How many quotes belong to the text, and whether the string ends: three end it, after at most
`spare` more. -/
def quotes (spare count : Nat) : Option (Nat × Bool) :=
  if count < 3 then some (count, false)
  else if count ≤ spare + 3 then some (count - 3, true)
  else none

/-- A backslash at the end of a line stands for nothing, nor do blanks and ends of lines after it.
Two quotes may stand before the end, and three after an escaped backslash. -/
def longBasic : (fuel spare : Nat) → List Char → Option (List Char × List Char)
  | 0, _, _ => none
  | _, _, [] => none
  | fuel + 1, spare, '"' :: rest => do
    let run := ('"' :: rest).takeWhile (· = '"')
    let after := ('"' :: rest).drop run.length
    let (kept, ends) ← quotes spare run.length
    let text := List.replicate kept '"'
    if ends then return (text, after)
    let (more, rest) ← longBasic fuel 2 after
    return (text ++ more, rest)
  | fuel + 1, _, '\\' :: rest =>
    let blanks := rest.takeWhile fun c => isGap c || isBreak c
    if blanks.isEmpty then do
      let spare := if rest.head? = some '\\' then 3 else 2
      let (c, rest) ← escape rest
      let (more, rest) ← longBasic fuel spare rest
      return (c :: more, rest)
    else if blanks.contains '\n' then longBasic fuel 2 (rest.drop blanks.length)
    else none
  | fuel + 1, _, c :: rest => do
    let (more, rest) ← longBasic fuel 2 rest
    return (c :: more, rest)

def longRaw : (fuel : Nat) → List Char → Option (List Char × List Char)
  | 0, _ => none
  | _, [] => none
  | fuel + 1, '\'' :: rest => do
    let run := ('\'' :: rest).takeWhile (· = '\'')
    let after := ('\'' :: rest).drop run.length
    let (kept, ends) ← quotes 2 run.length
    let text := List.replicate kept '\''
    if ends then return (text, after)
    let (more, rest) ← longRaw fuel after
    return (text ++ more, rest)
  | fuel + 1, c :: rest => do
    let (more, rest) ← longRaw fuel rest
    return (c :: more, rest)

/-! ## Numbers -/

def underscoresFit : (digitBefore : Bool) → List Char → Bool
  | before, [] => before
  | before, c :: rest => (c ≠ '_' || before) && underscoresFit (isHex c) rest

def hasLeadingZero : List Char → Bool
  | '0' :: c :: _ => c ≠ 'b' && c ≠ 'o' && c ≠ 'x'
  | '-' :: '0' :: _ :: _ | '+' :: '0' :: _ :: _ => true
  | _ => false

def integer? (cs : List Char) : Option Term :=
  if !underscoresFit false cs || hasLeadingZero cs then none
  else do
    let n ← Text.literal? (String.ofList cs)
    if -(pow2 63) ≤ n ∧ n < pow2 63 then some (.integer n) else none

def partsBetween (isMark : Char → Bool) (cs : List Char) : List (List Char) :=
  (cs.splitBy fun a b => isMark a == isMark b).filter fun part => !part.any isMark

/-- The least magnitude that rounds to no double. -/
def floatBound : Nat := pow2 1024 - pow2 970

def inFloatRange (digits : Nat) (exponent : Int) : Bool :=
  let size : Int := (toString digits).length + exponent
  if digits = 0 ∨ size < 300 then true
  else if 320 < size then false
  else if 0 ≤ exponent then digits * pow10 exponent.toNat < floatBound
  else digits < floatBound * pow10 (-exponent).toNat

def isFloat (cs : List Char) : Bool :=
  let cs := (Text.splitSign cs).2
  let whole := cs.takeWhile isDigit
  let cs := cs.drop whole.length
  let (fraction, cs) : List Char × List Char := match cs with
    | '.' :: rest => (rest.takeWhile isDigit, rest.dropWhile isDigit)
    | _ => ([], cs)
  let exponent : Option Int := match cs with
    | [] => some 0
    | e :: rest =>
      if e = 'e' ∨ e = 'E' then
        let (negative, digits) := Text.splitSign rest
        (Text.digits? 10 digits).map (Text.signed negative)
      else none
  match exponent with
  | none => false
  | some e =>
    !whole.isEmpty &&
      inFloatRange ((Text.digits? 10 (whole ++ fraction)).getD 0) (e - fraction.length)

def float? (cs : List Char) : Option Term :=
  let parts := partsBetween (fun c => c = '.' || c = 'e' || c = 'E') cs
  let isPointed : List Char → Bool := fun cs => (cs.zip (cs.drop 1 ++ [' '])).all fun (a, b) =>
    a ≠ '.' || isDigit b
  if parts.all (underscoresFit false) && !(parts.head?.any hasLeadingZero) && isPointed cs &&
      isFloat (cs.filter (· ≠ '_')) then
    some (.float (String.ofList cs))
  else none

/-! ## Times -/

def twoDigits : List Char → Option (Nat × List Char)
  | a :: b :: rest => do return (← Text.digits? 10 [a, b], rest)
  | _ => none

def daysIn (year month : Nat) : Nat :=
  if month = 2 then
    if year % 4 = 0 ∧ (year % 100 ≠ 0 ∨ year % 400 = 0) then 29 else 28
  else if month ∈ [4, 6, 9, 11] then 30
  else 31

def afterDate (cs : List Char) : Option (List Char) := do
  let year ← if (cs.take 4).length = 4 then Text.digits? 10 (cs.take 4) else none
  match cs.drop 4 with
  | '-' :: rest =>
    match ← twoDigits rest with
    | (month, '-' :: rest) =>
      let (day, rest) ← twoDigits rest
      if 1 ≤ month ∧ month ≤ 12 ∧ 1 ≤ day ∧ day ≤ daysIn year month then some rest else none
    | _ => none
  | _ => none

def hourDigits : List Char → Option (Nat × List Char)
  | a :: b :: rest =>
    if isDigit b then twoDigits (a :: b :: rest)
    else do return (← Text.digits? 10 [a], b :: rest)
  | cs => do return (← Text.digits? 10 cs, [])

def afterClock (cs : List Char) : Option (List Char) := do
  match ← hourDigits cs with
  | (hour, ':' :: rest) =>
    match ← twoDigits rest with
    | (minute, ':' :: rest) =>
      let (second, rest) ← twoDigits rest
      if hour < 24 ∧ minute < 60 ∧ second < 60 then
        match rest with
        | '.' :: c :: more => some (if isDigit c then more.dropWhile isDigit else rest)
        | _ => some rest
      else none
    | _ => none
  | _ => none

def isZone : List Char → Bool
  | [] | ['Z'] => true
  | sign :: rest =>
    (sign = '+' || sign = '-') &&
      match twoDigits rest with
      | some (hours, ':' :: rest) =>
        match twoDigits rest with
        | some (minutes, []) => hours ≤ 24 && minutes ≤ 60
        | _ => false
      | _ => false

def isTime (cs : List Char) : Bool :=
  match afterDate cs with
  | some [] => true
  | some ('T' :: rest) => (afterClock rest).any isZone
  | some _ => false
  | none => afterClock cs = some []

/-- A blank may stand between date and time of day. -/
def time? (cs : List Char) : Option Term :=
  let cs := (cs.reverse.dropWhile (· = ' ')).reverse
  let spelled := cs.map fun c => if c = 'z' then 'Z' else if c = 't' ∨ c = ' ' then 'T' else c
  if isTime spelled then some (.time (String.ofList cs)) else none

/-! ## Values -/

def fromRun (isPart : Char → Bool) (f : List Char → Option Term) (cs : List Char) :
    Option (Term × List Char) := do
  let run := cs.takeWhile isPart
  return (← f run, cs.drop run.length)

def isFloatPart (c : Char) : Bool := isDigit c || ['_', '.', '-', '+', 'e', 'E'].contains c

def isTimePart (c : Char) : Bool :=
  isDigit c || ['-', ':', 'T', 't', ' ', '.', 'Z', 'z', '+'].contains c

def decimal (cs : List Char) : Option (Term × List Char) :=
  let signs := cs.takeWhile fun c => c = '+' || c = '-'
  let front := signs ++ (cs.drop signs.length).takeWhile fun c => isDigit c || c = '_'
  match cs.drop front.length with
  | c :: _ =>
    if c = '.' ∨ c = 'e' ∨ c = 'E' then fromRun isFloatPart float? cs
    else do return (← integer? front, cs.drop front.length)
  | [] => do return (← integer? front, [])

def based (isIn : Char → Bool) (cs : List Char) : Option (Term × List Char) :=
  match cs.drop 2 with
  | c :: _ =>
    if isIn c then do
      let run := (cs.drop 2).takeWhile fun c => isIn c || c = '_'
      return (← integer? (cs.take 2 ++ run), cs.drop (2 + run.length))
    else none
  | [] => none

def number (cs : List Char) : Option (Term × List Char) :=
  match cs with
  | '0' :: 'b' :: _ => based (fun c => c = '0' || c = '1') cs
  | '0' :: 'o' :: _ => based (fun c => '0' ≤ c && c ≤ '7') cs
  | '0' :: 'x' :: _ => based isHex cs
  | _ =>
    let digits := cs.takeWhile isDigit
    match cs.drop digits.length with
    | c :: _ =>
      if (c = '-' ∨ c = ':') ∧ digits ≠ ['0'] then fromRun isTimePart time? cs else decimal cs
    | [] => decimal cs

def scalar (fuel : Nat) : List Char → Option (Term × List Char)
  | '"' :: '"' :: '"' :: rest => do
    let (text, rest) ← longBasic fuel 2 (skipBreak rest)
    return (.string (String.ofList text), rest)
  | '"' :: rest => do
    let (text, rest) ← basic fuel rest
    return (.string (String.ofList text), rest)
  | '\'' :: '\'' :: '\'' :: rest => do
    let (text, rest) ← longRaw fuel (skipBreak rest)
    return (.string (String.ofList text), rest)
  | '\'' :: rest => do
    let (text, rest) ← raw rest
    return (.string (String.ofList text), rest)
  | 't' :: 'r' :: 'u' :: 'e' :: rest => some (.boolean true, rest)
  | 'f' :: 'a' :: 'l' :: 's' :: 'e' :: rest => some (.boolean false, rest)
  | 'i' :: 'n' :: 'f' :: rest => some (.float "inf", rest)
  | 'n' :: 'a' :: 'n' :: rest => some (.float "nan", rest)
  | c :: rest =>
    if isDigit c then number (c :: rest)
    else if c = '+' ∨ c = '-' then
      match rest with
      | 'i' :: 'n' :: 'f' :: rest => some (.float (String.ofList [c, 'i', 'n', 'f']), rest)
      | 'n' :: 'a' :: 'n' :: rest => some (.float (String.ofList [c, 'n', 'a', 'n']), rest)
      | '0' :: 'b' :: _ | '0' :: 'o' :: _ | '0' :: 'x' :: _ => none
      | digit :: _ => if isDigit digit then decimal (c :: rest) else none
      | [] => none
    else none
  | [] => none

/-! ## Keys -/

def keyPart (fuel : Nat) : List Char → Option (String × List Char)
  | '"' :: rest => do
    let (text, rest) ← basic fuel rest
    return (String.ofList text, rest)
  | '\'' :: rest => do
    let (text, rest) ← raw rest
    return (String.ofList text, rest)
  | cs =>
    let name := cs.takeWhile isBare
    if name.isEmpty then none else some (String.ofList name, cs.drop name.length)

def key : (fuel : Nat) → List Char → Option (Key × List Char)
  | 0, _ => none
  | fuel + 1, cs => do
    let (part, rest) ← keyPart (fuel + 1) (skipGap cs)
    match skipGap rest with
    | '.' :: rest =>
      let (more, rest) ← key fuel rest
      return (part :: more, rest)
    | rest => return ([part], rest)

/-! ## Nested values -/

def skipBlank : (fuel : Nat) → List Char → List Char
  | 0, cs => cs
  | fuel + 1, cs =>
    match cs.dropWhile fun c => isGap c || isBreak c with
    | '#' :: rest => skipBlank fuel (rest.dropWhile fun c => !isBreak c)
    | rest => rest

mutual

def term : (fuel : Nat) → List Char → Option (Term × List Char)
  | 0, _ => none
  | fuel + 1, cs =>
    match skipGap cs with
    | '[' :: rest => do
      let (items, rest) ← arrayItems fuel rest
      return (.array items, rest)
    | '\x7b' :: rest =>
      match skipGap rest with
      | '\x7d' :: rest => some (.inline [], rest)
      | rest => do
        let (entries, rest) ← inlineEntries fuel rest
        return (.inline entries, rest)
    | rest => scalar (fuel + 1) rest

def arrayItems : (fuel : Nat) → List Char → Option (List Term × List Char)
  | 0, _ => none
  | fuel + 1, cs =>
    match skipBlank (fuel + 1) cs with
    | ']' :: rest => some ([], rest)
    | rest => do
      let (item, rest) ← term fuel rest
      match skipBlank (fuel + 1) rest with
      | ',' :: rest =>
        let (more, rest) ← arrayItems fuel rest
        return (item :: more, rest)
      | ']' :: rest => return ([item], rest)
      | _ => none

def inlineEntries : (fuel : Nat) → List Char → Option (List (Key × Term) × List Char)
  | 0, _ => none
  | fuel + 1, cs => do
    match ← key (fuel + 1) cs with
    | (name, '=' :: rest) =>
      let (value, rest) ← term fuel rest
      match skipGap rest with
      | ',' :: rest =>
        let (more, rest) ← inlineEntries fuel rest
        return ((name, value) :: more, rest)
      | '\x7d' :: rest => return ([(name, value)], rest)
      | _ => none
    | _ => none

end

/-! ## Lines -/

def line (fuel : Nat) : List Char → Option (Line × List Char)
  | '[' :: '[' :: rest => do
    match ← key fuel rest with
    | (name, ']' :: ']' :: rest) => return (.tables name, rest)
    | _ => none
  | '[' :: rest => do
    match ← key fuel rest with
    | (name, ']' :: rest) => return (.table name, rest)
    | _ => none
  | cs => do
    match ← key fuel cs with
    | (name, '=' :: rest) =>
      let (value, rest) ← term fuel rest
      return (.pair name value, rest)
    | _ => none

def linesFrom : (fuel : Nat) → List Char → Option (List Line)
  | 0, _ => none
  | fuel + 1, cs =>
    match skipBlank (fuel + 1) cs with
    | [] => some []
    | rest => do
      let (first, rest) ← line (fuel + 1) rest
      match skipGap rest with
      | [] => return [first]
      | c :: rest =>
        if isBreak c ∨ c = '#' then return first :: (← linesFrom fuel (c :: rest)) else none

/-- A byte order mark is skipped. -/
def lines (text : String) : Option (List Line) :=
  let cs := match text.toList with
    | '\ufeff' :: rest => rest
    | cs => cs
  if isClean cs then linesFrom (cs.length + 2) cs else none

end Sierra.Toml
