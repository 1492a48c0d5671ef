import Sierra.Failure
import Sierra.Text.Quoted

/-!
# Flags

A flag is written with two dashes and its name, or with one dash and its letter; letters may stand
together. A value follows an equals sign, is the next word or, behind a letter, the rest of the
word. Everything behind a bare double dash is an argument.
-/

namespace Sierra.Cli

inductive FlagKind where
  | text
  /-- True when no value is given. -/
  | truth
  | count
  | integer
  | word
deriving DecidableEq, Repr

structure Flag where
  name : String
  letter : Option Char := none
  kind : FlagKind := .text
  usage : String := ""
  initial : String := ""
deriving Repr

namespace Flag

def alone (f : Flag) : Option String :=
  match f.kind with
  | .truth => some "true"
  | .count => some "+1"
  | _ => none

def title (f : Flag) : String :=
  match f.letter with
  | some c => s!"-{c}, --{f.name}"
  | none => "--" ++ f.name

def truth? (text : String) : Option Bool :=
  if ["1", "t", "T", "TRUE", "true", "True"].contains text then some true
  else if ["0", "f", "F", "FALSE", "false", "False"].contains text then some false
  else none

/-- Whether a number outgrows 64 bits before a digit is wrong. -/
def outgrows (text : String) : Bool :=
  let cs := (Text.splitSign text.toList).2
  let (base, digits) : Nat × List Char := match cs with
    | '0' :: c :: d :: rest =>
      if c = 'x' ∨ c = 'X' then (16, d :: rest)
      else if c = 'o' ∨ c = 'O' then (8, d :: rest)
      else if c = 'b' ∨ c = 'B' then (2, d :: rest)
      else (8, cs)
    | '0' :: _ => (8, cs)
    | _ => (10, cs)
  let front := digits.takeWhile fun c => c = '_' || (Text.digitIn? base c).isSome
  (Text.digits? base (front.filter (· ≠ '_'))).any fun n => pow2 64 ≤ n

def hasSign (text : String) : Bool := text.startsWith "-" || text.startsWith "+"

/-- The name of the reader stands in messages. -/
def checkNumber (reader text : String) (lo hi : Int) (n : Option Int) (outgrown : Bool) :
    Except String Unit :=
  let refused (why : String) : Except String Unit :=
    .error (reader ++ ": parsing " ++ Text.quote text ++ ": " ++ why)
  match n with
  | none => refused (if outgrown then "value out of range" else "invalid syntax")
  | some n => if lo ≤ n ∧ n ≤ hi then .ok () else refused "value out of range"

def checkSigned (text : String) : Except String Unit :=
  checkNumber "strconv.ParseInt" text (-pow2 63) (pow2 63 - 1) (Text.literal? text) (outgrows text)

def checkUnsigned (text : String) : Except String Unit :=
  checkNumber "strconv.ParseUint" text 0 (pow2 64 - 1)
    (if hasSign text then none else Text.literal? text) (!hasSign text && outgrows text)

def check (f : Flag) (value : String) : Except String Unit :=
  match f.kind with
  | .text => .ok ()
  | .truth =>
    if (truth? value).isSome then .ok ()
    else .error ("strconv.ParseBool: parsing " ++ Text.quote value ++ ": invalid syntax")
  | .count => if value = "+1" then .ok () else checkSigned value
  | .integer => checkSigned value
  | .word => checkUnsigned value

end Flag

structure Given where
  values : List (String × String) := []
  args : List String := []

namespace Given

def has (g : Given) (name : String) : Bool := (g.values.lookup name).isSome

def text (g : Given) (name : String) (initial : String := "") : String :=
  (g.values.lookup name).getD initial

def truth (g : Given) (name : String) : Bool := ((g.values.lookup name).bind Flag.truth?).getD false

/-- A value stands in place of what was counted before it. -/
def count (g : Given) (name : String) : Int :=
  (g.values.filter fun v => v.1 == name).foldr (fun v n =>
    if v.2 = "+1" then n + 1 else (Text.literal? v.2).getD 0) 0

def number (g : Given) (name : String) : Int := ((g.values.lookup name).bind Text.literal?).getD 0

end Given

structure Words where
  given : Given := {}
  /-- A flag that waits for its value, with the complaint. -/
  waiting : Option (Flag × String) := none
  /-- Whether only arguments follow. -/
  onlyArgs : Bool := false

namespace Words

def set (w : Words) (f : Flag) (value : String) : Except Failure Words :=
  match f.check value with
  | .ok () => .ok { w with given.values := (f.name, value) :: w.given.values, waiting := none }
  | .error why =>
    .error (.plain ("invalid argument " ++ Text.quote value ++ " for " ++ Text.quote f.title ++
      " flag: " ++ why))

def argument (w : Words) (word : String) : Words := { w with given.args := w.given.args ++ [word] }

/-- `text` stands behind the two dashes. -/
def long (flags : List Flag) (w : Words) (text : String) : Except Failure Words :=
  let chars := text.toList
  if chars.isEmpty || chars.head? = some '-' || chars.head? = some '=' then
    .error (.plain ("bad flag syntax: --" ++ text))
  else
    let name := String.ofList (chars.takeWhile (· ≠ '='))
    match flags.find? fun f => f.name == name with
    | none => .error (.plain ("unknown flag: --" ++ name))
    | some f =>
      match chars.dropWhile (· ≠ '='), f.alone with
      | _ :: value, _ => w.set f (String.ofList value)
      | [], some value => w.set f value
      | [], none => .ok { w with waiting := some (f, "flag needs an argument: --" ++ name) }

/-- All letters beyond ASCII are shown alike. -/
def shownLetter (c : Char) : String := Text.quoteChar (if c.toNat < 0x80 then c else 'Ã')

/-- What starts like a flag of a test is passed over. -/
def short (flags : List Flag) (w : Words) : List Char → Except Failure Words
  | [] => .ok w
  | 't' :: 'e' :: 's' :: 't' :: '.' :: _ => .ok w
  | c :: rest =>
    let place := shownLetter c ++ " in -" ++ String.ofList (c :: rest)
    match flags.find? fun f => f.letter == some c with
    | none => .error (.plain ("unknown shorthand flag: " ++ place))
    | some f =>
      match rest, f.alone with
      | '=' :: d :: value, _ => w.set f (String.ofList (d :: value))
      | rest, some value => do short flags (← w.set f value) rest
      | [], none => .ok { w with waiting := some (f, "flag needs an argument: " ++ place) }
      | value, none => w.set f (String.ofList value)

def step (flags : List Flag) (w : Words) (word : String) : Except Failure Words :=
  match w.waiting with
  | some (f, _) => w.set f word
  | none =>
    if w.onlyArgs then .ok (w.argument word)
    else
      match word.toList with
      | '-' :: '-' :: [] => .ok { w with onlyArgs := true }
      | '-' :: '-' :: text => long flags w (String.ofList text)
      | '-' :: c :: letters => short flags w (c :: letters)
      | _ => .ok (w.argument word)

end Words

def Given.read (flags : List Flag) (words : List String) : Except Failure Given := do
  let w ← words.foldlM (Words.step flags) {}
  match w.waiting with
  | some (_, complaint) => .error (.plain complaint)
  | none => return w.given

end Sierra.Cli
