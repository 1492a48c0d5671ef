import Sierra.Text.Numeral

/-!
# Reading by tokens

Each token remembers where it starts. Alternatives are tried in order; one that fails within the
first few tokens it takes is undone, while one that fails later ends the reading.
-/

namespace Sierra

/-- Line and column are counted from one, the column in characters. -/
structure Place where
  line : Nat := 1
  column : Nat := 1
deriving DecidableEq, Repr, Inhabited

namespace Place

def after (p : Place) (c : Char) : Place :=
  if c = '\n' then ⟨p.line + 1, 1⟩ else ⟨p.line, p.column + 1⟩

def afterAll (p : Place) (cs : List Char) : Place := cs.foldl after p

end Place

structure Token (κ : Type) where
  kind : κ
  text : String
  place : Place
deriving DecidableEq, Repr, Inhabited

namespace Token

variable {κ : Type}

def isNameStart (c : Char) : Bool := ('a' ≤ c && c ≤ 'z') || ('A' ≤ c && c ≤ 'Z') || c = '_'

def isDigit (c : Char) : Bool := '0' ≤ c && c ≤ '9'

def isNamePart (c : Char) : Bool := isNameStart c || isDigit c

def isSpace (c : Char) : Bool := c = ' ' || c = '\t' || c = '\r' || c = '\n'

/-- The place of the first character that starts no token is an error. Every piece has a character
at least, so `fuel` may be the length of the text. -/
def scanFrom (piece? : List Char → Option (Option κ × List Char)) :
    (fuel : Nat) → Place → List Char → Except Place (List (Token κ))
  | _, _, [] => .ok []
  | 0, place, _ => .error place
  | fuel + 1, place, cs =>
    match piece? cs with
    | none => .error place
    | some (kind, front) =>
      let next := place.afterAll front
      let rest := cs.drop front.length
      match kind with
      | none => scanFrom piece? fuel next rest
      | some kind => do
        return ⟨kind, String.ofList front, place⟩ :: (← scanFrom piece? fuel next rest)

def scan (piece? : List Char → Option (Option κ × List Char)) (text : String) :
    Except Place (List (Token κ)) :=
  scanFrom piece? text.length {} text.toList

end Token

/-- A value with the number of tokens taken and the tokens left; nothing at all; or a failure after
some tokens. -/
inductive Reading (κ α : Type) where
  | ok (value : α) (taken : Nat) (rest : List (Token κ))
  | miss
  | fail (taken : Nat)

abbrev Reader (κ α : Type) := List (Token κ) → Reading κ α

namespace Reader

variable {κ α β : Type}

def token (test : Token κ → Bool) : Reader κ String
  | [] => .miss
  | t :: rest => if test t then .ok t.text 1 rest else .miss

def word (text : String) : Reader κ String := token fun t => t.text == text

def kind [BEq κ] (k : κ) : Reader κ String := token fun t => t.kind == k

def place (tokens : List (Token κ)) : Place := (tokens.head?.map (·.place)).getD {}

def map (f : α → β) (p : Reader κ α) : Reader κ β := fun tokens =>
  match p tokens with
  | .ok value taken rest => .ok (f value) taken rest
  | .miss => .miss
  | .fail taken => .fail taken

/-- Once the first is read the second must follow. -/
def andThen (p : Reader κ α) (q : α → Reader κ β) : Reader κ β := fun tokens =>
  match p tokens with
  | .miss => .miss
  | .fail taken => .fail taken
  | .ok value taken rest =>
    match q value rest with
    | .ok value more rest => .ok value (taken + more) rest
    | .miss => .fail taken
    | .fail more => .fail (taken + more)

def before (p : Reader κ α) (q : Reader κ β) : Reader κ α := andThen p fun a => q.map fun _ => a

def after (p : Reader κ α) (q : Reader κ β) : Reader κ β := andThen p fun _ => q

/-- `failed` says whether a reader has failed so far. -/
def oneOf (lookahead : Nat) (failed : Bool) : List (Reader κ α) → Reader κ α
  | [], _ => if failed then .fail 0 else .miss
  | p :: rest, tokens =>
    match p tokens with
    | .ok value taken left => .ok value taken left
    | .miss => oneOf lookahead failed rest tokens
    | .fail taken =>
      if lookahead < taken then .fail taken else oneOf lookahead true rest tokens

def optional (lookahead : Nat) (absent : α) (p : Reader κ α) : Reader κ α := fun tokens =>
  match p tokens with
  | .ok value taken rest => .ok value taken rest
  | .miss => .ok absent 0 tokens
  | .fail taken => if lookahead < taken then .fail taken else .ok absent 0 tokens

/-- Every repetition takes a token, so `fuel` may be the number of tokens. -/
def many (lookahead : Nat) (p : Reader κ α) : (fuel : Nat) → Reader κ (List α)
  | 0, tokens => .ok [] 0 tokens
  | fuel + 1, tokens =>
    match p tokens with
    | .miss => .ok [] 0 tokens
    | .fail taken => if lookahead < taken then .fail taken else .ok [] 0 tokens
    | .ok value taken rest =>
      match many lookahead p fuel rest with
      | .ok values more rest => .ok (value :: values) (taken + more) rest
      | .miss => .fail taken
      | .fail more => .fail (taken + more)

def commas (lookahead : Nat) (p : Reader κ α) : Reader κ (List α) :=
  andThen p fun first tokens =>
    (map (first :: ·) (many lookahead (after (word ",") p) tokens.length)) tokens

end Reader

end Sierra
