import Sierra.Text.Reader
import Sierra.Value.Descriptor

/-!
# Written values

Integers such as `42`, `-7` or `0x2a`, short strings in single quotes, lists in square brackets,
structs in braces, variants as a tag with a payload after a colon, and `null`. The meaning depends
on the type.
-/

namespace Sierra

inductive Literal where
  | list (column : Nat) (items : List Literal)
  | fields (column : Nat) (items : List Literal)
  | null (column : Nat)
  | short (column : Nat) (text : String)
  /-- An integer, or the tag of a variant when a payload follows. -/
  | variant (column : Nat) (digits : String) (payload : Option Literal)
deriving Inhabited

namespace Literal

/-! ## Reading -/

inductive Mark where
  | short
  | int
  | ident
  | punct
deriving DecidableEq, Repr, Inhabited

open Token (isDigit isNameStart isNamePart isSpace)

def isHexDigit (c : Char) : Bool := (Text.digitIn? 16 c).isSome

def digits : List Char → List Char
  | '0' :: x :: rest =>
    let hex := rest.takeWhile isHexDigit
    if (x = 'x' ∨ x = 'X') ∧ !hex.isEmpty then '0' :: x :: hex
    else ('0' :: x :: rest).takeWhile isDigit
  | cs => cs.takeWhile isDigit

def piece? : List Char → Option (Option Mark × List Char)
  | [] => none
  | '\'' :: rest =>
    let inner := rest.takeWhile (· != '\'')
    if inner.length < rest.length then some (some .short, '\'' :: inner ++ ['\'']) else none
  | c :: rest =>
    let front := if c = '-' then digits rest else digits (c :: rest)
    if !front.isEmpty then some (some .int, if c = '-' then c :: front else front)
    else if isNameStart c then some (some .ident, c :: rest.takeWhile isNamePart)
    else if ['[', ']', '\x7b', '\x7d', ':', ','].contains c then some (some .punct, [c])
    else if isSpace c then some (none, c :: rest.takeWhile isSpace)
    else none

def unquoted (t : Token Mark) : Token Mark :=
  if t.kind = .short then { t with text := String.ofList ((t.text.toList.drop 1).dropLast) } else t

def lookahead : Nat := 1

open Reader (map word kind place andThen before after oneOf optional commas)

def between (left right : String) (p : Reader Mark Literal) : Reader Mark (List Literal) :=
  after (word left) (before (optional lookahead [] (commas lookahead p)) (word right))

/-- `fuel` bounds the depth. -/
def value : (fuel : Nat) → Reader Mark Literal
  | 0, _ => .fail 0
  | fuel + 1, tokens =>
    let column := (place tokens).column
    oneOf lookahead false [
      map (list column) (between "[" "]" (value fuel)),
      map (fields column) (between "\x7b" "\x7d" (value fuel)),
      map (fun _ => null column) (word "null"),
      map (short column) (kind .short),
      andThen (kind .int) fun digits =>
        map (variant column digits)
          (optional lookahead none (map some (after (word ":") (value fuel))))] tokens

def parse (text : String) : Except Failure Literal :=
  let refused : Except Failure Literal := .error (.syntaxError .unknown none)
  match Token.scan piece? text with
  | .error _ => refused
  | .ok tokens =>
    match value (tokens.length + 1) (tokens.map unquoted) with
    | .ok literal _ [] => .ok literal
    | _ => refused

/-! ## Meaning -/

def kindName : Literal → String
  | list _ _ => "list"
  | fields _ _ => "struct"
  | null _ => "null"
  | short _ _ => "short string"
  | variant _ _ (some _) => "variant"
  | variant _ _ none => "integer"

def column : Literal → Nat
  | list column _ | fields column _ | null column | short column _ | variant column _ _ => column

def mismatch (name wanted : String) (l : Literal) : Failure :=
  .plain (name ++ ": expected " ++ wanted ++ ", got " ++ l.kindName ++ s!" at column {l.column}")

def felt (name : String) : Literal → Except Failure Felt
  | short _ text => Felt.ofShortString text
  | variant _ digits none => Felt.parse digits
  | l => .error (mismatch name "an integer or a short string" l)

def integer (name : String) : Literal → Except Failure Int
  | variant _ digits none =>
    match Text.literal? digits with
    | some n => .ok n
    | none => .error (.plain (name ++ ": invalid integer " ++ Text.quote digits))
  | l => .error (mismatch name "an integer" l)

def tag (name : String) (variants : Nat) (digits : String) : Except Failure Nat :=
  match Text.decimal? digits with
  | some n =>
    if 0 ≤ n ∧ n < variants then .ok n.toNat
    else .error (.plain (name ++ ": invalid variant " ++ Text.quote digits))
  | none => .error (.plain (name ++ ": invalid variant " ++ Text.quote digits))

/-- Each round goes into the written value or into the type. -/
def toValue (types : Descriptors) : (rounds : Nat) → (id : Nat) → Literal → Except Failure Value
  | 0, _, _ => .error (.crash none)
  | rounds + 1, id, l => do
    let d ← types.get id
    match d.shape with
    | .felt => return .ofFelt (← l.felt d.name)
    | .uint => return .number .uint (some (← l.integer d.name))
    | .sint => return .number .sint (some (← l.integer d.name))
    | .bounded => return .number .bounded (some (← l.integer d.name))
    | .array =>
      match l with
      | .list _ items => return .array (← items.mapM (toValue types rounds d.elem))
      | _ => .error (mismatch d.name "a list" l)
    | .struct =>
      match l with
      | .fields _ items =>
        if items.length ≠ d.members.length then
          .error (.plain (d.name ++ s!" has {d.members.length} fields, got {items.length}"))
        else
          return .struct (← (d.members.zip items).mapM fun (m, item) => toValue types rounds m item)
      | _ =>
        match d.members with
        | [only] => return .struct [← toValue types rounds only l]
        | _ => .error (mismatch d.name "a struct" l)
    | .enum =>
      match l with
      | .variant column digits payload =>
        let tag ← tag d.name d.members.length digits
        let payload := payload.getD (.fields column [])
        return .enum tag (some (← toValue types rounds (d.members.getD tag 0) payload))
      | _ => .error (mismatch d.name "a variant" l)
    | .box => return .box (some (← toValue types rounds d.elem l))
    | .nullable =>
      match l with
      | .null _ => return .nullable none
      | _ => return .nullable (some (← toValue types rounds d.elem l))
    | _ => .error (.plain (d.name ++ " cannot be passed on the command line"))

end Literal

def Felt.ofWritten (text : String) : Except Failure Felt := do
  (← Literal.parse text).felt "felt252"

/-- A struct of one field may be written as the field alone. -/
def Value.ofWritten (types : Descriptors) (id : Nat) (text : String) : Except Failure Value := do
  (← Literal.parse text).toValue types ((text.length + 1) * (types.entries.length + 1)) id

end Sierra
