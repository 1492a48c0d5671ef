import Sierra.Text.Numeral
import Sierra.Text.Search

/-!
# JSON texts

Values on one line or indented. Angle brackets, the ampersand and the two line separators outside
ASCII are escaped too, so that the text may stand in a page.
-/

namespace Sierra.Text

inductive Json where
  | null
  | bool (value : Bool)
  | number (value : Int)
  | string (value : String)
  | array (items : List Json)
  | object (entries : List (String × Json))
deriving Inhabited

namespace Json

def escapeCode (c : Char) : List Char :=
  let digits := (hexNumeral c.toNat).toList
  ['\\', 'u'] ++ List.replicate (4 - digits.length) '0' ++ digits

def escapeChar (c : Char) : List Char :=
  match c with
  | '"' => ['\\', '"']
  | '\\' => ['\\', '\\']
  | '\n' => ['\\', 'n']
  | '\r' => ['\\', 'r']
  | '\t' => ['\\', 't']
  | '\x08' => ['\\', 'b']
  | '\x0c' => ['\\', 'f']
  | _ =>
    if c.toNat < 0x20 ∨ c ∈ ['<', '>', '&', '\u2028', '\u2029'] then escapeCode c else [c]

def quoteString (text : String) : String :=
  "\"" ++ String.ofList (text.toList.flatMap escapeChar) ++ "\""

def compact : Json → String
  | null => "null"
  | bool value => if value then "true" else "false"
  | number value => toString value
  | string value => quoteString value
  | array items => "[" ++ join "," (itemTexts items) ++ "]"
  | object entries => "\x7b" ++ join "," (entryTexts entries) ++ "\x7d"
where
  itemTexts : List Json → List String
    | [] => []
    | item :: rest => item.compact :: itemTexts rest
  entryTexts : List (String × Json) → List String
    | [] => []
    | (key, value) :: rest => (quoteString key ++ ":" ++ value.compact) :: entryTexts rest
termination_by structural value => value

def bracket (indent left right : String) : List String → String
  | [] => left ++ right
  | lines =>
    left ++ "\n" ++ join ",\n" (lines.map fun line => indent ++ "  " ++ line) ++ "\n" ++
      indent ++ right

def indented (indent : String) : Json → String
  | null => "null"
  | bool value => if value then "true" else "false"
  | number value => toString value
  | string value => quoteString value
  | array items => bracket indent "[" "]" (itemTexts (indent ++ "  ") items)
  | object entries => bracket indent "\x7b" "\x7d" (entryTexts (indent ++ "  ") entries)
where
  itemTexts (indent : String) : List Json → List String
    | [] => []
    | item :: rest => item.indented indent :: itemTexts indent rest
  entryTexts (indent : String) : List (String × Json) → List String
    | [] => []
    | (key, value) :: rest =>
      (quoteString key ++ ": " ++ value.indented indent) :: entryTexts indent rest
termination_by structural value => value

end Json

end Sierra.Text
