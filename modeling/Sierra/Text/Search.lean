/-!
# Searching and joining text

Plain list-of-character searches used by messages and readers.
-/

namespace Sierra.Text

def hasInfix (needle : List Char) : List Char → Bool
  | [] => needle.isEmpty
  | c :: rest => needle.isPrefixOf (c :: rest) || hasInfix needle rest

def contains (text part : String) : Bool := hasInfix part.toList text.toList

def join (separator : String) (parts : List String) : String :=
  String.intercalate separator parts

def padLeft (width : Nat) (text : String) : String :=
  String.ofList (List.replicate (width - text.length) ' ') ++ text

def padRight (width : Nat) (text : String) : String :=
  text ++ String.ofList (List.replicate (width - text.length) ' ')

end Sierra.Text
