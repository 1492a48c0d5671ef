import Sierra.Failure
import Sierra.Text.Reader

/-!
# Tokens of program text

Names, integers and marks; blanks and comments separate them.
-/

namespace Sierra

inductive TokenKind where
  | arrow
  | int
  | ident
  | pathSep
  | mark
deriving DecidableEq, Repr, Inhabited

namespace TokenKind

open Token (isDigit isNameStart isNamePart isSpace)

def marks : List Char := ['@', '<', '>', '(', ')', '\x7b', '\x7d', '[', ']', ',', ';', ':', '=']

def piece? : List Char → Option (Option TokenKind × List Char)
  | [] => none
  | '/' :: '/' :: rest => some (none, '/' :: '/' :: rest.takeWhile (· != '\n'))
  | '-' :: '>' :: _ => some (some .arrow, ['-', '>'])
  | ':' :: ':' :: _ => some (some .pathSep, [':', ':'])
  | c :: rest =>
    let digits := rest.takeWhile isDigit
    if isDigit c then some (some .int, c :: digits)
    else if c = '-' && !digits.isEmpty then some (some .int, c :: digits)
    else if isNameStart c then some (some .ident, c :: rest.takeWhile isNamePart)
    else if marks.contains c then some (some .mark, [c])
    else if isSpace c then some (none, c :: rest.takeWhile isSpace)
    else none

def scan (text : String) : Except Place (List (Token TokenKind)) := Token.scan piece? text

end TokenKind

end Sierra
