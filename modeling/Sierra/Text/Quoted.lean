import Sierra.Bytes
import Sierra.Text.Printable

/-!
# Quoted text

Text between double quotes, with the quote and the backslash escaped, and control and unprintable
characters written as escapes.
-/

namespace Sierra.Text

def hexDigits : (width value : Nat) → List Char
  | 0, _ => []
  | width + 1, value => hexDigits width (value / 16) ++ [Bytes.hexDigit (value % 16)]

def escapeBetween ( mark c : Char) : List Char :=
  if c = mark ∨ c = '\\' then ['\\', c]
  else if isPrintable c then [c]
  else match c.toNat with
    | 0x07 => ['\\', 'a']
    | 0x08 => ['\\', 'b']
    | 0x0c => ['\\', 'f']
    | 0x0a => ['\\', 'n']
    | 0x0d => ['\\', 'r']
    | 0x09 => ['\\', 't']
    | 0x0b => ['\\', 'v']
    | code =>
      if code < 0x20 ∨ code = 0x7f then '\\' :: 'x' :: hexDigits 2 code
      else if code < 0x10000 then '\\' :: 'u' :: hexDigits 4 code
      else '\\' :: 'U' :: hexDigits 8 code

def escapeChar (c : Char) : List Char := escapeBetween '"' c

def quoteChar (c : Char) : String :=
  String.ofList (['\''] ++ escapeBetween '\'' c ++ ['\''])

def quote (text : String) : String :=
  String.ofList (['"'] ++ text.toList.flatMap escapeChar ++ ['"'])

end Sierra.Text
