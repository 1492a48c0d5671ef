import Sierra.Text.Search

/-!
# Coloured text

Attributes of a terminal are switched on by codes before a text and off by one code for
each attribute behind it.
-/

namespace Sierra.Text

inductive Attribute where
  | bold
  | red
  | green
  | yellow
  | blue
deriving DecidableEq, Repr

namespace Attribute

def code : Attribute → Nat
  | bold => 1
  | red => 31
  | green => 32
  | yellow => 33
  | blue => 34

def reset : Attribute → Nat
  | bold => 22
  | _ => 0

end Attribute

def escapeSequence (codes : List Nat) : String := "\x1b[" ++ join ";" (codes.map toString) ++ "m"

def paint (colours : Bool) (attributes : List Attribute) (text : String) : String :=
  if colours then
    escapeSequence (attributes.map Attribute.code) ++ text ++
      escapeSequence (attributes.map Attribute.reset)
  else text

/-- `inside` tells whether a sequence is open. -/
def unpainted ( inside : Bool) : List Char → List Char
  | [] => []
  | c :: rest =>
    if inside then unpainted (c ≠ 'm') rest
    else if c = '\x1b' then unpainted true rest
    else c :: unpainted false rest

end Sierra.Text
