import Sierra.Layout
import Sierra.Word

/-!
# Types of the code form

Registers hold integers of a width, pointers, or blocks of bytes with an alignment. The type fixes
the size of the register's image.
-/

namespace Sierra.Ir

inductive Ty where
  | none
  | int (bits : Int)
  | ptr
  | blob (size align : Int)
deriving DecidableEq, Repr, Inhabited

namespace Ty

def isInt : Ty → Bool
  | int _ => true
  | _ => false

def isPtr : Ty → Bool
  | ptr => true
  | _ => false

def isBlob : Ty → Bool
  | blob _ _ => true
  | _ => false

def bits : Ty → Int
  | int bits => bits
  | _ => 0

def width (t : Ty) : Nat := Word.width t.bits

def blobSize : Ty → Int
  | blob size _ => size
  | _ => 0

def storeSize : Ty → Int
  | int bits => Layout.intBytes bits
  | ptr => Layout.pointerSize
  | blob size _ => size
  | none => 0

def alignOf : Ty → Int
  | int bits => (Layout.int bits).align
  | ptr => Layout.pointerSize
  | blob _ align => if align ≤ 0 then 1 else align
  | none => 1

def ofLayout (l : Layout) : Ty := blob l.size l.align

def text : Ty → String
  | int bits => s!"i{bits}"
  | ptr => "ptr"
  | blob size align => s!"blob<{size},{align}>"
  | none => "none"

end Ty

end Sierra.Ir
