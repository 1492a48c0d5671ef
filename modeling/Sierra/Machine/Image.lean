import Sierra.Ir.Type

/-!
# Register images

The little-endian image of a value, as many bytes as its type stores. Numbers are read from the
first 32 bytes, addresses from the first eight.
-/

namespace Sierra.Machine

open Ir (Ty)

abbrev Image := Bytes

namespace Image

def word (v : Image) : Nat := Bytes.toNat (v.take 32)

def word64 (v : Image) : Nat := Bytes.toNat (v.take 8)

def flag : Image → Bool
  | [] => false
  | b :: _ => b.toNat % 2 == 1

def ofWordSized (size z : Nat) : Image :=
  if size ≤ 32 then Bytes.ofNat size z else Bytes.ofNat 32 z ++ Bytes.zeros (size - 32)

/-- An integer type cuts a word to its width. -/
def ofWord (t : Ty) (z : Nat) : Image :=
  ofWordSized t.storeSize.toNat (if t.isInt then Word.mask t.width z else z)

def ofInt (size : Int) (n : Int) : Image := ofWordSized size.toNat (Word.ofInt n)

def ofBool (b : Bool) : Image := [if b then 1 else 0]

def ofAddress (p : Nat) : Image := Bytes.ofNat 8 p

def zero (t : Ty) : Image := Bytes.zeros t.storeSize.toNat

/-- Widths of whole bytes need no change. -/
def normalize (t : Ty) (v : Image) : Image :=
  match t with
  | .int bits => if bits % 8 = 0 then v else ofWord t v.word
  | _ => v

end Image

end Sierra.Machine
