import Sierra.Packed.Record

/-!
# Codecs

How a value is written as a packed tree and read back. A record names each field once, for both
ways; a field that holds what a missing one is read as may be left out.
-/

namespace Sierra.Packed

structure Codec (α : Type) where
  write : α → Packed
  decoder : Decoder α

namespace Codec

variable {α β : Type}

def uint8 : Codec Nat := ⟨.uint8, .word 8⟩

def uint64 : Codec Nat := ⟨.uint64, .word 64⟩

def int : Codec Int := ⟨.int, .signed 64⟩

def int32 : Codec Int := ⟨.int32, .signed 32⟩

def bool : Codec Bool := ⟨.bool, .bool⟩

def text : Codec String := ⟨.str, .text⟩

def bytes : Codec Bytes := ⟨.bin, .bytes⟩

def list (c : Codec α) : Codec (List α) := ⟨fun xs => .array (xs.map c.write), .list c.decoder⟩

def listOrNil (c : Codec α) : Codec (List α) :=
  ⟨fun xs => if xs.isEmpty then .nil else c.list.write xs, .list c.decoder⟩

def optional (c : Codec α) : Codec (Option α) :=
  ⟨fun x => (x.map c.write).getD .nil, .optional c.decoder⟩

def via (c : Codec β) (store : α → β) (restore : β → α) : Codec α :=
  ⟨fun x => c.write (store x), c.decoder.map restore⟩

end Codec

structure Slot (α : Type) where
  {β : Type}
  name : String
  codec : Codec β
  get : α → β
  put : α → β → α
  omits : β → Bool

namespace Slot

variable {α β : Type}

def of (name : String) (codec : Codec β) (get : α → β) (put : α → β → α) : Slot α :=
  { name, codec, get, put, omits := fun _ => false }

def opt [BEq β] (name : String) (codec : Codec β) (get : α → β) (put : α → β → α) : Slot α :=
  { name, codec, get, put, omits := fun x => x == codec.decoder.value [] }

def entries (s : Slot α) (r : α) : List (Packed × Packed) :=
  if s.omits (s.get r) then [] else [(str s.name, s.codec.write (s.get r))]

def field (s : Slot α) : Decoder.Field α := .of s.name s.codec.decoder s.put

end Slot

def Codec.record {α : Type} (zero : α) (slots : List (Slot α)) : Codec α :=
  ⟨fun r => .map (slots.flatMap (·.entries r)), .record zero (slots.map Slot.field)⟩

end Sierra.Packed
