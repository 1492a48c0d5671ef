import Sierra.Felt
import Sierra.Text.Json

/-!
# Views

JSON for other programs. Counts, sizes and indices are numbers; words, field elements and large
integers decimal texts; bytes hexadecimal texts.
-/

namespace Sierra

class View (α : Type) where
  view : α → Text.Json

export View (view)

namespace View

instance : View Text.Json := ⟨id⟩
instance : View Unit := ⟨fun _ => .null⟩
instance : View Bool := ⟨.bool⟩
instance : View Nat := ⟨fun n => .number n⟩
instance : View Int := ⟨.number⟩
instance : View String := ⟨.string⟩
instance : View Bytes := ⟨fun bytes => .string bytes.hex⟩
instance : View Felt := ⟨fun f => .string f.text⟩
instance : View Ident := ⟨fun id => .string (toString id.number ++ ":" ++ id.name)⟩

instance {α : Type} [View α] : View (List α) := ⟨fun items => .array (items.map view)⟩
instance {α : Type} [View α] : View (Option α) := ⟨fun item => (item.map view).getD .null⟩
instance {α β : Type} [View α] [View β] : View (α × β) := ⟨fun (a, b) => .array [view a, view b]⟩

def decimal {α : Type} [ToString α] (n : α) : Text.Json := .string (toString n)

def entry {α : Type} [View α] (key : String) (a : α) : String × Text.Json := (key, view a)

def entry? {α : Type} [View α] (key : String) (a : Option α) : List (String × Text.Json) :=
  (a.map (entry key)).toList

end View

def Felt.viewAll (f : Felt) : Text.Json :=
  .object [View.entry "dec" f, View.entry "hex" f.hex, ("signed", View.decimal f.toSigned),
    View.entry "le" f.toBytes, View.entry "limbs" (f.limbs.map View.decimal),
    View.entry "zero" f.isZero, View.entry "u64" (f.toWord64?.map View.decimal),
    View.entry "short" f.shortString?]

end Sierra
