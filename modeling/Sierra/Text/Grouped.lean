
/-!
# Grouped digits

Numbers set for reading, with their digits in groups of three.
-/

namespace Sierra.Text

/-- Lowest digit first. -/
def groupReversed : List Char → List Char
  | a :: b :: c :: d :: rest => a :: b :: c :: ',' :: groupReversed (d :: rest)
  | digits => digits

def grouped (n : Nat) : String :=
  String.ofList (groupReversed (toString n).toList.reverse).reverse

end Sierra.Text
