/-!
# Identifiers of declared things

Things are named by a number, with a readable name when the text gave one. Identifiers denote the
same declaration exactly when their numbers agree.
-/

namespace Sierra

structure Ident where
  number : Nat
  name : String := ""
deriving DecidableEq, Repr, Inhabited

namespace Ident

def text (id : Ident) : String :=
  if id.name = "" then s!"[{id.number}]" else id.name

/-- The name, or `f` and the number. -/
def symbol (id : Ident) : String :=
  if id.name = "" then s!"f{id.number}" else id.name

def same (a b : Ident) : Bool := a.number == b.number

end Ident

abbrev TypeId := Ident

abbrev LibfuncId := Ident

abbrev FunctionId := Ident

abbrev UserTypeId := Ident

end Sierra
