import Sierra.Program.Ident

/-!
# Programs

Types, library functions and statements, and the functions that start at some of them. Declarations
are found by number, statements by position.
-/

namespace Sierra

abbrev VarId := Nat

inductive GenericArg where
  | type (id : TypeId)
  | value (n : Option Int)
  | userType (id : UserTypeId)
  | userFunc (id : FunctionId)
  | libfunc (id : LibfuncId)
  | other (kind : Nat) (id : LibfuncId)
deriving DecidableEq, Repr, Inhabited

namespace GenericArg

/-- Sorts and numbers agree; a missing integer is zero. -/
def same : GenericArg → GenericArg → Bool
  | type a, type b => a.same b
  | value a, value b => a.getD 0 == b.getD 0
  | userType a, userType b => a.same b
  | userFunc a, userFunc b => a.same b
  | libfunc a, libfunc b => a.same b
  | other k _, other l _ => k == l
  | _, _ => false

def text : GenericArg → String
  | type id => id.text
  | value n => toString (n.getD 0)
  | userType id => "ut@" ++ id.text
  | userFunc id => "user@" ++ id.text
  | libfunc id => "lib@" ++ id.text
  | other _ _ => "?"

end GenericArg

structure Declaration where
  id : Ident
  generic : String
  args : List GenericArg := []
deriving DecidableEq, Repr, Inhabited

inductive Target where
  | next
  | statement (index : Int)
deriving DecidableEq, Repr, Inhabited

def Target.resolve : Target → (origin : Int) → Int
  | next, origin => origin + 1
  | statement index, _ => index

structure Branch where
  target : Target
  results : List VarId := []
deriving DecidableEq, Repr, Inhabited

structure Invocation where
  libfunc : LibfuncId
  args : List VarId := []
  branches : List Branch := []
deriving DecidableEq, Repr, Inhabited

inductive Statement where
  | invoke (call : Invocation)
  | ret (vars : List VarId)
deriving DecidableEq, Repr, Inhabited

structure Param where
  var : VarId
  type : TypeId
deriving DecidableEq, Repr, Inhabited

structure Function where
  id : FunctionId
  params : List Param := []
  paramTypes : List TypeId := []
  retTypes : List TypeId := []
  entry : Int := 0
deriving DecidableEq, Repr, Inhabited

structure Program where
  types : List Declaration := []
  libfuncs : List Declaration := []
  statements : Array Statement := #[]
  funcs : List Function := []
deriving DecidableEq, Repr, Inhabited

namespace Program

/-- By its name, or by its number in square brackets. -/
def find? (p : Program) (name : String) : Option Function :=
  p.funcs.find? fun f => f.id.name == name || f.id.text == name

def statement? (p : Program) (index : Int) : Option Statement :=
  if index < 0 then none else p.statements[index.toNat]?

end Program

end Sierra
