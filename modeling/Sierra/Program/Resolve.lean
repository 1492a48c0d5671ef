import Sierra.Program.Basic
import Sierra.Program.Written
import Sierra.Text.Quoted

/-!
# From written to resolved programs

Types, library functions, functions and user types have namespaces of their own. A number in square
brackets stands for itself; any other name gets the next free number when first seen. Declarations
are numbered before references.
-/

namespace Sierra

open Written (Name Arg Line)

def wordBound : Nat := pow2 64

structure Namespace where
  ids : List (String × Ident) := []
  next : Nat := 0
deriving Inhabited

namespace Namespace

def find? (ns : Namespace) (key : String) : Option Ident :=
  (ns.ids.find? fun entry => entry.1 == key).map (·.2)

def enter (ns : Namespace) (key : String) (id : Ident) : Namespace :=
  { ids := (key, id) :: ns.ids
    next := if ns.next ≤ id.number then (id.number + 1) % wordBound else ns.next }

/-- `none` for a number that is too large. -/
def declare? (ns : Namespace) (base : Written.Base) (bare : Bool) (key : String) :
    Option (Ident × Namespace) :=
  match ns.find? key with
  | some id => some (id, ns)
  | none =>
    match base, bare with
    | .numeric digits, true =>
      match Text.decimalBelow? wordBound digits with
      | some n => some (⟨n, ""⟩, ns.enter key ⟨n, ""⟩)
      | none => none
    | _, _ => some (⟨ns.next, key⟩, ns.enter key ⟨ns.next, key⟩)

end Namespace

structure Names where
  types : Namespace := {}
  libfuncs : Namespace := {}
  funcs : Namespace := {}
  userTypes : Namespace := {}
deriving Inhabited

inductive Space where
  | types
  | libfuncs
  | funcs
  | userTypes
deriving DecidableEq, Repr

namespace Names

def get (names : Names) : Space → Namespace
  | .types => names.types
  | .libfuncs => names.libfuncs
  | .funcs => names.funcs
  | .userTypes => names.userTypes

def set (names : Names) : Space → Namespace → Names
  | .types, ns => { names with types := ns }
  | .libfuncs, ns => { names with libfuncs := ns }
  | .funcs, ns => { names with funcs := ns }
  | .userTypes, ns => { names with userTypes := ns }

end Names

namespace Resolve

abbrev Run := StateT Names (Except Failure)

def faultAt (file : String) (place : Place) (text : String) : Failure :=
  .typed .parseAttribute s!"{file}:{place.line}:{place.column}: {text}"

def ident (file : String) (space : Space) (name : Name) : Run Ident := fun names =>
  match (names.get space).declare? name.base name.args.isEmpty name.text with
  | some (id, ns) => .ok (id, names.set space ns)
  | none => .error (faultAt file name.start ("invalid id " ++ name.text))

def genericArg (file : String) : Arg → Run GenericArg
  | .userType name => do return .userType (← ident file .userTypes name)
  | .userFunc name => do return .userFunc (← ident file .funcs name)
  | .type name => do return .type (← ident file .types name)
  | .value digits =>
    match Text.decimal? digits with
    | some n => return .value (some n)
    | none => throw (.typed .parseAttribute ("invalid integer " ++ Text.quote digits))

def vars (file : String) (place : Place) (written : List String) : Run (List VarId) :=
  written.mapM fun digits =>
    match Text.decimalBelow? wordBound digits with
    | some n => return n
    | none => throw (faultAt file place s!"invalid variable [{digits}]")

def index (file : String) (place : Place) (what digits : String) : Run Int :=
  match Text.decimal? digits with
  | some n =>
    if -(pow2 63) ≤ n ∧ n < pow2 63 then return n else refuse
  | none => refuse
where
  refuse : Run Int := throw (faultAt file place ("invalid " ++ what ++ " " ++ Text.quote digits))

def declaration (file : String) (space : Space) (name generic : Name) : Run Declaration := do
  let id ← ident file space name
  return ⟨id, generic.base.text, ← generic.args.mapM (genericArg file)⟩

def params (file : String) (place : Place) (written : List (String × Name)) : Run (List Param) :=
  written.mapM fun (digits, type) => do
    match ← vars file place [digits] with
    | var :: _ => return ⟨var, ← ident file .types type⟩
    | [] => return default

def branch (file : String) (place : Place) (b : Written.Branch) : Run Branch := do
  let results ← vars file place b.vars
  match b.target with
  | none => return ⟨.next, results⟩
  | some digits => return ⟨.statement (← index file place "branch target" digits), results⟩

def declares (file : String) : Line → Run Unit
  | .type name _ => do let _ ← ident file .types name
  | .libfunc name _ => do let _ ← ident file .libfuncs name
  | .func _ head _ _ _ => do let _ ← ident file .funcs head
  | _ => return ()

def line (file : String) (p : Program) : Line → Run Program
  | .type name generic => do
    let d ← declaration file .types name generic
    return { p with types := p.types ++ [d] }
  | .libfunc name generic => do
    let d ← declaration file .libfuncs name generic
    return { p with libfuncs := p.libfuncs ++ [d] }
  | .ret place written => do
    let vs ← vars file place written
    return { p with statements := p.statements.push (.ret vs) }
  | .func place head entry ps rets => do
    let id ← ident file .funcs head
    let entry ← index file place "entry" entry
    let ps ← params file place ps
    let rets ← rets.mapM (ident file .types)
    return { p with funcs := p.funcs ++ [⟨id, ps, ps.map (·.type), rets, entry⟩] }
  | .invoke place head args branches => do
    let id ← ident file .libfuncs head
    let args ← vars file place args
    let branches ← branches.mapM (branch file place)
    return { p with statements := p.statements.push (.invoke ⟨id, args, branches⟩) }

/-- First what lines declare, then what they say. -/
def program (file : String) (lines : List Line) : Run Program := do
  lines.forM (declares file)
  lines.foldlM (line file) {}

end Resolve

/-- The file name only serves messages. -/
def Program.parse (file text : String) : Except Failure Program :=
  match TokenKind.scan text with
  | .error place => .error (.syntaxError .parseAttribute (some (place.line, place.column)))
  | .ok tokens =>
    match Written.lines tokens with
    | none => .error (.syntaxError .parseAttribute none)
    | some lines => (Resolve.program file lines).run' {}

end Sierra
