import Sierra.Graph
import Sierra.Libfunc.Aggregate
import Sierra.Libfunc.Control
import Sierra.Libfunc.Integer
import Sierra.Libfunc.System

/-!
# Settled programs

A program whose declarations have been checked: types settled after those they mention, library
functions applied, all references declared.
-/

namespace Sierra

namespace Libfunc

def catalog : List (String × GenericLibfunc) :=
  controlCatalog ++ aggregateCatalog ++ arrayCatalog ++ integerCatalog ++ systemCatalog

def names : List String := (catalog.map (·.1)).mergeSort fun a b => decide (a ≤ b)

end Libfunc

def GenericType.names : List String := (catalog.map (·.1)).mergeSort fun a b => decide (a ≤ b)

structure Settled where
  program : Program
  types : Types
  libfuncs : List (LibfuncId × Libfunc)

namespace Settled

def libfunc (s : Settled) (id : LibfuncId) : Except Failure Libfunc :=
  match s.libfuncs.find? fun entry => entry.1.same id with
  | some (_, f) => .ok f
  | none => .error (.decl (.undeclaredLibfunc id.text) none)

def func? (s : Settled) (id : FunctionId) : Option Function :=
  s.program.funcs.find? fun f => f.id.same id

def firstRepeated : (seen : List Ident) → List Ident → Option Ident
  | _, [] => none
  | seen, id :: rest =>
    if seen.any id.same then some id else firstRepeated (id :: seen) rest

def requireDistinct (ids : List Ident) (fault : String → DeclFault) : Except Failure Unit :=
  match firstRepeated [] ids with
  | some id => .error (.decl (fault id.text) none)
  | none => .ok ()

/-- Names the declaration, unless one is already to blame. -/
def blame (fault : String → DeclFault) (id : Ident) (cause : Failure) : Failure :=
  match cause, cause.declFault? with
  | .crash text, _ => .crash text
  | _, some _ => cause
  | _, none => .decl (fault id.text) (some cause)

def positionOf (decls : List Declaration) (id : TypeId) : Except Failure Nat :=
  match decls.findIdx? fun d => d.id.same id with
  | some i => .ok i
  | none => .error (.decl (.undeclaredType id.text) none)

def typeGraph (decls : List Declaration) : Except Failure Graph :=
  decls.zipIdx.foldlM (fun graph (d, i) =>
    d.args.foldlM (fun graph arg =>
      match arg with
      | .type id => do return graph.insertEdge (← positionOf decls id) i
      | _ => .ok graph) graph)
    (Graph.empty decls.length)

def lowest (decls : List Declaration) : Option Declaration :=
  decls.foldl (fun best d =>
    match best with
    | none => some d
    | some b => if d.id.number < b.id.number then some d else some b) none

def settleType (types : Types) (d : Declaration) : Except Failure Types :=
  match GenericType.catalog.find? fun entry => entry.1 == d.generic with
  | none => .error (.decl (.missingBuilder (d.id.text ++ " (" ++ d.generic ++ ")")) none)
  | some (_, generic) =>
    match generic { declaring := d.id.text, types := types } d.args with
    | .ok info => .ok (types.settle d.id info)
    | .error cause => .error (blame .typeBuilder d.id cause)

def settleTypes (decls : List Declaration) : Except Failure Types := do
  requireDistinct (decls.map (·.id)) .duplicateType
  let layers := (← typeGraph decls).layers
  match lowest (layers.cycles.filterMap (decls[·]?)) with
  | some d => .error (.decl (.cyclicType d.id.text) none)
  | none => (layers.order.filterMap (decls[·]?)).foldlM settleType { declared := decls }

def applyLibfunc (p : Program) (types : Types) (known : List (LibfuncId × Libfunc))
    (d : Declaration) : Except Failure (List (LibfuncId × Libfunc)) :=
  if known.any fun entry => entry.1.same d.id then
    .error (.decl (.duplicateLibfunc d.id.text) none)
  else
    match Libfunc.catalog.find? fun entry => entry.1 == d.generic with
    | none => .error (.decl (.missingBuilder (d.id.text ++ " (" ++ d.generic ++ ")")) none)
    | some (_, generic) =>
      match generic { declaring := d.id.text, types := types, funcs := p.funcs } d.args with
      | .ok f => .ok (known ++ [(d.id, f)])
      | .error cause => .error (blame .libfuncBuilder d.id cause)

def checkFunction (p : Program) (types : Types) (f : Function) : Except Failure Unit := do
  (f.paramTypes ++ f.retTypes).forM fun id => do let _ ← types.info id
  if (p.statement? f.entry).isNone then
    .error (.decl (.undeclaredFunction f.id.text)
      (some (.plain s!"entry statement {f.entry} out of range")))

def checkReferences (s : Settled) : Except Failure Unit := do
  s.program.funcs.forM (checkFunction s.program s.types)
  s.program.statements.toList.forM fun statement =>
    match statement with
    | .invoke call => do let _ ← s.libfunc call.libfunc
    | .ret _ => .ok ()

def ofProgram (p : Program) : Except Failure Settled := do
  requireDistinct (p.funcs.map (·.id)) .duplicateFunction
  let types ← settleTypes p.types
  let libfuncs ← p.libfuncs.foldlM (applyLibfunc p types) []
  let settled : Settled := ⟨p, types, libfuncs⟩
  checkReferences settled
  return settled

end Settled

end Sierra
