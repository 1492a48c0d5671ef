import Sierra.Ir.Verify
import Sierra.Lower
import Sierra.Metadata
import Sierra.Options
import Sierra.Trace.Event

/-!
# Compilation

Declarations are settled, flow and gas are worked out, functions are lowered, code is improved and
verified. A caller hears when a stage starts and ends and may give up there; a stage that fails ends
the compilation.
-/

namespace Sierra

inductive Stage where
  | idle
  | declared
  | measured
  | lowered
  | finished
deriving DecidableEq, Repr, Inhabited

namespace Stage

def all : List Stage := [idle, declared, measured, lowered, finished]

def name : Stage → String
  | idle => "uninitialized"
  | declared => "registry-built"
  | measured => "metadata-computed"
  | lowered => "functions-lowered"
  | finished => "module-finalized"

def nameOfNumber (n : Nat) : String := ((all[n]?).map name).getD "stage?"

end Stage

inductive Moment where
  | start (stage : Stage)
  | done (stage : Stage)
  | failed (stage : Stage)
deriving DecidableEq, Repr

def Moment.text : Moment → String
  | start s => "start " ++ s.name
  | done s => "end " ++ s.name
  | failed s => "end " ++ s.name ++ " failed"

structure Compiled where
  settled : Settled
  flows : List Flow
  gas : Gas.Analysis
  metadata : Metadata
  module : Ir.Module

def Compiled.program (c : Compiled) : Program := c.settled.program

namespace Compile

structure Progress where
  stage : Stage := .idle
  moments : List Moment := []
  journal : List Trace.Event := []
  spans : Nat := 0
  cancelled : Bool := false
deriving Inhabited

def Progress.phases (p : Progress) : List String :=
  p.moments.filterMap fun
    | .start s => some s.name
    | _ => none

structure Request where
  options : CompileOptions := {}
  name : String := ""
  givesUp : Moment → Bool := fun _ => false

def Request.moduleName (r : Request) : String := if r.name = "" then "program" else r.name

/-- What is known stays known when a step fails. -/
abbrev Step := EStateM Failure Progress

def lift {α : Type} : Except Failure α → Step α
  | .ok a => pure a
  | .error e => throw e

def sure {α : Type} : Option α → Step α
  | some a => pure a
  | none => throw (.crash none)

def outcome {α : Type} (step : Step α) : Step (Except Failure α) := fun p =>
  match step p with
  | .ok a p => .ok (.ok a) p
  | .error e p => .ok (.error e) p

/-! ## The journal -/

structure Span where
  id : Nat
  parent : Nat
  scope : Trace.Scope
  name : String

def note (e : Trace.Event) : Step Unit :=
  modify fun p => { p with journal := p.journal ++ [e] }

def begin (scope : Trace.Scope) (name : String) (parent : Nat) : Step Span := do
  let id := (← get).spans + 1
  modify fun p => { p with spans := id }
  note { kind := .spanBegin, scope := scope, span := id, parent := parent, name := name }
  return ⟨id, parent, scope, name⟩

def Span.finish (s : Span) (detail : String) (extra : List (String × String) := []) : Step Unit :=
  note
    { kind := .spanEnd, scope := s.scope, span := s.id, parent := s.parent, name := s.name
      detail := detail, extra := extra }

def inSpan {α : Type} (s : Span) (step : Step α) : Step α := do
  match ← outcome step with
  | .ok a =>
    s.finish ""
    return a
  | .error e =>
    s.finish "failed"
    throw e

/-! ## Stages -/

def checkCancelled : Step Unit := do
  if (← get).cancelled then throw .cancelled

def tell (r : Request) (m : Moment) : Step Unit :=
  modify fun p => { p with moments := p.moments ++ [m], cancelled := p.cancelled || r.givesUp m }

def runStage {α : Type} (r : Request) (root : Nat) (stage : Stage) (body : Nat → Step α) :
    Step α := do
  tell r (.start stage)
  let span ← begin .pass stage.name root
  match ← outcome (inSpan span (body span.id)) with
  | .ok a =>
    tell r (.done stage)
    modify fun p => { p with stage := stage }
    return a
  | .error e =>
    tell r (.failed stage)
    throw e

def measure (r : Request) (s : Settled) : Step (List Flow × Gas.Analysis) := do
  let flows ← s.program.funcs.mapM fun f => do
    checkCancelled
    match Flow.ofFunction s f with
    | .ok flow => return flow
    | .error e => throw (e.wrapWith ("function " ++ f.id.text))
  let gas ← lift (Gas.analyse s flows r.options.gas.analysis)
  return (flows, gas)

def lowerFunction (s : Settled) (gas : Gas.Analysis) (draft : Ir.Draft) (parent : Nat)
    (flow : Flow) : Step Ir.Draft := do
  checkCancelled
  let span ← begin .function flow.function.id.symbol parent
  inSpan span do
    let (result, after) : Except Failure Unit × Ir.Draft :=
      match Lower.function s gas flow draft with
      | .ok _ d => (.ok (), d)
      | .error e d => (.error e, d)
    (after.checks.drop draft.checks.length).forM fun (index, amount) =>
      note
        { kind := .point, scope := .statement, parent := span.id, name := "gas-check"
          detail := s!"statement {index} amount {amount}" }
    lift result
    return after

/-- Functions in the order of their numbers, joined afterwards. -/
def lowerAll (s : Settled) (flows : List Flow) (gas : Gas.Analysis) (span : Nat) :
    Step Ir.Draft := do
  let ordered := flows.mergeSort fun a b => a.function.id.number ≤ b.function.id.number
  let draft ← ordered.foldlM (fun draft flow => lowerFunction s gas draft span flow) {}
  let funcs ← sure (draft.funcs.mapM fun f => f.mergeLinear.func?)
  return { draft with funcs := funcs }

def finish (r : Request) (m : Ir.Module) : Step Ir.Module := do
  let (m, isDone) := m.optimize r.options.level.passes
  sure (if isDone then some () else none)
  match m.verify with
  | .ok _ => return m
  | .error e => throw (e.reportAs .target ("module " ++ m.name))

def stages (r : Request) (root : Nat) (p : Program) : Step Compiled := do
  checkCancelled
  let settled ← runStage r root .declared fun _ => lift (Settled.ofProgram p)
  checkCancelled
  let (flows, gas) ← runStage r root .measured fun _ => measure r settled
  checkCancelled
  let draft ← runStage r root .lowered fun span => lowerAll settled flows gas span
  checkCancelled
  let module ← runStage r root .finished fun _ => finish r (draft.toModule r.moduleName)
  return {
    settled := settled
    flows := flows
    gas := gas
    metadata := Metadata.ofDraft gas r.options.gas.table.weights draft
    module := module }

def traced (r : Request) (p : Program) : Step Compiled := do
  let root ← begin .driver "compile" 0
  let extra := [("module", r.moduleName)]
  match ← outcome (stages r root.id p) with
  | .ok c =>
    root.finish "" extra
    return c
  | .error e =>
    let between := (← get).moments.getLast?.all fun
      | .done _ => true
      | _ => false
    root.finish (if between then "canceled" else "failed") extra
    throw e.wrap

/-- A compiler is used once. -/
def spent (p : Progress) (failed : Bool) : Failure :=
  let state := if failed then "failed after " ++ p.stage.name else p.stage.name
  (Failure.decl .misuse
    (some (.plain ("compiler is at stage " ++ state ++ " and cannot compile again")))).wrap

end Compile

def compile (r : Compile.Request) (cancelled : Bool) (p : Option Program) :
    Except Failure Compiled × Compile.Progress :=
  match p with
  | none => (.error (.report .unexpectedValue "nil program" none), {})
  | some p =>
    match Compile.traced r p { cancelled := cancelled } with
    | .ok c progress => (.ok c, progress)
    | .error e progress => (.error e, progress)

def Program.journal (p : Program) (options : CompileOptions) (name : String := "") :
    List Trace.Event :=
  (Sierra.compile { options := options, name := name } false (some p)).2.journal

def Program.compile (p : Program) (options : CompileOptions) (name : String := "") :
    Except Failure Compiled :=
  (Sierra.compile { options := options, name := name } false (some p)).1

end Sierra
