import Sierra.Cache
import Sierra.Program.Resolve

/-!
# Builds

A build compiles files through a cache and may write their LLVM code into a directory. A file that
fails does not stop the others.
-/

namespace Sierra.Build

inductive Phase where
  | parse
  | compile
  | emit
deriving DecidableEq, Repr

namespace Phase

def all : List Phase := [parse, compile, emit]

def name : Phase → String
  | parse => "parse"
  | compile => "compile"
  | emit => "emit"

end Phase

inductive Status where
  | queued
  | working
  | done
  | failed (cause : Failure)

def Status.name : Status → String
  | queued => "queued"
  | working => "working"
  | done => "done"
  | failed _ => "error"

structure Event where
  file : String
  phase : Phase
  status : Status

def Event.text (e : Event) : String :=
  let cause := match e.status with
    | .failed f => " " ++ f.kind.name
    | _ => ""
  e.file ++ " " ++ e.phase.name ++ " " ++ e.status.name ++ cause

structure Request where
  files : List String
  options : CompileOptions := {}
  /-- Where code is written; nowhere when empty. -/
  outDir : String := ""
  emitsCode : Bool := false
  shared : Bool := false
  cancelled : Bool := false
  traced : Bool := false

structure Output where
  file : String
  key : String := ""
  executable : Option Executable := none
  codePath : String := ""
  failure : Option Failure := none

structure Progress where
  cache : Cache
  events : List Event := []
  /-- Microseconds by phase. -/
  times : List (Phase × Int) := []
  journal : List Trace.Event := []

structure Result extends Progress where
  outputs : List Output

/-- The stem of the file, the start of the digest, and the fingerprint of the options without its
marks. -/
def keyOf (file : String) (p : Program) (options : CompileOptions) : String :=
  let plain := options.fingerprint.toList.filterMap fun c =>
    if c = ';' then some '_' else if c = '=' || c = ',' then none else some c
  Path.stem file ++ "-" ++ String.ofList (p.contentHash.hex.toList.take 16) ++ "-" ++
    String.ofList plain

def addTime (phase : Phase) (micros : Int) : List (Phase × Int) → List (Phase × Int)
  | [] => [(phase, micros)]
  | (other, before) :: rest =>
    if other = phase then (phase, before + micros) :: rest
    else (other, before) :: addTime phase micros rest

def failures (outputs : List Output) : Option Failure :=
  match outputs.filterMap fun o => o.failure.map (Failure.noted o.file) with
  | [] => none
  | parts => some (.joined parts)

variable {m : Type → Type} [Monad m] [Shell m]

def readProgram (file : String) : m (Except Failure Program) := do
  match ← Shell.readFile file with
  | .error fault => return .error (.noted "failed to read file" fault.failure)
  | .ok content => return Program.parse file content.toText

def tell (file : String) (phase : Phase) (status : Status) : StateT Progress m Unit :=
  modify fun p => { p with events := p.events ++ [⟨file, phase, status⟩] }

def inPhase {α : Type} (file : String) (phase : Phase)
    (body : StateT Progress m (Except Failure α)) : StateT Progress m (Except Failure α) := do
  tell file phase .working
  let before ← Shell.now
  let outcome ← body
  let after ← Shell.now
  modify fun p => { p with times := addTime phase (after.micros - before.micros) p.times }
  match outcome with
  | .ok _ => pure ()
  | .error cause => tell file phase (.failed cause)
  return outcome

def compileFile (r : Request) (file key : String) (p : Program) :
    StateT Progress m (Except Failure Executable) := do
  let name := Path.stem file
  let before := (← get).cache
  let (outcome, cache) ← StateT.lift (before.get r.cancelled key p r.options name)
  let journal := if r.traced ∧ before.compilations < cache.compilations then
      p.journal r.options name
    else []
  modify fun s => { s with cache := cache, journal := s.journal ++ journal }
  return outcome

def writeCode (path : String) (x : Executable) : StateT Progress m (Except Failure Unit) := do
  match Llvm.emitModule (x.artifact.module.getD default) with
  | .error cause => return .error (.noted "LLVM emit failed" cause)
  | .ok unit =>
    match ← Shell.writeFile path (Bytes.ofString unit.text) with
    | .ok () => return .ok ()
    | .error fault => return .error (.noted "failed to write LLVM IR" fault.failure)

/-- What is known of the output is kept when a phase fails. -/
def buildFile (r : Request) (file : String) : StateT Progress m Output := do
  let parsed ← inPhase file .parse (do
    if r.cancelled then return .error .cancelled else readProgram file)
  match parsed with
  | .error cause => return { file := file, failure := some cause }
  | .ok p =>
    let key := keyOf file p r.options
    match ← inPhase file .compile (compileFile r file key p) with
    | .error cause => return { file := file, key := key, failure := some cause }
    | .ok x =>
      let output : Output := { file := file, key := key, executable := some x }
      if r.outDir = "" ∨ (!r.emitsCode ∧ !r.shared) then
        tell file .compile .done
        return output
      let path := Path.join r.outDir (Path.stem file ++ StoredCache.codeExtension)
      match ← inPhase file .emit (writeCode path x) with
      | .error cause => return { output with failure := some cause }
      | .ok () =>
        tell file .emit .done
        return { output with codePath := path }

def noLinker : Failure :=
  Failure.wrapWith "clang not found; install with: sudo apt-get update && sudo apt-get install -y clang llvm"
    (.typed .link "exec: \"clang\": executable file not found in $PATH")

def prepare (r : Request) : ExceptT Failure m Unit := do
  if r.files.isEmpty then throw (.plain "no input files")
  if r.shared ∧ r.outDir = "" then throw (.plain "a shared object needs an output directory")
  if r.outDir ≠ "" then
    match ← Shell.makeDirectory r.outDir with
    | .ok () => pure ()
    | .error fault => throw (.noted "failed to create output dir" fault.failure)
  if r.shared then throw noLinker

def run (r : Request) (cache : Cache) : ExceptT Failure m Result := do
  prepare r
  let queued := r.files.map fun file => (⟨file, .parse, .queued⟩ : Event)
  let (outputs, progress) ←
    ExceptT.lift ((r.files.mapM (buildFile r)).run { cache := cache, events := queued })
  return { progress with outputs := outputs }

end Sierra.Build
