import Sierra.Build
import Sierra.Cli.Help
import Sierra.Gas.Report
import Sierra.Ir.Listing
import Sierra.Timing
import Sierra.Trace.Written
import Sierra.Value.Literal

/-!
# The command line

Flags stand in place of configured settings; every command ends well or with a failure.
-/

namespace Sierra.Cli

structure Tracing where
  level : Trace.Level
  format : Trace.Format
  /-- A dash stands for the place of messages. -/
  outputs : List String

structure Context where
  given : Given
  config : Config := {}
  colours : Bool := false
  tracing : Option Tracing := none

/-- The events of a command that fails are kept. -/
abbrev Run (m : Type → Type) := ExceptT Failure (StateT (List Trace.Event) m)

variable {m : Type → Type} [Monad m] [Shell m]

def refuse {α : Type} (text : String) : Run m α := throw (.plain text)

def take {α : Type} (outcome : Except Failure α) : Run m α := ExceptT.mk (pure outcome)

def within {α : Type} (action : m (Except Failure α)) : Run m α :=
  ExceptT.mk (StateT.lift action)

def aside {α : Type} (action : m α) : Run m α := ExceptT.lift (StateT.lift action)

/-- Spans are numbered behind those already noted. -/
def noteEvents (events : List Trace.Event) : Run m Unit :=
  modify fun known =>
    let last := known.foldl (fun n e => max n e.span) 0
    let shift (span : Nat) : Nat := if span = 0 then 0 else span + last
    known ++ events.map fun e => { e with span := shift e.span, parent := shift e.parent }

/-! ## Settings -/

def coloursOf (terminal : Bool) (g : Given) : Except Failure Bool :=
  let mode := g.text "color" "auto"
  match Text.lower mode with
  | "" | "auto" => .ok terminal
  | "on" => .ok true
  | "off" => .ok false
  | _ =>
    .error (.plain ("invalid --color value " ++ Text.quote mode ++ " (expected auto|on|off)"))

/-- Makes the log file, if any, and tells whether it can be used. -/
def startLog (g : Given) : m Bool := do
  let path := g.text "log"
  if path = "" ∨ g.count "verbose" ≤ -4 then return true
  match ← Shell.extendFile path [] with
  | .ok () => return true
  | .error fault =>
    Shell.report ("log file error: " ++ fault.failure.message ++ "\n")
    return false

def configOf (g : Given) : Run m Config :=
  match g.text "config" with
  | "" => within (Config.discover ".")
  | path => within (Config.load path)

/-- The files of the profiles stay empty. -/
def startProfiles (g : Given) : Run m Unit :=
  [g.text "cpu-profile", g.text "runtime-trace"].forM fun path => do
    if path ≠ "" then
      match ← Shell.writeFile path [] with
      | .ok () => pure ()
      | .error fault => throw fault.failure

def endProfiles (g : Given) : m Unit := do
  let path := g.text "mem-profile"
  if path ≠ "" then
    match ← Shell.writeFile path [] with
    | .ok () => pure ()
    | .error fault => Shell.report ("profile: " ++ fault.failure.message ++ "\n")

/-- An output without a level asks for phases. -/
def tracingOf (g : Given) (config : Config) : Except Failure (Option Tracing) := do
  let outputs := ([g.text "trace", config.traceOutput].filter (· ≠ "")).eraseDups
  let asked := g.text "trace-level"
  let level := if asked = "" then config.traceLevel else asked
  let quiet := level = "" ∨ level = "off"
  let level := if !outputs.isEmpty ∧ quiet ∧ !g.has "trace-level" then Trace.Level.phase.name
    else if level = "" then Trace.Level.off.name else level
  let level ← Trace.Level.parse level
  if level = .off then return none
  let format ← Trace.Format.parse (g.text "trace-format" "auto")
  return some ⟨level, format, if outputs.isEmpty then ["-"] else outputs⟩

def openTraces (t : Tracing) : Run m Unit :=
  t.outputs.forM fun path => do
    if path ≠ "-" then
      match ← Shell.writeFile path [] with
      | .ok () => pure ()
      | .error fault =>
        throw (.noted "failed to create tracer"
          (.noted "failed to open trace output" fault.failure))

def writeTraces (t : Tracing) (events : List Trace.Event) : m Unit := do
  let now ← Shell.now
  let stamped := events.zipIdx.map fun (e, i) =>
    ({ event := e, time := now, sequence := i + 1 } : Trace.Stamped)
  t.outputs.forM fun path => do
    let text := Trace.written t.level t.format path stamped
    if path = "-" then Shell.report text else discard (Shell.writeFile path (Bytes.ofString text))

def startTracing (g : Given) (config : Config) : Run m (Option Tracing) := do
  let tracing ← take (tracingOf g config)
  match tracing with
  | some t => openTraces t
  | none => pure ()
  return tracing

/-- The settings, with the flags in their place. -/
def optionsOf (c : Context) : Except Failure CompileOptions := do
  let g := c.given
  let base := c.config.options
  let level ← match g.text "opt-level" with
    | "" => pure base.level
    | text => OptLevel.parse text
  return { base with
    level := level
    gas.disabled := if g.has "no-gas" then g.truth "no-gas" else base.gas.disabled
    gas.dynamic := if g.has "dynamic-costs" then g.truth "dynamic-costs" else base.gas.dynamic }

def cacheOf (c : Context) : Run m (Option Cache) := do
  let asked := c.given.text "cache"
  let kind := if asked = "" then c.config.cacheKind.name else asked
  if Text.lower kind = "none" then return none
  match CacheKind.ofName? (Text.lower kind) with
  | some kind => return some (← within (Cache.ofKind c.config kind))
  | none => refuse ("invalid --cache value " ++ Text.quote kind ++ " (expected none|jit|aot)")

def loadProgram (path : String) : Run m Program := do
  match ← Shell.kindOf path with
  | .error fault =>
    throw (.noted ("failed to stat " ++ Text.quote path) fault.failure)
  | .ok .directory => refuse (path ++ " is a directory")
  | .ok .file => within (Build.readProgram path)

def compileProgram (c : Context) (path : String) (p : Program) :
    Run m (Compiled × CompileOptions × Timing.Report) := do
  let options ← take (optionsOf c)
  let before ← Shell.now
  let (outcome, progress) :=
    Sierra.compile { options := options, name := Path.stem path } false (some p)
  noteEvents progress.journal
  let compiled ← take outcome
  let after ← Shell.now
  let phases := progress.phases.map fun name => ({ name := name, time := ⟨0, 1⟩ } : Timing.Phase)
  return (compiled, options, ⟨phases, .ofMicros (after.micros - before.micros)⟩)

/-- Prints when the path is empty or a dash. -/
def writeOutput (path text : String) : Run m Unit := do
  if path = "" ∨ path = "-" then Shell.print text
  else
    match ← Shell.writeFile path (Bytes.ofString text) with
    | .ok () => pure ()
    | .error fault => throw (.noted ("failed to create " ++ path) fault.failure)

/-! ## Commands -/

def compileCommand (c : Context) (path : String) : Run m Unit := do
  let form := Text.lower (c.given.text "emit" "dump")
  let output := c.given.text "output"
  if ["dump", "llvm", "artifact"].contains form = false then
    refuse ("invalid --emit value " ++ Text.quote form ++ " (expected dump|llvm|artifact)")
  if form = "artifact" ∧ output = "" then refuse "--emit artifact needs --output"
  let p ← loadProgram path
  let (compiled, options, report) ← compileProgram c path p
  match form with
  | "artifact" =>
    match ← Shell.writeFile output (Artifact.ofCompiled compiled options).encode with
    | .ok () => pure ()
    | .error fault => throw fault.failure.wrap
  | "llvm" =>
    match Llvm.emitModule compiled.module with
    | .ok unit => writeOutput output unit.text
    | .error cause =>
      if output ≠ "" ∧ output ≠ "-" then writeOutput output ""
      throw cause
  | _ => writeOutput output compiled.module.text
  if c.given.truth "timings" then Shell.report report.text

def showsProgress (terminal : Bool) (value : String) (printsCommands : Bool) :
    Except Failure Bool :=
  match Text.trim (Text.lower value) with
  | "" | "auto" => .ok (!printsCommands && terminal)
  | "on" => .ok (!printsCommands)
  | "off" => .ok false
  | _ =>
    .error (.plain ("invalid --ui value " ++ Text.quote value ++ " (expected auto|on|off)"))

def outputLine (colours : Bool) (o : Build.Output) : String :=
  match o.failure with
  | some _ => Text.paint colours [.red] "failed" ++ " " ++ o.file ++ "\n"
  | none =>
    let built := Text.paint colours [.green] "built" ++ " " ++ o.file
    if o.codePath = "" then built ++ " (" ++ o.key ++ ")\n" else built ++ " -> " ++ o.codePath ++ "\n"

def timeLines (times : List (Build.Phase × Int)) : String :=
  let line (phase : Build.Phase) (word : String) : String :=
    match times.lookup phase with
    | some micros => word ++ " " ++ (Timing.Millis.ofMicros micros).text 1 ++ " ms\n"
    | none => ""
  line .parse "parsed" ++ line .compile "compiled" ++ line .emit "emitted"

def buildCommand (c : Context) (files : List String) : Run m Unit := do
  let g := c.given
  let outDir := g.text "out-dir"
  discard (take (showsProgress (← Shell.isTerminal) (g.text "ui" "auto") (g.truth "print-commands")))
  if g.truth "emit-llvm" ∧ outDir = "" then refuse "--emit-llvm needs --out-dir"
  let options ← take (optionsOf c)
  let cache := (← cacheOf c).getD (.memory (MemoryCache.new 0))
  let request : Build.Request :=
    { files := files
      options := options
      outDir := outDir
      emitsCode := g.truth "emit-llvm"
      shared := g.truth "shared"
      traced := c.tracing.isSome }
  let result ← within (Build.run request cache).run
  noteEvents result.journal
  Shell.print (String.join (result.outputs.map (outputLine c.colours)))
  if g.truth "timings" then Shell.report (timeLines result.times)
  match Build.failures result.outputs with
  | some failure => throw failure
  | none => pure ()

def obtain (c : Context) (path : String) (p : Program) : Run m Executable := do
  let options ← take (optionsOf c)
  let name := Path.stem path
  let (outcome, compiled) ← match ← cacheOf c with
    | none => pure ((p.artifact options name) >>= Executable.load, true)
    | some cache =>
      let (outcome, after) ← aside (cache.get false (Build.keyOf path p options) p options name)
      pure (outcome, cache.compilations < after.compilations)
  if c.tracing.isSome ∧ compiled then noteEvents (p.journal options name)
  take outcome

def feltList (fs : List Felt) : String := "[" ++ Text.join ", " (fs.map Felt.hex) ++ "]"

def verdict (colours failed : Bool) (bad : String) (text : String) : String :=
  (if failed then Text.paint colours [.red, .bold] (bad ++ ":")
    else Text.paint colours [.green, .bold] "returned:") ++ " " ++ text ++ "\n"

def argumentAt (x : Executable) (entry : String) (i : Nat) (text : String) :
    Except Failure Value := do
  match (← x.artifact.userParams (← x.artifact.entry entry))[i]? with
  | some id => Value.ofWritten x.artifact.types id text
  | none => .error (.plain s!"no parameter {i}")

def readArgs (types : Descriptors) (params : List Nat) (words : List String) :
    Except Failure (List Value) :=
  (params.zip words).zipIdx.mapM fun ((id, word), i) =>
    (Value.ofWritten types id word).mapError (Failure.noted s!"argument {i}")

def runFunction (c : Context) (x : Executable) (entry : String) (words : List String)
    (budget : Budget) : Run m Unit := do
  let params ← take (do x.artifact.userParams (← x.artifact.entry entry))
  if params.length ≠ words.length then
    refuse (entry ++ s!" takes {params.length} arguments, got {words.length}")
  let args ← take (readArgs x.artifact.types params words)
  let (outcome, host) := x.invoke entry args budget {}
  Shell.report host.printed
  let o ← take outcome
  Shell.print (verdict c.colours o.failed "panicked" (if o.failed then o.message else o.value.text))
  match o.remaining with
  | some left =>
    Shell.print s!"remaining gas: {Text.grouped left} (consumed {Text.grouped o.consumed})\n"
  | none => pure ()
  Shell.print (String.join (o.counters.map fun (name, n) => name ++ ": " ++ Text.grouped n ++ "\n"))
  if o.failed then refuse (entry ++ " panicked")

def runContract (c : Context) (x : Executable) (entry : String) (words : List String)
    (budget : Budget) : Run m Unit := do
  let data ← take (words.zipIdx.mapM fun (word, i) =>
    (Felt.ofWritten (Text.trim word)).mapError (Failure.noted s!"calldata {i}"))
  let (outcome, host) := x.invokeContract entry data budget { chain := some {} }
  Shell.report host.printed
  let o ← take outcome
  Shell.print (verdict c.colours o.failed "reverted"
    (if o.failed then o.message else feltList o.values))
  Shell.print s!"remaining gas: {Text.grouped o.remaining}\n"
  Shell.print (String.join (o.events.zipIdx.map fun (e, i) =>
    s!"event {i}: keys=" ++ feltList e.keys ++ " data=" ++ feltList e.data ++ "\n"))
  if o.failed then refuse (entry ++ " reverted")

/-- Lists the entry points when none is named. -/
def runCommand (c : Context) (path : String) (words : List String) : Run m Unit := do
  let p ← loadProgram path
  let x ← obtain c path p
  match words with
  | [] =>
    Shell.print (String.join (x.artifact.entries.map fun e =>
      s!"{e.name} (requires {Text.grouped e.required} gas)\n"))
  | entry :: words =>
    let g := c.given
    let budget : Budget :=
      { gas := if g.has "gas" then some (g.number "gas").toNat else none
        maxDepth := g.number "max-depth" }
    if g.truth "contract" then runContract c x entry words budget
    else runFunction c x entry words budget

def gasRow (r : Gas.Report) : Text.Json :=
  let worst := r.worst.getD 0
  .object ([("function", .string r.function.symbol), ("entry_cost", .number r.entry)] ++
    (if worst = 0 then [] else [("worst_case", .number worst)]) ++
    (if r.worst.isNone then [("unbounded", .bool true)] else []) ++
    [("checkpoints", .number r.checkpoints), ("injected", .number r.injected)] ++
    (r.apMove?.map fun n => ("ap_change", Text.Json.number n)).toList)

def checkFormat (shown : String) : Except Failure Unit :=
  if ["pretty", "json"].contains (Text.lower shown) then .ok ()
  else .error (.plain ("unsupported format " ++ Text.quote shown ++ " (must be pretty or json)"))

def gasCommand (c : Context) (path : String) : Run m Unit := do
  let format := Text.lower (c.given.text "format" "pretty")
  take (checkFormat format)
  let p ← loadProgram path
  let (compiled, _, _) ← compileProgram c path p
  let reports := compiled.gas.reports p
  if format = "json" then Shell.print ((Text.Json.array (reports.map gasRow)).indented "" ++ "\n")
  else Shell.print (Gas.Report.table reports)

def clearCommand (c : Context) : Run m Unit := do
  let cache ← within (StoredCache.openDir c.config.cacheDir)
  let (outcome, _) ← aside cache.clear
  take outcome
  Shell.print s!"cleared {cache.dir}\n"

def versionCommand (c : Context) : Run m Unit := do
  let format := c.given.text "format" "pretty"
  take (checkFormat format)
  let full := c.given.truth "full"
  if Text.lower format = "json" then Shell.print ((About.toJson full).indented "" ++ "\n")
  else Shell.print (About.text c.colours full)

def helpCommand (words : List String) : Run m Unit :=
  match Command.find words with
  | .ok (c, _) => Shell.print c.explanation
  | .error _ =>
    Shell.report ("Unknown help topic [" ++
      Text.join " " (words.map fun w => "\x60" ++ w ++ "\x60") ++ "]\n" ++ Command.root.usage)

def act (action : Action) (c : Context) : Run m Unit :=
  let args := c.given.args
  match action with
  | .explain => pure ()
  | .compile => compileCommand c (args.headD "")
  | .build => buildCommand c args
  | .run => runCommand c (args.headD "") (args.drop 1)
  | .gas => gasCommand c (args.headD "")
  | .clearCache => clearCommand c
  | .showCache => Shell.print (c.config.cacheDir ++ "\n")
  | .version => versionCommand c
  | .help => helpCommand args
  | .complete => refuse "no completion scripts are included"

inductive Ending where
  | well
  | failed (failure : Failure) (colours : Bool)
  /-- The log cannot be written, which has been told. -/
  | unlogged

def performWith (c : Command) (g : Given) (colours : Bool) (config : Config) :
    m (Except Failure Unit) := do
  match ← (startTracing g config : Run m (Option Tracing)).run.run [] with
  | (.error failure, _) => return .error failure
  | (.ok tracing, _) =>
    let context : Context := { given := g, config := config, colours := colours, tracing := tracing }
    let (outcome, events) ← (act c.action context : Run m Unit).run.run []
    match tracing with
    | some t => writeTraces t events
    | none => pure ()
    return outcome

def perform (c : Command) (g : Given) (terminal : Bool) : m Ending := do
  match coloursOf terminal g with
  | .error failure => return .failed failure terminal
  | .ok colours =>
    if !(← startLog g) then return .unlogged
    let setUp : Run m Config := do
      let config ← configOf g
      startProfiles g
      return config
    match ← setUp.run.run [] with
    | (.error failure, _) => return .failed failure colours
    | (.ok config, _) =>
      let outcome ← performWith c g colours config
      endProfiles g
      match outcome with
      | .ok () => return .well
      | .error failure => return .failed failure colours

def commandOf (words : List String) : Except Failure (Command × Given) := do
  let (c, rest) ← Command.find words
  return (c, ← Given.read c.allFlags rest)

def run (words : List String) : m Ending := do
  let terminal ← Shell.isTerminal
  match commandOf words with
  | .error failure => return .failed failure terminal
  | .ok (c, g) =>
    if c.path.isEmpty ∧ g.truth "version" ∧ !g.truth "help" then
      Shell.print s!"{About.tool} version {About.version}\n"
      return .well
    else if g.truth "help" ∨ !c.isRunnable then
      Shell.print c.explanation
      return .well
    else
      match c.checkArity g.args with
      | .error failure => return .failed failure terminal
      | .ok () => perform c g terminal

/-- The number with which the program ends. -/
def execute (words : List String) : m UInt32 := do
  match ← run words with
  | .well => return 0
  | .failed failure colours =>
    Shell.complain colours failure.message
    return 1
  | .unlogged => return 1

end Sierra.Cli
