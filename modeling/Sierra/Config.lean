import Sierra.Options
import Sierra.Shell
import Sierra.Toml.Document

/-!
# Configuration

Settings in a file at or above the working directory. What the file does not say keeps its default;
unknown settings are refused.
-/

namespace Sierra

inductive CacheKind where
  | aot
  | jit
deriving DecidableEq, Repr, Inhabited

namespace CacheKind

def name : CacheKind → String
  | aot => "aot"
  | jit => "jit"

def ofName? (name : String) : Option CacheKind := [aot, jit].find? fun k => k.name == name

end CacheKind

structure Config where
  options : CompileOptions := {}
  cacheKind : CacheKind := .aot
  cacheDir : String := ".sierra-native/cache"
  cacheCapacity : Int := 64
  traceLevel : String := "off"
  traceOutput : String := ""
  /-- Empty for the defaults. -/
  path : String := ""
deriving Inhabited

namespace Config

def fileName : String := "sierra-native.toml"

/-! ## Costs -/

def kindName : Toml.Value → String
  | .string _ => "string"
  | .integer _ => "int64"
  | .float _ => "float64"
  | .boolean _ => "bool"
  | .time _ => "time.Time"
  | .array _ => "[]interface \x7b\x7d"
  | .table _ => "map[string]interface \x7b\x7d"
  | .tables _ => "[]map[string]interface \x7b\x7d"

def tokenCosts : Toml.Table → Except Failure Gas.Cost
  | [] => .ok {}
  | (name, v) :: rest =>
    match Gas.Token.ofName? name, v with
    | none, _ => .error (.plain ("unknown cost token " ++ Text.quote name))
    | some token, .integer n =>
      if n < 0 then refused name else do return (← tokenCosts rest).set n token
    | some _, _ => refused name
where
  refused (name : String) : Except Failure Gas.Cost :=
    .error (.plain ("token " ++ name ++ " needs a non-negative integer"))

def costOf : Toml.Value → Except Failure Gas.Cost
  | .integer n => if n < 0 then .error (.plain s!"negative cost {n}") else .ok (.gas n)
  | .table entries => tokenCosts entries
  | v => .error (.plain ("cost must be an integer or a token table, got " ++ kindName v))

def branchCosts (id : String) (v : Toml.Value) : Except Failure (List Gas.Cost) :=
  let each (vs : List Toml.Value) : Except Failure (List Gas.Cost) :=
    if vs.isEmpty then .error (.plain ("gas.costs." ++ id ++ ": empty branch list"))
    else vs.zipIdx.mapM fun (v, i) =>
      (costOf v).mapError (Failure.noted ("gas.costs." ++ id ++ s!"[{i}]"))
  match v with
  | .array vs => each vs
  | .tables ts => each (ts.map .table)
  | v => do return [← (costOf v).mapError (Failure.noted ("gas.costs." ++ id))]

def allCosts (entries : Toml.Table) : Except Failure (List (String × List Gas.Cost)) :=
  (entries.mergeSort fun a b => a.1 ≤ b.1).mapM fun (id, v) => do
    return (id, ← branchCosts id v)

/-! ## Settings -/

structure Reading where
  config : Config := {}
  kind : String := "aot"
  costs : Toml.Table := []
  known : List Toml.Key := []

/-- A text that is no document, or a value of another kind than asked for. -/
def misfit {α : Type} : Except Failure α := .error (.syntaxError .unknown none)

def text : Toml.Value → Except Failure String
  | .string s => .ok s
  | _ => misfit

def flag : Toml.Value → Except Failure Bool
  | .boolean b => .ok b
  | _ => misfit

def number : Toml.Value → Except Failure Int
  | .integer n => .ok n
  | _ => misfit

def level : Toml.Value → Except Failure OptLevel
  | .string s => OptLevel.parse s
  | .integer n =>
    if 0 ≤ n ∧ n ≤ 3 then .ok (.ofIndex n)
    else .error (.plain s!"opt level {n} out of range 0..3")
  | v => .error (.plain ("opt level must be a string or an integer, got " ++ kindName v))

structure Setting where
  name : String
  take : Reading → Toml.Key → Toml.Value → Except Failure Reading

def Setting.of {α : Type} (name : String) (read : Toml.Value → Except Failure α)
    (put : Config → α → Config) : Setting :=
  ⟨name, fun r _ v => do return { r with config := put r.config (← read v) }⟩

/-- The setting with that name, or the first whose name differs in case. -/
def settingOf (settings : List Setting) (key : String) : Option Setting :=
  match settings.find? fun s => s.name == key with
  | some s => some s
  | none => settings.find? fun s => Text.sameFolded s.name key

/-- Unknown entries are passed over. -/
def takeAll (settings : List Setting) (context : Toml.Key) (r : Reading) :
    Toml.Table → Except Failure Reading
  | [] => .ok r
  | (key, v) :: rest => do
    match settingOf settings key with
    | none => takeAll settings context r rest
    | some s =>
      let full := context ++ [key]
      let r ← s.take { r with known := full :: r.known } full v
      takeAll settings context r rest

def Setting.section (name : String) (settings : List Setting) : Setting :=
  ⟨name, fun r key v =>
    match v with
    | .table entries => takeAll settings key r entries
    | _ => misfit⟩

/-- Anything but a table says nothing. -/
def Setting.costs : Setting :=
  ⟨"costs", fun r key v =>
    match v with
    | .table entries =>
      .ok { r with
        costs := r.costs.filter (fun entry => (entries.lookup entry.1).isNone) ++ entries
        known := entries.map (fun entry => key ++ [entry.1]) ++ r.known }
    | _ => .ok r⟩

def settings : List Setting := [
  .section "compile" [
    .of "opt_level" level fun c l => { c with options.level := l }],
  .section "gas" [
    .of "dynamic_costs" flag fun c b => { c with options.gas.dynamic := b },
    .of "disabled" flag fun c b => { c with options.gas.disabled := b },
    .costs],
  .section "cache" [
    ⟨"kind", fun r _ v => do return { r with kind := ← text v }⟩,
    .of "dir" text fun c s => { c with cacheDir := s },
    .of "capacity" number fun c n => { c with cacheCapacity := n }],
  .section "trace" [
    .of "level" text fun c s => { c with traceLevel := s },
    .of "output" text fun c s => { c with traceOutput := s }]]

def isCostKey : Toml.Key → Bool
  | "gas" :: "costs" :: _ :: _ => true
  | _ => false

def read (content : String) : Except Failure (Toml.Document × Reading) := do
  let d ← match Toml.Document.parse content with
    | some d => pure d
    | none => misfit
  return (d, ← takeAll settings [] {} d.root)

def parse (path content : String) : Except Failure Config := do
  let (d, r) ← (read content).mapError (Failure.noted (path ++ ": failed to parse TOML"))
  match d.keys.find? fun key => !r.known.contains key && !isCostKey key with
  | some key => .error (.plain (path ++ ": unknown key " ++ Toml.keyText key))
  | none =>
    match CacheKind.ofName? r.kind with
    | none => .error (.plain (path ++ ": unknown cache kind " ++ Text.quote r.kind))
    | some kind =>
      let costs ← (allCosts r.costs).mapError (Failure.noted path)
      return { r.config with options.gas.costs := costs, cacheKind := kind, path := path }

/-! ## Files -/

variable {m : Type → Type} [Monad m] [Shell m]

def load (path : String) : m (Except Failure Config) := do
  match ← Shell.readFile path with
  | .error fault => return .error (.noted (path ++ ": failed to parse TOML") fault.failure)
  | .ok content => return parse path content.toText

/-- Each round goes one directory up. -/
def findFrom : (rounds : Nat) → (dir : String) → m (Except Failure (Option String))
  | 0, _ => return .ok none
  | rounds + 1, dir => do
    let candidate := Path.join dir fileName
    match ← Shell.kindOf candidate with
    | .ok _ => return .ok (some candidate)
    | .error fault =>
      if fault.reason ≠ .missing then
        return .error (.noted ("failed to stat " ++ Text.quote candidate) fault.failure)
      let above := Path.parent dir
      if above = dir then return .ok none else findFrom rounds above

def discover (start : String) : m (Except Failure Config) := do
  let dir ← Shell.whole (if start = "" then "." else start)
  match ← findFrom (dir.length + 1) dir with
  | .error f => return .error f
  | .ok none => return .ok {}
  | .ok (some path) => load path

end Config

end Sierra
