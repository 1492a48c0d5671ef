import Sierra.About
import Sierra.Cli.Flags
import Sierra.Config

/-!
# Commands

The commands of the program, each with its flags and the arguments it takes. A command is
known by its path: the words that lead to it.
-/

namespace Sierra.Cli

inductive Arity where
  | any
  | none
  | exactly (n : Nat)
  | atLeast (n : Nat)
deriving DecidableEq, Repr

inductive Action where
  | explain
  | compile
  | build
  | run
  | gas
  | clearCache
  | showCache
  | version
  | help
  | complete
deriving DecidableEq, Repr

structure Command where
  path : List String := []
  operands : String := " [flags]"
  short : String
  long : String := ""
  flags : List Flag := []
  arity : Arity := .any
  action : Action := .explain

namespace Command

def shared : List Flag := [
  { name := "color", usage := "colorize output (auto|on|off)", initial := "auto" },
  { name := "config"
    usage := "path to " ++ Config.fileName ++
      " (default: nearest one above the working directory)" },
  { name := "verbose", letter := some 'v', kind := .count, usage := "log more (repeatable)" },
  { name := "log", usage := "write logs to this file instead of stderr" },
  { name := "timings", kind := .truth, usage := "show timing information" },
  { name := "trace", usage := "trace output file (- for stderr)" },
  { name := "trace-level", usage := "trace level (off|error|phase|detail|debug)" },
  { name := "trace-format", usage := "trace format (auto|text|ndjson)", initial := "auto" },
  { name := "cpu-profile", usage := "write a CPU profile to this file" },
  { name := "mem-profile", usage := "write a heap profile to this file" },
  { name := "runtime-trace", usage := "write a Go runtime trace to this file" }]

def compileFlags : List Flag := [
  { name := "opt-level", letter := some 'O'
    usage := "optimization level (none|less|default|aggressive or 0..3)" },
  { name := "no-gas", kind := .truth, usage := "disable gas metering" },
  { name := "dynamic-costs", kind := .truth, usage := "read builtin costs at runtime" }]

def cacheFlag : Flag :=
  { name := "cache"
    usage := "program cache (none|jit|aot; default from " ++ Config.fileName ++ ")" }

def formatFlag : Flag :=
  { name := "format", usage := "output format (pretty|json)", initial := "pretty" }

def root : Command :=
  { short := "Sierra to native code compiler"
    long := "sierra-native compiles Sierra programs to native modules and runs their entry points"
    flags := [{ name := "version", kind := .truth, usage := "version for " ++ About.tool }] }

def completion (shell long : String) : Command :=
  { path := ["completion", shell], operands := ""
    short := "Generate the autocompletion script for " ++ shell
    long := long
    flags := [{ name := "no-descriptions", kind := .truth
                usage := "disable completion descriptions" }]
    arity := .none
    action := .complete }

def completions : List Command := [
  completion "bash" ("Generate the autocompletion script for the bash shell.\n\n" ++
    "This script depends on the 'bash-completion' package.\n" ++
    "If it is not installed already, you can install it via your OS's package manager.\n\n" ++
    "To load completions in your current shell session:\n\n" ++
    "\tsource <(sierra-native completion bash)\n\n" ++
    "To load completions for every new session, execute once:\n\n" ++
    "#### Linux:\n\n" ++
    "\tsierra-native completion bash > /etc/bash_completion.d/sierra-native\n\n" ++
    "#### macOS:\n\n" ++
    "\tsierra-native completion bash > $(brew --prefix)/etc/bash_completion.d/sierra-native\n\n" ++
    "You will need to start a new shell for this setup to take effect."),
  completion "zsh" ("Generate the autocompletion script for the zsh shell.\n\n" ++
    "If shell completion is not already enabled in your environment you will need\n" ++
    "to enable it.  You can execute the following once:\n\n" ++
    "\techo \"autoload -U compinit; compinit\" >> ~/.zshrc\n\n" ++
    "To load completions in your current shell session:\n\n" ++
    "\tsource <(sierra-native completion zsh)\n\n" ++
    "To load completions for every new session, execute once:\n\n" ++
    "#### Linux:\n\n" ++
    "\tsierra-native completion zsh > \"$\x7bfpath[1]\x7d/_sierra-native\"\n\n" ++
    "#### macOS:\n\n" ++
    "\tsierra-native completion zsh > " ++
    "$(brew --prefix)/share/zsh/site-functions/_sierra-native\n\n" ++
    "You will need to start a new shell for this setup to take effect."),
  completion "fish" ("Generate the autocompletion script for the fish shell.\n\n" ++
    "To load completions in your current shell session:\n\n" ++
    "\tsierra-native completion fish | source\n\n" ++
    "To load completions for every new session, execute once:\n\n" ++
    "\tsierra-native completion fish > ~/.config/fish/completions/sierra-native.fish\n\n" ++
    "You will need to start a new shell for this setup to take effect."),
  completion "powershell" ("Generate the autocompletion script for powershell.\n\n" ++
    "To load completions in your current shell session:\n\n" ++
    "\tsierra-native completion powershell | Out-String | Invoke-Expression\n\n" ++
    "To load completions for every new session, add the output of the above command\n" ++
    "to your powershell profile.")]

def named : List Command := completions ++ [
  { path := ["compile"], operands := " <file.sierra> [flags]"
    short := "Compile a Sierra program and print the result"
    long := "Compile a Sierra program through every stage and write one rendering of\n" ++
      "the finalized module: the target IR (dump), LLVM IR (llvm) or a loadable\n" ++
      "artifact (artifact)."
    flags := [
      { name := "emit", usage := "what to write (dump|llvm|artifact)", initial := "dump" },
      { name := "output", letter := some 'o'
        usage := "output file (default: stdout; required for artifact)" }] ++ compileFlags
    arity := .exactly 1
    action := .compile },
  { path := ["build"], operands := " <file.sierra>... [flags]"
    short := "Compile Sierra programs in parallel"
    long := "Compile every file through the program cache. With --out-dir the LLVM IR\n" ++
      "of each module is written next to the others; --shared links it into a\n" ++
      "shared object with clang."
    flags := [
      { name := "out-dir", usage := "directory for emitted files" },
      { name := "emit-llvm", kind := .truth, usage := "keep <name>.ll in --out-dir" },
      { name := "shared", kind := .truth, usage := "link <name>.so with clang (needs --out-dir)" },
      { name := "jobs", letter := some 'j', kind := .integer
        usage := "parallel compilations (default: GOMAXPROCS)" },
      { name := "ui", usage := "progress UI (auto|on|off)", initial := "auto" },
      { name := "print-commands", kind := .truth
        usage := "print external commands before running them" }] ++ compileFlags ++ [cacheFlag]
    arity := .atLeast 1
    action := .build },
  { path := ["run"], operands := " <file.sierra> [entry] [args...] [flags]"
    short := "Run an entry point of a Sierra program"
    long := "Compile a program through the program cache and invoke one entry point.\n" ++
      "Without an entry point the available ones are listed with the gas they\n" ++
      "require. With --contract the arguments are calldata felts and syscalls are\n" ++
      "served by an in-memory handler."
    flags := [
      { name := "gas", kind := .word, usage := "initial gas (default: unlimited)" },
      { name := "contract", kind := .truth
        usage := "invoke with the contract calling convention" },
      { name := "max-depth", kind := .integer
        usage := "call depth limit (default: executor limit)" }] ++ compileFlags ++ [cacheFlag]
    arity := .atLeast 1
    action := .run },
  { path := ["gas"], operands := " <file.sierra> [flags]"
    short := "Report the gas every function of a program requires"
    flags := formatFlag :: compileFlags
    arity := .exactly 1
    action := .gas },
  { path := ["cache"], short := "Manage the on-disk program cache" },
  { path := ["cache", "clear"], short := "Remove every cached artifact", arity := .none
    action := .clearCache },
  { path := ["cache", "path"], short := "Print the cache directory", arity := .none
    action := .showCache },
  { path := ["version"], short := "Show the compiler version and supported catalog"
    flags := [{ name := "full", kind := .truth, usage := "include commit and build date" },
      formatFlag]
    arity := .none
    action := .version },
  { path := ["help"], operands := " [command] [flags]", short := "Help about any command"
    long := "Help provides help for any command in the application.\n" ++
      "Simply type sierra-native help [path to command] for full details."
    action := .help },
  { path := ["completion"]
    short := "Generate the autocompletion script for the specified shell"
    long := "Generate the autocompletion script for sierra-native for the specified shell.\n" ++
      "See each sub-command's help for details on how to use the generated script." }]

def name (c : Command) : String := c.path.getLastD About.tool

def call (c : Command) : String := Text.join " " (About.tool :: c.path)

def isRunnable (c : Command) : Bool := c.action ≠ .explain

def below (c : Command) : List Command := named.filter fun d => d.path.dropLast == c.path && d.path ≠ []

def helpFlag (c : Command) : Flag :=
  { name := "help", letter := some 'h', kind := .truth, usage := "help for " ++ c.name }

def ownFlags (c : Command) : List Flag :=
  c.flags ++ [c.helpFlag] ++ if c.path.isEmpty then shared else []

def allFlags (c : Command) : List Flag :=
  c.flags ++ [c.helpFlag] ++ shared

/-! ## Finding the command -/

/-- Whether the next word is the value of a flag. -/
def takesNext (c : Command) (word : String) : Bool :=
  let flags := (if c.path.isEmpty then [] else c.flags) ++ shared
  let needsValue (f : Option Flag) : Bool := f.all fun f => f.alone.isNone
  match word.toList with
  | '-' :: '-' :: name =>
    !name.contains '=' && needsValue (flags.find? fun f => f.name == String.ofList name)
  | ['-', letter] =>
    letter ≠ '=' && letter.toNat < 0x80 && needsValue (flags.find? fun f => f.letter == some letter)
  | _ => false

def bareWords (c : Command) : List String → List String
  | [] => []
  | "--" :: _ => []
  | word :: rest =>
    if c.takesNext word then
      match rest with
      | [] | [_] => []
      | _ :: rest => bareWords c rest
    else if word ≠ "" && !word.startsWith "-" then word :: bareWords c rest
    else bareWords c rest

def withoutFirst (c : Command) (target : String) : List String → List String
  | [] => []
  | "--" :: rest => "--" :: rest
  | word :: rest =>
    if c.takesNext word then
      match rest with
      | [] => [word]
      | value :: rest => word :: value :: withoutFirst c target rest
    else if word = target && !word.startsWith "-" then rest
    else word :: withoutFirst c target rest

/-- Each round goes one command down. -/
def descend : (rounds : Nat) → Command → List String → Command × List String
  | 0, c, words => (c, words)
  | rounds + 1, c, words =>
    match c.bareWords words with
    | [] => (c, words)
    | next :: _ =>
      match c.below.find? fun d => d.name == next with
      | some d => descend rounds d (c.withoutFirst next words)
      | none => (c, words)

/-- Insertions, deletions and replacements between two texts. -/
def distance (a b : List Char) : Nat :=
  let next (row : List Nat) (c : Char) : List Nat :=
    let first := row.headD 0 + 1
    let cells := (b.zip (row.zip (row.drop 1))).foldl (fun (done, left) (d, diagonal, up) =>
      let cell := min (min (left + 1) (up + 1)) (if c = d then diagonal else diagonal + 1)
      (done ++ [cell], cell)) (([] : List Nat), first)
    first :: cells.1
  (a.foldl next (List.range (b.length + 1))).getLastD 0

/-- The commands that a mistyped word may mean. -/
def suggestions (word : String) : List String :=
  let typed := Text.lower word
  (root.below.map name).filter fun n =>
    distance typed.toList n.toList ≤ 2 || n.startsWith typed

def unknown (word : String) (c : Command) : String :=
  "unknown command " ++ Text.quote word ++ " for " ++ Text.quote c.call

def find (words : List String) : Except Failure (Command × List String) :=
  let (c, rest) := descend 3 root words
  match c.path, c.bareWords rest with
  | [], word :: _ =>
    let known := suggestions word
    .error (.plain (unknown word c ++
      if known.isEmpty then ""
      else "\n\nDid you mean this?\n" ++ String.join (known.map fun n => "\t" ++ n ++ "\n")))
  | _, _ => .ok (c, rest)

def checkArity (c : Command) (args : List String) : Except Failure Unit :=
  let refused (text : String) : Except Failure Unit := .error (.plain text)
  match c.arity with
  | .any => .ok ()
  | .none =>
    match args with
    | [] => .ok ()
    | word :: _ => refused (unknown word c)
  | .exactly n =>
    if args.length = n then .ok ()
    else refused s!"accepts {n} arg(s), received {args.length}"
  | .atLeast n =>
    if n ≤ args.length then .ok ()
    else refused s!"requires at least {n} arg(s), only received {args.length}"

end Command

end Sierra.Cli
