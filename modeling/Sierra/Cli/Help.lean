import Sierra.Cli.Command

/-!
# Explanations of commands

How a command is used: its description, the commands below it, and its flags in columns.
-/

namespace Sierra.Cli.Command

def valueWord : FlagKind → String
  | .text => " string"
  | .truth => ""
  | .count => " count"
  | .integer => " int"
  | .word => " uint"

def flagColumn (f : Flag) : String :=
  (match f.letter with
    | some c => s!"  -{c}, --{f.name}"
    | none => "      --" ++ f.name) ++ valueWord f.kind

def flagLines (flags : List Flag) : List String :=
  let sorted := flags.mergeSort fun a b => a.name ≤ b.name
  let width := sorted.foldl (fun w f => max w (flagColumn f).length) 0
  sorted.map fun f =>
    Text.padRight width (flagColumn f) ++ "   " ++ f.usage ++
      if f.initial = "" then "" else " (default " ++ Text.quote f.initial ++ ")"

def useLine (c : Command) : String := c.call ++ c.operands

def usage (c : Command) : String :=
  let below := c.below.mergeSort fun a b => a.name ≤ b.name
  let block (title : String) (lines : List String) : String :=
    if lines.isEmpty then "" else "\n\n" ++ title ++ "\n" ++ Text.join "\n" lines
  "Usage:" ++ (if c.isRunnable then "\n  " ++ c.useLine else "") ++
    (if below.isEmpty then "" else "\n  " ++ c.call ++ " [command]") ++
    block "Available Commands:"
      (below.map fun d => "  " ++ Text.padRight 11 d.name ++ " " ++ d.short) ++
    block "Flags:" (flagLines c.ownFlags) ++
    block "Global Flags:" (if c.path.isEmpty then [] else flagLines shared) ++
    (if below.isEmpty then ""
      else s!"\n\nUse \"{c.call} [command] --help\" for more information about a command.") ++ "\n"

def explanation (c : Command) : String :=
  (if c.long = "" then c.short else c.long) ++ "\n\n" ++ c.usage

end Sierra.Cli.Command
