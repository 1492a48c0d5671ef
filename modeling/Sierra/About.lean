import Sierra.Artifact
import Sierra.Text.Colour
import Sierra.Text.Json

/-!
# About this program

Its name, its version and what it supports.
-/

namespace Sierra.About

def tool : String := "sierra-native"

def version : String := "0.1.0-dev"

def toolchain : String := ""

def unknown : String := "unknown"

/-- Highlights the three numbers of a version, if it has them. -/
def coloured (colours : Bool) (version : String) : String :=
  let core := version.toList.takeWhile (· ≠ '-')
  let suffix := String.ofList (version.toList.drop core.length)
  match (String.ofList core).splitOn "." with
  | [major, minor, patch] =>
    Text.paint colours [.yellow, .bold] major ++ "." ++
      Text.paint colours [.green, .bold] minor ++ "." ++
      Text.paint colours [.blue, .bold] patch ++ suffix
  | _ => version

def toJson (full : Bool) : Text.Json :=
  .object ([("tool", .string tool), ("version", .string version), ("go", .string toolchain),
      ("artifact_version", .number Artifact.currentVersion),
      ("types", .number GenericType.names.length),
      ("libfuncs", .number Libfunc.names.length)] ++
    if full then
      ["git_commit", "git_message", "build_date"].map fun key => (key, .string unknown)
    else [])

def text (colours full : Bool) : String :=
  s!"{tool} {coloured colours version} ({toolchain})\n" ++
    s!"artifact format v{Artifact.currentVersion}, {GenericType.names.length} generic types, " ++
    s!"{Libfunc.names.length} generic libfuncs\n" ++
    if full then s!"commit: {unknown} {unknown}\nbuilt:  {unknown}\n" else ""

end Sierra.About
