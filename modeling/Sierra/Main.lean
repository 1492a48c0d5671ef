import Sierra.Cli

/-!
# The program

The commands in the surroundings of a real machine.
-/

namespace Sierra.Disk

def reasonOf : IO.Error → DiskReason
  | .noFileOrDirectory .. => .missing
  | .inappropriateType .. => .notDirectory
  | .alreadyExists .. => .present
  | e => .other (toString e)

def attempt {α : Type} (operation path : String) (action : IO α) : IO (Except DiskFault α) := do
  if path = "" then return .error ⟨operation, path, .missing⟩
  try
    return .ok (← action)
  catch e =>
    return .error ⟨operation, path, reasonOf e⟩

def kindOf (path : String) : IO FileKind := do
  let data ← ((← IO.currentDir) / path).metadata
  return if data.type == .dir then .directory else .file

/-- The operation that finds out is given. -/
def onFile {α : Type} (operation path : String) (action : IO α) : IO (Except DiskFault α) := do
  match ← attempt "stat" path (kindOf path) with
  | .ok .directory => return .error ⟨operation, path, .isDirectory⟩
  | _ => attempt "open" path action

def ensureDirectory (path : String) : IO (Except DiskFault Unit) := do
  match ← attempt "stat" path (kindOf path) with
  | .ok .directory => return .ok ()
  | .ok .file => return .error ⟨"mkdir", path, .notDirectory⟩
  | .error _ => attempt "mkdir" path (IO.FS.createDir path)

def filesIn (path : String) : IO (List String) := do
  let entries ← ((← IO.currentDir) / path).readDir
  let names := (entries.map (·.fileName)).toList.mergeSort fun a b => decide (a ≤ b)
  names.filterM fun name => do return (← kindOf (Path.join path name)) == .file

instance : Shell IO where
  whole path := do return Path.clean ((← IO.currentDir) / path).toString
  kindOf path := attempt "stat" path (kindOf path)
  readFile path := onFile "read" path do return (← IO.FS.readBinFile path).toList
  writeFile path content := onFile "open" path (IO.FS.writeBinFile path ⟨content.toArray⟩)
  extendFile path content := onFile "open" path do
    (← IO.FS.Handle.mk path .append).write ⟨content.toArray⟩
  makeDirectory path := ((Path.beginnings path).forM fun p => ExceptT.mk (ensureDirectory p)).run
  filesIn path := attempt "open" path (filesIn path)
  removeFile path := attempt "remove" path (IO.FS.removeFile path)
  print text := IO.print text
  report text := IO.eprint text
  isTerminal := do (← IO.getStdout).isTty
  now := do return ⟨(← IO.monoNanosNow) / 1000⟩

end Sierra.Disk

def main (words : List String) : IO UInt32 := Sierra.Cli.execute words
