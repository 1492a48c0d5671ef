import Sierra.Shell.FileTree

/-!
# Sessions

The surroundings as a value: files, and what has been printed. Commands run in a session
the same way as on a real machine.
-/

namespace Sierra

structure Session where
  tree : FileTree
  printed : String := ""
  reported : String := ""
deriving Inhabited

namespace Session

def onTree (f : FileTree → Except DiskFault FileTree) : StateM Session (Except DiskFault Unit) :=
  fun s =>
    match f s.tree with
    | .ok t => (.ok (), { s with tree := t })
    | .error fault => (.error fault, s)

instance : Shell (StateM Session) where
  whole path := fun s => (s.tree.whole path, s)
  kindOf path := fun s => (s.tree.kindOf path, s)
  readFile path := fun s => (s.tree.read path, s)
  writeFile path content := onTree fun t => t.update path fun _ => content
  extendFile path content := onTree fun t => t.update path (· ++ content)
  makeDirectory path := onTree fun t => t.makeDirectory path
  filesIn path := fun s => (s.tree.filesIn path, s)
  removeFile path := onTree fun t => t.remove path
  print text := fun s => ((), { s with printed := s.printed ++ text })
  report text := fun s => ((), { s with reported := s.reported ++ text })
  isTerminal := fun s => (false, s)
  now := fun s => (⟨0⟩, s)

def complaint (s : Session) : Option String :=
  let mark := (Shell.complaintMark ++ " ").toList
  let lines := Path.splitAt '\n' (Text.unpainted false s.reported.toList)
  (lines.reverse.find? fun line => mark.isPrefixOf line).map fun line =>
    String.ofList (line.drop mark.length)

end Session

end Sierra
