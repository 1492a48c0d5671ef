import Sierra.Clock
import Sierra.Failure
import Sierra.Path
import Sierra.Text.Colour

/-!
# The surroundings of the program

What commands may do to the outside: files, printing, the clock. They are written for every monad
that offers this: a real machine, or a session, which is a value.
-/

namespace Sierra

inductive DiskReason where
  | missing
  | notDirectory
  | isDirectory
  | present
  | longName
  | badName
  | other (text : String)
deriving DecidableEq, Repr

def DiskReason.text : DiskReason → String
  | .missing => "no such file or directory"
  | .notDirectory => "not a directory"
  | .isDirectory => "is a directory"
  | .present => "file exists"
  | .longName => "file name too long"
  | .badName => "invalid argument"
  | .other text => text

structure DiskFault where
  operation : String
  path : String
  reason : DiskReason
deriving DecidableEq, Repr

def DiskFault.failure (f : DiskFault) : Failure :=
  .file (f.operation ++ " " ++ f.path ++ ": " ++ f.reason.text)

inductive FileKind where
  | file
  | directory
deriving DecidableEq, Repr

class Shell (m : Type → Type) where
  whole : String → m String
  kindOf : String → m (Except DiskFault FileKind)
  readFile : String → m (Except DiskFault Bytes)
  writeFile : String → Bytes → m (Except DiskFault Unit)
  extendFile : String → Bytes → m (Except DiskFault Unit)
  makeDirectory : String → m (Except DiskFault Unit)
  filesIn : String → m (Except DiskFault (List String))
  removeFile : String → m (Except DiskFault Unit)
  print : String → m Unit
  report : String → m Unit
  isTerminal : m Bool
  now : m Instant

def Shell.complaintMark : String := "error:"

def Shell.complain {m : Type → Type} [Shell m] (colours : Bool) (text : String) : m Unit :=
  Shell.report (Text.paint colours [.red, .bold] complaintMark ++ " " ++ text ++ "\n")

@[reducible] def Shell.through {m n : Type → Type} [Shell m] (run : ∀ {α : Type}, m α → n α) :
    Shell n where
  whole path := run (Shell.whole path)
  kindOf path := run (Shell.kindOf path)
  readFile path := run (Shell.readFile path)
  writeFile path content := run (Shell.writeFile path content)
  extendFile path content := run (Shell.extendFile path content)
  makeDirectory path := run (Shell.makeDirectory path)
  filesIn path := run (Shell.filesIn path)
  removeFile path := run (Shell.removeFile path)
  print text := run (Shell.print text)
  report text := run (Shell.report text)
  isTerminal := run Shell.isTerminal
  now := run Shell.now

instance {ε : Type} {m : Type → Type} [Monad m] [Shell m] : Shell (ExceptT ε m) :=
  Shell.through ExceptT.lift

instance {σ : Type} {m : Type → Type} [Monad m] [Shell m] : Shell (StateT σ m) :=
  Shell.through StateT.lift

end Sierra
