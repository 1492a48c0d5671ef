import Sierra.Artifact.Image
import Sierra.Cache.Name
import Sierra.Invoke
import Sierra.Llvm.Emit
import Sierra.Shell

/-!
# Compiled programs in files

A cache that keeps artifacts in a directory, each with its LLVM code. An artifact made for the same
key and options is used again; one that is stale or unreadable is compiled again.
-/

namespace Sierra

structure StoredCache where
  dir : String
  writesCode : Bool := true
  loaded : List (String × Executable) := []
  failed : List (String × Failure) := []
  compilations : Nat := 0

namespace StoredCache

def artifactExtension : String := ".sna"

def codeExtension : String := ".ll"

def pathOf (c : StoredCache) (key extension : String) : String :=
  Path.join c.dir (Cache.fileName key ++ extension)

def lookup (c : StoredCache) (key : String) : Option (Except Failure Executable) :=
  match c.failed.lookup key with
  | some failure => some (.error failure)
  | none => (c.loaded.lookup key).map .ok

/-- Whether a compilation mends a failure to load. -/
def isMendable (failure : Failure) : Bool :=
  [Kind.libraryLoad, .serialization, .link].contains failure.kind

/-- The executable in a file made for the key and the options. -/
def accept (path key fingerprint : String) (bytes : Bytes) : Except Failure (Option Executable) :=
  match (Artifact.decode bytes).mapError (Failure.wrapWith ("load " ++ path)) >>=
      Executable.load with
  | .ok x =>
    .ok (if x.artifact.key = key ∧ x.artifact.options = fingerprint then some x else none)
  | .error failure => if isMendable failure then .ok none else .error failure

def remember (c : StoredCache) (key : String) : Except Failure Executable → StoredCache
  | .ok x => { c with loaded := (key, x) :: c.loaded }
  | .error failure =>
    if failure.isCancelled then c else { c with failed := (key, failure) :: c.failed }

variable {m : Type → Type} [Monad m] [Shell m]

def openDir (dir : String) : m (Except Failure StoredCache) := do
  match ← Shell.makeDirectory dir with
  | .ok () => return .ok { dir := dir }
  | .error fault => return .error fault.failure.wrap

def load (c : StoredCache) (key fingerprint : String) : m (Except Failure (Option Executable)) := do
  let path := c.pathOf key artifactExtension
  match ← Shell.readFile path with
  | .ok bytes => return accept path key fingerprint bytes
  | .error fault =>
    return if fault.reason = .missing then .ok none else .error fault.failure.wrap

def save (path : String) (content : Bytes) : ExceptT Failure m Unit := do
  match ← Shell.writeFile path content with
  | .ok () => pure ()
  | .error fault => throw fault.failure.wrap

/-- The artifact is written first. -/
def store (c : StoredCache) (key : String) (outcome : Except Failure Artifact) :
    ExceptT Failure m Executable := do
  let artifact ← ExceptT.mk (pure outcome)
  let artifact := { artifact with key := key }
  let x ← ExceptT.mk (pure (Executable.load artifact))
  save (c.pathOf key artifactExtension) artifact.encode
  if c.writesCode then
    let unit ← ExceptT.mk (pure (Llvm.emitModule (artifact.module.getD default)))
    save (c.pathOf key codeExtension) (Bytes.ofString unit.text)
  return x

def fetch (c : StoredCache) (key fingerprint : String)
    (compile : Unit → Except Failure Artifact) : m (Except Failure Executable × StoredCache) := do
  match ← c.load key fingerprint with
  | .ok (some x) => return (.ok x, c)
  | .error failure => return (.error failure, c)
  | .ok none => return (← c.store key (compile ()), { c with compilations := c.compilations + 1 })

def get (c : StoredCache) (cancelled : Bool) (key fingerprint : String)
    (compile : Unit → Except Failure Artifact) : m (Except Failure Executable × StoredCache) := do
  match c.lookup key with
  | some known => return (known, c)
  | none =>
    if cancelled then return (.error .cancelled, c)
    else
      let (outcome, c) ← c.fetch key fingerprint compile
      return (outcome, c.remember key outcome)

def removeAll (dir : String) : List String → ExceptT Failure m Unit
  | [] => pure ()
  | name :: rest => do
    if [artifactExtension, codeExtension].contains (Path.extension name) then
      let path := Path.join dir name
      match ← Shell.removeFile path with
      | .ok () => pure ()
      | .error fault => if fault.reason ≠ .missing then throw fault.failure.wrap
    removeAll dir rest

def clear (c : StoredCache) : m (Except Failure Unit × StoredCache) := do
  match ← Shell.filesIn c.dir with
  | .error fault => return (.error fault.failure.wrap, c)
  | .ok names =>
    match ← removeAll c.dir names with
    | .error failure => return (.error failure, c)
    | .ok () => return (.ok (), { c with loaded := [], failed := [] })

end StoredCache

end Sierra
