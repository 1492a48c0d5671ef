import Sierra.Shell

/-!
# Trees of files

A path is followed part by part from the root or the working directory, and every part but the last
has to name a directory. Slashes behind the last part ask for a directory.
-/

namespace Sierra

/-- In ascending order of whole paths. -/
structure FileTree where
  here : String
  files : List (String × Bytes) := []
  directories : List String := []
deriving Inhabited

namespace FileTree

def sink : String := "/dev/null"

def maxPart : Nat := 255

def maxPath : Nat := 4095

def isWithin (t : FileTree) (path : String) : Bool :=
  path = t.here || path.startsWith (t.here ++ "/")

/-- A path below the working directory is whole already. -/
def whole (t : FileTree) (path : String) : String :=
  if Path.isRooted path || t.isWithin path then Path.clean path else Path.join t.here path

def isAbove (upper lower : String) : Bool := lower.startsWith (upper ++ "/")

def kindAt (t : FileTree) (whole : String) : Option FileKind :=
  if whole = sink ∨ (t.files.lookup whole).isSome then some .file
  else if ["/", ".", t.here].contains whole ∨ t.directories.contains whole ∨
      (t.files.map (·.1) ++ t.directories ++ [t.here, sink]).any (isAbove whole) then
    some .directory
  else none

/-! ## Following paths -/

structure Place where
  whole : String
  /-- `none` if nothing is there, in a directory that is. -/
  kind : Option FileKind
  /-- Whether slashes stand behind the last part. -/
  slashed : Bool

def follow (t : FileTree) (dir : String) : List (List Char) → Except DiskReason Place
  | [] => .ok ⟨dir, some .directory, false⟩
  | part :: rest =>
    if part = [] ∨ part = ['.'] then follow t dir rest
    else if part = ['.', '.'] then follow t (Path.parent dir) rest
    else if maxPart < (String.ofList part).utf8ByteSize then .error .longName
    else
      let next := Path.join dir (String.ofList part)
      let kind := t.kindAt next
      if rest.all List.isEmpty then .ok ⟨next, kind, !rest.isEmpty⟩
      else
        match kind with
        | some .directory => follow t next rest
        | some .file => .error .notDirectory
        | none => .error .missing

def locate (t : FileTree) (path : String) : Except DiskReason Place :=
  let parts := Path.splitAt '/' path.toList
  if path.toList.contains '\x00' then .error .badName
  else if path = "" then .error .missing
  else if maxPath < path.utf8ByteSize then .error .longName
  else if Path.isRooted path then t.follow "/" parts
  else if t.isWithin path then t.follow t.here (parts.drop (Path.splitAt '/' t.here.toList).length)
  else t.follow t.here parts

def find (t : FileTree) (path : String) : Except DiskReason (String × FileKind) :=
  match t.locate path with
  | .error reason => .error reason
  | .ok ⟨_, none, _⟩ => .error .missing
  | .ok ⟨_, some .file, true⟩ => .error .notDirectory
  | .ok ⟨whole, some kind, _⟩ => .ok (whole, kind)

def findSpot (t : FileTree) (path : String) : Except DiskReason String :=
  match t.locate path with
  | .error reason => .error reason
  | .ok ⟨_, some .directory, _⟩ | .ok ⟨_, _, true⟩ => .error .isDirectory
  | .ok ⟨whole, _, false⟩ => .ok whole

/-! ## Using files -/

def insertFile (path : String) (content : Bytes) : List (String × Bytes) → List (String × Bytes)
  | [] => [(path, content)]
  | (other, old) :: rest =>
    if path = other then (path, content) :: rest
    else if path < other then (path, content) :: (other, old) :: rest
    else (other, old) :: insertFile path content rest

def put (t : FileTree) (path : String) (content : Bytes) : FileTree :=
  { t with files := insertFile (t.whole path) content t.files }

def kindOf (t : FileTree) (path : String) : Except DiskFault FileKind :=
  ((t.find path).map Prod.snd).mapError (⟨"stat", path, ·⟩)

def read (t : FileTree) (path : String) : Except DiskFault Bytes :=
  match t.find path with
  | .error reason => .error ⟨"open", path, reason⟩
  | .ok (_, .directory) => .error ⟨"read", path, .isDirectory⟩
  | .ok (whole, .file) => .ok ((t.files.lookup whole).getD [])

def update (t : FileTree) (path : String) (change : Bytes → Bytes) : Except DiskFault FileTree :=
  match t.findSpot path with
  | .error reason => .error ⟨"open", path, reason⟩
  | .ok whole =>
    if whole = sink then .ok t
    else
      let content := change ((t.files.lookup whole).getD [])
      .ok { t with files := insertFile whole content t.files }

def ensureDirectory (t : FileTree) (path : String) : Except DiskFault FileTree :=
  match t.find path with
  | .ok (_, .directory) => .ok t
  | .ok (_, .file) => .error ⟨"mkdir", path, .notDirectory⟩
  | .error _ =>
    match t.locate path with
    | .error reason => .error ⟨"mkdir", path, reason⟩
    | .ok ⟨_, some _, _⟩ => .error ⟨"mkdir", path, .present⟩
    | .ok ⟨whole, none, _⟩ => .ok { t with directories := t.directories ++ [whole] }

def makeDirectory (t : FileTree) (path : String) : Except DiskFault FileTree :=
  (Path.beginnings path).foldlM ensureDirectory t

def filesIn (t : FileTree) (path : String) : Except DiskFault (List String) :=
  match t.find path with
  | .error reason => .error ⟨"open", path, reason⟩
  | .ok (_, .file) => .error ⟨"open", path, .notDirectory⟩
  | .ok (whole, .directory) =>
    .ok ((t.files.filter fun f => Path.parent f.1 = whole).map fun f => Path.base f.1)

def remove (t : FileTree) (path : String) : Except DiskFault FileTree :=
  match t.find path with
  | .error reason => .error ⟨"remove", path, reason⟩
  | .ok (_, .directory) => .error ⟨"remove", path, .isDirectory⟩
  | .ok (whole, .file) => .ok { t with files := t.files.filter fun f => f.1 ≠ whole }

def listing (t : FileTree) : List String :=
  (t.files.filter fun f => isAbove t.here f.1).map fun f =>
    String.ofList (f.1.toList.drop (t.here.length + 1))

end FileTree

end Sierra
