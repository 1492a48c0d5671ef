import Sierra.Text.Search

/-!
# Paths

Names of files with slashes between their parts. A path is put into its shortest form
by rules on its text alone; the files it names are not looked at.
-/

namespace Sierra.Path

def splitAt (mark : Char) : List Char → List (List Char)
  | [] => [[]]
  | c :: rest =>
    if c = mark then [] :: splitAt mark rest
    else
      match splitAt mark rest with
      | [] => [[c]]
      | part :: parts => (c :: part) :: parts

def isRooted (path : String) : Bool := path.startsWith "/"

/-- A double dot takes the last part back. -/
def step (rooted : Bool) (done : List (List Char)) (part : List Char) : List (List Char) :=
  if part = [] ∨ part = ['.'] then done
  else if part = ['.', '.'] then
    match done with
    | [] => if rooted then [] else [part]
    | last :: rest => if last = ['.', '.'] then part :: done else rest
  else part :: done

def clean (path : String) : String :=
  let rooted := isRooted path
  let parts := ((splitAt '/' path.toList).foldl (step rooted) []).reverse
  let text := Text.join "/" (parts.map String.ofList)
  if rooted then "/" ++ text else if text = "" then "." else text

/-- Empty paths do not count. -/
def join (dir name : String) : String :=
  if dir = "" then (if name = "" then "" else clean name) else clean (dir ++ "/" ++ name)

/-- From the shortest on, ending with the path itself. -/
def beginnings (path : String) : List String :=
  let parts := splitAt '/' path.toList
  let ends := (List.range parts.length).filter fun i => parts[i]? ≠ some []
  let texts := ends.map fun i => Text.join "/" ((parts.take (i + 1)).map String.ofList)
  texts.dropLast ++ [path]

def base (path : String) : String :=
  if path = "" then "."
  else
    let trimmed := (path.toList.reverse.dropWhile (· = '/')).takeWhile (· ≠ '/')
    if trimmed = [] then "/" else String.ofList trimmed.reverse

def parent (path : String) : String :=
  clean (String.ofList (path.toList.reverse.dropWhile (· ≠ '/')).reverse)

def extension (path : String) : String :=
  let last := path.toList.reverse.takeWhile (· ≠ '/')
  let after := last.takeWhile (· ≠ '.')
  if after.length = last.length then "" else String.ofList ('.' :: after.reverse)

def stem (path : String) : String :=
  let name := base path
  String.ofList (name.toList.take (name.length - (extension name).length))

end Sierra.Path
