import Sierra.Hash.Sha256

/-!
# Names of cached files

A key that cannot stand as a file name has its foreign characters replaced and a piece of its digest
put behind.
-/

namespace Sierra.Cache

def isNameChar (c : Char) : Bool :=
  ('a' ≤ c && c ≤ 'z') || ('A' ≤ c && c ≤ 'Z') || ('0' ≤ c && c ≤ '9') ||
    c = '-' || c = '_' || c = '.'

def isPlainKey (key : List Char) : Bool := !key.isEmpty && key.head? ≠ some '.' && key.all isNameChar

def digestMark (key : String) : String :=
  Bytes.hex ((Sha256.digest (Bytes.ofString key)).take 6)

def fileName (key : String) : String :=
  if isPlainKey key.toList then key
  else
    let safe := key.toList.map fun c => if isNameChar c then c else '_'
    String.ofList (safe.dropWhile (· = '.')) ++ "-" ++ digestMark key

end Sierra.Cache
