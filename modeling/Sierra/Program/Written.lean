import Sierra.Program.Token

/-!
# The written form of programs

The grammar of program text, read from tokens. An alternative that fails within its first three
tokens is undone and the next is tried.
-/

namespace Sierra.Written

inductive Base where
  | numeric (digits : String)
  | path (parts : List String)
deriving DecidableEq, Repr

mutual

inductive Name where
  | mk (place : Place) (base : Base) (args : List Arg)

inductive Arg where
  | userType (name : Name)
  | userFunc (name : Name)
  | value (digits : String)
  | type (name : Name)

end

instance : Inhabited Name := ⟨.mk {} (.path []) []⟩

/-- Without a target it goes to the next statement. -/
structure Branch where
  target : Option String
  vars : List String

inductive Line where
  | type (name generic : Name)
  | libfunc (name generic : Name)
  | ret (place : Place) (vars : List String)
  | func (place : Place) (head : Name) (entry : String) (params : List (String × Name))
      (rets : List Name)
  | invoke (place : Place) (head : Name) (args : List String) (branches : List Branch)

/-! ## Reading -/

abbrev Reader (α : Type) := Sierra.Reader TokenKind α

def lookahead : Nat := 3

/-- The first reader that neither misses nor fails early. -/
def oneOf {α : Type} (ps : List (Reader α)) : Reader α := Reader.oneOf lookahead false ps

def optional {α : Type} (absent : α) (p : Reader α) : Reader α := Reader.optional lookahead absent p

def many {α : Type} (p : Reader α) : (fuel : Nat) → Reader (List α) := Reader.many lookahead p

def commas {α : Type} (p : Reader α) : Reader (List α) := Reader.commas lookahead p

open Sierra.Reader (map word kind place andThen before after)

mutual

/-- `fuel` bounds the depth of generic arguments. -/
def name : (fuel : Nat) → Reader Name
  | 0, _ => .fail 0
  | fuel + 1, tokens =>
    andThen
      (oneOf [
        map Base.numeric (after (word "[") (before (kind .int) (word "]"))),
        andThen (kind .ident) fun first rest =>
          map (fun more => Base.path (first :: more))
            (many (after (word "::") (kind .ident)) rest.length) rest])
      (fun base => map (Name.mk (place tokens) base)
        (optional [] (after (word "<") (before (commas (arg fuel)) (word ">")))))
      tokens

def arg : (fuel : Nat) → Reader Arg
  | 0, _ => .fail 0
  | fuel + 1, tokens =>
    oneOf [
      map Arg.userType (after (after (word "ut") (word "@")) (name fuel)),
      map Arg.userFunc (after (after (word "user") (word "@")) (name fuel)),
      map Arg.value (kind .int),
      map Arg.type (name fuel)] tokens

end

def anyName : Reader Name := fun tokens => name (2 * tokens.length + 1) tokens

def varRef : Reader String := after (word "[") (before (kind .int) (word "]"))

def parens {α : Type} (p : Reader α) : Reader (List α) :=
  after (word "(") (before (optional [] (commas p)) (word ")"))

def varList : Reader (List String) := parens varRef

def attributes : Reader Unit :=
  optional () (map (fun _ => ())
    (after (word "[") (before
      (commas (after (before (kind .ident) (word ":")) (kind .ident))) (word "]"))))

def typeLine : Reader Line :=
  andThen (after (word "type") (before anyName (word "="))) fun head =>
    before (map (Line.type head) (before anyName attributes)) (word ";")

def libfuncLine : Reader Line :=
  andThen (after (word "libfunc") (before anyName (word "="))) fun head =>
    map (Line.libfunc head) (before anyName (word ";"))

def returnLine : Reader Line := fun tokens =>
  map (Line.ret (place tokens)) (after (word "return") (before varList (word ";"))) tokens

def funcTail (start : Place) (head : Name) : Reader Line :=
  andThen (after (word "@") (kind .int)) fun entry =>
    andThen (parens (andThen (before varRef (word ":")) fun v => map (Prod.mk v) anyName))
      fun params =>
        map (Line.func start head entry params) (after (word "->") (parens anyName))

def branch : Reader Branch :=
  andThen (oneOf [map (fun _ => none) (word "fallthrough"), map some (kind .int)])
    fun target => map (Branch.mk target) varList

def invokeTail (start : Place) (head : Name) : Reader Line :=
  andThen varList fun args =>
    map (Line.invoke start head args) (oneOf [
      map (fun vars => [Branch.mk none vars]) (after (word "->") varList),
      after (word "\x7b") (before (fun tokens => many branch tokens.length tokens) (word "\x7d"))])

def entryLine : Reader Line := fun tokens =>
  andThen anyName (fun head =>
    before (oneOf [funcTail (place tokens) head, invokeTail (place tokens) head])
      (word ";")) tokens

def line : Reader Line := oneOf [typeLine, libfuncLine, returnLine, entryLine]

def lines (tokens : List (Token TokenKind)) : Option (List Line) :=
  match many line tokens.length tokens with
  | .ok lines _ [] => some lines
  | _ => none

/-! ## Spelling -/

def Base.text : Base → String
  | .numeric digits => "[" ++ digits ++ "]"
  | .path parts => Text.join "::" parts

def Name.base : Name → Base
  | .mk _ base _ => base

def Name.args : Name → List Arg
  | .mk _ _ args => args

def Name.start : Name → Place
  | .mk place _ _ => place

mutual

def Name.text : Name → String
  | .mk _ base args =>
    base.text ++ (match args with
      | [] => ""
      | first :: rest => "<" ++ first.text ++ argsText rest ++ ">")

def Arg.text : Arg → String
  | .userType name => "ut@" ++ name.text
  | .userFunc name => "user@" ++ name.text
  | .value digits => digits
  | .type name => name.text

def argsText : List Arg → String
  | [] => ""
  | arg :: rest => ", " ++ arg.text ++ argsText rest

end

end Sierra.Written
