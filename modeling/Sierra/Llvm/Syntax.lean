import Sierra.Text.Quoted
import Sierra.Text.Search

/-!
# The LLVM subset

The instructions used, as data, and their textual form. Names are structured, so that which names
and labels occur where is a question about data.
-/

namespace Sierra.Llvm

inductive LTy where
  | int (bits : Nat)
  | ptr
  | bytes (size : Int)
deriving DecidableEq, Repr, Inhabited

inductive Ret where
  | void
  | one (type : LTy)
  | many (types : List LTy)
deriving DecidableEq, Repr, Inhabited

inductive Local where
  | value (id : Int)
  | temp (id : Nat)
  | slot (id : Int)
  | arg (index : Nat)
deriving DecidableEq, Repr, Inhabited

inductive Operand where
  | named (name : Local)
  | int (value : Int)
  | bool (value : Bool)
  | null
  | address (value : Nat)
  | zeros
  | bytes (data : Bytes)
  | undef
  /-- The place of a result that an operation does not have. -/
  | blank
deriving DecidableEq, Repr, Inhabited

inductive Label where
  | block (id : Int)
  | edge (id : Nat)
  | ok (id : Nat)
  | trapAssert
deriving DecidableEq, Repr, Inhabited

inductive Instr where
  | alloca (name : Local) (type : LTy) (align : Int)
  | binary (dst : Operand) (code : String) (type : LTy) (x y : Operand)
  | icmp (dst : Operand) (pred : String) (type : LTy) (x y : Operand)
  | select (dst cond : Operand) (xType : LTy) (x : Operand) (yType : LTy) (y : Operand)
  | convert (dst : Operand) (code : String) (source : LTy) (x : Operand) (target : LTy)
  | load (dst : Operand) (type : LTy) (pointer : Operand) (align : Int)
  | store (type : LTy) (x pointer : Operand) (align : Int)
  | offset (dst base amount : Operand)
  | call (dst : Option Operand) (ret : Ret) (callee : String) (args : List (LTy × Operand))
  | trapCall (code : Nat) (message : Option Nat)
  | extractValue (dst : Operand) (ret : Ret) (aggregate : Operand) (index : Nat)
  | insertValue (dst : Operand) (ret : Ret) (aggregate : Operand) (type : LTy) (x : Operand)
      (index : Nat)
  | retVoid
  | retOne (type : LTy) (x : Operand)
  | retMany (ret : Ret) (x : Operand)
  | br (target : Label)
  | condBr (cond : Operand) (yes no : Label)
  | switch (type : LTy) (x : Operand) (default : Label) (cases : List (Nat × Label))
  | unreachable
deriving DecidableEq, Repr, Inhabited

inductive Line where
  | label (name : Label)
  | instr (code : Instr)
deriving DecidableEq, Repr, Inhabited

structure Definition where
  name : String
  isPublic : Bool
  ret : Ret
  params : List LTy
  allocas : List Instr
  start : List Instr
  body : List Line
deriving DecidableEq, Repr, Inhabited

structure Declaration where
  name : String
  ret : Ret
  params : List LTy
deriving DecidableEq, Repr, Inhabited

structure Unit where
  name : String
  declarations : List Declaration
  definitions : List Definition
  messages : List String
deriving DecidableEq, Repr, Inhabited

/-! ## Text -/

def escapedByte (b : UInt8) : String :=
  "\\" ++ String.ofList ((Text.hexDigits 2 b.toNat).map Char.toUpper)

def bytesText (data : Bytes) : String := "c\"" ++ String.join (data.map escapedByte) ++ "\""

/-- Digits may not stand in front. -/
def isPlain (b : UInt8) (first : Bool) : Bool :=
  let c := Char.ofNat b.toNat
  c = '_' || c = '.' || c = '$' || c = '-' || ('a' ≤ c && c ≤ 'z') || ('A' ≤ c && c ≤ 'Z') ||
    ('0' ≤ c && c ≤ '9' && !first)

def isPlainName : Bytes → Bool
  | [] => false
  | b :: rest => isPlain b true && rest.all (isPlain · false)

def globalName (name : String) : String :=
  let bytes := Bytes.ofString name
  if isPlainName bytes then "@" ++ name
  else
    "@\"" ++ String.join (bytes.map fun b =>
      if b = 0x22 || b = 0x5c || b < 0x20 || 0x7f ≤ b then escapedByte b
      else String.singleton (Char.ofNat b.toNat)) ++ "\""

namespace LTy

def text : LTy → String
  | int bits => s!"i{bits}"
  | ptr => "ptr"
  | bytes size => s!"[{size} x i8]"

end LTy

namespace Ret

def text : Ret → String
  | void => "void"
  | one type => type.text
  | many types => "\x7b " ++ Text.join ", " (types.map LTy.text) ++ " \x7d"

end Ret

namespace Local

def text : Local → String
  | value id => s!"%v{id}"
  | temp id => s!"%t{id}"
  | slot id => s!"%s{id}"
  | arg index => s!"%arg{index}"

end Local

namespace Operand

def text : Operand → String
  | named name => name.text
  | int value => toString value
  | bool value => if value then "true" else "false"
  | null => "null"
  | address value => s!"inttoptr (i64 {value} to ptr)"
  | zeros => "zeroinitializer"
  | bytes data => bytesText data
  | undef => "undef"
  | blank => ""

def typed (type : LTy) (x : Operand) : String := type.text ++ " " ++ x.text

end Operand

namespace Label

def text : Label → String
  | block id => s!"bb{id}"
  | edge id => s!"edge{id}"
  | ok id => s!"ok{id}"
  | trapAssert => "trap.assert"

def target (l : Label) : String := "label %" ++ l.text

end Label

namespace Instr

def text : Instr → String
  | alloca name type align => s!"{name.text} = alloca {type.text}, align {align}"
  | binary dst code type x y => s!"{dst.text} = {code} {type.text} {x.text}, {y.text}"
  | icmp dst pred type x y => s!"{dst.text} = icmp {pred} {type.text} {x.text}, {y.text}"
  | select dst cond xType x yType y =>
    s!"{dst.text} = select i1 {cond.text}, {xType.text} {x.text}, {yType.text} {y.text}"
  | convert dst code source x target =>
    s!"{dst.text} = {code} {source.text} {x.text} to {target.text}"
  | load dst type pointer align =>
    s!"{dst.text} = load {type.text}, ptr {pointer.text}, align {align}"
  | store type x pointer align =>
    s!"store {type.text} {x.text}, ptr {pointer.text}, align {align}"
  | offset dst base amount =>
    s!"{dst.text} = getelementptr i8, ptr {base.text}, i64 {amount.text}"
  | call dst ret callee args =>
    (match dst with
      | some dst => dst.text ++ " = "
      | none => "") ++
    "call " ++ ret.text ++ " " ++ callee ++ "(" ++
      Text.join ", " (args.map fun (type, x) => x.typed type) ++ ")"
  | trapCall code message =>
    s!"call void @rt_trap(i32 {code}, ptr " ++
      (match message with
        | some index => s!"@.msg{index})"
        | none => "null)")
  | extractValue dst ret aggregate index =>
    s!"{dst.text} = extractvalue {ret.text} {aggregate.text}, {index}"
  | insertValue dst ret aggregate type x index =>
    s!"{dst.text} = insertvalue {ret.text} {aggregate.text}, {type.text} {x.text}, {index}"
  | retVoid => "ret void"
  | retOne type x => "ret " ++ x.typed type
  | retMany ret x => s!"ret {ret.text} {x.text}"
  | br target => "br " ++ target.target
  | condBr cond yes no => s!"br i1 {cond.text}, {yes.target}, {no.target}"
  | switch type x default cases =>
    s!"switch {type.text} {x.text}, {default.target} [" ++
      Text.join " " (cases.map fun (value, label) =>
        s!"{type.text} {value}, {label.target}") ++ "]"
  | unreachable => "unreachable"

def line (i : Instr) : String := "  " ++ i.text ++ "\n"

end Instr

namespace Line

def text : Line → String
  | label name => name.text ++ ":\n"
  | instr code => code.line

end Line

namespace Definition

def text (d : Definition) : String :=
  (if d.isPublic then "define " else "define internal ") ++ d.ret.text ++ " " ++
    globalName d.name ++ "(" ++
    Text.join ", " (d.params.zipIdx.map fun (type, index) =>
      (Operand.named (.arg index)).typed type) ++ ") \x7b\nentry:\n" ++
    String.join (d.allocas.map Instr.line) ++ String.join (d.start.map Instr.line) ++
    String.join (d.body.map Line.text) ++ "\x7d\n\n"

end Definition

namespace Declaration

def text (d : Declaration) : String :=
  "declare " ++ d.ret.text ++ " " ++ globalName d.name ++ "(" ++
    Text.join ", " (d.params.map LTy.text) ++ ")\n"

end Declaration

namespace Unit

def messageText (message : String) (index : Nat) : String :=
  let data := Bytes.ofString message ++ [0]
  s!"@.msg{index} = private unnamed_addr constant [{data.length} x i8] " ++
    bytesText data ++ "\n"

def text (u : Unit) : String :=
  "; ModuleID = '" ++ u.name ++ "'\ntarget triple = \"x86_64-linux-gnu\"\n\n" ++
    String.join (u.declarations.map Declaration.text) ++ "\n" ++
    String.join (u.definitions.map Definition.text) ++
    String.join (u.messages.zipIdx.map fun (message, index) => messageText message index)

end Unit

end Sierra.Llvm
