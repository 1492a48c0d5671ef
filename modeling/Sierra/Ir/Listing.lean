import Sierra.Ir.Fold
import Sierra.Text.Quoted

/-!
# Listings

A readable text of a module: the host functions, then each function with its blocks,
one operation on a line.
-/

namespace Sierra.Ir

def valueText (v : ValueId) : String := s!"%{v}"

def valuesText (values : List ValueId) : String := Text.join ", " (values.map valueText)

def typesText (types : List Ty) : String := Text.join ", " (types.map Ty.text)

def Edge.text (e : Edge) : String := s!"bb{e.target}(" ++ valuesText e.args ++ ")"

def Op.detail (op : Op) : String :=
  match op.code with
  | .icmp => " " ++ (op.pred.map predName).getD ""
  | .call | .runtimeCall => " @" ++ op.callee
  | .extract | .insert => s!" +{op.offset}"
  | _ => ""

def Op.text (op : Op) : String :=
  let results := if op.results.isEmpty then "" else valuesText op.results ++ " = "
  let rest :=
    if op.code = .const then s!" {op.type.text} {Fold.wordOf op.imm}"
    else
      op.detail ++ (if op.type = .none then "" else " " ++ op.type.text) ++
        (if op.args.isEmpty then "" else " " ++ valuesText op.args)
  results ++ op.code.name ++ rest

def Terminator.text : Terminator → String
  | .none => "<unterminated>"
  | .br edge => "br " ++ edge.text
  | .condBr cond yes no => "condbr " ++ valueText cond ++ ", " ++ yes.text ++ ", " ++ no.text
  | .switch value cases default _ =>
    "switch " ++ valueText value ++ " [" ++
      Text.join ", " (cases.map fun (v, e) => s!"{v}: " ++ e.text) ++
      "], default " ++ default.text
  | .ret values => "ret " ++ valuesText values
  | .trap code message =>
    "trap " ++ code.name ++ (if message = "" then "" else " " ++ Text.quote message)

def Block.text (f : Func) (b : Block) : String :=
  let params := b.params.map fun v => valueText v ++ ": " ++ (f.typeOf v).text
  let marker := if b.id = f.entry then " ; entry" else ""
  s!"bb{b.id}(" ++ Text.join ", " params ++ "):" ++ marker ++ "\n" ++
    String.join (b.ops.map fun op => "  " ++ op.text ++ "\n") ++
    "  " ++ b.term.text ++ "\n"

def Func.text (f : Func) : String :=
  (if f.isPublic then "pub func" else "func") ++ " @" ++ f.name ++ "(" ++ typesText f.params ++
    ") -> (" ++ typesText f.results ++ ") \x7b\n" ++
    String.join (f.blocks.toList.map (Block.text f)) ++ "\x7d\n"

def Module.text (m : Module) : String :=
  String.join (m.runtime.map fun d =>
    "declare @" ++ d.name ++ "(" ++ typesText d.params ++ ") -> (" ++ typesText d.results ++ ")\n") ++
  (if m.runtime.isEmpty then "" else "\n") ++
  Text.join "\n" (m.funcs.map Func.text)

end Sierra.Ir
