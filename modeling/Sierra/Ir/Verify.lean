import Sierra.Ir.Module

/-!
# The rules of well-formed code

Blocks are closed and stand at their own numbers, jumps go to blocks and pass values of the right
types, every value is defined once, and defined if it is read, and operations have operands of the
types they work on. The rules do not ask that a definition comes before its uses, nor how many
results an operation has.
-/

namespace Sierra.Ir

inductive OpProblem where
  | constImage (got : Nat) (type : Ty)
  | operandCount (code : Code) (want got : Nat)
  | binaryTypes (code : Code) (x y : Ty)
  | modularTypes (code : Code)
  | icmpTypes (x y : Ty)
  | selectTypes (c x y : Ty)
  | widening (code : Code) (source target : Ty)
  | narrowing (source target : Ty)
  | bitcastSize (source target : Ty)
  | extractRange (type : Ty) (offset : Int) (source : Ty)
  | insertRange (type : Ty) (offset : Int) (target : Ty)
  | notPointer (code : Code) (type : Ty)
  | unknownFunction (name : String)
  | undeclaredRuntime (name : String)
  | callCounts (callee : String) (args results wantArgs wantResults : Nat)
  | callArg (callee : String) (index : Nat) (got want : Ty)
  | callResult (callee : String) (index : Nat) (got want : Ty)
deriving DecidableEq, Repr

namespace OpProblem

def message : OpProblem → String
  | constImage got type =>
    s!"const image is {got} bytes, {type.text} needs {type.storeSize}"
  | operandCount code want got => s!"{code.name} takes {want} operands, got {got}"
  | binaryTypes code x y => s!"{code.name} operand types {x.text}, {y.text}"
  | modularTypes code => s!"{code.name} operand types differ"
  | icmpTypes x y => s!"icmp operand types {x.text}, {y.text}"
  | selectTypes c x y => s!"select operand types {c.text}, {x.text}, {y.text}"
  | widening code source target => s!"{code.name} from {source.text} to {target.text}"
  | narrowing source target => s!"trunc from {source.text} to {target.text}"
  | bitcastSize source target => s!"bitcast from {source.text} to {target.text} changes size"
  | extractRange type offset source => s!"extract {type.text} at {offset} from {source.text}"
  | insertRange type offset target => s!"insert {type.text} at {offset} into {target.text}"
  | notPointer code type => s!"{code.name} through {type.text}"
  | unknownFunction name => s!"call to unknown function {name}"
  | undeclaredRuntime name => s!"call to undeclared runtime function {name}"
  | callCounts callee args results wantArgs wantResults =>
    s!"call {callee}: {args} args/{results} results, want {wantArgs}/{wantResults}"
  | callArg callee index got want => s!"call {callee}: arg {index} is {got.text}, want {want.text}"
  | callResult callee index got want =>
    s!"call {callee}: result {index} is {got.text}, want {want.text}"

end OpProblem

inductive Problem where
  | missingEntry (block : BlockId)
  | entryParamCount (got want : Nat)
  | entryParamType (index : Nat) (got want : Ty)
  | valueRange (block : BlockId) (value : ValueId)
  | definedTwice (block : BlockId) (value : ValueId)
  | misplaced (index : Nat) (block : BlockId)
  | undefinedOperand (block : BlockId) (code : Code) (value : ValueId)
  | operation (block : BlockId) (problem : OpProblem)
  | unterminated (block : BlockId)
  | undefinedUse (block : BlockId) (value : ValueId)
  | missingTarget (block target : BlockId)
  | edgeArgCount (block target : BlockId) (got want : Nat)
  | edgeArgType (block target : BlockId) (index : Nat) (got want : Ty)
  | condition (block : BlockId) (got : Ty)
  | selector (block : BlockId)
  | returnCount (block : BlockId) (got want : Nat)
  | returnType (block : BlockId) (index : Nat) (got want : Ty)
deriving DecidableEq, Repr

namespace Problem

def message : Problem → String
  | missingEntry block => s!"missing entry block bb{block}"
  | entryParamCount got want => s!"entry block has {got} params, function has {want}"
  | entryParamType index got want => s!"entry param {index} type {got.text}, want {want.text}"
  | valueRange block value => s!"bb{block}: value %{value} out of range"
  | definedTwice block value => s!"bb{block}: value %{value} defined twice"
  | misplaced index block => s!"block at index {index} has id bb{block}"
  | undefinedOperand block code value =>
    s!"bb{block}: {code.name} uses undefined value %{value}"
  | operation block problem => s!"bb{block}: " ++ problem.message
  | unterminated block => s!"bb{block} is not terminated"
  | undefinedUse block value => s!"bb{block}: terminator uses undefined value %{value}"
  | missingTarget block target => s!"bb{block}: jump to missing block bb{target}"
  | edgeArgCount block target got want =>
    s!"bb{block}: jump to bb{target} passes {got} args, want {want}"
  | edgeArgType block target index got want =>
    s!"bb{block}: jump to bb{target} arg {index} has type {got.text}, want {want.text}"
  | condition block got => s!"bb{block}: condition is {got.text}, want i1"
  | selector block => s!"bb{block}: switch on non-integer"
  | returnCount block got want => s!"bb{block}: returns {got} values, want {want}"
  | returnType block index got want =>
    s!"bb{block}: result {index} has type {got.text}, want {want.text}"

end Problem

def typeMismatches (got want : List Ty) : List (Nat × Ty × Ty) :=
  ((got.zip want).zipIdx.filter fun entry => entry.1.1 ≠ entry.1.2).map fun entry =>
    (entry.2, entry.1.1, entry.1.2)

def signatureProblem? (f : Func) (op : Op) (params results : List Ty) : Option OpProblem :=
  if op.args.length ≠ params.length ∨ op.results.length ≠ results.length then
    some (.callCounts op.callee op.args.length op.results.length params.length results.length)
  else
    match typeMismatches (op.args.map f.typeOf) params with
    | (index, got, want) :: _ => some (.callArg op.callee index got want)
    | [] =>
      match typeMismatches (op.results.map f.typeOf) results with
      | (index, got, want) :: _ => some (.callResult op.callee index got want)
      | [] => none

def argType (f : Func) (op : Op) (index : Nat) : Ty :=
  match op.args[index]? with
  | some v => f.typeOf v
  | none => .none

def opProblem? (m : Module) (f : Func) (op : Op) : Option OpProblem :=
  let t := argType f op
  let counted (want : Nat) (rest : Option OpProblem) : Option OpProblem :=
    if op.args.length ≠ want then some (.operandCount op.code want op.args.length) else rest
  let require (ok : Bool) (problem : OpProblem) : Option OpProblem :=
    if ok then none else some problem
  match op.code with
  | .const => require (decide ((op.imm.length : Int) = op.type.storeSize)) (.constImage op.imm.length op.type)
  | .binary _ =>
    counted 2 (require ((t 0).isInt && t 0 == t 1 && op.type == t 0)
      (.binaryTypes op.code (t 0) (t 1)))
  | .modular _ =>
    counted 3 (require ((t 0).isInt && t 0 == t 1 && t 1 == t 2) (.modularTypes op.code))
  | .icmp => counted 2 (require (t 0 == t 1 && !(t 0).isBlob) (.icmpTypes (t 0) (t 1)))
  | .select =>
    counted 3 (require (t 0 == .int 1 && t 1 == t 2) (.selectTypes (t 0) (t 1) (t 2)))
  | .cast .zext | .cast .sext =>
    require ((t 0).isInt && op.type.isInt && decide ((t 0).bits ≤ op.type.bits))
      (.widening op.code (t 0) op.type)
  | .cast .trunc =>
    require ((t 0).isInt && op.type.isInt && decide (op.type.bits ≤ (t 0).bits))
      (.narrowing (t 0) op.type)
  | .cast .bitcast =>
    require ((t 0).storeSize == op.type.storeSize) (.bitcastSize (t 0) op.type)
  | .extract =>
    require ((t 0).isBlob && decide (0 ≤ op.offset) &&
        decide (wrap64 (op.offset + op.type.storeSize) ≤ (t 0).blobSize))
      (.extractRange op.type op.offset (t 0))
  | .insert =>
    counted 2 (require ((t 0).isBlob && decide (0 ≤ op.offset) &&
        decide (wrap64 (op.offset + (t 1).storeSize) ≤ (t 0).blobSize))
      (.insertRange (t 1) op.offset (t 0)))
  | .load | .ptradd | .realloc | .store | .memcpy =>
    require (t 0).isPtr (.notPointer op.code (t 0))
  | .call =>
    match m.func? op.callee with
    | none => some (.unknownFunction op.callee)
    | some callee => signatureProblem? f op callee.params callee.results
  | .runtimeCall =>
    match m.runtime? op.callee with
    | none => some (.undeclaredRuntime op.callee)
    | some decl => signatureProblem? f op decl.params decl.results
  | .invalid | .zero | .alloc => none

def Func.definitions (f : Func) : List (BlockId × ValueId) :=
  f.blocks.toList.flatMap fun b =>
    (b.params ++ b.ops.flatMap (·.results)).map fun v => (b.id, v)

/-- Marks, and the problems so far, last first. -/
def noteDefinition (state : Array Bool × List Problem) (definition : BlockId × ValueId) :
    Array Bool × List Problem :=
  let (marks, problems) := state
  let (block, v) := definition
  if v < 0 ∨ marks.size ≤ v.toNat then (marks, .valueRange block v :: problems)
  else if marks[v.toNat]? = some true then (marks, .definedTwice block v :: problems)
  else (marks.setIfInBounds v.toNat true, problems)

def Func.marks (f : Func) : Array Bool × List Problem :=
  let (marks, problems) :=
    f.definitions.foldl noteDefinition (Array.replicate f.values.size false, [])
  (marks, problems.reverse)

def isMarked (marks : Array Bool) (v : ValueId) : Bool :=
  decide (0 ≤ v) && (marks[v.toNat]?).getD false

def edgeProblems (f : Func) (block : BlockId) (e : Edge) : List Problem :=
  match f.block? e.target with
  | none => [.missingTarget block e.target]
  | some target =>
    if e.args.length ≠ target.params.length then
      [.edgeArgCount block e.target e.args.length target.params.length]
    else
      (typeMismatches (e.args.map f.typeOf) (target.params.map f.typeOf)).map
        fun (index, got, want) => .edgeArgType block e.target index got want

def termProblems (f : Func) (block : BlockId) (t : Terminator) : List Problem :=
  match t with
  | .condBr cond _ _ =>
    if f.typeOf cond ≠ .int 1 then [.condition block (f.typeOf cond)] else []
  | .switch value _ _ _ => if (f.typeOf value).isInt then [] else [.selector block]
  | .ret values =>
    if values.length ≠ f.results.length then
      [.returnCount block values.length f.results.length]
    else
      (typeMismatches (values.map f.typeOf) f.results).map
        fun (index, got, want) => .returnType block index got want
  | _ => []

def opProblems (m : Module) (f : Func) (marks : Array Bool) (block : BlockId) (op : Op) :
    List Problem :=
  ((op.args.filter fun v => !isMarked marks v).map (.undefinedOperand block op.code)) ++
    (opProblem? m f op).toList.map (.operation block)

def blockProblems (m : Module) (f : Func) (marks : Array Bool) (b : Block) (index : Nat) :
    List Problem :=
  (if b.id ≠ index then [.misplaced index b.id] else []) ++
  b.ops.flatMap (opProblems m f marks b.id) ++
  (if b.term.isClosed then
    ((b.term.uses.filter fun v => !isMarked marks v).map (.undefinedUse b.id)) ++
      b.term.edges.flatMap (edgeProblems f b.id) ++ termProblems f b.id b.term
  else [.unterminated b.id])

def entryProblems (f : Func) (entry : Block) : List Problem :=
  (if entry.params.length ≠ f.params.length then
    [.entryParamCount entry.params.length f.params.length] else []) ++
  (typeMismatches (entry.params.map f.typeOf) f.params).map
    fun (index, got, want) => .entryParamType index got want

def funcProblems (m : Module) (f : Func) : List Problem :=
  match f.block? f.entry with
  | none => [.missingEntry f.entry]
  | some entry =>
    let (marks, definitions) := f.marks
    entryProblems f entry ++ definitions ++
      f.blocks.toList.zipIdx.flatMap fun (b, index) => blockProblems m f marks b index

def Module.problems (m : Module) : List (String × List Problem) :=
  (m.funcs.map fun f => (f.name, funcProblems m f)).filter fun entry => !entry.2.isEmpty

def Module.isVerified (m : Module) : Bool := m.problems.isEmpty

def Module.verify (m : Module) : Except Failure Unit :=
  if m.isVerified then .ok ()
  else .error (.joined (m.problems.map fun (name, problems) =>
    .under s!"function {name}" (some (.joined (problems.map fun p => .plain p.message)))))

end Sierra.Ir
