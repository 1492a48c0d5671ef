import Sierra.Ir.Type

/-!
# Operations and terminators

A block is a list of operations closed by a terminator, which passes values to the parameters of
other blocks. Values are numbers; unchecked code may hold ones that no definition could have.
-/

namespace Sierra.Ir

abbrev ValueId := Int

abbrev BlockId := Int

inductive Code where
  | invalid
  | const
  | zero
  | binary (op : Word.Binary)
  | modular (op : Word.Modular)
  | icmp
  | select
  | cast (op : Word.Cast)
  | extract
  | insert
  | alloc
  | realloc
  | load
  | store
  | memcpy
  | ptradd
  | call
  | runtimeCall
deriving DecidableEq, Repr, Inhabited

namespace Code

def all : List Code :=
  [invalid, const, zero,
    binary .add, binary .sub, binary .mul, binary .udiv, binary .urem, binary .sdiv, binary .srem,
    binary .and, binary .or, binary .xor, binary .shl, binary .lshr, binary .ashr,
    modular .addmod, modular .submod, modular .mulmod,
    icmp, select, cast .zext, cast .sext, cast .trunc, cast .bitcast,
    extract, insert, alloc, realloc, load, store, memcpy, ptradd, call, runtimeCall]

def name : Code → String
  | invalid => "invalid"
  | const => "const"
  | zero => "zero"
  | binary .add => "add"
  | binary .sub => "sub"
  | binary .mul => "mul"
  | binary .udiv => "udiv"
  | binary .urem => "urem"
  | binary .sdiv => "sdiv"
  | binary .srem => "srem"
  | binary .and => "and"
  | binary .or => "or"
  | binary .xor => "xor"
  | binary .shl => "shl"
  | binary .lshr => "lshr"
  | binary .ashr => "ashr"
  | modular .addmod => "addmod"
  | modular .submod => "submod"
  | modular .mulmod => "mulmod"
  | icmp => "icmp"
  | select => "select"
  | cast .zext => "zext"
  | cast .sext => "sext"
  | cast .trunc => "trunc"
  | cast .bitcast => "bitcast"
  | extract => "extract"
  | insert => "insert"
  | alloc => "alloc"
  | realloc => "realloc"
  | load => "load"
  | store => "store"
  | memcpy => "memcpy"
  | ptradd => "ptradd"
  | call => "call"
  | runtimeCall => "call.runtime"

def ofName? (text : String) : Option Code := all.find? fun c => c.name == text

def number (c : Code) : Nat := all.idxOf c

def ofNumber (n : Nat) : Code := (all[n]?).getD invalid

def hasSideEffects : Code → Bool
  | store | memcpy | call | runtimeCall => true
  | _ => false

/-- `none` for a zero divisor and for other codes. -/
def evalBinary (c : Code) (bits x y : Nat) : Option Nat :=
  match c with
  | binary op => Word.binary op bits x y
  | _ => none

/-- `none` for a zero modulus and for other codes. -/
def evalModular (c : Code) (bits x y m : Nat) : Option Nat :=
  match c with
  | modular op => Word.modular op bits x y m
  | _ => none

/-- Other codes only cut to the new width. -/
def evalCast (c : Code) (fromBits toBits x : Nat) : Nat :=
  match c with
  | cast op => Word.cast op fromBits toBits x
  | _ => Word.mask toBits x

end Code

/-- Their numbers start at one. -/
def predicates : List Word.Pred :=
  [.eq, .ne, .ult, .ule, .ugt, .uge, .slt, .sle, .sgt, .sge]

def predName : Word.Pred → String
  | .eq => "eq"
  | .ne => "ne"
  | .ult => "ult"
  | .ule => "ule"
  | .ugt => "ugt"
  | .uge => "uge"
  | .slt => "slt"
  | .sle => "sle"
  | .sgt => "sgt"
  | .sge => "sge"

def predOfName? (text : String) : Option Word.Pred := predicates.find? fun p => predName p == text

/-- No comparison is zero. -/
def predNumber : Option Word.Pred → Nat
  | none => 0
  | some p => predicates.idxOf p + 1

def predOfNumber (n : Nat) : Option Word.Pred := if n = 0 then none else predicates[n - 1]?

/-- Without a comparison the answer is no. -/
def evalPred (p : Option Word.Pred) (bits x y : Nat) : Bool :=
  match p with
  | some p => Word.compare p bits x y
  | none => false

structure Op where
  code : Code
  results : List ValueId := []
  args : List ValueId := []
  type : Ty := .none
  imm : Bytes := []
  pred : Option Word.Pred := none
  offset : Int := 0
  callee : String := ""
deriving DecidableEq, Repr, Inhabited

inductive TrapCode where
  | unreachable
  | outOfGas
  | assert
  | unlisted (number : Nat)
deriving DecidableEq, Repr, Inhabited

namespace TrapCode

def ofNumber : Nat → TrapCode
  | 1 => unreachable
  | 2 => outOfGas
  | 3 => assert
  | n => unlisted n

def number : TrapCode → Nat
  | unreachable => 1
  | outOfGas => 2
  | assert => 3
  | unlisted n => n

def name : TrapCode → String
  | unreachable => "unreachable"
  | outOfGas => "out-of-gas"
  | assert => "assert"
  | unlisted _ => "trap?"

end TrapCode

structure Edge where
  target : BlockId
  args : List ValueId := []
deriving DecidableEq, Repr, Inhabited

/-- A switch without cases may or may not be `listed`: its image then holds an empty list of cases
or none. -/
inductive Terminator where
  | none
  | br (edge : Edge)
  | condBr (cond : ValueId) (yes no : Edge)
  | switch (value : ValueId) (cases : List (Nat × Edge)) (default : Edge) (listed : Bool)
  | ret (values : List ValueId)
  | trap (code : TrapCode) (message : String)
deriving DecidableEq, Repr, Inhabited

namespace Terminator

def edges : Terminator → List Edge
  | br edge => [edge]
  | condBr _ yes no => [yes, no]
  | switch _ cases default _ => cases.map (·.2) ++ [default]
  | _ => []

/-- The selector or the returned values, then what edges pass. -/
def uses (t : Terminator) : List ValueId :=
  (match t with
    | condBr cond _ _ => [cond]
    | switch value _ _ _ => [value]
    | ret values => values
    | _ => []) ++ t.edges.flatMap (·.args)

def mapEdges (f : Edge → Edge) : Terminator → Terminator
  | br edge => br (f edge)
  | condBr cond yes no => condBr cond (f yes) (f no)
  | switch value cases default listed =>
    switch value (cases.map fun case => (case.1, f case.2)) (f default) listed
  | t => t

def mapUses (f : ValueId → ValueId) (t : Terminator) : Terminator :=
  let onEdge := fun (e : Edge) => { e with args := e.args.map f }
  match t with
  | condBr cond yes no => condBr (f cond) (onEdge yes) (onEdge no)
  | switch value cases default listed =>
    switch (f value) (cases.map fun case => (case.1, onEdge case.2)) (onEdge default) listed
  | ret values => ret (values.map f)
  | br edge => br (onEdge edge)
  | t => t

def isClosed : Terminator → Bool
  | none => false
  | _ => true

end Terminator

end Sierra.Ir
