import Sierra.Ir.Module
import Sierra.Machine.Image

/-!
# Code under construction

Functions are written one operation at a time at a cursor; while one is written another may be
opened. `Build` is the language of such writers: it may fail, and keeps what had been written.
-/

namespace Sierra.Ir

structure Draft where
  funcs : Array Func := #[]
  slot : Nat := 0
  block : BlockId := 0
  runtime : List RuntimeDecl := []
  clones : List (Nat × String) := []
  prints : Bool := false
  checks : List (Int × Nat) := []
deriving Inhabited

namespace Draft

def func (d : Draft) : Func := (d.funcs[d.slot]?).getD default

def modifyFunc (d : Draft) (f : Func → Func) : Draft := { d with funcs := d.funcs.modify d.slot f }

def modifyBlock (d : Draft) (f : Block → Block) : Draft :=
  let at_ := d.block.toNat
  d.modifyFunc fun func => { func with blocks := func.blocks.modify at_ f }

def isClosed (d : Draft) : Bool := (d.func.block? d.block).any (·.term.isClosed)

def toModule (d : Draft) (name : String) : Module :=
  { name := name, funcs := d.funcs.toList, runtime := d.runtime }

end Draft

abbrev Build := EStateM Failure Draft

namespace Build

def lift {α : Type} : Except Failure α → Build α
  | .ok a => pure a
  | .error e => throw e

def fresh (t : Ty) : Build ValueId := do
  let d ← get
  let v : ValueId := d.func.values.size
  set (d.modifyFunc fun f => { f with values := f.values.push t })
  return v

def freshAll : List Ty → Build (List ValueId)
  | [] => return []
  | t :: rest => do
    let v ← fresh t
    return v :: (← freshAll rest)

def typeOf (v : ValueId) : Build Ty := do return (← get).func.typeOf v

def emit (op : Op) : Build Unit :=
  modify fun d => d.modifyBlock fun b => { b with ops := b.ops ++ [op] }

def single (code : Code) (t : Ty) (args : List ValueId) : Build ValueId := do
  let v ← fresh t
  emit { code := code, results := [v], args := args, type := t }
  return v

/-- Negative numbers are written in two's complement. -/
def const (t : Ty) (n : Int) : Build ValueId := do
  let v ← fresh t
  emit { code := .const, results := [v], type := t, imm := Machine.Image.ofInt t.storeSize n }
  return v

def zero (t : Ty) : Build ValueId := single .zero t []

def binary (op : Word.Binary) (x y : ValueId) : Build ValueId := do
  single (.binary op) (← typeOf x) [x, y]

def add (x y : ValueId) : Build ValueId := binary .add x y

def sub (x y : ValueId) : Build ValueId := binary .sub x y

def mul (x y : ValueId) : Build ValueId := binary .mul x y

def modular (op : Word.Modular) (x y m : ValueId) : Build ValueId := do
  single (.modular op) (← typeOf x) [x, y, m]

def icmp (p : Word.Pred) (x y : ValueId) : Build ValueId := do
  let v ← fresh (.int 1)
  emit { code := .icmp, results := [v], args := [x, y], type := .int 1, pred := some p }
  return v

def select (c x y : ValueId) : Build ValueId := do single .select (← typeOf x) [c, x, y]

/-- Nothing is written when the type is the same. -/
def cast (op : Word.Cast) (x : ValueId) (t : Ty) : Build ValueId := do
  if (← typeOf x) = t then return x
  single (.cast op) t [x]

def zext (x : ValueId) (t : Ty) : Build ValueId := cast .zext x t

def sext (x : ValueId) (t : Ty) : Build ValueId := cast .sext x t

def trunc (x : ValueId) (t : Ty) : Build ValueId := cast .trunc x t

def extract (whole : ValueId) (offset : Int) (t : Ty) : Build ValueId := do
  let v ← fresh t
  emit { code := .extract, results := [v], args := [whole], type := t, offset := offset }
  return v

def insert (whole part : ValueId) (offset : Int) : Build ValueId := do
  let t ← typeOf whole
  let v ← fresh t
  emit { code := .insert, results := [v], args := [whole, part], type := t, offset := offset }
  return v

def alloc (size : ValueId) : Build ValueId := single .alloc .ptr [size]

def realloc (p oldSize newSize : ValueId) : Build ValueId :=
  single .realloc .ptr [p, oldSize, newSize]

def load (p : ValueId) (t : Ty) : Build ValueId := single .load t [p]

def store (p v : ValueId) : Build Unit := emit { code := .store, args := [p, v] }

def memcpy (dst src n : ValueId) : Build Unit := emit { code := .memcpy, args := [dst, src, n] }

def ptradd (p offset : ValueId) : Build ValueId := single .ptradd .ptr [p, offset]

def call (callee : String) (results : List Ty) (args : List ValueId) : Build (List ValueId) := do
  let outs ← freshAll results
  emit { code := .call, results := outs, args := args, callee := callee }
  return outs

def callHost (decl : RuntimeDecl) (args : List ValueId) : Build (List ValueId) := do
  modify fun d =>
    if d.runtime.any fun known => known.name == decl.name then d
    else { d with runtime := d.runtime ++ [decl] }
  let outs ← freshAll decl.results
  emit { code := .runtimeCall, results := outs, args := args, callee := decl.name }
  return outs

def newBlock (params : List Ty := []) : Build BlockId := do
  let id : BlockId := (← get).func.blocks.size
  let values ← freshAll params
  modify fun d => d.modifyFunc fun f =>
    { f with blocks := f.blocks.push { id := id, params := values } }
  return id

def paramsOf (id : BlockId) : Build (List ValueId) := do
  return ((← get).func.block? id).elim [] (·.params)

def moveTo (id : BlockId) : Build Unit := modify fun d => { d with block := id }

def close (t : Terminator) : Build Unit := modify fun d => d.modifyBlock fun b => { b with term := t }

def br (target : BlockId) (args : List ValueId := []) : Build Unit := close (.br ⟨target, args⟩)

def condBr (cond : ValueId) (yes no : Edge) : Build Unit := close (.condBr cond yes no)

/-- The last edge is taken by default. -/
def switch (value : ValueId) (edges : List Edge) : Build Unit :=
  match edges.getLast? with
  | none => pure ()
  | some last => close (.switch value (edges.dropLast.zipIdx.map fun (e, i) => (i, e)) last true)

def ret (values : List ValueId) : Build Unit := close (.ret values)

def trap (code : TrapCode) (message : String) : Build Unit := close (.trap code message)

/-- A second function of one name is refused. -/
def addFunc (name : String) (params results : List Ty) (isPublic : Bool) : Build Nat := do
  let d ← get
  if d.funcs.any fun f => f.name == name then
    throw (.plain s!"function {name} already defined")
  set { d with
    funcs := d.funcs.push
      { name := name, params := params, results := results, isPublic := isPublic } }
  return d.funcs.size

/-- The cursor then goes back to where it was. -/
def inFunc (slot : Nat) (body : Build Unit) : Build Unit := do
  let before ← get
  set { before with slot := slot, block := 0 }
  let _ ← newBlock (← get).func.params
  body
  modify fun d => { d with slot := before.slot, block := before.block }

end Build

end Sierra.Ir
