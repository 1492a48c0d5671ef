import Sierra.Ir.Replace

/-!
# Constant folding

Integer operations on constants become constants, decided choices the chosen value, and decided
branches jumps, until nothing changes. At an operation without the operands or the result its code
needs the pass stops, and what it has folded stays.
-/

namespace Sierra.Ir.Fold

/-- Constants, replaced values and the count of folded places. -/
structure Known where
  consts : Std.HashMap ValueId Nat := {}
  replaced : Replacements := {}
  folded : Nat := 0

namespace Known

def const? (k : Known) (v : ValueId) : Option Nat := k.consts[k.replaced.find v]?

end Known

inductive Progress where
  | same
  | changed
  | stuck
deriving DecidableEq, Repr

namespace Progress

def both : Progress → Progress → Progress
  | same, p => p
  | _, stuck => stuck
  | p, _ => p

end Progress

def imageOf (type : Ty) (z : Nat) : Bytes := Bytes.ofNat type.storeSize.toNat z

def wordOf (imm : Bytes) : Nat := Bytes.toNat (imm.take 32)

def toConst (k : Known) (op : Op) (z : Nat) : Known × Op × Progress :=
  let folded : Op :=
    { code := .const, results := op.results, type := op.type, imm := imageOf op.type z }
  match op.results with
  | [] => (k, folded, .stuck)
  | result :: _ =>
    ({ k with consts := k.consts.insert result z, folded := k.folded + 1 }, folded, .changed)

def noteConst (k : Known) (op : Op) : Known × Op × Progress :=
  match op.results with
  | [] => (k, op, .stuck)
  | result :: _ =>
    if (k.consts[result]?).isNone && op.type.isInt then
      ({ k with consts := k.consts.insert result (wordOf op.imm) }, op, .same)
    else (k, op, .same)

def foldSelect (k : Known) (op : Op) : Known × Op × Progress :=
  match op.args.head?.map k.const? with
  | none => (k, op, .stuck)
  | some none => (k, op, .same)
  | some (some z) =>
    match op.args, op.results with
    | _ :: yes :: no :: _, result :: _ =>
      let pick := if z ≠ 0 then yes else no
      if k.replaced.find result ≠ k.replaced.find pick then
        ({ k with replaced := k.replaced.set result pick }, op, .changed)
      else (k, op, .same)
    | _, _ => (k, op, .stuck)

def foldOp (f : Func) (k : Known) (op : Op) : Known × Op × Progress :=
  match op.code with
  | .const => noteConst k op
  | .select => foldSelect k op
  | code =>
    if !op.type.isInt then (k, op, .same)
    else
      match code, op.args with
      | .binary code, x :: y :: _ =>
        match k.const? x, k.const? y with
        | some x, some y =>
          match Word.binary code op.type.width x y with
          | some z => toConst k op z
          | none => (k, op, .same)
        | _, _ => (k, op, .same)
      | .icmp, x :: y :: _ =>
        let t := f.typeOf x
        match t.isInt, k.const? x, k.const? y with
        | true, some x, some y => toConst k op (if evalPred op.pred t.width x y then 1 else 0)
        | _, _, _ => (k, op, .same)
      | .cast .bitcast, _ => (k, op, .same)
      | .cast code, x :: _ =>
        let t := f.typeOf x
        match t.isInt, k.const? x with
        | true, some z => toConst k op (Word.cast code t.width op.type.width z)
        | _, _ => (k, op, .same)
      | .binary _, _ | .icmp, _ | .cast _, _ => (k, op, .stuck)
      | _, _ => (k, op, .same)

/-- Up to an operation that is stuck. -/
def foldOps (f : Func) : Known → List Op → Known × List Op × Progress
  | k, [] => (k, [], .same)
  | k, op :: rest =>
    match foldOp f k op with
    | (k, op, .stuck) => (k, op :: rest, .stuck)
    | (k, op, p) =>
      let (k, rest, q) := foldOps f k rest
      (k, op :: rest, p.both q)

def foldBlocks (f : Func) : Known → List Block → Known × List Block × Progress
  | k, [] => (k, [], .same)
  | k, b :: rest =>
    match foldOps f k b.ops with
    | (k, ops, .stuck) => (k, { b with ops := ops } :: rest, .stuck)
    | (k, ops, p) =>
      let (k, rest, q) := foldBlocks f k rest
      (k, { b with ops := ops } :: rest, p.both q)

/-- Whether it went through comes back. Every changing round folds an operation or replaces a value
for good, so one round more than there are operations is enough. -/
def rounds (f : Func) : (fuel : Nat) → Known → List Block → Known × List Block × Bool
  | 0, k, blocks => (k, blocks, true)
  | fuel + 1, k, blocks =>
    match foldBlocks f k blocks with
    | (k, blocks, .changed) => rounds f fuel k blocks
    | (k, blocks, .same) => (k, blocks, true)
    | (k, blocks, .stuck) => (k, blocks, false)

def jump? (consts : Std.HashMap ValueId Nat) : Terminator → Option Edge
  | .condBr cond yes no =>
    match consts[cond]? with
    | some c => some (if c ≠ 0 then yes else no)
    | none => none
  | .switch value cases default _ =>
    match consts[value]? with
    | some c =>
      if c < pow2 64 then some (((cases.find? fun case => case.1 == c).map (·.2)).getD default)
      else none
    | none => none
  | _ => none

def foldBranch (consts : Std.HashMap ValueId Nat) (state : Nat × Array Block) (b : Block) :
    Nat × Array Block :=
  match jump? consts b.term with
  | some edge => (state.1 + 1, state.2.push { b with term := .br edge })
  | none => (state.1, state.2.push b)

end Fold

def Func.opCount (f : Func) : Nat := f.blocks.toList.foldl (fun n b => n + b.ops.length) 0

def Func.fold (f : Func) : Passed :=
  match Fold.rounds f (f.opCount + 1) {} f.blocks.toList with
  | (_, blocks, false) => .stuck { f with blocks := blocks.toArray }
  | (known, blocks, true) =>
    let f := known.replaced.apply { f with blocks := blocks.toArray }
    let (folded, blocks) := f.blocks.foldl (Fold.foldBranch known.consts) (known.folded, #[])
    .done { f with blocks := blocks } folded

end Sierra.Ir
