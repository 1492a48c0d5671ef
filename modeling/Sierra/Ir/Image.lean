import Sierra.Ir.Module
import Sierra.Packed.Codec
import Sierra.Packed.Parse

/-!
# Stored modules

Each record is a map keyed by short names, without fields that say nothing. A terminator writes all
its alternatives, those not taken with zeros.
-/

namespace Sierra.Ir

open Packed (Codec Fault)

def Ty.codec : Codec Ty :=
  .via (.record ((0, 0, 0, 0) : Nat × Int × Int × Int) [
      .of "k" .uint8 (·.1) fun t n => (n, t.2),
      .opt "b" .int (·.2.1) fun t n => (t.1, n, t.2.2),
      .opt "s" .int (·.2.2.1) fun t n => (t.1, t.2.1, n, t.2.2.2),
      .opt "a" .int (·.2.2.2) fun t n => (t.1, t.2.1, t.2.2.1, n)])
    (fun
      | .none => (0, 0, 0, 0)
      | .int bits => (1, bits, 0, 0)
      | .ptr => (2, 0, 0, 0)
      | .blob size align => (3, 0, size, align))
    fun (kind, bits, size, align) => match kind with
      | 1 => .int bits
      | 2 => .ptr
      | 3 => .blob size align
      | _ => .none

def valuesCodec : Codec (List ValueId) := .list .int32

def typesCodec : Codec (List Ty) := .list Ty.codec

def Op.codec : Codec Op :=
  .record { code := .invalid } [
    .of "c" (.via .uint8 Code.number Code.ofNumber) (·.code) fun op c => { op with code := c },
    .opt "r" valuesCodec (·.results) fun op vs => { op with results := vs },
    .opt "a" valuesCodec (·.args) fun op vs => { op with args := vs },
    .of "t" Ty.codec (·.type) fun op t => { op with type := t },
    .opt "i" .bytes (·.imm) fun op b => { op with imm := b },
    .opt "p" (.via .uint8 predNumber predOfNumber) (·.pred) fun op p => { op with pred := p },
    .opt "o" .int (·.offset) fun op n => { op with offset := n },
    .opt "f" .text (·.callee) fun op text => { op with callee := text }]

def Edge.absent : Edge := { target := 0 }

def Edge.codec : Codec Edge :=
  .record .absent [
    .of "t" .int32 (·.target) fun e n => { e with target := n },
    .opt "a" valuesCodec (·.args) fun e vs => { e with args := vs }]

/-- All alternatives at once. -/
structure StoredTerm where
  kind : Nat := 0
  jump : Edge := .absent
  cond : ValueId × Edge × Edge := (0, .absent, .absent)
  switch : ValueId × Option (List (Nat × Edge)) × Edge := (0, none, .absent)
  ret : List ValueId := []
  trap : Nat × String := (0, "")

def Terminator.stored : Terminator → StoredTerm
  | .none => {}
  | .br edge => { kind := 1, jump := edge }
  | .condBr cond yes no => { kind := 2, cond := (cond, yes, no) }
  | .switch value cases default listed =>
    { kind := 3
      switch := (value, if listed || !cases.isEmpty then some cases else Option.none, default) }
  | .ret values => { kind := 4, ret := values }
  | .trap code message => { kind := 5, trap := (code.number, message) }

def StoredTerm.toTerminator (t : StoredTerm) : Terminator :=
  match t.kind with
  | 1 => .br t.jump
  | 2 => .condBr t.cond.1 t.cond.2.1 t.cond.2.2
  | 3 => .switch t.switch.1 (t.switch.2.1.getD []) t.switch.2.2 t.switch.2.1.isSome
  | 4 => .ret t.ret
  | 5 => .trap (TrapCode.ofNumber t.trap.1) t.trap.2
  | _ => .none

def caseCodec : Codec (Nat × Edge) :=
  .record (0, .absent) [
    .of "v" .uint64 (·.1) fun c n => (n, c.2),
    .of "e" Edge.codec (·.2) fun c e => (c.1, e)]

def condCodec : Codec (ValueId × Edge × Edge) :=
  .record (0, .absent, .absent) [
    .of "c" .int32 (·.1) fun c n => (n, c.2),
    .of "t" Edge.codec (·.2.1) fun c e => (c.1, e, c.2.2),
    .of "e" Edge.codec (·.2.2) fun c e => (c.1, c.2.1, e)]

def switchCodec : Codec (ValueId × Option (List (Nat × Edge)) × Edge) :=
  .record (0, none, .absent) [
    .of "v" .int32 (·.1) fun c n => (n, c.2),
    .of "c" caseCodec.list.optional (·.2.1) fun c cs => (c.1, cs, c.2.2),
    .of "d" Edge.codec (·.2.2) fun c e => (c.1, c.2.1, e)]

def retCodec : Codec (List ValueId) := .record [] [.of "v" valuesCodec id fun _ vs => vs]

def trapCodec : Codec (Nat × String) :=
  .record (0, "") [
    .of "c" .uint8 (·.1) fun c n => (n, c.2),
    .opt "m" .text (·.2) fun c text => (c.1, text)]

def StoredTerm.codec : Codec StoredTerm :=
  .record {} [
    .of "k" .uint8 (·.kind) fun t n => { t with kind := n },
    .of "br" Edge.codec (·.jump) fun t e => { t with jump := e },
    .of "cbr" condCodec (·.cond) fun t c => { t with cond := c },
    .of "sw" switchCodec (·.switch) fun t c => { t with switch := c },
    .opt "ret" retCodec (·.ret) fun t vs => { t with ret := vs },
    .of "trap" trapCodec (·.trap) fun t c => { t with trap := c }]

def Block.codec : Codec Block :=
  .record { id := 0 } [
    .of "id" .int32 (·.id) fun b n => { b with id := n },
    .opt "params" valuesCodec (·.params) fun b vs => { b with params := vs },
    .opt "ops" Op.codec.list (·.ops) fun b ops => { b with ops := ops },
    .of "term" (.via StoredTerm.codec Terminator.stored StoredTerm.toTerminator) (·.term)
      fun b t => { b with term := t }]

def Func.codec : Codec Func :=
  .record { name := "" } [
    .of "name" .text (·.name) fun f text => { f with name := text },
    .opt "params" typesCodec (·.params) fun f ts => { f with params := ts },
    .opt "results" typesCodec (·.results) fun f ts => { f with results := ts },
    .of "values" Ty.codec.listOrNil (·.values.toList) fun f ts => { f with values := ts.toArray },
    .of "blocks" Block.codec.list.optional
      (fun f => if f.isCleared || !f.blocks.isEmpty then some f.blocks.toList else none) fun f bs =>
        { f with blocks := (bs.getD []).toArray, isCleared := bs.any List.isEmpty },
    .of "entry" .int32 (·.entry) fun f n => { f with entry := n },
    .opt "public" .bool (·.isPublic) fun f b => { f with isPublic := b }]

def RuntimeDecl.codec : Codec RuntimeDecl :=
  .record { name := "" } [
    .of "name" .text (·.name) fun d text => { d with name := text },
    .opt "params" typesCodec (·.params) fun d ts => { d with params := ts },
    .opt "results" typesCodec (·.results) fun d ts => { d with results := ts }]

namespace Module

def codec : Codec Module :=
  .record { name := "" } [
    .of "name" .text (·.name) fun m text => { m with name := text },
    .of "funcs" Func.codec.listOrNil (·.funcs) fun m fs => { m with funcs := fs },
    .opt "runtime" RuntimeDecl.codec.list (·.runtime) fun m ds => { m with runtime := ds }]

def encode (m : Module) : Bytes := (codec.write m).encode

def decode (bytes : Bytes) : Except Fault Module := codec.decoder.read (Packed.parse bytes)

end Module

end Sierra.Ir
