import Sierra.Failure
import Sierra.Hash.Blake2b
import Sierra.Packed.Codec
import Sierra.Packed.Parse
import Sierra.Program.Basic

/-!
# Stored programs

The packed image of a program and its digest. A generic argument writes all its alternatives, those
not used with zeros; an integer is written in decimal.
-/

namespace Sierra

open Packed (Codec Fault)

def Ident.codec : Codec Ident :=
  .record ⟨0, ""⟩ [
    .of "id" .uint64 (·.number) fun id n => { id with number := n },
    .opt "name" .text (·.name) fun id name => { id with name := name }]

/-- All alternatives at once. -/
structure StoredArg where
  kind : Nat := 0
  type : TypeId := ⟨0, ""⟩
  value : String := ""
  userType : UserTypeId := ⟨0, ""⟩
  userFunc : FunctionId := ⟨0, ""⟩
  libfunc : LibfuncId := ⟨0, ""⟩

def StoredArg.codec : Codec StoredArg :=
  .record {} [
    .of "k" .uint8 (·.kind) fun a k => { a with kind := k },
    .of "t" Ident.codec (·.type) fun a id => { a with type := id },
    .opt "v" .text (·.value) fun a text => { a with value := text },
    .of "u" Ident.codec (·.userType) fun a id => { a with userType := id },
    .of "f" Ident.codec (·.userFunc) fun a id => { a with userFunc := id },
    .of "l" Ident.codec (·.libfunc) fun a id => { a with libfunc := id }]

def GenericArg.stored : GenericArg → StoredArg
  | type id => { kind := 1, type := id }
  | value n => { kind := 2, value := (n.map toString).getD "" }
  | userType id => { kind := 3, userType := id }
  | userFunc id => { kind := 4, userFunc := id }
  | libfunc id => { kind := 5, libfunc := id }
  | other kind id => { kind, libfunc := id }

/-- An integer that is no decimal number is refused. -/
def StoredArg.toArg (stored : StoredArg) : Except Fault GenericArg := do
  let value ← if stored.value = "" then pure none
    else match Text.decimal? stored.value with
      | some n => pure (some n)
      | none => throw .malformed
  return match stored.kind with
    | 1 => .type stored.type
    | 2 => .value value
    | 3 => .userType stored.userType
    | 4 => .userFunc stored.userFunc
    | 5 => .libfunc stored.libfunc
    | kind => .other kind stored.libfunc

def GenericArg.codec : Codec GenericArg :=
  ⟨fun a => StoredArg.codec.write a.stored,
    .last (.other 0 ⟨0, ""⟩) fun p => do (← StoredArg.codec.decoder.read p).toArg⟩

def Declaration.codec : Codec Declaration :=
  .record ⟨⟨0, ""⟩, "", []⟩ [
    .of "id" Ident.codec (·.id) fun d id => { d with id := id },
    .of "generic" .text (·.generic) fun d text => { d with generic := text },
    .opt "args" (.list GenericArg.codec) (·.args) fun d args => { d with args := args }]

def varsCodec : Codec (List VarId) := .list .uint64

def Target.codec : Codec Target :=
  .via (.record (false, (0 : Int)) [
      .opt "ft" .bool (·.1) fun t b => (b, t.2),
      .opt "st" .int (·.2) fun t n => (t.1, n)])
    (fun | .next => (true, 0) | .statement index => (false, index))
    fun (isNext, index) => if isNext then .next else .statement index

def Branch.codec : Codec Branch :=
  .record ⟨.statement 0, []⟩ [
    .of "target" Target.codec (·.target) fun b t => { b with target := t },
    .opt "results" varsCodec (·.results) fun b vars => { b with results := vars }]

def Invocation.codec : Codec Invocation :=
  .record ⟨⟨0, ""⟩, [], []⟩ [
    .of "libfunc" Ident.codec (·.libfunc) fun c id => { c with libfunc := id },
    .opt "args" varsCodec (·.args) fun c vars => { c with args := vars },
    .of "branches" Branch.codec.listOrNil (·.branches) fun c bs => { c with branches := bs }]

def Statement.codec : Codec Statement :=
  .via (.record ((0, ⟨⟨0, ""⟩, [], []⟩, []) : Nat × Invocation × List VarId) [
      .of "kind" .uint8 (·.1) fun s k => (k, s.2),
      .of "inv" Invocation.codec (·.2.1) fun s call => (s.1, call, s.2.2),
      .opt "ret" varsCodec (·.2.2) fun s vars => (s.1, s.2.1, vars)])
    (fun | .invoke call => (1, call, []) | .ret vars => (2, ⟨⟨0, ""⟩, [], []⟩, vars))
    fun (kind, call, vars) => if kind = 2 then .ret vars else .invoke call

def Param.codec : Codec Param :=
  .record ⟨0, ⟨0, ""⟩⟩ [
    .of "id" .uint64 (·.var) fun q n => { q with var := n },
    .of "ty" Ident.codec (·.type) fun q id => { q with type := id }]

def signatureCodec : Codec (List TypeId × List TypeId) :=
  .record ([], []) [
    .of "params" Ident.codec.listOrNil (·.1) fun s ids => (ids, s.2),
    .of "rets" Ident.codec.listOrNil (·.2) fun s ids => (s.1, ids)]

def Function.codec : Codec Function :=
  .record ⟨⟨0, ""⟩, [], [], [], 0⟩ [
    .of "id" Ident.codec (·.id) fun f id => { f with id := id },
    .of "sig" signatureCodec (fun f => (f.paramTypes, f.retTypes)) fun f sig =>
      { f with paramTypes := sig.1, retTypes := sig.2 },
    .of "params" Param.codec.listOrNil (·.params) fun f ps => { f with params := ps },
    .of "entry" .int (·.entry) fun f n => { f with entry := n }]

def Packed.Fault.failure : Fault → Failure
  | .truncated => .truncated
  | .malformed => .plain "msgpack: malformed image"

namespace Program

def codec : Codec Program :=
  .record {} [
    .of "types" Declaration.codec.listOrNil (·.types) fun p ds => { p with types := ds },
    .of "libfuncs" Declaration.codec.listOrNil (·.libfuncs) fun p ds => { p with libfuncs := ds },
    .of "statements" Statement.codec.listOrNil (·.statements.toList) fun p ss =>
      { p with statements := ss.toArray },
    .of "funcs" Function.codec.listOrNil (·.funcs) fun p fs => { p with funcs := fs }]

def encode (p : Program) : Bytes := (codec.write p).encode

def decode (bytes : Bytes) : Except Failure Program :=
  (codec.decoder.read (Packed.parse bytes)).mapError Packed.Fault.failure

def contentHash (p : Program) : Bytes := Blake2b.digest p.encode

end Program

end Sierra
