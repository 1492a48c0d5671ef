import Sierra.Artifact
import Sierra.Ir.Image

/-!
# Stored artifacts

The packed image of an artifact. An image of another version and one without code are refused.
-/

namespace Sierra

open Packed (Codec Fault)

def numbersCodec : Codec (List Nat) := .list .uint64

def bitsCodec : Codec Nat := ⟨fun n => .int n, .word 63⟩

def boundCodec : Codec (Option Int) :=
  .via .text (fun n => (n.map toString).getD "") fun text =>
    if text = "" then none else Text.decimal? text

def Shape.codec : Codec Shape := .via .uint8 Shape.number fun n => (Shape.ofNumber? n).getD .invalid

def Descriptor.codec : Codec Descriptor :=
  let zero : Descriptor := { id := 0, shape := .invalid, name := "", size := 0, align := 0 }
  .via (.record ((zero, none, none) : Descriptor × Option Int × Option Int) [
      .of "id" .uint64 (·.1.id) fun s n => ({ s.1 with id := n }, s.2),
      .of "kind" Shape.codec (·.1.shape) fun s k => ({ s.1 with shape := k }, s.2),
      .opt "name" .text (·.1.name) fun s text => ({ s.1 with name := text }, s.2),
      .opt "bits" bitsCodec (·.1.bits) fun s n => ({ s.1 with bits := n }, s.2),
      .of "size" .int (·.1.size) fun s n => ({ s.1 with size := n }, s.2),
      .of "align" .int (·.1.align) fun s n => ({ s.1 with align := n }, s.2),
      .opt "lo" boundCodec (·.2.1) fun s n => (s.1, n, s.2.2),
      .opt "hi" boundCodec (·.2.2) fun s n => (s.1, s.2.1, n),
      .opt "members" numbersCodec (·.1.members) fun s ns => ({ s.1 with members := ns }, s.2),
      .opt "offsets" (.list .int) (·.1.offsets) fun s ns => ({ s.1 with offsets := ns }, s.2),
      .opt "elem" .uint64 (·.1.elem) fun s n => ({ s.1 with elem := n }, s.2),
      .opt "stride" .int (·.1.stride) fun s n => ({ s.1 with stride := n }, s.2),
      .opt "tag_size" .int (·.1.tagSize) fun s n => ({ s.1 with tagSize := n }, s.2),
      .opt "payload_offset" .int (·.1.payloadOffset) fun s n =>
        ({ s.1 with payloadOffset := n }, s.2),
      .opt "generic" .text (·.1.generic) fun s text => ({ s.1 with generic := text }, s.2)])
    (fun d => ({ d with range := none }, d.range.map (·.1), d.range.map (·.2)))
    fun (d, lo, hi) => { d with range := do return (← lo, ← hi) }

namespace Descriptors

def entryOfPacked : Packed → Except Fault (Nat × Descriptor)
  | .array [id, d] => do
    return (← Codec.uint64.decoder.read id, ← Descriptor.codec.decoder.read d)
  | _ => .error .malformed

def entryCodec : Codec (Nat × Descriptor) :=
  ⟨fun (id, d) => .array [.uint64 id, Descriptor.codec.write d], .last default entryOfPacked⟩

def codec : Codec Descriptors := .via entryCodec.list (·.entries) (⟨·⟩)

end Descriptors

def EntryPoint.codec : Codec EntryPoint :=
  .record { name := "" } [
    .of "name" .text (·.name) fun e text => { e with name := text },
    .of "function_id" .uint64 (·.function) fun e n => { e with function := n },
    .opt "params" numbersCodec (·.params) fun e ns => { e with params := ns },
    .opt "returns" numbersCodec (·.returns) fun e ns => { e with returns := ns },
    .of "required_gas" .uint64 (·.required) fun e n => { e with required := n },
    .opt "worst_case" .uint64 (·.worst) fun e n => { e with worst := n },
    .opt "unbounded" .bool (·.isUnbounded) fun e b => { e with isUnbounded := b }]

namespace Artifact

def codec : Codec Artifact :=
  .record { version := 0 } [
    .of "version" .int (·.version) fun a n => { a with version := n },
    .opt "key" .text (·.key) fun a text => { a with key := text },
    .of "hash" .text (·.hash) fun a text => { a with hash := text },
    .of "options" .text (·.options) fun a text => { a with options := text },
    .of "module" Ir.Module.codec.optional (·.module) fun a m => { a with module := m },
    .of "types" Descriptors.codec (·.types) fun a ds => { a with types := ds },
    .of "entries" EntryPoint.codec.listOrNil (·.entries) fun a es => { a with entries := es }]

def encode (a : Artifact) : Bytes := (codec.write a).encode

def decode (bytes : Bytes) : Except Failure Artifact := do
  let a ← (codec.decoder.read (Packed.parse bytes)).mapError fun fault =>
    .report .serialization "decode artifact" (some fault.failure)
  if a.version ≠ currentVersion then
    .error (.report .libraryLoad s!"artifact version {a.version}, want {currentVersion}" none)
  if a.module.isNone then .error (.report .libraryLoad "artifact has no module" none)
  return a

end Artifact

end Sierra
