import Sierra.Invoke
import Sierra.View

/-!
# Views of compiled programs and their runs

Artifacts, descriptors, values, outcomes, what the chain has recorded, and trace events.
-/

namespace Sierra

open View (decimal entry)

/-! ## Values -/

def NumberSort.key : NumberSort → String
  | .felt => "felt"
  | .uint => "uint"
  | .sint => "sint"
  | .bounded => "bounded"
  | .builtin => "builtin"

def PointSort.key : PointSort → String
  | .ec => "ec"
  | .secp => "secp"

def Value.toJson : Value → Text.Json
  | .invalid => .object [("invalid", .bool true)]
  | .number sort n => .object [(sort.key, view (n.map decimal))]
  | .struct fields => .object [("struct", .array (all fields))]
  | .array items => .object [("array", .array (all items))]
  | .enum tag payload => .object [("enum", .array [view tag, orNull payload])]
  | .box inner => .object [("box", orNull inner)]
  | .nullable inner => .object [("nullable", orNull inner)]
  | .point sort cs => .object [(sort.key, view (cs.map decimal))]
  | .uninit => .object [("uninit", .bool true)]
where
  all : List Value → List Text.Json
    | [] => []
    | v :: rest => v.toJson :: all rest
  orNull : Option Value → Text.Json
    | none => .null
    | some v => v.toJson
termination_by structural v => v

instance : View Value := ⟨Value.toJson⟩

def Value.shown (v : Value) : Text.Json := .object [entry "value" v, entry "text" v.text]

def Value.viewWide (halves : Nat × Nat) : Text.Json :=
  let n := halves.1 + halves.2 * pow2 128
  .object [("low", decimal halves.1), ("high", decimal halves.2), ("value", decimal n),
    entry "hex" (Value.wideBytes n)]

def Value.viewPoint (p : Int × Int) : Text.Json :=
  .object [("x", decimal p.1), ("y", decimal p.2), entry "hex" (Value.pointBytes p)]

instance : View Machine.Trap := ⟨fun t => .object [entry "code" t.code.name,
  entry "msg" t.message, entry "func" t.function, entry "backtrace" t.backtrace,
  entry "out_of_gas" t.isOutOfGas]⟩

instance : View Value.Span := ⟨fun s => .object [("ptr", decimal s.pointer),
  entry "len" s.length, entry "cap" s.capacity, entry "hex" s.bytes]⟩

/-! ## Artifacts -/

def Program.viewImage (p : Program) : Text.Json :=
  let same := match Program.decode p.encode with
    | .ok q => q.contentHash == p.contentHash
    | .error _ => false
  .object [entry "hex" p.encode, entry "hash" p.contentHash, entry "roundtrip" same]

def viewNumbers (ns : List Nat) : Text.Json := view (ns.map decimal)

instance : View Descriptor := ⟨fun d => .object [("id", decimal d.id),
  entry "kind" d.shape.number, entry "name" d.name, entry "bits" d.bits, entry "size" d.size,
  entry "align" d.align, entry "lo" (d.range.map fun r => decimal r.1),
  entry "hi" (d.range.map fun r => decimal r.2), ("members", viewNumbers d.members),
  entry "offsets" d.offsets, ("elem", decimal d.elem), entry "stride" d.stride,
  entry "tag_size" d.tagSize, entry "payload_offset" d.payloadOffset,
  entry "generic" d.generic]⟩

instance : View Descriptors := ⟨fun ds => view (ds.entries.map fun (id, d) => (decimal id, d))⟩

instance : View EntryPoint := ⟨fun e => .object [entry "name" e.name,
  ("id", decimal e.function), ("params", viewNumbers e.params),
  ("returns", viewNumbers e.returns), ("required", decimal e.required),
  ("worst", decimal e.worst), entry "unbounded" e.isUnbounded]⟩

def Artifact.viewEntries (a : Artifact) : List (String × Text.Json) :=
  [View.entry "hash" a.hash, View.entry "options" a.options, View.entry "entries" a.entries,
    View.entry "types" a.types]

/-! ## Runs -/

instance : View ChainEvent := ⟨fun e => .object [entry "keys" e.keys, entry "data" e.data]⟩

instance : View ChainMessage := ⟨fun m =>
  .object [entry "to" m.recipient, entry "payload" m.payload]⟩

def Chain.viewAt (c : Chain) (addresses : List Felt) : Text.Json :=
  .object [entry "events" c.events, entry "messages" c.messages,
    entry "storage" (addresses.map c.stored?)]

def Outcome.viewWith (o : Outcome) (printed : String) : Text.Json :=
  .object ([entry "remaining" (o.remaining.map decimal), ("consumed", decimal o.consumed),
    entry "value" o.value, entry "text" o.value.text, entry "failed" o.failed,
    ("stats", .object (o.counters.map fun (name, n) => (name, decimal n)))] ++
    (if o.failed then [entry "panic" o.panicData, entry "message" o.message] else []) ++
    (if printed = "" then [] else [entry "debug" printed]))

instance : View ContractOutcome := ⟨fun o => .object [("remaining", decimal o.remaining),
  entry "failed" o.failed, entry "values" o.values, entry "message" o.message,
  entry "events" o.events]⟩

/-! ## Traces -/

instance : View Trace.Event := ⟨fun e => .array ([view e.kind.name, view e.scope.name,
  view e.span, view e.parent, view e.name, view e.detail] ++
  e.extra.map fun (key, value) => view (key ++ "=" ++ value))⟩

end Sierra
