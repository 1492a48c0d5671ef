import Sierra.Gas.Report
import Sierra.View

/-!
# Views of programs

Programs as they were read, their settled declarations, the statement graphs of their
functions and the results of the gas analysis.
-/

namespace Sierra

open View (decimal entry entry?)

/-! ## Statements and declarations -/

instance : View GenericArg := ⟨fun
  | .type id => view ("type", id)
  | .value n => view ("value", n.map decimal)
  | .userType id => view ("ut", id)
  | .userFunc id => view ("user", id)
  | .libfunc id | .other _ id => view ("libfunc", id)⟩

instance : View Declaration := ⟨fun d =>
  .object [entry "id" d.id, entry "generic" d.generic, entry "args" d.args]⟩

def viewVars (vs : List Nat) : Text.Json := view (vs.map decimal)

instance : View Target := ⟨fun
  | .next => view "fallthrough"
  | .statement i => view i⟩

instance : View Branch := ⟨fun b =>
  .object [entry "to" b.target, ("results", viewVars b.results)]⟩

instance : View Statement := ⟨fun
  | .ret vs => .object [("return", viewVars vs)]
  | .invoke c =>
    .object [entry "libfunc" c.libfunc, ("args", viewVars c.args), entry "branches" c.branches]⟩

instance : View Function := ⟨fun f => .object [entry "id" f.id, entry "symbol" f.id.symbol,
  entry "params" (f.params.map fun p => (decimal p.var, p.type)),
  entry "sig" (f.paramTypes, f.retTypes), entry "entry" f.entry]⟩

def Program.entries (p : Program) : List (String × Text.Json) :=
  [entry "types" p.types, entry "libfuncs" p.libfuncs, entry "statements" p.statements.toList,
    entry "funcs" p.funcs]

def Program.viewFound (p : Program) (names : List String) : Text.Json :=
  view (names.map fun name =>
    (p.find? name).map fun f => (f.id, (p.statement? f.entry).isSome))

def Program.viewArgs (p : Program) : Text.Json :=
  let all := (p.types ++ p.libfuncs).flatMap (·.args)
  .object [entry "texts" (all.map (·.text)), entry "first" (all.map fun a => all.findIdx a.same)]

/-! ## Settled declarations -/

instance : View Layout := ⟨fun l => .object [entry "size" l.size, entry "align" l.align,
  entry "offsets" l.offsets, entry "tag_size" l.tagSize, entry "payload_offset" l.payloadOffset,
  entry "variants" l.variants, entry "stride" l.stride]⟩

instance : View ApChange := ⟨fun
  | .known n => view n
  | .unknown => view "unknown"
  | .callee => view "callee"⟩

def TypeInfo.viewAs (id : TypeId) (i : TypeInfo) : Text.Json :=
  .object ([entry "id" id, entry "kind" i.kind.name, entry "generic" i.generic,
    entry "bits" i.bits, entry "lo" (i.lo.map decimal), entry "hi" (i.hi.map decimal),
    entry "members" i.members, entry "storable" i.storable, entry "droppable" i.droppable,
    entry "duplicatable" i.duplicatable, entry "zero_sized" i.zeroSized,
    entry "needs_clone" i.needsClone, entry "integer_like" i.isIntegerLike,
    entry "signed" i.isSigned, entry "layout" i.layout, entry "target" i.register.text] ++
    (if i.kind.hasInner then [entry "inner" i.inner] else []) ++
    (if i.kind.isUserType then [entry "user_type" i.userType] else []))

def Libfunc.viewAs (id : LibfuncId) (f : Libfunc) : Text.Json :=
  .object ([entry "id" id, entry "generic" f.generic, entry "class" f.role.number,
    entry "checkpoint" f.role.isCheckpoint, entry "params" f.params,
    entry "branches" (f.branches.map fun b =>
      Text.Json.object [entry "vars" b.vars, entry "ap" b.ap]),
    entry "fallthrough" f.fallthrough] ++ entry? "callee" f.role.callee?)

instance : View Settled := ⟨fun s => .object [entry "order" s.types.order,
  entry "types" (s.types.entries.map fun (id, i) => i.viewAs id),
  entry "libfuncs" (s.libfuncs.map fun (id, f) => f.viewAs id)]⟩

/-! ## Graphs -/

instance : View Graph := ⟨fun g =>
  let rows (g : Graph) : Text.Json := view ((List.range g.size).map g.next)
  .object [entry "order" g.layers.order, entry "batches" g.layers.batches,
    entry "cyclic" g.layers.cyclic, entry "cycles" g.layers.cycles, ("successors", rows g),
    ("reverse", rows g.reverse)]⟩

def Vars.view (vs : Vars) : Text.Json := Sierra.view (vs.map fun (v, t) => (decimal v, t))

instance : View Flow.Edge := ⟨fun e =>
  .object [entry "to" e.target, ("results", viewVars e.results), entry "types" e.types]⟩

instance : View Flow := ⟨fun g => .object [entry "func" g.function.id.symbol,
  entry "nodes" (g.order.map fun n =>
    Text.Json.object [entry "idx" n.index, entry "return" n.isReturn, ("state", n.state.view),
      ("remaining", n.remaining.view), entry "preds" (g.predsOf n.index),
      entry "edges" n.edges])]⟩

/-! ## Gas -/

instance : View Gas.Cost := ⟨fun c => view c.toList⟩

namespace Gas.Analysis

def amounts {α : Type} [ToString α] (values : Array (Option α)) : Text.Json :=
  view ((listed values).map fun (i, v) => (i, decimal v))

def viewFunction (a : Analysis) (f : Function) : Text.Json :=
  let own := (a.func? f.id).getD default
  let worst := a.worstCase f.id
  .object [entry "func" f.id.symbol, entry "statements" own.statements,
    ("entry", decimal (toAmount own.entry)), ("worst", decimal (worst.getD 0)),
    entry "bounded" worst.isSome, entry "ap" own.ap, ("required", decimal (a.requiredGas f.id))]

def viewFor (a : Analysis) (p : Program) : Text.Json :=
  let reports := a.reports p
  .object [entry "uses_gas" a.usesGas, entry "weights" a.weights,
    entry "costs" (listed a.costs), ("need", amounts a.need), ("charges", amounts a.charges),
    ("injected", amounts a.injected), ("refunds", amounts a.refunds),
    entry "reports" (reports.map (·.text)), entry "pretty" (Report.table reports),
    entry "funcs" (p.funcs.map a.viewFunction)]

end Gas.Analysis

end Sierra
