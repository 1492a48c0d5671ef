import Sierra.Build
import Sierra.View.Program

/-!
# Views of a project

Its configuration, its caches and its builds.
-/

namespace Sierra

open View (entry)

instance : View Config := ⟨fun c =>
  let passes := c.options.level.passes
  .object [entry "opt" c.options.level.name, entry "index" c.options.level.index,
    entry "disabled" c.options.gas.disabled, entry "dynamic" c.options.gas.dynamic,
    entry "costs" c.options.gas.costs,
    ("cache", .array [.string c.cacheKind.name, .string c.cacheDir, .number c.cacheCapacity]),
    entry "trace" (c.traceLevel, c.traceOutput),
    entry "fingerprint" c.options.fingerprint,
    entry "passes" [passes.flow, passes.deadCode, passes.fold], entry "path" c.path]⟩

def Cache.viewEntries (files : List String) : Cache → List (String × Text.Json)
  | .memory c => [entry "live" c.live.length, entry "spilled" c.spilled.length]
  | .stored _ => [entry "files" files]

def Executable.viewEntries (x : Executable) : List (String × Text.Json) :=
  [entry "key" x.artifact.key, entry "options" x.artifact.options, entry "hash" x.artifact.hash]

def Build.Output.viewEntries (o : Build.Output) : List (String × Text.Json) :=
  [entry "file" o.file, entry "key" o.key, entry "llvm" o.codePath,
    entry "executor" o.executable.isSome]

def Build.Result.viewEntries (b : Build.Result) : List (String × Text.Json) :=
  let timed := Build.Phase.all.filter fun p => (b.times.lookup p).isSome
  [entry "events" (b.events.map (·.text)), entry "failed" (Build.failures b.outputs).isSome,
    entry "timed" (timed.map (·.name))]

def Metadata.viewClone (m : Metadata) (id : Nat) : Text.Json :=
  view (m.clones.map fun known => Text.Json.object [entry "name" ((known.lookup id).getD ""),
    entry "ok" (known.lookup id).isSome, entry "len" known.length])

end Sierra
