import Sierra.Cache.Memory
import Sierra.Cache.Stored
import Sierra.Config

/-!
# Caches of compiled programs

A cache keeps compiled programs in memory or in files, and is asked in the same way.
-/

namespace Sierra

inductive Cache where
  | memory (c : MemoryCache)
  | stored (c : StoredCache)

namespace Cache

def compilations : Cache → Nat
  | memory c => c.compilations
  | stored c => c.compilations

variable {m : Type → Type} [Monad m] [Shell m]

def ofKind (config : Config) : CacheKind → m (Except Failure Cache)
  | .jit => return .ok (memory (MemoryCache.new config.cacheCapacity))
  | .aot => return (← StoredCache.openDir config.cacheDir).map stored

def get (c : Cache) (cancelled : Bool) (key : String) (p : Program) (options : CompileOptions)
    (name : String := "") : m (Except Failure Executable × Cache) := do
  let compile (_ : Unit) : Except Failure Artifact := p.artifact options name
  match c with
  | memory c =>
    let (outcome, c) := c.get cancelled key compile
    return (outcome, memory c)
  | stored c =>
    let (outcome, c) ← c.get cancelled key options.fingerprint compile
    return (outcome, stored c)

end Cache

end Sierra
