import Sierra.Ir.DeadCode
import Sierra.Ir.Flow

/-!
# Optimization

The passes over a module, in the order in which they run on each function: constant
folding, control flow, dead code.
-/

namespace Sierra.Ir

structure Passes where
  flow : Bool := false
  deadCode : Bool := false
  fold : Bool := false
deriving DecidableEq, Repr, Inhabited

/-- The changes are those of the last pass. -/
def Func.optimize (p : Passes) (f : Func) : Passed :=
  (((Passed.done f 0).andThen fun f => if p.fold then f.fold else .done f 0).andThen fun f =>
    if p.flow || p.fold then f.simplify.mergeLinear else .done f 0).andThen fun f =>
      if p.deadCode then f.prune else .done f 0

/-- `false` says that a pass was stuck. -/
def Module.optimize (p : Passes) (m : Module) : Module × Bool :=
  let (m, counts) := m.run (Func.optimize p)
  (m, counts.isSome)

end Sierra.Ir
