import Sierra.Gas.Analysis
import Sierra.Text.Grouped

/-!
# Gas reports

What the analysis found for each function, as lines and as a table.
-/

namespace Sierra.Gas

structure Report where
  function : FunctionId
  entry : Nat
  worst : Option Nat
  checkpoints : Nat
  injected : Nat
  ap : ApChange

namespace Report

def apMove? (r : Report) : Option Int :=
  match r.ap with
  | .known n => some n
  | _ => none

def text (r : Report) : String :=
  let worst := r.worst.elim "unbounded" toString
  let ap := r.apMove?.elim "unknown" toString
  r.function.text ++ s!": entry={r.entry} worst=" ++ worst ++
    s!" checkpoints={r.checkpoints} injected={r.injected} ap=" ++ ap

def row (width : Nat) (name entry worst checkpoints injected : String) : String :=
  Text.padRight width name ++ " " ++ Text.padLeft 12 entry ++ " " ++ Text.padLeft 12 worst ++ " " ++
    Text.padLeft 5 checkpoints ++ " " ++ Text.padLeft 5 injected ++ "\n"

/-- The first column is as wide as the longest name has bytes. -/
def table (reports : List Report) : String :=
  let width := reports.foldl (fun w r => max w r.function.symbol.utf8ByteSize) "function".length
  row width "function" "entry" "worst case" "ckpt" "inj" ++
    String.join (reports.map fun r =>
      row width r.function.symbol (Text.grouped r.entry)
        (r.worst.elim "unbounded" Text.grouped) (Text.grouped r.checkpoints)
        (Text.grouped r.injected))

end Report

def Analysis.reports (a : Analysis) (p : Program) : List Report :=
  let reports := p.funcs.map fun f =>
    let statements := (a.func? f.id).elim [] (·.statements)
    { function := f.id
      entry := a.requiredGas f.id
      worst := a.worstCase f.id
      checkpoints := statements.countP fun i => (valueAt a.charges i).isSome
      injected := statements.countP fun i => (valueAt a.injected i).isSome
      ap := (a.func? f.id).elim .unknown (·.ap) : Report }
  reports.mergeSort fun a b => decide (a.function.number ≤ b.function.number)

end Sierra.Gas
