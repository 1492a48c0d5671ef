import Sierra.Gas.Analysis
import Sierra.Ir.Optimize
import Sierra.Text.Lower

/-!
# Options of a compilation

How much the code is improved, and how gas is charged. Options have a fingerprint,
a text under which results are kept.
-/

namespace Sierra

inductive OptLevel where
  | none
  | less
  | default
  | aggressive
deriving DecidableEq, Repr, Inhabited

namespace OptLevel

def all : List OptLevel := [none, less, default, aggressive]

def name : OptLevel → String
  | none => "none"
  | less => "less"
  | default => "default"
  | aggressive => "aggressive"

def index : OptLevel → Nat
  | none => 0
  | less => 1
  | default => 2
  | aggressive => 3

def ofIndex (i : Int) : OptLevel := (all[i.toNat]?).getD aggressive

def nameOfIndex (i : Nat) : String := ((all[i]?).map name).getD s!"OptLevel({i})"

/-- In any case and between blanks. -/
def parse (text : String) : Except Failure OptLevel :=
  let word := Text.trim (Text.lower text)
  match all.find? fun l => l.name == word with
  | some l => .ok l
  | Option.none =>
    match Text.decimal? word with
    | some i =>
      if 0 ≤ i ∧ i ≤ 3 then .ok (ofIndex i) else refused word
    | Option.none => refused word
where
  refused (word : String) : Except Failure OptLevel :=
    .error (.plain ("invalid opt level " ++ Text.quote word ++
      " (expected none|less|default|aggressive or 0..3)"))

def passes (l : OptLevel) : Ir.Passes :=
  { flow := 1 ≤ l.index, deadCode := 2 ≤ l.index, fold := 3 ≤ l.index }

end OptLevel

structure GasOptions where
  disabled : Bool := false
  dynamic : Bool := false
  /-- In ascending order of names. -/
  costs : List (String × List Gas.Cost) := []
deriving Inhabited

namespace GasOptions

def table (g : GasOptions) : Gas.Table :=
  g.costs.foldl (fun t entry => t.set entry.1 entry.2) Gas.defaultTable

def analysis (g : GasOptions) : Gas.Options :=
  { table := g.table, disabled := g.disabled, dynamic := g.dynamic }

end GasOptions

structure CompileOptions where
  level : OptLevel := .default
  gas : GasOptions := {}
deriving Inhabited

namespace CompileOptions

def fingerprint (o : CompileOptions) : String :=
  s!"O{o.level.index};gas={o.gas.disabled},{o.gas.dynamic}" ++
    String.join (o.gas.costs.map fun (id, costs) =>
      ";" ++ id ++ "=" ++ String.join (costs.map Gas.Cost.text))

end CompileOptions

end Sierra
