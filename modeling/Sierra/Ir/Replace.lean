import Sierra.Ir.Module

/-!
# Replacing values

Values may be replaced in turn. Following a value takes at most one step more than there are
replacements, so even a circle has an answer.
-/

namespace Sierra.Ir

structure Replacements where
  next : Std.HashMap ValueId ValueId := {}

namespace Replacements

def empty : Replacements := {}

/-- A value is never sent to itself. -/
def set (r : Replacements) (v w : ValueId) : Replacements :=
  if v = w then r else ⟨r.next.insert v w⟩

def follow (r : Replacements) : (fuel : Nat) → ValueId → ValueId
  | 0, v => v
  | fuel + 1, v =>
    match r.next[v]? with
    | some w => follow r fuel w
    | none => v

def find (r : Replacements) (v : ValueId) : ValueId := r.follow (r.next.size + 1) v

def applyBlock (r : Replacements) (b : Block) : Block :=
  { b with
    ops := b.ops.map fun op => { op with args := op.args.map r.find }
    term := b.term.mapUses r.find }

def apply (r : Replacements) (f : Func) : Func :=
  if r.next.isEmpty then f else { f with blocks := f.blocks.map r.applyBlock }

end Replacements

end Sierra.Ir
