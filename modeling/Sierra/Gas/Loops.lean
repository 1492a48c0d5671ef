/-!
# Loops

A depth-first search for the nodes at which loops close: those met again while the search is below
them. Without the edges into these no loop is left.
-/

namespace Sierra.Gas

inductive Mark where
  | unseen
  | open
  | done
deriving DecidableEq, Repr, Inhabited

/-- The marks of the nodes, and where loops close. -/
structure Search where
  marks : Array Mark
  cut : Array Bool

namespace Search

def markOf (s : Search) (v : Nat) : Mark := (s.marks[v]?).getD .done

def mark (s : Search) (v : Nat) (m : Mark) : Search :=
  { s with marks := s.marks.modify v fun _ => m }

def close (s : Search) (v : Nat) : Search := { s with cut := s.cut.modify v fun _ => true }

/-- A stack of nodes, innermost first, each with the successors still to look at. -/
def run (next : Array (List Nat)) : (fuel : Nat) → List (Nat × List Nat) → Search → Search
  | 0, _, s => s
  | _ + 1, [], s => s
  | fuel + 1, (v, []) :: below, s => run next fuel below (s.mark v .done)
  | fuel + 1, (v, u :: rest) :: below, s =>
    match s.markOf u with
    | .unseen =>
      run next fuel ((u, (next[u]?).getD []) :: (v, rest) :: below) (s.mark u .open)
    | .open => run next fuel ((v, rest) :: below) (s.close u)
    | .done => run next fuel ((v, rest) :: below) s

def bound (next : Array (List Nat)) : Nat :=
  next.size + next.foldl (fun sum successors => sum + successors.length) 0 + 1

def fromRoot (next : Array (List Nat)) (s : Search) (root : Nat) : Search :=
  match s.markOf root with
  | .unseen => run next (bound next) [(root, (next[root]?).getD [])] (s.mark root .open)
  | _ => s

end Search

/-- Whether a loop closes at each node, from `root` and then from every node not reached. -/
def loopHeads (next : Array (List Nat)) (root : Nat) : Array Bool :=
  let start : Search :=
    ⟨Array.replicate next.size .unseen, Array.replicate next.size false⟩
  ((root :: List.range next.size).foldl (Search.fromRoot next) start).cut

end Sierra.Gas
