import Mathlib.Logic.Relation
import Sierra.Proofs.Optimize.Fold
import Sierra.Proofs.Optimize.Prune
import Sierra.Proofs.Optimize.Redirect

/-!
# The rewriting loops stop

Every change that folding makes settles an operation for good (`Advances`), and values are joined
only where their chains end apart. Forwarding passes every block once.
-/

namespace Sierra.Ir

open List Fold Func Replacements
open Relation (ReflTransGen TransGen)

variable {f : Func}

/-- An edge followed over blocks that only jump on, without a bound, up to one passed before or one
that does more. -/
inductive Hops (f : Func) : List BlockId → Edge → Edge → Prop
  | around {visited : List BlockId} {e : Edge} (h : e.target ∈ visited) : Hops f visited e e
  | stay {visited : List BlockId} {e : Edge} (h : Flow.passThrough? f e.target = none) :
      Hops f visited e e
  | hop {visited : List BlockId} {e e' next : Edge} {params : List ValueId}
      (hnew : e.target ∉ visited) (h : Flow.passThrough? f e.target = some (params, next))
      (hrest : Hops f (e.target :: visited) (Flow.beyond params next e) e') : Hops f visited e e'

lemma hops_forward {fuel : Nat} {visited : List BlockId} {e : Edge} (hnodup : visited.Nodup)
    (hrange : visited ⊆ (range f.blocks.size).map Int.ofNat)
    (hfuel : f.blocks.size < fuel + visited.length) :
    Hops f visited e (Flow.forward f fuel visited e) := by
  fun_induction Flow.forward f fuel visited e with
  | case1 visited e =>
    have hle := (subperm_of_subset hnodup hrange).length_le
    rw [length_map, length_range] at hle
    omega
  | case2 _ visited e h => exact .around (by simpa using h)
  | case3 _ visited e _ h => exact .stay h
  | case4 fuel visited e hnew params next h ih =>
    have hnew : e.target ∉ visited := by simpa using hnew
    refine .hop hnew h (ih (nodup_cons.2 ⟨hnew, hnodup⟩) (cons_subset.2 ⟨?_, hrange⟩) ?_)
    · obtain ⟨i, b, hi, hb, -⟩ := Flow.exists_of_passThrough? h
      rw [hi]
      exact mem_map_of_mem (mem_range.2 (Array.getElem?_eq_some_iff.1 hb).1)
    · rw [length_cons]
      omega

def Replacements.Sends (r : Replacements) (v w : ValueId) : Prop := r.next[v]? = some w

lemma chain_ends {r : Replacements} {rank : ValueId → Nat}
    (hrank : ∀ v w, r.next[v]? = some w → rank w < rank v) (v : ValueId) :
    ¬ TransGen r.Sends v v ∧ ReflTransGen r.Sends v (r.find v) ∧ ∀ w, ¬ r.Sends (r.find v) w := by
  have hdown : ∀ w, TransGen r.Sends v w → rank w < rank v := by
    intro w h
    induction h with
    | single h => exact hrank _ _ h
    | tail _ h ih => exact Nat.lt_trans (hrank _ _ h) ih
  refine ⟨fun h => Nat.lt_irrefl _ (hdown v h), ?_, fun w h => ?_⟩
  · exact follow_induction (fun _ => .refl) (fun _ _ _ h hrest => .head h hrest) _ v
  · rw [Sends, next_find hrank] at h
    cases h

/-- In accepted code whose operations have the results their codes produce, folding stops after a
round without a change, the replacements after any number of rounds have no circle, so that a value
is sent to the end of its chain, and jumps are forwarded to an end. -/
theorem rewriting_stops (m : Module) (f : Func) (hm : m.verify = .ok ()) (hf : f ∈ m.funcs)
    (hone : ∀ b ∈ f.blocks, ∀ op ∈ b.ops, op.code.hasOneResult = true → op.results.length = 1) :
    (∃ k blocks, rounds f (f.opCount + 1) {} f.blocks.toList = (k, blocks, true) ∧
      Rounds f {} f.blocks.toList k blocks) ∧
    (∀ (n : Nat) (v : ValueId) (r : Replacements),
      r = (rounds f n {} f.blocks.toList).1.replaced →
        ¬ TransGen r.Sends v v ∧ ReflTransGen r.Sends v (r.find v) ∧ ∀ w, ¬ r.Sends (r.find v) w) ∧
    ∀ (g : Func) (e : Edge), Hops g [] e (Flow.forward g (g.blocks.size + 1) [] e) := by
  have hrounds := exists_rounds_eq (Module.verify_eq_ok_iff.1 hm f hf) hone
  refine ⟨?_, fun n v r hr => ?_, fun g e => ?_⟩
  · obtain ⟨k, blocks, heq, -, -, hstops⟩ := hrounds (f.opCount + 1)
    refine ⟨k, blocks, heq, hstops ?_⟩
    rw [opCount_eq_length]
    exact Nat.lt_succ_of_le countP_le_length
  · obtain ⟨k, blocks, heq, ⟨-, rank, hrank⟩, -⟩ := hrounds n
    rw [heq] at hr
    rw [hr]
    exact chain_ends hrank v
  · exact hops_forward nodup_nil (nil_subset _) (Nat.lt_succ_self _)

/-- Two choices that choose each other, and two empty blocks that jump to each other. -/
def circling : Func where
  name := "f"
  results := [.int 8]
  values := #[.int 1, .int 8, .int 8]
  blocks := #[
    { id := 0
      ops := [
        { code := .const, results := [0], type := .int 1, imm := [1] },
        { code := .select, results := [1], args := [0, 2, 2], type := .int 8 },
        { code := .select, results := [2], args := [0, 1, 1], type := .int 8 }]
      term := .br ⟨1, []⟩ },
    { id := 1, term := .br ⟨2, []⟩ },
    { id := 2, term := .br ⟨1, []⟩ }]

theorem circling_stops :
    (∃ k blocks, Rounds circling {} circling.blocks.toList k blocks) ∧
      Hops circling [] ⟨1, []⟩ ⟨1, []⟩ := by
  obtain ⟨⟨k, blocks, -, hrounds⟩, -, hhops⟩ :=
    rewriting_stops ⟨"m", [circling], []⟩ circling rfl (mem_singleton.2 rfl) (by decide)
  exact ⟨⟨k, blocks, hrounds⟩, hhops circling ⟨1, []⟩⟩

end Sierra.Ir
