import Sierra.Gas.Analysis
import Sierra.Proofs.Flow
import Sierra.Proofs.Types

/-!
# The order of functions

Functions are looked at in an order that has each of them once, and after every function that
it calls and that cannot call itself.
-/

namespace Sierra

open List Except

namespace Gas

open Flow (Node)

variable {s : Settled}

variable {calls : Array (List Nat)} {flows : List Flow}

def DistinctIds (flows : List Flow) : Prop := (flows.map fun g => g.function.id.number).Nodup

lemma DistinctIds.eq_of_number (h : DistinctIds flows) {i j : Nat}
    {g g' : Flow} (hi : flows[i]? = some g) (hj : flows[j]? = some g')
    (hnum : g.function.id.number = g'.function.id.number) : i = j := by
  obtain ⟨hlt, -⟩ := List.getElem?_eq_some_iff.1 hi
  refine (getElem?_inj (by rw [length_map]; exact hlt) h).1 ?_
  rw [getElem?_map, getElem?_map, hi, hj, Option.map_some, Option.map_some, hnum]

lemma map_number_of_forall₂ {funcs : List Function}
    (h : Forall₂ (fun f g => Flow.ofFunction s f = .ok g) funcs flows) :
    flows.map (fun g => g.function.id.number) = funcs.map (·.id.number) := by
  induction h with
  | nil => rfl
  | cons hf _ ih => rw [map_cons, map_cons, ih, (Flow.explored_ofFunction hf).1]

lemma explored_of_mapM {program : Program} (hs : Settled.ofProgram program = .ok s)
    (hflow : program.funcs.mapM (Flow.ofFunction s) = .ok flows) :
    (∀ g ∈ flows, g.Explored s) ∧ DistinctIds flows := by
  have hall := forall₂_of_mapM hflow
  constructor
  · intro g hg
    obtain ⟨f, -, hf⟩ := (forall₂_mem hall).2 g hg
    exact (Flow.explored_ofFunction hf).2
  · have hnodup := (Settled.ofProgram_eq_ok hs).2.1
    rw [Settled.Distinct, map_map] at hnodup
    rwa [DistinctIds, map_number_of_forall₂ hall]

lemma callGraph_eq_ok (h : callGraph flows = .ok calls) :
    calls.size = flows.length ∧ ∀ (i : Nat) (g : Flow), flows[i]? = some g → ∃ row,
      calls[i]? = some row ∧ Forall₂ (fun callee j =>
        flows.findIdx? (fun other => other.function.id.same callee) = some j)
          (g.order.filterMap calleeOf) row := by
  obtain ⟨rows, hrows, h⟩ := except_bind_eq_ok.1 h
  cases h
  have hall := forall₂_of_mapM hrows
  refine ⟨by rw [size_toArray]; exact hall.length_eq.symm, fun i g hi => ?_⟩
  obtain ⟨row, hrow, hcalls⟩ := (forall₂_getElem? hall i).1 g hi
  refine ⟨row, by rw [getElem?_toArray, hrow], (forall₂_of_mapM hcalls).imp fun callee j hfound => ?_⟩
  split at hfound
  · next place hplace => rw [hplace, ok.inj hfound]
  · cases hfound

lemma callOrder_eq_ok {recursive order : List Nat} (h : callOrder calls recursive = .ok order) :
    order.Nodup ∧ (∀ i, i ∈ order ↔ i < calls.size) ∧
      ∀ before i after, order = before ++ i :: after → ∀ row, calls[i]? = some row →
        ∀ j ∈ row, j < calls.size → j ∈ recursive ∨ j ∈ before := by
  unfold callOrder at h
  dsimp only at h
  split at h
  · cases h
  next hacyc =>
  have hacyc : (Graph.ofRows calls.toList id recursive.contains id).layers.cyclic = false :=
    Bool.eq_false_iff.2 hacyc
  obtain ⟨hnodup, hmem, hfirst⟩ := Graph.order_ofRows hacyc
  rw [← ok.inj h]
  refine ⟨hnodup, hmem, fun before i after hsplit row hrow j hj hlt => ?_⟩
  rw [← Array.getElem?_toList] at hrow
  simpa using hfirst before i after hsplit row hrow j hj hlt

end Gas

end Sierra
