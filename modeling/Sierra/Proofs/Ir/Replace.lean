import Mathlib.Data.List.Perm.Subperm
import Sierra.Ir.Replace
import Sierra.Proofs.Ir.Rename

/-!
# Following replacements

Every value read is sent to the end of its chain, which is not replaced itself where replacements go
down in some rank (`next_find`).
-/

namespace Sierra.Ir.Replacements

open List

variable {fuel : Nat} {r : Replacements} {v w : ValueId} {rank : ValueId → Nat}

lemma follow_of_none (h : r.next[v]? = none) (fuel : Nat) : r.follow fuel v = v := by
  cases fuel with
  | zero => rfl
  | succ fuel => rw [follow, h]

lemma find_of_none (h : r.next[v]? = none) : r.find v = v := follow_of_none h _

lemma follow_induction {R : ValueId → ValueId → Prop} (hrefl : ∀ v, R v v)
    (hstep : ∀ u v w, r.next[u]? = some v → R v w → R u w) (fuel : Nat) (v : ValueId) :
    R v (r.follow fuel v) := by
  fun_induction follow r fuel v with
  | case1 v | case3 _ v => exact hrefl v
  | case2 _ v w hw ih => exact hstep v w _ hw ih

lemma follow_succ_of_none
    (h : r.next[r.follow fuel v]? = none) : r.follow (fuel + 1) v = r.follow fuel v := by
  induction fuel generalizing v with
  | zero => exact follow_of_none h 1
  | succ fuel ih =>
    cases hv : r.next[v]? with
    | none => rw [follow_of_none hv, follow_of_none hv]
    | some w =>
      rw [follow, hv] at h
      rw [follow, follow, hv]
      exact ih h

lemma next_set (hne : v ≠ w) (u : ValueId) :
    (r.set v w).next[u]? = if v = u then some w else r.next[u]? := by
  rw [set, if_neg hne, Std.HashMap.getElem?_insert]
  simp only [beq_iff_eq]

section

variable (hrank : ∀ v w, r.next[v]? = some w → rank w < rank v)

include hrank

/-- A chain that has not ended after `fuel` steps has passed more than `fuel` replaced values. -/
lemma exists_keys_of_follow {u : ValueId} (h : r.next[r.follow fuel v]? = some u) :
    ∃ keys : List ValueId, keys.length = fuel + 1 ∧ keys.Nodup ∧
      ∀ k ∈ keys, k ∈ r.next ∧ rank k ≤ rank v := by
  induction fuel generalizing v with
  | zero =>
    have hv : v ∈ r.next := Std.HashMap.mem_iff_isSome_getElem?.2 (by rw [follow] at h; simp [h])
    exact ⟨[v], rfl, pairwise_singleton _ v, by simp [hv]⟩
  | succ fuel ih =>
    cases hv : r.next[v]? with
    | none =>
      rw [follow_of_none hv, hv] at h
      cases h
    | some w =>
      rw [follow, hv] at h
      obtain ⟨keys, hlen, hnodup, hkeys⟩ := ih h
      have hlt := hrank v w hv
      refine ⟨v :: keys, by rw [length_cons, hlen], nodup_cons.2 ⟨fun hmem => ?_, hnodup⟩,
        fun k hk => ?_⟩
      · have := (hkeys v hmem).2
        omega
      · rcases mem_cons.1 hk with rfl | hk
        · exact ⟨Std.HashMap.mem_iff_isSome_getElem?.2 (by simp [hv]), Nat.le_refl _⟩
        · have := (hkeys k hk).2
          exact ⟨(hkeys k hk).1, by omega⟩

lemma next_follow (hfuel : r.next.size ≤ fuel) (v : ValueId) : r.next[r.follow fuel v]? = none := by
  cases h : r.next[r.follow fuel v]? with
  | none => rfl
  | some u =>
    obtain ⟨keys, hlen, hnodup, hkeys⟩ := exists_keys_of_follow hrank h
    have hsub : keys ⊆ r.next.keys := fun k hk => Std.HashMap.mem_keys.2 (hkeys k hk).1
    have hle := (subperm_of_subset hnodup hsub).length_le
    rw [Std.HashMap.length_keys] at hle
    omega

lemma next_find (v : ValueId) : r.next[r.find v]? = none :=
  next_follow hrank (Nat.le_succ _) v

lemma find_next (h : r.next[v]? = some w) : r.find v = r.find w := by
  rw [find, follow, h]
  exact (follow_succ_of_none (next_follow hrank (Nat.le_refl _) w)).symm

/-- Values that end at different places may be joined without a circle. -/
lemma exists_rank_set (hne : r.find v ≠ r.find w) :
    ∃ rank : ValueId → Nat, ∀ a b, (r.set v w).next[a]? = some b → rank b < rank a := by
  refine ⟨fun u => if r.find u = r.find v then rank u + rank w + 1 else rank u, fun a b hab => ?_⟩
  rw [next_set fun h => hne (congrArg r.find h)] at hab
  dsimp only
  split at hab
  · next hva =>
    cases hab
    subst hva
    rw [if_neg hne.symm, if_pos rfl]
    omega
  · have := hrank a b hab
    rw [find_next hrank hab]
    split <;> omega

end

lemma apply_eq (r : Replacements) (f : Func) :
    r.apply f = { f with blocks := f.blocks.map r.applyBlock } := by
  unfold apply
  split
  · next hempty =>
    have hfind : r.find = id := funext fun v =>
      find_of_none (Std.HashMap.getElem?_of_isEmpty hempty)
    have hblock : r.applyBlock = id := by
      funext b
      rw [applyBlock, hfind]
      simp [Terminator.mapUses_id]
    rw [hblock, Array.map_id]
  · rfl

end Sierra.Ir.Replacements
