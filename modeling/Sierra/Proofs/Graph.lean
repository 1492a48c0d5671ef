import Mathlib.Order.WellFoundedSet
import Sierra.Graph
import Sierra.Proofs.Loops

/-!
# The layered order of a graph

The counts are of edges from nodes not yet taken away (`pending`), a wave holds the nodes whose
count is zero (`Layered`), and its number is the length of the longest way to them.
-/

namespace Sierra.Graph

open List
open Relation (ReflTransGen TransGen)

variable {counts : Array Nat} {g : Graph} {taken wave : List Nat} {u v : Nat} {α : Type}

/-! ## Edges of a growing graph -/

lemma size_empty (n : Nat) : (empty n).size = n := by
  simp [empty, size]

lemma size_insertEdge (g : Graph) (source target : Nat) :
    (g.insertEdge source target).size = g.size := by
  unfold insertEdge
  split <;> simp [size]

lemma mem_next_insertEdge {source target : Nat} : v ∈ (g.insertEdge source target).next u ↔
    v ∈ g.next u ∨ (u = source ∧ v = target ∧ source < g.size ∧ target < g.size) := by
  unfold insertEdge
  split
  · next hnew =>
    simp only [next, Array.getElem?_modify]
    by_cases hu : source = u
    · subst hu
      rw [Array.getElem?_eq_getElem hnew.1]
      simp [hnew.1, hnew.2.1]
    · simp [hu, Ne.symm hu]
  · next hold =>
    refine ⟨.inl, fun h => h.elim id ?_⟩
    rintro ⟨rfl, rfl, hsource, htarget⟩
    by_contra habsent
    exact hold ⟨hsource, htarget, by simpa using habsent⟩

def Bounded (g : Graph) : Prop := ∀ u v, v ∈ g.next u → v < g.size

lemma not_mem_next_empty (n u v : Nat) : v ∉ (empty n).next u := by
  simp only [next, empty, Array.getElem?_replicate]
  split <;> simp

lemma mem_next_insertEdges (edges : List (Nat × Nat)) (g : Graph) :
    (edges.foldl (fun g e => g.insertEdge e.1 e.2) g).size = g.size ∧ ∀ u v,
      v ∈ (edges.foldl (fun g e => g.insertEdge e.1 e.2) g).next u ↔
        v ∈ g.next u ∨ ((u, v) ∈ edges ∧ u < g.size ∧ v < g.size) := by
  induction edges generalizing g with
  | nil => simp
  | cons e edges ih =>
    obtain ⟨hsize, hnext⟩ := ih (g.insertEdge e.1 e.2)
    rw [size_insertEdge] at hsize
    refine ⟨hsize, fun u v => ?_⟩
    rw [foldl_cons, hnext, mem_next_insertEdge]
    grind

/-- Every row has edges from the places of its items, some of which are left out. -/
def ofRows {β : Type} (rows : List α) (items : α → List β) (isOut : β → Bool) (place : β → Nat) :
    Graph :=
  rows.zipIdx.foldl (fun graph x => (items x.1).foldl (fun graph y =>
    if isOut y then graph else graph.insertEdge (place y) x.2) graph) (empty rows.length)

section

variable {β : Type} (rows : List α) (items : α → List β) (isOut : β → Bool) (place : β → Nat)

lemma ofRows_eq : ofRows rows items isOut place = (rows.zipIdx.flatMap fun x =>
    ((items x.1).filter fun y => !isOut y).map fun y => (place y, x.2)).foldl
      (fun g e => g.insertEdge e.1 e.2) (empty rows.length) := by
  rw [ofRows, foldl_flatMap]
  simp only [foldl_map, foldl_filter, Bool.not_eq_true', ← Bool.not_eq_true, ite_not]

lemma size_ofRows : (ofRows rows items isOut place).size = rows.length := by
  rw [ofRows_eq, (mem_next_insertEdges _ _).1, size_empty]

variable {rows items isOut place}

lemma mem_next_ofRows : v ∈ (ofRows rows items isOut place).next u ↔ u < rows.length ∧
    ∃ x, rows[v]? = some x ∧ ∃ y ∈ items x, isOut y = false ∧ place y = u := by
  rw [ofRows_eq, (mem_next_insertEdges _ _).2, or_iff_right (not_mem_next_empty _ _ _), size_empty]
  simp only [mem_flatMap, mem_map, mem_filter, Bool.not_eq_true', Prod.exists, Prod.mk.injEq,
    mk_mem_zipIdx_iff_getElem?]
  constructor
  · rintro ⟨⟨x, i, hx, y, ⟨hy, hkept⟩, rfl, rfl⟩, hu, -⟩
    exact ⟨hu, x, hx, y, hy, hkept, rfl⟩
  · rintro ⟨hu, x, hx, y, hy, hkept, rfl⟩
    exact ⟨⟨x, v, hx, y, ⟨hy, hkept⟩, rfl, rfl⟩, hu, (List.getElem?_eq_some_iff.1 hx).1⟩

lemma bounded_ofRows : (ofRows rows items isOut place).Bounded := by
  intro u v huv
  obtain ⟨-, x, hx, -⟩ := mem_next_ofRows.1 huv
  rw [size_ofRows]
  exact (List.getElem?_eq_some_iff.1 hx).1

end

/-! ## Taking waves away -/

/-- The number of edges into a node from nodes not taken away. -/
def pending (g : Graph) (taken : List Nat) (v : Nat) : Nat :=
  (((List.range g.size).filter fun u => !taken.contains u).flatMap g.next).count v

def PredsFirst (g : Graph) (order : List Nat) : Prop :=
  ∀ before v after, order = before ++ v :: after → ∀ u, v ∈ g.next u → u ∈ before

lemma lt_size_of_mem_next (h : v ∈ g.next u) : u < g.size := by
  by_contra hu
  rw [next, Array.getElem?_eq_none (Nat.le_of_not_lt hu)] at h
  cases h

lemma mem_taken_of_pending (h : g.pending taken v = 0) (huv : v ∈ g.next u) : u ∈ taken := by
  by_contra hu
  refine count_eq_zero.1 h (mem_flatMap.2 ⟨u, ?_, huv⟩)
  simp [lt_size_of_mem_next huv, hu]

lemma pending_append (hnodup : (taken ++ wave).Nodup) (hwave : ∀ u ∈ wave, u < g.size) (v : Nat) :
    g.pending taken v = (wave.flatMap g.next).count v + g.pending (taken ++ wave) v := by
  obtain ⟨-, hwaveNodup, hdisj⟩ := nodup_append'.1 hnodup
  have hperm : ((range g.size).filter fun u => !taken.contains u).Perm
      (wave ++ (range g.size).filter fun u => !(taken ++ wave).contains u) := by
    rw [perm_ext_iff_of_nodup (nodup_range.filter _) (nodup_append'.2
      ⟨hwaveNodup, nodup_range.filter _, fun u hu hrest => by simp [hu] at hrest⟩)]
    intro u
    by_cases hu : u ∈ wave
    · have hnot : u ∉ taken := fun h => hdisj h hu
      simp [hu, hnot, hwave u hu]
    · simp [hu]
  rw [pending, (hperm.flatMap_right g.next).count_eq v, flatMap_append, count_append, pending]

lemma foldl_release {n : Nat} (targets : List Nat) (counts : Array Nat) (ready : List Nat)
    (hsize : counts.size = n) (hrange : ∀ v ∈ targets, v < n)
    (hcounts : ∀ v < n, targets.count v ≤ (counts[v]?).getD 0) :
    ∃ counts' fresh, targets.foldl release (counts, ready) = (counts', ready ++ fresh) ∧
      counts'.size = n ∧
      (∀ v < n, (counts'[v]?).getD 0 = (counts[v]?).getD 0 - targets.count v) ∧
      fresh.Nodup ∧ ∀ v, v ∈ fresh ↔ v ∈ targets ∧ (counts[v]?).getD 0 = targets.count v := by
  induction targets using reverseRecOn with
  | nil => exact ⟨counts, [], by simp, hsize, fun v _ => by simp, nodup_nil, by simp⟩
  | append_singleton targets t ih =>
    have ht : t < n := hrange t (by simp)
    simp only [count_append, count_singleton] at hcounts
    obtain ⟨counts', fresh, hfold, hsize', hleft, hnodup, hfresh⟩ :=
      ih (fun v hv => hrange v (mem_append_left _ hv)) fun v hv => by have := hcounts v hv; omega
    have hbound := hcounts t ht
    rw [beq_self_eq_true, if_pos rfl] at hbound
    have hlowered : ∀ v < n, (counts'.modify t (· - 1))[v]? =
        some ((counts[v]?).getD 0 - (targets ++ [t]).count v) := by
      intro v hv
      have hsome : counts'[v]? = some ((counts[v]?).getD 0 - targets.count v) := by
        rw [← hleft v hv, Array.getElem?_eq_getElem (by omega)]
        rfl
      rw [Array.getElem?_modify, hsome]
      by_cases htv : t = v
      · simp [htv, Nat.sub_sub]
      · simp [htv]
    -- a target that has been released with all its edges is not released again
    have hnew : t ∉ fresh := fun hold => by
      have := ((hfresh t).1 hold).2
      omega
    have hrest : ∀ v ≠ t, v ∈ targets ++ [t] ∧ (counts[v]?).getD 0 = (targets ++ [t]).count v ↔
        v ∈ fresh := by
      intro v hv
      rw [hfresh v]
      simp [hv, Ne.symm hv]
    rw [foldl_append, hfold, foldl_cons, foldl_nil, release]
    simp only [hlowered t ht, Option.some.injEq]
    have hsize'' : (counts'.modify t (· - 1)).size = n := by rw [Array.size_modify, hsize']
    have hleft' : ∀ v < n, ((counts'.modify t (· - 1))[v]?).getD 0 =
        (counts[v]?).getD 0 - (targets ++ [t]).count v := fun v hv => by
      rw [hlowered v hv, Option.getD_some]
    have hcount : (targets ++ [t]).count t = targets.count t + 1 := by simp
    split
    · refine ⟨_, fresh ++ [t], by rw [append_assoc], hsize'', hleft', ?_, fun v => ?_⟩
      · exact nodup_append'.2 ⟨hnodup, nodup_singleton t, by simpa using hnew⟩
      · by_cases hv : v = t
        · subst hv
          simp
          omega
        · rw [hrest v hv]
          simp [hv]
    · refine ⟨_, fresh, rfl, hsize'', hleft', hnodup, fun v => ?_⟩
      by_cases hv : v = t
      · subst hv
        exact iff_of_false hnew (by omega)
      · exact (hrest v hv).symm

/-- The counts are of pending edges; the nodes without any are those taken away and the next wave.
-/
structure Layered (g : Graph) (taken wave : List Nat) (counts : Array Nat) : Prop where
  size : counts.size = g.size
  counts : ∀ v < g.size, (counts[v]?).getD 0 = g.pending taken v
  nodup : (taken ++ wave).Nodup
  mem_iff : ∀ v, v ∈ taken ++ wave ↔ v < g.size ∧ g.pending taken v = 0
  first : g.PredsFirst (taken ++ wave)

lemma Layered.length_le (h : g.Layered taken wave counts) : (taken ++ wave).length ≤ g.size := by
  have hsub : taken ++ wave ⊆ range g.size := fun v hv =>
    mem_range.2 ((h.mem_iff v).1 hv).1
  simpa using (h.nodup.subperm hsub).length_le

lemma PredsFirst.append {order : List Nat} (h : g.PredsFirst order)
    (hwave : ∀ v ∈ wave, ∀ u, v ∈ g.next u → u ∈ order) : g.PredsFirst (order ++ wave) := by
  intro before v after hsplit u huv
  rcases append_eq_append_iff.1 hsplit with ⟨rest, rfl, hrest⟩ | ⟨rest, hrest, hafter⟩
  · -- the node is one of the wave
    have hv : v ∈ wave := by simp [hrest]
    exact mem_append_left _ (hwave v hv u huv)
  · cases rest with
    | nil =>
      rw [nil_append] at hafter
      have hv : v ∈ wave := hafter ▸ mem_cons_self
      rw [append_nil] at hrest
      rw [← hrest]
      exact hwave v hv u huv
    | cons w rest =>
      obtain ⟨rfl, -⟩ := cons.inj hafter
      exact h before v rest hrest u huv

lemma Layered.takeWave (hg : g.Bounded) (h : g.Layered taken wave counts) :
    g.Layered (taken ++ wave) (g.takeWave counts wave).2 (g.takeWave counts wave).1 := by
  have hwave : ∀ u ∈ wave, u < g.size := fun u hu =>
    ((h.mem_iff u).1 (mem_append_right _ hu)).1
  have hsum := pending_append h.nodup hwave
  obtain ⟨counts', fresh, hfold, hsize, hleft, hnodup, hfresh⟩ :=
    foldl_release (wave.flatMap g.next) counts [] h.size (fun v hv => by
        obtain ⟨u, -, huv⟩ := mem_flatMap.1 hv
        exact hg u v huv)
      (fun v hv => by rw [h.counts v hv, hsum v]; omega)
  have htake : g.takeWave counts wave = (counts', fresh.mergeSort (· ≤ ·)) := by
    rw [Graph.takeWave, hfold, nil_append]
  have hperm : (fresh.mergeSort (· ≤ ·)).Perm fresh := mergeSort_perm fresh _
  rw [htake]
  have hcounts : ∀ v < g.size, (counts'[v]?).getD 0 = g.pending (taken ++ wave) v := by
    intro v hv
    rw [hleft v hv, h.counts v hv, hsum v]
    omega
  -- a node runs out of pending edges with this wave exactly when it is released by it
  have hmem : ∀ v, v ∈ fresh ↔ v < g.size ∧ g.pending (taken ++ wave) v = 0 ∧
      v ∉ taken ++ wave := by
    intro v
    rw [hfresh v]
    constructor
    · rintro ⟨hv, hcount⟩
      obtain ⟨u, -, huv⟩ := mem_flatMap.1 hv
      have hlt := hg u v huv
      rw [h.counts v hlt, hsum v] at hcount
      refine ⟨hlt, by omega, fun hold => ?_⟩
      have hzero := ((h.mem_iff v).1 hold).2
      have hpos := count_pos_iff.2 hv
      rw [hsum v] at hzero
      omega
    · rintro ⟨hlt, hzero, hnew⟩
      have hpos : g.pending taken v ≠ 0 := fun h0 => hnew ((h.mem_iff v).2 ⟨hlt, h0⟩)
      rw [h.counts v hlt]
      rw [hsum v] at hpos ⊢
      exact ⟨count_pos_iff.1 (by omega), by omega⟩
  refine ⟨hsize, hcounts, ?_, fun v => ?_, ?_⟩
  · refine nodup_append'.2 ⟨h.nodup, hperm.nodup_iff.2 hnodup, fun v hold hnew => ?_⟩
    exact ((hmem v).1 (hperm.mem_iff.1 hnew)).2.2 hold
  · rw [mem_append, hperm.mem_iff, hmem v]
    by_cases hold : v ∈ taken ++ wave
    · obtain ⟨hlt, hzero⟩ := (h.mem_iff v).1 hold
      rw [hsum v] at hzero
      exact ⟨fun _ => ⟨hlt, by omega⟩, fun _ => .inl hold⟩
    · simp only [hold, false_or, not_false_eq_true, and_true]
  · refine h.first.append fun v hv u huv => ?_
    exact mem_taken_of_pending ((hmem v).1 (hperm.mem_iff.1 hv)).2.1 huv

lemma layered_wavesFrom (hg : g.Bounded) (fuel : Nat)
    (h : g.Layered taken wave counts) (hfuel : g.size < fuel + taken.length) :
    g.Layered (taken ++ (g.wavesFrom fuel counts wave).1.flatten) []
      (g.wavesFrom fuel counts wave).2 := by
  induction fuel generalizing taken wave counts with
  | zero =>
    have hle := h.length_le
    rw [length_append] at hle
    omega
  | succ fuel ih =>
    cases wave with
    | nil => simpa [wavesFrom] using h
    | cons v rest =>
      have hnext := ih (h.takeWave hg) (by simp; omega)
      simpa [wavesFrom, append_assoc] using hnext

lemma foldl_count (entries : List (Nat × Nat)) (counts : Array Nat) :
    (entries.foldl (fun counts edge => counts.modify edge.2 (· + 1)) counts).size = counts.size ∧
      ∀ v < counts.size,
        ((entries.foldl (fun counts edge => counts.modify edge.2 (· + 1)) counts)[v]?).getD 0 =
          (counts[v]?).getD 0 + (entries.map (·.2)).count v := by
  induction entries generalizing counts with
  | nil => simp
  | cons edge entries ih =>
    obtain ⟨hsize, hcount⟩ := ih (counts.modify edge.2 (· + 1))
    rw [foldl_cons]
    refine ⟨by rw [hsize, Array.size_modify], fun v hv => ?_⟩
    rw [hcount v (by simpa using hv), Array.getElem?_modify, Array.getElem?_eq_getElem hv,
      map_cons, count_cons]
    by_cases hvt : edge.2 = v
    · simp [hvt]
      omega
    · simp [hvt]

lemma mem_indicesWhere {test : Nat → Bool} :
    v ∈ indicesWhere counts test ↔ v < counts.size ∧ test ((counts[v]?).getD 0) := by
  rw [indicesWhere, mem_filter, mem_range]
  refine and_congr_right fun hv => ?_
  rw [Array.getElem?_eq_getElem hv]
  rfl

lemma layered_start (g : Graph) : g.Layered [] (indicesWhere g.indegrees (· == 0)) g.indegrees := by
  obtain ⟨hsize, hcount⟩ := foldl_count g.edges (Array.replicate g.size 0)
  rw [Array.size_replicate] at hsize hcount
  have htargets : g.edges.map (·.2) = (range g.size).flatMap g.next := by
    simp [edges, map_flatMap, Function.comp_def]
  have hcounts : ∀ v < g.size, (g.indegrees[v]?).getD 0 = g.pending [] v := by
    intro v hv
    rw [indegrees, hcount v hv, htargets]
    simp [pending, hv]
  have hmem : ∀ v, v ∈ indicesWhere g.indegrees (· == 0) ↔ v < g.size ∧ g.pending [] v = 0 := by
    intro v
    rw [mem_indicesWhere, show g.indegrees.size = g.size from hsize]
    refine and_congr_right fun hv => ?_
    rw [hcounts v hv, beq_iff_eq]
  refine ⟨hsize, hcounts, nodup_range.filter _, hmem, ?_⟩
  intro before v after hsplit u huv
  have hv : v ∈ indicesWhere g.indegrees (· == 0) := by
    rw [← nil_append (indicesWhere _ _), hsplit]
    simp
  exact absurd (mem_taken_of_pending ((hmem v).1 hv).2 huv) not_mem_nil

lemma layered_layers (hg : g.Bounded) : g.Layered g.layers.order []
    (g.wavesFrom (g.size + 1) g.indegrees (indicesWhere g.indegrees (· == 0))).2 :=
  layered_wavesFrom hg (g.size + 1) g.layered_start (by simp)

lemma nodup_order (hg : g.Bounded) : g.layers.order.Nodup := by
  have hnodup := (layered_layers hg).nodup
  rwa [append_nil] at hnodup

lemma mem_cycles (hg : g.Bounded) : v ∈ g.layers.cycles ↔ v < g.size ∧ v ∉ g.layers.order := by
  have hlast := layered_layers hg
  rw [← append_nil g.layers.order, hlast.mem_iff]
  refine mem_indicesWhere.trans ?_
  rw [hlast.size]
  refine and_congr_right fun hv => ?_
  rw [hlast.counts v hv]
  simp [hv, Nat.pos_iff_ne_zero]

lemma layers_order (hg : g.Bounded) (hacyc : g.layers.cyclic = false) :
    g.layers.order.Nodup ∧ (∀ v, v ∈ g.layers.order ↔ v < g.size) ∧
      g.PredsFirst g.layers.order := by
  have hlast := layered_layers hg
  have hempty : g.layers.cycles = [] := by simpa [Layers.cyclic] using hacyc
  have hmem := fun v => hlast.mem_iff v
  have hfirst := hlast.first
  rw [append_nil] at hmem hfirst
  refine ⟨nodup_order hg, fun v => ⟨fun hv => ((hmem v).1 hv).1, fun hv => ?_⟩, hfirst⟩
  -- a node left over would be among the cycles
  by_contra hnot
  have hcycle := (mem_cycles hg).2 ⟨hv, hnot⟩
  rw [hempty] at hcycle
  cases hcycle

lemma idxOf_lt_idxOf {l before after : List Nat} {i j : Nat} (hnodup : l.Nodup)
    (hsplit : l = before ++ i :: after) (hj : j ∈ before) : l.idxOf j < l.idxOf i := by
  subst hsplit
  have hi : i ∉ before := fun hmem => (nodup_append'.1 hnodup).2.2 hmem mem_cons_self
  rw [idxOf_append_of_mem hj, idxOf_append_of_notMem hi, idxOf_cons_self]
  exact idxOf_lt_length_of_mem hj

abbrev Precedes (g : Graph) (u v : Nat) : Prop := v ∈ g.next u

lemma idxOf_lt_of_transGen (hg : g.Bounded) (h : TransGen g.Precedes u v)
    (hv : v ∈ g.layers.order) :
    u ∈ g.layers.order ∧ g.layers.order.idxOf u < g.layers.order.idxOf v := by
  have hstep : ∀ {u v}, g.Precedes u v → v ∈ g.layers.order →
      u ∈ g.layers.order ∧ g.layers.order.idxOf u < g.layers.order.idxOf v := by
    intro u v huv hv
    obtain ⟨before, after, hsplit⟩ := append_of_mem hv
    have hu := (layered_layers hg).first before v after (by rw [append_nil, hsplit]) u huv
    exact ⟨hsplit ▸ mem_append_left _ hu, idxOf_lt_idxOf (nodup_order hg) hsplit hu⟩
  induction h using TransGen.head_induction_on with
  | single huv => exact hstep huv hv
  | head huw _ ih => exact ⟨(hstep huw ih.1).1, (hstep huw ih.1).2.trans ih.2⟩

lemma mem_cycles_iff (hg : g.Bounded) : v ∈ g.layers.cycles ↔
    ∃ c, TransGen g.Precedes c c ∧ ReflTransGen g.Precedes c v := by
  rw [mem_cycles hg]
  constructor
  · rintro ⟨hv, hnot⟩
    by_contra hnone
    -- what leads to `v` without coming back can be taken away, one after another
    have horder : IsStrictOrder Nat fun a b => TransGen g.Precedes a b ∧
        ReflTransGen g.Precedes b v :=
      { irrefl := fun a h => hnone ⟨a, h⟩, trans := fun a b c h h' => ⟨h.1.trans h'.1, h'.2⟩ }
    have hfounded := @Set.Finite.wellFoundedOn _ _ horder _ (Set.finite_lt_nat g.size)
    refine hnot (hfounded.induction (P := fun u => ReflTransGen g.Precedes u v →
      u ∈ g.layers.order) hv (fun u hu ih hway => ?_) .refl)
    rw [← append_nil g.layers.order, (layered_layers hg).mem_iff]
    refine ⟨hu, count_eq_zero.2 fun hmem => ?_⟩
    obtain ⟨t, ht, htu⟩ := mem_flatMap.1 hmem
    have hold := ih t (lt_size_of_mem_next htu) ⟨.single htu, hway⟩ (.head htu hway)
    simp [hold] at ht
  · rintro ⟨c, hcycle, hway⟩
    have hmore := hcycle.trans_left hway
    obtain ⟨u, -, huv⟩ := TransGen.tail'_iff.1 hmore
    refine ⟨hg u v huv, fun hv => ?_⟩
    obtain ⟨hc, -⟩ := idxOf_lt_of_transGen hg hmore hv
    exact lt_irrefl _ (idxOf_lt_of_transGen hg hcycle hc).2

lemma cyclic_eq_false_iff (hg : g.Bounded) :
    g.layers.cyclic = false ↔ ∀ v, ¬ TransGen g.Precedes v v := by
  rw [Layers.cyclic, Bool.not_eq_false', List.isEmpty_iff, eq_nil_iff_forall_not_mem]
  simp only [mem_cycles_iff hg]
  exact ⟨fun h v hv => h v ⟨v, hv, .refl⟩, fun h v ⟨c, hc, _⟩ => h c hc⟩

lemma order_ofRows {β : Type} {rows : List α} {items : α → List β} {isOut : β → Bool}
    {place : β → Nat} (hacyc : (ofRows rows items isOut place).layers.cyclic = false) :
    (ofRows rows items isOut place).layers.order.Nodup ∧
      (∀ i, i ∈ (ofRows rows items isOut place).layers.order ↔ i < rows.length) ∧
      ∀ before i after, (ofRows rows items isOut place).layers.order = before ++ i :: after →
        ∀ x, rows[i]? = some x → ∀ y ∈ items x, place y < rows.length →
          isOut y ∨ place y ∈ before := by
  obtain ⟨hnodup, hmem, hfirst⟩ := layers_order bounded_ofRows hacyc
  rw [size_ofRows] at hmem
  refine ⟨hnodup, hmem, fun before i after hsplit x hx y hy hlt => ?_⟩
  cases hout : isOut y with
  | true => exact .inl rfl
  | false => exact .inr (hfirst before i after hsplit _
    (mem_next_ofRows.2 ⟨hlt, x, hx, y, hy, hout, rfl⟩))

/-! ## Searches -/

section

variable {step : α → α → Prop} {seen seen' waits waits' later : α → Prop} {node : α}

/-- What a search has seen leads to what it has seen or to what waits. -/
def Closes (step : α → α → Prop) (seen waits : α → Prop) : Prop :=
  ∀ u v, seen u → step u v → seen v ∨ waits v

/-- What was seen, and what is on a way from what waits. -/
def Finds (step : α → α → Prop) (seen waits : α → Prop) (v : α) : Prop :=
  seen v ∨ ∃ u, waits u ∧ ReflTransGen step u v

variable (h : Closes step seen waits) (hwaits : ∀ v, waits v ↔ v = node ∨ later v)
include h hwaits

lemma Closes.skip (hnode : seen node) :
    Closes step seen later ∧ ∀ v, Finds step seen waits v ↔ Finds step seen later v := by
  have hcloses : Closes step seen later := fun u v hu hstep =>
    (h u v hu hstep).elim .inl fun hv => ((hwaits v).1 hv).imp_left (by rintro rfl; exact hnode)
  refine ⟨hcloses, fun v => ⟨?_, Or.imp_right fun ⟨u, hu, hway⟩ =>
    ⟨u, (hwaits u).2 (.inr hu), hway⟩⟩⟩
  rintro (hv | ⟨u, hu, hway⟩)
  · exact .inl hv
  · rcases (hwaits u).1 hu with rfl | hu
    · -- where a way from the node leaves what was seen, something else waits
      induction hway with
      | refl => exact .inl hnode
      | tail _ hstep ih =>
        rcases ih with hseen | ⟨w, hw, hway⟩
        · exact (hcloses _ _ hseen hstep).imp_right fun hw => ⟨_, hw, .refl⟩
        · exact .inr ⟨w, hw, hway.tail hstep⟩
    · exact .inr ⟨u, hu, hway⟩

lemma Closes.expand (hseen : ∀ v, seen' v ↔ seen v ∨ v = node)
    (hlater : ∀ v, waits' v ↔ step node v ∨ later v) :
    Closes step seen' waits' ∧ ∀ v, Finds step seen waits v ↔ Finds step seen' waits' v := by
  refine ⟨fun u v hu hstep => ?_, fun v => ⟨?_, ?_⟩⟩
  · rw [hseen, hlater]
    rcases (hseen u).1 hu with hu | rfl
    · have hv := h u v hu hstep
      rw [hwaits] at hv
      tauto
    · exact .inr (.inl hstep)
  · rintro (hv | ⟨u, hu, hway⟩)
    · exact .inl ((hseen v).2 (.inl hv))
    · rcases (hwaits u).1 hu with rfl | hu
      · rcases hway.cases_head with rfl | ⟨w, hstep, hrest⟩
        · exact .inl ((hseen _).2 (.inr rfl))
        · exact .inr ⟨w, (hlater w).2 (.inl hstep), hrest⟩
      · exact .inr ⟨u, (hlater u).2 (.inr hu), hway⟩
  · rintro (hv | ⟨u, hu, hway⟩)
    · refine ((hseen v).1 hv).imp_right ?_
      rintro rfl
      exact ⟨v, (hwaits v).2 (.inl rfl), .refl⟩
    · rcases (hlater u).1 hu with hstep | hu
      · exact .inr ⟨node, (hwaits node).2 (.inl rfl), .head hstep hway⟩
      · exact .inr ⟨u, (hwaits u).2 (.inr hu), hway⟩

end

/-! ## Batches -/

inductive Way (g : Graph) : Nat → Nat → Prop
  | start (v : Nat) : Way g 0 v
  | step {k u v : Nat} (h : Way g k u) (huv : g.Precedes u v) : Way g (k + 1) v

lemma wavesFrom_way (hg : g.Bounded) (fuel i : Nat) (h : g.Layered taken wave counts)
    (hle : ∀ v ∈ taken ++ wave, ∀ k, g.Way k v → k ≤ i) (hway : ∀ v ∈ wave, g.Way i v)
    (hsorted : wave.Pairwise (· ≤ ·)) {j : Nat} {batch : List Nat}
    (hbatch : (g.wavesFrom fuel counts wave).1[j]? = some batch) :
    batch.Pairwise (· < ·) ∧ ∀ v ∈ batch, IsGreatest {k | g.Way k v} (i + j) := by
  induction fuel generalizing taken wave counts i j with
  | zero => simp [wavesFrom] at hbatch
  | succ fuel ih =>
    cases wave with
    | nil => simp [wavesFrom] at hbatch
    | cons first rest =>
      cases j with
      | zero =>
        obtain rfl : first :: rest = batch := by simpa [wavesFrom] using hbatch
        refine ⟨(hsorted.and (nodup_append'.1 h.nodup).2.1).imp fun hab => by omega, fun v hv => ?_⟩
        exact ⟨hway v hv, hle v (mem_append_right _ hv)⟩
      | succ j =>
        have hnext := h.takeWave hg
        rw [show i + (j + 1) = i + 1 + j by omega]
        refine ih (i + 1) hnext (fun v hv k hk => ?_) (fun v hv => ?_) ?_
          (by simpa [wavesFrom] using hbatch)
        · cases hk with
          | start => omega
          | step hk huv =>
            have hu := mem_taken_of_pending ((hnext.mem_iff v).1 hv).2 huv
            exact Nat.succ_le_succ (hle _ hu _ hk)
        · -- the wave before has taken the last edge into the node away
          have hnew := (nodup_append'.1 hnext.nodup).2.2
          obtain ⟨hlt, hzero⟩ := (hnext.mem_iff v).1 (mem_append_right _ hv)
          have hpos : g.pending taken v ≠ 0 := fun h0 => hnew ((h.mem_iff v).2 ⟨hlt, h0⟩) hv
          obtain ⟨u, hu, huv⟩ := mem_flatMap.1 (not_not.1 fun hn => hpos (count_eq_zero.2 hn))
          have hin := (mem_append.1 (mem_taken_of_pending hzero huv)).resolve_left
            (by simpa using (mem_filter.1 hu).2)
          exact .step (hway u hin) huv
        · exact (pairwise_mergeSort (by simp; omega) (by simp; omega) _).imp (by simp)

lemma foldlM_addEdge {n : Nat} {edges : List (Nat × Nat)} {g' : Graph} (hn : g.size = n)
    (h : edges.foldlM (fun g e => g.addEdge e.1 e.2) g = .ok g') :
    (∀ e ∈ edges, e.1 < n ∧ e.2 < n) ∧ g' = edges.foldl (fun g e => g.insertEdge e.1 e.2) g := by
  induction edges generalizing g with
  | nil =>
    cases h
    simp
  | cons e edges ih =>
    obtain ⟨next, hnext, hrest⟩ := foldlM_cons_ok h
    simp only [addEdge, Except.ok.injEq, reduceCtorEq, ite_eq_iff] at hnext
    grind [size_insertEdge]

/-- The order has every node that is not on or behind a cycle once, after its predecessors, in
ascending batches by the length of the longest way to it. -/
theorem batches_are_longest_ways (n : Nat) (edges : List (Nat × Nat)) (g : Graph)
    (h : edges.foldlM (fun g e => g.addEdge e.1 e.2) (empty n) = .ok g) :
    (∀ u v, g.Precedes u v ↔ (u, v) ∈ edges) ∧ g.layers.order.Nodup ∧
      (∀ v, v ∈ g.layers.order ↔
        v < n ∧ ¬ ∃ c, TransGen g.Precedes c c ∧ ReflTransGen g.Precedes c v) ∧
      (∀ u v, g.Precedes u v → v ∈ g.layers.order →
        g.layers.order.idxOf u < g.layers.order.idxOf v) ∧
      (∀ i batch, g.layers.batches[i]? = some batch →
        batch.Pairwise (· < ·) ∧ ∀ v ∈ batch, IsGreatest {k | g.Way k v} i) ∧
      (g.layers.cyclic = true ↔ ∃ v, TransGen g.Precedes v v) ∧
      g.layers.cycles.Pairwise (· < ·) ∧ ∀ v, v ∈ g.layers.cycles ↔
        ∃ c, TransGen g.Precedes c c ∧ ReflTransGen g.Precedes c v := by
  obtain ⟨hrange, hg⟩ := foldlM_addEdge (size_empty n) h
  obtain ⟨hsize, hnext⟩ := mem_next_insertEdges edges (empty n)
  rw [← hg, size_empty] at hsize hnext
  have hedges : ∀ u v, g.Precedes u v ↔ (u, v) ∈ edges := by
    intro u v
    refine (hnext u v).trans ?_
    rw [or_iff_right (not_mem_next_empty n u v)]
    exact and_iff_left_of_imp (hrange (u, v))
  have hbounded : g.Bounded := fun u v huv => hsize ▸ (hrange _ ((hedges u v).1 huv)).2
  have hfilter : ∀ (c : Array Nat) (test : Nat → Bool), (indicesWhere c test).Pairwise (· < ·) :=
    fun c test => pairwise_lt_range.filter _
  refine ⟨hedges, nodup_order hbounded, fun v => ?_, fun u v huv hv => ?_, ?_, ?_, hfilter _ _,
    fun v => mem_cycles_iff hbounded⟩
  · have hall := (layered_layers hbounded).mem_iff v
    rw [← mem_cycles_iff hbounded, mem_cycles hbounded, ← hsize]
    rw [append_nil] at hall
    tauto
  · exact (idxOf_lt_of_transGen hbounded (.single huv) hv).2
  · intro i batch hbatch
    have hstart := g.layered_start
    have hpreds : ∀ v ∈ indicesWhere g.indegrees (· == 0), ∀ k, g.Way k v → k ≤ 0 := by
      intro v hv k hk
      cases hk with
      | start => exact Nat.le_refl 0
      | step _ huv => exact absurd (mem_taken_of_pending ((hstart.mem_iff v).1 hv).2 huv) not_mem_nil
    have hwaves := wavesFrom_way hbounded (g.size + 1) 0 hstart hpreds (fun v _ => .start v)
      ((hfilter _ _).imp Nat.le_of_lt) hbatch
    rwa [Nat.zero_add] at hwaves
  · rw [← Bool.not_eq_false, cyclic_eq_false_iff hbounded]
    simp

theorem batches_around_a_loop :
    let edges := [(0, 2), (1, 2), (2, 3), (2, 3), (4, 4), (4, 5)]
    let g : Graph := ⟨#[[2], [2], [3], [], [4, 5], []]⟩
    edges.foldlM (fun g e => g.addEdge e.1 e.2) (empty 6) = .ok g ∧
      g.layers = ⟨[[0, 1], [2], [3]], [4, 5]⟩ ∧ ∀ v ∈ [3], IsGreatest {k | g.Way k v} 2 := by
  intro edges g
  have hlayers : g.layers = ⟨[[0, 1], [2], [3]], [4, 5]⟩ := by decide +kernel
  refine ⟨rfl, hlayers, ((batches_are_longest_ways 6 edges g rfl).2.2.2.2.1 2 [3] ?_).2⟩
  rw [hlayers]
  rfl

end Sierra.Graph
