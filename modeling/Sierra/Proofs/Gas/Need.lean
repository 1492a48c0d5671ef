import Sierra.Gas.Amounts
import Sierra.Proofs.Flow
import Sierra.Proofs.Graph

/-!
# What must have been paid before a statement

Needs are computed with successors first, so that each covers every branch with what is due where
the branch goes (`needs_eq`).
-/

namespace Sierra

open List Option

namespace Gas

open Flow (Node Edge Explored)

variable {s : Settled} {g : Flow} {cut : Array Bool} {need : Array Int} {e : Edge} {b i k : Nat}
  {n : Node} {p : Prices} {v : View}

/-! ## Places -/

lemma getElem?_ofFlow : (View.ofFlow g).nodes[k]? = g.order[k]? := by
  rw [View.ofFlow, getElem?_toArray]

lemma mem_order_of_getElem? (hk : (View.ofFlow g).nodes[k]? = some n) : n ∈ g.order := by
  rw [getElem?_ofFlow] at hk
  exact mem_of_getElem? hk

lemma place_eq (h : g.Explored s)
    (hk : (View.ofFlow g).nodes[k]? = some n) : (View.ofFlow g).place n.index = k := by
  have horder := hk
  rw [getElem?_ofFlow] at horder
  obtain ⟨hpos, hlt⟩ := h.index_nonneg (mem_of_getElem? horder)
  rw [← Array.size_replicate (n := g.nodes.size) (v := 0)] at hlt
  obtain ⟨⟨m, j⟩, hm, hkey, hval⟩ := foldl_modify (fun b : Node × Nat => b.1.index.toNat)
    (fun b => b.2) (mk_mem_zipIdx_iff_getElem?.2 horder) hlt
  have hj : g.order[j]? = some m := mk_mem_zipIdx_iff_getElem?.1 hm
  obtain ⟨hpos', -⟩ := h.index_nonneg (mem_of_getElem? hj)
  have hidx : m.index = n.index := by
    dsimp only at hkey
    omega
  have hplace : j = k := by
    obtain ⟨hjlt, -⟩ := List.getElem?_eq_some_iff.1 hj
    refine (getElem?_inj (by rw [length_map]; exact hjlt) h.nodup_index).1 ?_
    rw [getElem?_map, getElem?_map, hj, horder, map_some, map_some, hidx]
  have hfind : (View.ofFlow g).places[n.index.toNat]? = some j := hval
  rw [View.place, hfind, hplace]
  rfl

lemma getElem?_place (h : g.Explored s) (hn : n ∈ g.order) :
    (View.ofFlow g).nodes[(View.ofFlow g).place n.index]? = some n := by
  obtain ⟨k, hk⟩ := mem_iff_getElem?.1 hn
  rw [← getElem?_ofFlow] at hk
  rw [place_eq h hk]
  exact hk

lemma exists_getElem?_target (h : g.Explored s)
    (hk : (View.ofFlow g).nodes[k]? = some n) (he : e ∈ n.edges) :
    ∃ m, (View.ofFlow g).nodes[(View.ofFlow g).place e.target]? = some m ∧ m.index = e.target := by
  obtain ⟨m, hm, htarget⟩ := h.exists_target (mem_order_of_getElem? hk) he
  exact ⟨m, htarget ▸ getElem?_place h hm, htarget⟩

lemma exists_getElem?_entry (h : g.Explored s) :
    ∃ m, (View.ofFlow g).nodes[(View.ofFlow g).entry]? = some m := by
  obtain ⟨n, hn, -⟩ := h.entry
  have hidx := (h.visited_of_node? hn).2
  have hplace := getElem?_place h (Flow.mem_order_of_node? hn)
  rw [hidx] at hplace
  exact ⟨n, hplace⟩

/-! ## The order in which needs are computed -/

lemma needGraph_eq (v : View) (cut : Array Bool) : needGraph v cut = .ofRows v.nodes.toList
    dependencies (fun d => Amounts.isCut cut (v.place d.1.target)) fun d => v.place d.1.target := rfl

/-! ## Values computed in an order -/

/-- Computes the value at a position from all values. -/
def setValue (v : View) (value : Array Int → Node → Int) (values : Array Int) (i : Nat) :
    Array Int :=
  match v.nodes[i]? with
  | none => values
  | some n => values.modify i fun _ => value values n

section

variable {value : Array Int → Node → Int} {values : Array Int} {order : List Nat}

lemma getElem?_setValue_of_ne (h : i ≠ k) : (setValue v value values i)[k]? = values[k]? := by
  unfold setValue
  split
  · rfl
  · rw [Array.getElem?_modify, if_neg h]

lemma getElem?_foldl_of_notMem (hi : i ∉ order) :
    (order.foldl (setValue v value) values)[i]? = values[i]? := by
  induction order generalizing values with
  | nil => rfl
  | cons j order ih =>
    obtain ⟨hne, hi⟩ := not_or.1 (mt mem_cons.2 hi)
    rw [foldl_cons, ih hi, getElem?_setValue_of_ne (Ne.symm hne)]

lemma size_foldl_setValue (order : List Nat) (values : Array Int) :
    (order.foldl (setValue v value) values).size = values.size := by
  refine foldlRecOn (motive := fun values' : Array Int => values'.size = values.size) order _ rfl
    fun values' hvals i _ => ?_
  unfold setValue
  split
  · exact hvals
  · exact Array.size_modify.trans hvals

lemma getElem?_foldl_setValue (value : Array Int → Node → Int) (hnodup : order.Nodup)
    {before after : List Nat} (hsplit : order = before ++ i :: after) (hi : v.nodes[i]? = some n)
    (hsize : values.size = v.size)
    (hread : ∀ values values', (∀ j ∈ before, values[j]? = values'[j]?) →
      value values n = value values' n) :
    (order.foldl (setValue v value) values)[i]? =
      some (value (order.foldl (setValue v value) values) n) := by
  subst hsplit
  obtain ⟨-, hrest, hdisj⟩ := nodup_append'.1 hnodup
  obtain ⟨hlt, -⟩ := Array.getElem?_eq_some_iff.1 hi
  have hlt' : i < (before.foldl (setValue v value) values).size := by
    rw [size_foldl_setValue, hsize]
    exact hlt
  have hset : (setValue v value (before.foldl (setValue v value) values) i)[i]? =
      some (value (before.foldl (setValue v value) values) n) := by
    rw [setValue, hi]
    rw [Array.getElem?_modify, if_pos rfl, Array.getElem?_eq_getElem hlt']
    rfl
  rw [foldl_append, foldl_cons, getElem?_foldl_of_notMem (nodup_cons.1 hrest).1, hset]
  refine congrArg some (hread _ _ fun j hj => ?_)
  -- what was set before is not set again
  obtain ⟨hne, hj⟩ := not_or.1 (mt mem_cons.2 (hdisj hj))
  rw [getElem?_foldl_of_notMem hj, getElem?_setValue_of_ne (Ne.symm hne)]

end

/-! ## Needs -/

def asks (p : Prices) (v : View) (cut : Array Bool) (need : Array Int) (n : Node)
    (entry : Edge × Nat) : Int :=
  let c := p.branchCost n entry.2
  if dependsOn n entry.2 then wrap64 (c + Amounts.dueAt cut need (v.place entry.1.target)) else c

lemma needOf_eq (p : Prices) (v : View) (cut : Array Bool) (need : Array Int) (n : Node) :
    needOf p v cut need n = (n.edges.zipIdx.map (asks p v cut need n)).foldl max 0 := by
  rw [foldl_map]
  rfl

lemma needOf_congr {need' : Array Int}
    (h : ∀ d ∈ dependencies n, Amounts.dueAt cut need (v.place d.1.target) =
      Amounts.dueAt cut need' (v.place d.1.target)) :
    needOf p v cut need n = needOf p v cut need' n := by
  rw [needOf_eq, needOf_eq]
  congr 1
  refine map_congr_left fun entry hentry => ?_
  unfold asks
  by_cases hdep : dependsOn n entry.2
  · have hmem : entry ∈ dependencies n := mem_filter.2 ⟨hentry, hdep⟩
    rw [if_pos hdep, if_pos hdep, h entry hmem]
  · rw [if_neg hdep, if_neg hdep]

abbrev needStep (p : Prices) (v : View) (cut : Array Bool) (need : Array Int) (i : Nat) :
    Array Int :=
  match v.nodes[i]? with
  | none => need
  | some n => need.modify i fun _ => needOf p v cut need n

/-- Dependencies pay for themselves or are in the list. -/
def DependsIn (v : View) (cut : Array Bool) (i : Nat) (done : List Nat) : Prop :=
  ∀ n, v.nodes[i]? = some n → ∀ d ∈ dependencies n,
    Amounts.isCut cut (v.place d.1.target) = true ∨ v.place d.1.target ∈ done

lemma needGraph_order (h : g.Explored s)
    (hacyc : (needGraph (View.ofFlow g) cut).layers.cyclic = false) :
    (needGraph (View.ofFlow g) cut).layers.order.Nodup ∧
      (∀ i, i ∈ (needGraph (View.ofFlow g) cut).layers.order ↔ i < (View.ofFlow g).size) ∧
      ∀ before i after, (needGraph (View.ofFlow g) cut).layers.order = before ++ i :: after →
        DependsIn (View.ofFlow g) cut i before := by
  obtain ⟨hnodup, hmem, hfirst⟩ := Graph.order_ofRows hacyc
  refine ⟨hnodup, hmem, fun before i after hsplit n hn d hd => ?_⟩
  have he : d.1 ∈ n.edges := mem_of_getElem? (mem_zipIdx_iff_getElem?.1 (mem_filter.1 hd).1)
  obtain ⟨m, hm, -⟩ := exists_getElem?_target h hn he
  rw [← Array.getElem?_toList] at hn
  exact hfirst before i after hsplit n hn d hd (Array.getElem?_eq_some_iff.1 hm).1

lemma needs_eq (h : g.Explored s) (hacyc : (needGraph (View.ofFlow g) cut).layers.cyclic = false)
    (hi : (View.ofFlow g).nodes[i]? = some n) :
    (needs p (View.ofFlow g) cut (needGraph (View.ofFlow g) cut).layers.order)[i]? =
      some (needOf p (View.ofFlow g) cut
        (needs p (View.ofFlow g) cut (needGraph (View.ofFlow g) cut).layers.order) n) := by
  obtain ⟨hnodup, hmem, hfirst⟩ := needGraph_order h hacyc
  obtain ⟨before, after, hsplit⟩ := append_of_mem ((hmem i).2 (Array.getElem?_eq_some_iff.1 hi).1)
  refine getElem?_foldl_setValue _ hnodup hsplit hi Array.size_replicate
    fun need need' hsame => needOf_congr fun d hd => ?_
  rw [Amounts.dueAt, Amounts.dueAt]
  rcases hfirst before i after hsplit n hi d hd with hcut | hpre
  · rw [if_pos hcut, if_pos hcut]
  · rw [hsame _ hpre]

/-! ## The amounts of a function -/

/-- Every need is the one that its branches ask for. -/
structure Amounts.Fits (p : Prices) (g : Flow) (a : Amounts) : Prop where
  view : a.view = View.ofFlow g
  need : ∀ (i : Nat) (n : Node), a.view.nodes[i]? = some n →
    a.need[i]? = some (needOf p a.view a.cut a.need n)

lemma fits_of_amountsOf (h : g.Explored s) {types : Types} {isRecursive dynamic : Bool}
    {a : Amounts} (ha : amountsOf types p isRecursive dynamic g = .ok a) :
    a.Fits p g ∧ a.cut = cutsOf p.metering isRecursive (View.ofFlow g) := by
  unfold amountsOf at ha
  dsimp only at ha
  split at ha
  · cases ha
  split at ha
  · cases ha
  · next hacyc =>
    simp only [pure, Except.pure, Except.ok.injEq] at ha
    subst ha
    refine ⟨⟨rfl, fun i n hi => ?_⟩, rfl⟩
    dsimp only at hi ⊢
    exact needs_eq h (Bool.eq_false_iff.2 hacyc) hi

/-- As an exact sum: its own cost and what the function called needs. -/
def Prices.cost (p : Prices) (n : Node) (branch : Nat) : Int :=
  p.ownCost n branch + (calleeOf n).elim 0 p.entryCost

lemma Prices.branchCost_eq (hmeter : p.metering)
    (hpos : 0 ≤ p.cost n b) (hlt : p.cost n b < (pow2 63 : Nat)) : p.branchCost n b = p.cost n b := by
  unfold Prices.branchCost
  rw [if_pos hmeter]
  unfold Prices.cost at hpos hlt ⊢
  cases hcall : calleeOf n with
  | none => simp
  | some callee =>
    rw [hcall] at hpos hlt
    exact wrap64_eq hpos hlt

namespace Amounts

variable {p : Prices} {a : Amounts}

def needAt (a : Amounts) (index : Int) : Int := (a.need[a.view.place index]?).getD 0

def dueFor (a : Amounts) (index : Int) : Int := a.due (a.view.place index)

lemma Fits.needAt_eq (h : a.Fits p g) (hg : g.Explored s) (hn : n ∈ g.order) :
    a.needAt n.index = needOf p a.view a.cut a.need n := by
  have hplace : a.view.nodes[a.view.place n.index]? = some n := by
    rw [h.view]
    exact getElem?_place hg hn
  rw [needAt, h.need _ n hplace]
  rfl

lemma Fits.needAt_nonneg (h : a.Fits p g) (hg : g.Explored s) (hn : n ∈ g.order) :
    0 ≤ a.needAt n.index := by
  rw [h.needAt_eq hg hn]
  exact (foldl_max_le_iff.1 (le_refl _)).1

lemma dueFor_eq (a : Amounts) (index : Int) :
    a.dueFor index = if isCut a.cut (a.view.place index) then 0 else a.needAt index := rfl

lemma Fits.dueFor_nonneg (h : a.Fits p g) (hg : g.Explored s) (hn : n ∈ g.order) :
    0 ≤ a.dueFor n.index := by
  rw [dueFor_eq]
  split
  · exact le_refl 0
  · exact h.needAt_nonneg hg hn

lemma Fits.dueFor_target_nonneg (h : a.Fits p g) (hg : g.Explored s) (hn : n ∈ g.order)
    (he : n.edges[b]? = some e) : 0 ≤ a.dueFor e.target := by
  obtain ⟨m, hm, htarget⟩ := hg.exists_target hn (mem_of_getElem? he)
  exact htarget ▸ h.dueFor_nonneg hg hm

section

variable (h : a.Fits p g) (hg : g.Explored s) (hmeter : p.metering = true) (hn : n ∈ g.order)
  (he : n.edges[b]? = some e) (hcost : 0 ≤ p.cost n b)
  (hexact : p.cost n b + a.dueFor e.target < (pow2 63 : Nat))

include h hg hmeter hn he hcost hexact

lemma Fits.asks_eq : asks p a.view a.cut a.need n (e, b) =
    p.cost n b + if dependsOn n b then a.dueFor e.target else 0 := by
  have hdue := h.dueFor_target_nonneg hg hn he
  have hbranch := Prices.branchCost_eq hmeter hcost (by omega)
  show (if dependsOn n b then wrap64 (p.branchCost n b + a.dueFor e.target)
    else p.branchCost n b) = _
  rw [hbranch, wrap64_eq (add_nonneg hcost hdue) hexact]
  split <;> simp

lemma Fits.covers :
    p.cost n b + (if dependsOn n b then a.dueFor e.target else 0) ≤ a.needAt n.index := by
  rw [← h.asks_eq hg hmeter hn he hcost hexact, h.needAt_eq hg hn, needOf_eq]
  exact (foldl_max_le_iff.1 (le_refl _)).2 _
    (mem_map.2 ⟨(e, b), mk_mem_zipIdx_iff_getElem?.2 he, rfl⟩)

end

end Amounts

end Gas

end Sierra
