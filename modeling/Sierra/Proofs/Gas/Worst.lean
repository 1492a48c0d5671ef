import Sierra.Proofs.Gas.Ways
import Sierra.Proofs.Typing.Linear

/-!
# The most expensive way through a function

The bound of a function is found in the order of calls, each call at the bound of the function
called.
-/

namespace Sierra.Gas

open List Relation Option View
open Flow (Node Edge Explored)

variable {s : Settled} {opts : Options} {flows : List Flow} {a : Analysis} {g : Flow} {n : Node}
  {p : Prices} {worst : FunctionId → Option Int} {i : Nat} {total : Array Int} {id : FunctionId}
  {v : View} {bound : Int} {e : Edge}

/-! ## The statement graph -/

def Follows (g : Flow) (i j : Int) : Prop :=
  ∃ n, g.node? i = some n ∧ ∃ e ∈ n.edges, e.target = j

def View.indexAt (v : View) (i : Nat) : Int := (v.nodes[i]?).elim (-1) (·.index)

lemma follows_of_edge (hg : g.Explored s) (hi : (ofFlow g).nodes[i]? = some n) (he : e ∈ n.edges) :
    Follows g ((ofFlow g).indexAt i) ((ofFlow g).indexAt ((ofFlow g).place e.target)) := by
  obtain ⟨m, hm, htarget⟩ := exists_getElem?_target hg hi he
  rw [indexAt, indexAt, hi, hm]
  exact ⟨n, hg.node?_index (mem_order_of_getElem? hi), e, he, htarget.symm⟩

lemma fullGraph_eq (v : View) : fullGraph v = .ofRows v.nodes.toList (·.edges) (fun _ => false)
    fun e => v.place e.target := rfl

def fullRank (g : Flow) (index : Int) : Nat :=
  (fullGraph (ofFlow g)).layers.order.idxOf ((ofFlow g).place index)

section

variable (hg : g.Explored s) (hacyc : (fullGraph (ofFlow g)).layers.cyclic = false)

include hg hacyc

lemma exists_order_split (hi : (ofFlow g).nodes[i]? = some n) :
    ∃ before after, (fullGraph (ofFlow g)).layers.order = before ++ i :: after ∧
      (fullGraph (ofFlow g)).layers.order.Nodup ∧
      ∀ e ∈ n.edges, (ofFlow g).place e.target ∈ before := by
  rw [fullGraph_eq] at hacyc ⊢
  obtain ⟨hnodup, hmem, hfirst⟩ := Graph.order_ofRows hacyc
  obtain ⟨before, after, hsplit⟩ := append_of_mem ((hmem i).2 (Array.getElem?_eq_some_iff.1 hi).1)
  refine ⟨before, after, hsplit, hnodup, fun e he => ?_⟩
  obtain ⟨m, hm, -⟩ := exists_getElem?_target hg hi he
  rw [← Array.getElem?_toList] at hi
  exact (hfirst before i after hsplit n hi e he (Array.getElem?_eq_some_iff.1 hm).1).resolve_left
    Bool.false_ne_true

lemma fullRank_lt {i j : Int} (h : Follows g i j) : fullRank g j < fullRank g i := by
  obtain ⟨n, hn, e, he, rfl⟩ := h
  have hidx := (hg.visited_of_node? hn).2
  have hplace := getElem?_place hg (Flow.mem_order_of_node? hn)
  rw [hidx] at hplace
  obtain ⟨before, after, hsplit, hnodup, hpre⟩ := exists_order_split hg hacyc hplace
  exact Graph.idxOf_lt_idxOf hnodup hsplit (hpre e he)

end

lemma cyclic_eq_false_iff (hg : g.Explored s) :
    (fullGraph (ofFlow g)).layers.cyclic = false ↔ ∀ i, ¬ TransGen (Follows g) i i := by
  rw [fullGraph_eq, Graph.cyclic_eq_false_iff Graph.bounded_ofRows]
  constructor
  · refine fun h i hi => h _ (hi.swap.lift (ofFlow g).place fun j i hfollow => ?_)
    obtain ⟨n, hn, e, he, rfl⟩ := hfollow
    have hplace := getElem?_place hg (Flow.mem_order_of_node? hn)
    rw [(hg.visited_of_node? hn).2] at hplace
    obtain ⟨m, hm, -⟩ := exists_getElem?_target hg hplace he
    rw [← Array.getElem?_toList] at hplace
    exact Graph.mem_next_ofRows.2 ⟨(Array.getElem?_eq_some_iff.1 hm).1, n, hplace, e, he, rfl, rfl⟩
  · refine fun h k hk => h _ (hk.swap.lift (ofFlow g).indexAt fun k t hstep => ?_)
    obtain ⟨-, n, hn, e, he, -, rfl⟩ := Graph.mem_next_ofRows.1 hstep
    rw [Array.getElem?_toList] at hn
    exact follows_of_edge hg hn he

abbrev View.due (v : View) : Array (List Nat) :=
  v.nodes.map fun n => (dependencies n).map fun d => v.place d.1.target

lemma View.leads_due {t : Nat} : Leads v.due i t ↔
    ∃ n, v.nodes[i]? = some n ∧ ∃ d ∈ dependencies n, v.place d.1.target = t := by
  rw [Leads, Array.getElem?_map]
  cases v.nodes[i]? <;> simp

lemma cutsOf_eq (hg : g.Explored s) (h : ∀ i, ¬ TransGen (Follows g) i i) (metering : Bool) :
    (cutsOf metering false (ofFlow g)).any (· == true) = false := by
  unfold cutsOf
  rw [Bool.false_and, if_neg Bool.false_ne_true, Array.any_eq_false]
  intro k hk hcut
  have hcycle := (loopHeads_spec (ofFlow g).due (ofFlow g).entry).2.1 k (by
    rw [Amounts.isCut, Array.getElem?_eq_getElem hk]
    exact beq_iff_eq.1 hcut)
  refine h _ (hcycle.lift (ofFlow g).indexAt fun k t hstep => ?_)
  obtain ⟨n, hn, d, hd, rfl⟩ := leads_due.1 hstep
  exact follows_of_edge hg hn (mem_of_getElem? (mem_zipIdx_iff_getElem?.1 (mem_filter.1 hd).1))

/-! ## The costs of ways -/

/-- What a call costs in the function called. -/
def innerOf (worst : FunctionId → Option Int) (n : Node) : Option Int :=
  (calleeOf n).elim (some 0) worst

/-- What a branch costs with the ways after it. -/
def onward (p : Prices) (worst : FunctionId → Option Int) (v : View) (total : Array Int) (n : Node)
    (x : Edge × Nat) : Int :=
  wrap64 ((calleeOf n).elim (p.ownCost n x.2) (fun callee =>
    wrap64 (p.ownCost n x.2 + (worst callee).getD 0)) + (total[v.place x.1.target]?).getD 0)

def dearest (p : Prices) (worst : FunctionId → Option Int) (v : View) (total : Array Int)
    (n : Node) : Int :=
  (n.edges.zipIdx.map (onward p worst v total n)).foldl max 0

lemma foldlM_eq_some {α β : Type} {step : β → α → Option β} {next : β → α → β}
    (h : ∀ b x, step b x = some (next b x)) (xs : List α) (b : β) :
    xs.foldlM step b = some (xs.foldl next b) := by
  induction xs generalizing b with
  | nil => rfl
  | cons x xs ih => rw [foldlM_cons, h, foldl_cons, ← ih, bind_eq_bind, bind_some]

lemma worstOf_eq_some (h : n.edges ≠ [] → (innerOf worst n).isSome) :
    worstOf p worst v total n = some (dearest p worst v total n) := by
  by_cases hedges : n.edges = []
  · simp [worstOf, dearest, hedges]
  unfold worstOf dearest
  rw [foldl_map]
  refine foldlM_eq_some (fun best x => ?_) _ _
  have hinner := h hedges
  unfold innerOf at hinner
  unfold onward
  cases hcallee : calleeOf n with
  | none => rfl
  | some callee =>
    rw [hcallee] at hinner
    obtain ⟨inner, hinner⟩ := isSome_iff_exists.1 hinner
    rw [elim_some] at hinner
    simp [hinner]

lemma worstOf_eq_none (hedges : n.edges ≠ [])
    (h : innerOf worst n = none) : worstOf p worst v total n = none := by
  unfold innerOf at h
  cases hcallee : calleeOf n with
  | none => rw [hcallee] at h; cases h
  | some callee =>
    rw [hcallee, elim_some] at h
    obtain ⟨e, es, hes⟩ := exists_cons_of_ne_nil hedges
    simp [worstOf, hes, hcallee, h]

/-- The costs of the most expensive ways. -/
def totalsOf (p : Prices) (worst : FunctionId → Option Int) (v : View) : Option (Array Int) :=
  if (fullGraph v).layers.cyclic then none
  else (fullGraph v).layers.order.foldlM (fun total i =>
    match v.nodes[i]? with
    | none => some total
    | some n => do
      let worst ← worstOf p worst v total n
      return total.modify i fun _ => worst) (Array.replicate v.size 0)

lemma worstCaseOf_eq (p : Prices) (worst : FunctionId → Option Int) (v : View) :
    worstCaseOf p worst v = (totalsOf p worst v).map fun total => (total[v.entry]?).getD 0 := by
  unfold worstCaseOf totalsOf
  dsimp only
  split
  · rfl
  · exact (map_eq_bind ..).symm

lemma totalsOf_eq_some (hacyc : (fullGraph (ofFlow g)).layers.cyclic = false)
    (h : ∀ n ∈ g.order, n.edges ≠ [] → (innerOf worst n).isSome) :
    totalsOf p worst (ofFlow g) = some ((fullGraph (ofFlow g)).layers.order.foldl
      (setValue (ofFlow g) (dearest p worst (ofFlow g)))
      (Array.replicate (ofFlow g).size 0)) := by
  rw [totalsOf, if_neg (by simp [hacyc])]
  refine foldlM_eq_some (fun total i => ?_) _ _
  unfold setValue
  cases hi : (ofFlow g).nodes[i]? with
  | none => rfl
  | some n =>
    dsimp only
    rw [worstOf_eq_some (h n (mem_order_of_getElem? hi))]
    rfl

lemma isSome_totalsOf_iff (hg : g.Explored s) :
    (totalsOf p worst (ofFlow g)).isSome ↔
      (∀ i, ¬ TransGen (Follows g) i i) ∧
        ∀ n ∈ g.order, n.edges ≠ [] → (innerOf worst n).isSome := by
  rw [← cyclic_eq_false_iff hg]
  refine ⟨fun h => ?_, fun ⟨hacyc, hinner⟩ => by rw [totalsOf_eq_some hacyc hinner]; rfl⟩
  cases hacyc : (fullGraph (ofFlow g)).layers.cyclic with
  | true =>
    rw [totalsOf, if_pos hacyc] at h
    cases h
  | false =>
    refine ⟨rfl, fun n hn hedges => ?_⟩
    by_contra hnone
    rw [Bool.not_eq_true, isSome_eq_false_iff, isNone_iff_eq_none] at hnone
    have hplace := getElem?_place hg hn
    obtain ⟨before, after, hsplit, -⟩ := exists_order_split hg hacyc hplace
    rw [totalsOf, hsplit] at h
    simp [hplace, worstOf_eq_none hedges hnone] at h

lemma totalsOf_congr {p' : Prices} {worst' : FunctionId → Option Int} (hcosts : p.costs = p'.costs)
    (hinner : ∀ n ∈ g.order, innerOf worst n = innerOf worst' n) :
    totalsOf p worst (ofFlow g) = totalsOf p' worst' (ofFlow g) := by
  have hworst : ∀ total, ∀ n ∈ g.order, worstOf p worst (ofFlow g) total n =
      worstOf p' worst' (ofFlow g) total n := by
    intro total n hn
    have hsame := hinner n hn
    unfold innerOf at hsame
    unfold worstOf Prices.ownCost
    rw [hcosts]
    cases hcallee : calleeOf n with
    | none => rfl
    | some callee =>
      rw [hcallee, elim_some, elim_some] at hsame
      simp only [hsame]
  unfold totalsOf
  congr
  funext total i
  cases hi : (ofFlow g).nodes[i]? with
  | none => rfl
  | some n => simp only [hworst total n (mem_order_of_getElem? hi)]

lemma getElem?_totalsOf (hg : g.Explored s) (h : totalsOf p worst (ofFlow g) = some total)
    (hi : (ofFlow g).nodes[i]? = some n) :
    total[i]? = some (dearest p worst (ofFlow g) total n) := by
  obtain ⟨hfree, hinner⟩ := (isSome_totalsOf_iff hg).1 (by rw [h]; rfl)
  have hacyc := (cyclic_eq_false_iff hg).2 hfree
  rw [totalsOf_eq_some hacyc hinner] at h
  cases h
  obtain ⟨before, after, hsplit, hnodup, hpre⟩ := exists_order_split hg hacyc hi
  refine getElem?_foldl_setValue (dearest p worst (ofFlow g)) hnodup hsplit hi Array.size_replicate
    fun values values' hsame => ?_
  refine congrArg (fun costs : List Int => costs.foldl max 0) (map_congr_left fun x hx => ?_)
  rw [onward, onward, hsame _ (hpre x.1 (mem_of_getElem? (mk_mem_zipIdx_iff_getElem?.1 hx)))]

def totalAt (g : Flow) (total : Array Int) (index : Int) : Int :=
  (total[(ofFlow g).place index]?).getD 0

lemma totalAt_nonneg (hg : g.Explored s) (h : totalsOf p worst (ofFlow g) = some total)
    (hn : n ∈ g.order) : 0 ≤ totalAt g total n.index := by
  rw [totalAt, getElem?_totalsOf hg h (getElem?_place hg hn)]
  exact (foldl_max_le_iff.1 (le_refl _)).1

/-! ## Cycles of calls -/

def Calls (flows : List Flow) (g f : Flow) : Prop :=
  g ∈ flows ∧ f ∈ flows ∧
    ∃ n ∈ g.order, ∃ callee, calleeOf n = some callee ∧ f.function.id.number = callee.number

section

variable {calls : Array (List Nat)} (hcalls : callGraph flows = .ok calls)
include hcalls

lemma leads_iff {j : Nat} : Leads calls i j ↔ ∃ g, flows[i]? = some g ∧ ∃ n ∈ g.order,
    ∃ callee, calleeOf n = some callee ∧
      flows.findIdx? (fun other => other.function.id.same callee) = some j := by
  obtain ⟨hsize, hrows⟩ := callGraph_eq_ok hcalls
  rw [Leads]
  cases hi : flows[i]? with
  | none =>
    rw [getElem?_eq_none_iff, ← hsize] at hi
    simp [hi]
  | some g =>
    obtain ⟨row, hrow, hfound⟩ := hrows i g hi
    rw [hrow]
    constructor
    · intro hj
      obtain ⟨callee, hcallee, hplace⟩ := (forall₂_mem hfound).2 j hj
      obtain ⟨n, hn, hn'⟩ := mem_filterMap.1 hcallee
      exact ⟨g, rfl, n, hn, callee, hn', hplace⟩
    · rintro ⟨_, ⟨⟩, n, hn, callee, hcallee, hplace⟩
      obtain ⟨k, hk, hk'⟩ := (forall₂_mem hfound).1 callee (mem_filterMap.2 ⟨n, hn, hcallee⟩)
      rwa [some.inj (hplace.symm.trans hk')]

omit hcalls in
lemma findIdx?_of_number (hdistinct : DistinctIds flows) (hi : flows[i]? = some g)
    (hnum : g.function.id.number = id.number) :
    flows.findIdx? (fun other => other.function.id.same id) = some i := by
  obtain ⟨hlt, rfl⟩ := List.getElem?_eq_some_iff.1 hi
  refine findIdx?_eq_some_iff_getElem.2 ⟨hlt, by simpa [Ident.same] using hnum, fun j hj hsame => ?_⟩
  have heq := hdistinct.eq_of_number hi (getElem?_eq_getElem (hj.trans hlt))
    (hnum.trans (beq_iff_eq.1 hsame).symm)
  omega

lemma recursiveNumbers_iff (hdistinct : DistinctIds flows) (hg : g ∈ flows) :
    (recursiveNumbers flows).contains g.function.id.number ↔ TransGen (Calls flows) g g := by
  obtain ⟨i, hi⟩ := mem_iff_getElem?.1 hg
  have hrec : (recursiveNumbers flows).contains g.function.id.number ↔
      isRecursive calls i := by
    rw [contains_iff_mem, recursiveNumbers, hcalls, mem_filterMap]
    constructor
    · rintro ⟨j, hj, hnum⟩
      obtain ⟨f, hf, hsame⟩ := map_eq_some_iff.1 hnum
      exact hdistinct.eq_of_number hf hi hsame ▸ (mem_filter.1 hj).2
    · intro hyes
      refine ⟨i, mem_filter.2 ⟨mem_range.2 (List.getElem?_eq_some_iff.1 hi).1, hyes⟩, ?_⟩
      rw [hi, map_some]
  let flowAt (k : Nat) := (flows[k]?).getD g
  let place (f : Flow) := (flows.findIdx? fun other => other.function.id.same f.function.id).getD 0
  have hflowAt {k f} (hk : flows[k]? = some f) : flowAt k = f := by
    simp only [flowAt, hk, getD_some]
  have hplace {k f} (hk : flows[k]? = some f) : place f = k := by
    simp only [place, findIdx?_of_number hdistinct hk rfl, getD_some]
  rw [hrec, isRecursive_iff]
  constructor <;> intro hway
  · have hlift : TransGen (Calls flows) (flowAt i) (flowAt i) := hway.lift flowAt fun k l hlead => by
      obtain ⟨f, hf, n, hn, callee, hcallee, hfound⟩ := (leads_iff hcalls).1 hlead
      obtain ⟨hlt, hsame, -⟩ := findIdx?_eq_some_iff_getElem.1 hfound
      show Calls flows (flowAt k) (flowAt l)
      rw [hflowAt hf, hflowAt (getElem?_eq_getElem hlt)]
      exact ⟨mem_of_getElem? hf, getElem_mem hlt, n, hn, callee, hcallee, beq_iff_eq.1 hsame⟩
    rwa [hflowAt hi] at hlift
  · have hlift : TransGen (Leads calls) (place g) (place g) := hway.lift place fun f f' hcall => by
      obtain ⟨hf, hf', n, hn, callee, hcallee, hnum⟩ := hcall
      obtain ⟨k, hk⟩ := mem_iff_getElem?.1 hf
      obtain ⟨l, hl⟩ := mem_iff_getElem?.1 hf'
      show Leads calls (place f) (place f')
      rw [hplace hk, hplace hl]
      exact (leads_iff hcalls).2
        ⟨f, hk, n, hn, callee, hcallee, findIdx?_of_number hdistinct hl hnum⟩
    rwa [hplace hi] at hlift

end

/-! ## The functions of a program -/

def Analysis.bound? (a : Analysis) (id : FunctionId) : Option Int :=
  (a.func? id).elim (some 0) (·.worst)

lemma Analysis.func?_congr {id' : FunctionId} (h : id.number = id'.number) :
    a.func? id = a.func? id' := by
  simp only [Analysis.func?, Ident.same, h]

lemma Analysis.worstCase_eq (a : Analysis) (id : FunctionId) :
    a.worstCase id = (a.bound? id).map toAmount := by
  rw [worstCase, bound?]
  cases a.func? id <;> rfl

section

variable {metering : Bool} {start : Analysis} {calls : Array (List Nat)} {order : List Nat}
  (h : Steps s opts flows metering start calls order a) (hdistinct : DistinctIds flows)

include h hdistinct

/-- What holds of a function when it does of the non-recursive ones it calls holds of all functions.
-/
lemma Steps.induction {motive : Flow → Prop} (hstep : ∀ g ∈ flows, (∀ n ∈ g.order, ∀ callee,
      calleeOf n = some callee → (recursiveNumbers flows).contains callee.number = false →
        ∃ f ∈ flows, f.function.id.number = callee.number ∧ motive f) → motive g)
    (hg : g ∈ flows) : motive g := by
  obtain ⟨family, -, -, hmem, hids, hcallees⟩ := h.exists_family hdistinct
  induction hk : functionRank family g using Nat.strong_induction_on generalizing g with
  | _ k ih =>
    refine hstep g hg fun n hn callee hcallee hnum => ?_
    obtain ⟨x, hx, rfl⟩ := mem_map.1 ((hmem g).2 hg)
    obtain ⟨before, after, hsplit⟩ := append_of_mem hx
    rcases hcallees before x after hsplit n hn callee hcallee with hyes | ⟨y, hy, hid⟩
    · cases hnum.symm.trans hyes
    · have hy' : y.1 ∈ flows :=
        (hmem _).1 (mem_map_of_mem (hsplit ▸ mem_append_left _ hy : y ∈ family))
      exact ⟨y.1, hy', hid,
        ih _ (hk ▸ functionRank_lt hcallees hids hx hn hcallee hnum hid) hy' rfl⟩

lemma Steps.exists_func (hg : g ∈ flows) : ∃ between amounts f,
    amountsOf s.types (pricesAt metering (recursiveNumbers flows) between)
      ((recursiveNumbers flows).contains g.function.id.number) opts.dynamic g = .ok amounts ∧
    a.func? g.function.id = some f ∧ a.costs = between.costs ∧
    (∀ n ∈ g.order, ∀ callee, calleeOf n = some callee →
      (recursiveNumbers flows).contains callee.number ∨
        between.func? callee = a.func? callee) ∧
    f.worst = if (recursiveNumbers flows).contains g.function.id.number ||
        amounts.cut.any (· == true) then none
      else worstCaseOf (pricesAt metering (recursiveNumbers flows) between) (fun f =>
        if (recursiveNumbers flows).contains f.number then none
        else (between.func? f).elim (some 0) (·.worst)) amounts.view := by
  obtain ⟨family, hrun, hfam, hmem, hids, hcallees⟩ := h.exists_family hdistinct
  obtain ⟨x, hx, rfl⟩ := mem_map.1 ((hmem g).2 hg)
  obtain ⟨before, after, hsplit⟩ := append_of_mem hx
  have hsteps := h.run
  rw [← hfam, hsplit, map_append, foldlM_append] at hsteps
  obtain ⟨between, hpre, hrest⟩ := except_bind_eq_ok.1 hsteps
  obtain ⟨next, hstep, hafter⟩ := foldlM_cons_ok hrest
  obtain ⟨first, hfirst, hbeforeRun⟩ := analyses_of_foldlM hpre
  obtain ⟨_, -, hrestRun⟩ := analyses_of_foldlM hrest
  obtain ⟨_, -, hafterRun⟩ := analyses_of_foldlM hafter
  rw [hsplit, map_append, DistinctIds, map_append, ← hfirst] at hids
  obtain ⟨hfirstIds, -, hdisj⟩ := nodup_append'.1 hids
  obtain ⟨amounts, hamts, hstep⟩ := except_bind_eq_ok.1 hstep
  obtain ⟨ap, -, hstep⟩ := except_bind_eq_ok.1 hstep
  cases hstep
  refine ⟨between, amounts, ⟨x.1.function.id, x.1.indices, amounts.entry, _, ap⟩, hamts,
    hafterRun.func?_of_func? ?_, hrestRun.funcs.1, fun n hn callee hcallee => ?_, rfl⟩
  · -- the function has not been looked at before
    have hnone : between.func? x.1.function.id = none := by
      cases hfound : between.func? x.1.function.id with
      | none => rfl
      | some f =>
        obtain ⟨y, hy, hsame, -⟩ := hbeforeRun.exists_of_func? h.fresh.funcs hfound
        exact absurd (hsame ▸ mem_cons_self) (hdisj (mem_map.2 ⟨y.1, mem_map_of_mem hy, rfl⟩))
    rw [Analysis.func?, Analysis.record, find?_append,
      show between.funcs.find? _ = none from hnone, none_or, find?_singleton,
      if_pos (Ident.same_self _)]
    rfl
  · rcases hcallees before x after hsplit n hn callee hcallee with hrec | ⟨y, hy, hid⟩
    · exact .inl hrec
    · obtain ⟨y', hy', hsame⟩ := mem_map.1 (hfirst ▸ mem_map_of_mem hy : y.1 ∈ first.map (·.1))
      obtain ⟨f, hf, -⟩ := map_eq_some_iff.1
        (hbeforeRun.func? h.fresh.funcs hfirstIds hy' (hsame ▸ hid))
      exact .inr (hf.trans (hrestRun.func?_of_func? hf).symm)

omit h hdistinct in
lemma exists_of_recursiveNumbers {number : Nat} (hnum : (recursiveNumbers flows).contains number) :
    ∃ g ∈ flows, g.function.id.number = number := by
  rw [contains_iff_mem, recursiveNumbers] at hnum
  split at hnum
  · obtain ⟨i, -, hi⟩ := mem_filterMap.1 hnum
    obtain ⟨g, hg, rfl⟩ := map_eq_some_iff.1 hi
    exact ⟨g, mem_of_getElem? hg, rfl⟩
  · cases hnum

lemma Steps.bound?_of_recursive
    (hid : (recursiveNumbers flows).contains id.number) : a.bound? id = none := by
  obtain ⟨g, hg, hnum⟩ := exists_of_recursiveNumbers hid
  obtain ⟨between, amounts, f, -, hf, -, -, hworst⟩ := h.exists_func hdistinct hg
  rw [hnum, hid, Bool.true_or, if_pos rfl] at hworst
  rw [Analysis.bound?, Analysis.func?_congr hnum.symm, hf, elim_some, hworst]

lemma Steps.bound?_eq (hflows : ∀ g ∈ flows, g.Explored s) (hg : g ∈ flows) :
    a.bound? g.function.id =
      if (recursiveNumbers flows).contains g.function.id.number then none
      else (totalsOf a.prices a.bound? (ofFlow g)).map fun total =>
        totalAt g total g.function.entry := by
  obtain ⟨between, amounts, f, hamts, hf, hcosts, hcallees, hworst⟩ :=
    h.exists_func hdistinct hg
  obtain ⟨hfits, hcut⟩ := fits_of_amountsOf (hflows g hg) hamts
  rw [Analysis.bound?, hf, elim_some, hworst, hcut, hfits.view]
  have hinner : ∀ n ∈ g.order, innerOf (fun f => if (recursiveNumbers flows).contains f.number
      then none else (between.func? f).elim (some 0) (·.worst)) n = innerOf a.bound? n := by
    intro n hn
    unfold innerOf
    cases hcallee : calleeOf n with
    | none => rfl
    | some callee =>
      rw [elim_some, elim_some]
      cases hnum : (recursiveNumbers flows).contains callee.number with
      | true => rw [if_pos rfl, h.bound?_of_recursive hdistinct hnum]
      | false =>
        rcases hcallees n hn callee hcallee with hyes | hsame
        · cases hnum.symm.trans hyes
        · rw [if_neg Bool.false_ne_true, hsame, Analysis.bound?]
  have hsame : totalsOf (pricesAt metering (recursiveNumbers flows) between) _ (ofFlow g) =
      totalsOf a.prices a.bound? (ofFlow g) := totalsOf_congr hcosts.symm hinner
  rw [worstCaseOf_eq, hsame]
  cases hrec : (recursiveNumbers flows).contains g.function.id.number with
  | true => rw [Bool.true_or, if_pos rfl, if_pos rfl]
  | false =>
    cases htotals : totalsOf a.prices a.bound? (ofFlow g) with
    | none => exact ite_self _
    | some total =>
      obtain ⟨hfree, -⟩ := (isSome_totalsOf_iff (hflows g hg)).1 (by rw [htotals]; rfl)
      rw [cutsOf_eq (hflows g hg) hfree]
      rfl

lemma Steps.isSome_bound?_iff (hflows : ∀ g ∈ flows, g.Explored s) (hg : g ∈ flows) :
    (a.bound? g.function.id).isSome ↔ (∀ i, ¬ TransGen (Follows g) i i) ∧
      ¬ TransGen (Calls flows) g g ∧
      ∀ n ∈ g.order, n.edges ≠ [] → (innerOf a.bound? n).isSome := by
  rw [h.bound?_eq hdistinct hflows hg, ← recursiveNumbers_iff h.graph hdistinct hg]
  split
  · next hyes => exact ⟨nofun, fun hall => absurd hyes hall.2.1⟩
  · next hno => rw [isSome_map, isSome_totalsOf_iff (hflows g hg), and_left_comm, and_iff_right hno]

end

/-! ## The cost of a bound -/

/-- The cost of a branch, and the bound of a function called. -/
def Analysis.fullCost (a : Analysis) (table : Table) (n : Node) (branch : Nat) : Int :=
  table.costOf n branch + (calleeOf n).elim 0 fun callee => (((a.worstCase callee).getD 0 : Nat) : Int)

def ExactTotals (opts : Options) (flows : List Flow) (a : Analysis) : Prop :=
  opts.table.Exact ∧ ∀ g ∈ flows, ∀ total ∈ totalsOf a.prices a.bound? (ofFlow g),
    ∀ n ∈ g.order, ∀ x ∈ n.edges.zipIdx,
      a.fullCost opts.table n x.2 + totalAt g total x.1.target < (pow2 63 : Nat)

instance : Decidable (ExactTotals opts flows a) :=
  inferInstanceAs (Decidable (opts.table.Exact ∧ ∀ g ∈ flows,
    ∀ total ∈ totalsOf a.prices a.bound? (ofFlow g), ∀ n ∈ g.order, ∀ x ∈ n.edges.zipIdx,
      a.fullCost opts.table n x.2 + totalAt g total x.1.target < (pow2 63 : Nat)))

section

variable {metering : Bool} {start : Analysis} {calls : Array (List Nat)} {order : List Nat}
  (h : Steps s opts flows metering start calls order a) (hdistinct : DistinctIds flows)
  (hflows : ∀ g ∈ flows, g.Explored s)

include h hflows

lemma Steps.ownCost (hexact : opts.table.Exact) (hg : g ∈ flows) (hn : n ∈ g.order) {b : Nat}
    (he : n.edges[b]? = some e) :
    a.prices.ownCost n b = opts.table.costOf n b ∧ 0 ≤ opts.table.costOf n b := by
  obtain ⟨_, -, hrun⟩ := analyses_of_foldlM h.run
  obtain ⟨hprice, hall⟩ := pricedBy_of_foldlM hflows pricedBy_replicate h.costs
  have hcosts : a.prices.costs = start.costs := hrun.funcs.1
  rw [← hcosts] at hprice hall
  exact ownCost_eq hflows hprice hall h.fault hexact hg hn he

include hdistinct

lemma Steps.exists_totalsOf (hg : g ∈ flows) (hbound : a.bound? g.function.id = some bound) :
    ∃ total n, totalsOf a.prices a.bound? (ofFlow g) = some total ∧
      g.node? g.function.entry = some n ∧ n ∈ g.order ∧ totalAt g total n.index = bound := by
  rw [h.bound?_eq hdistinct hflows hg] at hbound
  split at hbound
  · cases hbound
  obtain ⟨total, htotal, rfl⟩ := map_eq_some_iff.1 hbound
  obtain ⟨n, hn, -⟩ := (hflows g hg).entry
  refine ⟨total, n, htotal, hn, Flow.mem_order_of_node? hn, ?_⟩
  rw [((hflows g hg).visited_of_node? hn).2]

lemma Steps.bound?_nonneg (hbound : a.bound? id = some bound) : 0 ≤ bound := by
  cases hf : a.func? id with
  | none =>
    rw [Analysis.bound?, hf] at hbound
    exact le_of_eq (some.inj hbound)
  | some f =>
    obtain ⟨family, hrun, -, hmem, -⟩ := h.exists_family hdistinct
    obtain ⟨x, hx, hnum, -⟩ := hrun.exists_of_func? h.fresh.funcs hf
    replace hmem := (hmem _).1 (mem_map_of_mem hx)
    rw [Analysis.bound?, Analysis.func?_congr hnum.symm] at hbound
    obtain ⟨total, n, htotal, -, hn, rfl⟩ := h.exists_totalsOf hdistinct hflows hmem hbound
    exact totalAt_nonneg (hflows x.1 hmem) htotal hn

lemma Steps.worstCase_getD (id : FunctionId) :
    (((a.worstCase id).getD 0 : Nat) : Int) = (a.bound? id).getD 0 := by
  rw [a.worstCase_eq]
  cases hbound : a.bound? id with
  | none => rfl
  | some bound => exact Int.toNat_of_nonneg (h.bound?_nonneg hdistinct hflows hbound)

lemma Steps.covers_totalAt (hexact : ExactTotals opts flows a) (hg : g ∈ flows)
    (htotal : totalsOf a.prices a.bound? (ofFlow g) = some total) :
    Covers (a.fullCost opts.table) (fun _ _ _ => false) g (totalAt g total) ∧
      Attains (a.fullCost opts.table) (fun _ _ _ => false) g (totalAt g total) := by
  have hnext : ∀ n ∈ g.order, ∀ (b : Nat) (e : Edge), n.edges[b]? = some e →
      0 ≤ totalAt g total e.target := by
    intro n hn b e he
    obtain ⟨m, hm, htarget⟩ := (hflows g hg).exists_target hn (mem_of_getElem? he)
    exact htarget ▸ totalAt_nonneg (hflows g hg) htotal hm
  have hpos : ∀ n ∈ g.order, ∀ (b : Nat) (e : Edge), n.edges[b]? = some e →
      0 ≤ a.fullCost opts.table n b := by
    intro n hn b e he
    obtain ⟨-, hown⟩ := h.ownCost hflows hexact.1 hg hn he
    rw [Analysis.fullCost]
    cases calleeOf n with
    | none => exact (Int.add_zero _).symm ▸ hown
    | some callee => exact add_nonneg hown (Int.natCast_nonneg _)
  refine covers_and_attains (fun n hn b e he => ?_) fun n hn => ?_
  · exact add_nonneg (hpos n hn b e he) (hnext n hn b e he)
  · rw [totalAt, getElem?_totalsOf (hflows g hg) htotal (getElem?_place (hflows g hg) hn),
      getD_some, dearest]
    refine congrArg (fun costs : List Int => costs.foldl max 0) (map_congr_left fun x hx => ?_)
    have he := mk_mem_zipIdx_iff_getElem?.1 hx
    obtain ⟨hown, hownPos⟩ := h.ownCost hflows hexact.1 hg hn he
    have hsum := hexact.2 g hg total htotal n hn x hx
    have hrest := hnext n hn x.2 x.1 he
    rw [onward, viaBranch, if_neg Bool.false_ne_true, hown]
    show wrap64 (_ + totalAt g total x.1.target) = _
    rw [Analysis.fullCost] at hsum ⊢
    cases hcallee : calleeOf n with
    | none =>
      rw [hcallee] at hsum
      simp only [elim_none, Int.add_zero] at hsum ⊢
      exact wrap64_eq (by omega) hsum
    | some callee =>
      rw [hcallee] at hsum
      have hworst := h.worstCase_getD hdistinct hflows callee
      have hbound : 0 ≤ (a.bound? callee).getD 0 := hworst ▸ Int.natCast_nonneg _
      simp only [elim_some, hworst] at hsum ⊢
      have hcost := wrap64_eq (Int.add_nonneg hownPos hbound) (by omega)
      rw [hcost, wrap64_eq (by omega) hsum]

lemma Steps.isGreatest_bound? (hexact : ExactTotals opts flows a) (hg : g ∈ flows)
    (hbound : a.bound? g.function.id = some bound) :
    ∃ n, g.node? g.function.entry = some n ∧
      IsGreatest {total | Way (a.fullCost opts.table) (fun _ _ _ => false) g n total} bound := by
  obtain ⟨total, n, htotal, hn, hmem, rfl⟩ := h.exists_totalsOf hdistinct hflows hg hbound
  have hacyc := (cyclic_eq_false_iff (hflows g hg)).2
    ((isSome_totalsOf_iff (hflows g hg)).1 (by rw [htotal]; rfl)).1
  obtain ⟨hcovers, hattains⟩ := h.covers_totalAt hdistinct hflows hexact hg htotal
  refine ⟨n, hn, exists_way (hflows g hg) hattains (fun n => fullRank g n.index)
    (fun n hn b e m he _ hm => ?_) hmem, fun cost hway => Way.le (hflows g hg) hcovers hway hmem⟩
  refine fullRank_lt (hflows g hg) hacyc
    ⟨n, (hflows g hg).node?_index hn, e, mem_of_getElem? he, ?_⟩
  exact ((hflows g hg).visited_of_node? hm).2.symm

end

lemma Analysed.requiredGas_le {start : Analysis} {calls : Array (List Nat)} {order : List Nat}
    {family : List (Flow × Amounts)} (h : Analysed s opts flows a family)
    (hsteps : Steps s opts flows true start calls order a) (hdistinct : DistinctIds flows)
    (hflows : ∀ g ∈ flows, g.Explored s) (hexact : Exact s opts flows a)
    (htotals : ExactTotals opts flows a) (hg : g ∈ flows) :
    ∀ bound, a.bound? g.function.id = some bound → (a.requiredGas g.function.id : Int) ≤ bound := by
  refine hsteps.induction hdistinct (motive := fun g => ∀ bound,
    a.bound? g.function.id = some bound → (a.requiredGas g.function.id : Int) ≤ bound)
    (fun g hg ih bound hbound => ?_) hg
  obtain ⟨-, -, hcallees⟩ := (hsteps.isSome_bound?_iff hdistinct hflows hg).1 (by rw [hbound]; rfl)
  obtain ⟨amounts, hx⟩ := h.all g hg
  have hcost : ∀ n ∈ g.order, ∀ (b : Nat) (e : Edge), n.edges[b]? = some e →
      a.prepaid opts.table n b ≤ a.fullCost opts.table n b := by
    intro n hn b e he
    rw [Analysis.prepaid, Analysis.fullCost]
    cases hcallee : calleeOf n with
    | none => exact le_refl _
    | some callee =>
      have hinner := hcallees n hn (ne_nil_of_mem (mem_of_getElem? he))
      rw [innerOf, hcallee, elim_some] at hinner
      obtain ⟨inner, hinner⟩ := isSome_iff_exists.1 hinner
      have hnum : (recursiveNumbers flows).contains callee.number = false := by
        rw [← Bool.not_eq_true]
        intro hyes
        rw [hsteps.bound?_of_recursive hdistinct hyes] at hinner
        cases hinner
      obtain ⟨f, hf, hid, hle⟩ := ih n hn callee hcallee hnum
      have hfunc : a.func? callee = a.func? f.function.id := Analysis.func?_congr hid.symm
      rw [Analysis.bound?, Analysis.requiredGas, ← hfunc] at hle
      rw [elim_some, elim_some, hsteps.worstCase_getD hdistinct hflows, hinner]
      exact Int.add_le_add_left (hle inner hinner) _
  obtain ⟨total, n, htotal, hn, hmem, rfl⟩ := hsteps.exists_totalsOf hdistinct hflows hg hbound
  obtain ⟨hcovers, -⟩ := hsteps.covers_totalAt hdistinct hflows htotals hg htotal
  -- the costs of the most expensive ways cover the prepaid ones as well
  have hprepaid : Covers (a.prepaid opts.table) amounts.stops g (totalAt g total) := by
    refine ⟨hcovers.nonneg, fun n hn b e he => ?_⟩
    have hle := hcovers.branch n hn b e he
    obtain ⟨m, hm, htarget⟩ := (hflows g hg).exists_target hn (mem_of_getElem? he)
    have hpos := htarget ▸ hcovers.nonneg m hm
    have hless := hcost n hn b e he
    rw [viaBranch, if_neg Bool.false_ne_true] at hle
    rw [viaBranch]
    split <;> omega
  rw [h.requiredGas_eq hflows hx, (h.entry_eq hflows hx).1, ← ((hflows g hg).visited_of_node? hn).2]
  rcases h.way_of_dueFor hflows hexact hx hmem with hzero | hway
  · exact hzero ▸ hcovers.nonneg n hmem
  · exact Way.le (hflows g hg) hprepaid hway hmem

/-- A function has a bound exactly when no cycle of its statements can be reached from its entry, it
is on no cycle of calls and all functions it calls have a bound. The bound is the cost of the most
expensive way from the entry to an end, where a call costs the bound of the function called; a call
without branches ends a way. In a metered program a function needs no more than that at its entry.
-/
theorem worst_case_is_the_most_expensive_way {program : Program}
    (hs : Settled.ofProgram program = .ok s)
    (hflows : program.funcs.mapM (Flow.ofFunction s) = .ok flows)
    (ha : analyse s flows opts = .ok a) (htotals : ExactTotals opts flows a) :
    (∀ g ∈ flows, (a.worstCase g.function.id).isSome = true ↔
      (¬ ∃ path i, Flow.Path s.program g.function path i ∧ TransGen (Follows g) i i) ∧
      ¬ TransGen (Calls flows) g g ∧
      ∀ n ∈ g.order, n.edges ≠ [] → ∀ callee, calleeOf n = some callee →
        (a.worstCase callee).isSome = true) ∧
    (∀ g ∈ flows, ∀ worst, a.worstCase g.function.id = some worst →
      ∃ n, g.node? g.function.entry = some n ∧
        IsGreatest {total | Way (a.fullCost opts.table) (fun _ _ _ => false) g n total} worst) ∧
    ((usesGas s.types flows && !opts.disabled) = true → Exact s opts flows a →
      ∀ g ∈ flows, ∀ worst, a.worstCase g.function.id = some worst →
        a.requiredGas g.function.id ≤ worst) := by
  obtain ⟨hexplored, hdistinct⟩ := explored_of_mapM hs hflows
  obtain ⟨start, calls, order, hsteps⟩ := steps_of_analyse rfl ha
  have hbound : ∀ {g : Flow} {worst : Nat}, a.worstCase g.function.id = some worst →
      a.bound? g.function.id = some (worst : Int) := by
    intro g worst hworst
    rw [a.worstCase_eq] at hworst
    obtain ⟨bound, hbound, rfl⟩ := map_eq_some_iff.1 hworst
    rw [hbound, toAmount, Int.toNat_of_nonneg (hsteps.bound?_nonneg hdistinct hexplored hbound)]
  refine ⟨fun g hg => ?_, fun g hg worst hworst =>
    hsteps.isGreatest_bound? hdistinct hexplored htotals hg (hbound hworst),
    fun hmetering hexact g hg worst hworst => ?_⟩
  · have hreached : (∀ i, ¬ TransGen (Follows g) i i) ↔
        ¬ ∃ path i, Flow.Path s.program g.function path i ∧ TransGen (Follows g) i i := by
      refine ⟨?_, fun hnone i hi => ?_⟩
      · rintro hnone ⟨_, i, -, hi⟩
        exact hnone i hi
      · obtain ⟨f, -, hf⟩ := (forall₂_mem (forall₂_of_mapM hflows)).2 g hg
        obtain ⟨rfl, -⟩ := Flow.explored_ofFunction hf
        obtain ⟨g', hg', hpath⟩ := (hexplored g hg).typed.exists_flow
        cases hf.symm.trans hg'
        obtain ⟨_, ⟨n, hn, -⟩, -⟩ := TransGen.head'_iff.1 hi
        obtain ⟨path, hpath⟩ := hpath i n hn
        exact hnone ⟨path, i, hpath, hi⟩
    have hinner : ∀ n : Node, (innerOf a.bound? n).isSome = true ↔
        ∀ callee, calleeOf n = some callee → (a.worstCase callee).isSome = true := by
      intro n
      simp only [innerOf, a.worstCase_eq, isSome_map]
      cases calleeOf n <;> simp
    rw [a.worstCase_eq, isSome_map, hsteps.isSome_bound?_iff hdistinct hexplored hg, hreached]
    simp only [hinner]
  · obtain ⟨start, calls, order, hsteps⟩ := steps_of_analyse hmetering ha
    obtain ⟨family, h, -⟩ := hsteps.analysed hexplored hdistinct
    exact Int.ofNat_le.1
      (h.requiredGas_le hsteps hdistinct hexplored hexact htotals hg _ (hbound hworst))

theorem refill_has_a_bounded_function : ∃ s flows a, Settled.ofProgram refill = .ok s ∧
    refill.funcs.mapM (Flow.ofFunction s) = .ok flows ∧
    (usesGas s.types flows && !refillOptions.disabled) = true ∧
    analyse s flows refillOptions = .ok a ∧ Exact s refillOptions flows a ∧
    ExactTotals refillOptions flows a ∧ (∃ g ∈ flows, a.worstCase g.function.id = none) ∧
    ∃ g ∈ flows, a.requiredGas g.function.id ≤ 20 ∧ ¬ TransGen (Calls flows) g g ∧
      ∃ n, g.node? g.function.entry = some n ∧ IsGreatest
        {total | Way (a.fullCost refillOptions.table) (fun _ _ _ => false) g n total} (20 : Nat) := by
  obtain ⟨s, flows, a, hs, hflows, hmetering, ha, hexact, htest⟩ := exists_of_isMetered
    (show isMetered refill refillOptions fun _ flows a => decide (ExactTotals refillOptions flows a) &&
      (flows.any fun g => a.worstCase g.function.id == none) &&
      flows.any fun g => a.worstCase g.function.id == some 20 by decide +kernel)
  rw [Bool.and_eq_true, Bool.and_eq_true, decide_eq_true_eq] at htest
  obtain ⟨⟨htotals, hnone⟩, hsome⟩ := htest
  obtain ⟨hbounded, hgreatest, hentry⟩ := worst_case_is_the_most_expensive_way hs hflows ha htotals
  obtain ⟨g', hg', hnone⟩ := any_eq_true.1 hnone
  obtain ⟨g, hg, hsome⟩ := any_eq_true.1 hsome
  rw [beq_iff_eq] at hnone hsome
  exact ⟨s, flows, a, hs, hflows, hmetering, ha, hexact, htotals, ⟨g', hg', hnone⟩, g, hg,
    hentry hmetering hexact g hg _ hsome, ((hbounded g hg).1 (by rw [hsome]; rfl)).2.1,
    hgreatest g hg _ hsome⟩

end Sierra.Gas
