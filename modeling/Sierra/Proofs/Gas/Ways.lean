import Sierra.Proofs.Gas.Rounds

/-!
# The most expensive ways

Values that cover every branch are at least the cost of every way (`Way.le`); where they are those
of some branch, and branches that go on go down in a rank, a way attains each (`exists_way`).
-/

namespace Sierra.Gas

open List Analysis
open Flow (Node Edge Explored)

variable {amounts : Amounts}

/-- The ways from a statement to where they end, with their costs. -/
inductive Way (cost : Node → Nat → Int) (ends : Node → Nat → Edge → Bool) (g : Flow) :
    Node → Int → Prop
  | done {n : Node} (hn : n.edges = []) : Way cost ends g n 0
  | last {n : Node} {b : Nat} {e : Edge} (he : n.edges[b]? = some e) (hends : ends n b e = true) :
      Way cost ends g n (cost n b)
  | more {n m : Node} {b : Nat} {e : Edge} {rest : Int} (he : n.edges[b]? = some e)
      (hgoes : ends n b e = false) (hm : g.node? e.target = some m)
      (hrest : Way cost ends g m rest) : Way cost ends g n (cost n b + rest)

section

variable {s : Settled} {g : Flow} {n : Node} {cost : Node → Nat → Int}
  {ends : Node → Nat → Edge → Bool} {value : Int → Int}

/-- The cost by way of a branch, from what is known where it goes. -/
def viaBranch (cost : Node → Nat → Int) (ends : Node → Nat → Edge → Bool) (value : Int → Int)
    (n : Node) (b : Nat) (e : Edge) : Int :=
  cost n b + if ends n b e then 0 else value e.target

/-- Values that are at least those by way of each branch. -/
structure Covers (cost : Node → Nat → Int) (ends : Node → Nat → Edge → Bool) (g : Flow)
    (value : Int → Int) : Prop where
  nonneg : ∀ n ∈ g.order, 0 ≤ value n.index
  branch : ∀ n ∈ g.order, ∀ (b : Nat) (e : Edge), n.edges[b]? = some e →
    viaBranch cost ends value n b e ≤ value n.index

/-- Values that are those by way of some branch, or nothing where there is none. -/
def Attains (cost : Node → Nat → Int) (ends : Node → Nat → Edge → Bool) (g : Flow)
    (value : Int → Int) : Prop :=
  ∀ n ∈ g.order, (n.edges = [] ∧ value n.index = 0) ∨
    ∃ (b : Nat) (e : Edge), n.edges[b]? = some e ∧ value n.index = viaBranch cost ends value n b e

lemma Way.le (hg : g.Explored s) (h : Covers cost ends g value) {total : Int}
    (hway : Way cost ends g n total) (hn : n ∈ g.order) : total ≤ value n.index := by
  induction hway with
  | done => exact h.nonneg _ hn
  | last he hends =>
    have hle := h.branch _ hn _ _ he
    rw [viaBranch, if_pos hends] at hle
    omega
  | more he hgoes hm _ ih =>
    have hrest := ih (Flow.mem_order_of_node? hm)
    have hle := h.branch _ hn _ _ he
    rw [(hg.visited_of_node? hm).2] at hrest
    rw [viaBranch, hgoes, if_neg Bool.false_ne_true] at hle
    omega

lemma exists_way (hg : g.Explored s) (h : Attains cost ends g value) (rank : Node → Nat)
    (hrank : ∀ n ∈ g.order, ∀ b e m, n.edges[b]? = some e →
      ends n b e = false → g.node? e.target = some m → rank m < rank n) (hn : n ∈ g.order) :
    Way cost ends g n (value n.index) := by
  induction hk : rank n using Nat.strong_induction_on generalizing n with
  | _ k ih =>
    rcases h n hn with ⟨hnone, hval⟩ | ⟨b, e, he, hval⟩
    · exact hval ▸ .done hnone
    rw [hval, viaBranch]
    cases hends : ends n b e with
    | true =>
      rw [if_pos rfl, add_zero]
      exact .last he hends
    | false =>
      obtain ⟨m, hm, htarget⟩ := hg.exists_target hn (mem_of_getElem? he)
      have hnode := htarget ▸ hg.node?_index hm
      rw [← htarget]
      exact .more he hends hnode (ih (rank m) (hk ▸ hrank n hn b e m he hends hnode) hm rfl)

lemma foldl_max_mem {costs : List Int} (hpos : ∀ c ∈ costs, 0 ≤ c) (hne : costs ≠ []) :
    costs.foldl max 0 ∈ costs := by
  cases costs with
  | nil => exact absurd rfl hne
  | cons c costs =>
    rw [foldl_cons, max_eq_right (hpos c mem_cons_self)]
    exact max?_mem (max?_cons' ..)

lemma covers_and_attains (hpos : ∀ n ∈ g.order, ∀ b e, n.edges[b]? = some e →
      0 ≤ viaBranch cost ends value n b e) (hval : ∀ n ∈ g.order, value n.index =
      (n.edges.zipIdx.map fun x => viaBranch cost ends value n x.2 x.1).foldl max 0) :
    Covers cost ends g value ∧ Attains cost ends g value := by
  refine ⟨⟨fun n hn => ?_, fun n hn b e he => ?_⟩, fun n hn => ?_⟩
  · rw [hval n hn]
    exact (foldl_max_le_iff.1 (le_refl _)).1
  · rw [hval n hn]
    refine (foldl_max_le_iff.1 (le_refl _)).2 _ (mem_map.2 ⟨(e, b), ?_, rfl⟩)
    exact mk_mem_zipIdx_iff_getElem?.2 he
  · by_cases hedges : n.edges = []
    · exact .inl ⟨hedges, by rw [hval n hn, hedges]; rfl⟩
    · have hall : ∀ c ∈ n.edges.zipIdx.map fun x => viaBranch cost ends value n x.2 x.1, 0 ≤ c := by
        intro c hc
        obtain ⟨⟨e, b⟩, he, rfl⟩ := mem_map.1 hc
        exact hpos n hn b e (mk_mem_zipIdx_iff_getElem?.1 he)
      obtain ⟨⟨e, b⟩, he, heq⟩ := mem_map.1 (foldl_max_mem hall (by simpa using hedges))
      exact .inr ⟨b, e, mk_mem_zipIdx_iff_getElem?.1 he, by rw [hval n hn, heq]⟩

end

/-! ## Prepaid ways -/

/-- The success of a checkpoint, and a branch to where the function pays for itself. -/
def Amounts.stops (a : Amounts) (n : Node) (branch : Nat) (e : Edge) : Bool :=
  !dependsOn n branch || isCut a.cut (a.view.place e.target)

/-- The cost of a branch, and what a function called needs. -/
def Analysis.prepaid (a : Analysis) (table : Table) (n : Node) (branch : Nat) : Int :=
  table.costOf n branch + (calleeOf n).elim 0 fun callee => (a.requiredGas callee : Int)

variable {program : Program} {s : Settled} {opts : Options} {flows : List Flow} {a : Analysis}
  {g : Flow} {n : Node}

section

variable {family : List (Flow × Amounts)} (h : Analysed s opts flows a family)
  (hflows : ∀ g ∈ flows, g.Explored s) (hexact : Exact s opts flows a)

include h hflows hexact

lemma Analysed.prepaid_eq (hg : g ∈ flows) (hn : n ∈ g.order) {b : Nat} {e : Edge}
    (he : n.edges[b]? = some e) : a.prepaid opts.table n b = a.prices.cost n b := by
  have hentry : ∀ id, (a.requiredGas id : Int) = a.prices.entryCost id := by
    intro id
    have hpos : 0 ≤ (a.func? id).elim 0 (·.entry) := h.entryCost_nonneg hflows id
    show (a.requiredGas id : Int) = (a.func? id).elim 0 (·.entry)
    rw [requiredGas]
    cases hf : a.func? id with
    | none => rfl
    | some f =>
      rw [hf] at hpos
      exact Int.toNat_of_nonneg hpos
  rw [prepaid, Prices.cost, (h.ownCost hflows hexact.table hg hn he).1]
  simp only [hentry]

lemma Analysed.needAt_eq (hx : (g, amounts) ∈ family) (hn : n ∈ g.order) :
    amounts.needAt n.index = (n.edges.zipIdx.map fun x =>
      viaBranch (a.prepaid opts.table) amounts.stops amounts.needAt n x.2 x.1).foldl max 0 := by
  have hmem : g ∈ flows := h.mem _ hx
  have hg := hflows g hmem
  have hfits : amounts.Fits a.prices g := h.fits hflows hx
  rw [hfits.needAt_eq hg hn, needOf_eq]
  congr 1
  refine map_congr_left fun x hx' => ?_
  have he := mk_mem_zipIdx_iff_getElem?.1 hx'
  have hsum := hexact.sums g hmem amounts (h.amounts (g, amounts) hx) n hn x.2 x.1 he
  have hasks := hfits.asks_eq hg rfl hn he (h.cost_nonneg hflows hexact.table hmem hn he) hsum
  rw [hasks, viaBranch, h.prepaid_eq hflows hexact hmem hn he, Amounts.dueFor_eq, Amounts.stops]
  cases dependsOn n x.2 <;> simp

lemma Analysed.isGreatest_needAt (hx : (g, amounts) ∈ family) (hn : n ∈ g.order) :
    IsGreatest {total | Way (a.prepaid opts.table) amounts.stops g n total}
      (amounts.needAt n.index) := by
  have hmem : g ∈ flows := h.mem _ hx
  have hg := hflows g hmem
  have hfits : amounts.Fits a.prices g := h.fits hflows hx
  have hpos : ∀ n ∈ g.order, ∀ (b : Nat) (e : Edge), n.edges[b]? = some e →
      0 ≤ viaBranch (a.prepaid opts.table) amounts.stops amounts.needAt n b e := by
    intro n hn b e he
    have hcost := h.cost_nonneg hflows hexact.table hmem hn he
    obtain ⟨m, hm, htarget⟩ := hg.exists_target hn (mem_of_getElem? he)
    have hneed := htarget ▸ hfits.needAt_nonneg hg hm
    rw [viaBranch, h.prepaid_eq hflows hexact hmem hn he]
    split <;> omega
  obtain ⟨hcovers, hattains⟩ := covers_and_attains hpos fun n hn => h.needAt_eq hflows hexact hx hn
  refine ⟨exists_way hg hattains (nodeRank amounts) (fun n hn b e m he hgoes hm => ?_) hn,
    fun total hway => Way.le hg hcovers hway hn⟩
  obtain ⟨hdep, hcut⟩ := Bool.or_eq_false_iff.1 hgoes
  have hidx := (hg.visited_of_node? hm).2
  exact nodeRank_lt hfits hg (passed_of_amountsOf (h.amounts (g, amounts) hx)).acyclic hn he
    (by simpa using hdep) hidx (hidx ▸ hcut)

lemma Analysed.way_of_dueFor (hx : (g, amounts) ∈ family)
    (hn : n ∈ g.order) : amounts.dueFor n.index = 0 ∨
      Way (a.prepaid opts.table) amounts.stops g n (amounts.dueFor n.index) := by
  rw [Amounts.dueFor_eq]
  split
  · exact .inl rfl
  · exact .inr (h.isGreatest_needAt hflows hexact hx hn).1

end

/-! ## The needs that are kept -/

def Amounts.needs (a : Amounts) : List (Int × Int) :=
  a.view.nodes.toList.zipIdx.map fun x => (x.1.index, (a.need[x.2]?).getD 0)

lemma Amounts.Fits.mem_needs_iff {p : Prices} (h : amounts.Fits p g)
    (hg : g.Explored s) {index need : Int} : (index, need) ∈ amounts.needs ↔
      ∃ n ∈ g.order, n.index = index ∧ amounts.needAt index = need := by
  rw [needs, needAt, h.view, mem_map]
  constructor
  · rintro ⟨⟨n, i⟩, hn, heq⟩
    cases heq
    have hi : (View.ofFlow g).nodes[i]? = some n := by
      rw [← Array.getElem?_toList]
      exact mk_mem_zipIdx_iff_getElem?.1 hn
    exact ⟨n, mem_order_of_getElem? hi, rfl, by rw [place_eq hg hi]⟩
  · rintro ⟨n, hn, rfl, rfl⟩
    refine ⟨(n, (View.ofFlow g).place n.index), mk_mem_zipIdx_iff_getElem?.2 ?_, rfl⟩
    rw [Array.getElem?_toList, getElem?_place hg hn]

lemma Analyses.need_eq {types : Types} {metering : Bool} {numbers : List Nat} {last : Analysis}
    {family : List (Flow × Amounts)} (h : Analyses types opts metering numbers a family last) :
    last.need = keep a.need (family.flatMap (·.2.needs)) := by
  induction h with
  | nil a => rfl
  | cons _ _ _ _ ih => exact ih.trans foldl_append.symm

lemma Steps.exists_need {start : Analysis} {calls : Array (List Nat)} {order : List Nat}
    (h : Steps s opts flows true start calls order a) (hflows : ∀ g ∈ flows, g.Explored s)
    (hdist : DistinctIds flows) (hg : g ∈ flows) (hn : n ∈ g.order) :
    ∃ f ∈ flows, ∃ amounts, a.amountsOf s opts flows f = .ok amounts ∧
      (∃ m ∈ f.order, m.index = n.index) ∧
      valueAt a.need n.index = some (amounts.needAt n.index) := by
  obtain ⟨family, hanalysed, hrun, -⟩ := h.analysed hflows hdist
  have hneeds : ∀ x ∈ family, ∀ {index need}, (index, need) ∈ x.2.needs ↔
      ∃ m ∈ x.1.order, m.index = index ∧ x.2.needAt index = need := fun x hx =>
    (hanalysed.fits hflows hx).mem_needs_iff (hflows x.1 (hanalysed.mem x hx))
  obtain ⟨hfrom, hall⟩ := keep_flatMap fun x hx entry hentry => by
    obtain ⟨m, hm, hidx, -⟩ := (hneeds x hx).1 hentry
    have hx' := hflows x.1 (hanalysed.mem x hx)
    exact hidx ▸ hx'.size ▸ hx'.index_nonneg hm
  rw [← h.need, ← hrun.need_eq] at hfrom hall
  obtain ⟨own, hown⟩ := hanalysed.all g hg
  obtain ⟨need, hval⟩ := Option.isSome_iff_exists.1
    (hall _ hown (n.index, _) ((hneeds _ hown).2 ⟨n, hn, rfl, rfl⟩))
  obtain ⟨x, hx, hentry⟩ := hfrom _ _ hval
  obtain ⟨m, hm, hidx, hsame⟩ := (hneeds x hx).1 hentry
  exact ⟨x.1, hanalysed.mem x hx, x.2, hanalysed.amounts x hx, ⟨m, hm, hidx⟩, hsame ▸ hval⟩

/-- In a metered program the need of a statement is the cost of the most expensive way from it that
stops at the first success of a checkpoint, at the first entry into a statement where the function
pays for itself, or at a return. What a function charges is nothing or the cost of one such way. The
need kept for a statement is that of some function which reaches it. -/
theorem need_is_the_longest_prepaid_way (hs : Settled.ofProgram program = .ok s)
    (hflows : program.funcs.mapM (Flow.ofFunction s) = .ok flows)
    (hmetering : (usesGas s.types flows && !opts.disabled) = true)
    (ha : analyse s flows opts = .ok a) (hexact : Exact s opts flows a) :
    (∀ g ∈ flows, ∃ amounts, a.amountsOf s opts flows g = .ok amounts ∧
      (∀ n ∈ g.order, IsGreatest {total | Way (a.prepaid opts.table) amounts.stops g n total}
        (amounts.needAt n.index)) ∧
      ∀ charge ∈ (g.function.entry, a.requiredGas g.function.id) ::
        (amounts.injected ++ amounts.charges), charge.2 = 0 ∨
          ∃ n ∈ g.order, Way (a.prepaid opts.table) amounts.stops g n charge.2) ∧
    ∀ g ∈ flows, ∀ n ∈ g.order, ∃ f ∈ flows, ∃ amounts,
      a.amountsOf s opts flows f = .ok amounts ∧ (∃ m ∈ f.order, m.index = n.index) ∧
      valueAt a.need n.index = some (amounts.needAt n.index) := by
  obtain ⟨hexplored, hdistinct⟩ := explored_of_mapM hs hflows
  obtain ⟨start, calls, order, hsteps⟩ := steps_of_analyse hmetering ha
  obtain ⟨family, h, -⟩ := hsteps.analysed hexplored hdistinct
  refine ⟨fun g hg => ?_, fun g hg n hn => hsteps.exists_need hexplored hdistinct hg hn⟩
  obtain ⟨amounts, hx⟩ := h.all g hg
  have hfits : amounts.Fits a.prices g := h.fits hexplored hx
  have hdue : ∀ n ∈ g.order, ∀ amount : Nat, (amount : Int) = amounts.dueFor n.index →
      amount = 0 ∨ ∃ n ∈ g.order, Way (a.prepaid opts.table) amounts.stops g n amount := by
    intro n hn amount hamount
    rcases h.way_of_dueFor hexplored hexact hx hn with hzero | hway
    · exact .inl (by omega)
    · exact .inr ⟨n, hn, hamount ▸ hway⟩
  refine ⟨amounts, h.amounts (g, amounts) hx,
    fun n hn => h.isGreatest_needAt hexplored hexact hx hn, fun charge hcharge => ?_⟩
  rw [mem_cons, mem_append] at hcharge
  rcases hcharge with rfl | hinjected | hcharged
  · obtain ⟨n, hn, -⟩ := (hexplored g hg).entry
    refine hdue n (Flow.mem_order_of_node? hn) _ ?_
    rw [h.requiredGas_eq hexplored hx, ((hexplored g hg).visited_of_node? hn).2]
    exact (h.entry_eq hexplored hx).1
  · obtain ⟨n, hn, hindex, -, hneed⟩ := (hfits.mem_injected_iff (hexplored g hg)).1 hinjected
    refine .inr ⟨n, hn, ?_⟩
    rw [hneed, ← hindex]
    exact (h.isGreatest_needAt hexplored hexact hx hn).1
  · obtain ⟨n, hn, -, -, e, he, hamount⟩ := (hfits.mem_charges_iff (hexplored g hg)).1 hcharged
    obtain ⟨m, hm, htarget⟩ := (hexplored g hg).exists_target hn (mem_of_getElem? he)
    exact hdue m hm _ (htarget ▸ hamount)

/-- A round pays for the call, the function called, the jump back and the failure of the next
checkpoint. -/
theorem refill_pays_for_a_round : ∃ s flows a, Settled.ofProgram refill = .ok s ∧
    refill.funcs.mapM (Flow.ofFunction s) = .ok flows ∧
    (usesGas s.types flows && !refillOptions.disabled) = true ∧
    analyse s flows refillOptions = .ok a ∧ Exact s refillOptions flows a ∧
    ∃ g ∈ flows, ∃ n ∈ g.order, ∃ amounts, a.amountsOf s refillOptions flows g = .ok amounts ∧
      n.index = 1 ∧ IsGreatest
        {total | Way (a.prepaid refillOptions.table) amounts.stops g n total} (300 + 20 + 100 + 570) := by
  obtain ⟨s, flows, a, hs, hflows, hmetering, ha, hexact, htest⟩ := exists_of_isMetered
    (show isMetered refill refillOptions fun s flows a => flows.any fun g => g.order.any fun n =>
      n.index == 1 && (a.amountsOf s refillOptions flows g).toOption.any fun amounts =>
        amounts.needAt n.index == 300 + 20 + 100 + 570 by decide +kernel)
  obtain ⟨hneeds, -⟩ := need_is_the_longest_prepaid_way hs hflows hmetering ha hexact
  obtain ⟨g, hg, htest⟩ := any_eq_true.1 htest
  obtain ⟨n, hn, htest⟩ := any_eq_true.1 htest
  obtain ⟨amounts, hamounts, hgreatest, -⟩ := hneeds g hg
  rw [hamounts, Bool.and_eq_true, beq_iff_eq] at htest
  exact ⟨s, flows, a, hs, hflows, hmetering, ha, hexact, g, hg, n, hn, amounts, hamounts, htest.1,
    beq_iff_eq.1 htest.2 ▸ hgreatest n hn⟩

end Sierra.Gas
