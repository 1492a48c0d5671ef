import Sierra.Proofs.Gas.Balance

/-!
# What redeposits give back

The analysis keeps the least balance with which a statement is reached, passed on with sources first
(`foldl_passOn`). It is a floor under every way that covers what is needed (`Floor`).
-/

namespace Sierra.Gas

open List Amounts Option
open Flow (Node Edge Explored)

variable {paid paid' : Array Int} {e : Edge} {os : List (Nat × Int)} {rest later : List Nat}
  {b i j : Nat} {o : Nat × Int} {n : Node} {cut : Array Bool} {left : Int} {v : View}

/-! ## Lowering what is known to be paid -/

def paidAt (paid : Array Int) (i : Nat) : Int := (paid[i]?).getD unpaid

def offers (paid : Array Int) (os : List (Nat × Int)) : Array Int :=
  os.foldl (fun paid o => offer paid o.1 o.2) paid

lemma offers_cons (paid : Array Int) (o : Nat × Int) (os : List (Nat × Int)) :
    offers paid (o :: os) = offers (offer paid o.1 o.2) os := rfl

lemma size_offer (paid : Array Int) (i : Nat) (x : Int) : (offer paid i x).size = paid.size :=
  Array.size_modify

lemma size_offers (paid : Array Int) (os : List (Nat × Int)) :
    (offers paid os).size = paid.size := by
  induction os generalizing paid with
  | nil => rfl
  | cons o os ih => rw [offers_cons, ih, size_offer]

lemma paidAt_offer (paid : Array Int) (i j : Nat) (x : Int) :
    paidAt (offer paid i x) j =
      if i = j ∧ i < paid.size then min (paidAt paid j) x else paidAt paid j := by
  rw [paidAt, paidAt, offer, Array.getElem?_modify]
  by_cases heq : i = j
  · subst heq
    by_cases hi : i < paid.size
    · simp [hi]
    · simp [hi]
  · simp [heq]

lemma le_paidAt_offers_iff {low : Int} : low ≤ paidAt (offers paid os) j ↔
    low ≤ paidAt paid j ∧ ∀ o ∈ os, o.1 = j → j < paid.size → low ≤ o.2 := by
  induction os generalizing paid with
  | nil => simp [offers]
  | cons o os ih =>
    rw [offers_cons, ih, paidAt_offer, size_offer, forall_mem_cons, ← and_assoc]
    refine and_congr_left fun _ => ?_
    split
    · next hsame =>
      obtain ⟨rfl, hlt⟩ := hsame
      simp [hlt]
    · next hother =>
      refine (and_iff_left fun heq hlt => ?_).symm
      exact absurd ⟨heq, heq ▸ hlt⟩ hother

lemma paidAt_offers_le (paid : Array Int) (os : List (Nat × Int)) (j : Nat) :
    paidAt (offers paid os) j ≤ paidAt paid j := (le_paidAt_offers_iff.1 (le_refl _)).1

/-! ## Passing payments on -/

def gives (n : Node) : Bool := n.libfunc.any fun f => f.role = .redepositGas

section

variable (p : Prices) (v : View) (cut : Array Bool) (need : Array Int)

/-- What is left for the branches: a redeposit keeps what it needs. -/
def leftAt (paid : Array Int) (i : Nat) (n : Node) : Int :=
  if gives n then (need[i]?).getD 0 else paidAt paid i

/-- The offers of a statement to those after it that do not pay for themselves. -/
def passes (n : Node) (left : Int) : List (Nat × Int) :=
  (dependencies n).filterMap fun d =>
    if Amounts.isCut cut (v.place d.1.target) then none
    else some (v.place d.1.target, wrap64 (left - p.branchCost n d.2))

def givesBack (paid : Array Int) (i : Nat) (n : Node) : List (Int × Nat) :=
  if gives n then [(n.index, toAmount (wrap64 (paidAt paid i - (need[i]?).getD 0)))] else []

/-- The statement at a place, if a payment has reached it and it goes on. -/
def goesOn (paid : Array Int) (i : Nat) : Option Node :=
  (v.nodes[i]?).filter fun n => decide (paidAt paid i ≠ unpaid) && !n.isReturn

lemma passOn_eq (state : Array Int × List (Int × Nat)) (i : Nat) :
    passOn p v cut need state i =
      match goesOn v state.1 i with
      | none => state
      | some n => (offers state.1 (passes p v cut n (leftAt need state.1 i n)),
          state.2 ++ givesBack need state.1 i n) := by
  obtain ⟨paid, refunds⟩ := state
  unfold passOn goesOn
  cases hn : v.nodes[i]? with
  | none => rfl
  | some n =>
    rw [filter_some]
    dsimp only
    have hpaid : (paid[i]?).getD unpaid = paidAt paid i := rfl
    rw [hpaid]
    by_cases hstops : paidAt paid i = unpaid ∨ n.isReturn
    · have hfalse : (decide (paidAt paid i ≠ unpaid) && !n.isReturn) = false := by
        rcases hstops with h | h <;> simp [h]
      rw [if_pos hstops, hfalse]
      rfl
    · have htrue : (decide (paidAt paid i ≠ unpaid) && !n.isReturn) := by
        simpa [not_or] using hstops
      rw [if_neg hstops, htrue, if_pos rfl]
      dsimp only
      unfold offers passes givesBack leftAt gives
      rw [foldl_filterMap]
      congr 1
      · refine foldl_ext _ _ _ fun paid d _ => ?_
        split <;> rfl
      · split <;> simp

def dueOffers : List (Nat × Int) :=
  (v.entry, (need[v.entry]?).getD 0) :: v.nodes.toList.zipIdx.flatMap fun (n, i) =>
    (if Amounts.isCut cut i then [(i, (need[i]?).getD 0)] else []) ++
      match isCheckpoint n, n.edges with
      | true, success :: _ =>
        [(v.place success.target, (need[v.place success.target]?).getD 0)]
      | _, _ => []

lemma payments_eq :
    payments v cut need = offers (Array.replicate v.size unpaid) (dueOffers v cut need) := by
  unfold payments dueOffers
  rw [offers_cons, offers, foldl_flatMap]
  refine foldl_ext _ _ _ fun paid x _ => ?_
  obtain ⟨n, i⟩ := x
  dsimp only
  cases isCut cut i <;> cases isCheckpoint n <;> cases n.edges <;> rfl

end

/-! ## The order in which payments are passed on -/

section

variable {p : Prices} {v : View} {cut : Array Bool} {need : Array Int}
  {state : Array Int × List (Int × Nat)}

lemma goesOn_eq_some_iff :
    goesOn v paid i = some n ↔
      v.nodes[i]? = some n ∧ paidAt paid i ≠ unpaid ∧ n.isReturn = false := by
  simp [goesOn, filter_eq_some_iff]

lemma mem_passes_iff :
    o ∈ passes p v cut n left ↔ ∃ d ∈ dependencies n,
      isCut cut (v.place d.1.target) = false ∧ o.1 = v.place d.1.target ∧
      o.2 = wrap64 (left - p.branchCost n d.2) := by
  rw [passes, mem_filterMap]
  refine exists_congr fun d => and_congr_right fun _ => ?_
  cases isCut cut (v.place d.1.target) <;> simp [Prod.ext_iff, eq_comm]

lemma DependsIn.passes_ne (h : DependsIn v cut i later)
    (hj : j ∉ later) (hn : v.nodes[i]? = some n) :
    ∀ o ∈ passes p v cut n left, o.1 ≠ j := by
  intro o ho heq
  obtain ⟨d, hd, hcut, hplace, -⟩ := mem_passes_iff.1 ho
  rcases h n hn d hd with htrue | hmem
  · cases hcut.symm.trans htrue
  · exact hj (heq ▸ hplace ▸ hmem)

lemma size_passOn (i : Nat) : (passOn p v cut need state i).1.size = state.1.size := by
  rw [passOn_eq]
  cases goesOn v state.1 i with
  | none => rfl
  | some n => exact size_offers _ _

lemma paidAt_passOn_le (i j : Nat) :
    paidAt (passOn p v cut need state i).1 j ≤ paidAt state.1 j := by
  rw [passOn_eq]
  cases goesOn v state.1 i with
  | none => exact le_refl _
  | some n => exact paidAt_offers_le _ _ _

lemma paidAt_passOn_of_not_mem (h : DependsIn v cut i later) (hj : j ∉ later) :
    paidAt (passOn p v cut need state i).1 j = paidAt state.1 j := by
  rw [passOn_eq]
  cases hgoes : goesOn v state.1 i with
  | none => rfl
  | some n =>
    refine le_antisymm (paidAt_offers_le _ _ _) (le_paidAt_offers_iff.2 ⟨le_refl _, ?_⟩)
    intro o ho heq
    exact absurd heq (h.passes_ne hj (goesOn_eq_some_iff.1 hgoes).1 o ho)

lemma paidAt_foldl_passOn_le (rest : List Nat) (j : Nat) :
    paidAt (rest.foldl (passOn p v cut need) state).1 j ≤ paidAt state.1 j := by
  induction rest generalizing state with
  | nil => exact le_refl _
  | cons i rest ih => exact le_trans ih (paidAt_passOn_le i j)

def TargetsLater (v : View) (cut : Array Bool) (rest : List Nat) : Prop :=
  ∀ before i after, rest = before ++ i :: after → DependsIn v cut i after

lemma TargetsLater.head (h : TargetsLater v cut (i :: rest)) :
    DependsIn v cut i rest := h [] i rest rfl

lemma TargetsLater.tail (h : TargetsLater v cut (i :: rest)) :
    TargetsLater v cut rest := fun before j after hsplit =>
  h (i :: before) j after (by rw [hsplit, cons_append])

lemma paidAt_foldl_passOn_of_not_mem (h : TargetsLater v cut rest) (hj : j ∉ rest) :
    paidAt (rest.foldl (passOn p v cut need) state).1 j = paidAt state.1 j := by
  induction rest generalizing state with
  | nil => rfl
  | cons i rest ih =>
    have hrest : j ∉ rest := fun hmem => hj (mem_cons_of_mem _ hmem)
    rw [foldl_cons, ih h.tail hrest, paidAt_passOn_of_not_mem h.head hrest]

lemma foldl_passOn (hnodup : rest.Nodup) (hlater : TargetsLater v cut rest)
    {final : Array Int × List (Int × Nat)}
    (hfinal : rest.foldl (passOn p v cut need) state = final) :
    (∀ i ∈ rest, ∀ n, goesOn v final.1 i = some n →
      ∀ o ∈ passes p v cut n (leftAt need final.1 i n), o.1 < state.1.size →
        paidAt final.1 o.1 ≤ o.2) ∧
    final.2 = state.2 ++ rest.flatMap fun i =>
      (goesOn v final.1 i).elim [] (givesBack need final.1 i) := by
  induction rest generalizing state with
  | nil =>
    subst hfinal
    simp
  | cons i rest ih =>
    obtain ⟨hi, hnodup'⟩ := nodup_cons.1 hnodup
    rw [foldl_cons] at hfinal
    obtain ⟨hoffers, hrefunds⟩ := ih hnodup' hlater.tail hfinal
    -- what is known of the first statement is final: no statement after it makes it an offer
    have hsame : paidAt final.1 i = paidAt state.1 i := by
      rw [← hfinal, paidAt_foldl_passOn_of_not_mem hlater.tail hi,
        paidAt_passOn_of_not_mem hlater.head hi]
    have hgoes : goesOn v final.1 i = goesOn v state.1 i := by rw [goesOn, goesOn, hsame]
    constructor
    · intro j hj n hn o ho hsize
      rcases mem_cons.1 hj with rfl | hj
      · rw [hgoes] at hn
        rw [leftAt, hsame] at ho
        have hlower : paidAt final.1 o.1 ≤ paidAt (passOn p v cut need state j).1 o.1 := by
          rw [← hfinal]
          exact paidAt_foldl_passOn_le _ _
        rw [passOn_eq, hn] at hlower
        exact le_trans hlower ((le_paidAt_offers_iff.1 (le_refl _)).2 o ho rfl hsize)
      · exact hoffers j hj n hn o ho (by rw [size_passOn]; exact hsize)
    · rw [hrefunds, flatMap_cons, hgoes]
      rw [passOn_eq]
      cases goesOn v state.1 i with
      | none => simp
      | some n => simp [givesBack, hsame]

lemma le_paidAt_foldl_passOn {low : Nat → Int}
    (hpasses : ∀ i n paid, v.nodes[i]? = some n → low i ≤ paidAt paid i → paidAt paid i ≤ unpaid →
      ∀ o ∈ passes p v cut n (leftAt need paid i n), low o.1 ≤ o.2)
    (hlow : ∀ j, low j ≤ paidAt state.1 j) (hunpaid : ∀ j, paidAt state.1 j ≤ unpaid) (j : Nat) :
    low j ≤ paidAt (rest.foldl (passOn p v cut need) state).1 j := by
  induction rest generalizing state with
  | nil => exact hlow j
  | cons i rest ih =>
    refine ih (fun k => ?_) fun k => le_trans (paidAt_passOn_le _ _) (hunpaid k)
    rw [passOn_eq]
    cases hgoes : goesOn v state.1 i with
    | none => exact hlow k
    | some n =>
      refine le_paidAt_offers_iff.2 ⟨hlow k, fun o ho heq _ => ?_⟩
      exact heq ▸ hpasses i n _ (goesOn_eq_some_iff.1 hgoes).1 (hlow i) (hunpaid i) o ho

end

/-! ## The least balances of a function -/

section

variable {s : Settled} {p : Prices} {g : Flow} {a : Amounts}

/-- No cost is negative, and no need is the mark of an unreached statement. -/
structure Payable (s : Settled) (p : Prices) (g : Flow) (a : Amounts) : Prop
    extends Priced s p g a where
  metering : p.metering = true
  cost_nonneg : ∀ n ∈ g.order, ∀ (b : Nat) (e : Edge), n.edges[b]? = some e → 0 ≤ p.cost n b
  unmarked : ∀ n ∈ g.order, a.needAt n.index < unpaid

def Amounts.refundAt (a : Amounts) (index : Int) : Nat := (a.refunds.lookup index).getD 0

/-- Least balances at statements, although redeposits give back what lies above the needs. -/
structure Floor (p : Prices) (g : Flow) (a : Amounts) (low : Int → Int) : Prop where
  need : ∀ n ∈ g.order, a.needAt n.index ≤ low n.index
  entry : low g.function.entry ≤ a.needAt g.function.entry
  cut : ∀ n ∈ g.order, Amounts.isCut a.cut (a.view.place n.index) = true →
    low n.index ≤ a.needAt n.index
  success : ∀ n ∈ g.order, isCheckpoint n = true → ∀ e : Edge, n.edges[0]? = some e →
    low e.target ≤ a.needAt e.target
  pass : ∀ n ∈ g.order, low n.index < unpaid → ∀ (b : Nat) (e : Edge), n.edges[b]? = some e →
    dependsOn n b = true → Amounts.isCut a.cut (a.view.place e.target) = false →
      low e.target ≤ (if gives n then a.needAt n.index else low n.index) - p.cost n b
  refund : ∀ n ∈ g.order, low n.index < unpaid → gives n = true →
    (a.refundAt n.index : Int) ≤ low n.index - a.needAt n.index

lemma unpaid_lt : unpaid < (pow2 63 : Nat) := by decide

namespace Payable

variable (h : Payable s p g a)

include h

lemma needAt_place (hi : a.view.nodes[i]? = some n) :
    n ∈ g.order ∧ a.view.place n.index = i ∧ (a.need[i]?).getD 0 = a.needAt n.index := by
  rw [h.fits.view] at hi
  have hplace : a.view.place n.index = i := by
    rw [h.fits.view]
    exact place_eq h.explored hi
  exact ⟨mem_order_of_getElem? hi, hplace, by rw [needAt, hplace]⟩

lemma getElem?_view (hn : n ∈ g.order) : a.view.nodes[a.view.place n.index]? = some n := by
  rw [h.fits.view]
  exact getElem?_place h.explored hn

lemma place_lt (hn : n ∈ g.order) : a.view.place n.index < a.view.size :=
  (Array.getElem?_eq_some_iff.1 (h.getElem?_view hn)).1

lemma mem_dueOffers_of (hn : n ∈ g.order) (ho : o ∈ (if isCut a.cut (a.view.place n.index) then
        [(a.view.place n.index, a.needAt n.index)] else []) ++
      match isCheckpoint n, n.edges with
      | true, success :: _ => [(a.view.place success.target, a.needAt success.target)]
      | _, _ => []) : o ∈ dueOffers a.view a.cut a.need := by
  refine mem_cons_of_mem _ (mem_flatMap.2 ⟨(n, a.view.place n.index), ?_, ho⟩)
  rw [mk_mem_zipIdx_iff_getElem?, Array.getElem?_toList]
  exact h.getElem?_view hn

lemma branchCost_eq (hn : n ∈ g.order)
    (he : n.edges[b]? = some e) : p.branchCost n b = p.cost n b := by
  have hmarks := h.unmarked n hn
  have hlt := unpaid_lt
  have hcovers := h.covers n hn b e he
  have hdue := h.fits.dueFor_target_nonneg h.explored hn he
  refine Prices.branchCost_eq h.metering (h.cost_nonneg n hn b e he) ?_
  split at hcovers <;> omega

lemma need_le (hsize : a.need.size = a.view.size) (i : Nat) : (a.need[i]?).getD 0 ≤ unpaid := by
  cases hi : a.view.nodes[i]? with
  | some n =>
    obtain ⟨hn, -, hneed⟩ := h.needAt_place hi
    have hmark := h.unmarked n hn
    omega
  | none =>
    have hout : a.view.size ≤ i := Array.getElem?_eq_none_iff.1 hi
    rw [Array.getElem?_eq_none (by omega)]
    decide

lemma need_le_passes (hi : a.view.nodes[i]? = some n)
    (hneed : (a.need[i]?).getD 0 ≤ paidAt paid i) (hpaid : paidAt paid i ≤ unpaid)
    (ho : o ∈ passes p a.view a.cut n (leftAt a.need paid i n)) : (a.need[o.1]?).getD 0 ≤ o.2 := by
  obtain ⟨⟨e, b⟩, hd, hcut, hplace, hval⟩ := mem_passes_iff.1 ho
  obtain ⟨hmem, hdep⟩ := mem_filter.1 hd
  have he : n.edges[b]? = some e := mk_mem_zipIdx_iff_getElem?.1 hmem
  obtain ⟨hn, -, hsame⟩ := h.needAt_place hi
  have hcovers := h.covers n hn b e he
  rw [if_pos hdep, dueFor_eq, hcut, if_neg Bool.false_ne_true] at hcovers
  have hcost := h.cost_nonneg n hn b e he
  obtain ⟨m, hm, htarget⟩ := h.explored.exists_target hn (mem_of_getElem? he)
  have hpos := h.fits.needAt_nonneg h.explored hm
  rw [htarget] at hpos
  have hlt := unpaid_lt
  have hleft : (a.need[i]?).getD 0 ≤ leftAt a.need paid i n ∧ leftAt a.need paid i n ≤ unpaid := by
    unfold leftAt
    split <;> omega
  rw [h.branchCost_eq hn he, wrap64_eq (by omega) (by omega)] at hval
  rw [hplace]
  change a.needAt e.target ≤ _
  omega

end Payable

lemma mem_dueOffers {need : Array Int}
    (ho : o ∈ dueOffers v cut need) : o.2 = (need[o.1]?).getD 0 := by
  rcases mem_cons.1 ho with rfl | ho
  · rfl
  obtain ⟨⟨n, i⟩, -, hmem⟩ := mem_flatMap.1 ho
  rcases mem_append.1 hmem with hmem | hmem
  · split at hmem
    · rw [mem_singleton.1 hmem]
    · cases hmem
  · split at hmem
    · rw [mem_singleton.1 hmem]
    · cases hmem

lemma targetsLater_reverse {order : List Nat}
    (hfirst : ∀ before i after, order = before ++ i :: after → DependsIn v cut i before) :
    TargetsLater v cut order.reverse := by
  intro before i after hsplit n hn d hd
  have horder : order = after.reverse ++ i :: before.reverse := by
    rw [← reverse_reverse order, hsplit]
    simp
  rcases hfirst _ i _ horder n hn d hd with hcut | hmem
  · exact .inl hcut
  · exact .inr (mem_reverse.1 hmem)

def passedOn (p : Prices) (a : Amounts) : Array Int × List (Int × Nat) :=
  (needGraph a.view a.cut).layers.order.reverse.foldl (passOn p a.view a.cut a.need)
    (payments a.view a.cut a.need, [])

/-- The amounts give back what was passed on above the needs, or nothing. -/
structure Passed (p : Prices) (a : Amounts) : Prop where
  size : a.need.size = a.view.size
  acyclic : (needGraph a.view a.cut).layers.cyclic = false
  refunds : a.refunds = [] ∨ a.refunds = (passedOn p a).2

lemma paidAt_replicate (size i : Nat) : paidAt (Array.replicate size unpaid) i = unpaid := by
  rw [paidAt, Array.getElem?_replicate]
  split <;> rfl

lemma paidAt_passedOn_le {x : Int} (ho : (i, x) ∈ dueOffers a.view a.cut a.need)
    (hlt : i < a.view.size) : paidAt (passedOn p a).1 i ≤ x := by
  refine le_trans (paidAt_foldl_passOn_le _ _) ?_
  rw [payments_eq]
  exact (le_paidAt_offers_iff.1 (le_refl _)).2 _ ho rfl (by rwa [Array.size_replicate])

namespace Payable

variable (h : Payable s p g a) (hp : Passed p a)

include h hp

lemma need_le_passedOn (i : Nat) : (a.need[i]?).getD 0 ≤ paidAt (passedOn p a).1 i := by
  refine @le_paidAt_foldl_passOn _ p a.view a.cut a.need _ (fun i => (a.need[i]?).getD 0)
    (fun i n paid hi hneed hpaid o ho => h.need_le_passes hi hneed hpaid ho) (fun j => ?_)
    (fun j => ?_) i
  · rw [payments_eq]
    refine le_paidAt_offers_iff.2 ⟨?_, fun o ho heq _ => ?_⟩
    · rw [paidAt_replicate]
      exact h.need_le hp.size j
    · exact le_of_eq (by rw [mem_dueOffers ho, heq])
  · rw [payments_eq]
    exact le_trans (paidAt_offers_le _ _ _) (le_of_eq (paidAt_replicate _ _))

lemma passedOn_spec :
    (∀ i < a.view.size, ∀ n, goesOn a.view (passedOn p a).1 i = some n →
      ∀ o ∈ passes p a.view a.cut n (leftAt a.need (passedOn p a).1 i n), o.1 < a.view.size →
        paidAt (passedOn p a).1 o.1 ≤ o.2) ∧
    ∀ index amount, (index, amount) ∈ (passedOn p a).2 → ∃ i n, a.view.nodes[i]? = some n ∧
      index = n.index ∧
      amount = toAmount (wrap64 (paidAt (passedOn p a).1 i - (a.need[i]?).getD 0)) := by
  have hacyc := hp.acyclic
  rw [h.fits.view] at hacyc
  obtain ⟨hnodup, hmem, hfirst⟩ := needGraph_order h.explored hacyc
  rw [← h.fits.view] at hnodup hmem hfirst
  obtain ⟨hoffers, hgiven⟩ := foldl_passOn (nodup_reverse.2 hnodup) (targetsLater_reverse hfirst)
    (Eq.refl (passedOn p a))
  rw [payments_eq, size_offers, Array.size_replicate] at hoffers
  constructor
  · intro i hi
    exact hoffers i (mem_reverse.2 ((hmem i).2 hi))
  · intro index amount hentry
    rw [hgiven, nil_append] at hentry
    obtain ⟨i, -, hentry⟩ := mem_flatMap.1 hentry
    cases hgoes : goesOn a.view (passedOn p a).1 i with
    | none =>
      rw [hgoes] at hentry
      cases hentry
    | some n =>
      rw [hgoes, elim_some, givesBack] at hentry
      split at hentry
      · obtain ⟨hidx, hamt⟩ := Prod.mk.inj (mem_singleton.1 hentry)
        exact ⟨i, n, (goesOn_eq_some_iff.1 hgoes).1, hidx, hamt⟩
      · cases hentry

lemma paidAt_target_le (hn : n ∈ g.order)
    (hmark : paidAt (passedOn p a).1 (a.view.place n.index) < unpaid) (he : n.edges[b]? = some e)
    (hdep : dependsOn n b) (hcut : isCut a.cut (a.view.place e.target) = false) :
    paidAt (passedOn p a).1 (a.view.place e.target) ≤
      (if gives n then a.needAt n.index else paidAt (passedOn p a).1 (a.view.place n.index)) -
        p.cost n b := by
  have hgoes : goesOn a.view (passedOn p a).1 (a.view.place n.index) = some n := by
    refine goesOn_eq_some_iff.2 ⟨h.getElem?_view hn, Int.ne_of_lt hmark, ?_⟩
    obtain ⟨call, lib, hstmt, -⟩ := h.explored.invokes_of_edge hn (mem_of_getElem? he)
    rw [Node.isReturn, hstmt]
  obtain ⟨m, hm, htarget⟩ := h.explored.exists_target hn (mem_of_getElem? he)
  have hd : (e, b) ∈ dependencies n := mem_filter.2 ⟨mk_mem_zipIdx_iff_getElem?.2 he, hdep⟩
  have hpass := (h.passedOn_spec hp).1 _ (h.place_lt hn) n hgoes
    (a.view.place e.target, wrap64 (leftAt a.need (passedOn p a).1 (a.view.place n.index) n -
      p.branchCost n b))
    (mem_passes_iff.2 ⟨(e, b), hd, hcut, rfl, rfl⟩) (htarget ▸ h.place_lt hm)
  -- what is left covers the cost, so the difference is an integer of the machine
  have hcovers := h.covers n hn b e he
  have hdue := h.fits.dueFor_target_nonneg h.explored hn he
  have hcost := h.cost_nonneg n hn b e he
  have hhere : a.needAt n.index ≤ paidAt (passedOn p a).1 (a.view.place n.index) :=
    h.need_le_passedOn hp _
  have hlt := unpaid_lt
  have hneed : (a.need[a.view.place n.index]?).getD 0 = a.needAt n.index := rfl
  rw [h.branchCost_eq hn he, leftAt] at hpass
  split at hpass
  · next hgives =>
    rw [if_pos hgives]
    rwa [wrap64_eq (by omega) (by omega)] at hpass
  · next hkeep =>
    rw [if_neg hkeep]
    rwa [wrap64_eq (by omega) (by omega)] at hpass

lemma refundAt_le (hn : n ∈ g.order)
    (hmark : paidAt (passedOn p a).1 (a.view.place n.index) < unpaid) :
    (a.refundAt n.index : Int) ≤
      paidAt (passedOn p a).1 (a.view.place n.index) - a.needAt n.index := by
  have hhere : a.needAt n.index ≤ paidAt (passedOn p a).1 (a.view.place n.index) :=
    h.need_le_passedOn hp _
  have hpos := h.fits.needAt_nonneg h.explored hn
  unfold refundAt
  cases hlookup : a.refunds.lookup n.index with
  | none =>
    rw [getD_none]
    omega
  | some amount =>
    have hmem := mem_of_lookup hlookup
    rcases hp.refunds with hnone | hall
    · rw [hnone] at hmem
      cases hmem
    rw [hall] at hmem
    obtain ⟨i, m, hi, hidx, hamt⟩ := (h.passedOn_spec hp).2 _ _ hmem
    obtain ⟨-, hplace, hsame⟩ := h.needAt_place hi
    have hlt := unpaid_lt
    rw [hsame, ← hplace, ← hidx, wrap64_eq (by omega) (by omega), toAmount] at hamt
    rw [getD_some]
    omega

lemma floor : Floor p g a fun index => paidAt (passedOn p a).1 (a.view.place index) := by
  refine ⟨fun n hn => ?_, ?_, fun n hn hcut => ?_, fun n hn hpoint e he => ?_,
    fun n hn hmark b e he hdep hcut => ?_, fun n hn hmark _ => ?_⟩
  · exact h.need_le_passedOn hp (a.view.place n.index)
  · obtain ⟨n, hn, -⟩ := h.explored.entry
    have hlt := h.place_lt (Flow.mem_order_of_node? hn)
    rw [(h.explored.visited_of_node? hn).2] at hlt
    have hview : a.view.entry = a.view.place g.function.entry := by
      rw [h.fits.view]
      rfl
    have hoffer : (a.view.place g.function.entry, a.needAt g.function.entry) ∈
        dueOffers a.view a.cut a.need := mem_cons.2 (.inl (by rw [hview]; rfl))
    exact paidAt_passedOn_le hoffer hlt
  · have hoffer : (a.view.place n.index, a.needAt n.index) ∈ dueOffers a.view a.cut a.need := by
      refine h.mem_dueOffers_of hn (mem_append_left _ ?_)
      rw [if_pos hcut]
      exact mem_singleton_self _
    exact paidAt_passedOn_le hoffer (h.place_lt hn)
  · obtain ⟨m, hm, htarget⟩ := h.explored.exists_target hn (mem_of_getElem? he)
    have hoffer : (a.view.place e.target, a.needAt e.target) ∈ dueOffers a.view a.cut a.need := by
      refine h.mem_dueOffers_of hn (mem_append_right _ ?_)
      cases hedges : n.edges with
      | nil => simp [hedges] at he
      | cons success rest =>
        rw [hedges] at he
        cases he
        rw [hpoint]
        exact mem_singleton_self _
    exact paidAt_passedOn_le hoffer (htarget ▸ h.place_lt hm)
  · exact h.paidAt_target_le hp hn hmark he hdep hcut
  · exact h.refundAt_le hp hn hmark

end Payable

end

lemma size_needs (p : Prices) (v : View) (cut : Array Bool) (order : List Nat) :
    (needs p v cut order).size = v.size := by
  refine foldlRecOn (motive := fun need : Array Int => need.size = v.size) _ _
    Array.size_replicate fun need hneed i _ => ?_
  split
  · exact hneed
  · rw [Array.size_modify, hneed]

lemma passed_of_amountsOf {types : Types} {p : Prices} {isRecursive dynamic : Bool} {g : Flow}
    {a : Amounts} (ha : amountsOf types p isRecursive dynamic g = .ok a) : Passed p a := by
  unfold amountsOf at ha
  dsimp only at ha
  split at ha
  · cases ha
  split at ha
  · cases ha
  next hacyc =>
  simp only [pure, Except.pure, Except.ok.injEq] at ha
  subst ha
  refine ⟨size_needs _ _ _ _, Bool.eq_false_iff.2 hacyc, ?_⟩
  dsimp only
  split
  · exact .inr rfl
  · exact .inl rfl

/-! ## Balances with redeposits -/

section

variable {s : Settled} {p : Prices} {g : Flow} {a : Amounts} {low : Int → Int}

/-- What a statement takes from the balance to give it back. -/
def Amounts.returns (a : Amounts) (n : Node) : Nat := if gives n then a.refundAt n.index else 0

/-- The balances along the ways of a function, where redeposits take what they give back. -/
inductive NetBalance (p : Prices) (g : Flow) (a : Amounts) : Node → Int → Prop
  | entry {n : Node} (hn : g.node? g.function.entry = some n) :
      NetBalance p g a n (a.needAt n.index)
  | branch {n m : Node} {balance : Int} {b : Nat} {e : Edge}
      (hbefore : NetBalance p g a n balance) (he : n.edges[b]? = some e)
      (hm : g.node? e.target = some m) :
      NetBalance p g a m (a.tariff.arrive m.index (a.tariff.leave p n b (balance - a.returns n)))

structure Floor.Under (low : Int → Int) (g : Flow) (n : Node) (balance : Int) : Prop where
  mem : n ∈ g.order
  reached : low n.index < unpaid
  le : low n.index ≤ balance

namespace Floor.Under

variable {n m : Node} {balance : Int}

lemma returns_le (hu : Under low g n balance) (hf : Floor p g a low) :
    a.needAt n.index ≤ balance ∧ (a.returns n : Int) ≤ balance - a.needAt n.index := by
  have hneed := hf.need n hu.mem
  have hle := hu.le
  unfold returns
  split
  · next hgives =>
    have hrefund := hf.refund n hu.mem hu.reached hgives
    omega
  · omega

lemma arrive (h : Payable s p g a) (hf : Floor p g a low) (hm : m ∈ g.order)
    (hreached : isCut a.cut (a.view.place m.index) = false →
      low m.index < unpaid ∧ low m.index ≤ balance) :
    Under low g m (a.tariff.arrive m.index balance) := by
  unfold Tariff.arrive
  rw [h.fits.tariff_injected h.explored hm]
  cases hcut : isCut a.cut (a.view.place m.index) with
  | false =>
    obtain ⟨hmark, hle⟩ := hreached hcut
    exact ⟨hm, hmark, hle⟩
  | true =>
    have hlow := hf.cut m hm hcut
    have hmark := h.unmarked m hm
    refine ⟨hm, by omega, ?_⟩
    show low m.index ≤ (((a.needAt m.index).toNat : Nat) : Int)
    omega

lemma leave (h : Payable s p g a) (hf : Floor p g a low) (hu : Under low g n balance)
    (he : n.edges[b]? = some e) (hcut : isCut a.cut (a.view.place e.target) = false) :
    low e.target < unpaid ∧ low e.target ≤ a.tariff.leave p n b (balance - a.returns n) := by
  obtain ⟨m, hm, htarget⟩ := h.explored.exists_target hu.mem (mem_of_getElem? he)
  have hmark := h.unmarked n hu.mem
  unfold Tariff.leave
  split
  · next hdep =>
    have hpass := hf.pass n hu.mem hu.reached b e he hdep hcut
    have hcost := h.cost_nonneg n hu.mem b e he
    obtain ⟨-, hret⟩ := hu.returns_le hf
    have hle := hu.le
    have hreached := hu.reached
    unfold returns at hret ⊢
    split at hpass
    · next hgives => omega
    · next hkeep =>
      rw [if_neg hkeep]
      omega
  · next hsucc =>
    -- only the success of a checkpoint brings its own balance
    obtain ⟨hpoint, rfl⟩ := isCheckpoint_of_not_dependsOn (Bool.eq_false_iff.2 hsucc)
    have hlow := hf.success n hu.mem hpoint e he
    rw [h.fits.tariff_charge h.explored hu.mem hpoint he, dueFor_eq, hcut,
      if_neg Bool.false_ne_true]
    have hmark' := h.unmarked m hm
    rw [htarget] at hmark'
    omega

end Floor.Under

lemma NetBalance.under (h : Payable s p g a) (hf : Floor p g a low) {balance : Int}
    (hb : NetBalance p g a n balance) : Floor.Under low g n balance := by
  induction hb with
  | @entry n hn =>
    have hmem := Flow.mem_order_of_node? hn
    have hlow := hf.entry
    rw [← (h.explored.visited_of_node? hn).2] at hlow
    have hmark := h.unmarked n hmem
    exact ⟨hmem, by omega, hlow⟩
  | branch _ he hm ih =>
    have hidx := (h.explored.visited_of_node? hm).2
    refine Floor.Under.arrive h hf (Flow.mem_order_of_node? hm) fun hcut => ?_
    rw [hidx] at hcut ⊢
    exact ih.leave h hf he hcut

end

end Sierra.Gas
