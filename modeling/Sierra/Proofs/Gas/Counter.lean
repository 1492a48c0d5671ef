import Sierra.Proofs.Gas.Prepaid
import Sierra.Proofs.Gas.Refund

/-!
# The gas counter

Checks and checkpoints take from the counter and redeposits add to it, as 64-bit words. Together
with the balance of the running function it never rises (`Counted`).
-/

namespace Sierra.Gas

open Flow (Node Edge Explored)

variable {amounts : Amounts} {callers : List Caller} {limit balance : Int} {n : Node} {g : Flow}

/-! ## Runs with a counter -/

/-- A waiting function: where it goes on, and the counter with which it was entered. -/
structure Caller where
  flow : Flow
  target : Int
  atEntry : Nat

/-- The statement, the counter before it and at the entry, and the functions that wait. -/
structure Meter where
  flow : Flow
  node : Node
  counter : Nat
  atEntry : Nat
  callers : List Caller := []

/-- A checkpoint takes its charge, a redeposit adds what it gives back, any other branch may use gas
up. -/
def Amounts.Spends (a : Amounts) (n : Node) (branch counter next : Nat) : Prop :=
  if dependsOn n branch then
    if gives n then next = (counter + a.refundAt n.index) % pow2 64 else next ≤ counter
  else next + a.tariff.charge n.index = counter

/-- The runs from a function and some gas, at each function's own amounts. A run ends where a check
or a checkpoint finds too little. -/
inductive Meters (flows : List Flow) (own : Flow → Amounts) (first : Flow) (gas : Nat) :
    Meter → Prop
  | enter {n : Node} {left : Nat} (hn : first.node? first.function.entry = some n)
      (hcheck : left + (own first).tariff.extra n.index = gas) :
      Meters flows own first gas ⟨first, n, left, gas, []⟩
  | branch {g : Flow} {n m : Node} {callers : List Caller} {counter atEntry next left b : Nat}
      {e : Edge} (hbefore : Meters flows own first gas ⟨g, n, counter, atEntry, callers⟩)
      (hcallee : calleeOf n = none) (he : n.edges[b]? = some e)
      (hm : g.node? e.target = some m) (hspends : (own g).Spends n b counter next)
      (hcheck : left + (own g).tariff.extra m.index = next) :
      Meters flows own first gas ⟨g, m, left, atEntry, callers⟩
  | call {g h : Flow} {n m : Node} {callers : List Caller} {counter atEntry left b : Nat} {e : Edge}
      {callee : FunctionId}
      (hbefore : Meters flows own first gas ⟨g, n, counter, atEntry, callers⟩)
      (hcallee : calleeOf n = some callee) (he : n.edges[b]? = some e) (hh : h ∈ flows)
      (hid : h.function.id.number = callee.number) (hm : h.node? h.function.entry = some m)
      (hcheck : left + (own h).tariff.extra m.index = counter) :
      Meters flows own first gas ⟨h, m, left, counter, ⟨g, e.target, atEntry⟩ :: callers⟩
  | back {g : Flow} {n m : Node} {caller : Caller} {callers : List Caller}
      {counter atEntry left : Nat}
      (hbefore : Meters flows own first gas ⟨g, n, counter, atEntry, caller :: callers⟩)
      (hreturn : n.isReturn = true) (hm : caller.flow.node? caller.target = some m)
      (hcheck : left + (own caller.flow).tariff.extra m.index = counter) :
      Meters flows own first gas ⟨caller.flow, m, left, caller.atEntry, callers⟩

section

variable {s : Settled} {p : Prices} {flows : List Flow} {own : Flow → Amounts}
  {low : Flow → Int → Int}

/-- The counter and the payments of a function at its entry. -/
def budget (own : Flow → Amounts) (g : Flow) (atEntry : Nat) : Int := atEntry + (own g).entry

/-- Each waiting function holds the budget of the one it has called and a balance to go on with. -/
inductive Holds (flows : List Flow) (own : Flow → Amounts) (low : Flow → Int → Int) (limit : Int) :
    List Caller → Int → Prop
  | nil {total : Int} (hle : total ≤ limit) : Holds flows own low limit [] total
  | cons {caller : Caller} {callers : List Caller} {total balance : Int}
      (hmem : caller.flow ∈ flows) (hpos : 0 ≤ balance)
      (hgoes : Amounts.isCut (own caller.flow).cut
        ((own caller.flow).view.place caller.target) = false →
          low caller.flow caller.target < unpaid ∧ low caller.flow caller.target ≤ balance)
      (hle : total + balance ≤ budget own caller.flow caller.atEntry)
      (hrest : Holds flows own low limit callers (budget own caller.flow caller.atEntry)) :
      Holds flows own low limit (caller :: callers) total

/-- Counter and balance of the running function are within its budget. -/
structure Counted (flows : List Flow) (own : Flow → Amounts) (low : Flow → Int → Int)
    (limit : Int) (m : Meter) : Prop where
  mem : m.flow ∈ flows
  within : ∃ balance, Floor.Under (low m.flow) m.flow m.node balance ∧
    m.counter + balance ≤ budget own m.flow m.atEntry
  holds : Holds flows own low limit m.callers (budget own m.flow m.atEntry)

lemma Holds.le {total : Int} (h : Holds flows own low limit callers total) :
    total ≤ limit ∧ ∀ caller ∈ callers, caller.flow ∈ flows ∧
      total ≤ budget own caller.flow caller.atEntry := by
  induction h with
  | nil hle => exact ⟨hle, fun _ hmem => absurd hmem List.not_mem_nil⟩
  | cons hmem hpos _ hle _ ih =>
    refine ⟨by omega, fun other hother => ?_⟩
    rcases List.mem_cons.1 hother with rfl | hother
    · exact ⟨hmem, by omega⟩
    · obtain ⟨hmem', hbudget⟩ := ih.2 other hother
      exact ⟨hmem', by omega⟩

lemma gives_of_calleeOf {callee : FunctionId} (h : calleeOf n = some callee) : gives n = false := by
  unfold calleeOf at h
  unfold gives
  cases hlib : n.libfunc with
  | none => rfl
  | some f => cases hrole : f.role <;> simp_all [Role.callee?]

variable (hpay : ∀ g ∈ flows, Payable s p g (own g))
  (hfloor : ∀ g ∈ flows, Floor p g (own g) (low g))
include hpay hfloor

lemma counted_of_reached (hg : g ∈ flows) {target : Int} {m : Node}
    (hm : g.node? target = some m) (hpos : 0 ≤ balance)
    (hgoes : Amounts.isCut (own g).cut ((own g).view.place target) = false →
      low g target < unpaid ∧ low g target ≤ balance) {left next atEntry : Nat}
    (hcheck : left + (own g).tariff.extra m.index = next)
    (hle : next + balance ≤ budget own g atEntry)
    (hrest : Holds flows own low limit callers (budget own g atEntry)) :
    Counted flows own low limit ⟨g, m, left, atEntry, callers⟩ := by
  have hidx := ((hpay g hg).explored.visited_of_node? hm).2
  have harrive : (own g).tariff.arrive m.index balance ≤
      balance + (own g).tariff.extra m.index := Tariff.arrive_le hpos
  refine ⟨hg, ⟨_, Floor.Under.arrive (hpay g hg) (hfloor g hg) (Flow.mem_order_of_node? hm)
    (by rw [hidx]; exact hgoes), ?_⟩, hrest⟩
  show (left : Int) + (own g).tariff.arrive m.index balance ≤ budget own g atEntry
  omega

lemma leave_of_spends (hg : g ∈ flows) (hu : Floor.Under (low g) g n balance) {b : Nat} {e : Edge}
    (he : n.edges[b]? = some e) {counter next : Nat} (hspends : (own g).Spends n b counter next) :
    0 ≤ (own g).tariff.leave p n b (balance - (own g).returns n) ∧
      next + (own g).tariff.leave p n b (balance - (own g).returns n) ≤ counter + balance := by
  obtain ⟨hneed, hret⟩ := hu.returns_le (hfloor g hg)
  have hpaid := hpay g hg
  have hcost := hpaid.cost_nonneg n hu.mem b e he
  have hcovers := hpaid.covers n hu.mem b e he
  have hdue := hpaid.fits.dueFor_target_nonneg hpaid.explored hu.mem he
  unfold Amounts.Spends at hspends
  unfold Tariff.leave
  split at hspends
  · next hdep =>
    rw [if_pos hdep] at hcovers ⊢
    refine ⟨by omega, ?_⟩
    unfold Amounts.returns
    split at hspends
    · next hgives =>
      have hmod := Nat.mod_le (counter + (own g).refundAt n.index) (pow2 64)
      rw [if_pos hgives]
      omega
    · next hkeep => omega
  · next hsucc => omega

lemma Meters.counted (hown : ∀ g ∈ flows, ∀ n ∈ g.order, ∀ b e, n.edges[b]? = some e →
      0 ≤ p.ownCost n b) (hentry : ∀ g ∈ flows, (own g).entry = (own g).dueFor g.function.entry ∧
      ∀ id : FunctionId, g.function.id.number = id.number → p.entryCost id = (own g).entry)
    {first : Flow} (hfirst : first ∈ flows) {gas : Nat} {m : Meter}
    (h : Meters flows own first gas m) : Counted flows own low (budget own first gas) m := by
  -- what a function needs when it is entered is above the floor of its entry
  have hstart : ∀ g ∈ flows, 0 ≤ (own g).entry ∧
      (Amounts.isCut (own g).cut ((own g).view.place g.function.entry) = false →
        low g g.function.entry < unpaid ∧ low g g.function.entry ≤ (own g).entry) := by
    intro g hg
    have hpaid := hpay g hg
    obtain ⟨n, hn, -⟩ := hpaid.explored.entry
    have hmem := Flow.mem_order_of_node? hn
    have hidx := (hpaid.explored.visited_of_node? hn).2
    have hdue := hpaid.fits.dueFor_nonneg hpaid.explored hmem
    have hmark := hpaid.unmarked n hmem
    rw [hidx] at hdue hmark
    rw [(hentry g hg).1]
    refine ⟨hdue, fun hcut => ?_⟩
    rw [Amounts.dueFor_eq, hcut]
    have hlow := (hfloor g hg).entry
    exact ⟨by omega, hlow⟩
  induction h with
  | enter hn hcheck =>
    exact counted_of_reached hpay hfloor hfirst hn (hstart _ hfirst).1 (hstart _ hfirst).2 hcheck
      (le_refl _) (.nil (le_refl _))
  | @branch g n m callers counter atEntry next left b e _ hcall he hm hspends hcheck ih =>
    obtain ⟨hg, ⟨balance, hu, hle⟩, hholds⟩ := ih
    dsimp only at hg hu hle hholds
    obtain ⟨hpos, hnext⟩ := leave_of_spends hpay hfloor hg hu he hspends
    exact counted_of_reached hpay hfloor hg hm hpos
      (fun hcut => hu.leave (hpay g hg) (hfloor g hg) he hcut) hcheck (by omega) hholds
  | @call g h n m callers counter atEntry left b e callee _ hcall he hh hid hm hcheck ih =>
    obtain ⟨hg, ⟨balance, hu, hle⟩, hholds⟩ := ih
    dsimp only at hg hu hle hholds
    obtain ⟨hdep, hcost⟩ := cost_of_calleeOf hcall p b
    rw [(hentry h hh).2 callee hid] at hcost
    have hgives := gives_of_calleeOf hcall
    have hspends : (own g).Spends n b counter counter := by
      rw [Amounts.Spends, if_pos hdep, hgives, if_neg Bool.false_ne_true]
    obtain ⟨hpos, -⟩ := leave_of_spends hpay hfloor hg hu he hspends
    have hgoes := fun hcut => hu.leave (hpay g hg) (hfloor g hg) he hcut
    have hnonneg := hown g hg n hu.mem b e he
    -- the budget of the function called is the counter with what the caller pays for the call
    have hholds' : Holds flows own low (budget own first gas) (⟨g, e.target, atEntry⟩ :: callers)
        (budget own h counter) := by
      refine .cons hg hpos hgoes ?_ hholds
      rw [Tariff.leave, if_pos hdep, Amounts.returns, hgives]
      show (counter : Int) + (own h).entry + (balance - (0 : Nat) - p.cost n b) ≤
        budget own g atEntry
      omega
    exact counted_of_reached hpay hfloor hh hm (hstart h hh).1 (hstart h hh).2 hcheck
      (le_refl _) hholds'
  | @back g n m caller callers counter atEntry left _ hreturn hm hcheck ih =>
    obtain ⟨hg, ⟨balance, hu, hle⟩, hholds⟩ := ih
    dsimp only at hg hu hle hholds
    have hneed := (hu.returns_le (hfloor g hg)).1
    have hpos := (hpay g hg).fits.needAt_nonneg (hpay g hg).explored hu.mem
    cases hholds with
    | cons hmem hpos' hgoes hle' hrest =>
      exact counted_of_reached hpay hfloor hmem hm hpos' hgoes hcheck (by omega) hrest

end

/-! ## Analysed programs -/

variable {program : Program} {s : Settled} {opts : Options} {flows : List Flow} {a : Analysis}

/-- The amounts of a function; none if it could not be analysed. -/
def Analysis.own (a : Analysis) (s : Settled) (opts : Options) (flows : List Flow) (g : Flow) :
    Amounts :=
  match a.amountsOf s opts flows g with
  | .ok amounts => amounts
  | .error _ => { view := View.ofFlow g, cut := #[], need := #[] }

/-- No need is as high as the mark of a statement that no payment has reached. -/
def Unmarked (s : Settled) (opts : Options) (flows : List Flow) (a : Analysis) : Prop :=
  ∀ g ∈ flows, ∀ n ∈ g.order, (a.own s opts flows g).needAt n.index < unpaid

instance : Decidable (Unmarked s opts flows a) :=
  inferInstanceAs (Decidable (∀ g ∈ flows, ∀ n ∈ g.order, _ < _))

namespace Analysed

variable {family : List (Flow × Amounts)} {g : Flow}

section

variable (h : Analysed s opts flows a family)
include h

lemma own_mem (hg : g ∈ flows) : (g, a.own s opts flows g) ∈ family := by
  obtain ⟨amounts, hx⟩ := h.all g hg
  rw [Analysis.own, h.amounts _ hx]
  exact hx

lemma payable (hflow : ∀ g ∈ flows, g.Explored s)
    (hexact : Exact s opts flows a) (hx : (g, amounts) ∈ family)
    (hunmarked : ∀ n ∈ g.order, amounts.needAt n.index < unpaid) :
    Payable s a.prices g amounts where
  toPriced := h.priced_of_exact hflow hexact _ hx
  metering := rfl
  cost_nonneg _ hn _ _ he := h.cost_nonneg hflow hexact.table (h.mem _ hx) hn he
  unmarked := hunmarked

lemma floor (hx : (g, amounts) ∈ family) (hpay : Payable s a.prices g amounts) :
    Floor a.prices g amounts fun index =>
      paidAt (passedOn a.prices amounts).1 (amounts.view.place index) :=
  hpay.floor (passed_of_amountsOf (h.amounts (g, amounts) hx))

end

end Analysed

end Sierra.Gas
