import Sierra.Proofs.Gas.Prepaid
import Sierra.Proofs.Gas.Refund

/-!
# Going round

A run goes round when it comes back to a statement, in the same call or further in. A round could be
gone again and again, and gas is prepaid however often (`Course.cost_le`).
-/

namespace Sierra.Gas

open List
open Flow (Node Edge Explored)

variable {g : Flow} {paid spent : Int} {inner : List (Flow × Int)} {m n : Node}

/-! ## Steps with what they take -/

/-- The statement reached, and where callers go on. -/
structure Place where
  flow : Flow
  node : Node
  callers : List (Flow × Int) := []

structure Toll where
  /-- The checks and successful checkpoints that were passed. -/
  checks : Nat := 0
  deducted : Nat := 0
  given : Nat := 0
  cost : Int := 0

def Toll.plus (x y : Toll) : Toll :=
  ⟨x.checks + y.checks, x.deducted + y.deducted, x.given + y.given, x.cost + y.cost⟩

variable {x y : Place} {toll : Toll}

lemma Toll.zero_plus (x : Toll) : Toll.plus {} x = x := by simp [Toll.plus]

/-- What is taken, what redeposits give back and what branches cost. -/
structure Terms where
  tariff : Tariff
  refund : Int → Nat
  prices : Prices

namespace Terms

def arrival (t : Terms) (m : Node) : Toll where
  checks := if (t.tariff.injected m.index).isSome then 1 else 0
  deducted := t.tariff.extra m.index

/-- What a branch takes, without what the function called needs. -/
def departure (t : Terms) (n : Node) (branch : Nat) : Toll where
  checks := if dependsOn n branch then 0 else 1
  deducted := if dependsOn n branch then 0 else t.tariff.charge n.index
  given := if gives n then t.refund n.index else 0
  cost := t.prices.cost n branch

end Terms

/-- Steps along a branch, over the function that it may call, and into it. -/
inductive Goes (flows : List Flow) (t : Terms) : Place → Toll → Place → Prop
  | branch {g : Flow} {n m : Node} {callers : List (Flow × Int)} {b : Nat} {e : Edge}
      (he : n.edges[b]? = some e) (hm : g.node? e.target = some m) :
      Goes flows t ⟨g, n, callers⟩ ((t.departure n b).plus (t.arrival m)) ⟨g, m, callers⟩
  | call {g h : Flow} {n m : Node} {callers : List (Flow × Int)} {b : Nat} {e : Edge}
      {callee : FunctionId} (hcallee : calleeOf n = some callee) (he : n.edges[b]? = some e)
      (hh : h ∈ flows) (hid : h.function.id.number = callee.number)
      (hm : h.node? h.function.entry = some m) :
      Goes flows t ⟨g, n, callers⟩ (Toll.plus { cost := t.prices.ownCost n b } (t.arrival m))
        ⟨h, m, (g, e.target) :: callers⟩

/-- Steps that go on, and back to the caller. -/
inductive Moves (flows : List Flow) (t : Terms) : Place → Toll → Place → Prop
  | goes {x y : Place} {toll : Toll} (h : Goes flows t x toll y) : Moves flows t x toll y
  | back {g caller : Flow} {n m : Node} {target : Int} {callers : List (Flow × Int)}
      (hreturn : n.isReturn = true) (hm : caller.node? target = some m) :
      Moves flows t ⟨g, n, (caller, target) :: callers⟩ (t.arrival m) ⟨caller, m, callers⟩

/-- Ways of at least one step, with all that is taken on them. -/
inductive Course (step : Place → Toll → Place → Prop) : Place → Toll → Place → Prop
  | one {x y : Place} {toll : Toll} (h : step x toll y) : Course step x toll y
  | more {x y z : Place} {toll last : Toll} (h : Course step x toll y) (hstep : step y last z) :
      Course step x (toll.plus last) z

/-! ## Rounds again and again -/

def Place.under (x : Place) (outer : List (Flow × Int)) : Place :=
  { x with callers := x.callers ++ outer }

section

variable {flows : List Flow} {t : Terms}

lemma Moves.under (h : Moves flows t x toll y)
    (outer : List (Flow × Int)) : Moves flows t (x.under outer) toll (y.under outer) := by
  cases h with
  | goes h =>
    cases h with
    | branch he hm => exact .goes (.branch he hm)
    | call hcall he hh hid hm => exact .goes (.call hcall he hh hid hm)
  | back hret hm => exact .back hret hm

lemma Course.under (h : Course (Moves flows t) x toll y) (outer : List (Flow × Int)) :
    Course (Moves flows t) (x.under outer) toll (y.under outer) := by
  induction h with
  | one h => exact .one (h.under outer)
  | more _ hstep ih => exact ih.more (hstep.under outer)

end

def Place.point (x : Place) (paid spent : Int) : Point := ⟨x.flow, x.node, x.callers, paid, spent⟩

section

variable {s : Settled} {flows : List Flow} {family : List (Flow × Amounts)} {t : Terms}
  (hfam : ∀ x ∈ family, Priced s t.prices x.1 x.2) (ht : t.tariff.Backed family)
  (hflows : ∀ g ∈ flows, g.Explored s)
  (hentry : ∀ g ∈ flows, ∀ id : FunctionId, g.function.id.number = id.number →
    CoversDue family g.function.entry (t.prices.entryCost id))

include hfam ht hflows hentry

lemma Moves.solvent (h : Moves flows t x toll y) (hx : Solvent flows family (x.point paid spent)) :
    Solvent flows family (y.point (paid + toll.deducted) (spent + toll.cost)) := by
  obtain ⟨hg, hn, balance, aside, hcover, haside, hle⟩ := hx
  cases h with
  | goes h =>
    cases h with
    | @branch g n m callers b e he hm =>
      dsimp only [Place.point] at hg hn hcover haside hle
      obtain ⟨hpays, hdue⟩ := hcover.leave hfam ht (hflows g hg) hn he
      refine solvent_of_coversDue hfam ht hflows hg hm hdue haside ?_
      simp only [Toll.plus, Terms.departure, Terms.arrival, Tariff.leave]
      split <;> omega
    | @call g h n m callers b e callee hcall he hh hid hm =>
      dsimp only [Place.point] at hg hn hcover haside hle
      obtain ⟨hpays, hdue⟩ := hcover.leave hfam ht (hflows g hg) hn he
      obtain ⟨hdep, hcost⟩ := cost_of_calleeOf hcall t.prices b
      rw [Tariff.leave, if_pos hdep] at hdue
      refine solvent_of_coversDue hfam ht hflows hh hm (hentry h hh callee hid)
        (.cons hg hdue haside) ?_
      simp only [Toll.plus, Terms.arrival]
      omega
  | @back g caller n m target callers hret hm =>
    dsimp only [Place.point] at hcover haside hle
    have hpos := hcover.nonneg hfam
    cases haside with
    | cons hg hdue hrest =>
      refine solvent_of_coversDue hfam ht hflows hg hm hdue hrest ?_
      dsimp only [Terms.arrival]
      omega

lemma Course.solvent (h : Course (Moves flows t) x toll y)
    (hx : Solvent flows family (x.point paid spent)) :
    Solvent flows family (y.point (paid + toll.deducted) (spent + toll.cost)) := by
  induction h with
  | one h => exact h.solvent hfam ht hflows hentry hx
  | more _ hstep ih =>
    have hnext := hstep.solvent hfam ht hflows hentry ih
    have hpaid : ∀ toll last : Toll, paid + toll.deducted + last.deducted =
        paid + ((toll.plus last).deducted : Nat) := by
      simp only [Toll.plus]
      omega
    rw [hpaid, add_assoc spent] at hnext
    exact hnext

/-- A round that has been gone some number of times leaves the run solvent, further in each time. -/
lemma Course.solvent_again (h : Course (Moves flows t) ⟨g, n, []⟩ toll ⟨g, n, inner⟩)
    (hstart : Solvent flows family (Place.point ⟨g, n, []⟩ paid 0)) (rounds : Nat) :
    ∃ callers, Solvent flows family
      (Place.point ⟨g, n, callers⟩ (paid + rounds * toll.deducted) (rounds * toll.cost)) := by
  induction rounds with
  | zero => exact ⟨[], by simpa using hstart⟩
  | succ rounds ih =>
    obtain ⟨callers, hsolvent⟩ := ih
    have hnext := (h.under callers).solvent hfam ht hflows hentry hsolvent
    refine ⟨inner ++ callers, ?_⟩
    rw [Int.natCast_add, Int.add_mul, Int.add_mul, Int.natCast_one, Int.one_mul, Int.one_mul,
      ← add_assoc]
    exact hnext

lemma Course.cost_le (hg : g ∈ flows) {amounts : Amounts}
    (hamts : (g, amounts) ∈ family) (hn : n ∈ g.order)
    (h : Course (Moves flows t) ⟨g, n, []⟩ toll ⟨g, n, inner⟩) : toll.cost ≤ toll.deducted := by
  have hstart : Solvent flows family (Place.point ⟨g, n, []⟩ (amounts.needAt n.index) 0) :=
    ⟨hg, hn, amounts.needAt n.index, 0, ⟨_, hamts, n, hn, rfl, le_refl _⟩, .nil,
      by simp [Place.point]⟩
  have hneed : 0 ≤ amounts.needAt n.index :=
    (hfam _ hamts).fits.needAt_nonneg (hflows g hg) hn
  -- a round that cost more than it deducts would use up any payment in the end
  by_contra hmore
  obtain ⟨callers, hsolvent⟩ := h.solvent_again hfam ht hflows hentry hstart
    ((amounts.needAt n.index).toNat + 1)
  have hle := hsolvent.spent_le hfam
  dsimp only [Place.point] at hle
  have hrounds : (((amounts.needAt n.index).toNat + 1 : Nat) : Int) =
      amounts.needAt n.index + 1 := by omega
  have hmul : (amounts.needAt n.index + 1) * ((toll.deducted : Int) + 1) ≤
      (amounts.needAt n.index + 1) * toll.cost :=
    Int.mul_le_mul_of_nonneg_left (by omega) (by omega)
  rw [mul_add] at hmul
  rw [hrounds] at hle
  omega

end

/-! ## Rounds without a check -/

def nodeRank (a : Amounts) (n : Node) : Nat :=
  (needGraph a.view a.cut).layers.order.idxOf (a.view.place n.index)

def functionRank (family : List (Flow × Amounts)) (g : Flow) : Nat :=
  (family.map fun x => x.1.function.id.number).idxOf g.function.id.number

lemma nodeRank_lt {s : Settled} {p : Prices} {a : Amounts} (hfits : a.Fits p g)
    (hg : g.Explored s) (hacyc : (needGraph a.view a.cut).layers.cyclic = false)
    (hn : n ∈ g.order) {b : Nat} {e : Edge} (he : n.edges[b]? = some e)
    (hdep : dependsOn n b) (hm : m.index = e.target)
    (hcut : Amounts.isCut a.cut (a.view.place m.index) = false) : nodeRank a m < nodeRank a n := by
  rw [nodeRank, nodeRank]
  rw [hfits.view] at hacyc hcut ⊢
  obtain ⟨hnodup, hmem, hfirst⟩ := needGraph_order hg hacyc
  have hplace := getElem?_place hg hn
  obtain ⟨before, after, hsplit⟩ :=
    append_of_mem ((hmem _).2 (Array.getElem?_eq_some_iff.1 hplace).1)
  refine Graph.idxOf_lt_idxOf hnodup hsplit ?_
  have hd : (e, b) ∈ dependencies n := mem_filter.2 ⟨mk_mem_zipIdx_iff_getElem?.2 he, hdep⟩
  rcases hfirst before _ after hsplit n hplace (e, b) hd with htrue | hpre
  · rw [← hm, hcut] at htrue
    cases htrue
  · rwa [hm]

lemma functionRank_lt {family : List (Flow × Amounts)} {numbers : List Nat}
    (hcalls : CalleesFirst numbers family) (hdist : DistinctIds (family.map (·.1)))
    {x : Flow × Amounts} (hx : x ∈ family) (hn : n ∈ x.1.order) {callee : FunctionId}
    (hcall : calleeOf n = some callee) (hnum : numbers.contains callee.number = false)
    {h : Flow} (hid : h.function.id.number = callee.number) :
    functionRank family h < functionRank family x.1 := by
  obtain ⟨before, after, hsplit⟩ := append_of_mem hx
  rw [DistinctIds, map_map] at hdist
  have hnumbers : (family.map fun x => x.1.function.id.number) =
      (before.map fun x => x.1.function.id.number) ++ x.1.function.id.number ::
        after.map fun x => x.1.function.id.number := by
    rw [hsplit, map_append, map_cons]
  refine Graph.idxOf_lt_idxOf hdist hnumbers ?_
  rcases hcalls before x after hsplit n hn callee hcall with hyes | ⟨y, hy, hsame⟩
  · cases hnum.symm.trans hyes
  · exact mem_map.2 ⟨y, hy, by rw [hsame, hid]⟩

section

variable {s : Settled} {opts : Options} {flows : List Flow} {a : Analysis}
  {family : List (Flow × Amounts)} {t : Terms} {own : Flow → Amounts}

def Place.Known (flows : List Flow) (x : Place) : Prop := x.flow ∈ flows ∧ x.node ∈ x.flow.order

/-- In an earlier function, or in the same one at an earlier statement. -/
def Place.Earlier (family : List (Flow × Amounts)) (own : Flow → Amounts) (x y : Place) : Prop :=
  functionRank family x.flow < functionRank family y.flow ∨
    functionRank family x.flow = functionRank family y.flow ∧ x.flow = y.flow ∧
      nodeRank (own x.flow) x.node < nodeRank (own y.flow) y.node

lemma Goes.known (h : Goes flows t x toll y) (hx : x.Known flows) : y.Known flows := by
  cases h with
  | branch he hm => exact ⟨hx.1, Flow.mem_order_of_node? hm⟩
  | call hcall he hh hid hm => exact ⟨hh, Flow.mem_order_of_node? hm⟩

variable (h : Analysed s opts flows a family) (hflows : ∀ g ∈ flows, g.Explored s)
  (hmem : ∀ g ∈ flows, (g, own g) ∈ family) (ht : t.tariff.Backed family)
include h hflows hmem ht

lemma not_recursive_of_unchecked (hg : g ∈ flows)
    (hm : g.node? g.function.entry = some m) (hnone : t.tariff.injected m.index = none) :
    (recursiveNumbers flows).contains g.function.id.number = false := by
  have hamts := h.amounts _ (hmem g hg)
  have hfree := ht.free _ (hmem g hg) m (Flow.mem_order_of_node? hm) hnone
  have hview := (h.fits hflows (hmem g hg)).view
  unfold Analysis.amountsOf at hamts
  rw [Bool.eq_false_iff]
  intro hyes
  rw [hyes] at hamts
  have hcut := isCut_entry (hflows g hg) rfl hamts
  have hentry : (own g).view.entry = (own g).view.place m.index := by
    rw [((hflows g hg).visited_of_node? hm).2]
    rw [hview]
    rfl
  rw [hentry, hfree] at hcut
  exact Bool.false_ne_true hcut

lemma Goes.earlier (hgoes : Goes flows t x toll y)
    (hx : x.Known flows) (hchecks : toll.checks = 0) : y.Earlier family own x := by
  cases hgoes with
  | @branch g n m callers b e he hm =>
    obtain ⟨hg, hn⟩ := hx
    simp only [Toll.plus, Terms.departure, Terms.arrival, Nat.add_eq_zero_iff] at hchecks
    obtain ⟨hpaid, hfree⟩ := hchecks
    have hdep : dependsOn n b := by
      by_contra hsucc
      simp [hsucc] at hpaid
    have hnone : t.tariff.injected m.index = none := by
      cases hinj : t.tariff.injected m.index with
      | none => rfl
      | some amount => simp [hinj] at hfree
    have hpassed := passed_of_amountsOf (h.amounts (g, own g) (hmem g hg))
    exact .inr ⟨rfl, rfl, nodeRank_lt (h.fits hflows (hmem g hg)) (hflows g hg)
      hpassed.acyclic hn he hdep ((hflows g hg).visited_of_node? hm).2
      (ht.free _ (hmem g hg) m (Flow.mem_order_of_node? hm) hnone)⟩
  | @call g callee n m callers b e id hcall he hh hid hm =>
    obtain ⟨hg, hn⟩ := hx
    simp only [Toll.plus, Terms.arrival, zero_add] at hchecks
    have hnone : t.tariff.injected m.index = none := by
      cases hinj : t.tariff.injected m.index with
      | none => rfl
      | some amount => simp [hinj] at hchecks
    have hnum := not_recursive_of_unchecked h hflows hmem ht hh hm hnone
    rw [hid] at hnum
    exact .inl (functionRank_lt h.callees h.distinct (hmem g hg) hn hcall hnum hid)

lemma Course.checks_pos (hg : g ∈ flows) (hn : n ∈ g.order)
    (hround : Course (Goes flows t) ⟨g, n, []⟩ toll ⟨g, n, inner⟩) : 0 < toll.checks := by
  have hcourse : ∀ {x y : Place} {toll : Toll}, Course (Goes flows t) x toll y → x.Known flows →
      y.Known flows ∧ (toll.checks = 0 → y.Earlier family own x) := by
    intro x y toll hway hx
    induction hway with
    | one hstep => exact ⟨hstep.known hx, hstep.earlier h hflows hmem ht hx⟩
    | more _ hstep ih =>
      obtain ⟨hy, hpast⟩ := ih
      refine ⟨hstep.known hy, fun hchecks => ?_⟩
      simp only [Toll.plus, Nat.add_eq_zero_iff] at hchecks
      have hfirst := hpast hchecks.1
      have hlast := hstep.earlier h hflows hmem ht hy hchecks.2
      unfold Place.Earlier at hfirst hlast ⊢
      rcases hfirst with hfirst | ⟨hsame, hflow, hfirst⟩
      · exact .inl (by omega)
      · rcases hlast with hlast | ⟨hsame', hflow', hlast⟩
        · exact .inl (by omega)
        · exact .inr ⟨by omega, hflow'.trans hflow, by omega⟩
  -- no place comes before itself
  by_contra hnone
  have hpast := (hcourse hround ⟨hg, hn⟩).2 (by omega)
  unfold Place.Earlier at hpast
  dsimp only at hpast
  omega

end

end Sierra.Gas
