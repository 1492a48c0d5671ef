import Mathlib.Data.Int.LeastGreatest
import Sierra.Proofs.Gas.Afloat

/-!
# Runs that do not end

A run that goes on forever at a bounded cost comes back to a statement and goes round for nothing
(`Endless.exists_free_round`). With finite gas every other run ends.
-/

namespace Sierra.Gas

open Flow (Node Edge Explored)

variable {toll : Toll} {t : Terms} {flows : List Flow} {first : Flow} {bound : Int} {n : Node}

/-! ## What is taken along a run -/

structure Endless (flows : List Flow) (t : Terms) where
  place : Nat → Place
  toll : Nat → Toll
  moves : ∀ k, Moves flows t (place k) (toll k) (place (k + 1))

namespace Endless

variable {flows : List Flow} {t : Terms} (r : Endless flows t)

def between (i : Nat) : Nat → Toll
  | 0 => {}
  | d + 1 => (between i d).plus (r.toll (i + d))

def total (k : Nat) : Toll := r.between 0 k

lemma total_succ (k : Nat) : r.total (k + 1) = (r.total k).plus (r.toll k) := by
  show (r.between 0 k).plus (r.toll (0 + k)) = (r.between 0 k).plus (r.toll k)
  rw [zero_add]

lemma cost_total_add (i d : Nat) :
    (r.total (i + d)).cost = (r.total i).cost + (r.between i d).cost := by
  induction d with
  | zero => simp [between]
  | succ d ih =>
    rw [← add_assoc, total_succ]
    simp only [between, Toll.plus, ih]
    omega

/-! ## Staying inside -/

def depth (k : Nat) : Nat := (r.place k).callers.length

/-- From the step on the run does not return to the callers it then has. -/
def Stays (i : Nat) : Prop := ∀ k, i ≤ k → r.depth i ≤ r.depth k

lemma exists_stays (m : Nat) : ∃ i, m ≤ i ∧ r.Stays i := by
  induction hdepth : r.depth m using Nat.strongRecOn generalizing m with
  | _ depth ih =>
    by_cases hstays : r.Stays m
    · exact ⟨m, le_refl m, hstays⟩
    · obtain ⟨k, hk, hlower⟩ : ∃ k, m ≤ k ∧ r.depth k < r.depth m := by
        simpa [Stays] using hstays
      obtain ⟨i, hi, hstays'⟩ := ih (r.depth k) (hdepth ▸ hlower) k rfl
      exact ⟨i, le_trans hk hi, hstays'⟩

end Endless

lemma Moves.exists_of_under {x y : Place} {outer : List (Flow × Int)}
    (h : Moves flows t (x.under outer) toll y) (hdepth : outer.length ≤ y.callers.length) :
    ∃ z, y = z.under outer ∧ Moves flows t x toll z := by
  obtain ⟨g, n, callers⟩ := x
  generalize hx : Place.under ⟨g, n, callers⟩ outer = x' at h
  cases h with
  | goes h =>
    cases h with
    | @branch g' n' m callers' b e he hm =>
      obtain ⟨rfl, rfl, rfl⟩ := Place.mk.inj hx
      exact ⟨⟨g, m, callers⟩, rfl, .goes (.branch he hm)⟩
    | @call g' h n' m callers' b e callee hcall he hh hid hm =>
      obtain ⟨rfl, rfl, rfl⟩ := Place.mk.inj hx
      exact ⟨⟨h, m, (g, e.target) :: callers⟩, rfl, .goes (.call hcall he hh hid hm)⟩
  | @back g' caller n' m target callers' hret hm =>
    obtain ⟨rfl, rfl, hcallers⟩ := Place.mk.inj hx
    cases callers with
    | nil =>
      -- the caller returned to would be one of the outer ones
      dsimp only at hcallers hdepth
      rw [List.nil_append] at hcallers
      rw [hcallers, List.length_cons] at hdepth
      omega
    | cons first rest =>
      obtain ⟨rfl, rfl⟩ := List.cons.inj hcallers
      exact ⟨⟨caller, m, rest⟩, rfl, .back hret hm⟩

namespace Endless

variable {flows : List Flow} {t : Terms} (r : Endless flows t)

lemma course_of_stays {i : Nat} (hstays : r.Stays i) (d : Nat) :
    ∃ z, r.place (i + (d + 1)) = z.under (r.place i).callers ∧
      Course (Moves flows t) ⟨(r.place i).flow, (r.place i).node, []⟩ (r.between i (d + 1)) z := by
  induction d with
  | zero =>
    have hstep : Moves flows t
        (Place.under ⟨(r.place i).flow, (r.place i).node, []⟩ (r.place i).callers) (r.toll i)
        (r.place (i + 1)) := r.moves i
    obtain ⟨z, hz, hmoves⟩ := hstep.exists_of_under (hstays (i + 1) (by omega))
    refine ⟨z, hz, ?_⟩
    have htoll : r.between i (0 + 1) = r.toll i := Toll.zero_plus _
    rw [htoll]
    exact .one hmoves
  | succ d ih =>
    obtain ⟨z, hz, hcourse⟩ := ih
    have hstep := r.moves (i + (d + 1))
    rw [hz] at hstep
    obtain ⟨z', hz', hmoves⟩ := hstep.exists_of_under (hstays (i + (d + 1) + 1) (by omega))
    exact ⟨z', hz', hcourse.more hmoves⟩

/-- The run comes back to a statement at no cost. -/
def GoesRoundFree : Prop :=
  ∃ i d g n inner outer, r.place i = ⟨g, n, outer⟩ ∧ r.place (i + (d + 1)) = ⟨g, n, inner ++ outer⟩ ∧
    Course (Moves flows t) ⟨g, n, []⟩ (r.between i (d + 1)) ⟨g, n, inner⟩ ∧
    (r.between i (d + 1)).cost = 0

variable {r}

lemma exists_cost_eq (hcost : ∀ k, 0 ≤ (r.toll k).cost) (hbound : ∀ k, (r.total k).cost ≤ bound) :
    ∃ m, ∀ k, m ≤ k → (r.total k).cost = (r.total m).cost := by
  obtain ⟨most, ⟨m, rfl⟩, hmost⟩ := Int.exists_greatest_of_bdd
    (P := fun z => ∃ k, (r.total k).cost = z) ⟨bound, fun z ⟨k, hk⟩ => hk ▸ hbound k⟩ ⟨_, 0, rfl⟩
  have hmono : ∀ i d, (r.total i).cost ≤ (r.total (i + d)).cost := by
    intro i d
    induction d with
    | zero => exact le_refl _
    | succ d ih =>
      have hnext := hcost (i + d)
      rw [← add_assoc, total_succ]
      simp only [Toll.plus]
      omega
  refine ⟨m, fun k hk => le_antisymm (hmost _ ⟨k, rfl⟩) ?_⟩
  obtain ⟨d, rfl⟩ := Nat.exists_eq_add_of_le hk
  exact hmono m d

lemma exists_free_round (hcost : ∀ k, 0 ≤ (r.toll k).cost) (hknown : ∀ k, (r.place k).Known flows)
    (hbound : ∀ k, (r.total k).cost ≤ bound) : r.GoesRoundFree := by
  obtain ⟨m, hfree⟩ := exists_cost_eq hcost hbound
  -- there are infinitely many steps from which on the run stays inside, and finitely many places
  have hinfinite : {i | m ≤ i ∧ r.Stays i}.Infinite := by
    refine Set.infinite_of_forall_exists_gt fun k => ?_
    obtain ⟨i, hi, hstays⟩ := r.exists_stays (max m (k + 1))
    exact ⟨i, ⟨by omega, hstays⟩, by omega⟩
  have hfinite := List.finite_toSet (flows.flatMap fun g => g.order.map fun n => (g, n))
  have hmaps : Set.MapsTo (fun k => ((r.place k).flow, (r.place k).node))
      {i | m ≤ i ∧ r.Stays i} {x | x ∈ flows.flatMap fun g => g.order.map fun n => (g, n)} := by
    intro k _
    obtain ⟨hg, hn⟩ := hknown k
    exact List.mem_flatMap.2 ⟨_, hg, List.mem_map.2 ⟨_, hn, rfl⟩⟩
  obtain ⟨i, hi, j, hj, hne, hsame⟩ := hinfinite.exists_ne_map_eq_of_mapsTo hmaps hfinite
  -- of two such steps at the same statement the later one closes the round
  have hround : ∀ {i j}, m ≤ i → r.Stays i → i < j →
      ((r.place i).flow, (r.place i).node) = ((r.place j).flow, (r.place j).node) →
      r.GoesRoundFree := by
    intro i j hi hstays hlt hsame
    obtain ⟨hflow, hnode⟩ := Prod.mk.inj hsame
    obtain ⟨d, rfl⟩ : ∃ d, j = i + (d + 1) := ⟨j - i - 1, by omega⟩
    obtain ⟨z, hz, hcourse⟩ := r.course_of_stays hstays d
    have hzflow : z.flow = (r.place i).flow := by rw [hflow, hz]; rfl
    have hznode : z.node = (r.place i).node := by rw [hnode, hz]; rfl
    have hz' : z = ⟨(r.place i).flow, (r.place i).node, z.callers⟩ := by
      rw [← hzflow, ← hznode]
    rw [hz'] at hz hcourse
    refine ⟨i, d, _, _, z.callers, (r.place i).callers, rfl, hz, hcourse, ?_⟩
    have hadd := r.cost_total_add i (d + 1)
    rw [hfree i hi, hfree (i + (d + 1)) (by omega)] at hadd
    omega
  rcases lt_or_gt_of_ne hne with hlt | hgt
  · exact hround hi.1 hi.2 hlt hsame
  · exact hround hj.1 hj.2 hgt hsame.symm

end Endless

/-! ## Analysed programs -/

lemma Moves.cost_nonneg (hcost : ∀ g ∈ flows, ∀ n ∈ g.order, ∀ b e, n.edges[b]? = some e →
      0 ≤ t.prices.cost n b ∧ 0 ≤ t.prices.ownCost n b)
    {x y : Place} (h : Moves flows t x toll y) (hx : x.Known flows) : 0 ≤ toll.cost := by
  cases h with
  | goes h =>
    cases h with
    | branch he hm =>
      have hpos := (hcost _ hx.1 _ hx.2 _ _ he).1
      simp only [Toll.plus, Terms.departure, Terms.arrival]
      dsimp only at hpos
      omega
    | call hcall he hh hid hm =>
      have hpos := (hcost _ hx.1 _ hx.2 _ _ he).2
      simp only [Toll.plus, Terms.arrival]
      dsimp only at hpos
      omega
  | back hret hm => exact le_refl 0

def Analysis.terms (a : Analysis) : Terms where
  tariff := a.tariff
  refund := a.refundAt
  prices := a.prices

/-- The run starts with some gas in the counter, which never runs out. -/
def Endless.Affords {flows : List Flow} {t : Terms} (r : Endless flows t) (first : Flow)
    (gas : Nat) : Prop :=
  ∃ n, first.node? first.function.entry = some n ∧ r.place 0 = ⟨first, n, []⟩ ∧
    ∀ k, (t.arrival n).deducted + (r.total k).deducted ≤ gas + (r.total k).given

variable {program : Program} {s : Settled} {opts : Options} {flows : List Flow} {a : Analysis}

/-- No redeposit gives back more than each function through it would. -/
def FairRefunds (s : Settled) (opts : Options) (flows : List Flow) (a : Analysis) : Prop :=
  ∀ g ∈ flows, ∀ n ∈ g.order, a.refundAt n.index ≤ (a.own s opts flows g).refundAt n.index

instance : Decidable (FairRefunds s opts flows a) :=
  inferInstanceAs (Decidable (∀ g ∈ flows, ∀ n ∈ g.order, _ ≤ _))

section

variable {family : List (Flow × Amounts)} (h : Analysed s opts flows a family)

include h

lemma Analysed.given_eq_zero (hdyn : opts.dynamic = false)
    (r : Endless flows a.terms) (k : Nat) : (r.total k).given = 0 := by
  have hstep : ∀ {x y : Place} {toll : Toll}, Moves flows a.terms x toll y → toll.given = 0 := by
    intro x y toll hmoves
    have hrefund : ∀ index, a.terms.refund index = 0 := h.refunds hdyn
    cases hmoves with
    | goes hgoes =>
      cases hgoes with
      | branch he hm => simp [Toll.plus, Terms.departure, Terms.arrival, hrefund]
      | call hcall he hh hid hm => simp [Toll.plus, Terms.arrival]
    | back hret hm => rfl
  induction k with
  | zero => rfl
  | succ k ih =>
    have hlast := hstep (r.moves k)
    rw [r.total_succ]
    simp only [Toll.plus]
    omega

variable (hflows : ∀ g ∈ flows, g.Explored s)

include hflows

lemma Analysed.solvent (hexact : Exact s opts flows a) (hfirst : first ∈ flows)
    {r : Endless flows a.terms} (hn : first.node? first.function.entry = some n)
    (hstart : r.place 0 = ⟨first, n, []⟩) (k : Nat) :
    (r.place k).Known flows ∧ (r.total k).cost ≤ a.requiredGas first.function.id +
      ((a.terms.arrival n).deducted + (r.total k).deducted : Nat) := by
  have hfam := h.priced_of_exact hflows hexact
  have hbacked := h.backed hflows
  have hsolvent : Solvent flows family ((r.place k).point
      (a.requiredGas first.function.id + (a.terms.arrival n).deducted + (r.total k).deducted)
      (r.total k).cost) := by
    induction k with
    | zero =>
      obtain ⟨amounts, hx⟩ := h.all first hfirst
      have hdue := (h.entry_eq hflows hx).2.2
      rw [← h.requiredGas_eq hflows hx] at hdue
      rw [hstart]
      refine solvent_of_coversDue hfam hbacked hflows hfirst hn hdue .nil ?_
      simp [Endless.total, Endless.between, Terms.arrival, Analysis.terms]
    | succ k ih =>
      have hnext := (r.moves k).solvent (t := a.terms) hfam hbacked hflows
        (fun g hg id hid => h.coversDue_entry hflows hg hid) ih
      rw [r.total_succ]
      simp only [Toll.plus, Int.natCast_add, ← add_assoc]
      exact hnext
  have hle := hsolvent.spent_le hfam
  exact ⟨⟨hsolvent.1, hsolvent.2.1⟩, by dsimp only [Place.point] at hle; omega⟩

lemma Analysed.aboveDue_entry {low : Flow × Amounts → Int → Int}
    (hpay : ∀ x ∈ family, Payable s a.prices x.1 x.2)
    (hfloor : ∀ x ∈ family, Floor a.prices x.1 x.2 (low x)) {x : Flow × Amounts} (hx : x ∈ family) :
    AboveDue family low x.1.function.entry x.2.entry := by
  obtain ⟨n, hn, -⟩ := (hpay x hx).explored.entry
  have hmem := Flow.mem_order_of_node? hn
  have hidx := ((hpay x hx).explored.visited_of_node? hn).2
  obtain ⟨hdue, hpos, -⟩ := h.entry_eq hflows hx
  refine ⟨hpos, x, hx, n, hmem, hidx, fun hcut => ?_⟩
  have hmark := (hpay x hx).unmarked n hmem
  have hlow := (hfloor x hx).entry
  rw [hidx] at hmark
  rw [hdue, Amounts.dueFor_eq, hcut]
  exact ⟨by omega, hlow⟩

lemma Analysed.afloat (hexact : Exact s opts flows a) (hunmarked : Unmarked s opts flows a)
    (hfair : FairRefunds s opts flows a) (hfirst : first ∈ flows)
    {r : Endless flows a.terms} (hn : first.node? first.function.entry = some n)
    (hstart : r.place 0 = ⟨first, n, []⟩) (k : Nat) :
    (r.total k).cost + (r.total k).given ≤ a.requiredGas first.function.id +
      ((a.terms.arrival n).deducted + (r.total k).deducted : Nat) := by
  have hmem := fun g hg => h.own_mem (g := g) hg
  unfold Unmarked at hunmarked
  unfold FairRefunds at hfair
  generalize a.own s opts flows = own at hmem hunmarked hfair
  -- a function has been looked at once, so its amounts are its own
  have hown : ∀ x ∈ family, x.2 = own x.1 := by
    intro x hx
    have hkept := h.amounts (x.1, own x.1) (hmem x.1 (h.mem x hx))
    rw [h.amounts x hx] at hkept
    exact Except.ok.inj hkept
  have hpay : ∀ x ∈ family, Payable s a.prices x.1 x.2 := by
    intro x hx
    refine h.payable hflows hexact hx fun m hm => ?_
    rw [hown x hx]
    exact hunmarked x.1 (h.mem x hx) m hm
  obtain ⟨low, hfloor⟩ : ∃ low : Flow × Amounts → Int → Int, ∀ x ∈ family,
      Floor a.prices x.1 x.2 (low x) := ⟨_, fun x hx => h.floor hx (hpay x hx)⟩
  have hdrawn : a.tariff.Drawn family := h.recorded.drawn fun x hx =>
    ⟨h.fits hflows hx, (hpay x hx).explored⟩
  have hrefund : ∀ x ∈ family, ∀ m ∈ x.1.order, a.refundAt m.index ≤ x.2.refundAt m.index := by
    intro x hx m hm
    rw [hown x hx]
    exact hfair x.1 (h.mem x hx) m hm
  have hentry : ∀ g ∈ flows, ∀ id : FunctionId, g.function.id.number = id.number →
      AboveDue family low g.function.entry (a.prices.entryCost id) := by
    intro g hg id hid
    rw [h.entryCost (hmem g hg) hid]
    exact h.aboveDue_entry hflows hpay hfloor (hmem g hg)
  have hafloat : Afloat flows family low (r.place k) (a.requiredGas first.function.id +
      (a.terms.arrival n).deducted + (r.total k).deducted - (r.total k).given)
      (r.total k).cost := by
    induction k with
    | zero =>
      have hdue := h.aboveDue_entry hflows hpay hfloor (hmem first hfirst)
      rw [← h.requiredGas_eq hflows (hmem first hfirst)] at hdue
      rw [hstart]
      refine afloat_of_aboveDue (t := a.terms) hpay hfloor hdrawn hflows hfirst hn hdue .nil ?_
      simp [Endless.total, Endless.between, Terms.arrival]
    | succ k ih =>
      have hnext := (r.moves k).afloat (t := a.terms) hpay hfloor hdrawn hflows hrefund hentry ih
      rw [r.total_succ]
      have hpaid : ∀ paid : Int, ∀ x y : Toll, paid + ((x.plus y).deducted : Nat) -
          ((x.plus y).given : Nat) = paid + x.deducted - x.given + y.deducted - y.given := by
        simp only [Toll.plus]
        omega
      rw [hpaid]
      exact hnext
  obtain ⟨-, balance, aside, habove, haside, hle⟩ := hafloat
  have hpos := habove.nonneg (t := a.terms) hpay hfloor
  have hpos' := haside.nonneg
  omega

end

/-- Every round passes a check or the success of a checkpoint, and deducts at least what its
branches cost. So a run with finite gas goes on forever only if it comes to a round of free
branches. Redeposits do not change this as long as none gives back more than each function through
it has worked out. -/
theorem metering_bounds_runs (hs : Settled.ofProgram program = .ok s)
    (hflows : program.funcs.mapM (Flow.ofFunction s) = .ok flows)
    (hmetering : (usesGas s.types flows && !opts.disabled) = true)
    (ha : analyse s flows opts = .ok a) (hexact : Exact s opts flows a) :
    (∀ g ∈ flows, ∀ n ∈ g.order, ∀ inner toll,
      Course (Goes flows a.terms) ⟨g, n, []⟩ toll ⟨g, n, inner⟩ → 0 < toll.checks) ∧
    (∀ g ∈ flows, ∀ n ∈ g.order, ∀ inner toll,
      Course (Moves flows a.terms) ⟨g, n, []⟩ toll ⟨g, n, inner⟩ → toll.cost ≤ toll.deducted) ∧
    ((opts.dynamic = false ∨ Unmarked s opts flows a ∧ FairRefunds s opts flows a) →
      ∀ first ∈ flows, ∀ (r : Endless flows a.terms) (gas : Nat), r.Affords first gas →
        r.GoesRoundFree) := by
  obtain ⟨hexplored, hdistinct⟩ := explored_of_mapM hs hflows
  obtain ⟨family, h⟩ := analysed_of_analyse hexplored hdistinct hmetering ha
  have hfamily := h.priced_of_exact hexplored hexact
  have hbacked := h.backed hexplored
  have hmem := fun g hg => h.own_mem (g := g) hg
  refine ⟨fun g hg n hn inner toll hround => ?_, fun g hg n hn inner toll hround => ?_,
    fun hgives first hfirst r gas hr => ?_⟩
  · exact hround.checks_pos h hexplored hmem hbacked hg hn
  · obtain ⟨amounts, hx⟩ := h.all g hg
    exact hround.cost_le (t := a.terms) hfamily hbacked hexplored
      (fun g hg id hid => h.coversDue_entry hexplored hg hid) hg hx hn
  · obtain ⟨n, hn, hstart, haffords⟩ := hr
    have hsolvent := fun k => h.solvent hexplored hexact hfirst hn hstart k
    have hcosts : ∀ g ∈ flows, ∀ m ∈ g.order, ∀ (b : Nat) (e : Edge), m.edges[b]? = some e →
        0 ≤ a.terms.prices.cost m b ∧ 0 ≤ a.terms.prices.ownCost m b := by
      intro g hg m hm b e he
      obtain ⟨hsame, hpos⟩ := h.ownCost hexplored hexact.table hg hm he
      exact ⟨h.cost_nonneg hexplored hexact.table hg hm he, hsame ▸ hpos⟩
    have hbound : ∀ k, (r.total k).cost ≤ a.requiredGas first.function.id + gas := by
      intro k
      have henough := haffords k
      rcases hgives with hdynamic | ⟨hunmarked, hfair⟩
      · have hnothing := h.given_eq_zero hdynamic r k
        have hcovered := (hsolvent k).2
        omega
      · have hcovered := h.afloat hexplored hexact hunmarked hfair hfirst hn hstart k
        omega
    exact Endless.exists_free_round (fun k => (r.moves k).cost_nonneg hcosts (hsolvent k).1)
      (fun k => (hsolvent k).1) hbound

theorem refill_runs_are_bounded : ∃ s flows a,
    Settled.ofProgram refill = .ok s ∧ refill.funcs.mapM (Flow.ofFunction s) = .ok flows ∧
    (usesGas s.types flows && !refillOptions.disabled) = true ∧
    analyse s flows refillOptions = .ok a ∧ Exact s refillOptions flows a ∧
    (∀ g ∈ flows, ∀ n ∈ g.order, ∀ inner toll,
      Course (Moves flows a.terms) ⟨g, n, []⟩ toll ⟨g, n, inner⟩ → toll.cost ≤ toll.deducted) ∧
    ∀ first ∈ flows, ∀ (r : Endless flows a.terms) (gas : Nat), r.Affords first gas →
      r.GoesRoundFree := by
  obtain ⟨s, flows, a, hs, hflows, hmetering, ha, hexact, -⟩ :=
    exists_of_isMetered (show isMetered refill refillOptions fun _ _ _ => true by decide +kernel)
  obtain ⟨-, hrounds, hendless⟩ := metering_bounds_runs hs hflows hmetering ha hexact
  exact ⟨s, flows, a, hs, hflows, hmetering, ha, hexact, hrounds, hendless (.inl rfl)⟩

/-! ## A loop that costs nothing -/

def idle : Program where
  types := [{ id := ⟨0, ""⟩, generic := "GasBuiltin" }]
  libfuncs := [{ id := ⟨0, ""⟩, generic := "branch_align" }]
  statements := #[.invoke ⟨⟨0, ""⟩, [], [⟨.statement 0, []⟩]⟩]
  funcs := [
    { id := ⟨0, ""⟩, params := [⟨0, ⟨0, ""⟩⟩], paramTypes := [⟨0, ""⟩], retTypes := [⟨0, ""⟩],
      entry := 0 }]

def idleOptions : Options where
  table := { entries := [("branch_align", [.gas 0])] }

def Endless.circle {flows : List Flow} {t : Terms} {x : Place} {toll : Toll}
    (h : Moves flows t x toll x) : Endless flows t := ⟨fun _ => x, fun _ => toll, fun _ => h⟩

lemma Endless.deducted_circle {x : Place} (h : Moves flows t x toll x)
    (hnothing : toll.deducted = 0) (k : Nat) : ((circle h).total k).deducted = 0 := by
  induction k with
  | zero => rfl
  | succ k ih =>
    show ((circle h).total k).deducted + toll.deducted = 0
    omega

def idles (flows : List Flow) (a : Analysis) : Bool :=
  flows.any fun g => g.order.any fun n => (n.edges[0]?).any (·.target == n.index) &&
    dependsOn n 0 && a.tariff.extra n.index == 0 && g.function.entry == n.index

theorem free_rounds_deduct_nothing : ∃ s flows a,
    Settled.ofProgram idle = .ok s ∧ idle.funcs.mapM (Flow.ofFunction s) = .ok flows ∧
    (usesGas s.types flows && !idleOptions.disabled) = true ∧
    analyse s flows idleOptions = .ok a ∧ Exact s idleOptions flows a ∧ ∃ g ∈ flows, ∃ n ∈ g.order,
      (∃ toll, Course (Goes flows a.terms) ⟨g, n, []⟩ toll ⟨g, n, []⟩ ∧ toll.deducted = 0) ∧
      ∃ r : Endless flows a.terms, r.Affords g 0 := by
  obtain ⟨s, flows, a, hs, hflows, hmetering, ha, hexact, hidles⟩ :=
    exists_of_isMetered (show isMetered idle idleOptions fun _ => idles by decide +kernel)
  simp only [idles, Bool.and_eq_true, List.any_eq_true, beq_iff_eq] at hidles
  obtain ⟨g, hg, n, hn, ⟨⟨hedge, hdepends⟩, hextra⟩, hentry⟩ := hidles
  obtain ⟨e, he, htarget⟩ := (Option.any_eq_true ..).1 hedge
  rw [beq_iff_eq] at htarget
  have hnode := ((explored_of_mapM hs hflows).1 g hg).node?_index hn
  have hgoes : Goes flows a.terms ⟨g, n, []⟩ _ ⟨g, n, []⟩ :=
    .branch he (by rw [htarget]; exact hnode)
  have hnothing : ((a.terms.departure n 0).plus (a.terms.arrival n)).deducted = 0 := by
    simp [Toll.plus, Terms.departure, Terms.arrival, hdepends, Analysis.terms, hextra]
  refine ⟨s, flows, a, hs, hflows, hmetering, ha, hexact, g, hg, n, hn,
    ⟨_, .one hgoes, hnothing⟩, .circle (.goes hgoes), n, by rw [hentry]; exact hnode, rfl,
    fun k => ?_⟩
  rw [Endless.deducted_circle _ hnothing]
  simp [Terms.arrival, Analysis.terms, hextra]

end Sierra.Gas
