import Sierra.Proofs.Gas.Counter
import Sierra.Proofs.Gas.Rounds

/-!
# Runs that give gas back

Where functions share statements a run goes by amounts of different functions. The balance stays
above the floor of some function (`Afloat`).
-/

namespace Sierra.Gas

open Flow (Node Edge Explored)

variable {index : Int} {g : Flow}

section

variable {s : Settled} {flows : List Flow} {family : List (Flow × Amounts)} {t : Terms}
  {low : Flow × Amounts → Int → Int} {balance : Int} {callers : List (Flow × Int)}

/-- The balance is above the floor of some function that has the statement. -/
def Above (family : List (Flow × Amounts)) (low : Flow × Amounts → Int → Int)
    (index balance : Int) : Prop :=
  ∃ x ∈ family, ∃ n : Node, n.index = index ∧ Floor.Under (low x) x.1 n balance

/-- The balance reaches a floor of the statement, unless that pays for itself there. -/
def AboveDue (family : List (Flow × Amounts)) (low : Flow × Amounts → Int → Int)
    (index balance : Int) : Prop :=
  0 ≤ balance ∧ ∃ x ∈ family, ∃ n ∈ x.1.order, n.index = index ∧
    (Amounts.isCut x.2.cut (x.2.view.place index) = false →
      low x index < unpaid ∧ low x index ≤ balance)

/-- What is set aside for waiting callers reaches the floors where they go on. -/
inductive Pledged (flows : List Flow) (family : List (Flow × Amounts))
    (low : Flow × Amounts → Int → Int) : List (Flow × Int) → Int → Prop
  | nil : Pledged flows family low [] 0
  | cons {g : Flow} {target due rest : Int} {callers : List (Flow × Int)} (hg : g ∈ flows)
      (hdue : AboveDue family low target due) (hrest : Pledged flows family low callers rest) :
      Pledged flows family low ((g, target) :: callers) (due + rest)

/-- What is paid, less what was given back and spent, keeps all above their floors. -/
def Afloat (flows : List Flow) (family : List (Flow × Amounts)) (low : Flow × Amounts → Int → Int)
    (x : Place) (paid spent : Int) : Prop :=
  x.Known flows ∧ ∃ balance aside, Above family low x.node.index balance ∧
    Pledged flows family low x.callers aside ∧ spent + balance + aside ≤ paid

lemma Pledged.nonneg {aside : Int} (h : Pledged flows family low callers aside) : 0 ≤ aside := by
  induction h with
  | nil => exact le_refl 0
  | cons _ hdue _ ih =>
    have hpos := hdue.1
    omega

variable (hpay : ∀ x ∈ family, Payable s t.prices x.1 x.2)
  (hfloor : ∀ x ∈ family, Floor t.prices x.1 x.2 (low x)) (ht : t.tariff.Drawn family)
  (hflow : ∀ g ∈ flows, g.Explored s)
  (hrefund : ∀ x ∈ family, ∀ n ∈ x.1.order, t.refund n.index ≤ x.2.refundAt n.index)
  (hentry : ∀ g ∈ flows, ∀ id : FunctionId, g.function.id.number = id.number →
    AboveDue family low g.function.entry (t.prices.entryCost id))

include hpay hfloor

lemma Above.nonneg (h : Above family low index balance) : 0 ≤ balance := by
  obtain ⟨x, hx, n, -, hunder⟩ := h
  have hneed := (hunder.returns_le (hfloor x hx)).1
  have hpos := (hpay x hx).fits.needAt_nonneg (hpay x hx).explored hunder.mem
  omega

include ht

lemma AboveDue.arrive (h : AboveDue family low index balance) :
    Above family low index (t.tariff.arrive index balance) := by
  unfold Tariff.arrive
  split
  · next amount hamt =>
    obtain ⟨x, hx, n, hn, rfl, hcut, hneed⟩ := ht.injected index amount hamt
    have hlow := (hfloor x hx).cut n hn hcut
    have hmark := (hpay x hx).unmarked n hn
    exact ⟨x, hx, n, rfl, hn, by omega, by omega⟩
  · next hnone =>
    obtain ⟨-, x, hx, n, hn, rfl, hgoes⟩ := h
    obtain ⟨hmark, hle⟩ := hgoes (ht.free x hx n hn hnone)
    exact ⟨x, hx, n, rfl, hn, hmark, hle⟩

include hflow

lemma afloat_of_aboveDue (hg : g ∈ flows) {target : Int} {m : Node} (hm : g.node? target = some m)
    {aside paid spent : Int} (hdue : AboveDue family low target balance)
    (haside : Pledged flows family low callers aside)
    (hle : spent + balance + aside + t.tariff.extra m.index ≤ paid) :
    Afloat flows family low ⟨g, m, callers⟩ paid spent := by
  have hidx := ((hflow g hg).visited_of_node? hm).2
  have harrive : t.tariff.arrive m.index balance ≤ balance + t.tariff.extra m.index :=
    Tariff.arrive_le hdue.1
  refine ⟨⟨hg, Flow.mem_order_of_node? hm⟩, t.tariff.arrive m.index balance, aside,
    hidx ▸ hdue.arrive hpay hfloor ht, haside, ?_⟩
  omega

include hrefund

lemma Above.leave (hg : g ∈ flows) {n : Node} (hn : n ∈ g.order)
    (h : Above family low n.index balance) {b : Nat} {e : Edge} (he : n.edges[b]? = some e) :
    t.prices.cost n b + (t.departure n b).given ≤ balance ∧
      AboveDue family low e.target
        (t.tariff.leave t.prices n b (balance - (t.departure n b).given)) := by
  obtain ⟨x, hx, m, hidx, hunder⟩ := h
  have hpaid := hpay x hx
  -- the function whose floor it is has the same statement with the same branches
  obtain ⟨-, hlib, hedges⟩ := hpaid.explored.agree (hflow g hg) hunder.mem hn hidx
  have hcost : t.prices.cost m b = t.prices.cost n b := by
    simp only [Prices.cost, Prices.ownCost, calleeOf, hidx, hlib]
  have hdep : dependsOn m b = dependsOn n b := by
    simp only [dependsOn, isCheckpoint, hlib]
  have hgiven : (t.departure n b).given ≤ x.2.returns m := by
    have hle := hrefund x hx m hunder.mem
    have hgives : gives m = gives n := by simp only [gives, hlib]
    simp only [Terms.departure, Amounts.returns, hgives, ← hidx]
    split <;> omega
  have he' : m.edges[b]? = some e := hedges ▸ he
  have hcovers := hpaid.covers m hunder.mem b e he'
  obtain ⟨hneed, hret⟩ := hunder.returns_le (hfloor x hx)
  obtain ⟨target, htarget, hto⟩ := hpaid.explored.exists_target hunder.mem (List.mem_of_getElem? he')
  have hdue := hpaid.fits.dueFor_nonneg hpaid.explored htarget
  rw [hto] at hdue
  unfold Tariff.leave
  split
  · next hyes =>
    refine ⟨by omega, by omega, x, hx, target, htarget, hto, fun hcut => ?_⟩
    obtain ⟨hmark, hle⟩ := hunder.leave hpaid (hfloor x hx) he' hcut
    rw [Tariff.leave, hdep, if_pos hyes] at hle
    exact ⟨hmark, by omega⟩
  · next hno =>
    obtain ⟨hpoint, rfl⟩ := isCheckpoint_of_not_dependsOn (Bool.eq_false_iff.2 hno)
    have hpoint' : isCheckpoint m := by
      simpa only [isCheckpoint, hlib] using hpoint
    obtain ⟨y, hy, k, hk, hkindex, hcharge⟩ := ht.charge x hx m hunder.mem hpoint' e he'
    obtain ⟨-, hklib, hkedges⟩ := (hpay y hy).explored.agree hpaid.explored hk hunder.mem hkindex
    have hke : k.edges[0]? = some e := hkedges ▸ he'
    obtain ⟨target', htarget', hto'⟩ :=
      (hpay y hy).explored.exists_target hk (List.mem_of_getElem? hke)
    rw [hidx] at hcharge
    refine ⟨by omega, by omega, y, hy, target', htarget', hto', fun hcut => ?_⟩
    have hkcheckpoint : isCheckpoint k := by
      simpa only [isCheckpoint, hklib] using hpoint'
    have hlow := (hfloor y hy).success k hk hkcheckpoint e hke
    have hmark := (hpay y hy).unmarked target' htarget'
    rw [hto'] at hmark
    rw [hcharge, Amounts.dueFor_eq, hcut]
    exact ⟨by omega, hlow⟩

include hentry

lemma Moves.afloat {x y : Place} {toll : Toll} (h : Moves flows t x toll y) {paid spent : Int}
    (hx : Afloat flows family low x paid spent) :
    Afloat flows family low y (paid + toll.deducted - toll.given) (spent + toll.cost) := by
  obtain ⟨⟨hg, hn⟩, balance, aside, habove, haside, hle⟩ := hx
  cases h with
  | goes h =>
    cases h with
    | @branch g n m callers b e he hm =>
      obtain ⟨hpays, hdue⟩ := habove.leave hpay hfloor ht hflow hrefund hg hn he
      refine afloat_of_aboveDue hpay hfloor ht hflow hg hm hdue haside ?_
      simp only [Toll.plus, Terms.departure, Terms.arrival, Tariff.leave] at hpays ⊢
      split <;> omega
    | @call g h n m callers b e callee hcall he hh hid hm =>
      obtain ⟨hpays, hdue⟩ := habove.leave hpay hfloor ht hflow hrefund hg hn he
      obtain ⟨hdep, hcost⟩ := cost_of_calleeOf hcall t.prices b
      rw [Tariff.leave, if_pos hdep] at hdue
      refine afloat_of_aboveDue hpay hfloor ht hflow hh hm (hentry h hh callee hid)
        (.cons hg hdue haside) ?_
      simp only [Toll.plus, Terms.arrival]
      omega
  | @back g caller n m target callers hreturn hm =>
    have hpos := habove.nonneg hpay hfloor
    cases haside with
    | cons hg' hdue hrest =>
      refine afloat_of_aboveDue hpay hfloor ht hflow hg' hm hdue hrest ?_
      dsimp only [Terms.arrival]
      omega

end

end Sierra.Gas
