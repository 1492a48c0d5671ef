import Sierra.Proofs.Gas.Need

/-!
# Balances

Checks and the success of a checkpoint put their amounts in place of what is left; every other
branch takes its cost. The amounts may be those of another function through the statement, backed by
some function (`Tariff.Backed`) whose need the balance covers.
-/

namespace Sierra.Gas

open List
open Flow (Node Edge Explored)

variable {balance index : Int} {amount b : Nat} {n : Node} {g : Flow} {e : Edge}

/-- The amounts of checks, and what checkpoints withdraw, by statement. -/
structure Tariff where
  injected : Int → Option Nat
  charge : Int → Nat

def Amounts.tariff (a : Amounts) : Tariff where
  injected := fun index => a.injected.lookup index
  charge := fun index => (a.charges.lookup index).getD 0

lemma mem_of_lookup {α : Type} {entries : List (Int × α)} {x : α}
    (h : entries.lookup index = some x) : (index, x) ∈ entries := by
  obtain ⟨before, after, hsplit, -⟩ := lookup_eq_some_iff.1 h
  simp [hsplit]

namespace Tariff

/-- A check discards the balance and brings its own amount. -/
def arrive (t : Tariff) (index balance : Int) : Int :=
  match t.injected index with
  | some amount => amount
  | none => balance

/-- The success of a checkpoint brings its charge instead, every other branch takes its cost. -/
def leave (t : Tariff) (p : Prices) (n : Node) (branch : Nat) (balance : Int) : Int :=
  if dependsOn n branch then balance - p.cost n branch else t.charge n.index

end Tariff

/-- The balances along the ways from the entry. -/
inductive Balance (t : Tariff) (p : Prices) (g : Flow) (start : Int) : Node → Int → Prop
  | entry {n : Node} (hn : g.node? g.function.entry = some n) :
      Balance t p g start n (t.arrive n.index start)
  | branch {n m : Node} {balance : Int} {b : Nat} {e : Edge}
      (hbefore : Balance t p g start n balance) (he : n.edges[b]? = some e)
      (hm : g.node? e.target = some m) :
      Balance t p g start m (t.arrive m.index (t.leave p n b balance))

/-- A function with its amounts, which cover what its branches cost. -/
structure Priced (s : Settled) (p : Prices) (g : Flow) (a : Amounts) : Prop where
  explored : g.Explored s
  fits : a.Fits p g
  covers : ∀ n ∈ g.order, ∀ (b : Nat) (e : Edge), n.edges[b]? = some e →
    p.cost n b + (if dependsOn n b then a.dueFor e.target else 0) ≤ a.needAt n.index

section

variable {s : Settled} {p : Prices} {t : Tariff} {family : List (Flow × Amounts)}

/-- The balance covers what some function needs before the statement. -/
def Covered (family : List (Flow × Amounts)) (index balance : Int) : Prop :=
  ∃ x ∈ family, ∃ n ∈ x.1.order, n.index = index ∧ x.2.needAt index ≤ balance

/-- The balance covers what some function has to have paid on the way. -/
def CoversDue (family : List (Flow × Amounts)) (index balance : Int) : Prop :=
  ∃ x ∈ family, ∃ n ∈ x.1.order, n.index = index ∧ x.2.dueFor index ≤ balance

/-- Every amount is one function's, and there is one where a function pays for itself. -/
structure Tariff.Backed (t : Tariff) (family : List (Flow × Amounts)) : Prop where
  injected : ∀ (index : Int) (amount : Nat), t.injected index = some amount →
    Covered family index amount
  free : ∀ x ∈ family, ∀ n ∈ x.1.order, t.injected n.index = none →
    Amounts.isCut x.2.cut (x.2.view.place n.index) = false
  charge : ∀ x ∈ family, ∀ n ∈ x.1.order, isCheckpoint n = true → ∀ e : Edge,
    n.edges[0]? = some e → CoversDue family e.target (t.charge n.index)

lemma CoversDue.arrive (ht : t.Backed family)
    (h : CoversDue family index balance) : Covered family index (t.arrive index balance) := by
  unfold Tariff.arrive
  split
  · next amount hamt => exact ht.injected index amount hamt
  · next hnone =>
    obtain ⟨x, hx, n, hn, rfl, hdue⟩ := h
    rw [Amounts.dueFor_eq, ht.free x hx n hn hnone] at hdue
    exact ⟨x, hx, n, hn, rfl, hdue⟩

lemma isCheckpoint_of_not_dependsOn (h : dependsOn n b = false) :
    isCheckpoint n ∧ b = 0 := by
  simpa [dependsOn] using h

lemma Covered.leave (hfam : ∀ x ∈ family, Priced s p x.1 x.2) (ht : t.Backed family)
    (hg : g.Explored s) (hn : n ∈ g.order)
    (h : Covered family n.index balance) (he : n.edges[b]? = some e) :
    p.cost n b ≤ balance ∧ CoversDue family e.target (t.leave p n b balance) := by
  obtain ⟨x, hx, m, hm, hidx, hneed⟩ := h
  have hprice := hfam x hx
  obtain ⟨-, hlib, hedges⟩ := hprice.explored.agree hg hm hn hidx
  -- the function whose need is covered has the same statement with the same branches
  have hcost : p.cost m b = p.cost n b := by
    simp only [Prices.cost, Prices.ownCost, calleeOf, hidx, hlib]
  have hdep : dependsOn m b = dependsOn n b := by
    simp only [dependsOn, isCheckpoint, hlib]
  have he' : m.edges[b]? = some e := hedges ▸ he
  have hcovers := hprice.covers m hm b e he'
  obtain ⟨target, htarget, hto⟩ := hprice.explored.exists_target hm (mem_of_getElem? he')
  have hdue := hprice.fits.dueFor_nonneg hprice.explored htarget
  rw [hto] at hdue
  rw [hdep, hidx] at hcovers
  unfold Tariff.leave
  split
  · next hyes =>
    rw [if_pos hyes] at hcovers
    exact ⟨by omega, x, hx, target, htarget, hto, by omega⟩
  next hno =>
  obtain ⟨hpoint, rfl⟩ := isCheckpoint_of_not_dependsOn (Bool.eq_false_iff.2 hno)
  have hpoint' : isCheckpoint m := by
    simpa only [isCheckpoint, hlib] using hpoint
  have hcharge := ht.charge x hx m hm hpoint' e he'
  rw [hidx] at hcharge
  exact ⟨by omega, hcharge⟩

lemma Balance.covered (hfam : ∀ x ∈ family, Priced s p x.1 x.2) (ht : t.Backed family)
    (hg : g.Explored s) {start : Int} (hstart : CoversDue family g.function.entry start)
    (h : Balance t p g start n balance) : n ∈ g.order ∧ Covered family n.index balance := by
  induction h with
  | entry hn =>
    have hidx := (hg.visited_of_node? hn).2
    exact ⟨Flow.mem_order_of_node? hn, hidx ▸ hstart.arrive ht⟩
  | branch _ he hm ih =>
    have hidx := (hg.visited_of_node? hm).2
    exact ⟨Flow.mem_order_of_node? hm, hidx ▸ (ih.2.leave hfam ht hg ih.1 he).2.arrive ht⟩

end

/-! ## The amounts of one function -/

namespace Amounts

variable {s : Settled} {p : Prices} {g : Flow} {a : Amounts}

section

variable (h : a.Fits p g) (hg : g.Explored s)
include h hg

lemma Fits.mem_injected_iff :
    (index, amount) ∈ a.injected ↔ ∃ n ∈ g.order, n.index = index ∧
      isCut a.cut (a.view.place index) ∧ (amount : Int) = a.needAt index := by
  unfold injected
  rw [mem_filterMap]
  constructor
  · rintro ⟨⟨n, i⟩, hmem, heq⟩
    have hi : a.view.nodes[i]? = some n := by
      rw [← Array.getElem?_toList]
      exact mk_mem_zipIdx_iff_getElem?.1 hmem
    rw [h.view] at hi
    have hn := mem_order_of_getElem? hi
    have hplace : a.view.place n.index = i := by
      rw [h.view]
      exact place_eq hg hi
    dsimp only at heq
    split at heq
    · next hcut =>
      cases heq
      refine ⟨n, hn, rfl, hplace ▸ hcut, ?_⟩
      have hpos := h.needAt_nonneg hg hn
      rw [needAt, hplace] at hpos ⊢
      exact Int.toNat_of_nonneg hpos
    · cases heq
  · rintro ⟨n, hn, rfl, hcut, hamt⟩
    have hplace : a.view.nodes[a.view.place n.index]? = some n := by
      rw [h.view]
      exact getElem?_place hg hn
    refine ⟨(n, a.view.place n.index), ?_, ?_⟩
    · rw [mk_mem_zipIdx_iff_getElem?, Array.getElem?_toList]
      exact hplace
    · have hval : toAmount ((a.need[a.view.place n.index]?).getD 0) = amount := by
        rw [show (a.need[a.view.place n.index]?).getD 0 = (amount : Int) from hamt.symm]
        exact Int.toNat_natCast amount
      simp only [hcut, if_true, hval]

lemma Fits.mem_charges_iff :
    (index, amount) ∈ a.charges ↔ ∃ n ∈ g.order, n.index = index ∧ isCheckpoint n ∧
      ∃ e, n.edges[0]? = some e ∧ (amount : Int) = a.dueFor e.target := by
  have hamt : ∀ {n : Node} {e : Edge}, n ∈ g.order → n.edges[0]? = some e →
      (toAmount (a.due (a.view.place e.target)) : Int) = a.dueFor e.target := by
    intro n e hn he
    exact Int.toNat_of_nonneg (h.dueFor_target_nonneg hg hn he)
  have hnodes : a.view.nodes.toList = g.order := by rw [h.view, View.ofFlow]
  unfold charges
  rw [mem_filterMap, hnodes]
  constructor
  · rintro ⟨n, hn, heq⟩
    split at heq
    · next success rest hpoint hedges =>
      cases heq
      have he : n.edges[0]? = some success := by rw [hedges]; rfl
      exact ⟨n, hn, rfl, hpoint, success, he, hamt hn he⟩
    · cases heq
  · rintro ⟨n, hn, rfl, hpoint, e, he, hval⟩
    obtain ⟨rest, hedges⟩ : ∃ rest, n.edges = e :: rest := by
      cases hedges : n.edges with
      | nil => simp [hedges] at he
      | cons first rest =>
        rw [hedges] at he
        exact ⟨rest, by rw [Option.some.inj he]⟩
    refine ⟨n, hn, ?_⟩
    rw [hpoint, hedges]
    have hsame := hamt hn he
    rw [← hval] at hsame
    simp only [Int.ofNat_inj.1 hsame]

lemma Fits.tariff_injected (hn : n ∈ g.order) :
    a.tariff.injected n.index = if isCut a.cut (a.view.place n.index) then
      some (toAmount (a.needAt n.index)) else none := by
  have hneed := Int.toNat_of_nonneg (h.needAt_nonneg hg hn)
  show a.injected.lookup n.index = _
  cases hlookup : a.injected.lookup n.index with
  | none =>
    have hcut : ¬ isCut a.cut (a.view.place n.index) := by
      intro hcut
      have hmem := (h.mem_injected_iff hg).2 ⟨n, hn, rfl, hcut, hneed⟩
      exact absurd (lookup_eq_none_iff.1 hlookup _ hmem) (by simp)
    rw [if_neg hcut]
  | some amount =>
    obtain ⟨m, -, -, hcut, hamt⟩ := (h.mem_injected_iff hg).1 (mem_of_lookup hlookup)
    rw [if_pos hcut, ← hamt]
    rfl

lemma Fits.tariff_charge (hn : n ∈ g.order) (hpoint : isCheckpoint n)
    (he : n.edges[0]? = some e) : (a.tariff.charge n.index : Int) = a.dueFor e.target := by
  have hdue := h.dueFor_target_nonneg hg hn he
  have hmem : (n.index, toAmount (a.dueFor e.target)) ∈ a.charges :=
    (h.mem_charges_iff hg).2 ⟨n, hn, rfl, hpoint, e, he, Int.toNat_of_nonneg hdue⟩
  show (((a.charges.lookup n.index).getD 0 : Nat) : Int) = a.dueFor e.target
  cases hlookup : a.charges.lookup n.index with
  | none =>
    have habsent := lookup_eq_none_iff.1 hlookup _ hmem
    simp at habsent
  | some amount =>
    obtain ⟨n', hn', hidx, -, e', he', hamt⟩ :=
      (h.mem_charges_iff hg).1 (mem_of_lookup hlookup)
    obtain rfl := hg.eq_of_index hn' hn hidx
    cases he.symm.trans he'
    rw [Option.getD_some, hamt]

lemma Fits.backed : a.tariff.Backed [(g, a)] := by
  refine ⟨fun index amount hamt => ?_, fun x hx n hn hnone => ?_, fun x hx n hn hpoint e he => ?_⟩
  · obtain ⟨n, hn, hidx, -, hneed⟩ := (h.mem_injected_iff hg).1 (mem_of_lookup hamt)
    exact ⟨(g, a), mem_singleton_self _, n, hn, hidx, le_of_eq hneed.symm⟩
  · obtain rfl := mem_singleton.1 hx
    rw [h.tariff_injected hg hn] at hnone
    simpa using hnone
  · obtain rfl := mem_singleton.1 hx
    obtain ⟨m, hm, htarget⟩ := hg.exists_target hn (mem_of_getElem? he)
    exact ⟨(g, a), mem_singleton_self _, m, hm, htarget,
      le_of_eq (h.tariff_charge hg hn hpoint he).symm⟩

end

end Amounts

end Sierra.Gas
