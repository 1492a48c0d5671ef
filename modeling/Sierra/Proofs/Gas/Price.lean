import Mathlib.Algebra.Order.BigOperators.Group.List
import Mathlib.Algebra.Ring.Int.Defs
import Sierra.Gas.Analysis
import Sierra.Proofs.Gas.Need

/-!
# Prices

Every statement has the price that the table gives to its library function. No amount is negative,
so weighted sums within a signed word are exact.
-/

namespace Sierra

open List Option Except

namespace Gas

open Flow (Node Edge Explored)

variable {t : Table}

variable {α : Type}

variable {costs costs' : Array (Option (List Int))} {g : Flow} {n : Node}

/-! ## Weighted sums -/

lemma Token.mem_all (t : Token) : t ∈ Token.all := by
  cases t <;> decide

def Cost.weighted (c weights : Cost) : Int := (Token.all.map fun t => c.get t * weights.get t).sum

lemma foldl_wrap64 (term : α → Int) (ts : List α) (sum : Int) (hterm : ∀ t ∈ ts, 0 ≤ term t)
    (hsum : 0 ≤ sum) (hlt : sum + (ts.map term).sum < (pow2 63 : Nat)) :
    ts.foldl (fun sum t => wrap64 (sum + wrap64 (term t))) sum = sum + (ts.map term).sum := by
  induction ts generalizing sum with
  | nil => simp
  | cons t ts ih =>
    have ht := hterm t mem_cons_self
    have hrest : 0 ≤ (ts.map term).sum := by
      refine sum_nonneg fun x hx => ?_
      obtain ⟨t', ht', rfl⟩ := mem_map.1 hx
      exact hterm t' (mem_cons_of_mem _ ht')
    rw [map_cons, sum_cons] at hlt ⊢
    rw [foldl_cons, wrap64_eq ht (by omega), wrap64_eq (by omega) (by omega),
      ih _ (fun t' ht' => hterm t' (mem_cons_of_mem _ ht')) (by omega) (by omega)]
    omega

lemma Cost.total_eq {c weights : Cost} (hc : ∀ t, 0 ≤ c.get t) (hw : ∀ t, 0 ≤ weights.get t)
    (hlt : c.weighted weights < (pow2 63 : Nat)) : c.total weights = c.weighted weights := by
  have hsum := foldl_wrap64 (fun t => c.get t * weights.get t) Token.all 0
    (fun t _ => Int.mul_nonneg (hc t) (hw t)) (Int.le_refl 0) (by rw [Int.zero_add]; exact hlt)
  rw [zero_add] at hsum
  exact hsum

/-! ## The table -/

lemma Table.nonneg_of_fault? (h : t.fault? = none) :
    (∀ entry ∈ t.entries, ∀ c ∈ entry.2, ∀ token, 0 ≤ c.get token) ∧
      ∀ token, 0 ≤ t.weights.get token := by
  obtain ⟨hentries, hweights⟩ := or_eq_none_iff.1 h
  constructor
  · intro entry hentry c hc token
    have hfault := findSome?_eq_none_iff.1 hentries entry hentry
    unfold entryFault? at hfault
    dsimp only at hfault
    split at hfault
    · cases hfault
    · obtain ⟨i, hi⟩ := mem_iff_getElem?.1 hc
      have hnone := findSome?_eq_none_iff.1 hfault (c, i) (mk_mem_zipIdx_iff_getElem?.2 hi)
      have hall := find?_eq_none.1 (map_eq_none_iff.1 hnone) token token.mem_all
      simpa using hall
  · intro token
    have hall := find?_eq_none.1 (map_eq_none_iff.1 hweights) token token.mem_all
    simpa using hall

lemma Table.lookup_eq_ok {id : String} {branches : Nat} {costs : List Cost}
    (h : t.lookup id branches = .ok (some costs)) :
    costs.length = branches ∧ ∃ entry ∈ t.entries, ∀ c ∈ costs, c ∈ entry.2 := by
  have hentry : ∀ {found}, t.find? id = some found → ∃ entry ∈ t.entries, entry.2 = found := by
    intro found hfound
    obtain ⟨entry, hentry, rfl⟩ := map_eq_some_iff.1 hfound
    exact ⟨entry, mem_of_find?_eq_some hentry, rfl⟩
  unfold lookup at h
  split at h
  · cases h
  · next cost hfind =>
    split at h
    · cases h
      obtain ⟨entry, hmem, heq⟩ := hentry hfind
      refine ⟨by simp, entry, hmem, fun c hc => ?_⟩
      rw [heq, (mem_replicate.1 hc).2]
      exact mem_singleton_self cost
    · cases h
  · next hfind =>
    split at h
    · cases h
      obtain ⟨entry, hmem, heq⟩ := hentry hfind
      exact ⟨by omega, entry, hmem, fun c hc => heq ▸ hc⟩
    · cases h

def Table.costOf (t : Table) (n : Node) (branch : Nat) : Int :=
  match n.libfunc with
  | none => 0
  | some f =>
    match t.lookup f.generic n.edges.length with
    | .ok (some costs) => (costs[branch]?).elim 0 (·.weighted t.weights)
    | _ => 0

/-! ## The prices of statements -/

variable {s : Settled} {flows : List Flow} {table : Table} {metering : Bool}

abbrev priceStep (table : Table) (metering : Bool) (costs : Array (Option (List Int))) (n : Node) :
    Except Failure (Array (Option (List Int))) :=
  match n.libfunc, Analysis.valueAt costs n.index with
  | some f, none => do
    let price ← priceOf table metering n f
    return costs.modify n.index.toNat fun _ => some price
  | _, _ => .ok costs

lemma priceStep_cases (h : priceStep table metering costs n = .ok costs') :
    (costs' = costs ∧ (n.libfunc = none ∨ (Analysis.valueAt costs n.index).isSome)) ∨
    ∃ f price, n.libfunc = some f ∧ priceOf table metering n f = .ok price ∧
      costs' = costs.modify n.index.toNat fun _ => some price := by
  unfold priceStep at h
  split at h
  · next f hlib hval =>
    obtain ⟨price, hprice, h⟩ := except_bind_eq_ok.1 h
    exact .inr ⟨f, price, hlib, hprice, (ok.inj h).symm⟩
  next hother =>
  cases h
  refine .inl ⟨rfl, ?_⟩
  cases hlib : n.libfunc with
  | none => exact .inl rfl
  | some f =>
    refine .inr ?_
    cases hval : Analysis.valueAt costs n.index with
    | none => exact absurd hval (hother f hlib)
    | some price => rfl

lemma valueAt_modify {values : Array (Option α)} {i j : Int} (hi : 0 ≤ i)
    (hlt : i.toNat < values.size) (x : α) :
    Analysis.valueAt (values.modify i.toNat fun _ => some x) j =
      if i = j then some x else Analysis.valueAt values j := by
  unfold Analysis.valueAt
  by_cases hj : j < 0
  · have hne : i ≠ j := by omega
    rw [if_pos hj, if_neg hne, if_pos hj]
  · rw [if_neg hj, if_neg hj, Array.getElem?_modify]
    by_cases heq : i = j
    · rw [if_pos heq, if_pos (by rw [heq]), ← heq, Array.getElem?_eq_getElem hlt]
      rfl
    · have hne : ¬ i.toNat = j.toNat := by omega
      rw [if_neg heq, if_neg hne]

/-- Every price kept is that of a statement of one of the functions. -/
structure PricedBy (s : Settled) (flows : List Flow) (table : Table) (metering : Bool)
    (costs : Array (Option (List Int))) : Prop where
  size : costs.size = s.program.statements.size
  price : ∀ (index : Int) (price : List Int), Analysis.valueAt costs index = some price →
    ∃ g ∈ flows, ∃ n ∈ g.order, n.index = index ∧
      ∃ f, n.libfunc = some f ∧ priceOf table metering n f = .ok price

lemma PricedBy.step
    (h : PricedBy s flows table metering costs) (hg : g ∈ flows) (hseen : g.Explored s)
    (hn : n ∈ g.order) (hstep : priceStep table metering costs n = .ok costs') :
    PricedBy s flows table metering costs' := by
  rcases priceStep_cases hstep with ⟨rfl, -⟩ | ⟨f, price, hlib, hprice, rfl⟩
  · exact h
  obtain ⟨hpos, hlt⟩ := hseen.index_nonneg hn
  rw [hseen.size, ← h.size] at hlt
  refine ⟨by rw [Array.size_modify]; exact h.size, fun index price' hval => ?_⟩
  rw [valueAt_modify hpos hlt] at hval
  split at hval
  · next heq =>
    cases hval
    exact ⟨g, hg, n, hn, heq, f, hlib, hprice⟩
  · exact h.price index price' hval

lemma isSome_priceStep (h : PricedBy s flows table metering costs) (hseen : g.Explored s)
    (hn : n ∈ g.order) (hstep : priceStep table metering costs n = .ok costs') {index : Int}
    (hval : (Analysis.valueAt costs index).isSome) :
    (Analysis.valueAt costs' index).isSome := by
  rcases priceStep_cases hstep with ⟨rfl, -⟩ | ⟨f, price, hlib, hprice, rfl⟩
  · exact hval
  · obtain ⟨hpos, hlt⟩ := hseen.index_nonneg hn
    rw [hseen.size, ← h.size] at hlt
    rw [valueAt_modify hpos hlt]
    split
    · rfl
    · exact hval

lemma pricedBy_of_foldlM {start : Array (Option (List Int))}
    (hflows : ∀ g ∈ flows, g.Explored s) (hstart : PricedBy s flows table metering start)
    (h : flows.foldlM (priceFlow table metering) start = .ok costs) :
    PricedBy s flows table metering costs ∧ ∀ g ∈ flows, ∀ n ∈ g.order, n.libfunc.isSome →
      (Analysis.valueAt costs n.index).isSome := by
  have hkeep : ∀ g ∈ flows, ∀ costs costs', PricedBy s flows table metering costs →
      priceFlow table metering costs g = .ok costs' → PricedBy s flows table metering costs' := by
    intro g hg costs costs' hcost hflow
    exact foldlM_keeps hflow hcost fun n hn costs costs' hcost hstep =>
      hcost.step hg (hflows g hg) hn hstep
  refine ⟨foldlM_keeps h hstart hkeep, fun g hg n hn hlib => ?_⟩
  refine foldlM_reaches (Q := fun costs => (Analysis.valueAt costs n.index).isSome) h hstart
    hkeep (fun g' hg' costs costs' hcost hval hflow => ?_) hg fun costs costs' hcost hflow => ?_
  · refine (foldlM_keeps (P := fun costs => PricedBy s flows table metering costs ∧
      (Analysis.valueAt costs n.index).isSome) hflow ⟨hcost, hval⟩ ?_).2
    exact fun m hm costs costs' hboth hstep => ⟨hboth.1.step hg' (hflows g' hg') hm hstep,
      isSome_priceStep hboth.1 (hflows g' hg') hm hstep hboth.2⟩
  · refine foldlM_reaches (Q := fun costs => (Analysis.valueAt costs n.index).isSome) hflow
      hcost (fun m hm costs costs' hcost hstep => hcost.step hg (hflows g hg) hm hstep)
      (fun m hm costs costs' hcost hval hstep =>
        isSome_priceStep hcost (hflows g hg) hm hstep hval) hn
      fun costs costs' hcost hstep => ?_
    rcases priceStep_cases hstep with ⟨rfl, hnone | hval⟩ | ⟨f, price, -, -, rfl⟩
    · rw [hnone] at hlib
      cases hlib
    · exact hval
    · obtain ⟨hpos, hlt⟩ := (hflows g hg).index_nonneg hn
      rw [(hflows g hg).size, ← hcost.size] at hlt
      rw [valueAt_modify hpos hlt, if_pos rfl]
      rfl

lemma priceOf_eq_ok {f : Libfunc} {price : List Int} (h : priceOf table metering n f = .ok price) :
    ∃ costs, table.lookup f.generic n.edges.length = .ok costs ∧
      price = costs.elim (replicate n.edges.length 0) (·.map fun c => c.total table.weights) := by
  unfold priceOf at h
  split at h
  · cases h
  · next costs hlookup => exact ⟨_, hlookup, (ok.inj h).symm⟩
  · next hlookup =>
    split at h
    · cases h
    · exact ⟨_, hlookup, (ok.inj h).symm⟩

def Table.Exact (t : Table) : Prop :=
  ∀ entry ∈ t.entries, ∀ c ∈ entry.2, c.weighted t.weights < (pow2 63 : Nat)

lemma ownCost_eq {p : Prices} (hflows : ∀ g ∈ flows, g.Explored s)
    (hcost : PricedBy s flows table metering p.costs)
    (hall : ∀ g ∈ flows, ∀ n ∈ g.order, n.libfunc.isSome →
      (Analysis.valueAt p.costs n.index).isSome)
    (hfault : table.fault? = none) (hexact : table.Exact) (hg : g ∈ flows)
    (hn : n ∈ g.order) {b : Nat} {e : Edge} (he : n.edges[b]? = some e) :
    p.ownCost n b = table.costOf n b ∧ 0 ≤ table.costOf n b := by
  have hlib : n.libfunc.isSome := by
    obtain ⟨_, lib, -, hinv⟩ := (hflows g hg).invokes_of_edge hn (mem_of_getElem? he)
    rw [hinv.libfunc]
    rfl
  obtain ⟨price, hprice⟩ := isSome_iff_exists.1 (hall g hg n hn hlib)
  obtain ⟨g', hg', n', hn', hidx, f, hf, hpriced⟩ := hcost.price _ _ hprice
  -- another function may have been the one to price the statement
  obtain ⟨-, hsame, hedges⟩ := (hflows g' hg').agree (hflows g hg) hn' hn hidx
  obtain ⟨costs, hlookup, hread⟩ := priceOf_eq_ok hpriced
  rw [hsame] at hf
  rw [hedges] at hlookup hread
  obtain ⟨hblt, -⟩ := List.getElem?_eq_some_iff.1 he
  have hown : p.ownCost n b = (price[b]?).getD 0 := by
    have hpos : ¬ n.index < 0 := by
      have := ((hflows g hg).index_nonneg hn).1
      omega
    rw [Analysis.valueAt, if_neg hpos] at hprice
    rw [Prices.ownCost, hprice, getD_some]
  rw [hown, hread, Table.costOf, hf]
  dsimp only
  rw [hlookup]
  cases costs with
  | none => simp [hblt]
  | some costs =>
    obtain ⟨hlen, entry, hentry, hmem⟩ := table.lookup_eq_ok hlookup
    obtain ⟨c, hc⟩ : ∃ c, costs[b]? = some c := ⟨_, getElem?_eq_getElem (hlen ▸ hblt)⟩
    obtain ⟨hcost', hweights⟩ := Table.nonneg_of_fault? hfault
    have hc' := hmem c (mem_of_getElem? hc)
    dsimp only [elim_some]
    rw [getElem?_map, hc, map_some, getD_some]
    refine ⟨Cost.total_eq (hcost' entry hentry c hc') hweights (hexact entry hentry c hc'),
      sum_nonneg fun x hx => ?_⟩
    obtain ⟨t, -, rfl⟩ := mem_map.1 hx
    exact Int.mul_nonneg (hcost' entry hentry c hc' t) (hweights t)

end Gas

end Sierra
