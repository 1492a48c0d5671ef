import Sierra.Proofs.Gas.Shared
import Sierra.Proofs.Gas.Worst

/-!
# Dearer tables

What can be analysed, the order of the functions and the places of checks do not depend on costs. No
way costs less by a dearer table, so no amount is lower.
-/

namespace Sierra.Gas

open List Option Except Analysis
open Flow (Node Edge Explored)

variable {metering : Bool} {family family' : List (Flow × Amounts)} {numbers : List Nat}
  {types : Types} {opts' : Options}

/-! ## Tables -/

/-- The same weights and branches, where no cost of the second table is lower. -/
structure Table.Le (t t' : Table) : Prop where
  weights : t.weights = t'.weights
  entries : Forall₂ (fun x y => x.1 = y.1 ∧
    Forall₂ (fun c d : Cost => ∀ token, c.get token ≤ d.get token) x.2 y.2) t.entries t'.entries

lemma forall₂_find? {α β : Type} {R : α → β → Prop} {xs : List α} {ys : List β} {p : α → Bool}
    {q : β → Bool} (h : Forall₂ R xs ys) (hsame : ∀ x y, R x y → p x = q y) :
    Option.Rel R (xs.find? p) (ys.find? q) := by
  induction h with
  | nil => exact .none
  | @cons x y xs ys hxy _ ih =>
    rw [find?_cons, find?_cons, hsame x y hxy]
    cases q y with
    | true => exact .some hxy
    | false => exact ih

variable {t t' : Table} {n : Node}

section

variable (h : t.Le t')
include h

lemma Table.Le.lookup_cases (id : String) (branches : Int) :
    (∃ e e', t.lookup id branches = .error e ∧ t'.lookup id branches = .error e') ∨
      ∃ costs costs', t.lookup id branches = .ok costs ∧ t'.lookup id branches = .ok costs' ∧
        Option.Rel (Forall₂ fun c d : Cost => ∀ token, c.get token ≤ d.get token) costs costs' := by
  have hfind := forall₂_find? h.entries (p := fun entry => entry.1 == id)
    (q := fun entry => entry.1 == id) fun x y hxy => by rw [hxy.1]
  unfold lookup find?
  revert hfind
  generalize t.entries.find? _ = found
  generalize t'.entries.find? _ = found'
  rintro (@⟨⟨_, costs⟩, ⟨_, costs'⟩, -, hcosts⟩ | -)
  · dsimp only [map_some]
    cases hcosts with
    | nil =>
      dsimp only
      split
      · exact .inr ⟨_, _, rfl, rfl, .some .nil⟩
      · exact .inl ⟨_, _, rfl, rfl⟩
    | cons hcd hrest =>
      cases hrest with
      | nil =>
        -- one cost stands for every branch
        dsimp only
        split
        · refine .inr ⟨_, _, rfl, rfl, .some ?_⟩
          induction branches.toNat with
          | zero => exact .nil
          | succ k ih => exact .cons hcd ih
        · exact .inl ⟨_, _, rfl, rfl⟩
      | cons hcd' hrest =>
        simp only [length_cons, hrest.length_eq]
        split
        · exact .inr ⟨_, _, rfl, rfl, .some (.cons hcd (.cons hcd' hrest))⟩
        · exact .inl ⟨_, _, rfl, rfl⟩
  · exact .inr ⟨_, _, rfl, rfl, .none⟩

lemma Table.Le.exists_priceOf_iff {f : Libfunc} :
    (∃ price, priceOf t metering n f = .ok price) ↔ ∃ price, priceOf t' metering n f = .ok price := by
  unfold priceOf
  rcases h.lookup_cases f.generic n.edges.length with
    ⟨e, e', he, he'⟩ | ⟨costs, costs', hcosts, hcosts', hrel⟩
  · rw [he, he']
    simp
  · rw [hcosts, hcosts']
    cases hrel with
    | none => rfl
    | some => simp

lemma Table.Le.costOf_le (hweights : ∀ token, 0 ≤ t.weights.get token) (b : Nat) :
    t.costOf n b ≤ t'.costOf n b := by
  unfold costOf
  cases n.libfunc with
  | none => exact le_refl 0
  | some f =>
    dsimp only
    rcases h.lookup_cases f.generic n.edges.length with
      ⟨e, e', he, he'⟩ | ⟨costs, costs', hcosts, hcosts', hrel⟩
    · rw [he, he']
    rw [hcosts, hcosts']
    cases hrel with
    | none => exact le_refl 0
    | @some costs costs' hrel =>
      dsimp only
      cases hc : costs[b]? with
      | none =>
        rw [getElem?_eq_none_iff, hrel.length_eq, ← getElem?_eq_none_iff] at hc
        rw [hc]
        exact Int.le_refl 0
      | some c =>
        obtain ⟨d, hd, hle⟩ := (forall₂_getElem? hrel b).1 c hc
        rw [hd, ← h.weights]
        exact sum_le_sum fun token _ =>
          Int.mul_le_mul_of_nonneg_right (hle token) (hweights token)

lemma Table.Le.fault?_eq_none (hfault : t.fault? = none) : t'.fault? = none := by
  obtain ⟨hcosts, hweights⟩ := Table.nonneg_of_fault? hfault
  refine or_eq_none_iff.2 ⟨findSome?_eq_none_iff.2 fun entry' hentry' => ?_, ?_⟩
  · obtain ⟨entry, hentry, hname, hle⟩ := (forall₂_mem h.entries).2 entry' hentry'
    have hown := findSome?_eq_none_iff.1 (or_eq_none_iff.1 hfault).1 entry hentry
    unfold entryFault? at hown ⊢
    dsimp only at hown ⊢
    split at hown
    · cases hown
    next hempty =>
    rw [if_neg fun hnone => hempty ?_]
    · refine findSome?_eq_none_iff.2 fun x hx => map_eq_none_iff.2 ?_
      obtain ⟨c, hc, hcx⟩ := (forall₂_mem hle).2 x.1
        (mem_of_getElem? (mk_mem_zipIdx_iff_getElem?.1 hx))
      refine find?_eq_none.2 fun token _ => ?_
      have hpos := (hcosts entry hentry c hc token).trans (hcx token)
      simpa using hpos
    · rw [isEmpty_iff_length_eq_zero, hle.length_eq]
      exact isEmpty_iff_length_eq_zero.1 hnone
  · rw [← h.weights]
    exact (or_eq_none_iff.1 hfault).2

end

/-! ## Success -/

variable {s : Settled} {opts : Options} {flows : List Flow} {a : Analysis} {g : Flow}

lemma exists_prices_iff (hflows : ∀ g ∈ flows, g.Explored s) :
    (∃ costs, flows.foldlM (priceFlow t metering)
      (Array.replicate s.program.statements.size none) = .ok costs) ↔
    ∀ g ∈ flows, ∀ n ∈ g.order, ∀ f, n.libfunc = some f →
      ∃ price, priceOf t metering n f = .ok price := by
  constructor
  · rintro ⟨costs, hcosts⟩ g hg n hn f hf
    obtain ⟨hpriced, hall⟩ := pricedBy_of_foldlM hflows pricedBy_replicate hcosts
    obtain ⟨price, hval⟩ := isSome_iff_exists.1 (hall g hg n hn (by rw [hf]; rfl))
    obtain ⟨f', hf', hprice⟩ := hpriced.priceOf_eq_ok hflows (hflows g hg) hn hval
    cases hf.symm.trans hf'
    exact ⟨price, hprice⟩
  · intro hprices
    clear hflows
    generalize Array.replicate s.program.statements.size none = start
    induction flows generalizing start with
    | nil => exact ⟨start, rfl⟩
    | cons g flows ih =>
      obtain ⟨next, hnext⟩ := exists_priceFlow (hprices g mem_cons_self) start
      obtain ⟨costs, hcosts⟩ := ih (fun f hf => hprices f (mem_cons_of_mem _ hf)) next
      exact ⟨costs, by rw [foldlM_cons, hnext]; exact hcosts⟩

/-- The same functions with the same moves of the allocation pointer. -/
def Analysis.Like (a a' : Analysis) : Prop :=
  ∀ id, (a.func? id).map (·.ap) = (a'.func? id).map (·.ap)

lemma exists_amountsOf {p : Prices} {isRecursive dynamic : Bool}
    {own : Amounts} (h : amountsOf types p isRecursive dynamic g = .ok own) (p' : Prices)
    (hmeter : p'.metering = p.metering) :
    ∃ own', amountsOf types p' isRecursive dynamic g = .ok own' := by
  unfold amountsOf at h ⊢
  rw [hmeter]
  dsimp only at h ⊢
  split at h
  · cases h
  · split at h
    · cases h
    · next hcyclic => exact ⟨_, by rw [if_neg hcyclic]; rfl⟩

lemma Analysis.Like.analyseFunction {a' next : Analysis} (hlike : a.Like a')
    (hdyn : opts'.dynamic = opts.dynamic)
    (h : analyseFunction types opts metering numbers a g = .ok next) :
    ∃ next', analyseFunction types opts' metering numbers a' g = .ok next' ∧ next.Like next' := by
  obtain ⟨own, hown, h⟩ := except_bind_eq_ok.1 h
  obtain ⟨ap, hap, h⟩ := except_bind_eq_ok.1 h
  cases h
  obtain ⟨own', hown'⟩ := exists_amountsOf hown (pricesAt metering numbers a') rfl
  have hknown : ∀ id, (a'.func? id).elim ApChange.unknown (·.ap) =
      (a.func? id).elim ApChange.unknown (·.ap) := by
    intro id
    have hid := hlike id
    cases hf : a.func? id <;> cases hf' : a'.func? id <;> simp_all
  refine ⟨_, except_bind_eq_ok.2 ⟨own', hdyn ▸ hown', except_bind_eq_ok.2
    ⟨ap, ?_, rfl⟩⟩, fun id => ?_⟩
  · simp only [hknown]
    exact hap
  · have hid := hlike id
    unfold func? at hid ⊢
    unfold record
    simp only [find?_append, map_or, hid, find?_singleton, apply_ite (Option.map _)]
    rfl

lemma Analysis.Like.exists_run {gs : List Flow} {a' last : Analysis}
    (h : gs.foldlM (Gas.analyseFunction types opts metering numbers) a = .ok last)
    (hdyn : opts'.dynamic = opts.dynamic) (hlike : a.Like a') :
    ∃ last', gs.foldlM (Gas.analyseFunction types opts' metering numbers) a' = .ok last' := by
  induction gs generalizing a a' with
  | nil => exact ⟨a', rfl⟩
  | cons g gs ih =>
    obtain ⟨next, hnext, hrest⟩ := foldlM_cons_ok h
    obtain ⟨next', hnext', hlike'⟩ := hlike.analyseFunction hdyn hnext
    obtain ⟨last', hlast'⟩ := ih hrest hlike'
    exact ⟨last', by rw [foldlM_cons, hnext']; exact hlast'⟩

lemma exists_analyse (hflows : ∀ g ∈ flows, g.Explored s) (h : analyse s flows opts = .ok a)
    (hfault : t.fault? = none)
    (hprices : ∀ metering (n : Node) f, (∃ price, priceOf opts.table metering n f = .ok price) →
      ∃ price, priceOf t metering n f = .ok price) :
    ∃ a', analyse s flows { opts with table := t } = .ok a' := by
  unfold analyse at h ⊢
  rw [hfault]
  split at h
  · cases h
  obtain ⟨costs, hcosts, h⟩ := except_bind_eq_ok.1 h
  obtain ⟨calls, hcalls, h⟩ := except_bind_eq_ok.1 h
  obtain ⟨_, hcheck, h⟩ := except_bind_eq_ok.1 h
  obtain ⟨order, horder, h⟩ := except_bind_eq_ok.1 h
  obtain ⟨costs', hcosts'⟩ := (exists_prices_iff hflows).2 fun g hg n hn f hf =>
    hprices _ n f ((exists_prices_iff hflows).1 ⟨costs, hcosts⟩ g hg n hn f hf)
  refine (Analysis.Like.exists_run h rfl ?_).imp fun a' ha' => except_bind_eq_ok.2 ⟨costs',
    hcosts', except_bind_eq_ok.2 ⟨calls, hcalls, except_bind_eq_ok.2 ⟨_, hcheck,
      except_bind_eq_ok.2 ⟨order, horder, ha'⟩⟩⟩⟩
  exact fun _ => rfl

/-! ## Amounts -/

/-- The same statements pay for themselves, and no need is lower by the second table. -/
structure Amounts.Le (g : Flow) (own own' : Amounts) : Prop where
  view : own.view = own'.view
  cut : own.cut = own'.cut
  need : ∀ n ∈ g.order, own.needAt n.index ≤ own'.needAt n.index

abbrev EntriesLe {α : Type} [LE α] : List (Int × α) → List (Int × α) → Prop :=
  Forall₂ fun x y => x.1 = y.1 ∧ x.2 ≤ y.2

/-- What is kept is for the same statements and not lower. -/
structure Amounts.Grow (own own' : Amounts) : Prop where
  entry : own.entry ≤ own'.entry
  needs : EntriesLe own.needs own'.needs
  charges : EntriesLe own.charges own'.charges
  injected : EntriesLe own.injected own'.injected

section

variable {own own' : Amounts} {p : Prices} (h : own.Le g own') (hg : g.Explored s)
  (hfits : own.Fits p g)
include h

lemma Amounts.Le.dueFor_le (hn : n ∈ g.order) : own.dueFor n.index ≤ own'.dueFor n.index := by
  rw [dueFor_eq, dueFor_eq, h.cut, h.view]
  split
  · exact le_refl 0
  · exact h.need n hn

include hg hfits

lemma Amounts.Le.entry_le : own.entry ≤ own'.entry := by
  obtain ⟨n, hn, -⟩ := hg.entry
  have hle := h.dueFor_le (Flow.mem_order_of_node? hn)
  rw [(hg.visited_of_node? hn).2] at hle
  have hentry : own.view.entry = own.view.place g.function.entry := by rw [hfits.view]; rfl
  unfold entry
  rw [← h.view, hentry]
  unfold dueFor at hle
  rwa [← h.view] at hle

lemma Amounts.Le.grow : own.Grow own' := by
  have hneed : ∀ x ∈ own.view.nodes.toList.zipIdx,
      (own.need[x.2]?).getD 0 ≤ (own'.need[x.2]?).getD 0 := by
    intro x hx
    rw [mk_mem_zipIdx_iff_getElem?, Array.getElem?_toList, hfits.view] at hx
    have hle := h.need x.1 (mem_order_of_getElem? hx)
    unfold needAt at hle
    rwa [← h.view, hfits.view, place_eq hg hx] at hle
  refine ⟨h.entry_le hg hfits, ?_, ?_, ?_⟩
  · rw [EntriesLe, needs, needs, ← h.view, forall₂_map_left_iff, forall₂_map_right_iff, forall₂_same]
    exact fun x hx => ⟨rfl, hneed x hx⟩
  · unfold charges
    rw [← h.view]
    refine rel_filterMap (R := fun n m => n = m ∧ n ∈ own.view.nodes.toList) ?_
      (forall₂_same.2 fun n hn => ⟨rfl, hn⟩)
    rintro n _ ⟨rfl, hn⟩
    rw [hfits.view] at hn
    dsimp only
    cases isCheckpoint n with
    | false => exact .none
    | true =>
      cases hedges : n.edges with
      | nil => exact .none
      | cons success rest =>
        obtain ⟨m, hm, htarget⟩ :=
          hg.exists_target (show n ∈ g.order from hn) (hedges ▸ mem_cons_self : success ∈ n.edges)
        have hle := h.dueFor_le hm
        unfold dueFor at hle
        rw [← h.view, htarget] at hle
        exact .some ⟨rfl, Int.toNat_le_toNat hle⟩
  · unfold injected
    rw [← h.view, ← h.cut]
    refine rel_filterMap (R := fun x y => x = y ∧ x ∈ own.view.nodes.toList.zipIdx) ?_
      (forall₂_same.2 fun n hn => ⟨rfl, hn⟩)
    rintro x _ ⟨rfl, hx⟩
    dsimp only
    split
    · exact .some ⟨rfl, Int.toNat_le_toNat (hneed x hx)⟩
    · exact .none

end

/-! ## What is kept -/

section

variable {α : Type} {R : α → α → Prop}

lemma Analysis.keep_rel {entries entries' : List (Int × α)} {values values' : Array (Option α)}
    (hentries : Forall₂ (fun x y => x.1 = y.1 ∧ R x.2 y.2) entries entries')
    (hvals : ∀ i : Nat, Option.Rel (Option.Rel R) values[i]? values'[i]?) (i : Nat) :
    Option.Rel (Option.Rel R) (keep values entries)[i]? (keep values' entries')[i]? := by
  induction hentries generalizing values values' with
  | nil => exact hvals i
  | @cons x y _ _ hxy _ ih =>
    refine ih fun j => ?_
    rw [Array.getElem?_modify, Array.getElem?_modify, hxy.1]
    split
    · have hj := hvals j
      revert hj
      generalize values[j]? = value
      generalize values'[j]? = value'
      rintro (- | -)
      · exact .some (.some hxy.2)
      · exact .none
    · exact hvals j

lemma Analysis.valueAt_rel {values values' : Array (Option α)}
    (h : ∀ i : Nat, Option.Rel (Option.Rel R) values[i]? values'[i]?) (index : Int) :
    Option.Rel R (valueAt values index) (valueAt values' index) := by
  unfold valueAt
  split
  · exact .none
  have hval := h index.toNat
  revert hval
  generalize values[index.toNat]? = value
  generalize values'[index.toNat]? = value'
  rintro (hrel | -)
  · exact hrel
  · exact .none

lemma Analysis.valueAt_kept_rel {entries : Flow × Amounts → List (Int × α)} {size : Nat}
    (h : Forall₂ (fun x y => Forall₂ (fun x y => x.1 = y.1 ∧ R x.2 y.2) (entries x) (entries y))
      family family') (index : Int) :
    Option.Rel R (valueAt (keep (Array.replicate size none) (family.flatMap entries)) index)
      (valueAt (keep (Array.replicate size none) (family'.flatMap entries)) index) := by
  refine valueAt_rel (keep_rel (rel_flatMap h fun _ _ hxy => hxy) fun i => ?_) index
  rw [Array.getElem?_replicate]
  split
  · exact .some .none
  · exact .none

end

lemma forall₂_of_fst {P : Flow → Amounts → Amounts → Prop}
    (hsame : family.map (·.1) = family'.map (·.1))
    (h : ∀ g own own', (g, own) ∈ family → (g, own') ∈ family' → P g own own') :
    Forall₂ (fun x y => x.1 = y.1 ∧ P x.1 x.2 y.2) family family' := by
  induction family generalizing family' with
  | nil =>
    rw [map_eq_nil_iff.1 hsame.symm]
    exact .nil
  | cons x family ih =>
    cases family' with
    | nil => cases hsame
    | cons y family' =>
      obtain ⟨hxy, hrest⟩ := cons.inj hsame
      refine .cons ⟨hxy, h x.1 x.2 y.2 mem_cons_self ?_⟩ (ih hrest fun g own own' hx hy =>
        h g own own' (mem_cons_of_mem _ hx) (mem_cons_of_mem _ hy))
      exact (show x.1 = y.1 from hxy) ▸ mem_cons_self

/-! ## Ways -/

lemma le_of_isGreatest {cost cost' : Node → Nat → Int} {ends : Node → Nat → Edge → Bool}
    (hcost : ∀ n ∈ g.order, ∀ b e, n.edges[b]? = some e → cost n b ≤ cost' n b)
    (hn : n ∈ g.order) {most most' : Int} (h : IsGreatest {total | Way cost ends g n total} most)
    (h' : IsGreatest {total | Way cost' ends g n total} most') : most ≤ most' := by
  have hdearer : ∀ {n total}, Way cost ends g n total → n ∈ g.order →
      ∃ total', total ≤ total' ∧ Way cost' ends g n total' := by
    intro n total hway hn
    induction hway with
    | done hnone => exact ⟨0, le_refl 0, .done hnone⟩
    | last he hends => exact ⟨_, hcost _ hn _ _ he, .last he hends⟩
    | more he hgoes hm _ ih =>
      obtain ⟨rest', hle, hrest'⟩ := ih (Flow.mem_order_of_node? hm)
      exact ⟨_, add_le_add (hcost _ hn _ _ he) hle, .more he hgoes hm hrest'⟩
  obtain ⟨total', hle, hway⟩ := hdearer h.1 hn
  exact hle.trans (h'.2 hway)

/-! ## Two analyses -/

lemma Analyses.requiredGas_eq {start : Analysis} {x : Flow × Amounts}
    (h : Analyses types opts metering numbers start family a) (hstart : start.funcs = [])
    (hids : DistinctIds (family.map (·.1))) (hx : x ∈ family) {id : FunctionId}
    (hid : x.1.function.id.number = id.number) : a.requiredGas id = toAmount x.2.entry := by
  obtain ⟨f, hf, hentry⟩ := map_eq_some_iff.1 (h.func? hstart hids hx hid)
  rw [requiredGas, hf, elim_some, hentry]

section

variable {a' start start' : Analysis} {calls : Array (List Nat)} {order : List Nat}
  (hflows : ∀ g ∈ flows, g.Explored s) (hdistinct : DistinctIds flows) (hle : opts.table.Le t)

include hflows hdistinct hle

lemma Steps.amounts_le (h : Steps s opts flows true start calls order a)
    (h' : Steps s { opts with table := t } flows true start' calls order a')
    (hexact : Exact s opts flows a) (hexact' : Exact s { opts with table := t } flows a')
    (hrun : Analyses s.types opts true (recursiveNumbers flows) start family a)
    (hrun' : Analyses s.types { opts with table := t } true (recursiveNumbers flows) start' family' a')
    (k : Analysed s opts flows a family) (k' : Analysed s { opts with table := t } flows a' family')
    {own own' : Amounts} (hx : (g, own) ∈ family) : (g, own') ∈ family' → own.Le g own' := by
  refine h.induction hdistinct (motive := fun g => ∀ own own', (g, own) ∈ family →
    (g, own') ∈ family' → own.Le g own') (fun g hg ih own own' hx hx' => ?_) (k.mem _ hx) own own' hx
  obtain ⟨hfits, hcut⟩ := fits_of_amountsOf (hflows g hg) (k.amounts (g, own) hx)
  obtain ⟨hfits', hcut'⟩ := fits_of_amountsOf (hflows g hg) (k'.amounts (g, own') hx')
  have hview : own.view = own'.view := hfits.view.trans hfits'.view.symm
  have hstops : own'.stops = own.stops := by
    funext n b e
    rw [Amounts.stops, Amounts.stops, hview, hcut, hcut']
    rfl
  refine ⟨hview, hcut.trans hcut'.symm, fun n hn => le_of_isGreatest (fun n hn b e he => ?_) hn
    (k.isGreatest_needAt hflows hexact hx hn)
    (hstops ▸ k'.isGreatest_needAt hflows hexact' hx' hn)⟩
  refine add_le_add (hle.costOf_le (Table.nonneg_of_fault? h.fault).2 b) ?_
  cases hcallee : calleeOf n with
  | none => exact le_refl 0
  | some callee =>
    refine Int.ofNat_le.2 ?_
    cases hnum : (recursiveNumbers flows).contains callee.number with
    | true =>
      -- a function that can call itself needs nothing
      obtain ⟨f, hf, hid⟩ := exists_of_recursiveNumbers hnum
      obtain ⟨inner, hinner⟩ := k.all f hf
      rw [hrun.requiredGas_eq h.fresh.funcs k.distinct hinner hid,
        hrun.entry_of_recursive (fun x hx => hflows x.1 (k.mem x hx)) hinner (hid ▸ hnum)]
      exact Nat.zero_le _
    | false =>
      obtain ⟨f, hf, hid, hinner⟩ := ih n hn callee hcallee hnum
      obtain ⟨inner, hx⟩ := k.all f hf
      obtain ⟨inner', hx'⟩ := k'.all f hf
      rw [hrun.requiredGas_eq h.fresh.funcs k.distinct hx hid,
        hrun'.requiredGas_eq h'.fresh.funcs k'.distinct hx' hid]
      exact Int.toNat_le_toNat ((hinner inner inner' hx hx').entry_le (hflows f hf) (k.fits hflows hx))

lemma Steps.exists_families (h : Steps s opts flows metering start calls order a)
    (h' : Steps s { opts with table := t } flows metering start' calls order a')
    (hexact : metering → Exact s opts flows a ∧ Exact s { opts with table := t } flows a') :
    ∃ family family', Analyses s.types opts metering (recursiveNumbers flows) start family a ∧
      Analyses s.types { opts with table := t } metering (recursiveNumbers flows) start' family' a' ∧
      Forall₂ (fun x y => x.1 = y.1 ∧ x.2.Grow y.2) family family' ∧
      (∀ g ∈ flows, g ∈ family.map (·.1)) ∧
      DistinctIds (family.map (·.1)) ∧ DistinctIds (family'.map (·.1)) := by
  cases metering with
  | true =>
    obtain ⟨family, k, hrun, hfam⟩ := h.analysed hflows hdistinct
    obtain ⟨family', k', hrun', hfam'⟩ := h'.analysed hflows hdistinct
    refine ⟨family, family', hrun, hrun', forall₂_of_fst (P := fun _ own own' => own.Grow own')
      (hfam.trans hfam'.symm) fun g own own' hx hx' => ?_, fun g hg => ?_, k.distinct,
      k'.distinct⟩
    · have hgrow := h.amounts_le hflows hdistinct hle h' (hexact rfl).1 (hexact rfl).2 hrun hrun' k k'
        hx hx'
      exact hgrow.grow (hflows g (k.mem _ hx)) (k.fits hflows hx)
    · obtain ⟨own, hx⟩ := k.all g hg
      exact mem_map.2 ⟨_, hx, rfl⟩
  | false =>
    -- without metering no statement has a price
    obtain ⟨family, hrun, hfam, hmem, hids, -⟩ := h.exists_family hdistinct
    obtain ⟨family', hrun', hfam', -, hids', -⟩ := h'.exists_family hdistinct
    refine ⟨family, family', hrun, hrun', forall₂_of_fst (P := fun _ own own' => own.Grow own')
      (hfam.trans hfam'.symm) fun g own own' hx hx' => ?_, fun g => (hmem g).2, hids, hids'⟩
    have hown := hrun.amountsOf_unmetered hx (p := pricesAt false [] start) rfl
    have hown' := hrun'.amountsOf_unmetered hx' (p := pricesAt false [] start) rfl
    obtain rfl : own = own' := ok.inj (hown.symm.trans hown')
    have hsame : ∀ {α : Type} [Preorder α] (entries : List (Int × α)), EntriesLe entries entries :=
      fun _ => forall₂_same.2 fun _ _ => ⟨rfl, le_refl _⟩
    exact ⟨le_refl _, hsame _, hsame _, hsame _⟩

lemma Steps.bound?_le (h : Steps s opts flows metering start calls order a)
    (h' : Steps s { opts with table := t } flows metering start' calls order a')
    (hexact : ExactTotals opts flows a) (hexact' : ExactTotals { opts with table := t } flows a')
    (hg : g ∈ flows) : Option.Rel (· ≤ ·) (a.bound? g.function.id) (a'.bound? g.function.id) := by
  refine h.induction hdistinct (motive := fun g =>
    Option.Rel (· ≤ ·) (a.bound? g.function.id) (a'.bound? g.function.id)) (fun g hg ih => ?_) hg
  have hcallee : ∀ n ∈ g.order, ∀ callee, calleeOf n = some callee →
      Option.Rel (· ≤ ·) (a.bound? callee) (a'.bound? callee) := by
    intro n hn callee hcallee
    cases hnum : (recursiveNumbers flows).contains callee.number with
    | true =>
      rw [h.bound?_of_recursive hdistinct hnum, h'.bound?_of_recursive hdistinct hnum]
      exact .none
    | false =>
      obtain ⟨f, -, hid, hrel⟩ := ih n hn callee hcallee hnum
      unfold bound? at hrel ⊢
      rwa [func?_congr hid, func?_congr hid] at hrel
  have hinner : ∀ n ∈ g.order, ((innerOf a.bound? n).isSome ↔
      (innerOf a'.bound? n).isSome) ∧ a.fullCost opts.table n ≤ a'.fullCost t n := by
    intro n hn
    have hcost := hle.costOf_le (n := n) (Table.nonneg_of_fault? h.fault).2
    cases hcall : calleeOf n with
    | none =>
      refine ⟨by simp only [innerOf, hcall, elim_none], fun b => ?_⟩
      simpa only [fullCost, hcall, elim_none, add_zero] using hcost b
    | some callee =>
      have hrel := hcallee n hn callee hcall
      simp only [innerOf, hcall, elim_some, Pi.le_def, fullCost,
        h.worstCase_getD hdistinct hflows, h'.worstCase_getD hdistinct hflows]
      revert hrel
      generalize a.bound? callee = bound
      generalize a'.bound? callee = bound'
      rintro (hrel | -)
      · exact ⟨Iff.rfl, fun b => add_le_add (hcost b) hrel⟩
      · exact ⟨Iff.rfl, fun b => add_le_add (hcost b) (le_refl 0)⟩
  have hsome := (h.isSome_bound?_iff hdistinct hflows hg).trans
    ((and_congr_right' (and_congr_right' (forall₂_congr fun n hn =>
      imp_congr_right fun _ => (hinner n hn).1))).trans
      (h'.isSome_bound?_iff hdistinct hflows hg).symm)
  cases hbound : a.bound? g.function.id <;> cases hbound' : a'.bound? g.function.id
  · exact .none
  · simp [hbound, hbound'] at hsome
  · simp [hbound, hbound'] at hsome
  · obtain ⟨n, hn, hmax⟩ := h.isGreatest_bound? hdistinct hflows hexact hg hbound
    obtain ⟨n', hn', hmax'⟩ := h'.isGreatest_bound? hdistinct hflows hexact' hg hbound'
    cases hn.symm.trans hn'
    exact .some (le_of_isGreatest (fun m hm b e _ => (hinner m hm).2 b)
      (Flow.mem_order_of_node? hn) hmax hmax')

end

/-- By a table that is nowhere cheaper a program can be analysed or not alike, once the first passes
its check. The same functions have a bound and checks are put in at the same statements; no need,
charge, amount of a check, cost of a function's start or bound is lower. -/
theorem amounts_grow_with_the_table {program : Program} (hs : Settled.ofProgram program = .ok s)
    (hflows : program.funcs.mapM (Flow.ofFunction s) = .ok flows) (hle : opts.table.Le t)
    (hfault : opts.table.fault? = none) :
    ((∃ a, analyse s flows opts = .ok a) ↔
      ∃ a', analyse s flows { opts with table := t } = .ok a') ∧
    ∀ a a', analyse s flows opts = .ok a → analyse s flows { opts with table := t } = .ok a' →
      ((usesGas s.types flows && !opts.disabled) = true →
        Exact s opts flows a ∧ Exact s { opts with table := t } flows a') →
      ExactTotals opts flows a → ExactTotals { opts with table := t } flows a' →
      (∀ g ∈ flows, a.requiredGas g.function.id ≤ a'.requiredGas g.function.id ∧
        Option.Rel (· ≤ ·) (a.worstCase g.function.id) (a'.worstCase g.function.id)) ∧
      ∀ index, Option.Rel (· ≤ ·) (Analysis.valueAt a.need index) (Analysis.valueAt a'.need index) ∧
        Option.Rel (· ≤ ·) (Analysis.valueAt a.charges index) (Analysis.valueAt a'.charges index) ∧
        Option.Rel (· ≤ ·) (a.injectedAt index) (a'.injectedAt index) := by
  obtain ⟨hexplored, hdistinct⟩ := explored_of_mapM hs hflows
  refine ⟨⟨fun ⟨a, ha⟩ => ?_, fun ⟨a', ha'⟩ => ?_⟩, fun a a' ha ha' hexact htotals htotals' => ?_⟩
  · exact exists_analyse hexplored ha (hle.fault?_eq_none hfault)
      fun _ _ _ => hle.exists_priceOf_iff.1
  · have hback := exists_analyse hexplored ha' hfault fun _ _ _ => hle.exists_priceOf_iff.2
    exact hback
  obtain ⟨start, calls, order, h⟩ := steps_of_analyse rfl ha
  obtain ⟨start', calls', order', h'⟩ := steps_of_analyse rfl ha'
  cases h.graph.symm.trans h'.graph
  cases h.sorted.symm.trans h'.sorted
  obtain ⟨family, family', hrun, hrun', hgrow, hmem, hids, hids'⟩ :=
    h.exists_families hexplored hdistinct hle h' hexact
  refine ⟨fun g hg => ⟨?_, ?_⟩, fun index => ?_⟩
  · obtain ⟨x, hx, rfl⟩ := mem_map.1 (hmem g hg)
    obtain ⟨y, hy, hxy, hle⟩ := (forall₂_mem hgrow).1 x hx
    rw [hrun.requiredGas_eq h.fresh.funcs hids hx rfl,
      hrun'.requiredGas_eq h'.fresh.funcs hids' hy (congrArg (·.function.id.number) hxy.symm)]
    exact Int.toNat_le_toNat hle.entry
  · have hbound := h.bound?_le hexplored hdistinct hle h' htotals htotals' hg
    rw [a.worstCase_eq, a'.worstCase_eq]
    revert hbound
    generalize a.bound? _ = bound
    generalize a'.bound? _ = bound'
    rintro (hbound | -)
    · exact .some (Int.toNat_le_toNat hbound)
    · exact .none
  · obtain ⟨hcharges, hinjected, -⟩ := hrun.kept
    obtain ⟨hcharges', hinjected', -⟩ := hrun'.kept
    rw [injectedAt, injectedAt, hrun.need_eq, hrun'.need_eq, hcharges, hcharges',
      hinjected, hinjected', h.need, h'.need, h.fresh.charges, h'.fresh.charges, h.fresh.injected,
      h'.fresh.injected]
    exact ⟨valueAt_kept_rel (hgrow.imp fun _ _ hxy => hxy.2.needs) index,
      valueAt_kept_rel (hgrow.imp fun _ _ hxy => hxy.2.charges) index,
      valueAt_kept_rel (hgrow.imp fun _ _ hxy => hxy.2.injected) index⟩

def jumpsAt (jump : Int) : Table where
  entries := [("function_call", [.gas 300]), ("jump", [.gas jump]), ("redeposit_gas", [.gas 20]),
    ("withdraw_gas", [.gas 470, .gas 570])]

lemma jumpsAt_le {jump jump' : Int} (h : jump ≤ jump') : (jumpsAt jump).Le (jumpsAt jump') := by
  have hsame : ∀ costs : List Cost,
      Forall₂ (fun c d : Cost => ∀ token, c.get token ≤ d.get token) costs costs :=
    fun _ => forall₂_same.2 fun _ _ _ => le_refl _
  refine ⟨rfl, .cons ⟨rfl, hsame _⟩ (.cons ⟨rfl, .cons (fun token => ?_) .nil⟩
    (.cons ⟨rfl, hsame _⟩ (.cons ⟨rfl, hsame _⟩ .nil)))⟩
  cases token with
  | const => exact h
  | _ => exact le_refl 0

theorem refill_needs_grow : ∃ s flows a a', Settled.ofProgram refill = .ok s ∧
    refill.funcs.mapM (Flow.ofFunction s) = .ok flows ∧
    (jumpsAt 100).Le (jumpsAt 105) ∧ (jumpsAt 100).fault? = none ∧
    analyse s flows { table := jumpsAt 100 } = .ok a ∧
    analyse s flows { table := jumpsAt 105 } = .ok a' ∧
    Exact s { table := jumpsAt 100 } flows a ∧ Exact s { table := jumpsAt 105 } flows a' ∧
    ExactTotals { table := jumpsAt 100 } flows a ∧ ExactTotals { table := jumpsAt 105 } flows a' ∧
    Analysis.valueAt a.need 1 = some 990 ∧ Analysis.valueAt a'.need 1 = some 995 ∧
    ∀ g ∈ flows, a.requiredGas g.function.id ≤ a'.requiredGas g.function.id := by
  obtain ⟨s, flows, a, hs, hflows, hmetering, ha, hexact, htest⟩ := exists_of_isMetered
    (show isMetered refill { table := jumpsAt 100 } fun _ flows a =>
      decide (ExactTotals { table := jumpsAt 100 } flows a) &&
      Analysis.valueAt a.need 1 == some 990 by decide +kernel)
  obtain ⟨s', flows', a', hs', hflows', -, ha', hexact', htest'⟩ := exists_of_isMetered
    (show isMetered refill { table := jumpsAt 105 } fun _ flows a =>
      decide (ExactTotals { table := jumpsAt 105 } flows a) &&
      Analysis.valueAt a.need 1 == some 995 by decide +kernel)
  cases hs.symm.trans hs'
  cases hflows.symm.trans hflows'
  rw [Bool.and_eq_true, decide_eq_true_eq, beq_iff_eq] at htest htest'
  have hle : (jumpsAt 100).Le (jumpsAt 105) := jumpsAt_le (by decide)
  have hfault : (jumpsAt 100).fault? = none := by decide +kernel
  obtain ⟨-, hgrow⟩ := @amounts_grow_with_the_table (jumpsAt 105) s { table := jumpsAt 100 } flows
    refill hs hflows hle hfault
  exact ⟨s, flows, a, a', hs, hflows, hle, hfault, ha, ha', hexact, hexact', htest.1, htest'.1,
    htest.2, htest'.2, fun g hg => ((hgrow a a' ha ha' (fun _ => ⟨hexact, hexact'⟩) htest.1
      htest'.1).1 g hg).1⟩

theorem negative_cost_is_refused : ∃ s flows, Settled.ofProgram refill = .ok s ∧
    refill.funcs.mapM (Flow.ofFunction s) = .ok flows ∧ (jumpsAt (-1)).Le (jumpsAt 0) ∧
    (∃ a, analyse s flows { table := jumpsAt 0 } = .ok a) ∧
    ¬ ∃ a, analyse s flows { table := jumpsAt (-1) } = .ok a := by
  obtain ⟨s, flows, a, hs, hflows, -, ha, -⟩ := exists_of_isMetered
    (show isMetered refill { table := jumpsAt 0 } fun _ _ _ => true by decide +kernel)
  refine ⟨s, flows, hs, hflows, jumpsAt_le (by decide), ⟨a, ha⟩, fun ⟨a', ha'⟩ => ?_⟩
  obtain ⟨_, _, _, hsteps⟩ := steps_of_analyse rfl ha'
  exact absurd hsteps.fault (by decide +kernel)

end Sierra.Gas
