import Sierra.Proofs.Gas.Analysis
import Sierra.Proofs.Gas.Refund

/-!
# Statements that functions share

Amounts are kept by statement; what stands is what the last function has left there
(`Analyses.kept`), while a function has worked out its own (`Analysis.ownAmounts`).
-/

namespace Sierra.Gas

open List Analysis
open Flow (Node Edge Explored)

variable {g : Flow} {x : Flow × Amounts} {index : Int} {family : List (Flow × Amounts)}
  {numbers : List Nat} {p : Prices} {table : Table} {types : Types} {start : Analysis}
  {costs : Array (Option (List Int))} {entry : Int × Nat}

/-! ## The last amount for a statement -/

def lastFor (entries : List (Int × Nat)) (index : Int) : Option Nat := entries.reverse.lookup index

lemma lastFor_append (xs ys : List (Int × Nat)) (index : Int) :
    lastFor (xs ++ ys) index = (lastFor ys index).or (lastFor xs index) := by
  rw [lastFor, reverse_append, lookup_append]
  rfl

section

variable {α : Type} {family : List α} (entries : α → List (Int × Nat)) (index : Int)

lemma lastFor_flatMap (family : List α) :
    (∃ x ∈ family, (lastFor (entries x) index).isSome ∧
      lastFor (family.flatMap entries) index = lastFor (entries x) index) ∨
    (∀ x ∈ family, lastFor (entries x) index = none) ∧
      lastFor (family.flatMap entries) index = none := by
  induction family with
  | nil => exact .inr ⟨by simp, rfl⟩
  | cons x family ih =>
    rw [flatMap_cons, lastFor_append]
    rcases ih with ⟨y, hy, hsome, hlast⟩ | ⟨hnone, hlast⟩
    · refine .inl ⟨y, mem_cons_of_mem _ hy, hsome, ?_⟩
      rw [hlast, Option.or_of_isSome hsome]
    rw [hlast]
    cases hx : lastFor (entries x) index with
    | some amount => exact .inl ⟨x, mem_cons_self, by rw [hx]; rfl, hx.symm⟩
    | none =>
      refine .inr ⟨fun y hy => ?_, rfl⟩
      rcases mem_cons.1 hy with rfl | hy
      · exact hx
      · exact hnone y hy

lemma read_lastFor_flatMap {β : Type} (read : Option Nat → β) {x : α} (hx : x ∈ family)
    (h : ∀ y ∈ family, (lastFor (entries y) index).isSome →
      read (lastFor (entries y) index) = read (lastFor (entries x) index)) :
    read (lastFor (family.flatMap entries) index) = read (lastFor (entries x) index) := by
  rcases lastFor_flatMap entries index family with ⟨y, hy, hsome, hlast⟩ | ⟨hnone, hlast⟩
  · rw [hlast]
    exact h y hy hsome
  · rw [hlast, hnone x hx]

end

/-! ## What is read for a statement -/

structure Share where
  charge : Nat
  injected : Option Nat
  refund : Nat
deriving DecidableEq, Repr

/-- The amounts that lowering reads. -/
def Analysis.shareAt (a : Analysis) (index : Int) : Share where
  charge := a.chargeAt index
  injected := a.injectedAt index
  refund := a.refundAt index

def Amounts.shareAt (a : Amounts) (index : Int) : Share where
  charge := (lastFor a.charges index).getD 0
  injected := lastFor a.injected index
  refund := (lastFor a.refunds index).getD 0

def Amounts.entries (a : Amounts) : List (Int × Nat) := a.charges ++ a.injected ++ a.refunds

/-- Worked out from the function's own statement graph. -/
def Analysis.ownAmounts (a : Analysis) (s : Settled) (opts : Options) (flows : List Flow)
    (g : Flow) : Except Failure Amounts := do
  let metering := Gas.usesGas s.types flows && !opts.disabled
  let costs ← priceFlow opts.table metering (Array.replicate s.program.statements.size none) g
  Gas.amountsOf s.types
    { metering := metering, costs := costs, entryCost := fun f => (a.func? f).elim 0 (·.entry) }
    ((recursiveNumbers flows).contains g.function.id.number) opts.dynamic g

/-- A function that reaches the statement works out the share from its own graph. -/
def Analysis.WorksOut (a : Analysis) (s : Settled) (opts : Options) (flows : List Flow) (g : Flow)
    (index : Int) (share : Share) : Prop :=
  (∃ n ∈ g.order, n.index = index) ∧
    ∃ own, a.ownAmounts s opts flows g = .ok own ∧ own.shareAt index = share

variable {s : Settled} {opts : Options} {flows : List Flow} {a : Analysis} {metering : Bool}

lemma mem_foldl_passOn {v : View} {cut : Array Bool} {need : Array Int}
    {rest : List Nat} {state : Array Int × List (Int × Nat)}
    (h : entry ∈ (rest.foldl (passOn p v cut need) state).2) :
    entry ∈ state.2 ∨ ∃ (i : Nat) (n : Node), v.nodes[i]? = some n ∧ n.index = entry.1 := by
  induction rest generalizing state with
  | nil => exact .inl h
  | cons i rest ih =>
    rcases ih h with hmem | hnode
    · rw [passOn_eq] at hmem
      cases hgoes : goesOn v state.1 i with
      | none =>
        rw [hgoes] at hmem
        exact .inl hmem
      | some n =>
        rw [hgoes] at hmem
        rcases mem_append.1 hmem with hold | hnew
        · exact .inl hold
        · refine .inr ⟨i, n, (goesOn_eq_some_iff.1 hgoes).1, ?_⟩
          unfold givesBack at hnew
          split at hnew
          · rw [mem_singleton.1 hnew]
          · cases hnew
    · exact .inr hnode

lemma exists_node_of_amountsOf {isRecursive dynamic : Bool}
    {own : Amounts} (hg : g.Explored s) (h : amountsOf types p isRecursive dynamic g = .ok own)
    (hentry : entry ∈ own.entries) : ∃ n ∈ g.order, n.index = entry.1 := by
  obtain ⟨hfits, -⟩ := fits_of_amountsOf hg h
  rw [Amounts.entries, mem_append, mem_append, or_assoc] at hentry
  rcases hentry with hcharge | hinj | hrefund
  · obtain ⟨n, hn, hidx, -⟩ := (hfits.mem_charges_iff hg).1 hcharge
    exact ⟨n, hn, hidx⟩
  · obtain ⟨n, hn, hidx, -⟩ := (hfits.mem_injected_iff hg).1 hinj
    exact ⟨n, hn, hidx⟩
  · rcases (passed_of_amountsOf h).refunds with hnone | hall
    · rw [hnone] at hrefund
      cases hrefund
    · rw [hall] at hrefund
      rcases mem_foldl_passOn hrefund with hnone | ⟨i, n, hn, hidx⟩
      · cases hnone
      · rw [hfits.view] at hn
        exact ⟨n, mem_order_of_getElem? hn, hidx⟩

/-! ## The amounts of a function alone -/

lemma PricedBy.priceOf_eq_ok (h : PricedBy s flows table metering costs)
    (hflow : ∀ g ∈ flows, g.Explored s) (hg : g.Explored s) {n : Node} (hn : n ∈ g.order)
    {price : List Int} (hval : valueAt costs n.index = some price) :
    ∃ f, n.libfunc = some f ∧ priceOf table metering n f = .ok price := by
  obtain ⟨g', hg', n', hn', hidx, f, hf, hprice⟩ := h.price _ _ hval
  obtain ⟨hstmt, hlibfunc, hedges⟩ := (hflow g' hg').agree hg hn' hn hidx
  refine ⟨f, hlibfunc ▸ hf, ?_⟩
  unfold priceOf at hprice ⊢
  rwa [hstmt, hedges] at hprice

lemma exists_priceFlow
    (h : ∀ n ∈ g.order, ∀ f, n.libfunc = some f → ∃ price, priceOf table metering n f = .ok price)
    (start : Array (Option (List Int))) : ∃ costs, priceFlow table metering start g = .ok costs := by
  show ∃ costs, g.order.foldlM (priceStep table metering) start = .ok costs
  generalize g.order = nodes at h
  induction nodes generalizing start with
  | nil => exact ⟨start, rfl⟩
  | cons n nodes ih =>
    have hstep : ∃ next, priceStep table metering start n = .ok next := by
      unfold priceStep
      split
      · next f hf _ =>
        obtain ⟨price, hprice⟩ := h n mem_cons_self f hf
        rw [hprice]
        exact ⟨_, rfl⟩
      · exact ⟨start, rfl⟩
    obtain ⟨next, hnext⟩ := hstep
    obtain ⟨costs, hcost⟩ := ih next fun m hm => h m (mem_cons_of_mem _ hm)
    exact ⟨costs, by rw [foldlM_cons, hnext]; exact hcost⟩

lemma exists_ownCosts
    (hflow : ∀ g ∈ flows, g.Explored s) (hpriced : PricedBy s flows table metering costs)
    (hall : ∀ g ∈ flows, ∀ n ∈ g.order, n.libfunc.isSome →
      (valueAt costs n.index).isSome) (hg : g ∈ flows) :
    ∃ own, priceFlow table metering (Array.replicate s.program.statements.size none) g = .ok own ∧
      ∀ n ∈ g.order, valueAt own n.index = valueAt costs n.index := by
  have hseen := hflow g hg
  have hprices : ∀ n ∈ g.order, ∀ f, n.libfunc = some f →
      ∃ price, priceOf table metering n f = .ok price := by
    intro n hn f hf
    obtain ⟨price, hval⟩ := Option.isSome_iff_exists.1 (hall g hg n hn (by rw [hf]; rfl))
    obtain ⟨f', hf', hprice⟩ := hpriced.priceOf_eq_ok hflow hseen hn hval
    cases hf.symm.trans hf'
    exact ⟨price, hprice⟩
  obtain ⟨own, hown⟩ := exists_priceFlow hprices (Array.replicate s.program.statements.size none)
  have halone : ∀ g' ∈ [g], g'.Explored s := fun g' hg' => mem_singleton.1 hg' ▸ hseen
  have hfold : [g].foldlM (priceFlow table metering)
      (Array.replicate s.program.statements.size none) = .ok own := by
    rw [foldlM_cons, hown]
    rfl
  obtain ⟨hownPriced, hownAll⟩ := pricedBy_of_foldlM halone pricedBy_replicate hfold
  refine ⟨own, hown, fun n hn => ?_⟩
  cases hlib : n.libfunc with
  | none =>
    -- a return has no price
    have hnone : ∀ {flows costs}, PricedBy s flows table metering costs →
        (∀ g ∈ flows, g.Explored s) → valueAt costs n.index = none := by
      intro flows costs hcost hflow
      rw [Option.eq_none_iff_forall_ne_some]
      intro price hval
      obtain ⟨f, hf, -⟩ := hcost.priceOf_eq_ok hflow hseen hn hval
      exact absurd (hlib.symm.trans hf) (by simp)
    rw [hnone hownPriced halone, hnone hpriced hflow]
  | some f =>
    have hsome : n.libfunc.isSome = true := by rw [hlib]; rfl
    obtain ⟨price, hval⟩ := Option.isSome_iff_exists.1 (hall g hg n hn hsome)
    obtain ⟨price', hval'⟩ :=
      Option.isSome_iff_exists.1 (hownAll g (mem_singleton_self g) n hn hsome)
    obtain ⟨f₁, hf₁, hprice⟩ := hpriced.priceOf_eq_ok hflow hseen hn hval
    obtain ⟨f₂, hf₂, hprice'⟩ := hownPriced.priceOf_eq_ok halone hseen hn hval'
    cases hf₁.symm.trans hf₂
    rw [hval, hval', Except.ok.inj (hprice.symm.trans hprice')]

lemma Analyses.amountsOf_unmetered {last : Analysis}
    (h : Analyses types opts false numbers a family last)
    (hx : x ∈ family) (hp : p.metering = false) :
    amountsOf types p (numbers.contains x.1.function.id.number) opts.dynamic x.1 = .ok x.2 := by
  obtain ⟨before, after, rfl⟩ := append_of_mem hx
  obtain ⟨between, -, hafter⟩ := h.split
  cases hafter with
  | cons hamts =>
    rw [← hamts]
    refine amountsOf_congr hp fun n hn => ?_
    funext b
    rw [Prices.branchCost, hp]
    rfl

lemma Analyses.ownAmounts_eq
    (h : Analyses s.types opts (usesGas s.types flows && !opts.disabled) (recursiveNumbers flows)
      start family a) (hstart : start.funcs = []) (hflow : ∀ g ∈ flows, g.Explored s)
    (hmem : ∀ x ∈ family, x.1 ∈ flows) (hdist : DistinctIds (family.map (·.1)))
    (hcalls : CalleesFirst (recursiveNumbers flows) family)
    (hcost : flows.foldlM (priceFlow opts.table (usesGas s.types flows && !opts.disabled))
      (Array.replicate s.program.statements.size none) = .ok start.costs)
    (hx : x ∈ family) : a.ownAmounts s opts flows x.1 = .ok x.2 := by
  obtain ⟨hpriced, hall⟩ := pricedBy_of_foldlM hflow pricedBy_replicate hcost
  obtain ⟨own, hown, hsame⟩ := exists_ownCosts hflow hpriced hall (hmem x hx)
  unfold ownAmounts
  dsimp only [bind, Except.bind]
  rw [hown]
  cases hmeter : usesGas s.types flows && !opts.disabled with
  | false =>
    rw [hmeter] at h
    exact h.amountsOf_unmetered hx rfl
  | true =>
    rw [hmeter] at h
    rw [← h.amountsOf_eq hstart (fun x hx => hflow x.1 (hmem x hx)) hdist hcalls hx]
    refine amountsOf_congr rfl fun n hn => ?_
    -- the own cost of a branch is read from the price of the statement
    have hread : own[n.index.toNat]?.getD none = a.costs[n.index.toNat]?.getD none := by
      have hpos := ((hflow x.1 (hmem x hx)).index_nonneg hn).1
      have hval := hsame n hn
      rw [← h.funcs.1] at hval
      unfold valueAt at hval
      rwa [if_neg (by omega), if_neg (by omega)] at hval
    unfold Prices.branchCost Prices.ownCost
    rw [hread]
    rfl

lemma Analyses.shareAt_eq (h : Analyses types opts metering numbers start family a)
    (hfresh : start.Fresh s.program.statements.size) (hseen : ∀ x ∈ family, x.1.Explored s)
    (hx : x ∈ family) (hagree : ∀ y ∈ family, (∃ n ∈ y.1.order, n.index = index) →
      y.2.shareAt index = x.2.shareAt index) : a.shareAt index = x.2.shareAt index := by
  -- the entries of a member are about statements that it reaches
  have hnode : ∀ y ∈ family, ∀ entry ∈ y.2.entries, ∃ n ∈ y.1.order, n.index = entry.1 := by
    intro y hy entry hentry
    obtain ⟨before, after, rfl⟩ := append_of_mem hy
    obtain ⟨between, -, hafter⟩ := h.split
    cases hafter with
    | cons hamts => exact exists_node_of_amountsOf (hseen _ hy) hamts hentry
  -- a part of what is kept, read as a field of the shares
  have hfield : ∀ (part : Flow × Amounts → List (Int × Nat)), (∀ y, part y ⊆ y.2.entries) →
      ∀ {β : Type} (read : Option Nat → β) (field : Share → β),
        (∀ y : Flow × Amounts, field (y.2.shareAt index) = read (lastFor (part y) index)) →
        read (valueAt (keep (Array.replicate s.program.statements.size none)
          (family.flatMap part)) index) = field (x.2.shareAt index) := by
    intro part hpart β read field hfield
    rw [valueAt_keep, valueAt_replicate, Option.or_none, hfield x]
    · refine read_lastFor_flatMap part index read hx fun y hy hsome => ?_
      obtain ⟨amount, hamt⟩ := Option.isSome_iff_exists.1 hsome
      have hentry := mem_reverse.1 (mem_of_lookup hamt)
      rw [← hfield y, ← hfield x, hagree y hy (hnode y hy _ (hpart y hentry))]
    · intro entry hentry
      obtain ⟨y, hy, hentry⟩ := mem_flatMap.1 hentry
      obtain ⟨n, hn, hidx⟩ := hnode y hy entry (hpart y hentry)
      rw [Array.size_replicate, ← hidx, ← (hseen y hy).size]
      exact (hseen y hy).index_nonneg hn
  have hcharges := hfield (·.2.charges) (fun y entry hentry => by simp [Amounts.entries, hentry])
    (·.getD 0) Share.charge fun _ => rfl
  have hinj := hfield (·.2.injected) (fun y entry hentry => by simp [Amounts.entries, hentry])
    id Share.injected fun _ => rfl
  have hrefunds := hfield (·.2.refunds) (fun y entry hentry => by simp [Amounts.entries, hentry])
    (·.getD 0) Share.refund fun _ => rfl
  obtain ⟨hkeptCharges, hkeptInjected, hkeptRefunds⟩ := h.kept
  rw [← hfresh.charges, ← hkeptCharges] at hcharges
  rw [← hfresh.injected, ← hkeptInjected] at hinj
  rw [← hfresh.refunds, ← hkeptRefunds] at hrefunds
  rw [shareAt, show a.chargeAt index = _ from hcharges,
    show a.injectedAt index = _ from hinj, show a.refundAt index = _ from hrefunds]

/-- Every function works out its share of each statement it reaches. All of them read their own at
a statement exactly when they have worked out the same. -/
theorem own_amounts_are_read_where_functions_agree {program : Program}
    (hs : Settled.ofProgram program = .ok s)
    (hflows : program.funcs.mapM (Flow.ofFunction s) = .ok flows)
    (ha : analyse s flows opts = .ok a) :
    (∀ g ∈ flows, ∀ n ∈ g.order, ∃ share, a.WorksOut s opts flows g n.index share) ∧
    ∀ index, (∀ g ∈ flows, ∀ share, a.WorksOut s opts flows g index share →
        a.shareAt index = share) ↔
      ∀ g ∈ flows, ∀ g' ∈ flows, ∀ share share', a.WorksOut s opts flows g index share →
        a.WorksOut s opts flows g' index share' → share = share' := by
  obtain ⟨hexplored, hdistinct⟩ := explored_of_mapM hs hflows
  obtain ⟨start, calls, order, hsteps⟩ := steps_of_analyse rfl ha
  obtain ⟨family, hrun, -, hsame, hids, hcallees⟩ := hsteps.exists_family hdistinct
  have hmem : ∀ x ∈ family, x.1 ∈ flows := fun x hx => (hsame _).1 (List.mem_map_of_mem hx)
  have hown : ∀ x ∈ family, a.ownAmounts s opts flows x.1 = .ok x.2 := fun x hx =>
    hrun.ownAmounts_eq hsteps.fresh.funcs hexplored hmem hids hcallees hsteps.costs hx
  have hall : ∀ g ∈ flows, ∃ x ∈ family, x.1 = g := fun g hg => List.mem_map.1 ((hsame g).2 hg)
  refine ⟨fun g hg n hn => ?_, fun index => ⟨fun hread g hg g' hg' share share' h h' => ?_,
    fun hagree g hg share hshare => ?_⟩⟩
  · obtain ⟨x, hx, rfl⟩ := hall g hg
    exact ⟨_, ⟨n, hn, rfl⟩, x.2, hown x hx, rfl⟩
  · rw [← hread g hg share h, ← hread g' hg' share' h']
  · obtain ⟨x, hx, rfl⟩ := hall g hg
    obtain ⟨hreaches, own, hxown, rfl⟩ := hshare
    cases (hown x hx).symm.trans hxown
    refine hrun.shareAt_eq hsteps.fresh (fun y hy => hexplored y.1 (hmem y hy))
      hx fun y hy hyreaches => ?_
    exact hagree y.1 (hmem y hy) x.1 hg _ _ ⟨hyreaches, y.2, hown y hy, rfl⟩
      ⟨hreaches, x.2, hown x hx, rfl⟩

/-! ## Two functions and a loop -/

/-- Two functions that go round one loop, which the second may enter elsewhere. -/
def ring (entry : Int) : Program where
  types := [{ id := ⟨0, ""⟩, generic := "GasBuiltin" }]
  libfuncs := [{ id := ⟨0, ""⟩, generic := "jump" }]
  statements := #[.invoke ⟨⟨0, ""⟩, [], [⟨.statement 1, []⟩]⟩,
    .invoke ⟨⟨0, ""⟩, [], [⟨.statement 0, []⟩]⟩, .invoke ⟨⟨0, ""⟩, [], [⟨.statement 0, []⟩]⟩]
  funcs := [
    { id := ⟨0, ""⟩, params := [⟨0, ⟨0, ""⟩⟩], paramTypes := [⟨0, ""⟩], retTypes := [⟨0, ""⟩],
      entry := 0 },
    { id := ⟨1, ""⟩, params := [⟨0, ⟨0, ""⟩⟩], paramTypes := [⟨0, ""⟩], retTypes := [⟨0, ""⟩],
      entry := entry }]

def ringOptions : Options where
  table := { entries := [("jump", [.gas 100])] }

def sharesOf (program : Program) (opts : Options) (index : Int) : Option (Share × List Share) :=
  match Settled.ofProgram program with
  | .error _ => none
  | .ok s =>
    match program.funcs.mapM (Flow.ofFunction s) with
    | .error _ => none
    | .ok flows =>
      match analyse s flows opts with
      | .error _ => none
      | .ok a => some (a.shareAt index, flows.filterMap fun g =>
          if g.order.any fun n => n.index == index then
            (a.ownAmounts s opts flows g).toOption.map (·.shareAt index)
          else none)

lemma exists_of_sharesOf {program : Program} {share : Share}
    {shares : List Share} (h : sharesOf program opts index = some (share, shares)) :
    ∃ s flows a, Settled.ofProgram program = .ok s ∧
      program.funcs.mapM (Flow.ofFunction s) = .ok flows ∧ analyse s flows opts = .ok a ∧
      a.shareAt index = share ∧
      ∀ own, own ∈ shares ↔ ∃ g ∈ flows, a.WorksOut s opts flows g index own := by
  unfold sharesOf at h
  split at h
  · cases h
  next s hs =>
  split at h
  · cases h
  next flows hflow =>
  split at h
  · cases h
  next a ha =>
  obtain ⟨hshare, rfl⟩ := Prod.mk.inj (Option.some.inj h)
  refine ⟨s, flows, a, hs, hflow, ha, hshare, fun own => ?_⟩
  rw [mem_filterMap]
  refine exists_congr fun g => and_congr_right fun _ => ?_
  unfold Analysis.WorksOut
  cases hown : a.ownAmounts s opts flows g with
  | error cause | ok amounts => simp [Except.toOption]

/-- Where two functions enter a loop at different statements, the first reads what the second has put
in before a statement. -/
theorem crossing_functions_disturb_each_other : ∃ s flows a, Settled.ofProgram (ring 1) = .ok s ∧
    (ring 1).funcs.mapM (Flow.ofFunction s) = .ok flows ∧ analyse s flows ringOptions = .ok a ∧
    ∃ g ∈ flows, a.WorksOut s ringOptions flows g 1 ⟨0, none, 0⟩ ∧ a.shareAt 1 = ⟨0, some 200, 0⟩ := by
  obtain ⟨s, flows, a, hs, hflows, ha, hread, hshares⟩ := exists_of_sharesOf
    (show sharesOf (ring 1) ringOptions 1 =
      some (⟨0, some 200, 0⟩, [⟨0, none, 0⟩, ⟨0, some 200, 0⟩]) by decide +kernel)
  obtain ⟨g, hg, hworks⟩ := (hshares ⟨0, none, 0⟩).1 (by simp)
  exact ⟨s, flows, a, hs, hflows, ha, g, hg, hworks, hread⟩

theorem joining_functions_read_their_own : ∃ s flows a, Settled.ofProgram (ring 2) = .ok s ∧
    (ring 2).funcs.mapM (Flow.ofFunction s) = .ok flows ∧ analyse s flows ringOptions = .ok a ∧
    (∀ g ∈ flows, ∀ n ∈ g.order, ∃ share, a.WorksOut s ringOptions flows g n.index share) ∧
    (∃ g ∈ flows, a.WorksOut s ringOptions flows g 0 ⟨0, some 200, 0⟩) ∧
    ∀ g ∈ flows, ∀ share, a.WorksOut s ringOptions flows g 0 share → a.shareAt 0 = share := by
  obtain ⟨s, flows, a, hs, hflows, ha, -, hshares⟩ := exists_of_sharesOf
    (show sharesOf (ring 2) ringOptions 0 =
      some (⟨0, some 200, 0⟩, [⟨0, some 200, 0⟩, ⟨0, some 200, 0⟩]) by decide +kernel)
  obtain ⟨hworks, hreads⟩ := own_amounts_are_read_where_functions_agree hs hflows ha
  refine ⟨s, flows, a, hs, hflows, ha, hworks, (hshares _).1 (by simp),
    (hreads 0).2 fun g hg g' hg' share share' h h' => ?_⟩
  have hone : ∀ own, own ∈ [(⟨0, some 200, 0⟩ : Share), ⟨0, some 200, 0⟩] → own = ⟨0, some 200, 0⟩ := by
    simp
  rw [hone share ((hshares _).2 ⟨g, hg, h⟩), hone share' ((hshares _).2 ⟨g', hg', h'⟩)]

end Sierra.Gas
