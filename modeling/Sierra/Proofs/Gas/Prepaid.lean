import Sierra.Proofs.Gas.Analysis

/-!
# Gas is prepaid

What has been paid covers what is spent, the balance of the running function and what is set aside
for its callers (`Solvent`); a call takes what the function called needs from the caller.
-/

namespace Sierra.Gas

open Option

open Flow (Node Edge Explored)

variable {amounts : Amounts} {x : Flow × Amounts} {callee id : FunctionId}
  {callers : List (Flow × Int)} {g : Flow} {n : Node} {point : Point} {balance : Int} {e : Edge}
  {b : Nat}

/-! ## Runs through several functions -/

/-- What a check put in before a statement takes. -/
def Tariff.extra (t : Tariff) (index : Int) : Nat := (t.injected index).getD 0

/-- The statement reached, where callers go on, what has been paid and spent. -/
structure Point where
  flow : Flow
  node : Node
  callers : List (Flow × Int) := []
  paid : Int
  spent : Int := 0

/-- The runs that start with a function. The cost of a call is spent when the call is made. -/
inductive Reaches (flows : List Flow) (t : Tariff) (table : Table) (first : Flow) (entry : Int) :
    Point → Prop
  | enter {n : Node} (hn : first.node? first.function.entry = some n) :
      Reaches flows t table first entry
        { flow := first, node := n, paid := entry + t.extra n.index }
  | branch {g : Flow} {n m : Node} {callers : List (Flow × Int)} {paid spent : Int} {b : Nat}
      {e : Edge} (hbefore : Reaches flows t table first entry ⟨g, n, callers, paid, spent⟩)
      (hcallee : calleeOf n = none) (he : n.edges[b]? = some e)
      (hm : g.node? e.target = some m) :
      Reaches flows t table first entry
        ⟨g, m, callers,
          paid + (if dependsOn n b then 0 else t.charge n.index) + t.extra m.index,
          spent + table.costOf n b⟩
  | call {g h : Flow} {n m : Node} {callers : List (Flow × Int)} {paid spent : Int} {b : Nat}
      {e : Edge} {callee : FunctionId}
      (hbefore : Reaches flows t table first entry ⟨g, n, callers, paid, spent⟩)
      (hcallee : calleeOf n = some callee) (he : n.edges[b]? = some e) (hh : h ∈ flows)
      (hid : h.function.id.number = callee.number)
      (hm : h.node? h.function.entry = some m) :
      Reaches flows t table first entry
        ⟨h, m, (g, e.target) :: callers, paid + t.extra m.index, spent + table.costOf n b⟩
  | back {g caller : Flow} {n m : Node} {target : Int} {callers : List (Flow × Int)}
      {paid spent : Int}
      (hbefore : Reaches flows t table first entry
        ⟨g, n, (caller, target) :: callers, paid, spent⟩)
      (hreturn : n.isReturn = true) (hm : caller.node? target = some m) :
      Reaches flows t table first entry
        ⟨caller, m, callers, paid + t.extra m.index, spent⟩

section

variable {s : Settled} {p : Prices} {t : Tariff} {flows : List Flow}
  {family : List (Flow × Amounts)}

/-- What is due where each suspended caller goes on. -/
inductive SetAside (flows : List Flow) (family : List (Flow × Amounts)) :
    List (Flow × Int) → Int → Prop
  | nil : SetAside flows family [] 0
  | cons {g : Flow} {target due rest : Int} {callers : List (Flow × Int)} (hg : g ∈ flows)
      (hdue : CoversDue family target due) (hrest : SetAside flows family callers rest) :
      SetAside flows family ((g, target) :: callers) (due + rest)

/-- What has been paid and not spent covers the running function and its callers. -/
def Solvent (flows : List Flow) (family : List (Flow × Amounts)) (point : Point) : Prop :=
  point.flow ∈ flows ∧ point.node ∈ point.flow.order ∧
    ∃ balance aside, Covered family point.node.index balance ∧
      SetAside flows family point.callers aside ∧ point.spent + balance + aside ≤ point.paid

lemma Tariff.arrive_le {index : Int} (h : 0 ≤ balance) :
    t.arrive index balance ≤ balance + t.extra index := by
  unfold Tariff.arrive Tariff.extra
  cases t.injected index with
  | none => simp
  | some amount =>
    show (amount : Int) ≤ balance + amount
    omega

lemma isCheckpoint_of_calleeOf (h : calleeOf n = some callee) : isCheckpoint n = false := by
  unfold calleeOf at h
  unfold isCheckpoint
  cases hlib : n.libfunc with
  | none => rfl
  | some f => cases hrole : f.role <;> simp_all [Role.callee?, Role.isCheckpoint]

lemma cost_of_calleeOf (h : calleeOf n = some callee) (p : Prices) (b : Nat) :
    dependsOn n b ∧ p.cost n b = p.ownCost n b + p.entryCost callee := by
  rw [dependsOn, isCheckpoint_of_calleeOf h, Prices.cost, h]
  exact ⟨rfl, rfl⟩

variable (hfamily : ∀ x ∈ family, Priced s p x.1 x.2)

include hfamily

lemma CoversDue.nonneg {index : Int} (h : CoversDue family index balance) : 0 ≤ balance := by
  obtain ⟨x, hx, n, hn, rfl, hdue⟩ := h
  have hprice := hfamily x hx
  have hpos := hprice.fits.dueFor_nonneg hprice.explored hn
  omega

lemma Covered.nonneg {index : Int} (h : Covered family index balance) : 0 ≤ balance := by
  obtain ⟨x, hx, n, hn, rfl, hneed⟩ := h
  have hprice := hfamily x hx
  have hpos := hprice.fits.needAt_nonneg hprice.explored hn
  omega

lemma SetAside.nonneg {aside : Int} (h : SetAside flows family callers aside) : 0 ≤ aside := by
  induction h with
  | nil => exact le_refl 0
  | cons _ hdue _ ih =>
    have hpos := hdue.nonneg hfamily
    omega

lemma solvent_of_coversDue (ht : t.Backed family) (hflows : ∀ g ∈ flows, g.Explored s)
    (hg : g ∈ flows) {target : Int} {m : Node} (hm : g.node? target = some m)
    {aside paid spent : Int}
    (hdue : CoversDue family target balance) (haside : SetAside flows family callers aside)
    (hle : spent + balance + aside + t.extra m.index ≤ paid) :
    Solvent flows family ⟨g, m, callers, paid, spent⟩ := by
  have hidx := ((hflows g hg).visited_of_node? hm).2
  have harrive : t.arrive m.index balance ≤ balance + t.extra m.index :=
    Tariff.arrive_le (hdue.nonneg hfamily)
  refine ⟨hg, Flow.mem_order_of_node? hm, t.arrive m.index balance, aside,
    hidx ▸ hdue.arrive ht, haside, ?_⟩
  dsimp only
  omega

lemma Reaches.solvent {table : Table} {first : Flow} {entry : Int} (ht : t.Backed family)
    (hflows : ∀ g ∈ flows, g.Explored s)
    (hown : ∀ g ∈ flows, ∀ n ∈ g.order, ∀ b e, n.edges[b]? = some e →
      p.ownCost n b = table.costOf n b)
    (hentry : ∀ g ∈ flows, ∀ id : FunctionId, g.function.id.number = id.number →
      CoversDue family g.function.entry (p.entryCost id))
    (hfirst : first ∈ flows) (hstart : CoversDue family first.function.entry entry)
    (h : Reaches flows t table first entry point) : Solvent flows family point := by
  induction h with
  | enter hn => exact solvent_of_coversDue hfamily ht hflows hfirst hn hstart .nil (by omega)
  | @branch g n m callers paid spent b e _ hcall he hm ih =>
    obtain ⟨hg, hn, balance, aside, hcover, haside, hle⟩ := ih
    dsimp only at hg hn hcover haside hle
    obtain ⟨hpays, hdue⟩ := hcover.leave hfamily ht (hflows g hg) hn he
    have hcost : p.cost n b = table.costOf n b := by
      rw [Prices.cost, hcall, hown g hg n hn b e he, elim_none, add_zero]
    refine solvent_of_coversDue hfamily ht hflows hg hm hdue haside ?_
    unfold Tariff.leave
    split <;> omega
  | @call g h n m callers paid spent b e callee _ hcall he hh hid hm ih =>
    obtain ⟨hg, hn, balance, aside, hcover, haside, hle⟩ := ih
    dsimp only at hg hn hcover haside hle
    obtain ⟨hpays, hdue⟩ := hcover.leave hfamily ht (hflows g hg) hn he
    obtain ⟨hdep, hcost⟩ := cost_of_calleeOf hcall p b
    rw [hown g hg n hn b e he] at hcost
    rw [Tariff.leave, if_pos hdep] at hdue
    -- the caller sets aside what it has left; the function called gets its entry cost
    exact solvent_of_coversDue hfamily ht hflows hh hm (hentry h hh callee hid)
      (.cons hg hdue haside) (by omega)
  | @back g caller n m target callers paid spent _ _ hm ih =>
    obtain ⟨-, -, balance, aside, hcover, haside, hle⟩ := ih
    dsimp only at hcover haside hle
    have hpos := hcover.nonneg hfamily
    cases haside with
    | cons hg hdue hrest => exact solvent_of_coversDue hfamily ht hflows hg hm hdue hrest (by omega)

lemma Solvent.spent_le (h : Solvent flows family point) : point.spent ≤ point.paid := by
  obtain ⟨-, -, balance, aside, hcover, haside, hle⟩ := h
  have hbalance := hcover.nonneg hfamily
  have haside' := haside.nonneg hfamily
  omega

end

/-! ## Ways through one function -/

section

variable {s : Settled} {p : Prices} {t : Tariff} {family : List (Flow × Amounts)} {g : Flow}
  {n : Node} {start balance : Int}

lemma Balance.pays (hfamily : ∀ x ∈ family, Priced s p x.1 x.2) (ht : t.Backed family)
    (hg : g.Explored s) (hstart : CoversDue family g.function.entry start)
    (h : Balance t p g start n balance) :
    0 ≤ balance ∧ ∀ b e, n.edges[b]? = some e → 0 ≤ balance - p.cost n b := by
  obtain ⟨hn, hcover⟩ := h.covered hfamily ht hg hstart
  refine ⟨hcover.nonneg hfamily, fun b e he => ?_⟩
  have hpays := (hcover.leave hfamily ht hg hn he).1
  omega

lemma Balance.needAt_le (hprice : Priced s p g amounts)
    (hstart : amounts.dueFor g.function.entry ≤ start)
    (h : Balance amounts.tariff p g start n balance) :
    amounts.needAt n.index ≤ balance ∧
      ∀ b e, n.edges[b]? = some e → 0 ≤ balance - p.cost n b := by
  -- a function alone backs its own amounts
  have hown : ∀ x ∈ [(g, amounts)], Priced s p x.1 x.2 := by
    intro x hx
    obtain rfl := List.mem_singleton.1 hx
    exact hprice
  have hbacked := hprice.fits.backed hprice.explored
  obtain ⟨m, hm, -⟩ := hprice.explored.entry
  have hdue : CoversDue [(g, amounts)] g.function.entry start :=
    ⟨(g, amounts), List.mem_singleton_self _, m, Flow.mem_order_of_node? hm,
      (hprice.explored.visited_of_node? hm).2, hstart⟩
  refine ⟨?_, (h.pays hown hbacked hprice.explored hdue).2⟩
  obtain ⟨-, x, hx, -, -, -, hneed⟩ := h.covered hown hbacked hprice.explored hdue
  obtain rfl := List.mem_singleton.1 hx
  exact hneed

end

/-! ## Analysed programs -/

variable {program : Program} {s : Settled} {opts : Options} {flows : List Flow} {a : Analysis}

/-- The weighted costs of the table, and every cost with what is due after it, are within machine
integers. -/
structure Exact (s : Settled) (opts : Options) (flows : List Flow) (a : Analysis) : Prop where
  table : opts.table.Exact
  sums : ∀ g ∈ flows, ∀ amounts, a.amountsOf s opts flows g = .ok amounts → ∀ n ∈ g.order,
    ∀ (b : Nat) (e : Edge), n.edges[b]? = some e →
      a.prices.cost n b + amounts.dueFor e.target < (pow2 63 : Nat)

lemma exact_iff : Exact s opts flows a ↔
    opts.table.Exact ∧ ∀ g ∈ flows, ∀ amounts ∈ (a.amountsOf s opts flows g).toOption,
      ∀ n ∈ g.order, ∀ x ∈ n.edges.zipIdx,
        a.prices.cost n x.2 + amounts.dueFor x.1.target < (pow2 63 : Nat) := by
  have hoption : ∀ g amounts, amounts ∈ (a.amountsOf s opts flows g).toOption ↔
      a.amountsOf s opts flows g = .ok amounts := by
    intro g amounts
    cases a.amountsOf s opts flows g <;> simp [Except.toOption]
  constructor
  · intro h
    refine ⟨h.table, fun g hg amounts hamts n hn x hx => ?_⟩
    exact h.sums g hg amounts ((hoption g amounts).1 hamts) n hn x.2 x.1
      (List.mk_mem_zipIdx_iff_getElem?.1 hx)
  · rintro ⟨htable, hsums⟩
    refine ⟨htable, fun g hg amounts hamts n hn b e he => ?_⟩
    exact hsums g hg amounts ((hoption g amounts).2 hamts) n hn (e, b)
      (List.mk_mem_zipIdx_iff_getElem?.2 he)

instance (t : Table) : Decidable t.Exact :=
  inferInstanceAs (Decidable (∀ entry ∈ t.entries, ∀ c ∈ entry.2,
    c.weighted t.weights < (pow2 63 : Nat)))

instance : Decidable (Exact s opts flows a) := decidable_of_iff _ exact_iff.symm

section

variable {family : List (Flow × Amounts)} (h : Analysed s opts flows a family)
  (hflows : ∀ g ∈ flows, g.Explored s)

include h hflows

lemma Analysed.fits (hx : x ∈ family) : x.2.Fits a.prices x.1 :=
  (fits_of_amountsOf (hflows x.1 (h.mem x hx)) (h.amounts x hx)).1

lemma Analysed.ownCost (hexact : opts.table.Exact) (hg : g ∈ flows)
    (hn : n ∈ g.order) (he : n.edges[b]? = some e) :
    a.prices.ownCost n b = opts.table.costOf n b ∧ 0 ≤ opts.table.costOf n b :=
  ownCost_eq hflows h.priced h.pricedAll h.fault hexact hg hn he

lemma Analysed.entry_eq (hx : x ∈ family) :
    x.2.entry = x.2.dueFor x.1.function.entry ∧ 0 ≤ x.2.entry ∧
      CoversDue family x.1.function.entry x.2.entry := by
  have hg := hflows x.1 (h.mem x hx)
  have hfits := h.fits hflows hx
  obtain ⟨n, hn, -⟩ := hg.entry
  have hidx := (hg.visited_of_node? hn).2
  have hmem := Flow.mem_order_of_node? hn
  have hdue : x.2.entry = x.2.dueFor x.1.function.entry := by
    rw [Amounts.entry, Amounts.dueFor, View.entry, hfits.view, View.ofFlow]
  refine ⟨hdue, ?_, x, hx, n, hmem, hidx, le_of_eq hdue.symm⟩
  rw [hdue, ← hidx]
  exact hfits.dueFor_nonneg hg hmem

omit hflows in
lemma Analysed.entryCost (hx : x ∈ family)
    (hid : x.1.function.id.number = id.number) : a.prices.entryCost id = x.2.entry := by
  obtain ⟨f, hf, hentry⟩ := map_eq_some_iff.1 (h.func? x hx id hid)
  show (a.func? id).elim 0 (·.entry) = x.2.entry
  rw [hf, elim_some, hentry]

lemma Analysed.entryCost_nonneg (id : FunctionId) : 0 ≤ a.prices.entryCost id := by
  show 0 ≤ (a.func? id).elim 0 (·.entry)
  cases hf : a.func? id with
  | none => exact le_refl 0
  | some f =>
    obtain ⟨x, hx, -, hentry⟩ := h.exists_of_func? id f hf
    rw [elim_some, hentry]
    exact (h.entry_eq hflows hx).2.1

lemma Analysed.cost_nonneg (hexact : opts.table.Exact) (hg : g ∈ flows) (hn : n ∈ g.order)
    (he : n.edges[b]? = some e) : 0 ≤ a.prices.cost n b := by
  obtain ⟨hown, hpos⟩ := h.ownCost hflows hexact hg hn he
  rw [Prices.cost, hown]
  cases calleeOf n with
  | none => simpa using hpos
  | some callee =>
    have hentry := h.entryCost_nonneg hflows callee
    rw [elim_some]
    omega

lemma Analysed.coversDue_entry (hg : g ∈ flows) (hid : g.function.id.number = id.number) :
    CoversDue family g.function.entry (a.prices.entryCost id) := by
  obtain ⟨amounts, hx⟩ := h.all g hg
  rw [h.entryCost hx hid]
  exact (h.entry_eq hflows hx).2.2

lemma Analysed.requiredGas_eq (hx : (g, amounts) ∈ family) :
    (a.requiredGas g.function.id : Int) = amounts.entry := by
  obtain ⟨f, hf, hentry⟩ := map_eq_some_iff.1 (h.func? _ hx _ rfl)
  rw [Analysis.requiredGas, hf, elim_some, hentry]
  exact Int.toNat_of_nonneg (h.entry_eq hflows hx).2.1

lemma Analysed.backed : a.tariff.Backed family := h.recorded.backed fun x hx =>
  ⟨h.fits hflows hx, hflows x.1 (h.mem x hx)⟩

lemma Analysed.priced_of_exact (hexact : Exact s opts flows a) :
    ∀ x ∈ family, Priced s a.prices x.1 x.2 := by
  intro x hx
  have hg := hflows x.1 (h.mem x hx)
  have hfits := h.fits hflows hx
  refine ⟨hg, hfits, fun n hn b e he => ?_⟩
  exact hfits.covers hg rfl hn he (h.cost_nonneg hflows hexact.table (h.mem x hx) hn he)
    (hexact.sums x.1 (h.mem x hx) x.2 (h.amounts x hx) n hn b e he)

end

/-- Along every way through a function the balance covers what each statement needs and no branch
makes it negative, also at the amounts kept for the whole program. Over every run, what was paid at
the entry, by checkpoints and by checks covers the costs that the table gives for the branches
taken. -/
theorem gas_is_prepaid (hs : Settled.ofProgram program = .ok s)
    (hflows : program.funcs.mapM (Flow.ofFunction s) = .ok flows)
    (hmetering : (usesGas s.types flows && !opts.disabled) = true)
    (ha : analyse s flows opts = .ok a) (hexact : Exact s opts flows a) :
    (∀ g ∈ flows, ∃ amounts, a.amountsOf s opts flows g = .ok amounts ∧
      (a.requiredGas g.function.id : Int) = amounts.entry ∧
      ∀ n balance, Balance amounts.tariff a.prices g amounts.entry n balance →
        amounts.needAt n.index ≤ balance ∧
        ∀ (b : Nat) (e : Edge), n.edges[b]? = some e → 0 ≤ balance - a.prices.cost n b) ∧
    (∀ g ∈ flows, ∀ n balance,
      Balance a.tariff a.prices g (a.requiredGas g.function.id) n balance →
        0 ≤ balance ∧
        ∀ (b : Nat) (e : Edge), n.edges[b]? = some e → 0 ≤ balance - a.prices.cost n b) ∧
    ∀ g ∈ flows, ∀ point,
      Reaches flows a.tariff opts.table g (a.requiredGas g.function.id) point →
        point.spent ≤ point.paid := by
  obtain ⟨hexplored, hdistinct⟩ := explored_of_mapM hs hflows
  obtain ⟨family, h⟩ := analysed_of_analyse hexplored hdistinct hmetering ha
  have hfamily := h.priced_of_exact hexplored hexact
  have hbacked := h.backed hexplored
  have hstart : ∀ g ∈ flows, CoversDue family g.function.entry (a.requiredGas g.function.id) := by
    intro g hg
    obtain ⟨amounts, hx⟩ := h.all g hg
    rw [h.requiredGas_eq hexplored hx]
    exact (h.entry_eq hexplored hx).2.2
  refine ⟨fun g hg => ?_, fun g hg n balance hbalance =>
    hbalance.pays hfamily hbacked (hexplored g hg) (hstart g hg), fun g hg point hpoint => ?_⟩
  · obtain ⟨amounts, hx⟩ := h.all g hg
    exact ⟨amounts, h.amounts (g, amounts) hx, h.requiredGas_eq hexplored hx, fun n balance hbalance =>
      hbalance.needAt_le (hfamily _ hx) (Int.le_of_eq (h.entry_eq hexplored hx).1.symm)⟩
  · exact (hpoint.solvent hfamily hbacked hexplored
      (fun g hg n hn b e he => (h.ownCost hexplored hexact.table hg hn he).1)
      (fun g hg id hid => h.coversDue_entry hexplored hg hid) hg (hstart g hg)).spent_le hfamily

/-! ## A program that refills its balance -/

/-- A loop withdraws gas for each round and calls a function. Another loop gets a check. -/
def refill : Program where
  types := [{ id := ⟨0, ""⟩, generic := "RangeCheck" }, { id := ⟨1, ""⟩, generic := "GasBuiltin" }]
  libfuncs := [{ id := ⟨0, ""⟩, generic := "withdraw_gas" },
    { id := ⟨1, ""⟩, generic := "function_call", args := [.userFunc ⟨1, ""⟩] },
    { id := ⟨2, ""⟩, generic := "jump" }, { id := ⟨3, ""⟩, generic := "redeposit_gas" }]
  statements := #[
    .invoke ⟨⟨0, ""⟩, [0, 1], [⟨.next, [0, 1]⟩, ⟨.statement 3, [0, 1]⟩]⟩,
    .invoke ⟨⟨1, ""⟩, [1], [⟨.next, [1]⟩]⟩,
    .invoke ⟨⟨2, ""⟩, [], [⟨.statement 0, []⟩]⟩,
    .ret [0, 1],
    .invoke ⟨⟨3, ""⟩, [1], [⟨.next, [1]⟩]⟩,
    .ret [1],
    .invoke ⟨⟨2, ""⟩, [], [⟨.statement 6, []⟩]⟩]
  funcs := [
    { id := ⟨0, ""⟩, params := [⟨0, ⟨0, ""⟩⟩, ⟨1, ⟨1, ""⟩⟩], paramTypes := [⟨0, ""⟩, ⟨1, ""⟩],
      retTypes := [⟨0, ""⟩, ⟨1, ""⟩], entry := 0 },
    { id := ⟨1, ""⟩, params := [⟨1, ⟨1, ""⟩⟩], paramTypes := [⟨1, ""⟩], retTypes := [⟨1, ""⟩],
      entry := 4 },
    { id := ⟨2, ""⟩, params := [⟨1, ⟨1, ""⟩⟩], paramTypes := [⟨1, ""⟩], retTypes := [⟨1, ""⟩],
      entry := 6 }]

def refillOptions : Options where
  table :=
    { entries := [("function_call", [.gas 300]), ("jump", [.gas 100]),
        ("redeposit_gas", [.gas 20]), ("withdraw_gas", [.gas 470, .gas 570])] }

def isMetered (program : Program) (opts : Options)
    (test : Settled → List Flow → Analysis → Bool) : Bool :=
  match Settled.ofProgram program with
  | .error _ => false
  | .ok s =>
    match program.funcs.mapM (Flow.ofFunction s) with
    | .error _ => false
    | .ok flows =>
      match analyse s flows opts with
      | .error _ => false
      | .ok a => (usesGas s.types flows && !opts.disabled) && decide (Exact s opts flows a) &&
          test s flows a

lemma exists_of_isMetered
    {test : Settled → List Flow → Analysis → Bool} (h : isMetered program opts test) : ∃ s flows a,
      Settled.ofProgram program = .ok s ∧ program.funcs.mapM (Flow.ofFunction s) = .ok flows ∧
      (usesGas s.types flows && !opts.disabled) ∧ analyse s flows opts = .ok a ∧
      Exact s opts flows a ∧ test s flows a := by
  unfold isMetered at h
  split at h
  · cases h
  next s hs =>
  split at h
  · cases h
  · next flows hflows =>
    split at h
    · cases h
    · next a ha =>
      rw [Bool.and_eq_true, Bool.and_eq_true, decide_eq_true_eq] at h
      exact ⟨s, flows, a, hs, hflows, h.1.1, ha, h.1.2, h.2⟩

theorem refill_is_prepaid : ∃ s flows a,
    Settled.ofProgram refill = .ok s ∧ refill.funcs.mapM (Flow.ofFunction s) = .ok flows ∧
    (usesGas s.types flows && !refillOptions.disabled) = true ∧
    analyse s flows refillOptions = .ok a ∧ Exact s refillOptions flows a ∧
    (∀ g ∈ flows, ∃ amounts, a.amountsOf s refillOptions flows g = .ok amounts ∧
      ∀ n balance, Balance amounts.tariff a.prices g amounts.entry n balance →
        amounts.needAt n.index ≤ balance) ∧
    ∀ g ∈ flows, ∀ point,
      Reaches flows a.tariff refillOptions.table g (a.requiredGas g.function.id) point →
        point.spent ≤ point.paid := by
  obtain ⟨s, flows, a, hs, hflows, hmetering, ha, hexact, -⟩ :=
    exists_of_isMetered (show isMetered refill refillOptions fun _ _ _ => true by decide +kernel)
  obtain ⟨hways, -, hruns⟩ := gas_is_prepaid hs hflows hmetering ha hexact
  refine ⟨s, flows, a, hs, hflows, hmetering, ha, hexact, fun g hg => ?_, hruns⟩
  obtain ⟨amounts, hamounts, -, hbalance⟩ := hways g hg
  exact ⟨amounts, hamounts, fun n balance h => (hbalance n balance h).1⟩

end Sierra.Gas
