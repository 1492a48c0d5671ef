import Sierra.Proofs.Gas.Calls
import Sierra.Proofs.Gas.Cycles
import Sierra.Proofs.Gas.Record

/-!
# The analysis of a program

Each function is looked at with the prices known so far (`Analyses`), which are those of the whole
analysis (`Analyses.amountsOf_eq`): what it calls was looked at before, or pays at its own entry.
-/

namespace Sierra.Gas

open List Analysis Option Except Amounts View
open Flow (Node Edge Explored)

variable {a last start : Analysis} {dynamic metering : Bool} {g : Flow} {x : Flow × Amounts}
  {family : List (Flow × Amounts)} {order : List Nat} {p : Prices} {s : Settled} {types : Types}
  {id : FunctionId} {calls : Array (List Nat)} {f : FunctionGas}

/-! ## Prices that agree -/

lemma amountsOf_congr {p' : Prices} {isRecursive : Bool}
    (hmeter : p.metering = p'.metering) (h : ∀ n ∈ g.order, p.branchCost n = p'.branchCost n) :
    amountsOf types p isRecursive dynamic g = amountsOf types p' isRecursive dynamic g := by
  have hneeds : ∀ cut order, needs p (ofFlow g) cut order = needs p' (ofFlow g) cut order := by
    intro cut order
    have hstep : needStep p (ofFlow g) cut = needStep p' (ofFlow g) cut := by
      funext need i
      unfold needStep
      cases hi : (ofFlow g).nodes[i]? with
      | none => rfl
      | some n => simp only [needOf, h n (mem_order_of_getElem? hi)]
    show order.foldl (needStep p (ofFlow g) cut) _ = order.foldl (needStep p' (ofFlow g) cut) _
    rw [hstep]
  have hrefunds : ∀ cut need order,
      refunds p (ofFlow g) cut need order = refunds p' (ofFlow g) cut need order := by
    intro cut need order
    have hpass : passOn p (ofFlow g) cut need = passOn p' (ofFlow g) cut need := by
      funext state i
      unfold passOn
      cases hi : (ofFlow g).nodes[i]? with
      | none => rfl
      | some n => simp only [h n (mem_order_of_getElem? hi)]
    rw [refunds, refunds, hpass]
  unfold amountsOf
  simp only [hmeter, hneeds, hrefunds]

/-! ## The entry of a recursive function -/

lemma isCut_entry {a : Amounts} (hg : g.Explored s) (hmeter : p.metering)
    (h : amountsOf types p true dynamic g = .ok a) : isCut a.cut a.view.entry := by
  obtain ⟨hfits, hcut⟩ := fits_of_amountsOf hg h
  obtain ⟨m, hm⟩ := exists_getElem?_entry hg
  obtain ⟨hlt, -⟩ := Array.getElem?_eq_some_iff.1 hm
  rw [hcut, hfits.view, cutsOf, hmeter]
  simp only [Bool.and_self, if_true, isCut, Array.getElem?_modify]
  rw [Array.getElem?_eq_getElem (by rw [(loopHeads_spec _ _).1, Array.size_map]; exact hlt)]
  rfl

/-! ## The run of the analysis -/

section

variable {types : Types} {opts : Options} {metering : Bool} {numbers : List Nat}

def pricesAt (metering : Bool) (numbers : List Nat) (a : Analysis) : Prices where
  metering := metering
  costs := a.costs
  entryCost := fun f => if numbers.contains f.number then 0 else (a.func? f).elim 0 (·.entry)

/-- Functions are looked at one after another, each at the prices known so far. -/
inductive Analyses (types : Types) (opts : Options) (metering : Bool) (numbers : List Nat) :
    Analysis → List (Flow × Amounts) → Analysis → Prop
  | nil (a : Analysis) : Analyses types opts metering numbers a [] a
  | cons {a last : Analysis} {g : Flow} {amounts : Amounts} {rest : List (Flow × Amounts)}
      {f : FunctionGas}
      (hamounts : amountsOf types (pricesAt metering numbers a)
        (numbers.contains g.function.id.number) opts.dynamic g = .ok amounts)
      (hid : f.id = g.function.id) (hentry : f.entry = amounts.entry)
      (hrest : Analyses types opts metering numbers (a.record amounts f) rest last) :
      Analyses types opts metering numbers a ((g, amounts) :: rest) last

lemma analyseFunction_eq_ok {a' : Analysis}
    (h : analyseFunction types opts metering numbers a g = .ok a') :
    ∃ amounts f, amountsOf types (pricesAt metering numbers a)
        (numbers.contains g.function.id.number) opts.dynamic g = .ok amounts ∧
      f.id = g.function.id ∧ f.entry = amounts.entry ∧ a' = a.record amounts f := by
  obtain ⟨amounts, hamts, h⟩ := except_bind_eq_ok.1 h
  obtain ⟨ap, hap, h⟩ := except_bind_eq_ok.1 h
  exact ⟨amounts, _, hamts, rfl, rfl, (ok.inj h).symm⟩

lemma analyses_of_foldlM {gs : List Flow}
    (h : gs.foldlM (analyseFunction types opts metering numbers) a = .ok last) :
    ∃ family, family.map (·.1) = gs ∧ Analyses types opts metering numbers a family last := by
  induction gs generalizing a with
  | nil =>
    obtain rfl := ok.inj h
    exact ⟨[], rfl, .nil a⟩
  | cons g gs ih =>
    obtain ⟨next, hnext, hrest⟩ := foldlM_cons_ok h
    obtain ⟨amounts, f, hamts, hid, hentry, rfl⟩ := analyseFunction_eq_ok hnext
    obtain ⟨family, rfl, hfam⟩ := ih hrest
    exact ⟨(g, amounts) :: family, rfl, .cons hamts hid hentry hfam⟩

lemma Analyses.split {before after : List (Flow × Amounts)}
    (h : Analyses types opts metering numbers a (before ++ after) last) :
    ∃ between, Analyses types opts metering numbers a before between ∧
      Analyses types opts metering numbers between after last := by
  induction before generalizing a with
  | nil => exact ⟨a, .nil a, h⟩
  | cons x before ih =>
    cases h with
    | cons hamts hid hentry hrest =>
      obtain ⟨between, hpre, hafter⟩ := ih hrest
      exact ⟨between, .cons hamts hid hentry hpre, hafter⟩

lemma refunds_eq_nil {isRecursive : Bool} {a : Amounts}
    (h : amountsOf types p isRecursive false g = .ok a) : a.refunds = [] := by
  unfold amountsOf at h
  dsimp only at h
  split at h
  · cases h
  · split at h
    · cases h
    · simp only [pure, Except.pure, ok.injEq] at h
      subst h
      rfl

section

variable (h : Analyses types opts metering numbers a family last)

include h

lemma Analyses.funcs :
    last.costs = a.costs ∧ ∃ fs, last.funcs = a.funcs ++ fs ∧
      Forall₂ (fun x f => f.id = x.1.function.id ∧ f.entry = x.2.entry) family fs := by
  induction h with
  | nil a => exact ⟨rfl, [], (append_nil _).symm, .nil⟩
  | @cons a last g amounts rest f _ hid hentry _ ih =>
    obtain ⟨hcost, fs, hfuncs, hall⟩ := ih
    refine ⟨hcost, f :: fs, ?_, .cons ⟨hid, hentry⟩ hall⟩
    rw [hfuncs, record, append_assoc, singleton_append]

lemma Analyses.func?_of_func? (hf : a.func? id = some f) : last.func? id = some f := by
  obtain ⟨-, fs, hfuncs, -⟩ := h.funcs
  rw [func?] at hf ⊢
  rw [hfuncs, find?_append, hf, some_or]

lemma Analyses.func? (hstart : a.funcs = []) (hdist : DistinctIds (family.map (·.1)))
    (hx : x ∈ family) (hid : x.1.function.id.number = id.number) :
    (last.func? id).map (·.entry) = some x.2.entry := by
  obtain ⟨-, fs, hfuncs, hall⟩ := h.funcs
  rw [hstart, nil_append] at hfuncs
  rw [Analysis.func?, hfuncs]
  clear h hfuncs
  induction hall with
  | nil => cases hx
  | @cons y f family fs hf _ ih =>
    obtain ⟨hfresh, hdist⟩ := nodup_cons.1 hdist
    rw [find?_cons]
    rcases mem_cons.1 hx with rfl | hx
    · have hsame : f.id.same id = true := by simp [Ident.same, hf.1, hid]
      rw [hsame]
      exact congrArg some hf.2
    · have hother : f.id.same id = false := by
        rw [Ident.same, hf.1, beq_eq_false_iff_ne]
        intro heq
        exact hfresh (mem_map.2 ⟨x.1, mem_map_of_mem hx, hid.trans heq.symm⟩)
      rw [hother]
      exact ih hdist hx

lemma Analyses.exists_of_func? (hstart : a.funcs = []) (hf : last.func? id = some f) :
    ∃ x ∈ family, x.1.function.id.number = id.number ∧ f.entry = x.2.entry := by
  obtain ⟨-, fs, hfuncs, hall⟩ := h.funcs
  rw [hstart] at hfuncs
  rw [Analysis.func?, hfuncs] at hf
  obtain ⟨x, hx, hid, hentry⟩ := (forall₂_mem hall).2 f (mem_of_find?_eq_some hf)
  have hsame := find?_some hf
  rw [Ident.same, beq_iff_eq, hid] at hsame
  exact ⟨x, hx, hsame, hentry⟩

lemma Analyses.kept : last.charges = keep a.charges (family.flatMap (·.2.charges)) ∧
      last.injected = keep a.injected (family.flatMap (·.2.injected)) ∧
      last.refunds = keep a.refunds (family.flatMap (·.2.refunds)) := by
  induction h with
  | nil a => exact ⟨rfl, rfl, rfl⟩
  | cons _ _ _ _ ih =>
    obtain ⟨hcharges, hinj, hrefunds⟩ := ih
    refine ⟨hcharges.trans ?_, hinj.trans ?_, hrefunds.trans ?_⟩ <;> exact (foldl_append).symm

lemma Analyses.refunds (hdyn : opts.dynamic = false) : last.refunds = a.refunds := by
  induction h with
  | nil => rfl
  | cons hamts _ _ _ ih =>
    rw [hdyn] at hamts
    rw [ih, record, refunds_eq_nil hamts]
    rfl

end

def Analysis.prices (a : Analysis) : Prices where
  metering := true
  costs := a.costs
  entryCost := fun f => (a.func? f).elim 0 (·.entry)

/-- What a function calls comes before it, unless it can call itself. -/
def CalleesFirst (numbers : List Nat) (family : List (Flow × Amounts)) : Prop :=
  ∀ before x after, family = before ++ x :: after → ∀ n ∈ x.1.order, ∀ callee,
    calleeOf n = some callee → numbers.contains callee.number = true ∨
      ∃ y ∈ before, y.1.function.id.number = callee.number

lemma Analyses.entry_of_recursive (h : Analyses types opts true numbers a family last)
    (hseen : ∀ x ∈ family, x.1.Explored s) (hx : x ∈ family)
    (hnum : numbers.contains x.1.function.id.number) : x.2.entry = 0 := by
  obtain ⟨before, after, rfl⟩ := append_of_mem hx
  obtain ⟨between, -, hafter⟩ := h.split
  cases hafter with
  | cons hamts =>
    rw [hnum] at hamts
    rw [Amounts.entry, due, dueAt, if_pos (isCut_entry (hseen _ hx) rfl hamts)]

lemma Analyses.amountsOf_eq
    (h : Analyses types opts true numbers a family last) (hstart : a.funcs = [])
    (hseen : ∀ x ∈ family, x.1.Explored s) (hdist : DistinctIds (family.map (·.1)))
    (hcallees : CalleesFirst numbers family) (hx : x ∈ family) :
    amountsOf types last.prices (numbers.contains x.1.function.id.number) opts.dynamic x.1 =
      .ok x.2 := by
  obtain ⟨before, after, hsplit⟩ := append_of_mem hx
  have hrun := h
  rw [hsplit] at hrun
  obtain ⟨between, hpre, hafter⟩ := hrun.split
  cases id hafter with
  | @cons _ _ g amounts _ f hamts =>
    rw [← hamts]
    refine amountsOf_congr rfl fun n hn => ?_
    have hcost : last.costs = between.costs := h.funcs.1.trans hpre.funcs.1.symm
    -- a function called has the same entry cost now and at the end
    have hentry : ∀ callee, calleeOf n = some callee →
        last.prices.entryCost callee = (pricesAt true numbers between).entryCost callee := by
      intro callee hcall
      show (last.func? callee).elim 0 (·.entry) =
        if numbers.contains callee.number then 0 else (between.func? callee).elim 0 (·.entry)
      cases hnum : numbers.contains callee.number with
      | true =>
        cases hf : last.func? callee with
        | none => rfl
        | some f =>
          obtain ⟨y, hy, hid, hfentry⟩ := h.exists_of_func? hstart hf
          rw [elim_some, hfentry]
          exact h.entry_of_recursive hseen hy (hid ▸ hnum)
      | false =>
        rw [if_neg Bool.false_ne_true]
        rcases hcallees before _ after hsplit n hn callee hcall with hyes | ⟨y, hy, hid⟩
        · cases hnum.symm.trans hyes
        · have hdist' : DistinctIds (before.map (·.1)) := by
            rw [hsplit, map_append, DistinctIds, map_append] at hdist
            exact (nodup_append'.1 hdist).1
          obtain ⟨f, hf, -⟩ := map_eq_some_iff.1 (hpre.func? hstart hdist' hy hid)
          rw [hf, hafter.func?_of_func? hf]
    funext b
    unfold Prices.branchCost
    have hown : last.prices.ownCost n b = (pricesAt true numbers between).ownCost n b := by
      simp only [Prices.ownCost, prices, pricesAt, hcost]
    cases hcall : calleeOf n with
    | none => simp only [hown]; rfl
    | some callee => simp only [hown, hentry callee hcall]; rfl

end

/-! ## The whole analysis -/

variable {s : Settled} {opts : Options} {flows : List Flow} {a : Analysis}

def recursiveNumbers (flows : List Flow) : List Nat :=
  match callGraph flows with
  | .ok calls => ((List.range flows.length).filter (isRecursive calls)).filterMap fun i =>
      (flows[i]?).map (·.function.id.number)
  | .error _ => []

def Analysis.amountsOf (a : Analysis) (s : Settled) (opts : Options) (flows : List Flow)
    (g : Flow) : Except Failure Amounts :=
  Gas.amountsOf s.types a.prices ((recursiveNumbers flows).contains g.function.id.number)
    opts.dynamic g

/-- What is known once a metered program has been analysed. -/
structure Analysed (s : Settled) (opts : Options) (flows : List Flow) (a : Analysis)
    (family : List (Flow × Amounts)) : Prop where
  mem : ∀ x ∈ family, x.1 ∈ flows
  all : ∀ g ∈ flows, ∃ amounts, (g, amounts) ∈ family
  amounts : ∀ x ∈ family, a.amountsOf s opts flows x.1 = .ok x.2
  func? : ∀ x ∈ family, ∀ id : FunctionId, x.1.function.id.number = id.number →
    (a.func? id).map (·.entry) = some x.2.entry
  exists_of_func? : ∀ (id : FunctionId) (f : FunctionGas), a.func? id = some f →
    ∃ x ∈ family, x.1.function.id.number = id.number ∧ f.entry = x.2.entry
  recorded : Recorded s.program.statements.size a family
  fault : opts.table.fault? = none
  priced : PricedBy s flows opts.table true a.costs
  pricedAll : ∀ g ∈ flows, ∀ n ∈ g.order, n.libfunc.isSome = true →
    (Analysis.valueAt a.costs n.index).isSome = true
  distinct : DistinctIds (family.map (·.1))
  callees : CalleesFirst (recursiveNumbers flows) family
  refunds : opts.dynamic = false → ∀ index, a.refundAt index = 0

lemma distinctIds_filterMap (hflow : DistinctIds flows)
    (horder : order.Nodup) : DistinctIds (order.filterMap (flows[·]?)) := by
  rw [DistinctIds, List.Nodup, pairwise_map, pairwise_filterMap]
  refine horder.imp fun {i j} hne g hg g' hg' hnum => hne ?_
  exact hflow.eq_of_number hg hg' hnum

section

variable {calls : Array (List Nat)} (hcalls : callGraph flows = .ok calls)
  (horder : callOrder calls ((List.range flows.length).filter (isRecursive calls)) = .ok order)
  (hfam : family.map (·.1) = order.filterMap (flows[·]?))

include hcalls horder hfam

lemma calleesFirst : CalleesFirst (recursiveNumbers flows) family := by
  intro before x after hsplit n hn callee hcall
  obtain ⟨hsize, hrows⟩ := callGraph_eq_ok hcalls
  obtain ⟨-, -, hfirst⟩ := callOrder_eq_ok horder
  rw [hsplit, map_append] at hfam
  obtain ⟨order₁, order₂, rfl, hpre, hafter⟩ := filterMap_eq_append_iff.1 hfam.symm
  obtain ⟨skipped, i, rest, rfl, hskipped, hi, -⟩ := filterMap_eq_cons_iff.1 hafter
  obtain ⟨row, hrow, hfound⟩ := hrows i x.1 hi
  obtain ⟨j, hj, hplace⟩ := (forall₂_mem hfound).1 callee (mem_filterMap.2 ⟨n, hn, hcall⟩)
  obtain ⟨hjlt, hsame, -⟩ := findIdx?_eq_some_iff_getElem.1 hplace
  have hother := getElem?_eq_getElem hjlt
  have hnum := beq_iff_eq.1 hsame
  rcases hfirst (order₁ ++ skipped) i rest (by simp) row hrow j hj (hsize ▸ hjlt) with
    hrec | hpast
  · refine .inl ?_
    rw [recursiveNumbers, hcalls, contains_iff_mem, mem_filterMap]
    exact ⟨j, hrec, by rw [hother, map_some, hnum]⟩
  · rcases mem_append.1 hpast with hpast | hskip
    · have hmem : flows[j] ∈ before.map (·.1) := by
        rw [← hpre]
        exact mem_filterMap.2 ⟨j, hpast, hother⟩
      obtain ⟨y, hy, hsame⟩ := mem_map.1 hmem
      exact .inr ⟨y, hy, hsame ▸ hnum⟩
    · rw [hskipped j hskip] at hother
      cases hother

lemma mem_family_iff : g ∈ family.map (·.1) ↔ g ∈ flows := by
  obtain ⟨-, hmem, -⟩ := callOrder_eq_ok horder
  obtain ⟨hsize, -⟩ := callGraph_eq_ok hcalls
  rw [hfam, mem_filterMap]
  constructor
  · rintro ⟨i, -, hi⟩
    exact mem_of_getElem? hi
  · intro hg
    obtain ⟨i, hi⟩ := mem_iff_getElem?.1 hg
    obtain ⟨hlt, -⟩ := List.getElem?_eq_some_iff.1 hi
    exact ⟨i, (hmem i).2 (hsize ▸ hlt), hi⟩

end

/-- Before the first function is looked at, when the statements have been priced. -/
structure Analysis.Fresh (size : Nat) (a : Analysis) : Prop where
  funcs : a.funcs = []
  charges : a.charges = Array.replicate size none
  injected : a.injected = Array.replicate size none
  refunds : a.refunds = Array.replicate size none

/-- The analysis prices the statements, orders the functions and looks at one after another. -/
structure Steps (s : Settled) (opts : Options) (flows : List Flow) (metering : Bool)
    (start : Analysis) (calls : Array (List Nat)) (order : List Nat) (a : Analysis) : Prop where
  fault : opts.table.fault? = none
  fresh : start.Fresh s.program.statements.size
  need : start.need = Array.replicate s.program.statements.size none
  costs : flows.foldlM (priceFlow opts.table metering)
    (Array.replicate s.program.statements.size none) = .ok start.costs
  graph : callGraph flows = .ok calls
  sorted : callOrder calls ((range flows.length).filter (isRecursive calls)) = .ok order
  run : (order.filterMap (flows[·]?)).foldlM
    (analyseFunction s.types opts metering (recursiveNumbers flows)) start = .ok a

lemma steps_of_analyse (hmeter : (usesGas s.types flows && !opts.disabled) = metering)
    (h : analyse s flows opts = .ok a) :
    ∃ start calls order, Steps s opts flows metering start calls order a := by
  unfold analyse at h
  split at h
  · cases h
  next hfault =>
  simp only [hmeter] at h
  obtain ⟨costs, hcost, h⟩ := except_bind_eq_ok.1 h
  obtain ⟨calls, hcalls, h⟩ := except_bind_eq_ok.1 h
  obtain ⟨_, -, h⟩ := except_bind_eq_ok.1 h
  obtain ⟨order, horder, h⟩ := except_bind_eq_ok.1 h
  have hnumbers : recursiveNumbers flows =
      ((range flows.length).filter (isRecursive calls)).filterMap fun i =>
        (flows[i]?).map (·.function.id.number) := by
    rw [recursiveNumbers, hcalls]
  rw [← hnumbers] at h
  exact ⟨_, calls, order, hfault, ⟨rfl, rfl, rfl, rfl⟩, rfl, hcost, hcalls, horder, h⟩

lemma pricedBy_replicate {table : Table} :
    PricedBy s flows table metering (Array.replicate s.program.statements.size none) := by
  refine ⟨by simp, fun index price hval => ?_⟩
  rw [valueAt_replicate] at hval
  cases hval

lemma Steps.exists_family (h : Steps s opts flows metering start calls order a)
    (hdist : DistinctIds flows) : ∃ family,
      Analyses s.types opts metering (recursiveNumbers flows) start family a ∧
      family.map (·.1) = order.filterMap (flows[·]?) ∧ (∀ g, g ∈ family.map (·.1) ↔ g ∈ flows) ∧
      DistinctIds (family.map (·.1)) ∧ CalleesFirst (recursiveNumbers flows) family := by
  obtain ⟨family, hfam, hrun⟩ := analyses_of_foldlM h.run
  refine ⟨family, hrun, hfam, fun g => mem_family_iff h.graph h.sorted hfam, ?_,
    calleesFirst h.graph h.sorted hfam⟩
  rw [hfam]
  exact distinctIds_filterMap hdist (callOrder_eq_ok h.sorted).1

lemma Steps.analysed
    (h : Steps s opts flows true start calls order a) (hflow : ∀ g ∈ flows, g.Explored s)
    (hdist : DistinctIds flows) : ∃ family, Analysed s opts flows a family ∧
      Analyses s.types opts true (recursiveNumbers flows) start family a ∧
      family.map (·.1) = order.filterMap (flows[·]?) := by
  obtain ⟨family, hrun, hfam, hmem, hids, hcallees⟩ := h.exists_family hdist
  have hmemFlows : ∀ x ∈ family, x.1 ∈ flows := fun x hx => (hmem _).1 (mem_map_of_mem hx)
  have hseen : ∀ x ∈ family, x.1.Explored s := fun x hx => hflow x.1 (hmemFlows x hx)
  obtain ⟨hprice, hpricedAll⟩ := pricedBy_of_foldlM hflow pricedBy_replicate h.costs
  have hcostsEq := hrun.funcs.1
  have hamts := fun x hx => hrun.amountsOf_eq h.fresh.funcs hseen hids hcallees (x := x) hx
  refine ⟨family, ⟨hmemFlows, fun g hg => ?_, hamts,
    fun x hx id hid => hrun.func? h.fresh.funcs hids hx hid,
    fun id f hf => hrun.exists_of_func? h.fresh.funcs hf, ?_, h.fault, hcostsEq ▸ hprice,
    hcostsEq ▸ hpricedAll, hids, hcallees, fun hdyn index => ?_⟩, hrun, hfam⟩
  · obtain ⟨x, hx, rfl⟩ := mem_map.1 ((hmem g).2 hg)
    exact ⟨x.2, hx⟩
  · obtain ⟨hcharges, hinj, -⟩ := hrun.kept
    exact recorded_of_kept (fun x hx => ⟨(fits_of_amountsOf (hseen x hx) (hamts x hx)).1,
      hseen x hx⟩) (h.fresh.injected ▸ hinj) (h.fresh.charges ▸ hcharges)
  · rw [Analysis.refundAt, hrun.refunds hdyn, h.fresh.refunds, valueAt_replicate]
    rfl

lemma analysed_of_analyse (hflow : ∀ g ∈ flows, g.Explored s) (hdist : DistinctIds flows)
    (hmeter : (usesGas s.types flows && !opts.disabled))
    (h : analyse s flows opts = .ok a) : ∃ family, Analysed s opts flows a family := by
  obtain ⟨start, calls, order, hsteps⟩ := steps_of_analyse hmeter h
  obtain ⟨family, hanalysed, -⟩ := hsteps.analysed hflow hdist
  exact ⟨family, hanalysed⟩

end Sierra.Gas
