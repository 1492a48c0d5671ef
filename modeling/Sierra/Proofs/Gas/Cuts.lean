import Sierra.Proofs.Gas.Worst

/-!
# No cycle is left

Without the branches into the statements that are cut, what is paid depends on itself nowhere, and
without the calls of recursive functions no function calls itself.
-/

namespace Sierra.Gas

open List Relation Flow Amounts View

variable {calls : Array (List Nat)} {flows : List Flow} {g : Flow} {i : Nat} {metering : Bool}
  {opts : Options} {s : Settled} {v : View}

/-- What is paid before a statement includes what is due at another. -/
def Depends (g : Flow) (i j : Int) : Prop :=
  ∃ n, g.node? i = some n ∧ ∃ d ∈ dependencies n, d.1.target = j

lemma isCut_cutsOf {isRecursive : Bool} (h : isCut (loopHeads v.due v.entry) i) :
    isCut (cutsOf metering isRecursive v) i := by
  unfold cutsOf
  split
  · rw [isCut] at h ⊢
    rw [Array.getElem?_modify]
    split
    · cases hfound : (loopHeads v.due v.entry)[i]? with
      | none => simp [hfound] at h
      | some b => rfl
    · exact h
  · exact h

lemma not_transGen_free (v : View) (metering isRecursive : Bool) (i : Nat) :
    ¬ TransGen (Search.Free v.due (cutsOf metering isRecursive v)) i i := by
  refine fun hway => (loopHeads_spec v.due v.entry).2.2 i (hway.lift id fun k t h => ⟨h.1, ?_⟩)
  rw [← Bool.not_eq_true]
  exact fun hcut => Bool.false_ne_true (h.2.symm.trans (isCut_cutsOf hcut))

lemma cyclic_needGraph (isRecursive : Bool) :
    (needGraph v (cutsOf metering isRecursive v)).layers.cyclic = false := by
  rw [needGraph_eq, Graph.cyclic_eq_false_iff Graph.bounded_ofRows]
  refine fun k hk => not_transGen_free v metering isRecursive k (hk.swap.lift id fun k t hstep => ?_)
  obtain ⟨-, n, hn, d, hd, hcut, rfl⟩ := Graph.mem_next_ofRows.1 hstep
  rw [Array.getElem?_toList] at hn
  exact ⟨leads_due.2 ⟨n, hn, d, hd, rfl⟩, hcut⟩

lemma exists_callOrder (calls : Array (List Nat)) :
    ∃ order, callOrder calls ((range calls.size).filter (isRecursive calls)) = .ok order := by
  refine ⟨_, if_neg (Bool.eq_false_iff.1 ((Graph.cyclic_eq_false_iff (@Graph.bounded_ofRows
    _ _ calls.toList id _ id)).2 fun k hk => ?_))⟩
  -- the first node of the cycle is called by the second, and is recursive
  obtain ⟨t, hstep, -⟩ := TransGen.head'_iff.1 hk
  obtain ⟨hlt, -, -, j, -, hnot, rfl⟩ := Graph.mem_next_ofRows.1 hstep
  have hcycle : TransGen (Leads calls) j j := by
    refine hk.swap.lift id fun k t hstep => ?_
    obtain ⟨-, row, hrow, c, hc, -, rfl⟩ := Graph.mem_next_ofRows.1 hstep
    rw [Array.getElem?_toList] at hrow
    show c ∈ (calls[k]?).getD []
    rw [hrow]
    exact hc
  have hmem : j ∈ (range calls.size).filter (isRecursive calls) :=
    mem_filter.2 ⟨mem_range.2 hlt, isRecursive_iff.2 hcycle⟩
  simp [hmem] at hnot

/-! ## How the analysis may fail -/

/-- A step fails for a reason that lies in what it is given. -/
abbrev Fair {α : Type} : Except Failure α → Prop :=
  Yields (fun _ => True) fun e => ∀ text, e ≠ .native text

section Fair

variable {α β : Type}

lemma fair_bind {x : Except Failure α} {k : α → Except Failure β} (hx : Fair x)
    (hk : ∀ a, x = .ok a → Fair (k a)) : Fair (x >>= k) :=
  hx.bind fun a ha _ => hk a ha

lemma fair_mapM {f : α → Except Failure β} {l : List α} (h : ∀ a ∈ l, Fair (f a)) :
    Fair (l.mapM f) := by
  induction l with
  | nil => trivial
  | cons a l ih =>
    rw [mapM_cons]
    exact fair_bind (h a mem_cons_self) fun b _ =>
      fair_bind (ih fun a ha => h a (mem_cons_of_mem _ ha)) fun _ _ => trivial

lemma fair_forM {f : α → Except Failure PUnit} {l : List α} (h : ∀ a ∈ l, Fair (f a)) :
    Fair (l.forM f) := by
  induction l with
  | nil => trivial
  | cons a l ih =>
    exact fair_bind (h a mem_cons_self) fun _ _ => ih fun a ha => h a (mem_cons_of_mem _ ha)

end Fair

lemma fair_apChangeOf (callee : FunctionId → ApChange) : Fair (apChangeOf g callee) := by
  have hloop : ∀ fuel w, Fair (apLoop g callee fuel w) := by
    intro fuel
    induction fuel with
    | zero => exact fun _ => trivial
    | succ fuel ih =>
      intro w
      unfold apLoop
      split
      · trivial
      refine fair_bind ?_ fun w _ => ih w
      unfold apStep
      split
      · split
        · trivial
        · refine Yields.foldlM trivial fun w x _ _ => ?_
          unfold ApWalk.arrive
          (repeat' split) <;> first | trivial | exact nofun
      · trivial
  exact fair_bind (hloop _ _) fun _ _ => trivial

lemma fair_amountsOf {types : Types} {p : Prices} {isRecursive dynamic : Bool} :
    Fair (amountsOf types p isRecursive dynamic g) := by
  unfold amountsOf
  dsimp only
  split
  · exact nofun
  · rw [if_neg (by simp [cyclic_needGraph])]
    trivial

lemma fair_analyse : Fair (analyse s flows opts) := by
  unfold analyse
  split
  · exact nofun
  refine fair_bind (Yields.foldlM trivial fun costs flow _ _ =>
    Yields.foldlM trivial fun costs n _ _ => ?_) fun costs _ =>
      fair_bind (fair_bind (fair_mapM fun flow _ => fair_mapM fun callee _ => ?_) fun _ _ => trivial)
        fun calls hcalls => fair_bind (fair_forM fun flow _ => ?_) fun _ _ =>
          fair_bind ?_ fun order _ => Yields.foldlM trivial fun a flow _ _ => ?_
  · split
    · refine fair_bind ?_ fun _ _ => trivial
      unfold priceOf
      (repeat' split) <;> first | trivial | exact nofun
    · trivial
  · split <;> first | trivial | exact nofun
  · unfold checkRecursion
    dsimp only
    split <;> first | trivial | exact nofun
  · rw [← (callGraph_eq_ok hcalls).1]
    obtain ⟨order, horder⟩ := exists_callOrder calls
    rw [horder]
    trivial
  · exact fair_bind fair_amountsOf fun _ _ => fair_bind (fair_apChangeOf _) fun _ _ => trivial

/-- Every cycle of dependencies passes a statement that is cut, and every cycle of calls a function
that can call itself, so that the analysis fails, metered or not, only for a reason that lies in the
program or in the table of costs. -/
theorem cuts_break_every_cycle {program : Program} (hs : Settled.ofProgram program = .ok s)
    (hflows : program.funcs.mapM (ofFunction s) = .ok flows) :
    (∀ g ∈ flows, ∀ metering isRecursive i, ¬ TransGen (fun i j => Depends g i j ∧ isCut
      (cutsOf metering isRecursive (ofFlow g)) ((ofFlow g).place j) = false) i i) ∧
    (∀ calls, callGraph flows = .ok calls → ∀ g, ¬ TransGen (fun g f => Calls flows g f ∧
      (recursiveNumbers flows).contains f.function.id.number = false) g g) ∧
    ∀ opts text, analyse s flows opts ≠ .error (.native text) := by
  obtain ⟨hexplored, hdistinct⟩ := explored_of_mapM hs hflows
  refine ⟨fun g hg metering isRecursive i hi => ?_, fun calls hcalls g hway => ?_,
    fun opts text h => (h ▸ fair_analyse : Fair (Except.error _)) text rfl⟩
  · refine not_transGen_free (ofFlow g) metering isRecursive _ (hi.lift (ofFlow g).place ?_)
    rintro k t ⟨⟨n, hn, d, hd, rfl⟩, hcut⟩
    have hplace := getElem?_place (hexplored g hg) (mem_order_of_node? hn)
    rw [((hexplored g hg).visited_of_node? hn).2] at hplace
    exact ⟨leads_due.2 ⟨n, hplace, d, hd, rfl⟩, hcut⟩
  · -- the last function of the cycle is on it, hence recursive
    obtain ⟨f, -, hcall, hnot⟩ := TransGen.tail'_iff.1 hway
    rw [← Bool.not_eq_true, recursiveNumbers_iff hcalls hdistinct hcall.2.1] at hnot
    exact hnot (hway.lift id fun _ _ h => h.1)

theorem refill_finds_its_orders : ∃ s flows, Settled.ofProgram refill = .ok s ∧
    refill.funcs.mapM (ofFunction s) = .ok flows ∧
    ∀ opts text, analyse s flows opts ≠ .error (.native text) := by
  obtain ⟨s, flows, -, hs, hflows, -⟩ :=
    exists_of_isMetered (show isMetered refill refillOptions fun _ _ _ => true by decide +kernel)
  exact ⟨s, flows, hs, hflows, (cuts_break_every_cycle hs hflows).2.2⟩

end Sierra.Gas
