import Sierra.Proofs.Types
import Sierra.Proofs.Typing.Context

/-!
# Linear typing

An invocation takes its arguments out of the context, each branch brings its results as fresh
variables into that of its target, and a return takes all there is. The walk works a context out
once and compares on other ways; `Typed` speaks of all ways at once. A graph is a typing
(`Explored.typed`); with a typing the walk knows only what that says (`Walk.Agrees`).
-/

namespace Sierra

open List

variable {Δ : Context} {n : Node}

namespace Flow

variable {s : Settled} {f : Function} {g : Flow} {index : Int} {v : VarId}
  {next vars remaining : Vars} {w : Walk} {returned : List VarId}

section Parts

variable {index : Int} {libfunc : LibfuncId} {vars left next : Vars} {Δ : Context}
  {entries : List (VarId × TypeId)}

variable (f index libfunc) in
lemma takeArgs_iff :
    (∃ left, takeArgs f index libfunc vars entries = .ok left ∧ left.context = Δ) ↔
      Context.Takes vars.context entries Δ := by
  conv_rhs => rw [← zipIdx_map_fst 0 entries]
  exact foldlM_takes_iff _ fun _ _ _ => takeOne_eq_ok

lemma ascending_takeArgs (h : takeArgs f index libfunc vars entries = .ok left)
    (hvars : vars.Ascending) : left.Ascending :=
  foldlM_keeps h hvars fun _ _ _ _ hvars hleft => by
    obtain ⟨t, -, -, rfl⟩ := takeOne_eq_ok.1 hleft
    exact hvars.erase _

variable (f index) in
lemma bringResults_iff :
    (∃ next, bringResults f index vars entries = .ok next ∧ next.context = Δ) ↔
      Context.Brings vars.context entries Δ := by
  conv_rhs => rw [← map_id entries]
  exact foldlM_brings_iff _ fun _ _ _ => bringOne_eq_ok

lemma ascending_bringResults (h : bringResults f index vars entries = .ok next)
    (hvars : vars.Ascending) : next.Ascending :=
  ascending_of_brings id h (fun _ _ _ => bringOne_eq_ok) hvars

lemma initial_iff : (∃ vars, initial f = .ok vars ∧ vars.context = Δ) ↔
    Context.Brings .empty (f.params.map fun p => (p.var, p.type)) Δ :=
  foldlM_brings_iff _ fun _ _ _ => bringOne_eq_ok

lemma ascending_initial (h : initial f = .ok vars) : vars.Ascending :=
  ascending_of_brings (fun p => (p.var, p.type)) h (fun _ _ _ => bringOne_eq_ok) .nil

lemma checkReturn_iff : checkReturn f index vars returned = .ok () ↔
    returned.length = f.retTypes.length ∧
      Context.Takes vars.context (returned.zip f.retTypes) .empty := by
  unfold checkReturn
  by_cases hlen : returned.length = f.retTypes.length
  · rw [if_neg (not_not.2 hlen), and_iff_right hlen]
    conv_rhs => rw [← zipIdx_map_fst 0 (returned.zip f.retTypes)]
    constructor <;> intro h
    · obtain ⟨left, hleft, hrest⟩ := except_bind_eq_ok.1 h
      cases left with
      | nil => exact (foldlM_takes_iff _ fun _ _ _ => takeOne_eq_ok).1 ⟨[], hleft, rfl⟩
      | cons entry left => cases hrest
    · obtain ⟨left, hleft, hctx⟩ := (foldlM_takes_iff _ fun _ _ _ => takeOne_eq_ok).2 h
      obtain rfl := Vars.context_eq_empty.1 hctx
      exact except_bind_eq_ok.2 ⟨[], hleft, rfl⟩
  · rw [if_pos hlen]
    exact iff_of_false nofun fun h => hlen h.1

end Parts

/-! ## The judgement -/

/-- A way from the entry by the numbers of its branches. -/
inductive Path (p : Program) (f : Function) : List Nat → Int → Prop
  | entry : Path p f [] f.entry
  | branch {path : List Nat} {index : Int} {call : Invocation} {number : Nat} {b : Branch}
      (hpath : Path p f path index) (hstatement : p.statement? index = some (.invoke call))
      (hbranch : call.branches[number]? = some b) :
      Path p f (path ++ [number]) (b.target.resolve index)

inductive Arrives (s : Settled) (f : Function) : List Nat → Int → Context → Prop
  | entry {Γ : Context}
      (hparams : Context.Brings .empty (f.params.map fun p => (p.var, p.type)) Γ) :
      Arrives s f [] f.entry Γ
  | branch {path : List Nat} {index : Int} {Γ left Δ : Context} {call : Invocation}
      {lib : Libfunc} {number : Nat} {b : Branch} {signature : BranchSignature}
      (hbefore : Arrives s f path index Γ)
      (hstatement : s.program.statement? index = some (.invoke call))
      (hlib : s.libfunc call.libfunc = .ok lib)
      (htakes : Context.Takes Γ (call.args.zip lib.params) left)
      (hbranch : call.branches[number]? = some b)
      (hsignature : lib.branches[number]? = some signature)
      (hbrings : Context.Brings left (b.results.zip signature.vars) Δ) :
      Arrives s f (path ++ [number]) (b.target.resolve index) Δ

/-- An invocation takes its arguments out, and each branch brings its results into the context of
its target. -/
structure TypedCall (s : Settled) (Γ : Int → Context) (index : Int) (call : Invocation) (lib : Libfunc)
    (left : Context) : Prop where
  found : s.libfunc call.libfunc = .ok lib
  args : call.args.length = lib.params.length
  branches : call.branches.length = lib.branches.length
  takes : Context.Takes (Γ index) (call.args.zip lib.params) left
  brings : ∀ (number : Nat) (b : Branch) (signature : BranchSignature),
    call.branches[number]? = some b → lib.branches[number]? = some signature →
    b.results.length = signature.vars.length ∧
      Context.Brings left (b.results.zip signature.vars) (Γ (b.target.resolve index))

inductive TypedStatement (s : Settled) (f : Function) (Γ : Int → Context) (index : Int) :
    Statement → Prop
  | invoke {call : Invocation} {lib : Libfunc} {left : Context}
      (hcall : TypedCall s Γ index call lib left) : TypedStatement s f Γ index (.invoke call)
  | ret {vars : List VarId} (hlength : vars.length = f.retTypes.length)
      (htakes : Context.Takes (Γ index) (vars.zip f.retTypes) .empty) :
      TypedStatement s f Γ index (.ret vars)

/-- A context for each reachable statement. -/
structure Typed (s : Settled) (f : Function) (Γ : Int → Context) : Prop where
  params : Context.Brings .empty (f.params.map fun p => (p.var, p.type)) (Γ f.entry)
  statements : ∀ path index, Path s.program f path index →
    ∃ statement, s.program.statement? index = some statement ∧ TypedStatement s f Γ index statement

variable {Γ : Int → Context} {path : List Nat} {call : Invocation}

lemma Arrives.toPath (h : Arrives s f path index Δ) : Path s.program f path index := by
  induction h with
  | entry _ => exact .entry
  | branch _ hstmt _ _ hbranch _ _ ih => exact .branch ih hstmt hbranch

lemma Typed.typedCall (h : Typed s f Γ) (hpath : Path s.program f path index)
    (hstmt : s.program.statement? index = some (.invoke call)) :
    ∃ lib left, TypedCall s Γ index call lib left := by
  obtain ⟨statement, hfound, htyped⟩ := h.statements path index hpath
  cases hstmt.symm.trans hfound
  cases htyped with
  | invoke hcall => exact ⟨_, _, hcall⟩

lemma Typed.arrives (h : Typed s f Γ)
    (hpath : Path s.program f path index) : Arrives s f path index (Γ index) := by
  induction hpath with
  | entry => exact .entry h.params
  | @branch path index call number b hpath hstmt hbranch ih =>
    obtain ⟨lib, left, hcall⟩ := h.typedCall hpath hstmt
    obtain ⟨signature, hsig⟩ : ∃ signature, lib.branches[number]? = some signature := by
      obtain ⟨hlt, -⟩ := List.getElem?_eq_some_iff.1 hbranch
      exact ⟨_, getElem?_eq_getElem (hcall.branches ▸ hlt)⟩
    exact .branch ih hstmt hcall.found hcall.takes hbranch hsig
      (hcall.brings number b signature hbranch hsig).2

lemma Typed.eq_of_arrives (h : Typed s f Γ)
    (harrives : Arrives s f path index Δ) : Δ = Γ index := by
  induction harrives with
  | entry hparams => exact hparams.unique h.params
  | @branch path index Γ' left Δ call lib number b signature hpre hstmt hlib htakes hbranch
      hsig hbrings ih =>
    obtain ⟨lib', left', hcall⟩ := h.typedCall hpre.toPath hstmt
    cases hlib.symm.trans hcall.found
    rw [ih] at htakes
    obtain rfl := htakes.unique hcall.takes
    exact hbrings.unique (hcall.brings number b signature hbranch hsig).2

/-! ## A graph is a typing -/

def contexts (g : Flow) (index : Int) : Context := (g.node? index).elim .empty (·.state.context)

lemma contexts_eq (hn : g.node? index = some n) : g.contexts index = n.state.context := by
  rw [contexts, hn]
  rfl

lemma Explored.typedCall (h : g.Explored s) (hn : g.node? index = some n)
    (hstate : n.state.Ascending) (hcall : n.statement = .invoke call) :
    ∃ lib, TypedCall s g.contexts index call lib n.remaining.context ∧
      ∀ b ∈ call.branches, ∃ m, g.node? (b.target.resolve index) = some m ∧ m.state.Ascending := by
  obtain ⟨hvisited, hidx⟩ := h.visited_of_node? hn
  obtain ⟨lib, hinv⟩ := hvisited.invokes hcall
  have hremaining := ascending_takeArgs hinv.taken hstate
  have hbranches : ∀ (number : Nat) (b : Branch) (signature : BranchSignature),
      call.branches[number]? = some b → lib.branches[number]? = some signature →
      b.results.length = signature.vars.length ∧ ∃ m,
        g.node? (b.target.resolve index) = some m ∧ m.state.Ascending ∧
        Context.Brings n.remaining.context (b.results.zip signature.vars) m.state.context := by
    intro number b signature hb hsig
    have he : (⟨b.target.resolve index, b.results, signature.vars⟩ : Edge) ∈ n.edges := by
      rw [hinv.edges, hidx]
      have hpair : (call.branches.zip lib.branches)[number]? = some (b, signature) :=
        getElem?_zip_eq_some.2 ⟨hb, hsig⟩
      exact mem_map.2 ⟨(b, signature), mem_of_getElem? hpair, rfl⟩
    obtain ⟨hlen, htarget, next, known, hnext, hknown, hsame⟩ := hinv.arrives _ he
    obtain ⟨m, hm, rfl⟩ := Option.map_eq_some_iff.1 hknown
    replace hm : g.node? _ = some m := (if_neg (not_lt.2 (statement?_isSome_iff.1 htarget).1)).trans hm
    have hbrings := (bringResults_iff _ _).1 ⟨next, hnext, rfl⟩
    rw [← Vars.context_eq_of_same hsame] at hbrings
    exact ⟨hlen, m, hm, (ascending_bringResults hnext hremaining).of_same hsame, hbrings⟩
  refine ⟨lib, ⟨hinv.found, hinv.args, hinv.branches, ?_, ?_⟩, fun b hb => ?_⟩
  · rw [contexts_eq hn]
    exact (takeArgs_iff _ _ _).1 ⟨_, hinv.taken, rfl⟩
  · intro number b signature hb hsig
    obtain ⟨hlen, m, hm, -, hbrings⟩ := hbranches number b signature hb hsig
    rw [contexts_eq hm]
    exact ⟨hlen, hbrings⟩
  · obtain ⟨number, hb⟩ := mem_iff_getElem?.1 hb
    obtain ⟨hlt, -⟩ := List.getElem?_eq_some_iff.1 hb
    obtain ⟨-, m, hm, hascending, -⟩ := hbranches number b _ hb
      (getElem?_eq_getElem (hinv.branches ▸ hlt))
    exact ⟨m, hm, hascending⟩

lemma Explored.exists_node (h : g.Explored s) (hpath : Path s.program g.function path index) :
    ∃ n, g.node? index = some n ∧ n.state.Ascending := by
  induction hpath with
  | entry =>
    obtain ⟨n, hn, hinit⟩ := h.entry
    exact ⟨n, hn, ascending_initial hinit⟩
  | branch _ hstmt hbranch ih =>
    obtain ⟨n, hn, hstate⟩ := ih
    have hcall := Option.some.inj ((h.statement?_eq hn).symm.trans hstmt)
    obtain ⟨lib, -, htargets⟩ := h.typedCall hn hstate hcall
    exact htargets _ (mem_of_getElem? hbranch)

lemma Explored.typed (h : g.Explored s) : Typed s g.function g.contexts := by
  refine ⟨?_, fun path index hpath => ?_⟩
  · obtain ⟨n, hn, hinit⟩ := h.entry
    rw [contexts_eq hn]
    exact initial_iff.1 ⟨_, hinit, rfl⟩
  · obtain ⟨n, hn, hstate⟩ := h.exists_node hpath
    refine ⟨n.statement, h.statement?_eq hn, ?_⟩
    cases hstmt : n.statement with
    | invoke call =>
      obtain ⟨lib, hcall, -⟩ := h.typedCall hn hstate hstmt
      exact .invoke hcall
    | ret vars =>
      have hret := (h.visited_of_node? hn).1.returns hstmt
      obtain ⟨hlen, htakes⟩ := checkReturn_iff.1 hret.checked
      rw [← contexts_eq hn] at htakes
      exact .ret hlen htakes

/-! ## A typing is enough -/

/-- All that a walk knows is what a typing says. -/
structure Walk.Agrees (s : Settled) (f : Function) (Γ : Int → Context) (w : Walk)
    (waiting : List Int) : Prop where
  states : ∀ (i : Nat) (vars : Vars), w.stateAt i = some vars →
    vars.Ascending ∧ vars.context = Γ i ∧ ∃ path, Path s.program f path i
  waiting : ∀ t ∈ waiting, ∃ path, Path s.program f path t

lemma exists_followBranch {libfunc : LibfuncId}
    {number : Nat} {b : Branch} {signature : BranchSignature}
    (hlen : b.results.length = signature.vars.length)
    (hnext : bringResults f index remaining (b.results.zip signature.vars) = .ok next)
    (hthere : (s.program.statement? (b.target.resolve index)).isSome)
    (hknown : ∀ known, w.stateAt (b.target.resolve index).toNat = some known →
      known.same next) :
    ∃ e w', followBranch s.program f index libfunc remaining number b signature w = .ok (e, w') := by
  have hsome : ¬ (s.program.statement? (b.target.resolve index)).isNone := by
    simpa [Option.isSome_iff_ne_none] using hthere
  unfold followBranch
  rw [if_neg (not_not.2 hlen)]
  simp only [hnext, bind, Except.bind, pure, Except.pure]
  rw [if_neg hsome]
  cases hstate : (w.states[(b.target.resolve index).toNat]?).getD none with
  | some known =>
    dsimp only
    rw [if_pos (hknown known hstate)]
    exact ⟨_, _, rfl⟩
  | none => exact ⟨_, _, rfl⟩

lemma Walk.Agrees.brings {w' : Walk} {current target : Int}
    (h : w.Agrees s f Γ (current :: w.work)) (hbrings : w.Brings target next w')
    (hnext : next.Ascending) (hctx : next.context = Γ target) (hpos : 0 ≤ target)
    (hpath : Path s.program f path target) : w'.Agrees s f Γ (current :: w'.work) := by
  refine ⟨fun i vars hvars => ?_, fun t ht => ?_⟩
  · rcases hbrings.cases with ⟨known, -, -, hstates, -⟩ | ⟨hnone, hstates, -⟩
    · rw [Walk.stateAt, hstates] at hvars
      exact h.states i vars hvars
    · rw [Walk.stateAt, hstates, Array.getElem?_modify] at hvars
      split at hvars
      · obtain rfl : target = (i : Int) := by omega
        obtain ⟨_, -, hvars⟩ : ∃ old, w.states[i]? = some old ∧ some next = some vars := by
          cases hold : w.states[i]? with
          | none => simp [hold] at hvars
          | some old => exact ⟨old, rfl, by simpa [hold] using hvars⟩
        cases hvars
        exact ⟨hnext, hctx, path, hpath⟩
      · exact h.states i vars hvars
  · rcases mem_cons.1 ht with rfl | hwork
    · exact h.waiting t mem_cons_self
    · rcases hbrings.mem_work hwork with hold | rfl
      · exact h.waiting t (mem_cons_of_mem _ hold)
      · exact ⟨path, hpath⟩

lemma Walk.Agrees.exists_followBranches (libfunc : LibfuncId) (number : Nat)
    {branches : List (Branch × BranchSignature)}
    (h : w.Agrees s f Γ (index :: w.work)) (hremaining : remaining.Ascending)
    (hbranches : ∀ b signature, (b, signature) ∈ branches →
      b.results.length = signature.vars.length ∧
      Context.Brings remaining.context (b.results.zip signature.vars) (Γ (b.target.resolve index)) ∧
      (∃ path, Path s.program f path (b.target.resolve index)) ∧
      (s.program.statement? (b.target.resolve index)).isSome) :
    ∃ es w', followBranches s.program f index libfunc remaining number branches w = .ok (es, w') ∧
      w'.Agrees s f Γ (index :: w'.work) := by
  induction branches generalizing number w with
  | nil => exact ⟨[], w, rfl, h⟩
  | cons entry branches ih =>
    obtain ⟨b, signature⟩ := entry
    obtain ⟨hlen, htyped, ⟨path, hpath⟩, hthere⟩ := hbranches b signature mem_cons_self
    obtain ⟨next, hnext, hctx⟩ := (bringResults_iff f index).2 htyped
    have hascending := ascending_bringResults hnext hremaining
    obtain ⟨hpos, -⟩ := statement?_isSome_iff.1 hthere
    -- a state that is known there is the one that the typing says, so it is the same
    have hknown : ∀ known, w.stateAt (b.target.resolve index).toNat = some known →
        known.same next := by
      intro known hstate
      obtain ⟨hknown, hctx', -⟩ := h.states _ known hstate
      rw [Int.toNat_of_nonneg hpos, ← hctx] at hctx'
      exact hknown.same hascending hctx'
    obtain ⟨e, between, hfirst⟩ := exists_followBranch hlen hnext hthere hknown
    obtain ⟨he, -, -, next', hnext', hbrings⟩ := followBranch_eq_ok hfirst
    cases hnext.symm.trans hnext'
    rw [he] at hbrings
    obtain ⟨es, w', hrest, hagrees⟩ := ih (number + 1) (h.brings hbrings hascending hctx hpos hpath)
      fun b signature hb => hbranches b signature (mem_cons_of_mem _ hb)
    refine ⟨e :: es, w', ?_, hagrees⟩
    rw [followBranches, hfirst]
    dsimp only [bind, Except.bind]
    rw [hrest]
    rfl

lemma Walk.Agrees.exists_visit (h : w.Agrees s f Γ (index :: w.work))
    (htyped : Typed s f Γ) (hgood : w.Good s f (index :: w.work)) :
    ∃ w', visit s f index w = .ok w' ∧ w'.Agrees s f Γ w'.work := by
  obtain ⟨path, hpath⟩ := h.waiting index mem_cons_self
  obtain ⟨statement, hstmt, hstatementTyped⟩ := htyped.statements path index hpath
  have hthere : (s.program.statement? index).isSome := by
    rw [hstmt]
    rfl
  obtain ⟨hpos, -⟩ := statement?_isSome_iff.1 hthere
  obtain ⟨state, hstate⟩ := Option.isSome_iff_exists.1 (hgood.waiting index mem_cons_self hthere)
  obtain ⟨hascending, hctx, -⟩ := h.states _ state hstate
  rw [Int.toNat_of_nonneg hpos] at hctx
  have hread : ((w.states[index.toNat]?).getD none).getD [] = state := by
    rw [show (w.states[index.toNat]?).getD none = some state from hstate]
    rfl
  unfold visit
  rw [hstmt, hread]
  cases hstatementTyped with
  | ret hlen htakes =>
    rw [← hctx] at htakes
    dsimp only
    rw [checkReturn_iff.2 ⟨hlen, htakes⟩]
    exact ⟨_, rfl, h.states, fun t ht => h.waiting t (mem_cons_of_mem _ ht)⟩
  | @invoke call lib left hcall =>
    have htakes := hcall.takes
    rw [← hctx] at htakes
    obtain ⟨remaining, hremaining, rfl⟩ := (takeArgs_iff f index call.libfunc).2 htakes
    obtain ⟨es, w', hfollow, hagrees⟩ := Agrees.exists_followBranches call.libfunc 0 h
      (ascending_takeArgs hremaining hascending) fun b signature hb => by
        obtain ⟨number, hpair⟩ := mem_iff_getElem?.1 hb
        obtain ⟨hb, hsig⟩ := getElem?_zip_eq_some.1 hpair
        obtain ⟨hlen, hbrings⟩ := hcall.brings number b signature hb hsig
        have hnext := Path.branch hpath hstmt hb
        obtain ⟨target, htarget, -⟩ := htyped.statements _ _ hnext
        exact ⟨hlen, hbrings, ⟨_, hnext⟩, by rw [htarget]; rfl⟩
    dsimp only [visitInvocation]
    rw [hcall.found]
    dsimp only [bind, Except.bind]
    rw [if_neg (not_not.2 hcall.args), if_neg (not_not.2 hcall.branches)]
    rw [hremaining]
    dsimp only
    rw [hfollow]
    exact ⟨_, rfl, hagrees.states, fun t ht => hagrees.waiting t (mem_cons_of_mem _ ht)⟩

lemma Walk.Agrees.exists_explore (htyped : Typed s f Γ) (fuel : Nat)
    (h : w.Agrees s f Γ w.work) (hgood : w.Good s f w.work) :
    ∃ w', explore s f fuel w = .ok w' ∧ w'.Agrees s f Γ w'.work ∧ w'.Good s f w'.work := by
  induction fuel generalizing w with
  | zero => exact ⟨w, rfl, h, hgood⟩
  | succ fuel ih =>
    rw [explore]
    cases hwork : w.work with
    | nil => exact ⟨w, rfl, h, hgood⟩
    | cons index rest =>
      rw [hwork] at h hgood
      have hgood' : Walk.Good s f { w with work := rest } (index :: rest) :=
        ⟨hgood.nodesSize, hgood.statesSize, hgood.visited, hgood.known, hgood.waiting⟩
      have hagrees' : Walk.Agrees s f Γ { w with work := rest } (index :: rest) :=
        ⟨h.states, h.waiting⟩
      obtain ⟨between, hvisit, hbetween⟩ := hagrees'.exists_visit htyped hgood'
      obtain ⟨w', hexplore, hagrees⟩ := ih hbetween (visit_eq_ok hvisit hgood').1
      refine ⟨w', ?_, hagrees⟩
      dsimp only [bind, Except.bind]
      rw [hvisit]
      exact hexplore

lemma Typed.exists_flow (h : Typed s f Γ) : ∃ g, ofFunction s f = .ok g ∧
    ∀ index n, g.node? index = some n → ∃ path, Path s.program f path index := by
  obtain ⟨vars, hinit, hctx⟩ := initial_iff.2 h.params
  obtain ⟨statement, hstmt, -⟩ := h.statements [] f.entry .entry
  have hthere : (s.program.statement? f.entry).isSome := by
    rw [hstmt]
    rfl
  obtain ⟨hpos, -⟩ := statement?_isSome_iff.1 hthere
  have hstart : Walk.Agrees s f Γ (Walk.start s.program.statements.size f.entry vars) [f.entry] := by
    refine ⟨fun i state hstate => ?_, fun t ht => ?_⟩
    · rw [stateAt_start] at hstate
      split at hstate
      · cases hstate
        obtain heq : (i : Int) = f.entry := by omega
        rw [heq]
        exact ⟨ascending_initial hinit, hctx, [], .entry⟩
      · cases hstate
    · obtain rfl := mem_singleton.1 ht
      exact ⟨[], .entry⟩
  obtain ⟨w, hexplore, hagrees, hgood⟩ :=
    hstart.exists_explore h (s.program.statements.size + 1) (good_start hpos)
  refine ⟨⟨f, w.nodes, w.preds⟩, ?_, fun index n hn => ?_⟩
  · unfold ofFunction
    rw [hinit]
    dsimp only [bind, Except.bind]
    rw [hexplore]
    rfl
  · obtain ⟨i, rfl, hi⟩ := node?_eq_some_iff.1 hn
    exact (hagrees.states i n.state (hgood.visited i n hi).state).2.2

/-- The graph of a function can be built exactly when the function can be typed. The contexts of
the graph are then the only typing, and every way from the entry arrives with them. -/
theorem flow_is_linear_typing (s : Settled) (f : Function) :
    ((∃ g, ofFunction s f = .ok g) ↔ ∃ Γ, Typed s f Γ) ∧
    ∀ g, ofFunction s f = .ok g →
      (∀ index, (∃ n, g.node? index = some n) ↔ ∃ path, Path s.program f path index) ∧
      Typed s f g.contexts ∧
      (∀ Γ, Typed s f Γ → ∀ index n, g.node? index = some n → Γ index = n.state.context) ∧
      ∀ path index, Path s.program f path index →
        ∀ Δ, Arrives s f path index Δ ↔ Δ = g.contexts index := by
  refine ⟨⟨fun ⟨g, hg⟩ => ?_, fun ⟨Γ, htyped⟩ => ?_⟩, fun g hg => ?_⟩
  · obtain ⟨rfl, hexplored⟩ := explored_ofFunction hg
    exact ⟨g.contexts, hexplored.typed⟩
  · obtain ⟨g, hg, -⟩ := htyped.exists_flow
    exact ⟨g, hg⟩
  · obtain ⟨rfl, hexplored⟩ := explored_ofFunction hg
    have htyped := hexplored.typed
    have hreached : ∀ index n, g.node? index = some n →
        ∃ path, Path s.program g.function path index := by
      obtain ⟨g', hg', hreached⟩ := htyped.exists_flow
      cases hg.symm.trans hg'
      exact hreached
    refine ⟨fun index => ⟨fun ⟨n, hn⟩ => hreached index n hn, fun ⟨path, hpath⟩ => ?_⟩, htyped,
      fun Γ hΓ index n hn => ?_, fun path index hpath Δ => ⟨htyped.eq_of_arrives, ?_⟩⟩
    · obtain ⟨n, hn, -⟩ := hexplored.exists_node hpath
      exact ⟨n, hn⟩
    · obtain ⟨path, hpath⟩ := hreached index n hn
      rw [← contexts_eq hn]
      exact htyped.eq_of_arrives (hΓ.arrives hpath)
    · rintro rfl
      exact htyped.arrives hpath

/-! ## A loop -/

/-- Goes round while a number is not zero. -/
def draining : Program where
  types := [{ id := ⟨0, ""⟩, generic := "felt252" },
    { id := ⟨1, ""⟩, generic := "NonZero", args := [.type ⟨0, ""⟩] }]
  libfuncs := [{ id := ⟨0, ""⟩, generic := "felt252_is_zero" },
    { id := ⟨1, ""⟩, generic := "unwrap_non_zero", args := [.type ⟨0, ""⟩] },
    { id := ⟨2, ""⟩, generic := "jump" }]
  statements := #[
    .invoke ⟨⟨0, ""⟩, [4], [⟨.next, []⟩, ⟨.statement 2, [7]⟩]⟩,
    .ret [],
    .invoke ⟨⟨1, ""⟩, [7], [⟨.next, [4]⟩]⟩,
    .invoke ⟨⟨2, ""⟩, [], [⟨.statement 0, []⟩]⟩]
  funcs := [{ id := ⟨0, ""⟩, params := [⟨4, ⟨0, ""⟩⟩], paramTypes := [⟨0, ""⟩], entry := 0 }]

def isLive (program : Program) (index : Int) (v : VarId) (type : Nat) : Bool :=
  match Settled.ofProgram program, program.funcs with
  | .ok s, [f] =>
    match ofFunction s f with
    | .ok g => g.contexts index v == some type
    | .error _ => false
  | _, _ => false

lemma exists_of_isLive {program : Program} {type : Nat}
    (h : isLive program index v type) : ∃ s f g, Settled.ofProgram program = .ok s ∧
      program.funcs = [f] ∧ ofFunction s f = .ok g ∧ g.contexts index v = some type := by
  unfold isLive at h
  split at h
  · next s f hs hf =>
    split at h
    · next g hg => exact ⟨s, f, g, hs, hf, hg, beq_iff_eq.1 h⟩
    · cases h
  · cases h

theorem draining_is_typed : ∃ s f g, Settled.ofProgram draining = .ok s ∧ draining.funcs = [f] ∧
    ofFunction s f = .ok g ∧ Typed s f g.contexts ∧ g.contexts 2 7 = some 1 ∧
    Path s.program f [1] 2 ∧ Path s.program f [1, 0, 0, 1] 2 ∧
    Arrives s f [1] 2 (g.contexts 2) ∧ Arrives s f [1, 0, 0, 1] 2 (g.contexts 2) := by
  obtain ⟨s, f, g, hs, hf, hg, hlive⟩ :=
    exists_of_isLive (show isLive draining 2 7 1 = true by decide +kernel)
  obtain ⟨-, htyping⟩ := flow_is_linear_typing s f
  obtain ⟨-, htyped, -, harrives⟩ := htyping g hg
  have hentry : f.entry = 0 := by
    obtain ⟨rfl, -⟩ := List.cons.inj hf
    rfl
  have hpath : Path s.program f [1] 2 ∧ Path s.program f [1, 0, 0, 1] 2 := by
    rw [(Settled.ofProgram_eq_ok hs).1]
    have hin : ∀ path, Path draining f path 0 → Path draining f (path ++ [1]) 2 :=
      fun _ hpath => Path.branch (b := ⟨.statement 2, [7]⟩) hpath rfl rfl
    have hunwrap : ∀ path, Path draining f path 2 → Path draining f (path ++ [0]) 3 :=
      fun _ hpath => Path.branch (b := ⟨.next, [4]⟩) hpath rfl rfl
    have hback : ∀ path, Path draining f path 3 → Path draining f (path ++ [0]) 0 :=
      fun _ hpath => Path.branch (b := ⟨.statement 0, []⟩) hpath rfl rfl
    have hfirst := hin [] (hentry ▸ .entry)
    exact ⟨hfirst, hin _ (hback _ (hunwrap _ hfirst))⟩
  exact ⟨s, f, g, hs, hf, hg, htyped, hlive, hpath.1, hpath.2,
    (harrives _ _ hpath.1 _).2 rfl, (harrives _ _ hpath.2 _).2 rfl⟩

end Flow

end Sierra
