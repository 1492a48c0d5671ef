import Sierra.Flow
import Sierra.Proofs.Loops

/-!
# What the flow of variables promises

The graph holds the entry and what branches go to, and a branch leaves exactly the variables that
its target expects. The walk keeps this for the statements it has visited (`Walk.Good`).
-/

namespace Sierra

open List Option Except

variable {call : Invocation} {libfunc : LibfuncId} {remaining : Vars} {number : Nat} {p : Program}
  {n' : Node}

lemma Ident.same_self (a : Ident) : a.same a = true := beq_self_eq_true a.number

lemma Vars.same_iff {vars other : Vars} : vars.same other ↔
    Forall₂ (fun x y => x.1 = y.1 ∧ x.2.number = y.2.number) vars other := by
  rw [forall₂_iff_zip]
  simp [same, Ident.same]

lemma Vars.same_self (vars : Vars) : vars.same vars :=
  same_iff.2 (forall₂_same.2 fun _ _ => ⟨rfl, rfl⟩)

def TakesOne {α : Type} (key : α → VarId × TypeId) (step : Vars → α → Except Failure Vars) : Prop :=
  ∀ vars a left, step vars a = .ok left ↔ ∃ t, vars.find? (key a).1 = some t ∧
    t.same (key a).2 = true ∧ left = vars.erase (key a).1

def BringsOne {α : Type} (key : α → VarId × TypeId) (step : Vars → α → Except Failure Vars) : Prop :=
  ∀ vars a next, step vars a = .ok next ↔
    vars.find? (key a).1 = none ∧ next = vars.insert (key a).1 (key a).2

namespace Flow

variable {s : Settled} {f : Function} {e : Edge} {g : Flow} {index t : Int} {i : Nat} {n : Node}
  {v : VarId} {next vars : Vars} {w w' : Walk}

lemma takeOne_eq_ok {left : Vars} {wanted : TypeId} {mismatch : TypeId → FlowFault} :
    (match vars.find? v with
      | none => fail f index (.missingVariable v)
      | some t => if t.same wanted then .ok (vars.erase v) else fail f index (mismatch t) :
      Except Failure Vars) = .ok left ↔
    ∃ t, vars.find? v = some t ∧ t.same wanted ∧ left = vars.erase v := by
  cases hv : vars.find? v with
  | none => simp [fail]
  | some t =>
    by_cases hsame : t.same wanted
    · simp only [hsame, if_true, ok.injEq, some.injEq, exists_eq_left', true_and]
      exact eq_comm
    · simp [hsame, fail]

lemma bringOne_eq_ok {t : TypeId} :
    (if (vars.find? v).isSome then fail f index (.variableOverride v) else .ok (vars.insert v t) :
      Except Failure Vars) = .ok next ↔ vars.find? v = none ∧ next = vars.insert v t := by
  cases hv : vars.find? v with
  | none =>
    simp only [isSome_none, Bool.false_eq_true, if_false, ok.injEq, true_and]
    exact eq_comm
  | some t => simp [fail]

/-- An invocation takes its arguments away; its branches leave what is known where they go. -/
structure Invokes (s : Settled) (f : Function) (stateAt : Nat → Option Vars) (n : Node)
    (call : Invocation) (lib : Libfunc) : Prop where
  found : s.libfunc call.libfunc = .ok lib
  libfunc : n.libfunc = some lib
  args : call.args.length = lib.params.length
  branches : call.branches.length = lib.branches.length
  taken : takeArgs f n.index call.libfunc n.state (call.args.zip lib.params) = .ok n.remaining
  edges : n.edges = (call.branches.zip lib.branches).map fun (b, sig) =>
    ⟨b.target.resolve n.index, b.results, sig.vars⟩
  arrives : ∀ e ∈ n.edges, e.results.length = e.types.length ∧
    (s.program.statement? e.target).isSome = true ∧
    ∃ next known, bringResults f n.index n.remaining (e.results.zip e.types) = .ok next ∧
      stateAt e.target.toNat = some known ∧ known.same next = true

structure Returns (f : Function) (n : Node) (vars : List VarId) : Prop where
  libfunc : n.libfunc = none
  edges : n.edges = []
  checked : checkReturn f n.index n.state vars = .ok ()

/-- What a statement does, by the variables known before each. -/
def Does (s : Settled) (f : Function) (stateAt : Nat → Option Vars) (n : Node) : Prop :=
  match n.statement with
  | .ret vars => Returns f n vars
  | .invoke call => ∃ lib, Invokes s f stateAt n call lib

structure Visited (s : Settled) (f : Function) (stateAt : Nat → Option Vars) (i : Nat) (n : Node) :
    Prop where
  index : n.index = i
  state : stateAt i = some n.state
  statement : s.program.statement? i = some n.statement
  does : Does s f stateAt n

lemma Visited.invokes {stateAt : Nat → Option Vars} (h : Visited s f stateAt i n)
    (hn : n.statement = .invoke call) : ∃ lib, Invokes s f stateAt n call lib := by
  have hdoes := h.does
  rwa [Does, hn] at hdoes

lemma Visited.returns {stateAt : Nat → Option Vars} (h : Visited s f stateAt i n)
    {vars : List VarId} (hn : n.statement = .ret vars) : Returns f n vars := by
  have hdoes := h.does
  rwa [Does, hn] at hdoes

lemma Visited.mono {stateAt stateAt' : Nat → Option Vars} (h : Visited s f stateAt i n)
    (hmono : ∀ i vars, stateAt i = some vars → stateAt' i = some vars) :
    Visited s f stateAt' i n := by
  refine ⟨h.index, hmono i _ h.state, h.statement, ?_⟩
  unfold Does
  cases hn : n.statement with
  | ret vars => exact h.returns hn
  | invoke call =>
    obtain ⟨lib, hinv⟩ := h.invokes hn
    refine ⟨lib, { hinv with arrives := fun e he => ?_ }⟩
    obtain ⟨hlen, htarget, next, known, hnext, hknown, hsame⟩ := hinv.arrives e he
    exact ⟨hlen, htarget, next, known, hnext, hmono _ _ hknown, hsame⟩

/-! ## One branch -/

def Walk.stateAt (w : Walk) (i : Nat) : Option Vars := (w.states[i]?).getD none

/-- The variables brought are those known there, or become known and are to be visited. -/
structure Walk.Brings (w : Walk) (target : Int) (next : Vars) (w' : Walk) : Prop where
  nodes : w'.nodes = w.nodes
  cases : (∃ known, w.stateAt target.toNat = some known ∧ known.same next = true ∧
      w'.states = w.states ∧ w'.work = w.work) ∨
    (w.stateAt target.toNat = none ∧
      w'.states = w.states.modify target.toNat (fun _ => some next) ∧ w'.work = target :: w.work)

lemma followBranch_eq_ok {branch : Branch} {signature : BranchSignature}
    (h : followBranch p f index libfunc remaining number branch signature w = .ok (e, w')) :
    e = ⟨branch.target.resolve index, branch.results, signature.vars⟩ ∧
      branch.results.length = signature.vars.length ∧
      (p.statement? e.target).isSome ∧
      ∃ next, bringResults f index remaining (branch.results.zip signature.vars) = .ok next ∧
        w.Brings e.target next w' := by
  unfold followBranch at h
  by_cases hlen : branch.results.length ≠ signature.vars.length
  · rw [if_pos hlen] at h
    cases h
  rw [if_neg hlen] at h
  obtain ⟨next, hnext, h⟩ := except_bind_eq_ok.1 h
  by_cases hmissing : (p.statement? (branch.target.resolve index)).isNone
  · rw [if_pos hmissing] at h
    cases h
  rw [if_neg hmissing] at h
  have hthere : (p.statement? (branch.target.resolve index)).isSome := by
    simpa [isSome_iff_ne_none] using hmissing
  dsimp only [bind, bind] at h
  split at h
  · next known hknown =>
    split at h
    · next hsame =>
      cases h
      exact ⟨rfl, by omega, hthere, next, hnext, rfl, .inl ⟨known, hknown, hsame, rfl, rfl⟩⟩
    · cases h
  · next hknown =>
    cases h
    exact ⟨rfl, by omega, hthere, next, hnext, rfl, .inr ⟨hknown, rfl, rfl⟩⟩

lemma statement?_isSome_iff :
    (p.statement? t).isSome ↔ 0 ≤ t ∧ t.toNat < p.statements.size := by
  unfold Program.statement?
  split
  · refine ⟨fun h => absurd h (by simp), fun h => ?_⟩
    omega
  · rw [isSome_getElem?]
    constructor
    · intro h
      exact ⟨by omega, h⟩
    · exact fun h => h.2

def Walk.unseen (w : Walk) : Nat := w.states.countP Option.isNone

namespace Walk.Brings

variable {w w' : Walk} {target : Int} {next : Vars} (h : w.Brings target next w')

include h

lemma size : w'.states.size = w.states.size := by
  rcases h.cases with ⟨known, -, -, hstates, -⟩ | ⟨-, hstates, -⟩
  · rw [hstates]
  · rw [hstates, Array.size_modify]

lemma mono (hi : w.stateAt i = some vars) : w'.stateAt i = some vars := by
  rcases h.cases with ⟨known, -, -, hstates, -⟩ | ⟨hnone, hstates, -⟩
  · rw [stateAt, hstates]
    exact hi
  · have hne : target.toNat ≠ i := by
      rintro rfl
      cases hnone.symm.trans hi
    rw [stateAt, hstates, Array.getElem?_modify, if_neg hne]
    exact hi

lemma arrives (hrange : target.toNat < w.states.size) :
    ∃ known, w'.stateAt target.toNat = some known ∧ known.same next := by
  rcases h.cases with ⟨known, hknown, hsame, -⟩ | ⟨-, hstates, -⟩
  · exact ⟨known, h.mono hknown, hsame⟩
  · refine ⟨next, ?_, next.same_self⟩
    rw [stateAt, hstates, Array.getElem?_modify, if_pos rfl, Array.getElem?_eq_getElem hrange]
    rfl

lemma work (hi : (w'.stateAt i).isSome)
    (htarget : 0 ≤ target) : (w.stateAt i).isSome ∨ (i : Int) ∈ w'.work := by
  rcases h.cases with ⟨known, -, -, hstates, -⟩ | ⟨-, hstates, hwork⟩
  · rw [stateAt, hstates] at hi
    exact .inl hi
  · rw [stateAt, hstates, Array.getElem?_modify] at hi
    split at hi
    · have hcast : (i : Int) = target := by omega
      exact .inr (by simp [hwork, hcast])
    · exact .inl hi

lemma mem_work (ht : t ∈ w'.work) : t ∈ w.work ∨ t = target := by
  rcases h.cases with ⟨known, -, -, -, hwork⟩ | ⟨-, -, hwork⟩
  · rw [hwork] at ht
    exact .inl ht
  · rw [hwork, mem_cons] at ht
    exact ht.symm

lemma work_subset (ht : t ∈ w.work) : t ∈ w'.work := by
  rcases h.cases with ⟨known, -, -, -, hwork⟩ | ⟨-, -, hwork⟩
  · rw [hwork]
    exact ht
  · rw [hwork]
    exact mem_cons_of_mem _ ht

lemma measure (hrange : target.toNat < w.states.size) :
    w'.unseen + w'.work.length = w.unseen + w.work.length := by
  rcases h.cases with ⟨known, -, -, hstates, hwork⟩ | ⟨hnone, hstates, hwork⟩
  · rw [unseen, unseen, hstates, hwork]
  have hset : w.states.modify target.toNat (fun _ => some next) =
      w.states.set target.toNat (some next) hrange := by
    ext1
    · simp
    · next i hi hi' => simp [Array.getElem_modify, Array.getElem_set]
  have hold : (w.states[target.toNat]).isNone := by
    rw [stateAt, Array.getElem?_eq_getElem hrange] at hnone
    rw [isNone_iff_eq_none]
    exact hnone
  have hpos : 0 < w.states.countP isNone :=
    Array.countP_pos_iff.2 ⟨_, Array.getElem_mem hrange, hold⟩
  rw [unseen, unseen, hstates, hwork, hset, Array.countP_set hrange, if_pos hold]
  simp
  omega

end Walk.Brings

/-! ## The walk -/

/-- The promises hold of what has been visited, and `waiting` is still to visit. -/
structure Walk.Good (s : Settled) (f : Function) (w : Walk) (waiting : List Int) : Prop where
  nodesSize : w.nodes.size = s.program.statements.size
  statesSize : w.states.size = s.program.statements.size
  visited : ∀ (i : Nat) (n : Node), w.nodes[i]? = some (some n) → Visited s f w.stateAt i n
  known : ∀ i : Nat, (w.stateAt i).isSome = true →
    (∃ n, w.nodes[i]? = some (some n)) ∨ (i : Int) ∈ waiting
  waiting : ∀ t ∈ waiting, (s.program.statement? t).isSome = true →
    (w.stateAt t.toNat).isSome = true

lemma Walk.Good.brings {current target : Int}
    (h : w.Good s f (current :: w.work)) (hbrings : w.Brings target next w')
    (htarget : (s.program.statement? target).isSome) : w'.Good s f (current :: w'.work) := by
  obtain ⟨hpos, hrange⟩ := statement?_isSome_iff.1 htarget
  rw [← h.statesSize] at hrange
  refine ⟨hbrings.nodes ▸ h.nodesSize, hbrings.size.trans h.statesSize, fun i n hn => ?_,
    fun i hi => ?_, fun t ht hthere => ?_⟩
  · rw [hbrings.nodes] at hn
    exact (h.visited i n hn).mono fun i vars => hbrings.mono
  · rw [hbrings.nodes]
    rcases hbrings.work hi hpos with hold | hnew
    · rcases h.known i hold with hn | hwait
      · exact .inl hn
      · rcases mem_cons.1 hwait with heq | hwork
        · exact .inr (heq ▸ mem_cons_self)
        · exact .inr (mem_cons_of_mem _ (hbrings.work_subset hwork))
    · exact .inr (mem_cons_of_mem _ hnew)
  · have hold : t = target ∨ t ∈ current :: w.work := by
      rcases mem_cons.1 ht with rfl | hwork
      · exact .inr mem_cons_self
      · rcases hbrings.mem_work hwork with hold | rfl
        · exact .inr (mem_cons_of_mem _ hold)
        · exact .inl rfl
    rcases hold with rfl | hold
    · obtain ⟨known, hknown, -⟩ := hbrings.arrives hrange
      rw [hknown]
      rfl
    · obtain ⟨vars, hvars⟩ := isSome_iff_exists.1 (h.waiting t hold hthere)
      rw [hbrings.mono hvars]
      rfl

lemma followBranches_eq_ok {branches : List (Branch × BranchSignature)} {es : List Edge}
    (h : followBranches s.program f index libfunc remaining number branches w = .ok (es, w'))
    (hgood : w.Good s f (index :: w.work)) :
    w'.Good s f (index :: w'.work) ∧ w'.nodes = w.nodes ∧
      (∀ i vars, w.stateAt i = some vars → w'.stateAt i = some vars) ∧
      w'.unseen + w'.work.length = w.unseen + w.work.length ∧
      es = branches.map (fun (b, sig) => ⟨b.target.resolve index, b.results, sig.vars⟩) ∧
      ∀ e ∈ es, e.results.length = e.types.length ∧
        (s.program.statement? e.target).isSome ∧
        ∃ next known, bringResults f index remaining (e.results.zip e.types) = .ok next ∧
          w'.stateAt e.target.toNat = some known ∧ known.same next := by
  induction branches generalizing number w es with
  | nil =>
    cases h
    exact ⟨hgood, rfl, fun _ _ h => h, rfl, rfl, by simp⟩
  | cons entry branches ih =>
    obtain ⟨⟨e, between⟩, hfirst, h⟩ := except_bind_eq_ok.1 h
    obtain ⟨⟨es', last⟩, hrest, h⟩ := except_bind_eq_ok.1 h
    cases h
    obtain ⟨he, hlen, htarget, next, hnext, hbrings⟩ := followBranch_eq_ok hfirst
    have hrange : e.target.toNat < w.states.size := by
      rw [hgood.statesSize]
      exact (statement?_isSome_iff.1 htarget).2
    obtain ⟨hgood', hnodes, hmono, hmeas, hes, harrives⟩ :=
      ih hrest (hgood.brings hbrings htarget)
    refine ⟨hgood', hnodes.trans hbrings.nodes, fun i vars hi => hmono i vars (hbrings.mono hi),
      hmeas.trans (hbrings.measure hrange), by rw [hes, he, map_cons], ?_⟩
    intro e' he'
    rcases mem_cons.1 he' with rfl | he'
    · obtain ⟨known, hknown, hsame⟩ := hbrings.arrives hrange
      subst he
      exact ⟨hlen, htarget, next, known, hnext, hmono _ _ hknown, hsame⟩
    · exact harrives e' he'

lemma Walk.Good.note (h : w.Good s f (index :: w.work))
    (hn : Visited s f w.stateAt index.toNat n) (hpos : 0 ≤ index) :
    Walk.Good s f { w with nodes := w.nodes.modify index.toNat fun _ => some n } w.work := by
  have hlt : index.toNat < w.nodes.size := by
    have hthere : (s.program.statement? (index.toNat : Int)).isSome := by
      rw [hn.statement]
      rfl
    rw [h.nodesSize]
    exact (statement?_isSome_iff.1 hthere).2
  refine ⟨by rw [Array.size_modify]; exact h.nodesSize, h.statesSize, fun i m hm => ?_,
    fun i hi => ?_, fun t ht => h.waiting t (mem_cons_of_mem _ ht)⟩
  · rw [Array.getElem?_modify] at hm
    split at hm
    · next heq =>
      subst heq
      rw [Array.getElem?_eq_getElem hlt] at hm
      have hnm : n = m := by simpa using hm
      exact hnm ▸ hn
    · exact h.visited i m hm
  · by_cases heq : index.toNat = i
    · refine .inl ⟨n, ?_⟩
      rw [Array.getElem?_modify, if_pos heq, ← heq, Array.getElem?_eq_getElem hlt]
      rfl
    · rcases h.known i hi with ⟨m, hm⟩ | hwait
      · exact .inl ⟨m, by rw [Array.getElem?_modify, if_neg heq]; exact hm⟩
      · rcases mem_cons.1 hwait with hcast | hwork
        · omega
        · exact .inr hwork

lemma visit_eq_ok (h : visit s f index w = .ok w') (hgood : w.Good s f (index :: w.work)) :
    w'.Good s f w'.work ∧ (∀ i vars, w.stateAt i = some vars → w'.stateAt i = some vars) ∧
      w'.unseen + w'.work.length = w.unseen + w.work.length := by
  unfold visit at h
  cases hstmt : s.program.statement? index with
  | none =>
    rw [hstmt] at h
    cases h
  | some statement =>
    have hthere : (s.program.statement? index).isSome := by
      rw [hstmt]
      rfl
    obtain ⟨hpos, -⟩ := statement?_isSome_iff.1 hthere
    have hcast : ((index.toNat : Nat) : Int) = index := Int.toNat_of_nonneg hpos
    obtain ⟨state, hstate⟩ := isSome_iff_exists.1 (hgood.waiting index mem_cons_self hthere)
    have hread : ((w.states[index.toNat]?).getD none).getD [] = state := by
      rw [show (w.states[index.toNat]?).getD none = some state from hstate]
      rfl
    rw [hstmt] at h
    cases statement with
    | ret vars =>
      simp only [hread] at h
      obtain ⟨_, hcheck, h⟩ := except_bind_eq_ok.1 h
      cases h
      refine ⟨hgood.note ⟨hcast.symm, hstate, hcast ▸ hstmt, ?_⟩ hpos, fun _ _ h => h, rfl⟩
      exact ⟨rfl, rfl, hcheck⟩
    | invoke call =>
      simp only [hread] at h
      obtain ⟨⟨node, between⟩, hvisit, h⟩ := except_bind_eq_ok.1 h
      cases h
      obtain ⟨lib, hlib, hvisit⟩ := except_bind_eq_ok.1 hvisit
      by_cases hargs : call.args.length ≠ lib.params.length
      · rw [if_pos hargs] at hvisit
        cases hvisit
      rw [if_neg hargs] at hvisit
      by_cases hbranches : call.branches.length ≠ lib.branches.length
      · rw [if_pos hbranches] at hvisit
        cases hvisit
      rw [if_neg hbranches] at hvisit
      obtain ⟨remaining, htaken, hvisit⟩ := except_bind_eq_ok.1 hvisit
      obtain ⟨⟨es, last⟩, hfollow, hvisit⟩ := except_bind_eq_ok.1 hvisit
      cases hvisit
      obtain ⟨hgood', hnodes, hmono, hmeas, hes, harrives⟩ := followBranches_eq_ok hfollow hgood
      refine ⟨hgood'.note ⟨hcast.symm, hmono _ _ hstate, hcast ▸ hstmt, ?_⟩ hpos, hmono, hmeas⟩
      exact ⟨lib, hlib, rfl, by omega, by omega, htaken, hes, harrives⟩

lemma explore_eq_ok (fuel : Nat) (h : explore s f fuel w = .ok w')
    (hgood : w.Good s f w.work) (hfuel : w.unseen + w.work.length ≤ fuel) :
    w'.Good s f [] ∧ ∀ i vars, w.stateAt i = some vars → w'.stateAt i = some vars := by
  induction fuel generalizing w with
  | zero =>
    obtain rfl := ok.inj h
    have hwork : w.work = [] := length_eq_zero_iff.1 (by omega)
    rw [hwork] at hgood
    exact ⟨hgood, fun _ _ h => h⟩
  | succ fuel ih =>
    rw [explore] at h
    cases hwork : w.work with
    | nil =>
      rw [hwork] at h hgood
      cases h
      exact ⟨hgood, fun _ _ h => h⟩
    | cons index rest =>
      rw [hwork] at h hgood
      obtain ⟨between, hvisit, h⟩ := except_bind_eq_ok.1 h
      obtain ⟨hbetween, hmono, hmeas⟩ := visit_eq_ok hvisit
        ⟨hgood.nodesSize, hgood.statesSize, hgood.visited, hgood.known, hgood.waiting⟩
      have hunseen : Walk.unseen { w with work := rest } = w.unseen := rfl
      rw [hwork, length_cons] at hfuel
      dsimp only at hmeas
      obtain ⟨hgood', hmono'⟩ := ih h hbetween (by omega)
      exact ⟨hgood', fun i vars hi => hmono' i vars (hmono i vars hi)⟩

/-! ## The whole graph -/

def stateAt (g : Flow) (i : Nat) : Option Vars := ((g.nodes[i]?).getD none).map (·.state)

structure Explored (s : Settled) (g : Flow) : Prop where
  size : g.nodes.size = s.program.statements.size
  entry : ∃ n, g.node? g.function.entry = some n ∧ initial g.function = .ok n.state
  visited : ∀ (i : Nat) (n : Node), g.nodes[i]? = some (some n) →
    Visited s g.function g.stateAt i n

lemma node?_eq_some_iff : g.node? t = some n ↔ ∃ i : Nat, t = i ∧ g.nodes[i]? = some (some n) := by
  unfold node?
  constructor
  · intro h
    split at h
    · cases h
    · refine ⟨t.toNat, by omega, ?_⟩
      cases hn : g.nodes[t.toNat]? with
      | none => simp [hn] at h
      | some node =>
        rw [hn] at h
        exact congrArg some h
  · rintro ⟨i, rfl, hi⟩
    rw [Int.toNat_natCast, hi]
    rfl

lemma Explored.visited_of_node? (h : g.Explored s)
    (hn : g.node? t = some n) : Visited s g.function g.stateAt t.toNat n ∧ n.index = t := by
  obtain ⟨i, rfl, hi⟩ := node?_eq_some_iff.1 hn
  have hvisited := h.visited i n hi
  exact ⟨by rw [Int.toNat_natCast]; exact hvisited, hvisited.index⟩

lemma Explored.statement?_eq (h : g.Explored s)
    (hn : g.node? t = some n) : s.program.statement? t = some n.statement := by
  obtain ⟨i, rfl, hi⟩ := node?_eq_some_iff.1 hn
  exact (h.visited i n hi).statement

lemma Explored.libfunc_eq (h : g.Explored s)
    (hn : g.node? t = some n) (hstmt : n.statement = .invoke call)
    {lib : Libfunc} : s.libfunc call.libfunc = .ok lib ↔ n.libfunc = some lib := by
  obtain ⟨lib', hinv⟩ := (h.visited_of_node? hn).1.invokes hstmt
  rw [hinv.found, hinv.libfunc, ok.injEq, some.injEq]

lemma stateAt_start {size : Nat} {entry : Int} (i : Nat) :
    (Walk.start size entry vars).stateAt i =
      if entry.toNat = i ∧ i < size then some vars else none := by
  simp only [Walk.stateAt, Walk.start, Array.getElem?_modify, Array.getElem?_replicate]
  by_cases heq : entry.toNat = i <;> by_cases hlt : i < size <;> simp [heq, hlt]

lemma good_start (hpos : 0 ≤ f.entry) :
    Walk.Good s f (Walk.start s.program.statements.size f.entry vars) [f.entry] := by
  refine ⟨by simp [Walk.start], by simp [Walk.start], fun i n hn => ?_, fun i hi => ?_,
    fun t ht hthere => ?_⟩
  · simp only [Walk.start, Array.getElem?_replicate] at hn
    split at hn <;> cases hn
  · rw [stateAt_start] at hi
    split at hi
    · refine .inr (mem_singleton.2 ?_)
      omega
    · cases hi
  · obtain rfl := mem_singleton.1 ht
    rw [stateAt_start, if_pos ⟨rfl, (statement?_isSome_iff.1 hthere).2⟩]
    rfl

lemma explored_ofFunction (h : ofFunction s f = .ok g) : g.function = f ∧ g.Explored s := by
  obtain ⟨vars, hinit, h⟩ := except_bind_eq_ok.1 h
  obtain ⟨w, hexplore, h⟩ := except_bind_eq_ok.1 h
  cases h
  -- the entry is a statement of the program, or the first visit would have failed
  have hentry : (s.program.statement? f.entry).isSome := by
    cases hmissing : s.program.statement? f.entry with
    | some _ => rfl
    | none => simp [explore, Walk.start, visit, hmissing, fail, bind, Except.bind] at hexplore
  obtain ⟨hpos, hrange⟩ := statement?_isSome_iff.1 hentry
  have hfuel : (Walk.start s.program.statements.size f.entry vars).unseen + 1 ≤
      s.program.statements.size + 1 := by
    have hle : (Walk.start s.program.statements.size f.entry vars).states.countP
        isNone ≤ _ := Array.countP_le_size
    simpa [Walk.start, Walk.unseen] using hle
  obtain ⟨hgood, hmono⟩ := explore_eq_ok _ hexplore (good_start hpos) hfuel
  -- nothing is left to visit, so what is known is known of a statement of the graph
  have hstate : ∀ i vars, w.stateAt i = some vars →
      Flow.stateAt ⟨f, w.nodes, w.preds⟩ i = some vars := by
    intro i vars hi
    rcases hgood.known i (by rw [hi]; rfl) with ⟨n, hn⟩ | hwait
    · have hsame := (hgood.visited i n hn).state
      rw [hi] at hsame
      simpa [Flow.stateAt, hn] using hsame.symm
    · cases hwait
  refine ⟨rfl, hgood.nodesSize, ?_, fun i n hn => (hgood.visited i n hn).mono hstate⟩
  have hknown : w.stateAt f.entry.toNat = some vars :=
    hmono _ _ (by rw [stateAt_start, if_pos ⟨rfl, hrange⟩])
  rcases hgood.known f.entry.toNat (by rw [hknown]; rfl) with ⟨n, hn⟩ | hwait
  · refine ⟨n, node?_eq_some_iff.2 ⟨f.entry.toNat, (Int.toNat_of_nonneg hpos).symm, hn⟩, ?_⟩
    have hsame := (hgood.visited _ n hn).state
    rw [hknown, some.injEq] at hsame
    rw [← hsame]
    exact hinit
  · cases hwait

/-! ## The statements of a graph -/

section

variable {g : Flow}

lemma mem_order_iff : n ∈ g.order ↔ ∃ i : Nat, g.nodes[i]? = some (some n) := by
  rw [order, mem_filterMap]
  constructor
  · rintro ⟨entry, hentry, rfl⟩
    obtain ⟨i, hi⟩ := mem_iff_getElem?.1 hentry
    exact ⟨i, by rw [← Array.getElem?_toList]; exact hi⟩
  · rintro ⟨i, hi⟩
    exact ⟨some n, Array.mem_toList_iff.2 (Array.mem_of_getElem? hi), rfl⟩

lemma Explored.node?_index (h : g.Explored s) (hn : n ∈ g.order) : g.node? n.index = some n := by
  obtain ⟨i, hi⟩ := mem_order_iff.1 hn
  exact node?_eq_some_iff.2 ⟨i, (h.visited i n hi).index, hi⟩

lemma mem_order_of_node? (hn : g.node? t = some n) : n ∈ g.order := by
  obtain ⟨i, -, hi⟩ := node?_eq_some_iff.1 hn
  exact mem_order_iff.2 ⟨i, hi⟩

section

variable (h : g.Explored s)

include h

lemma Explored.index_nonneg (hn : n ∈ g.order) : 0 ≤ n.index ∧ n.index.toNat < g.nodes.size := by
  obtain ⟨i, hi⟩ := mem_order_iff.1 hn
  rw [(h.visited i n hi).index]
  obtain ⟨hlt, -⟩ := Array.getElem?_eq_some_iff.1 hi
  exact ⟨by omega, by simpa using hlt⟩

lemma Explored.eq_of_index (hn : n ∈ g.order)
    (hn' : n' ∈ g.order) (hidx : n.index = n'.index) : n = n' := by
  have hnode := h.node?_index hn
  rw [hidx, h.node?_index hn'] at hnode
  exact (some.inj hnode).symm

lemma Explored.nodup_index : (g.order.map (·.index)).Nodup := by
  rw [order, map_filterMap, List.Nodup, pairwise_filterMap, pairwise_iff_getElem]
  intro i j hi hj hlt a ha b hb
  obtain ⟨n, hn, rfl⟩ := map_eq_some_iff.1 ha
  obtain ⟨m, hm, rfl⟩ := map_eq_some_iff.1 hb
  have hget : ∀ {k : Nat} {n : Node} (hk : k < g.nodes.toList.length),
      id g.nodes.toList[k] = some n → g.nodes[k]? = some (some n) := by
    intro k n hk hn
    rw [← Array.getElem?_toList, getElem?_eq_getElem hk]
    exact congrArg some hn
  rw [(h.visited i n (hget hi hn)).index, (h.visited j m (hget hj hm)).index]
  omega

lemma Explored.invokes_of_edge (hn : n ∈ g.order) (he : e ∈ n.edges) :
    ∃ call lib, n.statement = .invoke call ∧ Invokes s g.function g.stateAt n call lib := by
  obtain ⟨i, hi⟩ := mem_order_iff.1 hn
  cases hstmt : n.statement with
  | ret vars =>
    rw [((h.visited i n hi).returns hstmt).edges] at he
    cases he
  | invoke call =>
    obtain ⟨lib, hinv⟩ := (h.visited i n hi).invokes hstmt
    exact ⟨call, lib, rfl, hinv⟩

lemma Explored.exists_target (hn : n ∈ g.order)
    (he : e ∈ n.edges) : ∃ m ∈ g.order, m.index = e.target := by
  obtain ⟨call, lib, -, hinv⟩ := h.invokes_of_edge hn he
  obtain ⟨-, htarget, next, known, -, hknown, -⟩ := hinv.arrives e he
  obtain ⟨hpos, -⟩ := statement?_isSome_iff.1 htarget
  obtain ⟨m, hm, -⟩ := map_eq_some_iff.1 hknown
  cases hget : g.nodes[e.target.toNat]? with
  | none => simp [hget] at hm
  | some found =>
    rw [hget] at hm
    subst hm
    refine ⟨m, mem_order_iff.2 ⟨_, hget⟩, ?_⟩
    rw [(h.visited _ m hget).index]
    omega

lemma Explored.agree {g' : Flow} (h' : g'.Explored s)
    (hn : n ∈ g.order) (hn' : n' ∈ g'.order) (hidx : n.index = n'.index) :
    n.statement = n'.statement ∧ n.libfunc = n'.libfunc ∧ n.edges = n'.edges := by
  obtain ⟨i, hi⟩ := mem_order_iff.1 hn
  obtain ⟨j, hj⟩ := mem_order_iff.1 hn'
  have hvisited := h.visited i n hi
  have hvisited' := h'.visited j n' hj
  have hplace : i = j := by
    have hcast := hvisited.index.symm.trans (hidx.trans hvisited'.index)
    omega
  have hstmt : n.statement = n'.statement := by
    have hsame := hvisited.statement
    rw [hplace, hvisited'.statement] at hsame
    exact (some.inj hsame).symm
  refine ⟨hstmt, ?_⟩
  cases hn : n.statement with
  | ret vars =>
    have hret := hvisited.returns hn
    have hret' := hvisited'.returns (hstmt.symm.trans hn)
    exact ⟨hret.libfunc.trans hret'.libfunc.symm, hret.edges.trans hret'.edges.symm⟩
  | invoke call =>
    obtain ⟨lib, hinv⟩ := hvisited.invokes hn
    obtain ⟨lib', hinv'⟩ := hvisited'.invokes (hstmt.symm.trans hn)
    have hlib : lib = lib' := by
      have hfound := hinv.found
      rw [hinv'.found] at hfound
      exact (ok.inj hfound).symm
    subst hlib
    exact ⟨hinv.libfunc.trans hinv'.libfunc.symm, by
      rw [hinv.edges, hinv'.edges, hidx]⟩

end

end

end Flow

end Sierra
