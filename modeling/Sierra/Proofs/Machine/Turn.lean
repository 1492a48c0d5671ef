import Sierra.Proofs.Machine.Place
import Sierra.Proofs.Machine.Step

/-!
# The way of an activation

`turn` says whether a round leads to the next one or ends the run; more rounds do not change an
ending (`run_mono`). `Passes` notes the blocks entered with what their parameters receive. How a run
ends can be asked at any point (`Passes.ends_iff`).
-/

namespace Sierra.Machine

open Ir List

variable {σ : Type} {env : Env σ} {p : Program} {more : Nat} {t : Turn σ}
variable {regs : Array Image} {r : EStateM.Result Stop (World σ) (List Image)}
  {frame last next : Frame} {rest : List Op} {rounds : Nat} {between world world' : World σ}

section

variable {more : Nat}
  (hmono : ∀ {inner : Frame} {world : World σ} {r : EStateM.Result Stop (World σ) (List Image)},
    run env p rounds inner world = r → (∀ world', r ≠ .error .outOfRounds world') → run env p more inner world = r)

include hmono

lemma outcome_of_mono {func : Func} {depth : Nat} {op : Op}
    (h : outcome env p rounds func depth regs op world = r)
    (hr : ∀ world', r ≠ .error .outOfRounds world') :
    outcome env p more func depth regs op world = r := by
  unfold outcome at h ⊢
  split
  · next hcode =>
    rw [if_pos hcode] at h
    split at h
    · exact h
    split at h
    · exact h
    split at h
    · next stop between hrun =>
      -- the callee did not stop for want of rounds, or the caller would have
      have hstop : ∀ world', (.error stop between : EStateM.Result Stop (World σ)
          (List Image)) ≠ .error .outOfRounds world' := by
        intro world' heq
        injection heq with h₁ h₂
        exact hr between (by rw [← h, h₁]; rfl)
      rw [hmono hrun hstop]
      exact h
    · next out between hrun =>
      rw [hmono hrun fun _ heq => by simp at heq]
      exact h
  · next hcode =>
    rw [if_neg hcode] at h
    exact h

lemma turn_of_mono (h : turn env p rounds frame world = t)
    (ht : ∀ world', t ≠ .halt (.error .outOfRounds world')) : turn env p more frame world = t := by
  cases hops : frame.ops with
  | nil =>
    rw [turn_nil hops] at h ⊢
    exact h
  | cons op rest =>
    rw [turn_cons hops] at h ⊢
    have hout : outcome env p more frame.func frame.depth frame.regs op world =
        outcome env p rounds frame.func frame.depth frame.regs op world := by
      refine outcome_of_mono hmono rfl fun world' hr => ?_
      rw [hr] at h
      exact ht world' h.symm
    rw [hout]
    exact h

end

lemma run_succ (h : run env p rounds frame world = r)
    (hr : ∀ world', r ≠ .error .outOfRounds world') : run env p (rounds + 1) frame world = r := by
  induction rounds generalizing frame world r with
  | zero => exact absurd h.symm (hr world)
  | succ rounds ih =>
    rw [run_succ_eq] at h ⊢
    cases hturn : turn env p rounds frame world with
    | go next between =>
      rw [turn_of_mono ih hturn (by simp)]
      rw [hturn] at h
      exact ih h hr
    | halt result =>
      rw [hturn] at h
      subst h
      rw [turn_of_mono ih hturn fun world' heq => hr world' (Turn.halt.inj heq)]

lemma run_mono (h : run env p rounds frame world = r)
    (hr : ∀ world', r ≠ .error .outOfRounds world') (hle : rounds ≤ more) :
    run env p more frame world = r := by
  induction hle with
  | refl => exact h
  | step _ ih => exact run_succ ih hr

lemma turn_mono (h : turn env p rounds frame world = t)
    (ht : ∀ world', t ≠ .halt (.error .outOfRounds world')) (hle : rounds ≤ more) :
    turn env p more frame world = t :=
  turn_of_mono (fun hrun hr => run_mono hrun hr hle) h ht

lemma turn_unique {rounds' : Nat} {t' : Turn σ}
    (h : turn env p rounds frame world = t) (h' : turn env p rounds' frame world = t')
    (ht : ∀ world', t ≠ .halt (.error .outOfRounds world'))
    (ht' : ∀ world', t' ≠ .halt (.error .outOfRounds world')) : t = t' :=
  (turn_mono h ht (Nat.le_max_left rounds rounds')).symm.trans
    (turn_mono h' ht' (Nat.le_max_right rounds rounds'))

lemma func_of_turn (h : turn env p rounds frame world = .go next between) :
    next.func = frame.func ∧ next.depth = frame.depth := by
  cases step_of_turn h with
  | op _ _ | call _ _ _ _ _ => exact ⟨rfl, rfl⟩
  | jump hnext hjump =>
    obtain ⟨j, target, regs, -, -, -, rfl⟩ := jump?_eq_some_iff.1 hjump
    exact ⟨rfl, rfl⟩

/-! ## Ways -/

/-- A block that is entered: along which edge, and what its parameters receive. -/
structure Arrival where
  edge : Edge
  images : List Image

variable {trail : List Arrival}

def Frame.arrival (frame : Frame) (edge : Edge) : Arrival where
  edge := edge
  images := ((frame.func.block? edge.target).elim [] (·.params)).map (reg frame.regs)

/-- An activation comes to stand elsewhere, having entered some blocks on the way. -/
inductive Passes (env : Env σ) (p : Program) :
    Frame → World σ → List Arrival → Frame → World σ → Prop
  | here (frame : Frame) (world : World σ) : Passes env p frame world [] frame world
  | work {rounds : Nat} {frame next last : Frame} {world between world' : World σ}
      {trail : List Arrival} (hops : frame.ops ≠ [])
      (hturn : turn env p rounds frame world = .go next between)
      (hrest : Passes env p next between trail last world') :
      Passes env p frame world trail last world'
  | jump {rounds : Nat} {frame next last : Frame} {world between world' : World σ}
      {trail : List Arrival} {edge : Edge} (hops : frame.ops = [])
      (hnext : nextOf frame.func frame.regs frame.term = .jump edge)
      (hturn : turn env p rounds frame world = .go next between)
      (hrest : Passes env p next between trail last world') :
      Passes env p frame world (next.arrival edge :: trail) last world'

lemma Passes.trans {between : Frame} {world'' : World σ}
    {trail' : List Arrival} (h : Passes env p frame world trail between world')
    (h' : Passes env p between world' trail' last world'') :
    Passes env p frame world (trail ++ trail') last world'' := by
  induction h with
  | here => exact h'
  | work hops hturn _ ih => exact .work hops hturn (ih h')
  | jump hops hnext hturn _ ih => exact .jump hops hnext hturn (ih h')

lemma Passes.func (h : Passes env p frame world trail last world') :
    last.func = frame.func ∧ last.depth = frame.depth := by
  induction h with
  | here => exact ⟨rfl, rfl⟩
  | work _ hturn _ ih | jump _ _ hturn _ ih =>
    exact ⟨ih.1.trans (func_of_turn hturn).1, ih.2.trans (func_of_turn hturn).2⟩

def Ends (env : Env σ) (p : Program) (frame : Frame) (world : World σ)
    (r : EStateM.Result Stop (World σ) (List Image)) : Prop :=
  (∃ rounds, run env p rounds frame world = r) ∧ ∀ world', r ≠ .error .outOfRounds world'

def Halts (env : Env σ) (p : Program) (frame : Frame) (world : World σ)
    (r : EStateM.Result Stop (World σ) (List Image)) : Prop :=
  (∃ rounds, turn env p rounds frame world = .halt r) ∧ ∀ world', r ≠ .error .outOfRounds world'

lemma Halts.ends (h : Halts env p frame world r) : Ends env p frame world r := by
  obtain ⟨⟨rounds, hturn⟩, hr⟩ := h
  exact ⟨⟨rounds + 1, by rw [run_succ_eq, hturn]⟩, hr⟩

lemma ends_iff_of_turn (hturn : turn env p rounds frame world = .go next between) :
    Ends env p frame world r ↔ Ends env p next between r := by
  constructor
  · rintro ⟨⟨count, hrun⟩, hr⟩
    refine ⟨?_, hr⟩
    cases count with
    | zero => exact absurd hrun.symm (hr world)
    | succ count =>
      rw [run_succ_eq] at hrun
      have hwant : ∀ world', turn env p count frame world ≠ .halt (.error .outOfRounds world') := by
        intro world' h
        rw [h] at hrun
        exact hr world' hrun.symm
      rw [turn_unique rfl hturn hwant (fun world' h => by simp at h)] at hrun
      exact ⟨count, hrun⟩
  · rintro ⟨⟨count, hrun⟩, hr⟩
    refine ⟨⟨max rounds count + 1, ?_⟩, hr⟩
    rw [run_succ_eq, turn_mono hturn (fun world' h => by simp at h) (Nat.le_max_left rounds count)]
    exact run_mono hrun hr (Nat.le_max_right rounds count)

lemma Passes.ends_iff (h : Passes env p frame world trail last world') :
    Ends env p frame world r ↔ Ends env p last world' r := by
  induction h with
  | here => exact Iff.rfl
  | work _ hturn _ ih | jump _ _ hturn _ ih => exact (ends_iff_of_turn hturn).trans ih

lemma Ends.exists_halts (h : Ends env p frame world r) :
    ∃ trail last world', Passes env p frame world trail last world' ∧
      Halts env p last world' r := by
  obtain ⟨⟨rounds, hrun⟩, hr⟩ := h
  induction rounds generalizing frame world with
  | zero => exact absurd hrun.symm (hr world)
  | succ rounds ih =>
    rw [run_succ_eq] at hrun
    cases hturn : turn env p rounds frame world with
    | halt r' =>
      rw [hturn] at hrun
      obtain rfl : r' = r := hrun
      exact ⟨[], frame, world, .here _ _, ⟨rounds, hturn⟩, hr⟩
    | go next between =>
      rw [hturn] at hrun
      obtain ⟨trail, last, world', hpass, hhalts⟩ := ih hrun
      by_cases hops : frame.ops = []
      · obtain ⟨edge, hnext, -⟩ := exists_edge_of_turn hops hturn
        exact ⟨_, last, world', .jump hops hnext hturn hpass, hhalts⟩
      · exact ⟨trail, last, world', .work hops hturn hpass, hhalts⟩

/-! ## One way -/

lemma Halts.passes (h : Halts env p frame world r)
    (hpass : Passes env p frame world trail last world') :
    trail = [] ∧ last = frame ∧ world' = world := by
  obtain ⟨⟨rounds, hhalt⟩, hr⟩ := h
  have hgo : ∀ {rounds' : Nat} {next : Frame} {between : World σ},
      turn env p rounds' frame world ≠ .go next between := by
    intro rounds' next between hturn
    have hsame := turn_unique hhalt hturn (fun world' heq => hr world' (Turn.halt.inj heq))
      (fun world' => by simp)
    cases hsame
  cases hpass with
  | here => exact ⟨rfl, rfl, rfl⟩
  | work hops hturn _ | jump hops hnext hturn _ => exact absurd hturn hgo

lemma Passes.compare {a b : Frame} {wa wb : World σ} {ta tb : List Arrival}
    (ha : Passes env p frame world ta a wa) (hb : Passes env p frame world tb b wb) :
    (∃ rest, Passes env p a wa rest b wb ∧ tb = ta ++ rest) ∨
      ∃ rest, Passes env p b wb rest a wa ∧ ta = tb ++ rest := by
  induction ha generalizing tb with
  | here => exact .inl ⟨tb, hb, rfl⟩
  | @work rounds frame next a world between wa ta hops hturn hrest ih =>
    cases hb with
    | here => exact .inr ⟨ta, .work hops hturn hrest, rfl⟩
    | @work _ _ next' _ _ between' _ _ hops' hturn' hrest' =>
      obtain ⟨rfl, rfl⟩ : next = next' ∧ between = between' := by
        simpa using turn_unique hturn hturn' (fun _ => by simp) (fun _ => by simp)
      exact ih hrest'
    | jump hops' => exact absurd hops' hops
  | @jump rounds frame next a world between wa ta edge hops hnext hturn hrest ih =>
    cases hb with
    | here => exact .inr ⟨_, .jump hops hnext hturn hrest, rfl⟩
    | work hops' => exact absurd hops hops'
    | @jump _ _ next' _ _ between' _ _ edge' hops' hnext' hturn' hrest' =>
      obtain ⟨rfl, rfl⟩ : next = next' ∧ between = between' := by
        simpa using turn_unique hturn hturn' (fun _ => by simp) (fun _ => by simp)
      obtain rfl : edge = edge' := by simpa using hnext.symm.trans hnext'
      rcases ih hrest' with ⟨rest, hpass, htrail⟩ | ⟨rest, hpass, htrail⟩
      · exact .inl ⟨rest, hpass, by rw [htrail, cons_append]⟩
      · exact .inr ⟨rest, hpass, by rw [htrail, cons_append]⟩

lemma Passes.to_halt {a b : Frame} {wa wb : World σ} {ta tb : List Arrival}
    (ha : Passes env p frame world ta a wa) (hb : Passes env p frame world tb b wb)
    (hhalts : Halts env p b wb r) : ∃ rest, Passes env p a wa rest b wb ∧ tb = ta ++ rest := by
  rcases ha.compare hb with hrest | ⟨rest, hrest, rfl⟩
  · exact hrest
  · obtain ⟨rfl, rfl, rfl⟩ := hhalts.passes hrest
    exact ⟨[], .here _ _, by simp⟩

lemma Ends.unique {r' : EStateM.Result Stop (World σ) (List Image)} (h : Ends env p frame world r)
    (h' : Ends env p frame world r') : r = r' := by
  obtain ⟨⟨rounds, hrun⟩, hr⟩ := h
  obtain ⟨⟨rounds', hrun'⟩, hr'⟩ := h'
  exact (run_mono hrun hr (Nat.le_max_left rounds rounds')).symm.trans
    (run_mono hrun' hr' (Nat.le_max_right rounds rounds'))

lemma Passes.exists_first
    (h : Passes env p frame world trail last world') {P : Arrival → Prop} (hP : ∃ a ∈ trail, P a) :
    ∃ before edge rest mid next between, trail = before ++ next.arrival edge :: rest ∧
      (∀ a ∈ before, ¬ P a) ∧ P (next.arrival edge) ∧
      Passes env p frame world before mid between ∧ mid.ops = [] ∧
      nextOf mid.func mid.regs mid.term = .jump edge ∧ jump? mid edge = some next ∧
      Passes env p next { between with steps := between.steps + 1 } rest last world' := by
  induction h with
  | here => simp at hP
  | work hops hturn _ ih =>
    obtain ⟨before, edge, rest, mid, next, between, htrail, hpre, hfirst, hway, hmid⟩ := ih hP
    exact ⟨before, edge, rest, mid, next, between, htrail, hpre, hfirst, .work hops hturn hway,
      hmid⟩
  | @jump rounds frame next last world between world' trail edge hops hnext hturn hrest ih =>
    obtain ⟨edge', hnext', hjump, rfl⟩ := exists_edge_of_turn hops hturn
    obtain rfl : edge = edge' := by simpa using hnext.symm.trans hnext'
    by_cases hfirst : P (next.arrival edge)
    · exact ⟨[], edge, trail, frame, next, world, rfl, by simp, hfirst, .here _ _, hops, hnext, hjump,
        hrest⟩
    have hP : ∃ a ∈ trail, P a := by
      obtain ⟨a, ha, haP⟩ := hP
      rcases mem_cons.1 ha with rfl | ha
      · exact absurd haP hfirst
      · exact ⟨a, ha, haP⟩
    obtain ⟨before, edge', rest, mid, next', between, htrail, hpre, hfirst', hway, hmid⟩ := ih hP
    refine ⟨next.arrival edge :: before, edge', rest, mid, next', between, by
      rw [htrail, cons_append], fun a ha => ?_, hfirst', .jump hops hnext hturn hway, hmid⟩
    rcases mem_cons.1 ha with rfl | ha
    · exact hfirst
    · exact hpre a ha

/-! ## Ways through known code -/

lemma Passes.op {op : Op} {images : List Image}
    (hops : frame.ops = op :: rest) (hcall : op.code ≠ .call)
    (hout : opImages env p.module frame.func frame.regs op world = .ok images between)
    (hregs : assign? frame.regs (written op) images = some regs)
    (h : Passes env p { frame with regs := regs, ops := rest } between trail last world') :
    Passes env p frame world trail last world' := by
  refine .work (by rw [hops]; simp) (?_ : turn env p 0 _ _ = _) h
  rw [turn_cons hops, outcome, if_neg hcall, hout, writeImages, hregs]

lemma Passes.pure_op {op : Op} {v : ValueId} {image : Image} (hops : frame.ops = op :: rest)
    (hpure : isPure op.code) (hres : op.results = [v])
    (himg : pureResult frame.func frame.regs op = .ok image)
    (h : Passes env p { frame with regs := setReg frame.regs v image, ops := rest } world trail last
      world') : Passes env p frame world trail last world' := by
  refine .op hops (fun hcall => ?_) ((opImages_pure_eq_ok_iff hpure).2 ⟨rfl, image, rfl, himg⟩) ?_ h
  · rw [hcall] at hpure
    exact absurd hpure (by decide)
  · have hwritten : written op = [v] := by
      unfold written
      cases hcode : op.code <;> simp_all [isPure]
    rw [hwritten, assign?_cons, assign?_nil]

lemma Passes.along {edge : Edge} (hops : frame.ops = [])
    (hnext : nextOf frame.func frame.regs frame.term = .jump edge)
    (hjump : jump? frame edge = some next)
    (h : Passes env p next { world with steps := world.steps + 1 } trail last world') :
    Passes env p frame world (next.arrival edge :: trail) last world' := by
  refine .jump hops hnext (?_ : turn env p 0 _ _ = _) h
  rw [turn_nil hops, hnext]
  dsimp only
  rw [hjump]

end Sierra.Machine
