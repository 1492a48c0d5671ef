import Sierra.Proofs.Machine.Turn

/-!
# Runs that go abreast

Two activations go abreast when their next rounds are alike: both end, both go on, or both call
functions with related activations. The first may also do a round that leaves the world alone.
Unless it slips, both runs end alike (`both_end`).
-/

namespace Sierra.Machine

open Ir

variable {σ : Type} {env : Env σ} {p p' : Program} {world' : World σ} {last : Frame}
variable {frame inner next : Frame} {rest : List Op} {rounds : Nat} {op : Op}
  {between world : World σ}

/-- The activation is about to call a function that starts with `inner`. -/
structure Calls (env : Env σ) (p : Program) (frame : Frame) (op : Op) (rest : List Op)
    (inner : Frame) : Prop where
  ops : frame.ops = op :: rest
  code : op.code = .call
  enters : ∃ callee, p.func? op.callee = some callee ∧
    enter env callee (op.args.map (reg frame.regs)) (frame.depth + 1) = .ok inner

/-- How a call goes on once the function it runs has ended. -/
def resume (frame : Frame) (op : Op) (rest : List Op) :
    EStateM.Result Stop (World σ) (List Image) → Turn σ
  | .error stop world => .halt (.error (stop.through frame.func.name) world)
  | .ok out world =>
    match assign? frame.regs op.results out with
    | some regs => .go { frame with regs := regs, ops := rest } world
    | none => .halt (.error (.error (.crash none)) world)

lemma turn_call (hops : frame.ops = op :: rest)
    (hcode : op.code = .call) (rounds : Nat) (world : World σ) :
    turn env p rounds frame world =
      match p.func? op.callee with
      | none => .halt (.error (.error (.crash none)) world)
      | some callee =>
        match enter env callee (op.args.map (reg frame.regs)) (frame.depth + 1) with
        | .error stop => .halt (.error (stop.through frame.func.name) world)
        | .ok inner => resume frame op rest (run env p rounds inner world) := by
  rw [turn_cons hops, outcome, if_pos hcode, show written op = op.results by simp [written, hcode]]
  cases p.func? op.callee with
  | none => rfl
  | some callee =>
    dsimp only
    cases enter env callee (op.args.map (reg frame.regs)) (frame.depth + 1) with
    | error stop => rfl
    | ok inner =>
      dsimp only
      cases run env p rounds inner world with
      | error stop between => rfl
      | ok out between =>
        dsimp only [writeImages, resume]
        cases assign? frame.regs op.results out <;> rfl

section

variable (h : Calls env p frame op rest inner)
include h

lemma Calls.turn_eq (rounds : Nat) (world : World σ) :
    turn env p rounds frame world = resume frame op rest (run env p rounds inner world) := by
  obtain ⟨callee, hcallee, henter⟩ := h.enters
  rw [turn_call h.ops h.code, hcallee]
  dsimp only
  rw [henter]

lemma Calls.run_ne_outOfRounds {r : EStateM.Result Stop (World σ) (List Image)}
    (hrun : run env p (rounds + 1) frame world = r) (hr : ∀ world', r ≠ .error .outOfRounds world')
    (world' : World σ) : run env p rounds inner world ≠ .error .outOfRounds world' := by
  intro hinner
  refine hr world' ?_
  rw [← hrun, run_succ_eq, h.turn_eq, hinner]
  rfl

lemma Calls.visits
    (hrest : Visits env p inner world last world') : Visits env p frame world last world' := by
  obtain ⟨func, regs, ops, term, depth⟩ := frame
  obtain ⟨callee, hcallee, henter⟩ := h.enters
  obtain rfl : ops = op :: rest := h.ops
  exact .enter h.code hcallee henter hrest

end

/-! ## Failing on the way -/

/-- A stop seen through callers, the outermost first. -/
def Stop.throughAll (callers : List String) (stop : Stop) : Stop :=
  callers.foldr Stop.through stop

lemma execOp_ne_outOfRounds {m : Module} {f : Func} {regs : Array Image}
    : execOp env m f regs op world ≠ .error .outOfRounds world' := by
  have hheap : ∀ {α : Type} (step : Heap.Action α) (finish : α → Array Image),
      onHeap step finish world ≠ .error .outOfRounds world' := by
    intro α step finish
    unfold onHeap
    dsimp only
    split <;> simp
  have hpure : pureResult f regs op ≠ .error .outOfRounds := by
    unfold pureResult
    cases op.code <;> dsimp only <;> (repeat' split) <;> simp
  unfold execOp
  cases op.code with
  | alloc => exact hheap _ _
  | realloc => exact hheap _ _
  | load => exact hheap _ _
  | store => exact hheap _ _
  | memcpy => exact hheap _ _
  | runtimeCall =>
    unfold callHost
    dsimp only
    repeat' split
    all_goals simp
  | _ =>
    split
    · simp
    · next stop hstop =>
      intro h
      injection h with h₁ h₂
      exact hpure (by rw [hstop, h₁])

lemma Visits.ends_of_error {after : World σ}
    {stop : Stop} (h : Visits env p frame world last between)
    (hops : last.ops = op :: rest) (hcode : op.code ≠ .call)
    (hexec : execOp env p.module last.func last.regs op between = .error stop after) :
    ∃ callers, Ends env p frame world (.error (stop.throughAll callers) after) := by
  induction h with
  | here last between =>
    have hturn : turn env p 0 last between = .halt (.error stop after) := by
      rw [turn_cons hops, outcome, if_neg hcode, ← execOp_eq_written hcode, hexec]
    refine ⟨[], Halts.ends ⟨⟨0, hturn⟩, fun world' heq => ?_⟩⟩
    injection heq with h₁ h₂
    rw [show stop = .outOfRounds from h₁] at hexec
    exact execOp_ne_outOfRounds hexec
  | step hstep _ ih =>
    obtain ⟨callers, hends⟩ := ih hops hexec
    exact ⟨callers, (ends_iff_of_turn (turn_of_step hstep)).2 hends⟩
  | @enter func callee regs call rest' term depth inner _ world _ hcall hcallee henter _ ih =>
    obtain ⟨callers, ⟨rounds, hrun⟩, hr⟩ := ih hops hexec
    have hcalls : Calls env p ⟨func, regs, call :: rest', term, depth⟩ call rest' inner :=
      ⟨rfl, hcall, callee, hcallee, henter⟩
    have hturn := hcalls.turn_eq rounds world
    rw [hrun] at hturn
    refine ⟨func.name :: callers, Halts.ends ⟨⟨rounds, hturn⟩, fun world' heq => ?_⟩⟩
    injection heq with h₁ h₂
    have hstop : stop.throughAll callers = .outOfRounds := Stop.through_eq_outOfRounds.1 h₁
    exact hr after (by rw [hstop])

/-! ## Going abreast -/

/-- Both end the run alike or go on with related activations in one world. -/
inductive Turn.Alike (R : Frame → Frame → Prop) : Turn σ → Turn σ → Prop
  | halt (r : EStateM.Result Stop (World σ) (List Image)) : Alike R (.halt r) (.halt r)
  | go {next next' : Frame} (hnext : R next next') (world : World σ) :
      Alike R (.go next world) (.go next' world)

/-- The next rounds of two activations are alike, or the first has one of its own. -/
inductive Abreast (env : Env σ) (p p' : Program) (R : Frame → Frame → Prop) (fr fr' : Frame)
    (world : World σ) : Prop
  | alone {next : Frame} (hturn : ∀ rounds, turn env p rounds fr world = .go next world)
      (hnext : R next fr') (hless : next.ops.length < fr.ops.length)
  | both (h : ∀ rounds, (turn env p rounds fr world).Alike R (turn env p' rounds fr' world))
  | calls {op : Op} {rest rest' : List Op} {inner inner' : Frame}
      (hcalls : Calls env p fr op rest inner) (hcalls' : Calls env p' fr' op rest' inner')
      (hinner : R inner inner')
      (hafter : ∀ r : EStateM.Result Stop (World σ) (List Image),
        (resume fr op rest r).Alike R (resume fr' op rest' r))

def ComesTo (env : Env σ) (p : Program) (Slips : Frame → World σ → Prop) (frame : Frame)
    (world : World σ) : Prop :=
  ∃ last between, Visits env p frame world last between ∧ Slips last between

variable {R : Frame → Frame → Prop} {Slips : Frame → World σ → Prop} {fr fr' : Frame}
  {world : World σ} {r : EStateM.Result Stop (World σ) (List Image)}

lemma ComesTo.of_turn (hturn : turn env p rounds fr world = .go next between)
    (h : ComesTo env p Slips next between) : ComesTo env p Slips fr world := by
  obtain ⟨last, world', hvisit, hslips⟩ := h
  exact ⟨last, world', .step (step_of_turn hturn) hvisit, hslips⟩

lemma ComesTo.of_call
    (hcalls : Calls env p fr op rest inner) (h : ComesTo env p Slips inner world) :
    ComesTo env p Slips fr world := by
  obtain ⟨last, world', hvisit, hslips⟩ := h
  exact ⟨last, world', hcalls.visits hvisit, hslips⟩

lemma ends_of_turn {t : Turn σ} (hturn : turn env p rounds fr world = t)
    (hr : ∀ world', r ≠ .error .outOfRounds world')
    (h : match t with | .go next between => Ends env p next between r | .halt r' => r' = r) :
    Ends env p fr world r := by
  cases t with
  | go next between => exact (ends_iff_of_turn hturn).2 h
  | halt r' =>
    subst h
    exact (Halts.ends ⟨⟨rounds, hturn⟩, hr⟩)

section

variable (hR : ∀ fr fr' world, R fr fr' → Slips fr world ∨ Abreast env p p' R fr fr' world)
  (hrel : R fr fr')

include hR hrel

lemma both_end (hr : ∀ world', r ≠ .error .outOfRounds world')
    (hrun : run env p rounds fr world = r ∨ run env p' rounds fr' world = r) :
    ComesTo env p Slips fr world ∨ Ends env p fr world r ∧ Ends env p' fr' world r := by
  induction rounds generalizing fr fr' world r with
  | zero => exact absurd (hrun.elim Eq.symm Eq.symm) (hr world)
  | succ rounds ih =>
    -- rounds that the first does alone shorten what is left of its block
    induction hlen : fr.ops.length using Nat.strongRecOn generalizing fr with
    | _ length ih' =>
    rcases hR fr fr' world hrel with hslips | habreast
    · exact .inl ⟨fr, world, .here _ _, hslips⟩
    -- what alike rounds say, whatever the numbers of rounds that calls inside them take
    have halike : ∀ {k k' : Nat} {t t' : Turn σ}, turn env p k fr world = t →
        turn env p' k' fr' world = t' → t.Alike R t' →
        k = rounds ∧ run env p (rounds + 1) fr world = r ∨
          k' = rounds ∧ run env p' (rounds + 1) fr' world = r →
        ComesTo env p Slips fr world ∨ Ends env p fr world r ∧ Ends env p' fr' world r := by
      intro k k' t t' hturn hturn' halike hside
      cases halike with
      | halt r' =>
        have hsame : r' = r := by
          rcases hside with ⟨rfl, h⟩ | ⟨rfl, h⟩
          · rwa [run_succ_eq, hturn] at h
          · rwa [run_succ_eq, hturn'] at h
        exact .inr ⟨ends_of_turn hturn hr hsame, ends_of_turn hturn' hr hsame⟩
      | @go next next' hnext between =>
        have hrest : run env p rounds next between = r ∨ run env p' rounds next' between = r := by
          rcases hside with ⟨rfl, h⟩ | ⟨rfl, h⟩
          · exact .inl (by rwa [run_succ_eq, hturn] at h)
          · exact .inr (by rwa [run_succ_eq, hturn'] at h)
        exact (ih hnext hr hrest).imp (·.of_turn hturn) fun hends =>
          ⟨ends_of_turn hturn hr hends.1, ends_of_turn hturn' hr hends.2⟩
    cases habreast with
    | @alone next hturn hnext hless =>
      have hends : ComesTo env p Slips next world ∨
          Ends env p next world r ∧ Ends env p' fr' world r := by
        rcases hrun with hrun | hrun
        · rw [run_succ_eq, hturn rounds] at hrun
          exact ih hnext hr (.inl hrun)
        · exact ih' _ (hlen ▸ hless) hnext (.inr hrun) rfl
      exact hends.imp (·.of_turn (hturn 0)) fun hends =>
        ⟨ends_of_turn (hturn 0) hr hends.1, hends.2⟩
    | both h => exact halike rfl rfl (h rounds) (hrun.imp (⟨rfl, ·⟩) (⟨rfl, ·⟩))
    | @calls op rest rest' inner inner' hcalls hcalls' hinner hafter =>
      have hturn := fun k => hcalls.turn_eq k world
      have hturn' := fun k => hcalls'.turn_eq k world
      rcases hrun with hrun | hrun
      · rcases ih hinner (hcalls.run_ne_outOfRounds hrun hr) (.inl rfl) with
          hslips | ⟨-, ⟨count, hcount⟩, -⟩
        · exact .inl (hslips.of_call hcalls)
        · exact halike (hturn rounds) (hturn' count) (hcount ▸ hafter _) (.inl ⟨rfl, hrun⟩)
      · rcases ih hinner (hcalls'.run_ne_outOfRounds hrun hr) (.inr rfl) with
          hslips | ⟨⟨⟨count, hcount⟩, -⟩, -⟩
        · exact .inl (hslips.of_call hcalls)
        · exact halike (hturn count) (hturn' rounds) (hcount ▸ hafter _) (.inr ⟨rfl, hrun⟩)

end

/-! ## Calls -/

/-- The activation that a call starts with, or why it has none. -/
def start (env : Env σ) (p : Program) (name : String) (args : List Image) : Except Stop Frame :=
  match p.func? name with
  | none => .error (.error (.report .unexpectedValue ("jit: no function " ++ Text.quote name) none))
  | some f =>
    match callFault? f args with
    | some fault => .error (.error fault)
    | none => enter env f ((args.zip f.params).map fun (image, t) => Image.normalize t image) 0

def CallEnds (env : Env σ) (p : Program) (name : String) (args : List Image) (world : World σ)
    (r : EStateM.Result Stop (World σ) (List Image)) : Prop :=
  match start env p name args with
  | .error stop => r = .error stop world
  | .ok frame => Ends env p frame world r

end Sierra.Machine
