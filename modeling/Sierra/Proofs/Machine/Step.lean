import Sierra.Proofs.Machine.Exec

/-!
# Rounds of the machine

`Step` relates an activation to itself one round later, a call being one round of the caller. A run
that goes through is a chain of steps ended by a return (`run_eq_ok_cases`). `Visits` holds of all
activations that a run passes; it can only be lost in one whose next round has no answer
(`exists_crashes_of_run`).
-/

namespace Sierra.Machine

open Ir

variable {σ : Type} {text : Option String} {caller : String} {stop : Stop}
variable {env : Env σ} {p : Program} {frame next : Frame} {rest : List Op} {rounds : Nat}
  {between world world' : World σ}

/-! ## One round -/

/-- The images of the results of an operation; a call takes at most `rounds` rounds. -/
def outcome (env : Env σ) (p : Program) (rounds : Nat) (func : Func) (depth : Nat)
    (regs : Array Image) (op : Op) : Exec σ (List Image) := fun world =>
  if op.code = .call then
    match p.func? op.callee with
    | none => .error (.error (.crash none)) world
    | some callee =>
      match enter env callee (op.args.map (reg regs)) (depth + 1) with
      | .error stop => .error (stop.through func.name) world
      | .ok inner =>
        match run env p rounds inner world with
        | .error stop world => .error (stop.through func.name) world
        | .ok out world => .ok out world
  else opImages env p.module func regs op world

inductive Turn (σ : Type) where
  | go (frame : Frame) (world : World σ)
  | halt (result : EStateM.Result Stop (World σ) (List Image))

/-- One round of an activation; calls inside it take at most `rounds` rounds. -/
def turn (env : Env σ) (p : Program) (rounds : Nat) (frame : Frame) (world : World σ) : Turn σ :=
  match frame.ops with
  | [] =>
    match nextOf frame.func frame.regs frame.term with
    | .done values => .halt (.ok values world)
    | .stop stop => .halt (.error stop world)
    | .jump edge =>
      match jump? frame edge with
      | some next => .go next { world with steps := world.steps + 1 }
      | none => .halt (.error (.error (.crash none)) world)
  | op :: rest =>
    match writeImages frame.regs (written op)
        (outcome env p rounds frame.func frame.depth frame.regs op world) with
    | .ok regs world => .go { frame with regs := regs, ops := rest } world
    | .error stop world => .halt (.error stop world)

lemma turn_nil (hops : frame.ops = []) (world : World σ) :
    turn env p rounds frame world =
      match nextOf frame.func frame.regs frame.term with
      | .done values => .halt (.ok values world)
      | .stop stop => .halt (.error stop world)
      | .jump edge =>
        match jump? frame edge with
        | some next => .go next { world with steps := world.steps + 1 }
        | none => .halt (.error (.error (.crash none)) world) := by
  rw [turn, hops]

lemma turn_cons {op : Op} (hops : frame.ops = op :: rest) (world : World σ) :
    turn env p rounds frame world =
      match writeImages frame.regs (written op)
          (outcome env p rounds frame.func frame.depth frame.regs op world) with
      | .ok regs world => .go { frame with regs := regs, ops := rest } world
      | .error stop world => .halt (.error stop world) := by
  rw [turn, hops]

lemma run_succ_eq (rounds : Nat) (frame : Frame) (world : World σ) :
    run env p (rounds + 1) frame world =
      match turn env p rounds frame world with
      | .go next between => run env p rounds next between
      | .halt r => r := by
  obtain ⟨func, regs, ops, term, depth⟩ := frame
  cases ops with
  | nil =>
    rw [run, turn]
    cases nextOf func regs term with
    | done values => rfl
    | stop stop => rfl
    | jump edge =>
      dsimp only
      cases jump? ⟨func, regs, [], term, depth⟩ edge <;> rfl
  | cons op rest =>
    rw [run, turn]
    dsimp only
    by_cases hcode : op.code = .call
    · rw [if_pos hcode, outcome, if_pos hcode,
        show written op = op.results by simp [written, hcode]]
      cases p.func? op.callee with
      | none => rfl
      | some callee =>
        dsimp only
        cases enter env callee (op.args.map (reg regs)) (depth + 1) with
        | error stop => rfl
        | ok inner =>
          dsimp only
          cases run env p rounds inner world with
          | error stop world => rfl
          | ok out world =>
            dsimp only [writeImages]
            cases assign? regs op.results out <;> rfl
    · rw [if_neg hcode, outcome, if_neg hcode, execOp_eq_written hcode]
      cases writeImages regs (written op) (opImages env p.module func regs op world) <;> rfl

lemma exists_edge_of_turn
    (hops : frame.ops = []) (hturn : turn env p rounds frame world = .go next between) :
    ∃ edge, nextOf frame.func frame.regs frame.term = .jump edge ∧ jump? frame edge = some next ∧
      between = { world with steps := world.steps + 1 } := by
  rw [turn_nil hops] at hturn
  split at hturn
  · cases hturn
  · cases hturn
  · next edge hnext =>
    split at hturn
    · next next' hjump =>
      injection hturn with h₁ h₂
      exact ⟨edge, hnext, by rw [hjump, h₁], h₂.symm⟩
    · cases hturn

/-! ## Steps -/

inductive Step (env : Env σ) (p : Program) (rounds : Nat) :
    Frame → World σ → Frame → World σ → Prop
  | op {func : Func} {regs regs' : Array Image} {op : Op} {rest : List Op} {term : Terminator}
      {depth : Nat} {world world' : World σ} (hcode : op.code ≠ .call)
      (hexec : execOp env p.module func regs op world = .ok regs' world') :
      Step env p rounds ⟨func, regs, op :: rest, term, depth⟩ world
        ⟨func, regs', rest, term, depth⟩ world'
  | call {func callee : Func} {regs regs' : Array Image} {op : Op} {rest : List Op}
      {term : Terminator} {depth : Nat} {world world' : World σ} {inner : Frame}
      {out : List Image} (hcode : op.code = .call) (hcallee : p.func? op.callee = some callee)
      (henter : enter env callee (op.args.map (reg regs)) (depth + 1) = .ok inner)
      (hrun : run env p rounds inner world = .ok out world')
      (hassign : assign? regs op.results out = some regs') :
      Step env p rounds ⟨func, regs, op :: rest, term, depth⟩ world
        ⟨func, regs', rest, term, depth⟩ world'
  | jump {func : Func} {regs : Array Image} {term : Terminator} {depth : Nat} {world : World σ}
      {edge : Edge} {frame : Frame} (hnext : nextOf func regs term = .jump edge)
      (hjump : jump? ⟨func, regs, [], term, depth⟩ edge = some frame) :
      Step env p rounds ⟨func, regs, [], term, depth⟩ world frame
        { world with steps := world.steps + 1 }

lemma step_of_turn (h : turn env p rounds frame world = .go next between) :
    Step env p rounds frame world next between := by
  cases hops : frame.ops with
  | nil =>
    obtain ⟨edge, hnext, hjump, rfl⟩ := exists_edge_of_turn hops h
    obtain ⟨func, regs, ops, term, depth⟩ := frame
    obtain rfl : ops = [] := hops
    exact .jump hnext hjump
  | cons op rest =>
    rw [turn_cons hops] at h
    obtain ⟨func, regs, ops, term, depth⟩ := frame
    obtain rfl : ops = op :: rest := hops
    split at h
    · next regs' world' hwrite =>
      injection h with h₁ h₂
      subst h₁ h₂
      by_cases hcode : op.code = .call
      · obtain ⟨images, hout, hset⟩ := writeImages_eq_ok_iff.1 hwrite
        rw [show written op = op.results by simp [written, hcode]] at hset
        unfold outcome at hout
        rw [if_pos hcode] at hout
        split at hout
        · cases hout
        next callee hcall =>
        split at hout
        · cases hout
        next inner henter =>
        split at hout
        · cases hout
        · next hrun =>
          injection hout with h₁ h₂
          rw [h₁, h₂] at hrun
          exact .call hcode hcall henter hrun hset
      · unfold outcome at hwrite
        rw [if_neg hcode, ← execOp_eq_written hcode] at hwrite
        exact .op hcode hwrite
    · cases h

lemma turn_of_step (h : Step env p rounds frame world next between) :
    turn env p rounds frame world = .go next between := by
  cases h with
  | op hcode hexec => rw [turn_cons rfl, outcome, if_neg hcode, ← execOp_eq_written hcode, hexec]
  | @call func callee regs regs' op rest term depth _ _ inner out hcode hcall henter hrun
      hset =>
    rw [turn_cons rfl, outcome, if_pos hcode, hcall,
      show written op = op.results by simp [written, hcode]]
    dsimp only
    rw [henter]
    dsimp only
    rw [hrun]
    dsimp only [writeImages]
    rw [hset]
  | jump hnext hjump =>
    rw [turn_nil rfl, hnext]
    dsimp only
    rw [hjump]

lemma Step.run_eq {frame' : Frame} (h : Step env p rounds frame world frame' world') :
    run env p (rounds + 1) frame world = run env p rounds frame' world' := by
  rw [run_succ_eq, turn_of_step h]

lemma run_eq_ok_cases {values : List Image}
    (h : run env p (rounds + 1) frame world = .ok values world') :
    (frame.ops = [] ∧ nextOf frame.func frame.regs frame.term = .done values ∧ world = world') ∨
      ∃ next between, Step env p rounds frame world next between ∧
        run env p rounds next between = .ok values world' := by
  rw [run_succ_eq] at h
  split at h
  · next next between hturn => exact .inr ⟨next, between, step_of_turn hturn, h⟩
  next hturn =>
  subst h
  cases hops : frame.ops with
  | nil =>
    rw [turn_nil hops] at hturn
    split at hturn
    · next hnext =>
      cases hturn
      exact .inl ⟨rfl, hnext, rfl⟩
    · cases hturn
    · split at hturn <;> cases hturn
  | cons op rest =>
    rw [turn_cons hops] at hturn
    split at hturn <;> cases hturn

lemma Stop.through_eq_outOfRounds : stop.through caller = .outOfRounds ↔ stop = .outOfRounds := by
  cases stop <;> simp [Stop.through]

/-! ## The course of a run -/

/-- The second activation comes about in the course of the first. -/
inductive Visits (env : Env σ) (p : Program) : Frame → World σ → Frame → World σ → Prop
  | here (frame : Frame) (world : World σ) : Visits env p frame world frame world
  | step {rounds : Nat} {frame next last : Frame} {world between world' : World σ}
      (hstep : Step env p rounds frame world next between)
      (hrest : Visits env p next between last world') : Visits env p frame world last world'
  | enter {func callee : Func} {regs : Array Image} {op : Op} {rest : List Op}
      {term : Terminator} {depth : Nat} {inner last : Frame} {world world' : World σ}
      (hcode : op.code = .call) (hcallee : p.func? op.callee = some callee)
      (henter : Machine.enter env callee (op.args.map (reg regs)) (depth + 1) = .ok inner)
      (hrest : Visits env p inner world last world') :
      Visits env p ⟨func, regs, op :: rest, term, depth⟩ world last world'

inductive Crashes (env : Env σ) (p : Program) : Frame → World σ → Prop
  | op {func : Func} {regs : Array Image} {op : Op} {rest : List Op} {term : Terminator}
      {depth : Nat} {world world' : World σ} {text : Option String} (hcode : op.code ≠ .call)
      (hexec : execOp env p.module func regs op world = .error (.error (.crash text)) world') :
      Crashes env p ⟨func, regs, op :: rest, term, depth⟩ world
  | callee {func : Func} {regs : Array Image} {op : Op} {rest : List Op} {term : Terminator}
      {depth : Nat} {world : World σ} (hcode : op.code = .call)
      (hcallee : p.func? op.callee = none) :
      Crashes env p ⟨func, regs, op :: rest, term, depth⟩ world
  | enter {func callee : Func} {regs : Array Image} {op : Op} {rest : List Op}
      {term : Terminator} {depth : Nat} {world : World σ} {text : Option String}
      (hcode : op.code = .call) (hcallee : p.func? op.callee = some callee)
      (henter : Machine.enter env callee (op.args.map (reg regs)) (depth + 1) =
        .error (.error (.crash text))) :
      Crashes env p ⟨func, regs, op :: rest, term, depth⟩ world
  | results {func callee : Func} {regs : Array Image} {op : Op} {rest : List Op}
      {term : Terminator} {depth rounds : Nat} {inner : Frame} {world world' : World σ}
      {out : List Image} (hcode : op.code = .call) (hcallee : p.func? op.callee = some callee)
      (henter : Machine.enter env callee (op.args.map (reg regs)) (depth + 1) = .ok inner)
      (hrun : run env p rounds inner world = .ok out world')
      (hassign : assign? regs op.results out = none) :
      Crashes env p ⟨func, regs, op :: rest, term, depth⟩ world
  | term {func : Func} {regs : Array Image} {term : Terminator} {depth : Nat} {world : World σ}
      {text : Option String} (hnext : nextOf func regs term = .stop (.error (.crash text))) :
      Crashes env p ⟨func, regs, [], term, depth⟩ world
  | jump {func : Func} {regs : Array Image} {term : Terminator} {depth : Nat} {world : World σ}
      {edge : Edge} (hnext : nextOf func regs term = .jump edge)
      (hjump : jump? ⟨func, regs, [], term, depth⟩ edge = none) :
      Crashes env p ⟨func, regs, [], term, depth⟩ world

lemma Stop.through_eq_crash :
    stop.through caller = .error (.crash text) ↔ stop = .error (.crash text) := by
  cases stop <;> simp [Stop.through]

lemma exists_crashes_of_run
    (h : run env p rounds frame world = .error (.error (.crash text)) world') :
    ∃ last between, Visits env p frame world last between ∧ Crashes env p last between := by
  induction rounds generalizing frame world with
  | zero => cases h
  | succ rounds ih =>
    rw [run_succ_eq] at h
    split at h
    · next next between hturn =>
      obtain ⟨last, at_, hvisit, hcrash⟩ := ih h
      exact ⟨last, at_, .step (step_of_turn hturn) hvisit, hcrash⟩
    next hturn =>
    subst h
    obtain ⟨func, regs, ops, term, depth⟩ := frame
    cases ops with
    | nil =>
      rw [turn_nil rfl] at hturn
      split at hturn
      · cases hturn
      · next hnext =>
        cases hturn
        exact ⟨_, _, .here _ _, .term hnext⟩
      next edge hnext =>
      split at hturn
      · cases hturn
      · next hjump => exact ⟨_, _, .here _ _, .jump hnext hjump⟩
    | cons op rest =>
      rw [turn_cons rfl] at hturn
      split at hturn
      · cases hturn
      next hwrite =>
      cases hturn
      unfold outcome at hwrite
      by_cases hcode : op.code = .call
      · rw [if_pos hcode] at hwrite
        split at hwrite
        · next hcall => exact ⟨_, _, .here _ _, .callee hcode hcall⟩
        next callee hcall =>
        split at hwrite
        · next stop henter =>
          injection hwrite with h₁ h₂
          rw [Stop.through_eq_crash] at h₁
          exact ⟨_, _, .here _ _, .enter hcode hcall (henter.trans (by rw [h₁]))⟩
        next inner henter =>
        split at hwrite
        · next stop between hrun =>
          injection hwrite with h₁ h₂
          rw [Stop.through_eq_crash] at h₁
          obtain ⟨last, at_, hvisit, hcrash⟩ := ih (hrun.trans (by rw [h₁, h₂]))
          exact ⟨last, at_, .enter hcode hcall henter hvisit, hcrash⟩
        · next out between hrun =>
          cases hset : assign? regs op.results out with
          | none => exact ⟨_, _, .here _ _, .results hcode hcall henter hrun hset⟩
          | some regs' => simp [writeImages, written, hcode, hset] at hwrite
      · rw [if_neg hcode, ← execOp_eq_written hcode] at hwrite
        exact ⟨_, _, .here _ _, .op hcode hwrite⟩

end Sierra.Machine
