import Sierra.Proofs.Lower.Step

/-!
# Lowered functions follow their statements

Every run of the stepping rule is a way of the machine (`Realized.follows`), and every way of the
machine is one of those (`Realized.exists_follows`). What the pieces of invocations do is left open,
as long as they are fragments.
-/

namespace Sierra.Lower

open List
open Ir Machine

variable {σ : Type} {env : Env σ} {mp : Machine.Program} {p : Plan} {limit depth : Nat} {f : Func}
  {code : Int → Piece} {n : Flow.Node} {b : Ir.Block}

lemma Realized.follows (h : Realized p limit f code) {x y : State σ}
    {frame : Frame} {path : List (Nat × State σ)} (hstands : Stands p limit f depth x n b frame)
    (hfollow : Follows p.settled p.gas (conduct env mp f depth code) x path y) :
    ∃ trail last m c, Passes env mp frame x.world trail last y.world ∧
      p.visits trail = path.map (·.2.visit) ∧ Stands p limit f depth y m c last := by
  induction hfollow generalizing n b frame with
  | here x => exact ⟨[], frame, n, b, .here _ _, rfl, hstands⟩
  | step hmoves _ ih =>
    obtain ⟨trail, next, m, c, hpass, hvisits, hnext⟩ := h.moves hstands hmoves
    obtain ⟨trail', last, m', c', hpass', hvisits', hlast⟩ := ih hnext
    refine ⟨trail ++ trail', last, m', c', hpass.trans hpass', ?_, hlast⟩
    rw [Plan.visits_append, hvisits, hvisits']
    rfl

lemma Realized.exists_follows (h : Realized p limit f code) {x : State σ} {frame last : Frame}
    (hstands : Stands p limit f depth x n b frame) {trail : List Arrival} {world : World σ}
    (hpass : Passes env mp frame x.world trail last world) :
    ∃ path y before after mid m c,
      Follows p.settled p.gas (conduct env mp f depth code) x path y ∧ trail = before ++ after ∧
      p.visits before = path.map (·.2.visit) ∧ Passes env mp frame x.world before mid y.world ∧
      Stands p limit f depth y m c mid ∧ p.Quiet after ∧
      Passes env mp mid y.world after last world := by
  -- the first move takes a part of the trail, so the rest of the way is shorter
  induction hlen : trail.length using Nat.strong_induction_on generalizing x n b frame trail with
  | _ count ih =>
    by_cases hquiet : p.Quiet trail
    · exact ⟨[], x, [], trail, frame, n, b, .here x, rfl, rfl, .here _ _, hstands, hquiet, hpass⟩
    obtain ⟨branch, z, first, later, next, m, c, hmoves, rfl, hvisits, hfirst, hnext, hlater⟩ :=
      h.exists_moves hstands hpass hquiet
    have hshorter : later.length < count := by
      have hne : first ≠ [] := by
        rintro rfl
        cases hvisits
      have hpos := length_pos_iff.2 hne
      rw [length_append] at hlen
      omega
    obtain ⟨path, y, before, after, mid, m', c', hfollow, rfl, hvisits', hpre, hmid, hquiet',
      hafter⟩ := ih later.length hshorter hnext hlater rfl
    refine ⟨(branch, z) :: path, y, first ++ before, after, mid, m', c', .step hmoves hfollow,
      by rw [append_assoc], ?_, hfirst.trans hpre, hmid, hquiet', hafter⟩
    rw [Plan.visits_append, hvisits, hvisits']
    rfl

/-- The activations of a function take the way that the stepping rule takes. -/
structure Faithful (p : Plan) (f : Func) (code : Int → Piece) (env : Env σ) (mp : Machine.Program)
    (depth : Nat) (args : List Image) (world : World σ) (frame : Frame) : Prop where
  /-- A run of the rule is a way of the machine: the same statements with the same values. -/
  follows : ∀ path y, Follows p.settled p.gas (conduct env mp f depth code)
      (begins p.flow.function args world) path y →
    ∃ trail last, Passes env mp frame world trail last y.world ∧
      p.visits trail = ((begins p.flow.function args world) :: path.map (·.2)).map State.visit
  /-- A way of the machine, once it has left the entry block, is a run of the rule. -/
  followed : ∀ trail last world', Passes env mp frame world trail last world' → trail ≠ [] →
    ∃ path y, Follows p.settled p.gas (conduct env mp f depth code)
        (begins p.flow.function args world) path y ∧
      p.visits trail = ((begins p.flow.function args world) :: path.map (·.2)).map State.visit
  /-- Both end in the same ways. -/
  ends : ∀ r, Ends env mp frame world r ↔ ∃ path y,
    Follows p.settled p.gas (conduct env mp f depth code) (begins p.flow.function args world) path y ∧
      Finishes p.settled p.gas p.flow.function (conduct env mp f depth code) y r

lemma Realized.faithful (h : Realized p limit f code)
    (hparams : p.flow.function.params.length = p.flow.function.paramTypes.length)
    {args : List Image} (hargs : args.length = p.flow.function.params.length)
    (hdepth : depth < env.maxDepth) (world : World σ) :
    ∃ frame, enter env f args depth = .ok frame ∧
      Faithful p f code env mp depth args world frame := by
  obtain ⟨frame, first, n, b, e, henter, hentry, hstands, hplace, himages⟩ :=
    h.laid.exists_stands env mp h.flow hparams hargs hdepth world
  refine ⟨frame, henter, ?_⟩
  have hvisit : p.visits [first.arrival e] = [(begins p.flow.function args world).visit] := by
    have hidx : n.index = p.flow.function.entry := (h.flow.visited_of_node? hstands.node).2
    rw [← hidx] at hplace
    have hstmt := h.laid.statementAt?_eq (Flow.mem_order_of_node? hstands.node) hplace
    have htarget : (first.arrival e).edge.target = e.target := rfl
    simp only [Plan.visits, filterMap_cons, filterMap_nil, htarget, hstmt,
      Option.map_some, himages, hidx]
    rfl
  refine ⟨fun path y hfollow => ?_, fun trail last world' hpass hleft => ?_,
    fun r => ⟨fun hends => ?_, ?_⟩⟩
  · obtain ⟨trail, last, m, c, hpass, hvisits, -⟩ := h.follows hstands hfollow
    refine ⟨first.arrival e :: trail, last, hentry.trans hpass, ?_⟩
    rw [← singleton_append, Plan.visits_append, hvisit, hvisits, map_cons, map_map]
    rfl
  · rcases hentry.compare hpass with ⟨later, hlater, rfl⟩ | ⟨later, -, htrail⟩
    · obtain ⟨path, y, before, after, mid, m, c, hfollow, rfl, hvisits, -, -, hquiet, -⟩ :=
        h.exists_follows hstands hlater
      refine ⟨path, y, hfollow, ?_⟩
      rw [Plan.visits_append, Plan.visits_append, hvisit, hvisits, hquiet.visits_eq, append_nil,
        map_cons, map_map]
      rfl
    · -- only the first statement has been entered
      refine ⟨[], _, .here _, ?_⟩
      obtain ⟨arrival, trail, rfl⟩ := exists_cons_of_ne_nil hleft
      obtain ⟨rfl, hnil⟩ := cons.inj htrail
      obtain ⟨rfl, -⟩ := append_eq_nil_iff.1 hnil.symm
      exact hvisit
  · have hfirst := hentry.ends_iff.1 hends
    obtain ⟨trail, last, world', hpass, hhalts⟩ := hfirst.exists_halts
    obtain ⟨path, y, before, after, mid, m, c, hfollow, rfl, -, -, hmid, hquiet, hafter⟩ :=
      h.exists_follows hstands hpass
    exact ⟨path, y, hfollow, h.finishes hmid hafter hquiet hhalts⟩
  · rintro ⟨path, y, hfollow, hdone⟩
    obtain ⟨trail, last, m, c, hpass, -, hlast⟩ := h.follows hstands hfollow
    exact (hentry.trans hpass).ends_iff.2 (h.ends hlast hdone)

/-- A block for each reachable statement, pieces of the library functions, and activations that take
the way of the stepping rule. -/
structure IsCodeOf (g : Function) (p : Plan) (f : Func) (code : Int → Piece) : Prop where
  function : p.flow.function = g
  name : f.name = g.id.symbol
  blocks : ∀ n ∈ p.flow.order, ∃ (i : Nat) (b : Ir.Block), p.block? n.index = some (i : Int) ∧
    f.blocks[i]? = some b ∧ p.statementAt? (i : Int) = some n.index ∧
    b.params.length = n.state.length
  pieces : ∀ n ∈ p.flow.order, ∀ call, n.statement = .invoke call → ∃ lib,
    p.settled.libfunc call.libfunc = .ok lib ∧ (code n.index).Inside f ∧
    lib.emit (code n.index).site (code n.index).before = .ok () (code n.index).after ∧
    (code n.index).site.statement = n.index ∧
    (code n.index).site.charge = p.gas.chargeAt n.index ∧
    (code n.index).site.refund = p.gas.refundAt n.index
  activations : ∀ (σ : Type) (env : Env σ) (mp : Machine.Program) (depth : Nat) (args : List Image)
    (world : World σ), depth < env.maxDepth → args.length = g.params.length →
    ∃ frame, enter env f args depth = .ok frame ∧
      Faithful p f code env mp depth args world frame

/-- The machine enters the blocks of the statements that the stepping rule goes to, each receives
the values of the live variables in ascending order, and it ends as the rule ends. -/
theorem lowered_function_follows_statements {s : Settled} {gas : Gas.Analysis} {g : Function}
    {flow : Flow} {d d' : Draft} (htypes : s.types.Sound) (hflow : Flow.ofFunction s g = .ok flow)
    (hparams : g.params.length = g.paramTypes.length) (hamounts : ∀ index, due gas index < pow2 64)
    (hlibfuncs : ∀ id lib, s.libfunc id = .ok lib → lib.Fragment)
    (hlower : function s gas flow d = .ok () d') :
    ∃ f blocks code, d'.funcs[d.funcs.size]? = some f ∧
      IsCodeOf g ⟨s, gas, flow, blocks⟩ f code := by
  obtain ⟨rfl, hexplored⟩ := Flow.explored_ofFunction hflow
  have hfragments : ∀ n ∈ flow.order, ∀ lib, n.libfunc = some lib → lib.Fragment := by
    intro n hn lib hlib
    have hnode := hexplored.node?_index hn
    cases hstatement : n.statement with
    | ret vars =>
      have hreturns := (hexplored.visited_of_node? hnode).1.returns hstatement
      exact absurd (hlib.symm.trans hreturns.libfunc) (by simp)
    | invoke call => exact hlibfuncs _ lib ((hexplored.libfunc_eq hnode hstatement).2 hlib)
  obtain ⟨f, blocks, limit, hfound, hlaid⟩ := function_eq_ok hexplored hfragments hlower
  obtain ⟨code, hcode⟩ := hlaid.exists_code hexplored
  have hrealized : Realized ⟨s, gas, flow, blocks⟩ limit f code :=
    ⟨hlaid, hexplored, htypes, hamounts, hcode⟩
  refine ⟨f, blocks, code, hfound, rfl, hlaid.name, fun n hn => ?_, fun n hn call hcall => ?_,
    fun σ env mp depth args world hdepth hargs => hrealized.faithful hparams hargs hdepth world⟩
  · obtain ⟨i, b, _, _, hheads, -⟩ := hlaid.coded n hn
    exact ⟨i, b, hheads.place, hheads.found, hlaid.statementAt?_eq hn hheads.place,
      hheads.types.length_eq⟩
  · obtain ⟨i, b, rest, values, -, -, hdoes⟩ := hcode n hn
    rw [hcall] at hdoes
    obtain ⟨lib, hemits⟩ := hdoes
    refine ⟨lib, (hexplored.libfunc_eq (hexplored.node?_index hn) hcall).2 hemits.libfunc,
      hemits.inside, hemits.emit, ?_⟩
    rw [hemits.site]
    exact ⟨rfl, rfl, rfl⟩

/-! ## A loop that pays -/

def polling : Program where
  types := [{ id := ⟨0, ""⟩, generic := "GasBuiltin" }, { id := ⟨1, ""⟩, generic := "felt252" },
    { id := ⟨2, ""⟩, generic := "NonZero", args := [.type ⟨1, ""⟩] }]
  libfuncs := [{ id := ⟨0, ""⟩, generic := "felt252_is_zero" },
    { id := ⟨1, ""⟩, generic := "unwrap_non_zero", args := [.type ⟨1, ""⟩] },
    { id := ⟨2, ""⟩, generic := "jump" }]
  statements := #[
    .invoke ⟨⟨0, ""⟩, [1], [⟨.next, []⟩, ⟨.statement 2, [2]⟩]⟩,
    .ret [0],
    .invoke ⟨⟨1, ""⟩, [2], [⟨.next, [1]⟩]⟩,
    .invoke ⟨⟨2, ""⟩, [], [⟨.statement 0, []⟩]⟩]
  funcs := [
    { id := ⟨0, ""⟩, params := [⟨0, ⟨0, ""⟩⟩, ⟨1, ⟨1, ""⟩⟩], paramTypes := [⟨0, ""⟩, ⟨1, ""⟩],
      retTypes := [⟨0, ""⟩], entry := 0 }]

def pollingOptions : Gas.Options where
  table :=
    { entries := [("felt252_is_zero", [.gas 100, .gas 100]), ("jump", [.gas 100]),
        ("unwrap_non_zero", [.gas 0])] }

def isLowered (program : Program) (opts : Gas.Options) : Bool :=
  match Settled.ofProgram program, program.funcs with
  | .ok s, [g] =>
    match Flow.ofFunction s g with
    | .error _ => false
    | .ok flow =>
      match Gas.analyse s [flow] opts with
      | .error _ => false
      | .ok gas =>
        match function s gas flow {} with
        | .error _ _ => false
        | .ok _ _ => decide (0 < due gas g.entry) &&
            gas.injected.all fun amount => amount.all fun n => decide (n < pow2 64)
  | _, _ => false

lemma due_lt_of_all {gas : Gas.Analysis} {bound : Nat} (hbound : 0 < bound)
    (h : (gas.injected.all fun amount => amount.all fun n => decide (n < bound)))
    (index : Int) : due gas index < bound := by
  unfold due Gas.Analysis.injectedAt Gas.Analysis.valueAt
  split
  · exact hbound
  · cases hfound : gas.injected[index.toNat]? with
    | none => exact hbound
    | some amount =>
      have hamt := Array.all_eq_true_iff_forall_mem.1 h amount (Array.mem_of_getElem? hfound)
      cases amount with
      | none => exact hbound
      | some n => simpa using hamt

lemma exists_of_isLowered {program : Program} {opts : Gas.Options}
    (h : isLowered program opts) : ∃ s g flow gas d,
      Settled.ofProgram program = .ok s ∧ program.funcs = [g] ∧ Flow.ofFunction s g = .ok flow ∧
      Gas.analyse s [flow] opts = .ok gas ∧ function s gas flow {} = .ok () d ∧
      0 < due gas g.entry ∧ ∀ index, due gas index < pow2 64 := by
  unfold isLowered at h
  split at h
  · next s g hs hg =>
    split at h
    · cases h
    next flow hflow =>
    split at h
    · cases h
    · next gas hgas =>
      split at h
      · cases h
      · next d hd =>
        rw [Bool.and_eq_true, decide_eq_true_eq] at h
        exact ⟨s, g, flow, gas, d, hs, hg, hflow, hgas, hd, h.1, due_lt_of_all (by decide) h.2⟩
  · cases h

lemma fragment_polling {s : Settled} (h : Settled.ofProgram polling = .ok s) {id : LibfuncId}
    {lib : Libfunc} (hlib : s.libfunc id = .ok lib) : lib.Fragment := by
  obtain ⟨decl, hdecl, -, -, generic, hgeneric, happlied⟩ := Settled.libfunc_of_ofProgram h hlib
  simp only [polling, mem_cons, not_mem_nil, or_false] at hdecl
  rcases hdecl with rfl | rfl | rfl
  · cases hgeneric.symm.trans (by with_unfolding_all rfl)
    exact Libfunc.fragment_isZero happlied
  · cases hgeneric.symm.trans (by with_unfolding_all rfl)
    exact Libfunc.fragment_unwrapNonZero happlied
  · cases hgeneric.symm.trans (by with_unfolding_all rfl)
    obtain ⟨_, -, h⟩ := except_bind_eq_ok.1 happlied
    cases h
    exact Libfunc.fragment_of_leave (fun _ => []) (by simp) rfl

theorem lowered_polling_follows_statements : ∃ s g flow gas d f blocks code,
    Settled.ofProgram polling = .ok s ∧ polling.funcs = [g] ∧ Flow.ofFunction s g = .ok flow ∧
    g.params.length = g.paramTypes.length ∧ Gas.analyse s [flow] pollingOptions = .ok gas ∧
    0 < due gas g.entry ∧ (∀ index, due gas index < pow2 64) ∧
    (∀ id lib, s.libfunc id = .ok lib → lib.Fragment) ∧ function s gas flow {} = .ok () d ∧
    d.funcs[0]? = some f ∧ IsCodeOf g ⟨s, gas, flow, blocks⟩ f code := by
  obtain ⟨s, g, flow, gas, d, hs, hg, hflow, hgas, hd, hentry, hamounts⟩ :=
    exists_of_isLowered (show isLowered polling pollingOptions = true by decide +kernel)
  have hparams : g.params.length = g.paramTypes.length := by
    obtain ⟨rfl, -⟩ := List.cons.inj hg
    rfl
  have hlibfuncs := fun id lib => @fragment_polling s hs id lib
  obtain ⟨f, blocks, code, hf, hcode⟩ := lowered_function_follows_statements
    (Settled.sound_ofProgram hs) hflow hparams hamounts hlibfuncs hd
  exact ⟨s, g, flow, gas, d, f, blocks, code, hs, hg, hflow, hparams, hgas, hentry, hamounts,
    hlibfuncs, hd, hf, hcode⟩

end Sierra.Lower
