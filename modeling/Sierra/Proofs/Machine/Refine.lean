import Sierra.Proofs.Machine.Prepare
import Sierra.Proofs.Machine.Turn

/-!
# Code that does the work of other code

A function mimics another when the machine keeps a relation of their activations (`Mimics`). Calls
are taken as they come, so that changes chain (`Refines.trans`). Runs that go through have the same
answers (`run_refines`, `call_refines`). The count of edges may differ, so the host must not depend
on it.
-/

namespace Sierra.Machine

open Ir

variable {σ : Type} {regs₁ : Array Image} {after : World σ} {op' : Op} {values : List Image}
  {p' p : Program} {h g : Func}
variable {regs regs' : Array Image} {env : Env σ} {f f' : Func} {m : Module} {op : Op}
  {next world world' : World σ}

/-! ## Worlds up to the count of edges taken -/

/-- They differ in the count of edges taken at most. -/
def SameWorld (world world' : World σ) : Prop :=
  world.heap = world'.heap ∧ world.host = world'.host

lemma SameWorld.refl (world : World σ) : SameWorld world world := ⟨rfl, rfl⟩

lemma SameWorld.trans {a b c : World σ} (h : SameWorld a b) (h' : SameWorld b c) : SameWorld a c :=
  ⟨h.1.trans h'.1, h.2.trans h'.2⟩

/-- The host depends on arguments, the heap and its state only. -/
def Env.Blind (env : Env σ) : Prop :=
  ∀ name impl, env.host name = some impl → ∀ args world world', SameWorld world world' →
    ∀ out next, impl args world = .ok out next →
      ∃ next', impl args world' = .ok out next' ∧ SameWorld next next'

lemma onHeap_sameWorld {α : Type} {step : Heap.Action α} {finish : α → Array Image}
    (hsame : SameWorld world world') (h : onHeap step finish world = .ok regs next) :
    ∃ next', onHeap step finish world' = .ok regs next' ∧ SameWorld next next' := by
  obtain ⟨heap, host, steps⟩ := world
  obtain ⟨heap', host', steps'⟩ := world'
  obtain ⟨rfl, rfl⟩ : heap = heap' ∧ host = host' := hsame
  unfold onHeap at h ⊢
  dsimp only at h ⊢
  split at h
  · injection h with h₁ h₂
    rw [← h₁, ← h₂]
    exact ⟨_, rfl, rfl, rfl⟩
  · cases h

lemma callHost_sameWorld (henv : env.Blind) (hsame : SameWorld world world')
    (h : callHost env m regs op world = .ok regs' next) :
    ∃ next', callHost env m regs op world' = .ok regs' next' ∧ SameWorld next next' := by
  unfold callHost at h ⊢
  dsimp only at h ⊢
  split at h
  · cases h
  · cases h
  next decl impl hdecl himpl =>
  split at h
  · cases h
  next out between hout =>
  obtain ⟨between', hout', hsame'⟩ := henv _ impl himpl _ _ _ hsame _ _ hout
  rw [hout']
  dsimp only
  split at h
  · cases h
  next hcount =>
  rw [if_neg hcount]
  split at h
  · cases h
  · split at h
    · injection h with h₁ h₂
      rw [← h₁, ← h₂]
      exact ⟨_, rfl, hsame'⟩
    · cases h

lemma execOp_sameWorld (henv : env.Blind)
    (hsame : SameWorld world world') (h : execOp env m f regs op world = .ok regs' next) :
    ∃ next', execOp env m f regs op world' = .ok regs' next' ∧ SameWorld next next' := by
  unfold execOp at h ⊢
  cases hcode : op.code with
  | alloc | realloc | load | store | memcpy =>
    simp only [hcode] at h ⊢; exact onHeap_sameWorld hsame h
  | runtimeCall => simp only [hcode] at h ⊢; exact callHost_sameWorld henv hsame h
  | _ =>
    simp only [hcode] at h ⊢
    split at h
    · injection h with h₁ h₂
      rw [← h₁, ← h₂]
      exact ⟨_, rfl, hsame⟩
    · cases h

lemma execOp_congr_module {m' : Module} (hruntime : m'.runtime = m.runtime) (f : Func)
    (regs : Array Image) (op : Op) : execOp env m' f regs op = execOp env m f regs op := by
  have hdecl : m'.runtime? op.callee = m.runtime? op.callee := by
    rw [Module.runtime?, Module.runtime?, hruntime]
  have hhost : callHost env m' regs op = callHost env m regs op := by
    funext world
    rw [callHost, callHost, hdecl]
  unfold execOp
  rw [hhost]

/-! ## Functions that mimic others -/

/-- What an activation of `f` does, a related one of `f'` does as well. A jump, and an operation
that leaves the world alone, may be nothing to the second. -/
structure Mimics (env : Env σ) (m : Module) (f f' : Func) (R : Frame → Frame → Prop) : Prop where
  func : ∀ {fr fr' : Frame}, R fr fr' → fr.func = f ∧ fr'.func = f' ∧ fr.depth = fr'.depth
  enter : ∀ {args : List Image} {depth : Nat} {fr : Frame}, enter env f args depth = .ok fr →
    ∃ fr', Machine.enter env f' args depth = .ok fr' ∧ R fr fr'
  done : ∀ {fr fr' : Frame} {values : List Image}, R fr fr' → fr.ops = [] →
    nextOf f fr.regs fr.term = .done values →
    fr'.ops = [] ∧ nextOf f' fr'.regs fr'.term = .done values
  jump : ∀ {fr fr' next : Frame} {edge : Edge}, R fr fr' → fr.ops = [] →
    nextOf f fr.regs fr.term = .jump edge → jump? fr edge = some next →
    R next fr' ∨ (fr'.ops = [] ∧ ∃ edge' next', nextOf f' fr'.regs fr'.term = .jump edge' ∧
      jump? fr' edge' = some next' ∧ R next next')
  op : ∀ {fr fr' : Frame} {op : Op} {rest : List Op} {regs : Array Image} {world world' : World σ},
    R fr fr' → fr.ops = op :: rest → op.code ≠ .call →
    execOp env m f fr.regs op world = .ok regs world' →
    (world' = world ∧ R { fr with regs := regs, ops := rest } fr') ∨
      ∃ op' rest' regs', fr'.ops = op' :: rest' ∧ op'.code ≠ .call ∧
        execOp env m f' fr'.regs op' world = .ok regs' world' ∧
        R { fr with regs := regs, ops := rest } { fr' with regs := regs', ops := rest' }
  call : ∀ {fr fr' : Frame} {op : Op} {rest : List Op} {out : List Image} {regs : Array Image},
    R fr fr' → fr.ops = op :: rest → op.code = .call → assign? fr.regs op.results out = some regs →
    ∃ op' rest' regs', fr'.ops = op' :: rest' ∧ op'.code = .call ∧ op'.callee = op.callee ∧
      op'.args.map (reg fr'.regs) = op.args.map (reg fr.regs) ∧
      assign? fr'.regs op'.results out = some regs' ∧
      R { fr with regs := regs, ops := rest } { fr' with regs := regs', ops := rest' }

/-- There is a relation that the machine keeps. -/
def Refines (env : Env σ) (m : Module) (f f' : Func) : Prop := ∃ R, Mimics env m f f' R

lemma execOp_transfer (hbuilt : op.Built f) (hbuilt' : op'.Built f')
    (hfault : opFault? op = none) (hfault' : opFault? op' = none) (hcall : op.code ≠ .call)
    (hcall' : op'.code ≠ .call) (hres : op'.results = op.results)
    (himages : ∀ images, opImages env m f regs op world = .ok images world' →
      opImages env m f' regs' op' world = .ok images world')
    (h : execOp env m f regs op world = .ok regs₁ world') :
    ∃ images regs₁', opImages env m f regs op world = .ok images world' ∧
      assign? regs op.results images = some regs₁ ∧
      assign? regs' op.results images = some regs₁' ∧
      execOp env m f' regs' op' world = .ok regs₁' world' := by
  have hvalid := (opFault?_eq_none_iff.1 hfault).1
  have hvalid' := (opFault?_eq_none_iff.1 hfault').1
  obtain ⟨images, hop, hset⟩ := (execOp_eq_ok_iff hbuilt hcall hvalid).1 h
  obtain ⟨regs₁', hset'⟩ := exists_reassign? hset regs'
  refine ⟨images, regs₁', hop, hset, hset', ?_⟩
  refine (execOp_eq_ok_iff hbuilt' hcall' hvalid').2 ⟨images, himages images hop, ?_⟩
  rw [hres]
  exact hset'

lemma execOp_rename (hbuilt : op.Built f) (hfault : opFault? op = none)
    (hcall : op.code ≠ .call) (hop : op' = { op with args := op'.args })
    (hargs : op'.args.map (reg regs') = op.args.map (reg regs))
    (htype : op'.args.map f'.typeOf = op.args.map f.typeOf) (hname : f'.name = f.name)
    (hvals : f'.values = f.values) (h : execOp env m f regs op world = .ok regs₁ world') :
    ∃ images regs₁', assign? regs op.results images = some regs₁ ∧
      assign? regs' op.results images = some regs₁' ∧
      execOp env m f' regs' op' world = .ok regs₁' world' := by
  have hlen : op'.args.length = op.args.length := by simpa using congrArg List.length htype
  have hfault' : opFault? op' = none := by
    rw [opFault?_eq_none_iff] at hfault ⊢
    rw [hop]
    simpa [hasShape, hlen] using hfault
  have himages : ∀ images, opImages env m f regs op world = .ok images world' →
      opImages env m f' regs' op' world = .ok images world' := by
    intro images himages
    rw [opImages_congr hargs htype hop hname rfl]
    exact himages
  obtain ⟨images, regs₁', -, hset, hset', hexec⟩ :=
    execOp_transfer hbuilt (hbuilt.rename hop htype hvals) hfault hfault' hcall
      (by rw [hop]; exact hcall) (by rw [hop]) himages h
  exact ⟨images, regs₁', hset, hset', hexec⟩

lemma Refines.refl (env : Env σ) (m : Module) (f : Func) : Refines env m f f := by
  refine ⟨fun fr fr' => fr.func = f ∧ fr' = fr, ?_⟩
  constructor
  case func =>
    rintro fr fr' ⟨hfunc, rfl⟩
    exact ⟨hfunc, hfunc, rfl⟩
  case enter =>
    intro args depth fr h
    obtain ⟨-, i, entry, regs, -, -, -, rfl⟩ := enter_eq_ok_iff.1 h
    exact ⟨_, h, rfl, rfl⟩
  case done =>
    rintro fr fr' values ⟨-, rfl⟩ hops hnext
    exact ⟨hops, hnext⟩
  case jump =>
    rintro fr fr' next edge ⟨hfunc, rfl⟩ hops hnext hjump
    obtain ⟨j, target, regs, -, -, -, rfl⟩ := jump?_eq_some_iff.1 hjump
    exact .inr ⟨hops, edge, _, hnext, hjump, hfunc, rfl⟩
  case op =>
    rintro fr fr' op rest regs world world' ⟨hfunc, rfl⟩ hops hcode hexec
    exact .inr ⟨op, rest, regs, hops, hcode, hexec, hfunc, rfl⟩
  case call =>
    rintro fr fr' op rest out regs ⟨hfunc, rfl⟩ hops hcode hset
    exact ⟨op, rest, regs, hops, hcode, rfl, rfl, hset, hfunc, rfl⟩

lemma Refines.trans (hfg : Refines env m f g) (hgh : Refines env m g h) : Refines env m f h := by
  obtain ⟨R, hR⟩ := hfg
  obtain ⟨S, hS⟩ := hgh
  refine ⟨fun fr fr'' => ∃ fr', R fr fr' ∧ S fr' fr'', ?_⟩
  constructor
  case func =>
    rintro fr fr'' ⟨fr', hr, hs⟩
    exact ⟨(hR.func hr).1, (hS.func hs).2.1, (hR.func hr).2.2.trans (hS.func hs).2.2⟩
  case enter =>
    intro args depth fr henter
    obtain ⟨fr', henter', hr⟩ := hR.enter henter
    obtain ⟨fr'', henter'', hs⟩ := hS.enter henter'
    exact ⟨fr'', henter'', fr', hr, hs⟩
  case done =>
    rintro fr fr'' values ⟨fr', hr, hs⟩ hops hnext
    obtain ⟨hops', hnext'⟩ := hR.done hr hops hnext
    exact hS.done hs hops' hnext'
  case jump =>
    rintro fr fr'' next edge ⟨fr', hr, hs⟩ hops hnext hjump
    rcases hR.jump hr hops hnext hjump with hr' | ⟨hops', edge', next', hnext', hjump', hr'⟩
    · exact .inl ⟨fr', hr', hs⟩
    · rcases hS.jump hs hops' hnext' hjump' with hs' | ⟨hops'', edge'', next'', hn, hj, hs'⟩
      · exact .inl ⟨next', hr', hs'⟩
      · exact .inr ⟨hops'', edge'', next'', hn, hj, next', hr', hs'⟩
  case op =>
    rintro fr fr'' op rest regs world world' ⟨fr', hr, hs⟩ hops hcode hexec
    rcases hR.op hr hops hcode hexec with
      ⟨hw, hr'⟩ | ⟨op', rest', regs', hops', hcode', hexec', hr'⟩
    · exact .inl ⟨hw, fr', hr', hs⟩
    · rcases hS.op hs hops' hcode' hexec' with ⟨hw, hs'⟩ | ⟨op'', rest'', regs'', ho, hc, he, hs'⟩
      · exact .inl ⟨hw, _, hr', hs'⟩
      · exact .inr ⟨op'', rest'', regs'', ho, hc, he, _, hr', hs'⟩
  case call =>
    rintro fr fr'' op rest out regs ⟨fr', hr, hs⟩ hops hcode hset
    obtain ⟨op', rest', regs', hops', hcode', hcallee', hargs', hset', hr'⟩ :=
      hR.call hr hops hcode hset
    obtain ⟨op'', rest'', regs'', ho, hc, hcallee'', hargs'', ha, hs'⟩ :=
      hS.call hs hops' hcode' hset'
    exact ⟨op'', rest'', regs'', ho, hc, hcallee''.trans hcallee', hargs''.trans hargs', ha, _,
      hr', hs'⟩

/-- The same signature and values; executable when the other is, and then does its work. -/
structure Replaces (env : Env σ) (m : Module) (f f' : Func) : Prop where
  name : f'.name = f.name
  params : f'.params = f.params
  results : f'.results = f.results
  values : f'.values = f.values
  ready : funcFault? f = none → funcFault? f' = none
  refines : funcFault? f = none → Refines env m f f'

lemma Replaces.refl (env : Env σ) (m : Module) (f : Func) : Replaces env m f f :=
  ⟨rfl, rfl, rfl, rfl, id, fun _ => .refl env m f⟩

lemma Replaces.trans (hfg : Replaces env m f g)
    (hgh : Replaces env m g h) : Replaces env m f h where
  name := hgh.name.trans hfg.name
  params := hgh.params.trans hfg.params
  results := hgh.results.trans hfg.results
  values := hgh.values.trans hfg.values
  ready := fun hf => hgh.ready (hfg.ready hf)
  refines := fun hf => (hfg.refines hf).trans (hgh.refines (hfg.ready hf))

/-! ## Programs made of such functions -/

/-- Every function of the first program has one in the second that does its work. -/
structure ProgramRefines (env : Env σ) (p p' : Program) : Prop where
  runtime : p'.module.runtime = p.module.runtime
  funcs : ∀ name f, p.func? name = some f →
    ∃ f', p'.func? name = some f' ∧ f'.name = f.name ∧ f'.params = f.params ∧
      Refines env p.module f f'

lemma run_refines (henv : env.Blind) (hp : ProgramRefines env p p')
    {R : Frame → Frame → Prop} (hR : Mimics env p.module f f' R) {rounds : Nat} {fr fr' : Frame}
    (hr : R fr fr') (hsame : SameWorld world world')
    (hrun : run env p rounds fr world = .ok values after) :
    ∃ after', run env p' rounds fr' world' = .ok values after' ∧ SameWorld after after' := by
  induction rounds generalizing f f' R fr fr' world after world' values with
  | zero => cases hrun
  | succ rounds ih =>
    obtain ⟨hfunc, hfunc', hdepth⟩ := hR.func hr
    obtain ⟨func', regs', ops', term', depth'⟩ := fr'
    subst hfunc'
    rcases run_eq_ok_cases hrun with ⟨hops, hdone, rfl⟩ | ⟨next, between, hstep, hrest⟩
    · rw [hfunc] at hdone
      obtain ⟨hops', hdone'⟩ := hR.done hr hops hdone
      subst hops'
      exact ⟨world', by rw [run, hdone'], hsame⟩
    · cases hstep with
      | @op func regs regs₁ op rest term depth _ _ hcode hexec =>
        subst hfunc hdepth
        rcases hR.op hr rfl hcode hexec with
          ⟨rfl, hr'⟩ | ⟨op', rest', regs₁', hops', hcode', hexec', hr'⟩
        · obtain ⟨after', hrun', hafter⟩ := ih hR hr' hsame hrest
          exact ⟨after', run_mono hrun' (by simp) (Nat.le_succ _), hafter⟩
        subst hops'
        rw [← execOp_congr_module hp.runtime] at hexec'
        obtain ⟨between', hexec'', hsame'⟩ := execOp_sameWorld henv hsame hexec'
        have hstep' : Step env p' rounds ⟨func', regs', op' :: rest', term', depth⟩ world'
            ⟨func', regs₁', rest', term', depth⟩ between' := .op hcode' hexec''
        rw [hstep'.run_eq]
        exact ih hR hr' hsame' hrest
      | @call func callee regs regs₁ op rest term depth _ _ inner out hcode hcallee henter hinner
          hset =>
        subst hfunc hdepth
        obtain ⟨op', rest', regs₁', hops', hcode', hname, hargs, hset', hr'⟩ :=
          hR.call hr rfl hcode hset
        subst hops'
        obtain ⟨callee', hcallee', -, -, S, hS⟩ := hp.funcs _ _ hcallee
        obtain ⟨inner', henter', hs⟩ := hS.enter henter
        obtain ⟨between', hinner', hsame'⟩ := ih hS hs hsame hinner
        rw [← hname] at hcallee'
        rw [← hargs] at henter'
        have hstep' : Step env p' rounds ⟨func', regs', op' :: rest', term', depth⟩ world'
            ⟨func', regs₁', rest', term', depth⟩ between' :=
          .call hcode' hcallee' henter' hinner' hset'
        rw [hstep'.run_eq]
        exact ih hR hr' hsame' hrest
      | @jump func regs term depth _ edge _ hnext hjump =>
        subst hfunc hdepth
        have hcount : SameWorld { world with steps := world.steps + 1 } world := ⟨rfl, rfl⟩
        rcases hR.jump hr rfl hnext hjump with hr' | ⟨hops', edge', next', hnext', hjump', hr'⟩
        · obtain ⟨after', hrun', hafter⟩ := ih hR hr' (hcount.trans hsame) hrest
          exact ⟨after', run_mono hrun' (by simp) (Nat.le_succ _), hafter⟩
        · subst hops'
          have hstep' : Step env p' rounds _ world' _ _ := .jump hnext' hjump'
          rw [hstep'.run_eq]
          have hsame' : SameWorld { world with steps := world.steps + 1 }
              { world' with steps := world'.steps + 1 } := ⟨hsame.1, hsame.2⟩
          exact ih hR hr' hsame' hrest

lemma call_refines (henv : env.Blind)
    (hp : ProgramRefines env p p') {name : String} {args : List Image}
    (hsame : SameWorld world world') (h : call env p name args world = .ok values after) :
    ∃ after', call env p' name args world' = .ok values after' ∧ SameWorld after after' := by
  unfold call at h ⊢
  split at h
  · cases h
  next f hf =>
  obtain ⟨f', hf', hname, hparams, R, hR⟩ := hp.funcs name f hf
  have hfault : callFault? f' args = callFault? f args := by
    rw [callFault?, callFault?, hname, hparams]
  rw [hf']
  dsimp only
  rw [hfault, hparams]
  split at h
  · cases h
  dsimp only at h ⊢
  split at h
  · cases h
  · next fr henter =>
    obtain ⟨fr', henter', hr⟩ := hR.enter henter
    rw [henter']
    exact run_refines henv hp hR hr hsame h

end Sierra.Machine
