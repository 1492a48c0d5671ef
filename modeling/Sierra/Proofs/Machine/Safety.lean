import Sierra.Proofs.Machine.Place
import Sierra.Proofs.Machine.Prepare
import Sierra.Proofs.Machine.Sizes
import Sierra.Proofs.Machine.Step

/-!
# Safety of checked code

`WellBuilt` names what the machine relies on besides the rules. Then each value in scope holds as
many bytes as its type stores (`Sound`), and only a request to the heap can be lost
(`Sound.heapLost_of_crashes`).
-/

namespace Sierra.Machine

open Ir Array List Func Bytes

variable {σ : Type} {values : List Image} {text : Option String} {rounds depth : Nat}
  {next last : Frame} {p : Program} {b : Block}
variable {env : Env σ} {f : Func} {args : List Image} {rest : List Op} {m : Module} {op : Op}
  {name : String} {world world' : World σ}

/-! ## Well-built code -/

/-- What the machine relies on besides the rules. -/
structure WellBuilt (f : Func) : Prop where
  built : f.Built
  shaped : ∀ b ∈ f.blocks, ∀ op ∈ b.ops, hasShape op = true
  placed : ∀ b ∈ f.blocks, ∀ op ∈ b.ops, Op.Placed op
  sized : ∀ t ∈ f.values, canHold t.storeSize = true
  dominated : f.Dominated

/-- A module of well-built functions under distinct names. -/
structure ModuleBuilt (m : Module) : Prop where
  names : (m.funcs.map (·.name)).Nodup
  funcs : ∀ f ∈ m.funcs, WellBuilt f

lemma WellBuilt.canHold_typeOf (h : WellBuilt f) (v : ValueId) :
    canHold (f.typeOf v).storeSize := by
  unfold typeOf
  split
  · rfl
  · cases hv : f.values[v.toNat]? with
    | none => rfl
    | some t => exact h.sized t (mem_of_getElem? hv)

lemma WellBuilt.canHold_argType (h : WellBuilt f) (op : Op) (index : Nat) :
    canHold (argType f op index).storeSize := by
  unfold argType
  split
  · exact h.canHold_typeOf _
  · rfl

lemma WellBuilt.fits (h : WellBuilt f) (hb : b ∈ f.blocks) (hop : op ∈ b.ops) : Op.Fits op := by
  intro hone
  obtain ⟨v, -, htype⟩ := (h.built b hb op hop).one hone
  rw [← htype]
  exact h.canHold_typeOf v

/-- A prepared module whose functions are checked, well built and in reach of calls. -/
structure Trusted (p : Program) : Prop where
  checked : ∀ f ∈ p.module.funcs, f.Checked p.module
  built : ∀ f ∈ p.module.funcs, WellBuilt f
  valid : ∀ f ∈ p.module.funcs, ∀ b ∈ f.blocks, ∀ op ∈ b.ops, op.code ≠ .invalid
  reach : ∀ name, p.func? name = p.module.func? name

lemma trusted_of_prepare (hbuilt : ModuleBuilt m)
    (h : prepare m = .ok p) : Trusted p ∧ p.module = m := by
  obtain ⟨hcheck, hfaults, rfl⟩ := prepare_eq_ok_iff.1 h
  rw [callable_of_nodup hbuilt.names] at hfaults ⊢
  refine ⟨⟨hcheck, hbuilt.funcs, ?_, fun _ => rfl⟩, rfl⟩
  intro f hf b hb op hop
  exact (opFault?_eq_none_iff.1 (funcFault?_eq_none_iff.1 (hfaults f hf) b hb op hop)).1

lemma Trusted.mem_of_func? (hp : Trusted p) (h : p.func? name = some f) : f ∈ p.module.funcs := by
  rw [hp.reach] at h
  exact mem_of_find?_eq_some h

/-! ## Sound activations -/

/-- Every value in scope holds as many bytes as its type stores. -/
structure Sound (p : Program) (frame : Frame) : Prop where
  mem : frame.func ∈ p.module.funcs
  place : ∃ (before : List Nat) (i : Nat) (b : Block) (k : Nat), At frame.func before i b k frame ∧
    ∀ v, frame.func.InScope i b k v → HasSize (frame.func.typeOf v) (reg frame.regs v)

def Frame.reads (frame : Frame) : List ValueId :=
  match frame.ops with
  | op :: _ => op.args
  | [] => frame.term.uses

variable {p : Program} {frame : Frame}

section

variable (hp : Trusted p)

include hp

lemma Sound.reads (h : Sound p frame) {v : ValueId} (hv : v ∈ frame.reads) :
    HasMark frame.regs.size v ∧ HasSize (frame.func.typeOf v) (reg frame.regs v) := by
  obtain ⟨before, i, b, k, hat, hsizes⟩ := h.place
  have hdom := (hp.built _ h.mem).dominated
  have hscope : frame.func.InScope i b k v := by
    unfold Frame.reads at hv
    split at hv
    · next op rest hops =>
      obtain ⟨hop, -⟩ := hat.getElem? hops
      exact hdom.ops i b hat.block k op hop v hv
    · next hops =>
      rw [hat.eq_length hops]
      rw [hat.term] at hv
      exact hdom.term i b hat.block v hv
  exact ⟨hat.hasMark (hp.checked _ h.mem) hscope, hsizes v hscope⟩

lemma Sound.next_op (h : Sound p frame) (hops : frame.ops = op :: rest) :
    ∃ b ∈ frame.func.blocks, op ∈ b.ops ∧ opProblem? p.module frame.func op = none ∧
      op.Built frame.func ∧ op.code ≠ .invalid ∧
      ∀ v ∈ op.args, HasSize (frame.func.typeOf v) (reg frame.regs v) := by
  obtain ⟨before, i, b, k, hat, -⟩ := h.place
  have hb : b ∈ frame.func.blocks := mem_of_getElem? hat.block
  have hop : op ∈ b.ops := mem_of_getElem? (hat.getElem? hops).1
  refine ⟨b, hb, hop, ((hp.checked _ h.mem).block b hb).ops op hop,
    (hp.built _ h.mem).built b hb op hop, hp.valid _ h.mem b hb op hop, ?_⟩
  intro v hv
  refine (h.reads hp (v := v) ?_).2
  rw [Frame.reads, hops]
  exact hv

/-! ## Soundness from round to round -/

lemma sound_of_enter (hf : f ∈ p.module.funcs) (hargs : HasSizes f.params args)
    (h : enter env f args depth = .ok frame) : Sound p frame ∧ frame.func = f := by
  obtain ⟨-, i, b, regs, rfl, hentry, hat, hset⟩ := at_of_enter h
  have hcheck := hp.checked _ hf
  obtain ⟨b', hb', htypes⟩ := hcheck.entry
  rw [hentry, block?_natCast, hat.block, Option.some.injEq] at hb'
  subst hb'
  have hnodup : b.params.Nodup := nodup_params hcheck.nodup hat.block
  refine ⟨⟨hf, [], i, b, 0, hat, ?_⟩, rfl⟩
  intro v hv
  rcases inScope_zero.1 hv with havail | hparam
  · exact absurd havail (not_avail_entry hentry)
  · rw [← htypes] at hargs
    refine hargs.hasSize_reg hset hnodup ?_ hparam
    intro w hw
    rw [size_replicate]
    exact hat.range hcheck (mem_append_left _ hw)

lemma enter_ne_crash (hf : f ∈ p.module.funcs) (hargs : HasSizes f.params args) :
    enter env f args depth ≠ .error (.error (.crash text)) := by
  obtain ⟨b, hb, htypes⟩ := (hp.checked f hf).entry
  have hlen : b.params.length = args.length := by
    rw [hargs.length_eq, ← htypes, length_map]
  obtain ⟨regs, hregs⟩ := exists_assign? (Nat.le_of_eq hlen) (replicate f.values.size [])
  unfold enter
  split
  · simp
  · simp [hb, hregs]

section

variable (h : Sound p frame)
include h

lemma Sound.write_results (hops : frame.ops = op :: rest) {images : List Image}
    (himages : HasSizes (op.results.map frame.func.typeOf) images) {regs : Array Image}
    (hset : assign? frame.regs op.results images = some regs) :
    Sound p { frame with regs := regs, ops := rest } := by
  obtain ⟨before, i, b, k, hat, hsizes⟩ := h.place
  have hcheck := hp.checked _ h.mem
  obtain ⟨hop, -⟩ := hat.getElem? hops
  refine ⟨h.mem, before, i, b, k + 1, hat.next hops (size_assign? hset), ?_⟩
  intro v hv
  by_cases hpre : frame.func.InScope i b k v
  · rw [hat.reg_results hcheck hop hset hpre]
    exact hsizes v hpre
  have hresult : v ∈ op.results := ((inScope_succ hop).1 hv).resolve_left hpre
  have hnodup : op.results.Nodup := by
    have hdefs := nodup_defs hcheck.nodup hat.block
    have hpair := (pairwise_flatMap.1 (nodup_append.1 hdefs).2.1).1
    exact hpair op (mem_of_getElem? hop)
  refine himages.hasSize_reg hset hnodup ?_ hresult
  intro w hw
  rw [hat.size]
  exact hat.range hcheck (Block.mem_defs_of_mem_results hop hw)

lemma Sound.jump (hops : frame.ops = []) {edge : Edge}
    (hnext : nextOf frame.func frame.regs frame.term = .jump edge)
    (hjump : jump? frame edge = some next) : Sound p next ∧ next.func = frame.func := by
  obtain ⟨before, i, b, k, hat, hsizes⟩ := h.place
  have hcheck := hp.checked _ h.mem
  obtain ⟨j, c, regs, rfl, hedge, htarget, hsucc, hat', hset⟩ := hat.jump hnext hjump
  have hend := hat.eq_length hops
  subst hend
  refine ⟨⟨h.mem, i :: before, j, c, 0, hat', ?_⟩, rfl⟩
  intro v hv
  rcases inScope_zero.1 hv with havail | hparam
  · rw [hat'.reg_params hcheck hset havail]
    exact hsizes v (havail.of_succ hat.block hsucc)
  -- The arguments of the edge have the types of the parameters, and all of them are in scope.
  have htypes := ((hcheck.blockAt hat.block).edges edge hedge).types_eq htarget hat'.block
  have hargs : HasSizes (edge.args.map frame.func.typeOf) (edge.args.map (reg frame.regs)) := by
    refine hasSizes_map_reg fun w hw => hsizes w ?_
    exact (hp.built _ h.mem).dominated.term i b hat.block w (mem_uses_of_mem_edges hedge hw)
  rw [htypes] at hargs
  have hnodup : c.params.Nodup := nodup_params hcheck.nodup hat'.block
  refine hargs.hasSize_reg hset hnodup ?_ hparam
  intro w hw
  rw [hat.size]
  exact hat'.range hcheck (mem_append_left _ hw)

lemma Sound.call_signature (hops : frame.ops = op :: rest) (hcode : op.code = .call) :
    p.func? op.callee ≠ none ∧ ∀ {callee : Func}, p.func? op.callee = some callee →
      callee ∈ p.module.funcs ∧ HasSizes callee.params (op.args.map (reg frame.regs)) ∧
      op.results.map frame.func.typeOf = callee.results := by
  obtain ⟨b, -, -, hprob, -, -, hargs⟩ := h.next_op hp hops
  simp only [opProblem?, hcode] at hprob
  split at hprob
  · cases hprob
  next callee hcallee =>
  obtain ⟨hparams, hres⟩ := signatureProblem?_eq_none_iff.1 hprob
  rw [← hp.reach] at hcallee
  refine ⟨by simp [hcallee], fun {found} hfound => ?_⟩
  cases hcallee.symm.trans hfound
  refine ⟨hp.mem_of_func? hcallee, ?_, hres⟩
  rw [← hparams]
  exact hasSizes_map_reg hargs

lemma Sound.step (hcalls : ∀ inner world out world', Sound p inner →
      run env p rounds inner world = .ok out world' → HasSizes inner.func.results out)
    (hstep : Step env p rounds frame world next world') :
    Sound p next ∧ next.func = frame.func := by
  cases hstep with
  | @op func regs regs' op rest term depth _ _ hcode hexec =>
    obtain ⟨b, hb, hop, hprob, hbuilt, hvalid, hargs⟩ := h.next_op hp rfl
    obtain ⟨images, himages, hset⟩ := (execOp_eq_ok_iff hbuilt hcode hvalid).1 hexec
    have hfits : Op.Fits op := (hp.built _ h.mem).fits hb hop
    have hsizes := opImages_hasSizes hprob hbuilt hfits hcode hvalid hargs himages
    exact ⟨h.write_results hp rfl hsizes hset, rfl⟩
  | @call func callee regs regs' op rest term depth _ _ inner out hcode hcallee henter hrun hset =>
    obtain ⟨hmem, hargs, hres⟩ := (h.call_signature hp rfl hcode).2 hcallee
    obtain ⟨hinner, hfunc⟩ := sound_of_enter hp hmem hargs henter
    have hout := hcalls inner _ _ _ hinner hrun
    rw [hfunc, ← hres] at hout
    exact ⟨h.write_results hp rfl hout hset, rfl⟩
  | jump hnext hjump => exact h.jump hp rfl hnext hjump

lemma Sound.run_hasSizes (hrun : run env p rounds frame world = .ok values world') :
    HasSizes frame.func.results values := by
  induction rounds generalizing frame world world' values with
  | zero => cases hrun
  | succ rounds ih =>
    rcases run_eq_ok_cases hrun with ⟨hops, hdone, -⟩ | ⟨next, between, hstep, hrest⟩
    · obtain ⟨before, i, b, k, hat, hsizes⟩ := h.place
      have hterm := ((hp.checked _ h.mem).blockAt hat.block).term
      rw [← hat.term] at hterm
      cases hret : frame.term with
      | ret vs =>
        rw [hret] at hdone hterm
        simp only [nextOf, Next.done.injEq] at hdone
        rw [← hdone, ← hterm]
        refine hasSizes_map_reg fun v hv => (h.reads hp (v := v) ?_).2
        rw [Frame.reads, hops, hret]
        simpa [Terminator.uses] using .inl hv
      | switch =>
        rw [hret, nextOf_switch] at hdone
        cases hdone
      | _ =>
        rw [hret] at hdone
        simp [nextOf] at hdone
    · obtain ⟨hnext, hfunc⟩ := h.step hp (fun inner w out w' hinner hr => ih hinner hr) hstep
      rw [← hfunc]
      exact ih hnext hrest

lemma Sound.visits (hvisit : Visits env p frame world last world') : Sound p last := by
  induction hvisit with
  | here => exact h
  | step hstep _ ih =>
    exact ih (h.step hp (fun inner w out w' hinner hr => hinner.run_hasSizes hp hr) hstep).1
  | @enter func callee regs op rest term depth inner _ _ _ hcode hcallee henter _ ih =>
    obtain ⟨hmem, hargs, -⟩ := (h.call_signature hp rfl hcode).2 hcallee
    exact ih (sound_of_enter hp hmem hargs henter).1

/-! ## Losses -/

lemma Sound.heapLost_of_crashes (henv : env.Answers) (hcrash : Crashes env p frame world) :
    ∃ op rest, frame.ops = op :: rest ∧ HeapLost frame.regs op world.heap := by
  have hplaced := (hp.built _ h.mem).placed
  cases hcrash with
  | @op func regs op rest term depth _ world' text hcode hexec =>
    obtain ⟨b, hb, hop, hprob, hbuilt, hvalid, hargs⟩ := h.next_op hp rfl
    have hfits : Op.Fits op := (hp.built _ h.mem).fits hb hop
    rw [execOp_eq_writeImages hbuilt hcode hvalid] at hexec
    cases himages : opImages env p.module func regs op world with
    | error stop between =>
      rw [himages] at hexec
      simp only [writeImages, EStateM.Result.error.injEq] at hexec
      rw [hexec.1] at himages
      exact ⟨op, rest, rfl, opImages_crash henv hprob hfits (hplaced b hb op hop)
        ((hp.built _ h.mem).canHold_argType op) hargs himages⟩
    | ok images between =>
      have hsizes := opImages_hasSizes hprob hbuilt hfits hcode hvalid hargs himages
      have hlen : op.results.length = images.length := by
        rw [hsizes.length_eq, length_map]
      obtain ⟨regs', hset⟩ := exists_assign? (Nat.le_of_eq hlen) regs
      rw [himages] at hexec
      simp [writeImages, hset] at hexec
  | callee hcode hcallee => exact absurd hcallee (h.call_signature hp rfl hcode).1
  | enter hcode hcallee henter =>
    obtain ⟨hmem, hargs, -⟩ := (h.call_signature hp rfl hcode).2 hcallee
    exact absurd henter (enter_ne_crash hp hmem hargs)
  | @results func callee regs op rest term depth rounds inner _ world' out hcode hcallee henter
      hrun hset =>
    obtain ⟨hmem, hargs, hres⟩ := (h.call_signature hp rfl hcode).2 hcallee
    obtain ⟨hinner, hfunc⟩ := sound_of_enter hp hmem hargs henter
    have hout := (hinner.run_hasSizes hp hrun).length_eq
    rw [hfunc, ← hres, length_map] at hout
    obtain ⟨regs', hsome⟩ := exists_assign? (Nat.le_of_eq hout.symm) regs
    cases hset.symm.trans hsome
  | @term func regs term depth _ text hnext =>
    obtain ⟨before, i, b, k, hat, -⟩ := h.place
    have hclosed := ((hp.checked _ h.mem).blockAt hat.block).closed
    rw [← hat.term] at hclosed
    cases term with
    | none => cases hclosed
    | switch =>
      rw [nextOf_switch] at hnext
      cases hnext
    | _ => simp [nextOf] at hnext
  | @jump func regs term depth _ edge hnext hjump =>
    obtain ⟨before, i, b, k, hat, -⟩ := h.place
    obtain ⟨next, hsome⟩ := hat.exists_jump (hp.checked _ h.mem) hnext
    cases hjump.symm.trans hsome

end

end

/-! ## Calls -/

lemma hasSizes_of_callFault? (h : callFault? f args = none) :
    HasSizes f.params ((args.zip f.params).map fun (image, t) => Image.normalize t image) := by
  unfold callFault? at h
  split at h
  · cases h
  · next hlen =>
    rw [Option.map_eq_none_iff] at h
    exact hasSizes_normalize (Decidable.not_not.1 hlen) h

def InCall (env : Env σ) (p : Program) (name : String) (args : List Image) (world : World σ)
    (last : Frame) (world' : World σ) : Prop :=
  ∃ f frame, p.func? name = some f ∧ callFault? f args = none ∧
    enter env f ((args.zip f.params).map fun (image, t) => Image.normalize t image) 0 = .ok frame ∧
    Visits env p frame world last world'

lemma InCall.sound (hp : Trusted p)
    (h : InCall env p name args world last world') : Sound p last := by
  obtain ⟨f, frame, hfunc, hfault, henter, hvisit⟩ := h
  have hsound := sound_of_enter hp (hp.mem_of_func? hfunc) (hasSizes_of_callFault? hfault) henter
  exact hsound.1.visits hp hvisit

lemma call_hasSizes (hp : Trusted p) (h : call env p name args world = .ok values world') :
    ∃ f, p.func? name = some f ∧ HasSizes f.results values := by
  unfold call at h
  split at h
  · cases h
  next f hfunc =>
  split at h
  · cases h
  next hfault =>
  dsimp only at h
  split at h
  · cases h
  · next frame henter =>
    obtain ⟨hsound, hf⟩ := sound_of_enter hp (hp.mem_of_func? hfunc)
      (hasSizes_of_callFault? hfault) henter
    refine ⟨f, hfunc, ?_⟩
    rw [← hf]
    exact hsound.run_hasSizes hp h

lemma exists_heapLost_of_call (hp : Trusted p) (henv : env.Answers)
    (h : call env p name args world = .error (.error (.crash text)) world') :
    ∃ last between op rest, InCall env p name args world last between ∧ last.ops = op :: rest ∧
      HeapLost last.regs op between.heap := by
  unfold call at h
  split at h
  · cases h
  next f hfunc =>
  split at h
  · next fault hfault =>
    -- A refused call is reported, and a report is no loss.
    injection h with h₁ h₂
    rw [Stop.error.injEq] at h₁
    subst h₁
    unfold callFault? at hfault
    split at hfault
    · cases hfault
    · simp at hfault
  · next hfault =>
    dsimp only at h
    split at h
    · next stop henter =>
      injection h with h₁ h₂
      rw [h₁] at henter
      exact absurd henter
        (enter_ne_crash hp (hp.mem_of_func? hfunc) (hasSizes_of_callFault? hfault))
    · next frame henter =>
      obtain ⟨last, between, hvisit, hcrash⟩ := exists_crashes_of_run h
      have hcall : InCall env p name args world last between :=
        ⟨f, frame, hfunc, hfault, henter, hvisit⟩
      obtain ⟨op, rest, hops, hlost⟩ := (hcall.sound hp).heapLost_of_crashes hp henv hcrash
      exact ⟨last, between, op, rest, hcall, hops, hlost⟩

lemma WellBuilt.opFault?_eq_none (h : WellBuilt f) (hb : b ∈ f.blocks)
    (hop : op ∈ b.ops) (hvalid : op.code ≠ .invalid) : opFault? op = none := by
  refine opFault?_eq_none_iff.2 ⟨hvalid, h.shaped b hb op hop, fun hzero => ?_⟩
  exact h.fits hb hop (by rw [hzero]; rfl)

lemma prepare_ne_crash (hbuilt : ModuleBuilt m) (text : Option String) :
    prepare m ≠ .error (.crash text) := by
  intro h
  obtain ⟨f, hf, b, hb, op, hop, hfault⟩ := exists_opFault_of_prepare h
  by_cases hvalid : op.code = .invalid
  · rw [opFault?, if_pos hvalid] at hfault
    cases hfault
  · rw [(hbuilt.funcs f hf).opFault?_eq_none hb hop hvalid] at hfault
    cases hfault

lemma exists_prepare_iff (hverify : m.verify = .ok ()) (hbuilt : ModuleBuilt m) :
    (∃ p, prepare m = .ok p) ↔ ∀ f ∈ m.funcs, ∀ b ∈ f.blocks, ∀ op ∈ b.ops, op.code ≠ .invalid := by
  constructor
  · rintro ⟨p, hp⟩
    obtain ⟨htrusted, rfl⟩ := trusted_of_prepare hbuilt hp
    exact htrusted.valid
  · intro hvalid
    refine ⟨_, prepare_eq_ok_iff.2 ⟨Module.verify_eq_ok_iff.1 hverify, fun f hf => ?_, rfl⟩⟩
    rw [funcFault?_eq_none_iff]
    intro b hb op hop
    have hmem := mem_of_mem_callable hf
    exact (hbuilt.funcs f hmem).opFault?_eq_none hb hop (hvalid f hmem b hb op hop)

/-- Well-built code that the rules accept is made ready if the machine knows its codes and refused
otherwise; a call returns values of the declared sizes, or stops; it is lost only where it asks the
heap for memory that there is no answer to; and whatever is read has as many bytes as its type
stores. -/
theorem verified_code_runs_safely {m : Module} (hverify : m.verify = .ok ())
    (hbuilt : ModuleBuilt m) :
    (∀ text, prepare m ≠ .error (.crash text)) ∧
    ((∃ p, prepare m = .ok p) ↔
      ∀ f ∈ m.funcs, ∀ b ∈ f.blocks, ∀ op ∈ b.ops, op.code ≠ .invalid) ∧
    ∀ p, prepare m = .ok p → ∀ env : Env σ, env.Answers →
      ∀ (name : String) (args : List Image) (world : World σ),
        (∀ values world', call env p name args world = .ok values world' →
          ∃ f, m.func? name = some f ∧ HasSizes f.results values) ∧
        (∀ text world', call env p name args world = .error (.error (.crash text)) world' →
          ∃ last between op rest, InCall env p name args world last between ∧
            last.ops = op :: rest ∧ HeapLost last.regs op between.heap) ∧
        ∀ last between, InCall env p name args world last between → ∀ v ∈ last.reads,
          HasMark last.regs.size v ∧ HasSize (last.func.typeOf v) (reg last.regs v) := by
  refine ⟨prepare_ne_crash hbuilt, exists_prepare_iff hverify hbuilt,
    fun p hprepare env henv name args world => ?_⟩
  obtain ⟨hp, rfl⟩ := trusted_of_prepare hbuilt hprepare
  refine ⟨fun values world' h => ?_, fun text world' h => exists_heapLost_of_call hp henv h,
    fun last between h v hv => (h.sound hp).reads hp hv⟩
  obtain ⟨f, hf, hsizes⟩ := call_hasSizes hp h
  exact ⟨f, (hp.reach name).symm.trans hf, hsizes⟩

def countdown : Func where
  name := "f"
  params := [.int 8]
  results := [.int 8]
  values := #[.int 8, .int 8, .int 8, .int 1, .int 8, .int 8, .int 8]
  blocks := #[
    { id := 0, params := [0], term := .br ⟨1, [0]⟩ },
    { id := 1
      params := [1]
      ops := [
        { code := .zero, results := [2], type := .int 8 },
        { code := .icmp, results := [3], args := [1, 2], type := .int 1, pred := some .eq },
        { code := .const, results := [4], type := .int 8, imm := [1] },
        { code := .binary .sub, results := [5], args := [1, 4], type := .int 8 }]
      term := .condBr 3 ⟨2, [1]⟩ ⟨1, [5]⟩ },
    { id := 2, params := [6], term := .ret [6] }]

lemma wellBuilt_countdown : WellBuilt countdown where
  built := by decide
  shaped := by decide
  placed := by decide
  sized := by decide
  dominated := dominated_of_local (by decide) (by decide)

theorem countdown_runs_safely :
    ∃ p, prepare ⟨"m", [countdown], []⟩ = .ok p ∧
      ∀ (args : List Image) (world : World Unit) (text : Option String) (world' : World Unit),
        call ⟨fun _ => none, 1⟩ p "f" args world = .error (.error (.crash text)) world' →
        ∃ last between op rest, InCall ⟨fun _ => none, 1⟩ p "f" args world last between ∧
          last.ops = op :: rest ∧ HeapLost last.regs op between.heap := by
  have hbuilt : ModuleBuilt ⟨"m", [countdown], []⟩ :=
    ⟨by decide, by simpa using wellBuilt_countdown⟩
  obtain ⟨-, hready, hsafe⟩ := @verified_code_runs_safely Unit _ rfl hbuilt
  obtain ⟨p, hp⟩ := hready.2 (by decide)
  refine ⟨p, hp, fun args world => ?_⟩
  exact (hsafe p hp _ (fun _ _ h => absurd h (by simp)) "f" args world).2.1

/-- Code that the rules accept need not be well built. An operation without its result is lost while
it is made ready, and one that reads a value before its definition when it runs. -/
theorem verified_code_may_be_lost :
    (∃ m : Module, m.verify = .ok () ∧ prepare m = .error (.crash none)) ∧
    ∃ (m : Module) (p : Program), m.verify = .ok () ∧ prepare m = .ok p ∧
      ∀ world : World Unit, call ⟨fun _ => none, 1⟩ p "f" [] world =
        .error (.error (.crash none)) world := by
  refine ⟨⟨⟨"m", [{ name := "f", blocks := #[
      { id := 0, ops := [{ code := .const, type := .int 8, imm := [1] }], term := .ret [] }] }], []⟩,
    rfl, rfl⟩, ?_⟩
  refine ⟨⟨"m", [{ name := "f", values := #[.blob 4 1, .int 8], blocks := #[
      { id := 0
        ops := [{ code := .extract, results := [1], args := [0], type := .int 8 },
          { code := .zero, results := [0], type := .blob 4 1 }]
        term := .ret [] }] }], []⟩, _, rfl, rfl, fun world => rfl⟩

end Sierra.Machine
