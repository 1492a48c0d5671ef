import Sierra.Proofs.Machine.Abreast
import Sierra.Proofs.Machine.Safety
import Sierra.Proofs.Optimize.Preserve

/-!
# How calls of pruned code end

Pruning also drops operations that may fail and requests for memory; a call that comes to none of
them ends in the same world.
-/

namespace Sierra.Machine

open Ir DeadCode List Func

variable {σ : Type} {env : Env σ} {p p' : Program} {m : Module} {f : Func} {blocks : List Block}
  {gone : Op → Prop} {fr fr' : Frame} {before : List Nat} {i k : Nat} {b b' : Block} {op : Op}

/-- No side effects, and nothing that pruning leaves reads the results. -/
def Dies (f : Func) (op : Op) : Prop := Dead (f.prune.func.blocks.toList.flatMap reads) op

/-! ## Activations of pruned functions -/

/-- An executable function, and the blocks that pruning leaves. -/
structure PrunesTo (m : Module) (f : Func) (blocks : List Block) : Prop where
  checked : f.Checked m
  ready : funcFault? f = none
  prune : f.prune.func = f.withBlocks blocks
  thin : List.Forall₂ (Thin (Dead (blocks.flatMap reads))) f.blocks.toList blocks

lemma exists_prunesTo (hf : f.Checked m) (hready : funcFault? f = none) :
    ∃ blocks, PrunesTo m f blocks := by
  obtain ⟨blocks, n, heq, hthin, -⟩ := exists_prune_eq hf
  exact ⟨blocks, hf, hready, by rw [heq]; rfl, hthin⟩

structure Prunes (p p' : Program) : Prop where
  runtime : p'.module.runtime = p.module.runtime
  ready : ∀ f ∈ p.funcs, f.Checked p.module ∧ funcFault? f = none
  funcs : ∀ name, p'.func? name = (p.func? name).map (·.prune.func)

def Together (p : Program) (fr fr' : Frame) : Prop :=
  ∃ f blocks before i b b' k, f ∈ p.funcs ∧ PrunesTo p.module f blocks ∧
    PruneRel (Dead (blocks.flatMap reads)) f blocks fr fr' before i b b' k

/-- The next operation is dead, and it fails or hands out memory. -/
def Slips (env : Env σ) (p : Program) (fr : Frame) (world : World σ) : Prop :=
  ∃ op rest, fr.ops = op :: rest ∧ fr.func ∈ p.funcs ∧ (∃ b ∈ fr.func.blocks, op ∈ b.ops) ∧
    Dies fr.func op ∧ (op.code.handsOut = true ∨
      ∃ stop after, execOp env p.module fr.func fr.regs op world = .error stop after)

lemma enter_pruned (env : Env σ) (h : PrunesTo p.module f blocks) (hmem : f ∈ p.funcs)
    (args : List Image) (depth : Nat) :
    (∃ fr fr', enter env f args depth = .ok fr ∧ enter env f.prune.func args depth = .ok fr' ∧
      Together p fr fr') ∨
      ∃ stop, enter env f args depth = .error stop ∧
        enter env f.prune.func args depth = .error stop := by
  rw [h.prune]
  cases henter : enter env f args depth with
  | ok fr =>
    obtain ⟨fr', henter', before, i, b, b', k, hrel⟩ := PruneRel.enter h.thin henter
    exact .inl ⟨fr, fr', rfl, henter', f, blocks, before, i, b, b', k, hmem, h, hrel⟩
  | error stop =>
    refine .inr ⟨stop, rfl, ?_⟩
    obtain ⟨b, hb, -⟩ := h.checked.entry
    obtain ⟨j, hj, hb⟩ := block?_eq_some_iff.1 hb
    obtain ⟨b', hb', hblock⟩ := (withBlocks_getElem? h.thin j).1 b hb
    rw [← henter, enter, enter, block?_eq_some_iff.2 ⟨j, hj, hb⟩, block?_eq_some_iff.2 ⟨j, hj, hb'⟩]
    dsimp only
    rw [hblock.params]
    cases hset : assign? (Array.replicate f.values.size []) b.params args with
    | none => rfl
    | some regs =>
      split
      · rfl
      · next hdepth =>
        have hok := enter_eq_ok_iff.2 ⟨Nat.lt_of_not_le hdepth, j, b, regs, hj, hb, hset, rfl⟩
        cases hok.symm.trans henter

lemma PruneRel.alike_nil (hpr : PrunesTo p.module f blocks) (hmem : f ∈ p.funcs)
    (h : PruneRel (Dead (blocks.flatMap reads)) f blocks fr fr' before i b b' k)
    (hops : fr.ops = []) (rounds : Nat) (world : World σ) :
    (turn env p rounds fr world).Alike (Together p) (turn env p' rounds fr' world) := by
  rw [turn_nil hops, turn_nil (h.ops_eq_nil hops), h.func, h.place.func, h.nextOf_eq]
  cases hnext : nextOf f fr.regs fr.term with
  | done values => exact .halt _
  | stop stop => exact .halt _
  | jump edge =>
    obtain ⟨next, hjump⟩ := h.place.exists_jump hpr.checked hnext
    obtain ⟨next', hjump', before, i, b, b', k, hrel⟩ := h.jump hpr.thin hnext hjump
    dsimp only
    rw [hjump, hjump']
    exact .go ⟨f, blocks, before, i, b, b', k, hmem, hpr, hrel⟩ _

lemma PruneRel.alike_write (hpr : PrunesTo p.module f blocks) (hmem : f ∈ p.funcs)
    (h : PruneRel (Dead (blocks.flatMap reads)) f blocks fr fr' before i b b' k)
    {rest kept : List Op} (hops : fr.ops = op :: rest) (hleft : fr'.ops = op :: kept)
    (hthin : Thinned (Dead (blocks.flatMap reads)) (b.ops.drop (k + 1)) kept) (vs : List ValueId)
    (images : List Image) :
    (assign? fr.regs vs images = none ∧ assign? fr'.regs vs images = none) ∨
      ∃ regs regs', assign? fr.regs vs images = some regs ∧ assign? fr'.regs vs images = some regs' ∧
        Together p { fr with regs := regs, ops := rest } { fr' with regs := regs', ops := kept } := by
  by_cases hlen : vs.length ≤ images.length
  · obtain ⟨regs, hset⟩ := exists_assign? hlen fr.regs
    obtain ⟨regs', hset'⟩ := exists_assign? hlen fr'.regs
    exact .inr ⟨regs, regs', hset, hset', f, blocks, before, i, b, b', k + 1, hmem, hpr,
      h.keep hops hthin hleft hset hset'⟩
  · have hlt := Nat.lt_of_not_le hlen
    exact .inl ⟨assign?_eq_none hlt, assign?_eq_none hlt⟩

lemma slips_or_abreast (hp : Prunes p p') (world : World σ) (h : Together p fr fr') :
    Slips env p fr world ∨ Abreast env p p' (Together p) fr fr' world := by
  obtain ⟨f, blocks, before, i, b, b', k, hmem, hpr, h⟩ := h
  cases hops : fr.ops with
  | nil => exact .inr (.both fun rounds => h.alike_nil hpr hmem hops rounds world)
  | cons op rest =>
    rcases h.kept_or_gone hops with ⟨kept, hleft, hthinned⟩ | ⟨hdead, hthinned⟩
    · have hargs := h.map_reg hleft
      have hwrite := h.alike_write hpr hmem hops hleft hthinned
      refine .inr ?_
      by_cases hcode : op.code = .call
      · have hname : fr'.func.name = fr.func.name := by rw [h.func, h.place.func]
        cases hcall : p.func? op.callee with
        | none =>
          refine .both fun rounds => ?_
          rw [turn_call hops hcode, turn_call hleft hcode, hp.funcs, hcall]
          exact .halt _
        | some callee =>
          have hcall' : p'.func? op.callee = some callee.prune.func := by
            rw [hp.funcs, hcall, Option.map_some]
          have hin : callee ∈ p.funcs := mem_of_find?_eq_some hcall
          obtain ⟨blocks', hpr'⟩ := exists_prunesTo (hp.ready _ hin).1 (hp.ready _ hin).2
          rcases enter_pruned env hpr' hin (op.args.map (reg fr.regs)) (fr.depth + 1) with
            ⟨inner, inner', henter, henter', hinner⟩ | ⟨stop, henter, henter'⟩
          · rw [← hargs, ← h.depth] at henter'
            refine .calls ⟨hops, hcode, _, hcall, henter⟩ ⟨hleft, hcode, _, hcall', henter'⟩ hinner
              fun r => ?_
            cases r with
            | error stop after =>
              rw [resume, resume, hname]
              exact .halt _
            | ok out after =>
              rw [resume, resume]
              rcases hwrite op.results out with ⟨h₁, h₂⟩ | ⟨regs, regs', h₁, h₂, hrel⟩
              · rw [h₁, h₂]
                exact .halt _
              · rw [h₁, h₂]
                exact .go hrel _
          · refine .both fun rounds => ?_
            rw [turn_call hops hcode, turn_call hleft hcode, hcall, hcall', hargs, h.depth, hname]
            dsimp only
            rw [henter, henter']
            exact .halt _
      · refine .both fun rounds => ?_
        have himages : opImages env p'.module fr'.func fr'.regs op =
            opImages env p.module fr.func fr.regs op := by
          rw [h.func, h.place.func]
          exact opImages_congr hargs rfl rfl rfl hp.runtime
        rw [turn_cons hops, turn_cons hleft, outcome, outcome, if_neg hcode, if_neg hcode, himages]
        cases opImages env p.module fr.func fr.regs op world with
        | error stop after => exact .halt _
        | ok images after =>
          dsimp only [writeImages]
          rcases hwrite (written op) images with ⟨h₁, h₂⟩ | ⟨regs, regs', h₁, h₂, hrel⟩
          · rw [h₁, h₂]
            exact .halt _
          · rw [h₁, h₂]
            exact .go hrel _
    · have hb : b ∈ f.blocks := Array.mem_of_getElem? h.place.block
      have hin : op ∈ b.ops := mem_of_getElem? (h.place.getElem? hops).1
      have hslips : (op.code.handsOut ∨ ∃ stop after,
          execOp env p.module fr.func fr.regs op world = .error stop after) →
          Slips env p fr world := by
        intro hfails
        refine ⟨op, rest, hops, ?_⟩
        rw [h.place.func] at hfails ⊢
        refine ⟨hmem, ⟨b, hb, hin⟩, ?_, hfails⟩
        rw [Dies, hpr.prune]
        simpa using hdead
      by_cases hmemory : op.code.handsOut
      · exact .inl (hslips (.inl hmemory))
      · cases hexec : execOp env p.module fr.func fr.regs op world with
        | error stop after => exact .inl (hslips (.inr ⟨stop, after, hexec⟩))
        | ok regs after =>
          have hvalid := (opFault?_eq_none_iff.1 (funcFault?_eq_none_iff.1 hpr.ready b hb op hin)).1
          have hcode : op.code ≠ .call := by
            intro hcode
            rw [Dead, hcode] at hdead
            exact absurd hdead.1 (by simp [Code.hasSideEffects])
          obtain ⟨rfl, images, hset⟩ :=
            world_eq_of_idle ⟨hdead, by simpa using hmemory⟩ hvalid hexec
          have hnext : Together p { fr with regs := regs, ops := rest } fr' :=
            ⟨f, blocks, before, i, b, b', k + 1, hmem, hpr, h.drop hpr.checked
              (mem_defined_of_thin hpr.checked hpr.thin) hops hdead hthinned hset⟩
          refine .inr (.alone (fun rounds => ?_) hnext (by rw [hops]; exact Nat.lt_succ_self _))
          rw [turn_cons hops, outcome, if_neg hcode, ← execOp_eq_written hcode, hexec]

/-! ## Calls -/

lemma start_pruned (env : Env σ) (hp : Prunes p p') (name : String) (args : List Image) :
    (∃ fr fr', start env p name args = .ok fr ∧ start env p' name args = .ok fr' ∧
      Together p fr fr') ∨
      ∃ stop, start env p name args = .error stop ∧ start env p' name args = .error stop := by
  unfold start
  rw [hp.funcs]
  cases hf : p.func? name with
  | none => exact .inr ⟨_, rfl, rfl⟩
  | some f =>
    have hin : f ∈ p.funcs := mem_of_find?_eq_some hf
    obtain ⟨blocks, hpr⟩ := exists_prunesTo (hp.ready f hin).1 (hp.ready f hin).2
    have hsame : f.prune.func.name = f.name ∧ f.prune.func.params = f.params := by
      rw [hpr.prune]
      exact ⟨rfl, rfl⟩
    have hfault : callFault? f.prune.func args = callFault? f args := by
      rw [callFault?, callFault?, hsame.1, hsame.2]
    dsimp only [Option.map_some]
    rw [hfault, hsame.2]
    cases callFault? f args with
    | some fault => exact .inr ⟨_, rfl, rfl⟩
    | none => exact enter_pruned env hpr hin _ 0

lemma exists_prunes (hp : prepare m = .ok p) :
    (m.run prune).2.isSome ∧
      ∃ p', prepare (m.run prune).1 = .ok p' ∧ Prunes p p' := by
  have hcheck := (prepare_eq_ok_iff.1 hp).1
  have hprune := fun f hf => checked_prune (hcheck f hf)
  obtain ⟨hfuncs, hdone⟩ := Module.passAll_eq fun f hf => (hprune f hf).1
  have hmodule : (m.run prune).1 = { m with funcs := m.funcs.map (·.prune.func) } := by
    rw [← hfuncs]
    rfl
  obtain ⟨p', hp', hruntime, hcalls⟩ := prepare_map (g := (·.prune.func)) hp
    (fun f hf => (hprune f hf).2.1) (fun f hf => (hprune f hf).2.2.1)
    fun f hf => (hprune f hf).2.2.2
  rw [hmodule]
  refine ⟨hdone, p', hp', hruntime, fun f hf => ?_, hcalls⟩
  obtain ⟨-, hready, rfl⟩ := prepare_eq_ok_iff.1 hp
  exact ⟨hcheck f (mem_of_mem_callable hf), hready f hf⟩

lemma inCall_of_start {name : String} {args : List Image} {world world' : World σ} {last : Frame}
    (hstart : start env p name args = .ok fr) (hvisit : Visits env p fr world last world') :
    InCall env p name args world last world' := by
  unfold start at hstart
  split at hstart
  · cases hstart
  · next f hf =>
    split at hstart
    · cases hstart
    · next hfault => exact ⟨f, fr, hf, hfault, hstart, hvisit⟩

/-- Pruning leaves a module that can be made ready if the given one can. A call ends with it as
without, unless it comes to a dead operation that hands out memory, or to one that fails: then it
ends in that failure. -/
theorem pruned_calls_end_alike (env : Env σ) (m : Module) (p : Program) (hp : prepare m = .ok p) :
    (m.run Func.prune).2.isSome = true ∧ ∃ p', prepare (m.run Func.prune).1 = .ok p' ∧
      ∀ (name : String) (args : List Image) (world : World σ),
        (∀ r, CallEnds env p name args world r ↔ CallEnds env p' name args world r) ∨
        ∃ last between op rest, InCall env p name args world last between ∧ last.ops = op :: rest ∧
          last.func ∈ m.funcs ∧ (∃ b ∈ last.func.blocks, op ∈ b.ops) ∧ Dies last.func op ∧
          (op.code.handsOut = true ∨ ∃ stop after callers,
              execOp env m last.func last.regs op between = .error stop after ∧
              CallEnds env p name args world (.error (stop.throughAll callers) after)) := by
  obtain ⟨hdone, p', hp', hprunes⟩ := exists_prunes hp
  have hmodule : p.module = m := by
    obtain ⟨-, -, rfl⟩ := prepare_eq_ok_iff.1 hp
    rfl
  refine ⟨hdone, p', hp', fun name args world => ?_⟩
  rcases start_pruned env hprunes name args with
    ⟨fr, fr', hstart, hstart', htogether⟩ | ⟨stop, hstart, hstart'⟩
  · have habreast : ∀ fr fr' world, Together p fr fr' →
        Slips env p fr world ∨ Abreast env p p' (Together p) fr fr' world :=
      fun fr fr' world => slips_or_abreast hprunes world
    by_cases hslips : ComesTo env p (Slips env p) fr world
    · obtain ⟨last, between, hvisits, op, rest, hops, hmem, hop, hdies, hfails⟩ := hslips
      refine .inr ⟨last, between, op, rest, inCall_of_start hstart hvisits, hops, ?_, hop, hdies, ?_⟩
      · obtain ⟨-, -, rfl⟩ := prepare_eq_ok_iff.1 hp
        exact mem_of_mem_callable hmem
      · refine hfails.imp_right fun ⟨stop, after, hexec⟩ => ?_
        have hcode : op.code ≠ .call := by
          intro hcode
          rw [Dies, Dead, hcode] at hdies
          exact absurd hdies.1 (by simp [Code.hasSideEffects])
        obtain ⟨callers, hends⟩ := hvisits.ends_of_error hops hcode hexec
        rw [hmodule] at hexec
        exact ⟨stop, after, callers, hexec, by rw [CallEnds, hstart]; exact hends⟩
    · refine .inl fun r => ?_
      unfold CallEnds
      rw [hstart, hstart']
      constructor
      · rintro ⟨⟨rounds, hrun⟩, hr⟩
        exact ((both_end habreast htogether hr (.inl hrun)).resolve_left hslips).2
      · rintro ⟨⟨rounds, hrun⟩, hr⟩
        exact ((both_end habreast htogether hr (.inr hrun)).resolve_left hslips).1
  · refine .inl fun r => ?_
    unfold CallEnds
    rw [hstart, hstart']

/-- Divides its parameter by zero, squares it, and returns one of its values. -/
def dividing (result : ValueId) : Func where
  name := "f"
  params := [.int 8]
  results := [.int 8]
  values := #[.int 8, .int 8, .int 8, .int 8]
  blocks := #[
    { id := 0
      params := [0]
      ops := [
        { code := .const, results := [1], type := .int 8, imm := [0] },
        { code := .binary .udiv, results := [2], args := [0, 1], type := .int 8 },
        { code := .binary .mul, results := [3], args := [0, 0], type := .int 8 }]
      term := .ret [result] }]

def dividedByZero : Stop := .trap { code := .assert, message := "udiv by zero", function := "f" }

theorem pruned_division_traps :
    ∃ p, prepare (Module.run ⟨"m", [dividing 2], []⟩ Func.prune).1 = .ok p ∧
      ∀ world : World Unit,
        CallEnds ⟨fun _ => none, 1⟩ p "f" [[7]] world (.error dividedByZero world) := by
  obtain ⟨-, p, hp, hends⟩ :=
    @pruned_calls_end_alike Unit ⟨fun _ => none, 1⟩ ⟨"m", [dividing 2], []⟩ _ rfl
  refine ⟨p, hp, fun world => ?_⟩
  have horiginal : CallEnds ⟨fun _ => none, 1⟩ ⟨⟨"m", [dividing 2], []⟩, [dividing 2]⟩ "f" [[7]] world
      (.error dividedByZero world) := ⟨⟨4, rfl⟩, fun world' h => by simp [dividedByZero] at h⟩
  rcases hends "f" [[7]] world with hsame | ⟨last, between, op, rest, -, -, hfunc, hop, hdies, hfails⟩
  · exact (hsame _).1 horiginal
  obtain hfunc : last.func = dividing 2 := by simpa using hfunc
  rw [hfunc] at hop hdies hfails
  obtain ⟨b, hb, hop⟩ := hop
  obtain rfl : b = _ := by simpa [dividing] using hb
  simp only [mem_cons, not_mem_nil, or_false] at hop
  rcases hop with rfl | rfl | rfl
  · exact absurd (by decide) (hdies.2 1 (by decide))
  · exact absurd (by decide) (hdies.2 2 (by decide))
  · rcases hfails with hmemory | ⟨stop, after, callers, hexec, -⟩
    · exact absurd hmemory (by decide)
    · simp [execOp, pureResult, Word.binary, Word.binaryWide] at hexec

theorem pruned_call_forgets_division :
    (∃ p, prepare ⟨"m", [dividing 0], []⟩ = .ok p ∧ ∀ world : World Unit,
      call ⟨fun _ => none, 1⟩ p "f" [[7]] world = .error dividedByZero world) ∧
    ∃ p, prepare (Module.run ⟨"m", [dividing 0], []⟩ Func.prune).1 = .ok p ∧
      ∀ world : World Unit, call ⟨fun _ => none, 1⟩ p "f" [[7]] world = .ok [[7]] world :=
  ⟨⟨_, rfl, fun _ => rfl⟩, _, rfl, fun _ => rfl⟩

/-- What pruning leaves of an accepted function has side effects or is read, what goes is dead, and a
second run finds nothing more. -/
theorem pruning_leaves_what_is_read (m : Module) (f : Func) (hm : m.verify = .ok ())
    (hf : f ∈ m.funcs) :
    ∃ blocks n, f.prune = .done (f.withBlocks blocks) n ∧
      Forall₂ (Thin (Dead (blocks.flatMap reads))) f.blocks.toList blocks ∧
      n + (blocks.flatMap (·.ops)).length = (f.blocks.toList.flatMap (·.ops)).length ∧
      (∀ op ∈ blocks.flatMap (·.ops), op.code.hasSideEffects = true ∨
        ∃ v ∈ op.results, v ∈ blocks.flatMap reads) ∧
      (f.withBlocks blocks).prune = .done (f.withBlocks blocks) 0 := by
  have hchecked := Module.verify_eq_ok_iff.1 hm f hf
  obtain ⟨blocks, n, heq, hthin, hcount, hlive, -⟩ := exists_prune_eq hchecked
  refine ⟨blocks, n, heq, hthin, hcount, fun op hop => ?_, ?_⟩
  · have hop := hlive op hop
    rw [Dead] at hop
    grind
  · obtain ⟨blocks', n', heq', -, -, -, hstays⟩ := exists_prune_eq (checked_pruned hchecked hthin)
    obtain ⟨rfl, rfl⟩ := hstays hlive
    exact heq'

/-- The constant goes in the second sweep, after the division that reads it. -/
theorem pruning_drops_dividing :
    ∃ f, (dividing 0).prune = .done f 3 ∧ f.prune = .done f 0 := by
  obtain ⟨blocks, n, heq, -, -, -, hagain⟩ :=
    pruning_leaves_what_is_read ⟨"m", [dividing 0], []⟩ _ rfl mem_cons_self
  obtain rfl : 3 = n := congrArg (·.changes.getD 0) heq
  exact ⟨_, heq, hagain⟩

end Sierra.Machine
