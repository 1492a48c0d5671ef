import Sierra.Ir.Optimize
import Sierra.Proofs.Optimize.Fold
import Sierra.Proofs.Optimize.Merge
import Sierra.Proofs.Optimize.Prune

/-!
# Optimized code does the same work

Calls that return values return the same after the passes, with the same heap and host state.
Folding needs types with widths. Simplifying forgets the parameters of blocks that only jump on, and
folding may make such blocks, so blocks without operations have to keep their parameters to
themselves. A pass leaves an accepted module accepted if it suits the functions (`Pass.Suits`).
-/

namespace Sierra.Ir

open List

variable {f : Func}

lemma Passed.andThen_of_isSome {p : Passed} (h : p.changes.isSome)
    (next : Func → Passed) : p.andThen next = next p.func :=
  if_pos h

lemma Module.passAll_eq {pass : Func → Passed} {fs : List Func}
    (h : ∀ f ∈ fs, (pass f).changes.isSome) :
    (passAll pass fs).1 = fs.map (fun f => (pass f).func) ∧ (passAll pass fs).2.isSome := by
  induction fs with
  | nil => exact ⟨rfl, rfl⟩
  | cons f rest ih =>
    obtain ⟨hfuncs, hcount⟩ := ih fun g hg => h g (mem_cons_of_mem _ hg)
    have hf := h f mem_cons_self
    rw [passAll, map_cons]
    generalize pass f = passed at hf ⊢
    obtain ⟨func, changes⟩ := passed
    cases changes with
    | none => cases hf
    | some n =>
      dsimp only
      exact ⟨by rw [hfuncs], by rw [Option.isSome_map, hcount]⟩

lemma Func.Checked.of_sameSignatures {m m' : Module} (hsig : SameSignatures m m')
    (h : f.Checked m) : f.Checked m' := by
  refine ⟨h.entry, h.range, h.nodup, h.place, fun b hb => ?_⟩
  have hblock := h.block b hb
  refine ⟨hblock.operands, fun op hop => ?_, hblock.closed, hblock.uses, hblock.edges, hblock.term⟩
  rw [opProblem?_congr hsig rfl rfl rfl]
  exact hblock.ops op hop

def Func.SameSignature (f f' : Func) : Prop :=
  f'.name = f.name ∧ f'.params = f.params ∧ f'.results = f.results

lemma Func.SameSignature.trans {f' f'' : Func} (h : f.SameSignature f')
    (h' : f'.SameSignature f'') : f.SameSignature f'' :=
  ⟨h'.1.trans h.1, h'.2.1.trans h.2.1, h'.2.2.trans h.2.2⟩

def Func.folded (passes : Passes) (f : Func) : Func := if passes.fold then f.fold.func else f

lemma Func.mem_zipIdx (f : Func) {b : Block} {i : Nat} :
    (b, i) ∈ f.blocks.toList.zipIdx ↔ f.blocks[i]? = some b := by
  rw [mk_mem_zipIdx_iff_getElem?, Array.getElem?_toList]

/-- The parameters of blocks without operations are read by their own terminators only. -/
def Func.OpFreeLocal (f : Func) : Prop :=
  ∀ e ∈ f.blocks.toList.zipIdx, e.1.ops = [] → ∀ v ∈ e.1.params,
    ∀ e' ∈ f.blocks.toList.zipIdx,
      (∀ op ∈ e'.1.ops, v ∉ op.args) ∧ (v ∈ e'.1.term.uses → e'.2 = e.2)

instance (f : Func) : Decidable f.OpFreeLocal := by
  unfold Func.OpFreeLocal
  infer_instance

lemma Func.OpFreeLocal.bareLocal (h : f.OpFreeLocal) : f.BareLocal :=
  fun _ _ hb hbare v hv _ _ hc => h _ (f.mem_zipIdx.2 hb) hbare.1 v hv _ (f.mem_zipIdx.2 hc)

lemma Leads.eq_or_operand {u v : ValueId} (h : Leads f u v) :
    u = v ∨ ∃ (i k : Nat) (op : Op), f.OpAt i k op ∧ v ∈ op.args := by
  induction h with
  | refl => exact .inl rfl
  | step hstands _ ih =>
    rcases ih with rfl | hoperand
    · obtain ⟨i, k, op, hop, -, hv⟩ := hstands.mem_args
      exact .inr ⟨i, k, op, hop, hv⟩
    · exact .inr hoperand

/-- Folding renames to operands and empties no block, so it cannot move a parameter out of a block
that had no operations before. -/
lemma Func.OpFreeLocal.bareLocal_fold {m : Module} (h : f.OpFreeLocal)
    (hf : f.Valid m) (_ : Machine.Narrow f) : f.fold.func.BareLocal := by
  obtain ⟨g, blocks, n, hg, hfin, hfold⟩ := exists_fold_eq hf
  rw [hfold]
  intro i b' hb' hbare v hv j c' hc'
  obtain ⟨b, hb, hblock⟩ := (Func.withBlocks_getElem? hfin i).2 b' hb'
  obtain ⟨c, hc, hother⟩ := (Func.withBlocks_getElem? hfin j).2 c' hc'
  rw [hblock.params] at hv
  have hops : b.ops = [] := by
    have hforall := hblock.ops
    rw [hbare.1] at hforall
    exact forall₂_nil_right_iff.1 hforall
  have hlocal := h _ (f.mem_zipIdx.2 hb) hops v hv
  -- a value renamed to the parameter is the parameter: nothing operates on it
  have hrenamed : ∀ u, v = g u → u = v := by
    intro u hu
    rcases hu ▸ (hg u).eq_or_operand with heq | ⟨k, l, op, ⟨d, hd, hop⟩, hmem⟩
    · exact heq
    · exact absurd hmem ((hlocal _ (f.mem_zipIdx.2 hd)).1 op (mem_of_getElem? hop))
  refine ⟨fun op' hop' hmem => ?_, fun huse => ?_⟩
  · obtain ⟨op, hop, hrel⟩ := (forall₂_mem hother.ops).2 op' hop'
    rcases hrel with rfl | ⟨z, -, rfl⟩
    · obtain ⟨u, hu, hgu⟩ := List.mem_map.1 hmem
      rw [hrenamed u hgu.symm] at hu
      exact (hlocal _ (f.mem_zipIdx.2 hc)).1 op hop hu
    · cases hmem
  · obtain ⟨u, hu, hgu⟩ := hother.exists_use huse
    rw [hrenamed u hgu] at hu
    exact (hlocal _ (f.mem_zipIdx.2 hc)).2 hu

def Func.flowed (passes : Passes) (f : Func) : Passed :=
  if passes.flow || passes.fold then (f.folded passes).simplify.mergeLinear
  else .done (f.folded passes) 0

lemma Func.optimize_eq {passes : Passes} (hfold : passes.fold → f.fold.changes.isSome)
    (hflow : (f.flowed passes).changes.isSome) :
    f.optimize passes = if passes.deadCode then (f.flowed passes).func.prune
      else .done (f.flowed passes).func 0 := by
  have hfolded : (if passes.fold then f.fold else .done f 0).changes.isSome = true ∧
      (if passes.fold then f.fold else .done f 0).func = f.folded passes := by
    unfold Func.folded
    split
    · next h => exact ⟨hfold h, rfl⟩
    · exact ⟨rfl, rfl⟩
  show (((if passes.fold then f.fold else .done f 0).andThen _).andThen _) = _
  rw [Passed.andThen_of_isSome hfolded.1, hfolded.2]
  exact Passed.andThen_of_isSome hflow _

end Sierra.Ir

namespace Sierra.Machine

open Ir

variable {σ : Type} {m : Module} {f : Func} {g : Func → Func} {env : Env σ} {p : Program}

lemma Replaces.sameSignature {f' : Func} (h : Replaces env m f f') : f.SameSignature f' :=
  ⟨h.name, h.params, h.results⟩

lemma checked_prune (hf : f.Checked m) :
    f.prune.changes.isSome ∧ f.prune.func.Checked m ∧ f.SameSignature f.prune.func ∧
      (funcFault? f = none → funcFault? f.prune.func = none) := by
  obtain ⟨blocks, n, heq, hthin, -⟩ := exists_prune_eq hf
  rw [heq]
  exact ⟨rfl, checked_pruned hf hthin, ⟨rfl, rfl, rfl⟩, ready_of_thin hthin⟩

section

variable (env : Env σ) (passes : Ir.Passes) (hf : f.Valid m)
  (hnarrow : passes.fold = true → Narrow f)

include hf hnarrow

lemma replaces_folded : (f.folded passes).Valid m ∧ Replaces env m f (f.folded passes) := by
  unfold Func.folded
  split
  · next hfold => exact (replaces_fold env hf (hnarrow hfold)).2
  · exact ⟨hf, .refl env m f⟩

variable (hlocal : (passes.flow || passes.fold) = true → (f.folded passes).BareLocal)

include hlocal

lemma replaces_flowed :
    (f.flowed passes).changes.isSome ∧ (f.flowed passes).func.Valid m ∧
      Replaces env m f (f.flowed passes).func := by
  obtain ⟨hvalid, hfolded⟩ := replaces_folded env passes hf hnarrow
  unfold Func.flowed
  split
  · next hflow =>
    obtain ⟨hvalid', hsimplify, -, hbare⟩ := replaces_simplify env hvalid (hlocal hflow)
    obtain ⟨hdone, hvalid'', hmerge⟩ := replaces_mergeLinear env hvalid' hbare
    exact ⟨hdone, hvalid'', (hfolded.trans hsimplify).trans hmerge⟩
  · exact ⟨rfl, hvalid, hfolded⟩

lemma checked_optimize :
    (f.optimize passes).changes.isSome ∧ (f.optimize passes).func.Checked m ∧
      f.SameSignature (f.optimize passes).func ∧
      ((f.optimize passes).func.allocations =
        (f.optimize { passes with deadCode := false }).func.allocations →
          Replaces env m f (f.optimize passes).func) := by
  have hfold : passes.fold → f.fold.changes.isSome = true := fun h =>
    (replaces_fold env hf (hnarrow h)).1
  obtain ⟨hdone, hvalid, hflowed⟩ := replaces_flowed env passes hf hnarrow hlocal
  have hplain : f.optimize { passes with deadCode := false } = .done (f.flowed passes).func 0 :=
    Func.optimize_eq hfold hdone
  rw [hplain, Func.optimize_eq hfold hdone]
  cases passes.deadCode with
  | true =>
    obtain ⟨hpruned, hcheck, hsig, -⟩ := checked_prune hvalid.checked
    exact ⟨hpruned, hcheck, hflowed.sameSignature.trans hsig,
      fun hmemory => hflowed.trans (replaces_prune env hvalid hmemory)⟩
  | false => exact ⟨rfl, hvalid.checked, hflowed.sameSignature, fun _ => hflowed⟩

end

lemma sameSignatures_map (hg : ∀ f ∈ m.funcs, f.SameSignature (g f)) :
    SameSignatures m { m with funcs := m.funcs.map g } := by
  refine ⟨rfl, fun name => ?_⟩
  rw [Module.func?, Module.func?, find?_name_map fun f hf => (hg f hf).1, Option.map_map]
  cases hfind : m.funcs.find? fun f => f.name == name with
  | none => rfl
  | some f =>
    obtain ⟨-, hparams, hres⟩ := hg f (List.mem_of_find?_eq_some hfind)
    rw [Option.map_some, Option.map_some, Function.comp_apply, hparams, hres]

lemma checked_map (hg : ∀ f ∈ m.funcs, f.SameSignature (g f))
    (hcheck : ∀ f ∈ m.funcs, (g f).Checked m) :
    ∀ f ∈ m.funcs.map g, f.Checked { m with funcs := m.funcs.map g } := by
  intro f' hf'
  obtain ⟨f, hf, rfl⟩ := List.mem_map.1 hf'
  exact (hcheck f hf).of_sameSignatures (sameSignatures_map hg)

lemma prepare_map (hp : prepare m = .ok p)
    (hcheck : ∀ f ∈ m.funcs, (g f).Checked m) (hsig : ∀ f ∈ m.funcs, f.SameSignature (g f))
    (hready : ∀ f ∈ m.funcs, funcFault? f = none → funcFault? (g f) = none) :
    ∃ p', prepare { m with funcs := m.funcs.map g } = .ok p' ∧
      p'.module.runtime = p.module.runtime ∧ ∀ name, p'.func? name = (p.func? name).map g := by
  obtain ⟨-, hfaults, rfl⟩ := prepare_eq_ok_iff.1 hp
  have hname : ∀ f ∈ m.funcs, (g f).name = f.name := fun f hf => (hsig f hf).1
  have hcallable : ∀ f ∈ callable m.funcs, f ∈ m.funcs := fun f => mem_of_mem_callable
  refine ⟨_, prepare_eq_ok_iff.2 ⟨checked_map hsig hcheck, ?_, rfl⟩, rfl, fun name => ?_⟩
  · intro f' hf'
    rw [callable_map hname] at hf'
    obtain ⟨f, hf, rfl⟩ := List.mem_map.1 hf'
    exact hready f (hcallable f hf) (hfaults f hf)
  · rw [Program.func?, callable_map hname, find?_name_map fun f hf => hname f (hcallable f hf)]
    rfl

lemma calls_of_replaces (henv : env.Blind) (hp : prepare m = .ok p)
    (hcheck : ∀ f ∈ m.funcs, (g f).Checked m) (hg : ∀ f ∈ m.funcs, Replaces env m f (g f)) :
    ∃ p', prepare { m with funcs := m.funcs.map g } = .ok p' ∧
      ∀ (name : String) (args values : List Image) (world after : World σ),
        call env p name args world = .ok values after →
        ∃ after', call env p' name args world = .ok values after' ∧ SameWorld after after' := by
  obtain ⟨p', hp', hruntime, hfuncs⟩ := prepare_map hp hcheck
    (fun f hf => (hg f hf).sameSignature) fun f hf => (hg f hf).ready
  obtain ⟨-, hready, rfl⟩ := prepare_eq_ok_iff.1 hp
  refine ⟨p', hp', fun name args values world after =>
    call_refines henv ⟨hruntime, fun name f hf => ?_⟩ (.refl world)⟩
  have hmem : f ∈ callable m.funcs := List.mem_of_find?_eq_some hf
  have hrepl := hg f (mem_of_mem_callable hmem)
  exact ⟨g f, by rw [hfuncs, hf]; rfl, hrepl.name, hrepl.params, hrepl.refines (hready f hmem)⟩

/-- The passes go through, the optimized module is made ready, and a call that returns values
returns the same with the same heap. -/
theorem optimized_calls_return_same_values (env : Env σ) (henv : env.Blind) (passes : Ir.Passes)
    (m : Module) (p : Program) (hp : prepare m = .ok p)
    (hbuilt : ∀ f ∈ m.funcs, f.Dominated ∧ f.Built)
    (hnarrow : passes.fold = true → ∀ f ∈ m.funcs, Narrow f)
    (hlocal : (passes.flow || passes.fold) = true → ∀ f ∈ m.funcs, (f.folded passes).BareLocal)
    (hmemory : ∀ f ∈ m.funcs, (f.optimize passes).func.allocations =
      (f.optimize { passes with deadCode := false }).func.allocations) :
    (m.optimize passes).2 = true ∧ ∃ p', prepare (m.optimize passes).1 = .ok p' ∧
      ∀ (name : String) (args values : List Image) (world after : World σ),
        call env p name args world = .ok values after →
        ∃ after', call env p' name args world = .ok values after' ∧
          after'.heap = after.heap ∧ after'.host = after.host := by
  have hchecked := (prepare_eq_ok_iff.1 hp).1
  have hall : ∀ f ∈ m.funcs, (f.optimize passes).changes.isSome = true ∧
      (f.optimize passes).func.Checked m ∧ Replaces env m f (f.optimize passes).func := by
    intro f hf
    obtain ⟨hdone, hfunc, -, hreplaces⟩ := checked_optimize env passes
      ⟨hchecked f hf, (hbuilt f hf).1, (hbuilt f hf).2⟩ (fun h => hnarrow h f hf)
      fun h => hlocal h f hf
    exact ⟨hdone, hfunc, hreplaces (hmemory f hf)⟩
  obtain ⟨hfuncs, hdone⟩ := Module.passAll_eq fun f hf => (hall f hf).1
  obtain ⟨p', hp', hcalls⟩ :=
    calls_of_replaces henv hp (fun f hf => (hall f hf).2.1) (fun f hf => (hall f hf).2.2)
  rw [← hfuncs] at hp'
  refine ⟨hdone, p', hp', fun name args values world after hcall => ?_⟩
  obtain ⟨after', hcall', hsame⟩ := hcalls name args values world after hcall
  exact ⟨after', hcall', hsame.1.symm, hsame.2.symm⟩

/-- Adds one on either way of a decided branch, and computes a square that nobody reads. -/
def detour : Func where
  name := "f"
  params := [.int 8]
  results := [.int 8]
  values := #[.int 8, .int 1, .int 8, .int 8, .int 8, .int 8, .int 8, .int 8]
  blocks := #[
    { id := 0
      params := [0]
      ops := [{ code := .const, results := [1], type := .int 1, imm := [1] }]
      term := .condBr 1 ⟨1, [0]⟩ ⟨2, [0]⟩ },
    { id := 1, params := [2], term := .br ⟨3, [2]⟩ },
    { id := 2, params := [3], term := .br ⟨3, [3]⟩ },
    { id := 3
      params := [4]
      ops := [
        { code := .const, results := [5], type := .int 8, imm := [1] },
        { code := .binary .add, results := [6], args := [4, 5], type := .int 8 },
        { code := .binary .mul, results := [7], args := [6, 6], type := .int 8 }]
      term := .ret [6] }]

lemma narrow_detour : Narrow detour := ⟨by decide, by decide⟩

lemma dominated_detour : detour.Dominated := Func.dominated_of_local (by decide) (by decide)

theorem optimized_detour_adds_one :
    (∃ p, prepare (Module.optimize ⟨true, false, true⟩ ⟨"m", [detour], []⟩).1 = .ok p ∧
      ∀ world : World Unit, ∃ after, call ⟨fun _ => none, 1⟩ p "f" [[7]] world = .ok [[8]] after ∧
        after.heap = world.heap ∧ after.host = world.host) ∧
    ∃ p, prepare (Module.optimize ⟨false, true, false⟩ ⟨"m", [detour], []⟩).1 = .ok p ∧
      ∀ world : World Unit, ∃ after, call ⟨fun _ => none, 1⟩ p "f" [[7]] world = .ok [[8]] after ∧
        after.heap = world.heap ∧ after.host = world.host := by
  have hvalid : detour.Valid ⟨"m", [detour], []⟩ :=
    ⟨Module.verify_eq_ok_iff.1 rfl _ (by simp), dominated_detour, by decide⟩
  have hsealed : detour.OpFreeLocal := by
    unfold Func.OpFreeLocal
    decide
  have hsame := fun passes => @optimized_calls_return_same_values Unit ⟨fun _ => none, 1⟩
    (fun _ _ h => absurd h (by simp)) passes ⟨"m", [detour], []⟩ _ rfl
    (by simpa using ⟨dominated_detour, hvalid.built⟩) (fun _ => by simpa using narrow_detour)
  constructor
  · obtain ⟨-, p, hp, hcalls⟩ := hsame ⟨true, false, true⟩
      (fun _ => by simpa [Func.folded] using hsealed.bareLocal_fold hvalid narrow_detour)
      (fun _ _ => rfl)
    exact ⟨p, hp, fun world =>
      hcalls "f" [[7]] [[8]] world { world with steps := world.steps + 2 } rfl⟩
  · obtain ⟨-, p, hp, hcalls⟩ := hsame ⟨false, true, false⟩
      (fun h => absurd h (by decide)) (by decide)
    exact ⟨p, hp, fun world =>
      hcalls "f" [[7]] [[8]] world { world with steps := world.steps + 2 } rfl⟩

/-! ## One pass on some functions -/

inductive Pass
  | simplify | mergeLinear | fold | prune

namespace Pass

def run (f : Func) : Pass → Passed
  | simplify => .done f.simplify 0
  | mergeLinear => f.mergeLinear
  | fold => f.fold
  | prune => f.prune

/-- What a pass needs of a function that follows the rules. -/
def Suits (f : Func) : Pass → Prop
  | simplify | mergeLinear => f.Dominated ∧ f.Built ∧ f.BareLocal
  | fold => f.Dominated ∧ f.Built ∧ Narrow f
  | prune => True

def runOn (pass : Pass) (chosen : Func → Bool) (m : Module) : Module :=
  { m with funcs := m.funcs.map fun f => if chosen f then (pass.run f).func else f }

lemma checked_run {pass : Pass} (hf : f.Checked m) (h : pass.Suits f) :
    (pass.run f).changes.isSome ∧ (pass.run f).func.Checked m ∧
      f.SameSignature (pass.run f).func := by
  let env : Env Unit := ⟨fun _ => none, 0⟩
  cases pass with
  | simplify =>
    obtain ⟨hvalid, hrepl, -⟩ := replaces_simplify env ⟨hf, h.1, h.2.1⟩ h.2.2
    exact ⟨rfl, hvalid.checked, hrepl.sameSignature⟩
  | mergeLinear =>
    obtain ⟨hdone, hvalid, hrepl⟩ := replaces_mergeLinear env ⟨hf, h.1, h.2.1⟩ h.2.2
    exact ⟨hdone, hvalid.checked, hrepl.sameSignature⟩
  | fold =>
    obtain ⟨hdone, hvalid, hrepl⟩ := replaces_fold env ⟨hf, h.1, h.2.1⟩ h.2.2
    exact ⟨hdone, hvalid.checked, hrepl.sameSignature⟩
  | prune =>
    obtain ⟨hdone, hcheck, hsig, -⟩ := checked_prune hf
    exact ⟨hdone, hcheck, hsig⟩

/-- A pass on functions that suit it goes through, and leaves an accepted module accepted. -/
theorem verify_runOn (pass : Pass) (chosen : Func → Bool) (m : Module) (hm : m.verify = .ok ())
    (hsuits : ∀ f ∈ m.funcs, chosen f = true → pass.Suits f) :
    (∀ f ∈ m.funcs, chosen f = true → (pass.run f).changes.isSome = true) ∧
      (pass.runOn chosen m).verify = .ok () := by
  have hchecked := Module.verify_eq_ok_iff.1 hm
  have hrun : ∀ f ∈ m.funcs, (if chosen f then (pass.run f).func else f).Checked m ∧
      f.SameSignature (if chosen f then (pass.run f).func else f) := by
    intro f hf
    split
    · next hf' => exact (checked_run (hchecked f hf) (hsuits f hf hf')).2
    · exact ⟨hchecked f hf, rfl, rfl, rfl⟩
  exact ⟨fun f hf hf' => (checked_run (hchecked f hf) (hsuits f hf hf')).1,
    Module.verify_eq_ok_iff.2 (checked_map (fun f hf => (hrun f hf).2) fun f hf => (hrun f hf).1)⟩

theorem verify_runOn_detour :
    (mergeLinear.runOn (fun _ => true) ⟨"m", [detour], []⟩).verify = .ok () ∧
      (fold.runOn (fun _ => true) ⟨"m", [detour], []⟩).verify = .ok () := by
  have hlocal : detour.OpFreeLocal := by
    unfold Func.OpFreeLocal
    decide
  constructor
  · refine (verify_runOn mergeLinear _ ⟨"m", [detour], []⟩ rfl fun f hf _ => ?_).2
    exact List.mem_singleton.1 hf ▸ ⟨dominated_detour, by decide, hlocal.bareLocal⟩
  · refine (verify_runOn fold _ ⟨"m", [detour], []⟩ rfl fun f hf _ => ?_).2
    exact List.mem_singleton.1 hf ▸ ⟨dominated_detour, by decide, narrow_detour⟩

/-- Returns what a block that only jumps on has received. -/
def leak : Func where
  name := "f"
  params := [.int 8]
  results := [.int 8]
  values := #[.int 8, .int 8]
  blocks := #[{ id := 0, params := [0], term := .br ⟨1, [0]⟩ },
    { id := 1, params := [1], term := .br ⟨2, []⟩ }, { id := 2, term := .ret [1] }]

/-- Simplifying passes the block over, and the value it received is gone. -/
theorem verify_simplify_leak : Module.verify ⟨"m", [leak], []⟩ = .ok () ∧
    (simplify.runOn (fun _ => true) ⟨"m", [leak], []⟩).verify ≠ .ok () := by
  refine ⟨rfl, fun h => ?_⟩
  rw [Module.verify_eq_ok_iff, ← Module.isVerified_iff] at h
  exact absurd h (by decide +kernel)

end Pass

end Sierra.Machine
