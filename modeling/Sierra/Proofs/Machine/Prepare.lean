import Sierra.Machine.Run
import Sierra.Proofs.Ir.Checked

/-!
# Modules made ready to run

A module is made ready when every function is checked, and every operation that calls can reach has
an executable code with the operands and results it needs (`prepare_eq_ok_iff`).
-/

namespace Sierra.Machine

open List
open Ir

variable {g : Func → Func} {fs : List Func} {text : Option String} {fault : Failure} {note : String}
  {m : Module} {f : Func}

/-! ## Functions that calls can reach -/

lemma mem_of_mem_callable (h : f ∈ callable fs) : f ∈ fs := by
  induction fs with
  | nil => exact h
  | cons g rest ih =>
    rw [callable] at h
    split at h
    · exact mem_cons_of_mem _ (ih h)
    · rcases mem_cons.1 h with rfl | h
      · exact mem_cons_self
      · exact mem_cons_of_mem _ (ih h)

lemma callable_of_nodup (h : (fs.map (·.name)).Nodup) : callable fs = fs := by
  induction fs with
  | nil => rfl
  | cons f rest ih =>
    rw [map_cons, nodup_cons] at h
    have hnot : ¬ rest.any (·.name == f.name) := by
      rw [any_eq_true]
      rintro ⟨g, hg, heq⟩
      rw [beq_iff_eq] at heq
      exact h.1 (mem_map.2 ⟨g, hg, heq⟩)
    rw [callable, if_neg hnot, ih h.2]

lemma callable_map (hname : ∀ f ∈ fs, (g f).name = f.name) :
    callable (fs.map g) = (callable fs).map g := by
  induction fs with
  | nil => rfl
  | cons f rest ih =>
    have hrest : ∀ f ∈ rest, (g f).name = f.name := fun f hf => hname f (mem_cons_of_mem _ hf)
    have hany : (rest.map g).any (·.name == (g f).name) = rest.any (·.name == f.name) := by
      rw [hname f mem_cons_self, any_map, Bool.eq_iff_iff, any_eq_true, any_eq_true]
      refine exists_congr fun x => and_congr_right fun hx => ?_
      rw [Function.comp_apply, hrest x hx]
    rw [map_cons, callable, callable, hany]
    split
    · exact ih hrest
    · rw [map_cons, ih hrest]

lemma find?_name_map (hname : ∀ f ∈ fs, (g f).name = f.name) (name : String) :
    (fs.map g).find? (fun f => f.name == name) = (fs.find? fun f => f.name == name).map g := by
  induction fs with
  | nil => rfl
  | cons f rest ih =>
    have hrest : ∀ f ∈ rest, (g f).name = f.name := fun f hf => hname f (mem_cons_of_mem _ hf)
    rw [map_cons, find?_cons, find?_cons, hname f mem_cons_self, ih hrest]
    split <;> rfl

/-! ## Operations that can be executed -/

lemma opFault?_eq_none_iff {op : Op} :
    opFault? op = none ↔ op.code ≠ .invalid ∧ hasShape op ∧
      (op.code = .zero → Bytes.canHold op.type.storeSize) := by
  unfold opFault?
  by_cases hvalid : op.code = .invalid
  · simp [hvalid]
  · by_cases hzero : op.code = .zero
    · simp [hzero]
    · simp [hvalid, hzero]

lemma funcFault?_eq_none_iff :
    funcFault? f = none ↔ ∀ b ∈ f.blocks, ∀ op ∈ b.ops, opFault? op = none := by
  rw [funcFault?, findSome?_eq_none_iff]
  constructor
  · intro h b hb op hop
    obtain ⟨i, hi⟩ := mem_iff_getElem?.1 (Array.mem_toList_iff.2 hb)
    obtain ⟨j, hj⟩ := mem_iff_getElem?.1 hop
    have hblock := h (b, i) (mk_mem_zipIdx_iff_getElem?.2 hi)
    rw [findSome?_eq_none_iff] at hblock
    have hfault := hblock (op, j) (mk_mem_zipIdx_iff_getElem?.2 hj)
    exact Option.map_eq_none_iff.1 hfault
  · rintro h ⟨b, i⟩ hb
    rw [findSome?_eq_none_iff]
    rintro ⟨op, j⟩ hop
    have hblock : b ∈ f.blocks :=
      Array.mem_toList_iff.1 (mem_of_getElem? (mk_mem_zipIdx_iff_getElem?.1 hb))
    have hmem : op ∈ b.ops := mem_of_getElem? (mk_mem_zipIdx_iff_getElem?.1 hop)
    exact Option.map_eq_none_iff.2 (h b hblock op hmem)

/-! ## Making ready -/

lemma prepare_eq_ok_iff {p : Program} :
    prepare m = .ok p ↔ (∀ f ∈ m.funcs, f.Checked m) ∧
      (∀ f ∈ callable m.funcs, funcFault? f = none) ∧ p = ⟨m, callable m.funcs⟩ := by
  rw [← Module.verify_eq_ok_iff, ← findSome?_eq_none_iff]
  unfold prepare
  cases hverify : m.verify with
  | error cause => simp
  | ok _ =>
    dsimp only
    cases hfault : (callable m.funcs).findSome? funcFault? with
    | some fault => simp
    | none => simp [eq_comm]

lemma noted_eq_crash_iff : fault.noted note = .crash text ↔ fault = .crash text := by
  cases fault <;> simp [Failure.noted]

lemma reportAs_eq_crash_iff {kind : Kind} :
    fault.reportAs kind note = .crash text ↔ fault = .crash text := by
  cases fault <;> simp [Failure.reportAs]

lemma exists_opFault_of_prepare (h : prepare m = .error (.crash text)) :
    ∃ f ∈ m.funcs, ∃ b ∈ f.blocks, ∃ op ∈ b.ops, opFault? op = some (.crash text) := by
  unfold prepare at h
  split at h
  · cases h
  dsimp only at h
  split at h
  · next fault hfault =>
    rw [Except.error.injEq, reportAs_eq_crash_iff] at h
    subst h
    obtain ⟨f, hf, hfunc⟩ := exists_of_findSome?_eq_some hfault
    obtain ⟨⟨b, i⟩, hb, hblock⟩ := exists_of_findSome?_eq_some hfunc
    obtain ⟨⟨op, j⟩, hop, hmap⟩ := exists_of_findSome?_eq_some hblock
    obtain ⟨cause, hcause, hnoted⟩ := Option.map_eq_some_iff.1 hmap
    rw [noted_eq_crash_iff] at hnoted
    subst hnoted
    refine ⟨f, mem_of_mem_callable hf, b, ?_, op, ?_, hcause⟩
    · exact Array.mem_toList_iff.1 (mem_of_getElem? (mk_mem_zipIdx_iff_getElem?.1 hb))
    · exact mem_of_getElem? (mk_mem_zipIdx_iff_getElem?.1 hop)
  · cases h

end Sierra.Machine
