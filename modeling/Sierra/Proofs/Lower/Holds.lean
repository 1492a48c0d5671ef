import Sierra.Lower
import Sierra.Proofs.Lower.Rule
import Sierra.Proofs.Machine.Registers

/-!
# Values of live variables

`Holds` says that the values assigned to variables are in registers what the store has. Taking
arguments and bringing results keeps it.
-/

namespace Sierra.Lower

open List Option
open Ir Machine

variable {regs regs' : Array Image} {values : Values} {store left : Store} {images : List Image}
  {args : List ValueId} {vs : List VarId} {v : VarId}

def Holds (regs : Array Image) (values : Values) (store : Store) : Prop :=
  ∀ v, (valueOf? values v).map (reg regs) = (store.find? v).map (·.image)

lemma Holds.eq_image (h : Holds regs values store) {b : Binding} (hb : store.find? v = some b) :
    valueOf? values v = some (valueOf values v) ∧ reg regs (valueOf values v) = b.image := by
  have hv := h v
  rw [hb] at hv
  obtain ⟨value, hval, himg⟩ := map_eq_some_iff.1 hv
  rw [valueOf, hval]
  exact ⟨rfl, himg⟩

lemma Holds.map_valueOf (h : Holds regs values store)
    (htake : store.take vs = some (images, left)) :
    (vs.map (valueOf values)).map (reg regs) = images := by
  obtain ⟨himages, -⟩ := Store.take_eq_some htake
  clear htake
  induction himages with
  | nil => rfl
  | cons hv _ ih =>
    obtain ⟨b, hb, rfl⟩ := map_eq_some_iff.1 hv
    rw [map_cons, map_cons, ih, (h.eq_image hb).2]

lemma holds_zip {vars : Vars} (hfits : store.Fits vars) {params : List ValueId}
    (hparams : params.map (reg regs) = store.images) :
    Holds regs ((vars.map (·.1)).zip params) store := by
  intro v
  unfold Store.Fits at hfits
  unfold Store.images at hparams
  unfold valueOf? Store.find?
  generalize store.bindings = bs at hfits hparams ⊢
  induction hfits generalizing params with
  | nil => simp
  | @cons b entry bs vars hfirst _ ih =>
    cases params with
    | nil => simp at hparams
    | cons value params =>
      obtain ⟨himg, hrest⟩ := cons.inj hparams
      by_cases hv : b.var = v
      · simp [hv, ← hfirst.1, himg]
      · simpa [hv, ← hfirst.1] using ih hrest

lemma Holds.set (h : Holds regs values store) {value : ValueId}
    (hkept : ∀ entry ∈ values, reg regs' entry.2 = reg regs entry.2) :
    Holds regs' (values.map fun (u, w) => if u = v then (u, value) else (u, w))
      (store.set v (reg regs' value)) := by
  intro u
  have hval : valueOf? (values.map fun (u, w) => if u = v then (u, value) else (u, w)) u =
      (valueOf? values u).map fun w => if u = v then value else w := by
    unfold valueOf?
    rw [find?_map]
    have hcomp : ((fun entry : VarId × ValueId => entry.1 == u) ∘ fun (u, w) =>
        if u = v then (u, value) else (u, w)) = fun entry => entry.1 == u := by
      funext entry
      dsimp only [Function.comp]
      split <;> rfl
    rw [hcomp]
    cases hfind : values.find? fun entry => entry.1 == u with
    | none => rfl
    | some entry =>
      have hu : entry.1 = u := by simpa using find?_some hfind
      simp only [map_some, hu]
      split <;> rfl
  rw [hval, Store.find?_set]
  have hu := h u
  cases hold : valueOf? values u with
  | none =>
    rw [hold] at hu
    rw [map_eq_none_iff.1 hu.symm]
    rfl
  | some w =>
    rw [hold] at hu
    obtain ⟨b, hb, himg⟩ := map_eq_some_iff.1 hu.symm
    have hvar : b.var = u := (Store.mem_of_find? hb).2
    rw [hb]
    simp only [map_some, hvar]
    split
    · rfl
    · obtain ⟨entry, hentry, rfl⟩ := map_eq_some_iff.1 hold
      rw [hkept entry (mem_of_find?_eq_some hentry), himg]

lemma Holds.congr (h : Holds regs values store)
    (hkept : ∀ entry ∈ values, reg regs' entry.2 = reg regs entry.2) : Holds regs' values store := by
  intro v
  rw [← h v]
  cases hv : valueOf? values v with
  | none => rfl
  | some w =>
    obtain ⟨entry, hentry, rfl⟩ := map_eq_some_iff.1 hv
    rw [map_some, map_some, hkept entry (mem_of_find?_eq_some hentry)]

lemma map_bindAll {vars : List (VarId × TypeId)} (h : images.length = vars.length) :
    (bindAll vars images).map (fun b => (b.var, b.type)) = vars := by
  unfold bindAll
  exact ext_getElem (by simp [h]) fun k hk hk' => by simp

lemma valueOf?_append (xs ys : Values) (v : VarId) :
    valueOf? (xs ++ ys) v = (valueOf? xs v).or (valueOf? ys v) := by
  unfold valueOf?
  rw [find?_append, map_or]

lemma Holds.bring (h : Holds regs values store)
    (htake : store.take vs = some (images, left)) {remaining : Vars} (hfits : left.Fits remaining)
    {results : List (VarId × TypeId)} {outputs : List ValueId}
    (hlen : outputs.length = results.length)
    (hnodup : ((bindAll results (outputs.map (reg regs))).map (·.var)).Nodup) :
    Holds regs ((results.map (·.1)).zip outputs ++ remaining.map fun (v, _) => (v, valueOf values v))
      (left.bring (bindAll results (outputs.map (reg regs)))) := by
  intro v
  rw [valueOf?_append, Store.find?_bring hnodup, map_or, map_or]
  have hres : (valueOf? ((results.map (·.1)).zip outputs) v).map (reg regs) =
      ((bindAll results (outputs.map (reg regs))).find? fun b => b.var == v).map (·.image) := by
    clear hnodup
    induction results generalizing outputs with
    | nil => simp [bindAll, valueOf?]
    | cons entry results ih =>
      cases outputs with
      | nil => simp at hlen
      | cons output outputs =>
        have ih := ih (by simpa using hlen)
        unfold valueOf? bindAll at ih ⊢
        by_cases hv : entry.1 = v
        · simp [hv]
        · simpa [hv] using ih
  have hkept : (valueOf? (remaining.map fun (v, _) => (v, valueOf values v)) v).map (reg regs) =
      (left.find? v).map (·.image) := by
    have hval : valueOf? (remaining.map fun (v, _) => (v, valueOf values v)) v =
        if (remaining.find? v).isSome then some (valueOf values v) else none := by
      unfold valueOf? Vars.find?
      clear hfits
      induction remaining with
      | nil => rfl
      | cons entry remaining ih =>
        by_cases hv : entry.1 = v
        · simp [hv]
        · rw [map_cons, find?_cons_of_neg (by simpa using hv),
            find?_cons_of_neg (by simpa using hv)]
          exact ih
    rw [hval, ← hfits.isSome_find?]
    cases hleft : left.find? v with
    | none => rfl
    | some b =>
      rw [isSome_some, if_pos rfl, map_some, map_some,
        (h.eq_image ((Store.take_eq_some htake).2 v b hleft)).2]
  rw [hres, hkept]

/-! ## Going on -/

lemma Plan.arrange_eq_ok {p : Plan} {index : Int}
    (h : p.arrange index values = .ok args) : ∃ n, p.flow.node? index = some n ∧
      Forall₂ (fun entry value => valueOf? values entry.1 = some value) n.state args := by
  unfold Plan.arrange at h
  split at h
  · cases h
  · next n hn =>
    refine ⟨n, hn, (forall₂_of_mapM h).imp fun entry value hval => ?_⟩
    dsimp only at hval
    split at hval
    · next found hfound => rw [hfound, Except.ok.inj hval]
    · cases hval

lemma Holds.images_eq (h : Holds regs values store) {vars : Vars} (hfits : store.Fits vars)
    (hargs : Forall₂ (fun entry value => valueOf? values entry.1 = some value) vars args) :
    args.map (reg regs) = store.images := by
  have hfound : ∀ b ∈ store.bindings, store.find? b.var = some b := fun b hb =>
    Store.find?_of_mem hb
  unfold Store.Fits at hfits
  unfold Store.images
  generalize store.bindings = bs at hfits hfound ⊢
  induction hargs generalizing bs with
  | nil =>
    cases hfits
    rfl
  | @cons entry value vars args hval _ ih =>
    cases hfits with
    | @cons b _ bs _ hfirst hrest =>
      have hb := hfound b mem_cons_self
      have hv := h entry.1
      rw [hval, ← hfirst.1, hb, map_some, map_some, some.injEq] at hv
      rw [map_cons, map_cons, hv, ih bs hrest fun c hc => hfound c (mem_cons_of_mem _ hc)]

end Sierra.Lower
