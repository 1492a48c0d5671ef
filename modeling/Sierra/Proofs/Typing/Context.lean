import Sierra.Proofs.Flow

/-!
# Contexts

A context says which variables are live and the numbers of their types. A list of live variables in
ascending order is a context and the other way round (`Vars.Ascending.same`).
-/

namespace Sierra

open List Option

variable {entries rest : List (VarId × TypeId)} {x : VarId × TypeId} {Δ' : Context}

abbrev Context := VarId → Option Nat

variable {Γ Δ : Context} {v : VarId} {other vars : Vars}

namespace Context

def empty : Context := fun _ => none

inductive Takes : Context → List (VarId × TypeId) → Context → Prop
  | nil (Γ : Context) : Takes Γ [] Γ
  | cons {Γ Δ : Context} {v : VarId} {t : TypeId} {rest : List (VarId × TypeId)}
      (hlive : Γ v = some t.number) (hrest : Takes (Function.update Γ v none) rest Δ) :
      Takes Γ ((v, t) :: rest) Δ

inductive Brings : Context → List (VarId × TypeId) → Context → Prop
  | nil (Γ : Context) : Brings Γ [] Γ
  | cons {Γ Δ : Context} {v : VarId} {t : TypeId} {rest : List (VarId × TypeId)}
      (hfresh : Γ v = none) (hrest : Brings (Function.update Γ v (some t.number)) rest Δ) :
      Brings Γ ((v, t) :: rest) Δ

lemma takes_cons_iff :
    Takes Γ (x :: rest) Δ ↔
      Γ x.1 = some x.2.number ∧ Takes (Function.update Γ x.1 none) rest Δ := by
  refine ⟨fun h => ?_, fun h => .cons h.1 h.2⟩
  cases h with
  | cons hlive hrest => exact ⟨hlive, hrest⟩

lemma brings_cons_iff :
    Brings Γ (x :: rest) Δ ↔
      Γ x.1 = none ∧ Brings (Function.update Γ x.1 (some x.2.number)) rest Δ := by
  refine ⟨fun h => ?_, fun h => .cons h.1 h.2⟩
  cases h with
  | cons hfresh hrest => exact ⟨hfresh, hrest⟩

lemma Takes.unique (h : Takes Γ entries Δ) (h' : Takes Γ entries Δ') : Δ = Δ' := by
  induction h with
  | nil Γ =>
    cases h'
    rfl
  | cons _ _ ih =>
    cases h' with
    | cons _ hrest => exact ih hrest

lemma Brings.unique (h : Brings Γ entries Δ) (h' : Brings Γ entries Δ') : Δ = Δ' := by
  induction h with
  | nil Γ =>
    cases h'
    rfl
  | cons _ _ ih =>
    cases h' with
    | cons _ hrest => exact ih hrest

end Context

namespace Vars

variable {vars : Vars}

def context (vars : Vars) : Context := fun v => (vars.find? v).map (·.number)

def Ascending (vars : Vars) : Prop := List.Pairwise (fun a b => a.1 < b.1) vars

lemma find?_cons (entry : VarId × TypeId) (vars : Vars) (v : VarId) :
    Vars.find? (entry :: vars) v = if entry.1 = v then some entry.2 else vars.find? v := by
  unfold Vars.find?
  by_cases h : entry.1 = v
  · rw [find?_cons_of_pos (by simpa using h), if_pos h]
    rfl
  · rw [find?_cons_of_neg (by simpa using h), if_neg h]

lemma find?_eq_none_of_lt (h : ∀ entry ∈ vars, v < entry.1) : vars.find? v = none := by
  induction vars with
  | nil => rfl
  | cons entry vars ih =>
    rw [find?_cons, if_neg (Nat.ne_of_gt (h entry mem_cons_self))]
    exact ih fun other hother => h other (mem_cons_of_mem _ hother)

lemma find?_erase (vars : Vars) (v u : VarId) :
    (vars.erase v).find? u = if u = v then none else vars.find? u := by
  rw [Vars.find?, erase, find?_filter_ne Prod.fst]
  split <;> rfl

lemma find?_insert (h : vars.find? v = none) (t : TypeId) (u : VarId) :
    (vars.insert v t).find? u = if u = v then some t else vars.find? u := by
  induction vars with
  | nil =>
    rw [Vars.insert, find?_cons]
    simp only [eq_comm]
  | cons entry vars ih =>
    rw [find?_cons] at h
    by_cases hentry : entry.1 = v
    · simp [hentry] at h
    rw [if_neg hentry] at h
    unfold Vars.insert
    by_cases hlt : v < entry.1
    · rw [if_pos hlt, find?_cons]
      simp only [eq_comm]
    · rw [if_neg hlt, find?_cons, find?_cons, ih h]
      split
      · next hu => rw [if_neg fun heq => hentry (hu.trans heq)]
      · rfl

lemma context_erase (vars : Vars) (v : VarId) :
    (vars.erase v).context = Function.update vars.context v none := by
  funext u
  rw [context, find?_erase, Function.update_apply, apply_ite (Option.map _)]
  rfl

lemma context_insert (h : vars.find? v = none) (t : TypeId) :
    (vars.insert v t).context = Function.update vars.context v (some t.number) := by
  funext u
  rw [context, find?_insert h, Function.update_apply, apply_ite (Option.map _)]
  rfl

lemma Ascending.erase (h : vars.Ascending) (v : VarId) : (vars.erase v).Ascending :=
  List.Pairwise.filter _ h

lemma mem_insert {t : TypeId} {entry : VarId × TypeId}
    (h : entry ∈ vars.insert v t) : entry = (v, t) ∨ entry ∈ vars := by
  induction vars with
  | nil => exact .inl (by simpa [Vars.insert] using h)
  | cons first vars ih =>
    unfold Vars.insert at h
    split at h
    · exact mem_cons.1 h
    · rcases mem_cons.1 h with rfl | hrest
      · exact .inr mem_cons_self
      · exact (ih hrest).imp_right (mem_cons_of_mem _)

lemma Ascending.insert (h : vars.Ascending) (hfresh : vars.find? v = none)
    (t : TypeId) : (vars.insert v t).Ascending := by
  induction vars with
  | nil => exact pairwise_singleton _ _
  | cons entry vars ih =>
    obtain ⟨hfirst, hrest⟩ := pairwise_cons.1 h
    rw [find?_cons] at hfresh
    by_cases hentry : entry.1 = v
    · simp [hentry] at hfresh
    rw [if_neg hentry] at hfresh
    unfold Vars.insert
    by_cases hlt : v < entry.1
    · rw [if_pos hlt]
      refine pairwise_cons.2 ⟨fun other hother => ?_, h⟩
      rcases mem_cons.1 hother with rfl | hother
      · exact hlt
      · exact Nat.lt_trans hlt (hfirst other hother)
    · rw [if_neg hlt]
      refine pairwise_cons.2 ⟨fun other hother => ?_, ih hrest hfresh⟩
      rcases mem_insert hother with rfl | hother
      · exact Nat.lt_of_le_of_ne (Nat.le_of_not_lt hlt) hentry
      · exact hfirst other hother

lemma context_eq_of_same (h : vars.same other) : vars.context = other.context := by
  induction same_iff.1 h with
  | nil => rfl
  | cons hxy hrest ih =>
    funext v
    have hv := congrFun (ih (same_iff.2 hrest)) v
    unfold context at hv ⊢
    rw [find?_cons, find?_cons, hxy.1]
    split
    · rw [map_some, map_some, hxy.2]
    · exact hv

lemma context_eq_empty : vars.context = Context.empty ↔ vars = [] := by
  refine ⟨fun h => ?_, ?_⟩
  · cases vars with
    | nil => rfl
    | cons x xs =>
      have hx := congrFun h x.1
      simp [context, find?_cons, Context.empty] at hx
  · rintro rfl
    rfl

lemma Ascending.same (h : vars.Ascending) (hother : other.Ascending)
    (hctx : vars.context = other.context) : vars.same other := by
  induction vars generalizing other with
  | nil =>
    rw [context_eq_empty.1 hctx.symm]
    rfl
  | cons x xs ih =>
    cases other with
    | nil => cases context_eq_empty.1 hctx
    | cons y ys =>
      obtain ⟨hxs, hrest⟩ := pairwise_cons.1 h
      obtain ⟨hys, hrest'⟩ := pairwise_cons.1 hother
      have hxy := congrFun hctx x.1
      have hyx := congrFun hctx y.1
      unfold context at hxy hyx
      rw [find?_cons, find?_cons] at hxy hyx
      -- the first variable of one list is live in the other, so neither comes first
      have hvar : x.1 = y.1 := by
        rcases Nat.lt_trichotomy x.1 y.1 with hlt | heq | hlt
        · rw [if_pos rfl, if_neg (Nat.ne_of_gt hlt),
            find?_eq_none_of_lt fun entry hentry => Nat.lt_trans hlt (hys entry hentry)] at hxy
          cases hxy
        · exact heq
        · rw [if_pos rfl, if_neg (Nat.ne_of_gt hlt),
            find?_eq_none_of_lt fun entry hentry => Nat.lt_trans hlt (hxs entry hentry)] at hyx
          cases hyx
      have htype : x.2.number = y.2.number := by
        rw [if_pos rfl, if_pos hvar.symm] at hxy
        exact some.inj hxy
      have htail : Vars.context xs = Vars.context ys := by
        funext v
        have hv := congrFun hctx v
        unfold context at hv ⊢
        rw [find?_cons, find?_cons, ← hvar] at hv
        by_cases heq : x.1 = v
        · rw [find?_eq_none_of_lt fun entry hentry => heq ▸ hxs entry hentry,
            find?_eq_none_of_lt fun entry hentry => heq ▸ hvar ▸ hys entry hentry]
        · rwa [if_neg heq, if_neg heq] at hv
      exact same_iff.2 (.cons ⟨hvar, htype⟩ (same_iff.1 (ih hrest hrest' htail)))

lemma Ascending.of_same (h : other.Ascending) (hsame : vars.same other) :
    vars.Ascending := by
  have hkeys : vars.map (·.1) = other.map (·.1) := by
    clear h
    induction same_iff.1 hsame with
    | nil => rfl
    | cons hxy hrest ih => rw [map_cons, map_cons, hxy.1, ih (same_iff.2 hrest)]
  exact pairwise_map.1 (hkeys ▸ pairwise_map.2 h)

end Vars

/-! ## What the walk takes and brings -/

section Folds

variable {α : Type} (key : α → VarId × TypeId) {step : Vars → α → Except Failure Vars}

lemma foldlM_takes_iff {as : List α} (hstep : TakesOne key step) :
    (∃ left, as.foldlM step vars = .ok left ∧ left.context = Δ) ↔
      Context.Takes vars.context (as.map key) Δ := by
  induction as generalizing vars with
  | nil => exact ⟨fun ⟨_, h, hΔ⟩ => hΔ ▸ Except.ok.inj h ▸ .nil _, fun | .nil _ => ⟨vars, rfl, rfl⟩⟩
  | cons a as ih =>
    rw [map_cons, Context.takes_cons_iff, ← Vars.context_erase, Vars.context]
    simp only [foldlM_cons, except_bind_eq_ok, hstep _ _ _, map_eq_some_iff, Ident.same, beq_iff_eq]
    grind

lemma foldlM_brings_iff {as : List α} (hstep : BringsOne key step) :
    (∃ next, as.foldlM step vars = .ok next ∧ next.context = Δ) ↔
      Context.Brings vars.context (as.map key) Δ := by
  induction as generalizing vars with
  | nil => exact ⟨fun ⟨_, h, hΔ⟩ => hΔ ▸ Except.ok.inj h ▸ .nil _, fun | .nil _ => ⟨vars, rfl, rfl⟩⟩
  | cons a as ih =>
    rw [map_cons, Context.brings_cons_iff, Vars.context, map_eq_none_iff]
    simp only [foldlM_cons, except_bind_eq_ok, hstep _ _ _]
    constructor
    · rintro ⟨next, ⟨between, ⟨hfresh, rfl⟩, hrest⟩, hΔ⟩
      rw [← Vars.context_insert hfresh, ← ih]
      exact ⟨hfresh, next, hrest, hΔ⟩
    · rintro ⟨hfresh, hrest⟩
      rw [← Vars.context_insert hfresh, ← ih] at hrest
      obtain ⟨next, hnext, hΔ⟩ := hrest
      exact ⟨next, ⟨_, ⟨hfresh, rfl⟩, hnext⟩, hΔ⟩

lemma ascending_of_brings {as : List α} {next : Vars} (h : as.foldlM step vars = .ok next)
    (hstep : BringsOne key step) (hvars : vars.Ascending) : next.Ascending :=
  foldlM_keeps h hvars fun a _ vars next hvars hnext => by
    obtain ⟨hfresh, rfl⟩ := (hstep vars a next).1 hnext
    exact hvars.insert hfresh _

end Folds

end Sierra
