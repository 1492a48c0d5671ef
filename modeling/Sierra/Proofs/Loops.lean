import Mathlib.Data.List.Forall2
import Mathlib.Data.List.Induction
import Sierra.Power

/-!
# Loops over lists

Entries written into an array, steps that may fail and keep an invariant, and lists made entry by
entry.
-/

namespace Sierra

open List

section Forall₂

variable {α β α β ε : Type} {R : α → β → Prop} {xs : List α} {ys : List β} (h : Forall₂ R xs ys)
  {a : α} {x : Except ε α} {Q : ε → Prop}

include h

lemma forall₂_getElem? (i : Nat) :
    (∀ x, xs[i]? = some x → ∃ y, ys[i]? = some y ∧ R x y) ∧
      ∀ y, ys[i]? = some y → ∃ x, xs[i]? = some x ∧ R x y := by
  induction h generalizing i with
  | nil => simp
  | @cons x y xs ys hxy _ ih =>
    cases i with
    | zero => simpa using hxy
    | succ i => simpa using ih i

lemma forall₂_mem : (∀ x ∈ xs, ∃ y ∈ ys, R x y) ∧ ∀ y ∈ ys, ∃ x ∈ xs, R x y := by
  induction h with
  | nil => simp
  | cons hxy _ ih => grind

end Forall₂

lemma wrap64_eq {n : Int} (hpos : 0 ≤ n) (hlt : n < (pow2 63 : Nat)) : wrap64 n = n := by
  have hbound : ((pow2 64 : Nat) : Int) = 2 * (pow2 63 : Nat) := by decide
  exact Int.bmod_eq_of_le (by omega) (by omega)

lemma except_bind_eq_ok {f : α → Except ε β} {b : β} :
    (x >>= f) = .ok b ↔ ∃ a, x = .ok a ∧ f a = .ok b := by
  cases x with
  | error e | ok a => simp [bind, Except.bind]

/-! ## Steps on a state -/

section Steps

variable {ε σ α β : Type} {x : EStateM ε σ α} {f : α → EStateM ε σ β} {s s' : σ}

lemma bind_eq_ok {b : β} : (x >>= f) s = .ok b s' ↔ ∃ a s₁, x s = .ok a s₁ ∧ f a s₁ = .ok b s' := by
  show EStateM.bind x f s = _ ↔ _
  unfold EStateM.bind
  constructor
  · intro hok
    split at hok
    · next a s₁ hx => exact ⟨a, s₁, hx, hok⟩
    · cases hok
  · rintro ⟨a, s₁, hx, hf⟩
    rw [hx]
    exact hf

lemma bind_of_ok {s₁ : σ} (hx : x s = .ok a s₁) : (x >>= f) s = f a s₁ := by
  show EStateM.bind x f s = _
  rw [EStateM.bind, hx]

@[simp]
lemma pure_eq_ok {b : α} : (pure a : EStateM ε σ α) s = .ok b s' ↔ a = b ∧ s = s' := by
  show EStateM.Result.ok a s = .ok b s' ↔ _
  simp

@[simp]
lemma throw_ne_ok {e : ε} : (throw e : EStateM ε σ α) s ≠ .ok a s' := by
  show EStateM.Result.error e s ≠ .ok a s'
  simp

lemma tryCatch_eq_ok {g : ε → ε} :
    (tryCatch x fun cause => throw (g cause)) s = .ok a s' ↔ x s = .ok a s' := by
  show EStateM.tryCatch x _ s = _ ↔ _
  unfold EStateM.tryCatch
  cases x s with
  | ok b s₁ => exact Iff.rfl
  | error e s₁ => exact iff_of_false throw_ne_ok (by simp)

end Steps

/-! ## Loops -/

lemma foldl_max_le_iff {f : α → Int} {as : List α} {start limit : Int} :
    as.foldl (fun most a => max most (f a)) start ≤ limit ↔
      start ≤ limit ∧ ∀ a ∈ as, f a ≤ limit := by
  induction as generalizing start with
  | nil => simp
  | cons a as ih => rw [foldl_cons, ih, Int.max_le, forall_mem_cons, and_assoc]

lemma forall₂_of_mapM {f : α → Except ε β} {as : List α} {bs : List β}
    (h : as.mapM f = .ok bs) : Forall₂ (fun a b => f a = .ok b) as bs := by
  induction as generalizing bs with
  | nil =>
    cases h
    exact .nil
  | cons a as ih =>
    rw [mapM_cons] at h
    obtain ⟨b, ha, h⟩ := except_bind_eq_ok.1 h
    obtain ⟨rest, has, h⟩ := except_bind_eq_ok.1 h
    cases h
    exact .cons ha (ih has)

lemma foldl_modify (key : β → Nat) (value : β → α) {entries : List β}
    {values : Array α} {b : β} (hb : b ∈ entries) (hlt : key b < values.size) :
    ∃ b' ∈ entries, key b' = key b ∧
      (entries.foldl (fun values b => values.modify (key b) fun _ => value b) values)[key b]? =
        some (value b') := by
  induction entries using reverseRecOn with
  | nil => cases hb
  | append_singleton entries last ih =>
    have hsize : (entries.foldl (fun values b => values.modify (key b) fun _ => value b)
        values).size = values.size := by
      refine foldlRecOn entries _ (motive := (Array.size · = values.size)) rfl ?_
      exact fun _ hsize _ _ => Array.size_modify.trans hsize
    rw [foldl_append, foldl_cons, foldl_nil, Array.getElem?_modify]
    by_cases hkey : key last = key b
    · refine ⟨last, by simp, hkey, ?_⟩
      rw [if_pos hkey, Array.getElem?_eq_getElem (hsize ▸ hlt)]
      rfl
    · have hin : b ∈ entries := by
        rcases mem_append.1 hb with hb | hb
        · exact hb
        · exact absurd (congrArg key (mem_singleton.1 hb).symm) hkey
      obtain ⟨b', hb', hsame, hval⟩ := ih hin
      exact ⟨b', mem_append_left _ hb', hsame, by rw [if_neg hkey, hval]⟩

lemma find?_filter_ne {κ : Type} [DecidableEq κ] (key : α → κ) (l : List α) (v u : κ) :
    (l.filter fun x => key x != v).find? (fun x => key x == u) =
      if u = v then none else l.find? fun x => key x == u := by
  rw [find?_filter]
  split
  · next heq => simp [heq]
  next hne =>
  congr 1
  funext x
  by_cases hx : key x = u
  · simp [hx, hne]
  · simp [hx]

/-! ## Loops that may fail -/

section

variable {ε α β : Type} {step : β → α → Except ε β}

/-- A step that succeeds keeps a promise, and one that fails does so for a reason. -/
def Yields (P : α → Prop) (Q : ε → Prop) : Except ε α → Prop
  | .ok a => P a
  | .error e => Q e

lemma Yields.bind {P : α → Prop} {P' : β → Prop}
    {k : α → Except ε β} (hx : Yields P Q x) (hk : ∀ a, x = .ok a → P a → Yields P' Q (k a)) :
    Yields P' Q (x >>= k) := by
  cases x with
  | error e => exact hx
  | ok a => exact hk a rfl hx

lemma Yields.foldlM {P : β → Prop} {as : List α} {b : β} (hb : P b)
    (h : ∀ b, ∀ a ∈ as, P b → Yields P Q (step b a)) : Yields P Q (as.foldlM step b) := by
  induction as generalizing b with
  | nil => exact hb
  | cons a as ih =>
    exact (h b a mem_cons_self hb).bind fun b _ hb =>
      ih hb fun b a ha => h b a (mem_cons_of_mem _ ha)

lemma foldlM_cons_ok {as : List α} {b b' : β} (h : (a :: as).foldlM step b = .ok b') :
    ∃ next, step b a = .ok next ∧ as.foldlM step next = .ok b' := by
  exact except_bind_eq_ok.1 h

lemma foldlM_keeps {P : β → Prop} {as : List α} {b b' : β} (h : as.foldlM step b = .ok b')
    (hb : P b) (hstep : ∀ a ∈ as, ∀ b b', P b → step b a = .ok b' → P b') : P b' := by
  induction as generalizing b with
  | nil =>
    cases h
    exact hb
  | cons a as ih =>
    obtain ⟨next, hnext, hrest⟩ := foldlM_cons_ok h
    exact ih hrest (hstep a mem_cons_self b next hb hnext)
      fun a' ha' => hstep a' (mem_cons_of_mem _ ha')

lemma foldlM_eq_ok_iff {P : α → Prop} {f : β → α → β}
    (hstep : ∀ b a b', step b a = .ok b' ↔ P a ∧ b' = f b a) {as : List α} {b b' : β} :
    as.foldlM step b = .ok b' ↔ (∀ a ∈ as, P a) ∧ b' = as.foldl f b := by
  induction as generalizing b with
  | nil =>
    show Except.ok b = .ok b' ↔ _
    simp [eq_comm]
  | cons a as ih =>
    rw [foldlM_cons, except_bind_eq_ok]
    simp [hstep, ih, and_assoc]

lemma forM_eq_ok {f : α → Except ε Unit} {as : List α} {u : Unit} (h : as.forM f = .ok u) :
    ∀ a ∈ as, f a = .ok () := by
  induction as with
  | nil => simp
  | cons a as ih =>
    obtain ⟨_, ha, has⟩ := except_bind_eq_ok.1 (show (f a >>= fun _ => as.forM f) = .ok u from h)
    exact forall_mem_cons.2 ⟨ha, ih has⟩

lemma foldlM_reaches {P Q : β → Prop} {as : List α} {b b' : β} (h : as.foldlM step b = .ok b')
    (hb : P b) (hstep : ∀ a ∈ as, ∀ b b', P b → step b a = .ok b' → P b')
    (hkeep : ∀ a ∈ as, ∀ b b', P b → Q b → step b a = .ok b' → Q b') (ha : a ∈ as)
    (hreach : ∀ b b', P b → step b a = .ok b' → Q b') : Q b' := by
  obtain ⟨before, after, rfl⟩ := append_of_mem ha
  rw [foldlM_append] at h
  obtain ⟨between, hpre, h⟩ := except_bind_eq_ok.1 h
  obtain ⟨next, hnext, hafter⟩ := foldlM_cons_ok h
  have hP := foldlM_keeps hpre hb fun a' ha' => hstep a' (mem_append_left _ ha')
  refine (foldlM_keeps (P := fun b => P b ∧ Q b) hafter
    ⟨hstep a ha between next hP hnext, hreach between next hP hnext⟩ fun a' ha' c c' hc hc' => ?_).2
  have hin : a' ∈ before ++ a :: after := by simp [ha']
  exact ⟨hstep a' hin c c' hc.1 hc', hkeep a' hin c c' hc.1 hc.2 hc'⟩

end

end Sierra
