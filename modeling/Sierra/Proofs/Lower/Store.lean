import Sierra.Proofs.Flow

/-!
# Live variables with their values

A store holds the live variables with their values in ascending order. The flow of variables knows
which they are (`Store.Fits`), so what it accepts can be taken and brought.
-/

namespace Sierra

open List Option
open Machine (Image)

variable {b : Binding} {bs : List Binding} {s : Store} {α : Type}

structure Binding where
  var : VarId
  type : TypeId
  image : Image

/-- In ascending order; a binding of the same variable is replaced. -/
def Binding.insertInto (b : Binding) : List Binding → List Binding
  | [] => [b]
  | c :: rest =>
    if b.var < c.var then b :: c :: rest
    else if b.var = c.var then b :: rest
    else c :: b.insertInto rest

lemma Binding.mem_insertInto {c : Binding} (h : c ∈ b.insertInto bs) : c = b ∨ c ∈ bs := by
  fun_induction Binding.insertInto b bs <;> grind

lemma Binding.pairwise_insertInto (b : Binding) (h : bs.Pairwise fun a b => a.var < b.var) :
    (b.insertInto bs).Pairwise fun a b => a.var < b.var := by
  fun_induction Binding.insertInto b bs with
  | case1 => exact pairwise_singleton _ _
  | case2 c rest hlt =>
    refine pairwise_cons.2 ⟨fun a ha => ?_, h⟩
    rcases mem_cons.1 ha with rfl | ha
    · exact hlt
    · exact Nat.lt_trans hlt ((pairwise_cons.1 h).1 a ha)
  | case3 c rest hlt heq =>
    obtain ⟨hfirst, hrest⟩ := pairwise_cons.1 h
    exact pairwise_cons.2 ⟨fun a ha => heq ▸ hfirst a ha, hrest⟩
  | case4 c rest hlt hne ih =>
    obtain ⟨hfirst, hrest⟩ := pairwise_cons.1 h
    refine pairwise_cons.2 ⟨fun a ha => ?_, ih hrest⟩
    rcases mem_insertInto ha with rfl | ha
    · exact Nat.lt_of_le_of_ne (Nat.le_of_not_lt hlt) (Ne.symm hne)
    · exact hfirst a ha

/-- The live variables with their values, in ascending order. -/
structure Store where
  bindings : List Binding
  ascending : bindings.Pairwise fun a b => a.var < b.var

namespace Store

def empty : Store := ⟨[], .nil⟩

def images (s : Store) : List Image := s.bindings.map (·.image)

def find? (s : Store) (v : VarId) : Option Binding := s.bindings.find? fun b => b.var == v

def erase (s : Store) (v : VarId) : Store :=
  ⟨s.bindings.filter fun b => b.var != v, s.ascending.filter _⟩

def insert (s : Store) (b : Binding) : Store :=
  ⟨b.insertInto s.bindings, b.pairwise_insertInto s.ascending⟩

def set (s : Store) (v : VarId) (image : Image) : Store where
  bindings := s.bindings.map fun b => if b.var = v then { b with image := image } else b
  ascending := by
    refine List.pairwise_map.2 (s.ascending.imp fun {a b} hlt => ?_)
    have hvar : ∀ c : Binding, (if c.var = v then { c with image := image } else c).var = c.var := by
      intro c
      split <;> rfl
    rw [hvar, hvar]
    exact hlt

/-- The values in the given order, and what is left. -/
def take : Store → List VarId → Option (List Image × Store)
  | s, [] => some ([], s)
  | s, v :: vs =>
    match s.find? v with
    | none => none
    | some b => (take (s.erase v) vs).map fun (images, left) => (b.image :: images, left)

def bring (s : Store) (bs : List Binding) : Store := bs.foldl insert s

/-! ## Lookup -/

lemma mem_of_find? {v : VarId} (h : s.find? v = some b) : b ∈ s.bindings ∧ b.var = v :=
  ⟨mem_of_find?_eq_some h, by simpa using find?_some h⟩

lemma find?_of_mem (h : b ∈ s.bindings) : s.find? b.var = some b := by
  obtain ⟨bs, hbs⟩ := s
  unfold find?
  induction bs with
  | nil => cases h
  | cons c bs ih =>
    obtain ⟨hfirst, hrest⟩ := pairwise_cons.1 hbs
    rcases mem_cons.1 h with rfl | h
    · simp
    · have hne : c.var ≠ b.var := Nat.ne_of_lt (hfirst b h)
      rw [find?_cons_of_neg (by simpa using hne)]
      exact ih hrest h

lemma find?_insert (s : Store) (b : Binding) (v : VarId) :
    (s.insert b).find? v = if v = b.var then some b else s.find? v := by
  obtain ⟨bs, hbs⟩ := s
  unfold find? insert
  dsimp only
  fun_induction Binding.insertInto b bs with
  | case1 | case2 c rest hlt | case3 c rest hlt heq => by_cases hv : b.var = v <;> grind
  | case4 c rest hlt hne ih => by_cases hv : c.var = v <;> grind

lemma find?_erase (s : Store) (v u : VarId) :
    (s.erase v).find? u = if u = v then none else s.find? u :=
  find?_filter_ne Binding.var s.bindings v u

lemma find?_set (s : Store) (v u : VarId) (image : Image) :
    (s.set v image).find? u =
      (s.find? u).map fun b => if b.var = v then { b with image := image } else b := by
  unfold find? set
  rw [find?_map]
  congr 2
  funext b
  simp only [Function.comp]
  split <;> rfl

lemma find?_bring (h : (bs.map (·.var)).Nodup) (s : Store) (v : VarId) :
    (s.bring bs).find? v = (bs.find? fun b => b.var == v).or (s.find? v) := by
  induction bs generalizing s with
  | nil => rfl
  | cons b bs ih =>
    obtain ⟨hfirst, hrest⟩ := nodup_cons.1 h
    show ((s.insert b).bring bs).find? v = _
    rw [ih hrest, find?_insert]
    by_cases hv : b.var = v
    · subst hv
      have hnone : (bs.find? fun c => c.var == b.var) = none := by
        rw [find?_eq_none]
        intro c hc
        have hne : c.var ≠ b.var := fun heq => hfirst (mem_map.2 ⟨c, hc, heq⟩)
        simpa using hne
      simp [hnone]
    · simp [hv, Ne.symm hv]

lemma take_eq_some {left : Store} {vs : List VarId} {images : List Image}
    (h : s.take vs = some (images, left)) :
    Forall₂ (fun v image => (s.find? v).map (·.image) = some image) vs images ∧
      ∀ v b, left.find? v = some b → s.find? v = some b := by
  induction vs generalizing s images with
  | nil =>
    cases h
    exact ⟨.nil, fun _ _ hv => hv⟩
  | cons v vs ih =>
    unfold take at h
    split at h
    · cases h
    next b hb =>
    obtain ⟨⟨rest, left'⟩, hrest, heq⟩ := map_eq_some_iff.1 h
    cases heq
    obtain ⟨himages, hleft⟩ := ih hrest
    have herase : ∀ u c, (s.erase v).find? u = some c → s.find? u = some c := by
      intro u c hc
      rw [find?_erase] at hc
      split at hc
      · cases hc
      · exact hc
    refine ⟨.cons (by rw [hb]; rfl) (himages.imp fun u image hu => ?_),
      fun u c hc => herase u c (hleft u c hc)⟩
    obtain ⟨c, hc, rfl⟩ := map_eq_some_iff.1 hu
    rw [herase u c hc]
    rfl

/-! ## The flow of variables -/

def Fits (s : Store) (vars : Vars) : Prop :=
  List.Forall₂ (fun (b : Binding) entry => b.var = entry.1 ∧ b.type.same entry.2 = true)
    s.bindings vars

section Fits

variable {s : Store} {vars : Vars}

lemma Fits.isSome_find? (h : s.Fits vars) (v : VarId) :
    (s.find? v).isSome = (vars.find? v).isSome := by
  unfold Fits at h
  unfold find? Vars.find?
  generalize s.bindings = bs at h ⊢
  induction h with
  | nil => rfl
  | @cons b entry bs vars hfirst _ ih =>
    by_cases hv : b.var = v
    · simp [hv, ← hfirst.1]
    · simp [hv, ← hfirst.1, ih]

lemma Fits.erase (h : s.Fits vars) (v : VarId) : (s.erase v).Fits (vars.erase v) := by
  unfold Fits at h ⊢
  unfold Store.erase Vars.erase
  dsimp only
  generalize s.bindings = bs at h ⊢
  induction h with
  | nil => exact .nil
  | @cons b entry bs vars hfirst _ ih =>
    by_cases hv : b.var = v
    · rw [filter_cons_of_neg (by simp [hv]), filter_cons_of_neg (by simp [hv, ← hfirst.1])]
      exact ih
    · rw [filter_cons_of_pos (by simp [hv]), filter_cons_of_pos (by simp [hv, ← hfirst.1])]
      exact .cons hfirst ih

lemma Fits.insert (h : s.Fits vars) (hv : vars.find? b.var = none) :
    (s.insert b).Fits (vars.insert b.var b.type) := by
  unfold Fits at h ⊢
  unfold Store.insert
  dsimp only
  unfold Vars.find? at hv
  generalize s.bindings = bs at h ⊢
  induction h with
  | nil => exact .cons ⟨rfl, Ident.same_self _⟩ .nil
  | @cons c entry bs vars hfirst hrest ih =>
    obtain ⟨u, t⟩ := entry
    have hne : u ≠ b.var := by
      intro heq
      simp [heq] at hv
    unfold Binding.insertInto Vars.insert
    have hcu : c.var = u := hfirst.1
    rw [hcu]
    by_cases hlt : b.var < u
    · rw [if_pos hlt, if_pos hlt]
      exact .cons ⟨rfl, Ident.same_self _⟩ (.cons hfirst hrest)
    · rw [if_neg hlt, if_neg (Ne.symm hne), if_neg hlt]
      refine .cons hfirst (ih ?_)
      rwa [find?_cons_of_neg (by simpa using hne)] at hv

lemma Fits.set (h : s.Fits vars) (v : VarId) (image : Image) : (s.set v image).Fits vars := by
  refine forall₂_map_left_iff.2 (h.imp fun b entry hb => ?_)
  split
  · exact hb
  · exact hb

lemma Fits.take_of_foldlM (key : α → VarId × TypeId)
    {step : Vars → α → Except Failure Vars} (hstep : TakesOne key step)
    {as : List α} {rest : Vars} (h : as.foldlM step vars = .ok rest) (hfits : s.Fits vars) :
    ∃ images left, s.take (as.map fun a => (key a).1) = some (images, left) ∧ left.Fits rest := by
  induction as generalizing s vars with
  | nil =>
    cases h
    exact ⟨[], s, rfl, hfits⟩
  | cons a as ih =>
    obtain ⟨next, hnext, hrest⟩ := foldlM_cons_ok h
    obtain ⟨t, ht, -, rfl⟩ := (hstep _ _ _).1 hnext
    obtain ⟨b, hb⟩ : ∃ b, s.find? (key a).1 = some b := by
      rw [← isSome_iff_exists, hfits.isSome_find?, ht]
      rfl
    obtain ⟨images, left, htake, hleft⟩ := ih hrest (hfits.erase (key a).1)
    refine ⟨b.image :: images, left, ?_, hleft⟩
    rw [map_cons, take, hb]
    rw [htake]
    rfl

lemma Fits.bring_of_foldlM (key : α → VarId × TypeId)
    {step : Vars → α → Except Failure Vars} (hstep : BringsOne key step)
    {as : List α} (hbs : bs.map (fun b => (b.var, b.type)) = as.map key)
    {next : Vars} (h : as.foldlM step vars = .ok next) (hfits : s.Fits vars) :
    (s.bring bs).Fits next ∧ (bs.map (·.var)).Nodup ∧ ∀ b ∈ bs, s.find? b.var = none := by
  induction as generalizing s vars bs with
  | nil =>
    cases h
    obtain rfl : bs = [] := by simpa using hbs
    exact ⟨hfits, by simp, by simp⟩
  | cons a as ih =>
    obtain ⟨between, hbetween, hrest⟩ := foldlM_cons_ok h
    obtain ⟨hnone, rfl⟩ := (hstep _ _ _).1 hbetween
    cases bs with
    | nil => simp at hbs
    | cons b bs =>
      obtain ⟨hb, hbs⟩ := cons.inj hbs
      rw [← hb] at hnone hrest
      obtain ⟨hfits', hnodup, habsent⟩ := ih hbs hrest (hfits.insert hnone)
      have hfirst : s.find? b.var = none := by
        rw [← isNone_iff_eq_none, ← not_isSome, hfits.isSome_find?, hnone]
        rfl
      -- a variable brought later is not there after the first one is
      have hlater : ∀ c ∈ bs, c.var ≠ b.var ∧ s.find? c.var = none := by
        intro c hc
        have hc := habsent c hc
        rw [find?_insert] at hc
        split at hc
        · cases hc
        · next hne => exact ⟨hne, hc⟩
      refine ⟨hfits', nodup_cons.2 ⟨fun hmem => ?_, hnodup⟩, fun c hc => ?_⟩
      · obtain ⟨c, hc, heq⟩ := mem_map.1 hmem
        exact (hlater c hc).1 heq
      · rcases mem_cons.1 hc with rfl | hc
        · exact hfirst
        · exact (hlater c hc).2

end Fits

end Store

end Sierra
