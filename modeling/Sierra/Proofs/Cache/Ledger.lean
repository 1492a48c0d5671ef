import Sierra.Cache.Memory
import Sierra.Proofs.Loops
import Sierra.Proofs.Packed.Artifacts

/-!
# What a cache in memory keeps

The ledger is the list of results, one for each key since it was forgotten. The live, spilled and
failed results are a rearrangement of it (`Keeps`), which every call keeps up (`Keeps.step`).
-/

namespace Sierra

open List

variable {calls : List Call}

lemma Executable.artifact_of_load {a : Artifact} {x : Executable} (h : load a = .ok x) :
    x.artifact = a := by
  unfold load at h
  split at h
  · cases h
  · obtain ⟨program, -, h⟩ := except_bind_eq_ok.1 h
    split at h
    · cases h
    · split at h <;> cases h
      rfl

namespace MemoryCache

/-! ## Calls and the ledger -/

/-- An executable, with the outcome a compilation would have, or to forget a key. -/
inductive Call where
  | get (key : String) (outcome : Except Failure Artifact)
  | forget (key : String)

def step (c : MemoryCache) : Call → MemoryCache
  | .get key outcome => (c.get false key fun _ => outcome).2
  | .forget key => c.forget key

def opened (key : String) (outcome : Except Failure Artifact) : Except Failure Executable :=
  outcome >>= fun a => Executable.load { a with key := key }

abbrev Ledger := List (String × Except Failure Executable)

def Ledger.step (l : Ledger) : Call → Ledger
  | .get key outcome => if key ∈ l.map (·.1) then l else (key, opened key outcome) :: l
  | .forget key => without key l

/-- No cancellation, and an artifact that can be read back. -/
def IsFinal : Except Failure Executable → Prop
  | .ok x => Artifact.decode x.artifact.encode = .ok x.artifact
  | .error failure => failure.isCancelled = false

def Call.IsFinal : Call → Prop
  | get key outcome => MemoryCache.IsFinal (opened key outcome)
  | forget _ => True

/-! ## Entries by key -/

section

variable {α : Type} {key : String} {es : List (String × α)} {v : α}

lemma without_eq_self (h : key ∉ es.map (·.1)) : without key es = es :=
  filter_eq_self.2 fun _ he => decide_eq_true fun hkey => h (hkey ▸ mem_map_of_mem he)

lemma lookup_eq_none : es.lookup key = none ↔ key ∉ es.map (·.1) := by
  grind

lemma mem_keys (h : es.lookup key = some v) : key ∈ es.map (·.1) :=
  Decidable.by_contra fun hnot => by simp [lookup_eq_none.2 hnot] at h

lemma lookup_without {k : String} (hk : key ≠ k) : (without k es).lookup key = es.lookup key := by
  induction es with
  | nil => rfl
  | cons e es ih => grind [without]

lemma lookup_of_mem (hnodup : (es.map (·.1)).Nodup) (h : (key, v) ∈ es) :
    es.lookup key = some v := by
  induction es with
  | nil => cases h
  | cons e es ih => grind

lemma perm_without (hnodup : (es.map (·.1)).Nodup) (h : (key, v) ∈ es) :
    es.Perm ((key, v) :: without key es) := by
  obtain ⟨before, after, rfl⟩ := append_of_mem h
  have hsplit : (before ++ (key, v) :: after).Perm ((key, v) :: (before ++ after)) := perm_middle
  have hnew := (nodup_cons.1 ((hsplit.map (·.1)).nodup_iff.1 hnodup)).1
  rwa [show without key (before ++ (key, v) :: after) = without key (before ++ after) by
    simp [without], without_eq_self hnew]

end

/-! ## What is kept -/

def revived (bytes : Bytes) : Except Failure Executable := Artifact.decode bytes >>= Executable.load

def entries (c : MemoryCache) : Ledger :=
  c.live.map (fun e => (e.1, .ok e.2)) ++
    (c.spilled.map (fun e => (e.1, revived e.2)) ++ c.failed.map fun e => (e.1, .error e.2))

/-- The places of a cache together keep the ledger, and what is live comes back when spilled. -/
structure Keeps (bound : Option Nat) (c : MemoryCache) (l : Ledger) : Prop where
  perm : c.entries.Perm l
  nodup : (l.map (·.1)).Nodup
  lasts : ∀ key x, (key, .ok x) ∈ l → revived x.artifact.encode = .ok x
  revives : ∀ e ∈ c.spilled, ∃ x, revived e.2 = .ok x
  capacity : c.capacity = bound
  room : ∀ n, bound = some n → c.live.length ≤ n

variable {bound : Option Nat} {c : MemoryCache} {l : Ledger} {key : String} {x : Executable}
  {outcome : Except Failure Artifact}

lemma Keeps.nodup_places (h : Keeps bound c l) :
    (c.live.map (·.1) ++ (c.spilled.map (·.1) ++ c.failed.map (·.1))).Nodup := by
  simpa [entries, Function.comp_def] using (h.perm.map (·.1)).nodup_iff.2 h.nodup

lemma Keeps.mem_places (h : Keeps bound c l) : key ∈ l.map (·.1) ↔
    key ∈ c.live.map (·.1) ∨ key ∈ c.spilled.map (·.1) ∨ key ∈ c.failed.map (·.1) := by
  rw [← (h.perm.map (·.1)).mem_iff]
  simp [entries, Function.comp_def]

def spills (pushed : List (String × Executable)) : List (String × Bytes) :=
  (pushed.map fun e => (e.1, e.2.artifact.encode)).reverse

lemma foldl_spill {pushed : List (String × Executable)}
    (hnodup : (pushed.map (·.1) ++ c.spilled.map (·.1)).Nodup) :
    pushed.foldl spill c = { c with spilled := spills pushed ++ c.spilled } := by
  induction pushed generalizing c with
  | nil => rfl
  | cons e pushed ih =>
    have hnew : e.1 ∉ c.spilled.map (·.1) := by grind
    rw [foldl_cons, spill, without_eq_self hnew, ih (by grind)]
    simp [spills]

lemma exists_add (hnodup : (((key, x) :: c.live).map (·.1) ++ c.spilled.map (·.1)).Nodup) :
    ∃ kept pushed, (key, x) :: c.live = kept ++ pushed ∧
      (∀ n, c.capacity = some n → kept.length ≤ n) ∧
      c.add key x = { c with live := kept, spilled := spills pushed ++ c.spilled } := by
  unfold add
  cases hcap : c.capacity with
  | none => exact ⟨_, [], (append_nil _).symm, nofun, rfl⟩
  | some n =>
    refine ⟨_, _, (take_append_drop n _).symm, ?_, foldl_spill ?_⟩
    · rintro _ ⟨⟩
      exact length_take_le _ _
    · exact hnodup.sublist (((drop_sublist n _).map _).append_right _)

section

variable (h : Keeps bound c l)

include h

lemma Keeps.add (hnew : key ∉ l.map (·.1))
    (hx : revived x.artifact.encode = .ok x) : (c.add key x).compilations = c.compilations ∧
      Keeps bound (c.add key x) ((key, .ok x) :: l) := by
  have hplaces := h.nodup_places
  rw [h.mem_places] at hnew
  have hlive : (((key, x) :: c.live).map (·.1) ++ c.spilled.map (·.1)).Nodup := by grind
  obtain ⟨kept, pushed, hsplit, hroom, hadd⟩ := exists_add hlive
  have hlasts : ∀ k y, (k, .ok y) ∈ (key, .ok x) :: l → revived y.artifact.encode = .ok y := by
    rintro k y (⟨⟩ | ⟨_, hy⟩)
    · exact hx
    · exact h.lasts k y hy
  have hperm := h.perm.cons (key, .ok x)
  rw [show (key, .ok x) :: c.entries = ((key, x) :: c.live).map (fun e => (e.1, .ok e.2)) ++ _ from
    rfl, hsplit, map_append, append_assoc] at hperm
  have hpushed : ∀ e ∈ pushed, revived e.2.artifact.encode = .ok e.2 := fun e he =>
    hlasts e.1 e.2 (hperm.mem_iff.1 (by simp [he]))
  rw [hadd]
  refine ⟨rfl, List.Perm.trans ?_ hperm, ?_, hlasts, ?_, h.capacity, h.capacity ▸ hroom⟩
  · have hback : (spills pushed).map (fun e => (e.1, revived e.2)) =
        (pushed.map fun e => (e.1, .ok e.2)).reverse := by
      rw [spills, map_reverse, map_map]
      exact congrArg _ (map_congr_left fun e he => congrArg _ (hpushed e he))
    simp only [entries, map_append, hback, append_assoc]
    exact ((reverse_perm _).append_right _).append_left _
  · exact nodup_cons.2 ⟨h.mem_places.not.2 hnew, h.nodup⟩
  · intro e he
    obtain he | he := mem_append.1 he
    · obtain ⟨y, hy, rfl⟩ := mem_map.1 (mem_reverse.1 he)
      exact ⟨y.2, hpushed y hy⟩
    · exact h.revives e he

/-! ## Calls -/

lemma Keeps.forget (key : String) : Keeps bound (c.forget key) (without key l) := by
  have hsub {α : Type} (es : List (String × α)) : (without key es).Sublist es := filter_sublist
  refine ⟨List.Perm.trans (.of_eq ?_) (h.perm.filter _), h.nodup.sublist ((hsub l).map _),
    fun k x hx => h.lasts k x ((hsub l).subset hx), fun e he => h.revives e ((hsub _).subset he),
    h.capacity, fun n hn => Nat.le_trans (hsub c.live).length_le (h.room n hn)⟩
  simp [entries, MemoryCache.forget, without, filter_map, Function.comp_def]

section

variable (hfinal : IsFinal (opened key outcome))
include hfinal

lemma Keeps.settle (hnew : key ∉ l.map (·.1)) :
    ∃ c', c.settle key outcome = (opened key outcome, c') ∧
      c'.compilations = c.compilations + 1 ∧ Keeps bound c' ((key, opened key outcome) :: l) := by
  unfold MemoryCache.settle
  rw [show (outcome >>= fun a => Executable.load { a with key := key }) = opened key outcome
    from rfl]
  cases hr : opened key outcome with
  | ok x =>
    rw [hr] at hfinal
    obtain ⟨a, -, hload⟩ := except_bind_eq_ok.1 hr
    have hx : revived x.artifact.encode = .ok x := by
      rw [revived, show Artifact.decode _ = _ from hfinal, Executable.artifact_of_load hload]
      exact hload
    have hcounted : Keeps bound { c with compilations := c.compilations + 1 } l := { h with }
    exact ⟨_, rfl, hcounted.add hnew hx⟩
  | error failure =>
    rw [hr] at hfinal
    refine ⟨{ c with compilations := c.compilations + 1, failed := (key, failure) :: c.failed }, ?_,
      rfl, ?_, nodup_cons.2 ⟨hnew, h.nodup⟩, ?_, h.revives, h.capacity, h.room⟩
    · simp [show failure.isCancelled = false from hfinal]
    · refine List.Perm.trans ?_ (h.perm.cons _)
      simp only [entries, ← append_assoc]
      exact perm_middle
    · rintro k y (_ | ⟨_, hy⟩)
      exact h.lasts k y hy

lemma Keeps.get :
    ∃ c', c.get false key (fun _ => outcome) = ((l.lookup key).getD (opened key outcome), c') ∧
      c'.compilations = c.compilations + (if key ∈ l.map (·.1) then 0 else 1) ∧
        Keeps bound c' (l.step (.get key outcome)) := by
  show ∃ c', _ ∧ _ ∧ Keeps bound c'
    (if key ∈ l.map (·.1) then l else (key, opened key outcome) :: l)
  have hplaces := h.nodup_places
  unfold MemoryCache.get MemoryCache.lookup
  by_cases hnew : key ∈ l.map (·.1)
  · obtain ⟨⟨_, r⟩, hr, rfl⟩ := mem_map.1 hnew
    rw [lookup_of_mem h.nodup hr, if_pos hnew, if_pos hnew]
    have hplace := h.perm.mem_iff.2 hr
    simp only [entries, mem_append, mem_map, Prod.mk.injEq] at hplace
    rcases hplace with
      ⟨⟨key, x⟩, hx, rfl, rfl⟩ | ⟨⟨key, bytes⟩, hb, rfl, rfl⟩ | ⟨⟨key, f⟩, hf, rfl, rfl⟩
    · have hperm := perm_without (by grind) hx
      rw [lookup_eq_none.2 (by grind), lookup_of_mem (by grind) hx]
      exact ⟨_, rfl, rfl, (hperm.symm.map _).append_right _ |>.trans h.perm, h.nodup, h.lasts,
        h.revives, h.capacity, fun n hn => hperm.length_eq ▸ h.room n hn⟩
    · -- reviving is forgetting and adding
      have hlive : key ∉ c.live.map (·.1) := by grind
      have hfailed : key ∉ c.failed.map (·.1) := by grind
      obtain ⟨x, hx⟩ := h.revives _ hb
      rw [hx] at hr ⊢
      have hgone : key ∉ (without key l).map (·.1) := by simp [without]
      obtain ⟨hcount, hadd⟩ := (h.forget key).add hgone (h.lasts key x hr)
      have hperm := hadd.perm.trans (perm_without h.nodup hr).symm
      refine ⟨(c.forget key).add key x, ?_, hcount,
        { hadd with perm := hperm, nodup := h.nodup, lasts := h.lasts }⟩
      rw [lookup_eq_none.2 hfailed, lookup_eq_none.2 hlive, MemoryCache.forget,
        without_eq_self hlive, without_eq_self hfailed]
      simp [revive, lookup_of_mem (by grind) hb, show Artifact.decode _ >>= _ = _ from hx]
    · rw [lookup_of_mem (by grind) hf]
      exact ⟨c, rfl, rfl, h⟩
  · rw [if_neg hnew, if_neg hnew, lookup_eq_none.2 hnew]
    have hplace := hnew
    rw [h.mem_places, not_or, not_or] at hplace
    simp only [lookup_eq_none.2 hplace.1, lookup_eq_none.2 hplace.2.1, lookup_eq_none.2 hplace.2.2,
      Option.map_none, revive]
    exact h.settle hfinal hnew

lemma Keeps.answers :
    (c.get false key fun _ => outcome).1 = (l.lookup key).getD (opened key outcome) ∧
      (c.step (.get key outcome)).compilations =
        c.compilations + if key ∈ l.map (·.1) then 0 else 1 := by
  obtain ⟨c', hget, hcount, -⟩ := h.get hfinal
  exact ⟨congrArg Prod.fst hget, by rwa [MemoryCache.step, hget]⟩

end

lemma Keeps.step {call : Call} (hfinal : call.IsFinal) :
    Keeps bound (c.step call) (l.step call) := by
  cases call with
  | get key outcome =>
    obtain ⟨c', hget, -, h'⟩ := h.get hfinal
    rwa [MemoryCache.step, hget]
  | forget key => exact h.forget key

lemma Keeps.run (hfinal : ∀ call ∈ calls, call.IsFinal) :
    Keeps bound (calls.foldl MemoryCache.step c) (calls.foldl Ledger.step l) := by
  induction calls generalizing c l with
  | nil => exact h
  | cons call calls ih =>
    rw [forall_mem_cons] at hfinal
    exact ih (h.step hfinal.1) hfinal.2

end

lemma Ledger.lookup_step_get (l : Ledger) (key : String) (outcome : Except Failure Artifact) :
    (l.step (.get key outcome)).lookup key = some ((l.lookup key).getD (opened key outcome)) := by
  show List.lookup key (if key ∈ l.map (·.1) then l else (key, opened key outcome) :: l) = _
  cases hl : l.lookup key with
  | none => simp [if_neg (lookup_eq_none.1 hl)]
  | some r => rw [if_pos (mem_keys hl), hl, Option.getD_some]

lemma Ledger.lookup_foldl (hkept : .forget key ∉ calls) {r : Except Failure Executable}
    (h : l.lookup key = some r) : (calls.foldl step l).lookup key = some r := by
  induction calls generalizing l with
  | nil => exact h
  | cons call calls ih =>
    rw [mem_cons, not_or] at hkept
    refine ih hkept.2 ?_
    cases call with
    | get k outcome =>
      show List.lookup key (if k ∈ l.map (·.1) then l else (k, opened k outcome) :: l) = _
      have hkey := mem_keys h
      grind
    | forget k => exact (lookup_without fun hk : key = k => hkept.1 (hk ▸ rfl)).trans h

/-- A cache answers what the ledger says, and compiles only what that does not know: from one
request on, a key has the same answer until it is forgotten. No more executables are live than the
capacity, no key is both live and spilled, and the keys known are those requested since they were
last forgotten. -/
theorem first_results_are_kept (capacity : Int) (calls : List Call)
    (hfinal : ∀ call ∈ calls, call.IsFinal) :
    let c := calls.foldl MemoryCache.step (new capacity)
    let l := calls.foldl Ledger.step []
    (∀ key outcome, IsFinal (opened key outcome) →
      (c.get false key fun _ => outcome).1 = (l.lookup key).getD (opened key outcome) ∧
      (c.step (.get key outcome)).compilations =
        c.compilations + if key ∈ l.map (·.1) then 0 else 1) ∧
    (∀ key outcome later more, (∀ call ∈ .get key outcome :: .get key later :: more,
        call.IsFinal) → .forget key ∉ more →
      let c' := more.foldl MemoryCache.step (c.step (.get key outcome))
      (c'.get false key fun _ => later).1 = (c.get false key fun _ => outcome).1 ∧
        (c'.step (.get key later)).compilations = c'.compilations) ∧
    (0 < capacity → c.live.length ≤ capacity) ∧
    (∀ key, key ∈ c.live.map (·.1) → key ∉ c.spilled.map (·.1)) ∧
    ∀ key, key ∈ l.map (·.1) ↔
      key ∈ c.live.map (·.1) ∨ key ∈ c.spilled.map (·.1) ∨ key ∈ c.failed.map (·.1) := by
  intro c l
  have hnew : Keeps (new capacity).capacity (new capacity) [] :=
    ⟨.nil, .nil, nofun, nofun, rfl, fun n _ => Nat.zero_le n⟩
  have h : Keeps _ c l := hnew.run hfinal
  refine ⟨fun key outcome => h.answers, fun key outcome later more hmore hkept => ?_,
    fun hpos => ?_, fun key hlive hspilled => ?_, fun key => h.mem_places⟩
  · obtain ⟨hget, hlater, hmore⟩ : _ ∧ _ ∧ _ := by simpa only [List.forall_mem_cons] using hmore
    have hknown := Ledger.lookup_foldl hkept (Ledger.lookup_step_get l key outcome)
    have hanswers := ((h.step hget).run hmore).answers hlater
    rw [hknown, if_pos (mem_keys hknown)] at hanswers
    exact ⟨hanswers.1.trans (h.answers hget).1.symm, hanswers.2⟩
  · have hroom := h.room capacity.toNat (if_pos hpos)
    omega
  · have hplaces := h.nodup_places
    grind

def blank : Artifact := { version := 1, module := some { name := "m" } }

set_option maxRecDepth 20000 in
/-- What had to make room comes back without a compilation. -/
theorem pushed_out_is_kept :
    let c := [.get "a" (.ok blank), .get "b" (.ok blank)].foldl step (new 1)
    (c.step (.get "a" (.ok blank))).compilations = c.compilations := by
  have ha : Artifact.Storable { blank with key := "a" } := ⟨by simp [blank], rfl, rfl⟩
  have hb : Artifact.Storable { blank with key := "b" } := ⟨by simp [blank], rfl, rfl⟩
  have ha : IsFinal (opened "a" (.ok blank)) := ha.decode_encode rfl rfl
  have hb : IsFinal (opened "b" (.ok blank)) := hb.decode_encode rfl rfl
  exact ((first_results_are_kept 1 [] nofun).2.1 "a" (.ok blank) (.ok blank)
    [.get "b" (.ok blank)] (by simp [Call.IsFinal, ha, hb]) (by simp)).2

end MemoryCache

end Sierra
