import Mathlib.Data.List.Perm.Subperm
import Sierra.Layout

/-!
# Layouts through the cache

Either a type has a layout (`Gives`), or one that fails or comes back to itself is reached from it
(`Lost`). A fault stored for a type that is still open is right too: every open type asks for the
next one, so a type found open lies on a cycle.
-/

namespace Sierra.Layout

open List
open Relation (ReflTransGen TransGen)

/-! ## Without a cache -/

section

variable (plan : Nat → Plan)

/-- The layout that a plan comes to, with those of all types that it asks for. -/
inductive Gives : Plan → Layout → Prop
  | answer (l : Layout) : Gives (.answer l) l
  | ask {id : TypeId} {next : Layout → Plan} {l l' : Layout} :
      Gives (plan id.number) l → Gives (next l) l' → Gives (.ask id next) l'

/-- A plan asks for a type once the types before it have layouts. -/
inductive Asks : Plan → Nat → Prop
  | first (id : TypeId) (next : Layout → Plan) : Asks (.ask id next) id.number
  | later {id : TypeId} {next : Layout → Plan} {l : Layout} {n : Nat} :
      Gives plan (plan id.number) l → Asks (next l) n → Asks (.ask id next) n

/-- A plan fails although all types that it asks for have layouts. -/
inductive Fails : Plan → Prop
  | fail (cause : Failure) : Fails (.fail cause)
  | later {id : TypeId} {next : Layout → Plan} {l : Layout} :
      Gives plan (plan id.number) l → Fails (next l) → Fails (.ask id next)

abbrev Needs (m n : Nat) : Prop := Asks plan (plan m) n

/-- A type is reached that fails or comes back to itself. -/
def Lost (n : Nat) : Prop :=
  ∃ m, ReflTransGen (Needs plan) n m ∧ (Fails plan (plan m) ∨ TransGen (Needs plan) m m)

/-- An answer is the layout of a plan, or an error if the plan has none. -/
def Right (p : Plan) : Except Failure Layout → Prop
  | .ok l => Gives plan p l
  | .error _ => Fails plan p ∨ ∃ n, Asks plan p n ∧ Lost plan n

def Valid (cache : Cache) : Prop := ∀ n r, cache[n]? = some r → Right plan (plan n) r

end

variable {plan : Nat → Plan} {cache : Cache} {n : Nat} {p : Plan} {id : TypeId} {l : Layout}
  {r : Except Failure Layout}

lemma lost_iff : Lost plan n ↔ Fails plan (plan n) ∨ ∃ m, Needs plan n m ∧ Lost plan m := by
  constructor
  · rintro ⟨m, hway, hm⟩
    obtain rfl | ⟨t, ht, hrest⟩ := hway.cases_head
    · refine hm.imp_right fun hcycle => ?_
      obtain ⟨t, ht, hback⟩ := TransGen.head'_iff.1 hcycle
      exact ⟨t, ht, _, hback, .inr hcycle⟩
    · exact .inr ⟨t, ht, m, hrest, hm⟩
  · rintro (hfails | ⟨m, hm, t, hway, ht⟩)
    · exact ⟨n, .refl, .inl hfails⟩
    · exact ⟨t, .head hm hway, ht⟩

lemma Gives.only (h : Gives plan p l) (hr : Right plan p r) : r = .ok l := by
  induction h generalizing r with
  | answer l =>
    cases r with
    | ok l' =>
      cases hr
      rfl
    | error cause => rcases hr with hr | ⟨n, hr, -⟩ <;> cases hr
  | @ask id next l l' _ _ ih ihnext =>
    have hsame : ∀ {l'}, Gives plan (plan id.number) l' → l' = l := fun h =>
      Except.ok.inj (ih (r := .ok _) h)
    cases r with
    | ok l' =>
      obtain _ | ⟨hl, hnext⟩ := hr
      exact ihnext (hsame hl ▸ hnext)
    | error cause =>
      obtain (_ | ⟨hl, hnext⟩) | ⟨n, _ | ⟨hl, hnext⟩, hlost⟩ := hr
      · exact ihnext (.inl (hsame hl ▸ hnext))
      · cases ih (r := .error cause) (lost_iff.1 hlost)
      · exact ihnext (.inr ⟨n, hsame hl ▸ hnext, hlost⟩)

lemma Right.iff (h : Right plan (plan n) r) : (∀ l, r = .ok l ↔ Gives plan (plan n) l) ∧
    ((∃ cause, r = .error cause) ↔ Lost plan n) := by
  rw [lost_iff]
  cases r with
  | error cause =>
    refine ⟨fun l => iff_of_false nofun fun hl => ?_, iff_of_true ⟨cause, rfl⟩ h⟩
    cases hl.only h
  | ok l =>
    refine ⟨fun l' => ⟨fun heq => ?_, fun hl => hl.only h⟩, iff_of_false nofun fun hlost => ?_⟩
    · cases heq
      exact h
    · cases Gives.only (r := .error default) h hlost

/-! ## With a cache -/

lemma Valid.insert (h : Valid plan cache) (hr : Right plan (plan n) r) :
    Valid plan (cache.insert n r) := by
  intro m r' hm
  rw [Std.HashMap.getElem?_insert] at hm
  split at hm
  · next heq =>
    cases hm
    exact eq_of_beq heq ▸ hr
  · exact h m r' hm

/-- Two ways to look up what a plan asks for agree and are right. -/
def Agree (plan : Nat → Plan) (p : Plan)
    (look look' : TypeId → Cache → Except Failure Layout × Cache) : Prop :=
  ∀ id cache, Asks plan p id.number → Valid plan cache → look' id cache = look id cache ∧
    Right plan (plan id.number) (look id cache).1 ∧ Valid plan (look id cache).2

lemma right_follow {look look' : TypeId → Cache → Except Failure Layout × Cache}
    (hlook : Agree plan p look look') (hcache : Valid plan cache) :
    follow look' p cache = follow look p cache ∧ Right plan p (follow look p cache).1 ∧
      Valid plan (follow look p cache).2 := by
  induction p generalizing cache with
  | answer l => exact ⟨rfl, .answer l, hcache⟩
  | fail cause => exact ⟨rfl, .inl (.fail cause), hcache⟩
  | ask id next ih =>
    obtain ⟨hsame, hright, hvalid⟩ := hlook id cache (.first id next) hcache
    rw [follow, follow, hsame]
    generalize look id cache = found at hright hvalid
    obtain ⟨_ | l, cache'⟩ := found
    · exact ⟨rfl, .inr ⟨_, .first id next, lost_iff.2 hright⟩, hvalid⟩
    · obtain ⟨hfollow, hright', hvalid'⟩ :=
        ih l (fun id' cache hasks => hlook id' cache (.later hright hasks)) hvalid
      refine ⟨hfollow, ?_, hvalid'⟩
      generalize (follow look (next l) cache').1 = result at hright'
      cases result with
      | ok l' => exact .ask hright hright'
      | error cause =>
        exact hright'.imp (.later hright) fun ⟨n, hasks, hlost⟩ => ⟨n, .later hright hasks, hlost⟩

/-- The answer is right while all open types need the type, and more depth changes nothing: there
are no more open types than types that ask. -/
lemma right_layoutOf {known : List Nat} (hknown : ∀ m n, Needs plan m n → m ∈ known) (more : Nat)
    {fuel : Nat} {stack : List TypeId}
    (hopen : ∀ m ∈ stack.map (·.number), TransGen (Needs plan) m id.number)
    (hnodup : (stack.map (·.number)).Nodup) (hfuel : known.length < fuel + stack.length)
    (hcache : Valid plan cache) :
    layoutOf (fun id => plan id.number) (fuel + more) stack id cache =
        layoutOf (fun id => plan id.number) fuel stack id cache ∧
      Right plan (plan id.number) (layoutOf (fun id => plan id.number) fuel stack id cache).1 ∧
      Valid plan (layoutOf (fun id => plan id.number) fuel stack id cache).2 := by
  induction fuel generalizing stack id cache with
  | zero =>
    have hsub : stack.map (·.number) ⊆ known := by
      intro m hm
      obtain ⟨t, ht, -⟩ := TransGen.head'_iff.1 (hopen m hm)
      exact hknown m t ht
    have hle := (hnodup.subperm hsub).length_le
    rw [length_map] at hle
    omega
  | succ fuel ih =>
    rw [Nat.succ_add]
    unfold layoutOf
    split
    · next known hknown => exact ⟨rfl, hcache _ _ hknown, hcache⟩
    split
    · next hfound =>
      obtain ⟨m, hm, hsame⟩ := any_eq_true.1 hfound
      have hcycle := hopen _ (mem_map_of_mem hm)
      rw [← beq_iff_eq.1 hsame] at hcycle
      have hlost := lost_iff.1 ⟨_, .refl, .inr hcycle⟩
      exact ⟨rfl, hlost, hcache.insert hlost⟩
    · next hclosed =>
      have hnew : id.number ∉ stack.map (·.number) := by
        intro hmem
        obtain ⟨m, hm, hsame⟩ := mem_map.1 hmem
        exact hclosed (any_eq_true.2 ⟨m, hm, beq_iff_eq.2 hsame.symm⟩)
      obtain ⟨hsame, hright, hvalid⟩ := right_follow (fun next cache hasks hcache =>
        @ih cache next (id :: stack)
          (forall_mem_cons.2 ⟨.single hasks, fun m hm => (hopen m hm).tail hasks⟩)
          (nodup_cons.2 ⟨hnew, hnodup⟩) (by rw [length_cons]; omega) hcache) hcache
      dsimp only
      rw [hsame]
      generalize follow _ _ cache = found at hright hvalid
      obtain ⟨_ | l, cache'⟩ := found <;> exact ⟨rfl, hright, hvalid.insert hright⟩

/-! ## Questions one after another -/

/-- The plans of finitely many types. -/
def planOf (unknown : Nat → Failure) (table : List (Nat × Plan)) (n : Nat) : Plan :=
  (table.lookup n).getD (.fail (unknown n))

lemma mem_of_needs {unknown : Nat → Failure} {table : List (Nat × Plan)} (m n : Nat)
    (h : Needs (planOf unknown table) m n) : m ∈ table.map (·.1) := by
  unfold Needs at h
  rw [planOf] at h
  cases hp : table.lookup m with
  | none =>
    rw [hp] at h
    cases h
  | some p =>
    obtain ⟨before, after, rfl, -⟩ := lookup_eq_some_iff.1 hp
    simp

abbrev query (plan : Nat → Plan) (depth : Nat) (id : TypeId) (cache : Cache) :
    Except Failure Layout × Cache :=
  layoutOf (fun id => plan id.number) depth [] id cache

/-- Whatever an engine was asked before, it gives the layout of a type that has one, and an error
for a type from which one that is unknown, fails or comes back to itself is reached. A depth of one
more than the number of types is enough. -/
theorem cached_layouts_are_transparent (unknown : Nat → Failure) (table : List (Nat × Plan))
    (ids : List TypeId) (id : TypeId) :
    let plan := planOf unknown table
    let cache := ids.foldl (fun cache id => (query plan (table.length + 1) id cache).2) ∅
    let answer := query plan (table.length + 1) id cache
    (∀ more, query plan (table.length + 1 + more) id cache = answer) ∧
    (∀ l, answer.1 = .ok l ↔ (query plan (table.length + 1) id ∅).1 = .ok l) ∧
    (∀ l, answer.1 = .ok l ↔ Gives plan (plan id.number) l) ∧
    ((∃ cause, answer.1 = .error cause) ↔ Lost plan id.number) := by
  intro plan cache answer
  have hright := fun id cache more => @right_layoutOf plan cache id _ mem_of_needs more
    (table.length + 1) [] (by simp) nodup_nil (by simp)
  have hempty : Valid plan ∅ := by simp [Valid]
  have hcache : Valid plan cache :=
    foldlRecOn (motive := Valid plan) ids _ hempty fun cache hcache id _ =>
      (hright id cache 0 hcache).2.2
  obtain ⟨hok, herror⟩ := (hright id cache 0 hcache).2.1.iff
  have hfirst := (hright id ∅ 0 hempty).2.1.iff.1
  exact ⟨fun more => (hright id cache more hcache).1, fun l => (hok l).trans (hfirst l).symm, hok,
    herror⟩

end Sierra.Layout
