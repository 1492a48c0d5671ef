import Sierra.Proofs.Graph
import Sierra.Proofs.Optimize.Relocate

/-!
# Dropping blocks that cannot be reached

The marks hold of exactly the blocks to which there is a way from the entry (`reachable_iff`).
Dropping the others gives a `Relocation`.
-/

namespace Sierra.Ir.Flow

open List Option Relation

variable {marks : Array Bool} {f : Func} {waiting : List BlockId} {i j : Nat} {α : Type} {b : Block}
  {entries : List α} {a : α}

/-! ## Marks -/

def unseenEdges : List Block → List Bool → Nat
  | b :: blocks, seen :: marks => (if seen then 0 else b.term.edges.length) + unseenEdges blocks marks
  | _, _ => 0

lemma unseenEdges_set {blocks : List Block} {marks : List Bool}
    (hb : blocks[i]? = some b) (hi : marks[i]? = some false) :
    unseenEdges blocks (marks.set i true) + b.term.edges.length = unseenEdges blocks marks := by
  induction blocks generalizing marks i with
  | nil => simp at hb
  | cons c blocks ih =>
    cases marks with
    | nil => simp at hi
    | cons mark marks =>
      cases i with
      | zero =>
        rw [getElem?_cons_zero, some.injEq] at hb hi
        subst hb hi
        simp only [set_cons_zero, unseenEdges, ↓reduceIte, Bool.false_eq_true]
        omega
      | succ i =>
        have h := ih hb hi
        rw [set_cons_succ, unseenEdges, unseenEdges]
        omega

lemma unseenEdges_replicate (f : Func) :
    unseenEdges f.blocks.toList (replicate f.blocks.toList.length false) = edgeCount f := by
  have hfold : ∀ (blocks : List Block) (n : Nat),
      blocks.foldl (fun n b => n + b.term.edges.length) n =
        n + unseenEdges blocks (replicate blocks.length false) := by
    intro blocks
    induction blocks with
    | nil => simp [unseenEdges]
    | cons b blocks ih =>
      intro n
      rw [foldl_cons, ih, length_cons, replicate_succ, unseenEdges, if_neg (by simp)]
      omega
  rw [edgeCount, hfold, zero_add]

/-- Every edge out of a marked block leads to a marked or a waiting one. -/
def Settled (f : Func) (waiting : List BlockId) (marks : Array Bool) : Prop :=
  ∀ (i j : Nat), marks[i]? = some true → f.Succ i j → marks[j]? = some true ∨ (j : Int) ∈ waiting

lemma marked_set_iff (hlt : i < marks.size) (x : Nat) :
    (marks.setIfInBounds i true)[x]? = some true ↔ marks[x]? = some true ∨ x = i := by
  by_cases hx : i = x
  · subst hx
    simp [hlt]
  · simp [hx, Ne.symm hx]

lemma succ_iff (hb : f.blocks[i]? = some b) :
    f.Succ i j ↔ (j : Int) ∈ b.term.edges.map (·.target) := by
  simp [Func.Succ, hb]

lemma mem_cons_natCast : (j : Int) ∈ (i : Int) :: waiting ↔ j = i ∨ (j : Int) ∈ waiting := by
  rw [mem_cons, Int.ofNat_inj]

lemma reach_iff {f : Func} {fuel : Nat} {waiting : List BlockId} {marks : Array Bool}
    (hsize : marks.size = f.blocks.size)
    (hfuel : waiting.length + unseenEdges f.blocks.toList marks.toList < fuel)
    (hwait : ∀ id ∈ waiting, ∃ b, f.block? id = some b) (hsettled : Settled f waiting marks)
    (htyped : ∀ b ∈ f.blocks, ∀ e ∈ b.term.edges, ∃ c, f.block? e.target = some c) :
    (reach f fuel waiting marks)[i]? = some true ↔
      marks[i]? = some true ∨ ∃ j : Nat, (j : Int) ∈ waiting ∧ ReflTransGen f.Succ j i := by
  fun_induction reach f fuel waiting marks with
  | case1 => omega
  | case2 => simp
  | case3 fuel id waiting marks hseen ih =>
    obtain ⟨b, hb⟩ := hwait id mem_cons_self
    obtain ⟨k, rfl, hblock⟩ := Func.block?_eq_some_iff.1 hb
    have hlt : k < marks.size := hsize ▸ (Array.getElem?_eq_some_iff.1 hblock).1
    have hmark : marks[k]? = some true := by
      simpa [hlt] using hseen.resolve_left (not_lt.2 (Int.natCast_nonneg k))
    rw [length_cons] at hfuel
    obtain ⟨hskip, hfinds⟩ := Graph.Closes.skip hsettled (fun _ => mem_cons_natCast) hmark
    rw [ih hsize (by omega) (fun id hid => hwait id (mem_cons_of_mem _ hid)) hskip]
    exact (hfinds i).symm
  | case4 fuel id waiting marks hseen targets ih =>
    obtain ⟨b, hb⟩ := hwait id mem_cons_self
    have htargets : targets = b.term.edges.map (·.target) := by
      dsimp only [targets]
      rw [hb, map_some, getD_some]
    obtain ⟨k, rfl, hblock⟩ := Func.block?_eq_some_iff.1 hb
    have hlt : k < marks.size := hsize ▸ (Array.getElem?_eq_some_iff.1 hblock).1
    have hmark : marks[k]? = some false := by simpa [hlt] using hseen
    rw [htargets, Int.toNat_natCast] at ih ⊢
    rw [length_cons] at hfuel
    -- The edges of the block count as waiting now and no longer as unseen.
    have hunseen : unseenEdges f.blocks.toList (marks.toList.set k true) +
        b.term.edges.length = unseenEdges f.blocks.toList marks.toList :=
      unseenEdges_set (by rw [Array.getElem?_toList, hblock]) (by rw [Array.getElem?_toList, hmark])
    have hfuel' : (b.term.edges.map (·.target) ++ waiting).length +
        unseenEdges f.blocks.toList (marks.setIfInBounds k true).toList < fuel := by
      rw [length_append, length_map, Array.toList_setIfInBounds]
      omega
    have hwait' : ∀ id ∈ b.term.edges.map (·.target) ++ waiting, ∃ b, f.block? id = some b := by
      intro id hid
      rcases mem_append.1 hid with hid | hid
      · obtain ⟨e, he, rfl⟩ := mem_map.1 hid
        exact htyped b (Array.mem_of_getElem? hblock) e he
      · exact hwait id (mem_cons_of_mem _ hid)
    obtain ⟨hmarked, hfinds⟩ := Graph.Closes.expand hsettled (fun _ => mem_cons_natCast)
      (marked_set_iff hlt) fun _ => mem_append.trans (or_congr_left (succ_iff hblock).symm)
    rw [ih (by rw [Array.size_setIfInBounds, hsize]) hfuel' hwait' hmarked]
    exact (hfinds i).symm

lemma size_reach (f : Func) (fuel : Nat) (waiting : List BlockId) (marks : Array Bool) :
    (reach f fuel waiting marks).size = marks.size := by
  fun_induction reach f fuel waiting marks with
  | case1 | case2 => rfl
  | case3 _ _ _ _ _ ih => exact ih
  | case4 _ _ _ _ _ _ ih => rw [ih, Array.size_setIfInBounds]

variable {m : Module} {f : Func}

lemma reachable_iff (hf : f.Checked m) : (reachable f)[i]? = some true ↔ f.Reached i := by
  have hempty : ∀ i : Nat, (Array.replicate f.blocks.size false)[i]? ≠ some true := by
    simp [Array.getElem?_replicate]
  obtain ⟨entry, hentry, -⟩ := hf.entry
  rw [reachable, reach_iff Array.size_replicate ?_ ?_ ?_ ?_, or_iff_right (hempty i)]
  · constructor
    · rintro ⟨j, hj, hway⟩
      induction hway with
      | refl => exact ⟨[], .entry (mem_singleton.1 hj).symm⟩
      | tail _ hsucc ih => exact ih.succ hsucc
    · rintro ⟨before, hpath⟩
      induction hpath with
      | entry h => exact ⟨_, mem_singleton.2 h.symm, .refl⟩
      | step _ hsucc ih =>
        obtain ⟨j, hj, hway⟩ := ih
        exact ⟨j, hj, hway.tail hsucc⟩
  · rw [Array.toList_replicate, ← Array.length_toList, unseenEdges_replicate, length_singleton]
    omega
  · intro id hid
    rw [mem_singleton] at hid
    exact ⟨entry, hid ▸ hentry⟩
  · intro i j hi
    exact absurd hi (hempty i)
  · intro b hb e he
    obtain ⟨c, hc, -⟩ := (hf.block b hb).edges e he
    exact ⟨c, hc⟩

/-! ## New places -/

/-- The number of blocks kept before place `i`. -/
def newPlace (marks : List Bool) (i : Nat) : Nat := (marks.take i).count true

@[simp] lemma newPlace_succ (mark : Bool) (marks : List Bool) (i : Nat) :
    newPlace (mark :: marks) (i + 1) = (if mark then 1 else 0) + newPlace marks i := by
  cases mark <;> simp [newPlace, add_comm]

abbrev keptOf {α : Type} (entries : List α) (marks : List Bool) : List α :=
  ((entries.zip marks).filter (·.2)).map (·.1)

lemma keptOf_cons (a : α) (entries : List α) (mark : Bool) (marks : List Bool) :
    keptOf (a :: entries) (mark :: marks) =
      if mark then a :: keptOf entries marks else keptOf entries marks := by
  cases mark <;> simp [keptOf]

lemma keptOf_newPlace {marks : List Bool} (ha : entries[i]? = some a) (hi : marks[i]? = some true) :
    (keptOf entries marks)[newPlace marks i]? = some a := by
  induction entries generalizing marks i with
  | nil => simp at ha
  | cons x entries ih =>
    cases marks with
    | nil => simp at hi
    | cons mark marks =>
      rw [keptOf_cons]
      cases i with
      | zero =>
        rw [getElem?_cons_zero, some.injEq] at ha hi
        subst ha hi
        rfl
      | succ i =>
        rw [newPlace_succ]
        have hrest := ih ha hi
        cases mark with
        | true => rwa [if_pos rfl, if_pos rfl, Nat.add_comm, getElem?_cons_succ]
        | false => rwa [if_neg Bool.false_ne_true, if_neg Bool.false_ne_true, Nat.zero_add]

lemma newPlace_inj {marks : List Bool} (hi : marks[i]? = some true)
    (hj : marks[j]? = some true) (h : newPlace marks i = newPlace marks j) : i = j := by
  have hplace : ∀ {k : Nat}, marks[k]? = some true →
      (keptOf (range marks.length) marks)[newPlace marks k]? = some k := fun hk =>
    keptOf_newPlace (List.getElem?_range (List.getElem?_eq_some_iff.1 hk).1) hk
  have hi := hplace hi
  rw [h, hplace hj, some.injEq] at hi
  exact hi.symm

lemma exists_of_keptOf {marks : List Bool} (h : (keptOf entries marks)[j]? = some a) :
    ∃ i : Nat, entries[i]? = some a ∧ marks[i]? = some true ∧ newPlace marks i = j := by
  induction entries generalizing marks j with
  | nil => simp [keptOf] at h
  | cons x entries ih =>
    cases marks with
    | nil => simp [keptOf] at h
    | cons mark marks =>
      cases mark with
      | false =>
        obtain ⟨i, ha, hi, hplace⟩ := ih h
        exact ⟨i + 1, ha, hi, by simpa using hplace⟩
      | true =>
        cases j with
        | zero => exact ⟨0, h, rfl, rfl⟩
        | succ j =>
          obtain ⟨i, ha, hi, hplace⟩ := ih h
          exact ⟨i + 1, ha, hi, by simp [hplace, add_comm]⟩

def numbersFrom : (n : Nat) → List Bool → List (Option Nat)
  | _, [] => []
  | n, true :: marks => some n :: numbersFrom (n + 1) marks
  | n, false :: marks => none :: numbersFrom n marks

lemma numbersFrom_getElem? {n : Nat} {marks : List Bool} (hi : marks[i]? = some true) :
    (numbersFrom n marks)[i]? = some (some (n + newPlace marks i)) := by
  induction marks generalizing n i with
  | nil => simp at hi
  | cons mark marks ih =>
    cases i with
    | zero =>
      rw [getElem?_cons_zero, some.injEq] at hi
      subst hi
      rfl
    | succ i =>
      cases mark with
      | true =>
        rw [numbersFrom, getElem?_cons_succ, ih hi, newPlace_succ, if_pos rfl, add_assoc]
      | false =>
        rw [numbersFrom, getElem?_cons_succ, ih hi, newPlace_succ,
          if_neg Bool.false_ne_true, zero_add]

lemma numbering_eq (marks : Array Bool) :
    numbering marks = (numbersFrom 0 marks.toList).toArray := by
  have hfold : ∀ (ms : List Bool) (n : Nat) (names : Array (Option Nat)),
      (ms.foldl (fun (state : Nat × Array (Option Nat)) keep =>
        if keep then (state.1 + 1, state.2.push (some state.1)) else (state.1, state.2.push none))
        (n, names)).2 = names ++ (numbersFrom n ms).toArray := by
    intro ms
    induction ms with
    | nil => simp [numbersFrom]
    | cons mark ms ih => cases mark <;> simp [ih, numbersFrom]
  rw [numbering, ← Array.foldl_toList, hfold, Array.empty_append]

lemma renamed?_of_marked (hi : marks[i]? = some true) :
    renamed? (numbering marks) (i : Int) = some (newPlace marks.toList i : Int) := by
  rw [← Array.getElem?_toList] at hi
  have hnum : (numbering marks)[i]? = some (some (newPlace marks.toList i)) := by
    rw [numbering_eq, getElem?_toArray, numbersFrom_getElem? hi, zero_add]
  have hdef : renamed? (numbering marks) (i : Int) = if (i : Int) < 0 then none else
      (((numbering marks)[(i : Int).toNat]?).getD none).map Int.ofNat := rfl
  rw [hdef, Int.toNat_natCast, hnum]
  rfl

/-! ## The compacted function -/

def destination (marks : Array Bool) (id : BlockId) : BlockId :=
  (renamed? (numbering marks) id).getD id

lemma destination_of_marked (hi : marks[i]? = some true) :
    destination marks (i : Int) = (newPlace marks.toList i : Int) := by
  rw [destination, renamed?_of_marked hi, getD_some]

lemma keptOf_sublist (entries : List α) (marks : List Bool) :
    (keptOf entries marks).Sublist entries := by
  induction entries generalizing marks with
  | nil => simp [keptOf]
  | cons a entries ih =>
    cases marks with
    | nil => simp [keptOf]
    | cons mark marks =>
      cases mark with
      | true => exact (ih marks).cons_cons a
      | false => exact (ih marks).cons a

lemma compact_of_all (hf : f.Checked m) (h : marks.all id) : compact f marks = f := by
  have hblocks : renumber f.blocks = f.blocks := by
    apply Array.ext_getElem?
    intro i
    rw [renumber, Array.getElem?_mapIdx]
    cases hb : f.blocks[i]? with
    | none => rfl
    | some b => rw [map_some, ← hf.place i b hb]
  rw [compact, if_pos h, hblocks]

lemma trim_of_all (hf : f.Checked m) (h : (reachable f).all id) : f.Trim := by
  intro i b hb
  have hlt : i < (reachable f).size := by
    rw [reachable, size_reach, Array.size_replicate]
    exact (Array.getElem?_eq_some_iff.1 hb).1
  have hmark := Array.all_eq_true.1 h i hlt
  refine (reachable_iff hf).1 ?_
  rw [Array.getElem?_eq_getElem hlt]
  exact congrArg some hmark

lemma compact_getElem? (h : ¬ marks.all id) (j : Nat) :
    (compact f marks).blocks[j]? = ((keptOf f.blocks.toList marks.toList)[j]?).map fun b =>
      { b with
        id := (j : Int)
        term := b.term.mapEdges fun e => { e with target := destination marks e.target } } := by
  have hkept : (((f.blocks.zip marks).filter (·.2)).map (·.1))[j]? =
      (keptOf f.blocks.toList marks.toList)[j]? := by
    rw [← Array.getElem?_toList, Array.toList_map, Array.toList_filter, Array.toList_zip]
  rw [compact, if_neg h]
  dsimp only
  rw [renumber, Array.getElem?_mapIdx, Array.getElem?_map, hkept, Option.map_map]
  rfl

lemma compact_defined (h : ¬ marks.all id) :
    (compact f marks).defined.Sublist f.defined := by
  have hdefs : (compact f marks).blocks.toList.map Block.defs =
      (keptOf f.blocks.toList marks.toList).map Block.defs := by
    apply ext_getElem?
    intro j
    rw [getElem?_map, getElem?_map, Array.getElem?_toList, compact_getElem? h, Option.map_map]
    rfl
  rw [Func.defined, flatMap_def, hdefs]
  exact (keptOf_sublist _ _).flatMap _

lemma relocation_compact (hf : f.Checked m) (h : ¬ (reachable f).all id) :
    Relocation f (compact f (reachable f)) (destination (reachable f)) := by
  have hmarked : ∀ i : Nat, f.Reached i → (reachable f)[i]? = some true := fun i hi =>
    (reachable_iff hf).2 hi
  have hmarked' : ∀ i : Nat, (reachable f).toList[i]? = some true → f.Reached i := by
    intro i hi
    rw [Array.getElem?_toList] at hi
    exact (reachable_iff hf).1 hi
  generalize hm : reachable f = marks at *
  have hfields : ∀ {α : Type} (field : Func → α), (∀ blocks cleared entry,
      field { f with blocks := blocks, isCleared := cleared, entry := entry } = field f) →
      field (compact f marks) = field f := by
    intro α field hfield
    rw [compact, if_neg h]
    exact hfield _ _ _
  refine ⟨hfields _ fun _ _ _ => rfl, hfields _ fun _ _ _ => rfl, hfields _ fun _ _ _ => rfl,
    hfields _ fun _ _ _ => rfl, ?_, ?_, ?_, ?_, ?_⟩
  · obtain ⟨b, hb, -⟩ := hf.entry
    obtain ⟨i, hi, -⟩ := Func.block?_eq_some_iff.1 hb
    have hentry : (compact f marks).entry = (renamed? (numbering marks) f.entry).getD 0 := by
      rw [compact, if_neg h]
    rw [hentry, destination, hi, renamed?_of_marked (hmarked i ⟨[], .entry hi⟩)]
    rfl
  · exact compact_defined h
  · intro i b hi hb
    have hmark := hmarked i hi
    refine ⟨newPlace marks.toList i, destination_of_marked hmark, ?_⟩
    rw [compact_getElem? h, keptOf_newPlace (by rw [Array.getElem?_toList]; exact hb)
      (by rw [Array.getElem?_toList]; exact hmark), map_some, Block.moved,
      hf.place i b hb, destination_of_marked hmark]
  · intro j b' hb'
    rw [compact_getElem? h, map_eq_some_iff] at hb'
    obtain ⟨b, hkept, rfl⟩ := hb'
    obtain ⟨i, hb, hi, rfl⟩ := exists_of_keptOf hkept
    rw [Array.getElem?_toList] at hb
    have hplace := destination_of_marked (hmarked i (hmarked' i hi))
    refine ⟨i, b, hmarked' i hi, hb, hplace, ?_⟩
    rw [Block.moved, hf.place i b hb, hplace]
  · intro i j hi hj heq
    have hi' := hmarked i hi
    have hj' := hmarked j hj
    rw [destination_of_marked hi', destination_of_marked hj'] at heq
    rw [← Array.getElem?_toList] at hi' hj'
    exact newPlace_inj hi' hj' (Int.ofNat_inj.1 heq)

end Sierra.Ir.Flow

namespace Sierra.Machine

open Ir Ir.Flow

variable {σ : Type} {m : Module} {f : Func}

lemma replaces_compact (env : Env σ) (hf : f.Valid m) :
    (compact f (reachable f)).Valid m ∧ Replaces env m f (compact f (reachable f)) ∧
      (compact f (reachable f)).Trim ∧ (f.BareLocal → (compact f (reachable f)).BareLocal) := by
  by_cases hall : (reachable f).all id
  · rw [compact_of_all hf.checked hall]
    exact ⟨hf, .refl env m f, trim_of_all hf.checked hall, id⟩
  · have h := relocation_compact hf.checked hall
    exact ⟨h.valid hf, replaces_of_relocation h hf, h.trim, h.bareLocal⟩

lemma not_isEmpty_of_checked (hf : f.Checked m) : ¬ f.blocks.isEmpty := by
  obtain ⟨entry, hentry, -⟩ := hf.entry
  obtain ⟨i, -, hblock⟩ := Func.block?_eq_some_iff.1 hentry
  rw [Array.isEmpty_iff]
  intro hempty
  rw [hempty] at hblock
  cases hblock

lemma replaces_simplify (env : Env σ) (hf : f.Valid m) (hlocal : f.BareLocal) :
    f.simplify.Valid m ∧ Replaces env m f f.simplify ∧ f.simplify.Trim ∧ f.simplify.BareLocal := by
  rw [Func.simplify, if_neg (not_isEmpty_of_checked hf.checked)]
  obtain ⟨hvalid, hbare, hredirect⟩ := replaces_redirectAll env hf hlocal
  obtain ⟨hvalid', hcompact, htrim, hbare'⟩ := replaces_compact env hvalid
  exact ⟨hvalid', hredirect.trans hcompact, htrim, hbare' hbare⟩

end Sierra.Machine
