import Mathlib.Tactic.Lemma
import Sierra.Ir.Verify

/-!
# What the rules of well-formed code promise

A function is `Checked` exactly when its list of problems is empty. The rules do not order
definitions before uses, nor say which type an operation gives to its result.
-/

namespace Sierra.Ir

open List Func Module

variable {block : BlockId} {f : Func} {m : Module} {marks : Array Bool}
  {state : Array Bool × List Problem} {d : BlockId × ValueId} {b : Block} {v : Int} {op : Op}

/-! ## Types that agree -/

lemma typeMismatches_eq_nil_iff {got want : List Ty} (hlen : got.length = want.length) :
    typeMismatches got want = [] ↔ got = want := by
  rw [typeMismatches, map_eq_nil_iff, filter_eq_nil_iff]
  constructor
  · intro h
    apply ext_getElem hlen
    intro i h₁ h₂
    have hmem : ((got[i], want[i]), i) ∈ (got.zip want).zipIdx := by
      rw [mem_zipIdx_iff_getElem?, getElem?_zip_eq_some]
      exact ⟨getElem?_eq_getElem h₁, getElem?_eq_getElem h₂⟩
    simpa using h _ hmem
  · rintro rfl ⟨⟨x, y⟩, i⟩ hmem
    rw [mem_zipIdx_iff_getElem?, getElem?_zip_eq_some] at hmem
    have hxy : some x = some y := hmem.1.symm.trans hmem.2
    simpa using hxy

lemma signatureProblem?_eq_none_iff {params results : List Ty} :
    signatureProblem? f op params results = none ↔
      op.args.map f.typeOf = params ∧ op.results.map f.typeOf = results := by
  unfold signatureProblem?
  constructor
  · intro h
    split at h
    · cases h
    next hcounts =>
    rw [not_or] at hcounts
    split at h
    · cases h
    · next hargs =>
      split at h
      · cases h
      · next hres =>
        exact ⟨(typeMismatches_eq_nil_iff (by simpa using hcounts.1)).1 hargs,
          (typeMismatches_eq_nil_iff (by simpa using hcounts.2)).1 hres⟩
  · rintro ⟨rfl, rfl⟩
    rw [if_neg (by simp), (typeMismatches_eq_nil_iff rfl).2 rfl]
    rw [(typeMismatches_eq_nil_iff rfl).2 rfl]

/-! ## Marked definitions -/

def Block.defs (b : Block) : List ValueId := b.params ++ b.ops.flatMap (·.results)

def Func.defined (f : Func) : List ValueId := f.blocks.toList.flatMap Block.defs

lemma Func.map_definitions (f : Func) : f.definitions.map (·.2) = f.defined := by
  rw [definitions, map_flatMap]
  congr 1
  funext b
  simp [Block.defs, Function.comp_def]

def HasMark (size : Nat) (v : Int) : Prop := 0 ≤ v ∧ v.toNat < size

lemma HasMark.lt {size : Nat} (h : HasMark size v) : v < (size : Int) := by
  obtain ⟨hpos, hlt⟩ := h
  omega

lemma isMarked_iff : isMarked marks v ↔ 0 ≤ v ∧ marks[v.toNat]? = some true := by
  cases h : marks[v.toNat]? <;> simp [isMarked, h]

lemma noteDefinition_eq (marks : Array Bool) (problems : List Problem) (block : BlockId) (v : Int) :
    noteDefinition (marks, problems) (block, v) =
      if v < 0 ∨ marks.size ≤ v.toNat then (marks, .valueRange block v :: problems)
      else if marks[v.toNat]? = some true then (marks, .definedTwice block v :: problems)
      else (marks.setIfInBounds v.toNat true, problems) := rfl

lemma size_noteDefinition (state : Array Bool × List Problem) (d : BlockId × ValueId) :
    (noteDefinition state d).1.size = state.1.size := by
  rw [noteDefinition_eq]
  split
  · rfl
  · split
    · rfl
    · exact Array.size_setIfInBounds

lemma isMarked_noteDefinition {w : Int} :
    isMarked (noteDefinition state d).1 w ↔
      isMarked state.1 w ∨ (w = d.2 ∧ HasMark state.1.size d.2) := by
  obtain ⟨marks, problems⟩ := state
  obtain ⟨block, v⟩ := d
  rw [noteDefinition_eq]
  unfold HasMark
  dsimp only
  split
  · constructor
    · exact .inl
    · rintro (h | ⟨-, h⟩)
      · exact h
      · omega
  · split
    · next hmark =>
      constructor
      · exact .inl
      · rintro (h | ⟨rfl, h⟩)
        · exact h
        · exact isMarked_iff.2 ⟨h.1, hmark⟩
    · rw [isMarked_iff, isMarked_iff, Array.getElem?_setIfInBounds]
      by_cases hw : w = v
      · subst hw
        have hin : w.toNat < marks.size := by omega
        simp only [↓reduceIte, if_pos hin, and_true, true_and]
        constructor
        · intro h0
          exact .inr ⟨h0, hin⟩
        · rintro (h | h)
          · exact h.1
          · exact h.1
      · simp only [hw, false_and, or_false]
        constructor
        · rintro ⟨h0, h⟩
          rw [if_neg (by omega)] at h
          exact ⟨h0, h⟩
        · rintro ⟨h0, h⟩
          rw [if_neg (by omega)]
          exact ⟨h0, h⟩

lemma noteDefinition_snd_eq_nil_iff :
    (noteDefinition state d).2 = [] ↔
      state.2 = [] ∧ HasMark state.1.size d.2 ∧ isMarked state.1 d.2 = false := by
  rw [← Bool.not_eq_true, isMarked_iff]
  rw [noteDefinition_eq]
  unfold HasMark
  split
  · constructor
    · intro h
      cases h
    · omega
  · split
    · next hmark =>
      constructor
      · intro h
        cases h
      · rintro ⟨-, h, hnot⟩
        exact absurd ⟨h.1, hmark⟩ hnot
    · next hmark =>
      constructor
      · intro h
        exact ⟨h, by omega, fun hset => hmark hset.2⟩
      · exact And.left

lemma foldl_noteDefinition (ds : List (BlockId × ValueId)) (state : Array Bool × List Problem) :
    let final := ds.foldl noteDefinition state
    (∀ w, isMarked final.1 w ↔
      isMarked state.1 w ∨ (w ∈ ds.map (·.2) ∧ HasMark state.1.size w)) ∧
    (final.2 = [] ↔ state.2 = [] ∧ (∀ v ∈ ds.map (·.2), HasMark state.1.size v) ∧
      (ds.map (·.2)).Nodup ∧ ∀ v ∈ ds.map (·.2), isMarked state.1 v = false) := by
  induction ds generalizing state with
  | nil => simp
  | cons d ds ih =>
    obtain ⟨hmarks, hproblems⟩ := ih (noteDefinition state d)
    rw [size_noteDefinition] at hmarks hproblems
    refine ⟨?_, ?_⟩
    · intro w
      rw [foldl_cons, hmarks, isMarked_noteDefinition, map_cons, mem_cons]
      constructor
      · rintro ((h | ⟨rfl, h⟩) | ⟨hw, h⟩)
        · exact .inl h
        · exact .inr ⟨.inl rfl, h⟩
        · exact .inr ⟨.inr hw, h⟩
      · rintro (h | ⟨rfl | hw, h⟩)
        · exact .inl (.inl h)
        · exact .inl (.inr ⟨rfl, h⟩)
        · exact .inr ⟨hw, h⟩
    · rw [foldl_cons, hproblems, noteDefinition_snd_eq_nil_iff, map_cons, nodup_cons]
      simp only [forall_mem_cons]
      constructor
      · rintro ⟨⟨hnil, hrange, hfree⟩, hranges, hnodup, hfrees⟩
        refine ⟨hnil, ⟨hrange, hranges⟩, ⟨?_, hnodup⟩, hfree, ?_⟩
        · intro hmem
          have hset : isMarked (noteDefinition state d).1 d.2 :=
            isMarked_noteDefinition.2 (.inr ⟨rfl, hrange⟩)
          rw [hfrees _ hmem] at hset
          exact Bool.false_ne_true hset
        · intro v hv
          rw [← Bool.not_eq_true]
          intro hset
          have hset' := isMarked_noteDefinition (d := d).2 (.inl hset)
          rw [hfrees _ hv] at hset'
          exact Bool.false_ne_true hset'
      · rintro ⟨hnil, ⟨hrange, hranges⟩, ⟨hnot, hnodup⟩, hfree, hfrees⟩
        refine ⟨⟨hnil, hrange, hfree⟩, hranges, hnodup, ?_⟩
        intro v hv
        rw [← Bool.not_eq_true, isMarked_noteDefinition]
        rintro (hset | ⟨rfl, -⟩)
        · rw [hfrees v hv] at hset
          exact Bool.false_ne_true hset
        · exact hnot hv

lemma isMarked_replicate (size : Nat) (v : ValueId) :
    isMarked (Array.replicate size false) v = false := by
  rw [← Bool.not_eq_true, isMarked_iff, Array.getElem?_replicate]
  rintro ⟨-, h⟩
  split at h <;> simp at h

lemma Func.marks_snd_eq_nil_iff (f : Func) :
    f.marks.2 = [] ↔ (∀ v ∈ f.defined, HasMark f.values.size v) ∧ f.defined.Nodup := by
  have h := (foldl_noteDefinition f.definitions (Array.replicate f.values.size false, [])).2
  simp only [f.map_definitions, Array.size_replicate, isMarked_replicate, implies_true,
    and_true, true_and] at h
  rw [marks]
  rw [reverse_eq_nil_iff]
  exact h

lemma Func.isMarked_marks_iff (f : Func) (hrange : ∀ v ∈ f.defined, HasMark f.values.size v)
    (v : ValueId) : isMarked f.marks.1 v ↔ v ∈ f.defined := by
  have h := (foldl_noteDefinition f.definitions (Array.replicate f.values.size false, [])).1 v
  simp only [f.map_definitions, Array.size_replicate, isMarked_replicate, Bool.false_eq_true,
    false_or] at h
  rw [marks]
  rw [h]
  constructor
  · exact And.left
  · intro hv
    exact ⟨hv, hrange v hv⟩

/-! ## Checked functions -/

def Terminator.Typed (f : Func) : Terminator → Prop
  | .condBr cond _ _ => f.typeOf cond = .int 1
  | .switch value _ _ _ => (f.typeOf value).isInt = true
  | .ret values => values.map f.typeOf = f.results
  | _ => True

/-- An edge leads to a block and passes values of the types of its parameters. -/
def Edge.Typed (f : Func) (e : Edge) : Prop :=
  ∃ target, f.block? e.target = some target ∧ e.args.map f.typeOf = target.params.map f.typeOf

structure Block.Checked (m : Module) (f : Func) (b : Block) : Prop where
  operands : ∀ op ∈ b.ops, ∀ v ∈ op.args, v ∈ f.defined
  ops : ∀ op ∈ b.ops, opProblem? m f op = none
  closed : b.term.isClosed = true
  uses : ∀ v ∈ b.term.uses, v ∈ f.defined
  edges : ∀ e ∈ b.term.edges, e.Typed f
  term : b.term.Typed f

structure Func.Checked (m : Module) (f : Func) : Prop where
  entry : ∃ b, f.block? f.entry = some b ∧ b.params.map f.typeOf = f.params
  range : ∀ v ∈ f.defined, HasMark f.values.size v
  nodup : f.defined.Nodup
  place : ∀ (i : Nat) (b : Block), f.blocks[i]? = some b → b.id = i
  block : ∀ b ∈ f.blocks, b.Checked m f

lemma Func.Checked.blockAt {i : Nat} (h : f.Checked m) (hb : f.blocks[i]? = some b) :
    b.Checked m f :=
  h.block b (Array.mem_of_getElem? hb)

lemma entryProblems_eq_nil_iff {entry : Block} :
    entryProblems f entry = [] ↔ entry.params.map f.typeOf = f.params := by
  rw [entryProblems, append_eq_nil_iff, map_eq_nil_iff]
  constructor
  · rintro ⟨hcount, htype⟩
    have hlen : entry.params.length = f.params.length := by
      split at hcount
      · cases hcount
      · next h => exact Decidable.not_not.1 h
    exact (typeMismatches_eq_nil_iff (by simpa using hlen)).1 htype
  · intro h
    have hlen : entry.params.length = f.params.length := by
      rw [← h, length_map]
    refine ⟨if_neg (not_not_intro hlen), ?_⟩
    exact (typeMismatches_eq_nil_iff (by simpa using hlen)).2 h

lemma typeProblems_eq_nil_iff {vs : List ValueId} {want : List Ty} {count : Nat}
    (hcount : want.length = count) {problem : Problem} {ofMismatch : Nat × Ty × Ty → Problem} :
    (if vs.length ≠ count then [problem]
      else (typeMismatches (vs.map f.typeOf) want).map ofMismatch) = [] ↔
      vs.map f.typeOf = want := by
  subst hcount
  split
  · next hlen =>
    refine iff_of_false (cons_ne_nil _ _) fun h => hlen ?_
    rw [← h, length_map]
  · next hlen => rw [map_eq_nil_iff, typeMismatches_eq_nil_iff (by simpa using hlen)]

lemma edgeProblems_eq_nil_iff {e : Edge} : edgeProblems f block e = [] ↔ e.Typed f := by
  unfold edgeProblems Edge.Typed
  cases htarget : f.block? e.target with
  | none => simp
  | some target =>
    simpa only [Option.some.injEq, exists_eq_left'] using typeProblems_eq_nil_iff (length_map _)

lemma termProblems_eq_nil_iff {t : Terminator} : termProblems f block t = [] ↔ t.Typed f := by
  cases t with
  | none | br edge | condBr cond yes no | switch value cases default listed =>
    simp [termProblems, Terminator.Typed]
  | trap code message => simp [termProblems, Terminator.Typed]
  | ret values => exact typeProblems_eq_nil_iff rfl

lemma opProblems_eq_nil_iff :
    opProblems m f marks block op = [] ↔
      (∀ v ∈ op.args, isMarked marks v) ∧ opProblem? m f op = none := by
  rw [opProblems, append_eq_nil_iff, map_eq_nil_iff, map_eq_nil_iff,
    filter_eq_nil_iff, Option.toList_eq_nil_iff]
  simp

lemma blockProblems_eq_nil_iff {index : Nat} (hrange : ∀ v ∈ f.defined, HasMark f.values.size v) :
    blockProblems m f f.marks.1 b index = [] ↔ b.id = index ∧ b.Checked m f := by
  unfold blockProblems
  rw [append_eq_nil_iff, append_eq_nil_iff, flatMap_eq_nil_iff]
  simp only [opProblems_eq_nil_iff, f.isMarked_marks_iff hrange]
  by_cases hclosed : b.term.isClosed
  · rw [if_pos hclosed]
    simp only [append_eq_nil_iff, map_eq_nil_iff, filter_eq_nil_iff,
      flatMap_eq_nil_iff, edgeProblems_eq_nil_iff, termProblems_eq_nil_iff,
      Bool.not_eq_true', Bool.not_eq_false, f.isMarked_marks_iff hrange]
    constructor
    · rintro ⟨⟨hplace, hops⟩, ⟨huses, hedges⟩, htyped⟩
      exact ⟨by simpa using hplace, fun op hop => (hops op hop).1, fun op hop => (hops op hop).2,
        hclosed, huses, hedges, htyped⟩
    · rintro ⟨hplace, h⟩
      exact ⟨⟨by simpa using hplace, fun op hop => ⟨h.operands op hop, h.ops op hop⟩⟩,
        ⟨h.uses, h.edges⟩, h.term⟩
  · rw [if_neg hclosed]
    exact ⟨fun h => (nomatch h.2), fun h => absurd h.2.closed hclosed⟩

lemma funcProblems_eq_nil_iff : funcProblems m f = [] ↔ f.Checked m := by
  unfold funcProblems
  cases hentry : f.block? f.entry with
  | none =>
    constructor
    · intro h
      cases h
    · rintro ⟨⟨b, hb, -⟩, -⟩
      rw [hentry] at hb
      exact absurd hb.symm (by simp)
  | some entry =>
    rw [append_eq_nil_iff, append_eq_nil_iff, flatMap_eq_nil_iff,
      entryProblems_eq_nil_iff, f.marks_snd_eq_nil_iff]
    constructor
    · rintro ⟨⟨hparams, hrange, hnodup⟩, hblocks⟩
      have hblock : ∀ (i : Nat) (b : Block), f.blocks[i]? = some b → b.id = i ∧ b.Checked m f := by
        intro i b hb
        refine (blockProblems_eq_nil_iff hrange).1 (hblocks (b, i) ?_)
        rw [mem_zipIdx_iff_getElem?, Array.getElem?_toList]
        exact hb
      refine ⟨⟨entry, hentry, hparams⟩, hrange, hnodup, fun i b hb => (hblock i b hb).1, ?_⟩
      intro b hb
      obtain ⟨i, hi⟩ := Array.mem_iff_getElem?.1 hb
      exact (hblock i b hi).2
    · intro h
      refine ⟨⟨?_, h.range, h.nodup⟩, ?_⟩
      · obtain ⟨b, hb, hparams⟩ := h.entry
        rw [hentry, Option.some.injEq] at hb
        rw [hb]
        exact hparams
      · rintro ⟨b, i⟩ hmem
        rw [mem_zipIdx_iff_getElem?, Array.getElem?_toList] at hmem
        exact (blockProblems_eq_nil_iff h.range).2 ⟨h.place i b hmem, h.blockAt hmem⟩

lemma Module.isVerified_iff : m.isVerified ↔ ∀ f ∈ m.funcs, f.Checked m := by
  rw [isVerified, problems]
  simp [← funcProblems_eq_nil_iff]

lemma Module.verify_eq_ok_iff : m.verify = .ok () ↔ ∀ f ∈ m.funcs, f.Checked m := by
  rw [← isVerified_iff, verify]
  split
  · next h => simp [h]
  · next h => simp [h]

end Sierra.Ir
