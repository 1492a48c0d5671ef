import Mathlib.Algebra.GroupWithZero.Nat
import Sierra.Ir.DeadCode
import Sierra.Proofs.Machine.Refine

/-!
# Dead code

The counts of readers are exact at every moment (`Counts`), so in the end what is gone is `Dead` and
nothing else is (`exists_prune_eq`). A dead operation that hands out no memory leaves the world as
it was, so the pruned function does the same work.
-/

namespace Sierra.Ir

open List Func

variable {counts : Array Nat} {b b' : Block} {v : Int} {blocks blocks' : List Block}
  {kept ops : List Op} {vs vs' : List ValueId} {n : Nat} {op : Op} {P Q : Op → Prop}

namespace DeadCode

/-! ## Counts of readers -/

structure Counts (n : Nat) (counts : Array Nat) (vs : List ValueId) : Prop where
  size : counts.size = n
  count : ∀ v : Nat, v < n → counts[v]? = some (vs.count (v : Int))

section

variable (h : Counts n counts vs)
include h

lemma Counts.perm (hperm : vs.Perm vs') : Counts n counts vs' := by
  refine ⟨h.size, fun v hv => ?_⟩
  rw [h.count v hv, hperm.count_eq]

lemma Counts.readers? (hv : HasMark n v) : readers? counts v = some (vs.count v) := by
  have hcount := h.count v.toNat hv.2
  rw [Int.toNat_of_nonneg hv.1] at hcount
  have hnonneg : ¬ v < 0 := Int.not_lt.2 hv.1
  have hdef : DeadCode.readers? counts v = if v < 0 then none else counts[v.toNat]? := rfl
  rw [hdef, if_neg hnonneg, hcount]

lemma Counts.unread? {results : List ValueId} (hres : ∀ v ∈ results, HasMark n v) :
    ∃ answer, unread? counts results = some answer ∧
      (answer ↔ ∀ v ∈ results, v ∉ vs) := by
  induction results with
  | nil => exact ⟨true, rfl, by simp⟩
  | cons v results ih =>
    obtain ⟨answer, hanswer, hunread⟩ := ih fun u hu => hres u (mem_cons_of_mem _ hu)
    rw [DeadCode.unread?, h.readers? (hres v mem_cons_self)]
    simp only [Option.bind_eq_bind, Option.bind_some, forall_mem_cons]
    by_cases hpos : 0 < vs.count v
    · exact ⟨false, by rw [if_pos hpos]; rfl, by simp [count_pos_iff.1 hpos]⟩
    · refine ⟨answer, by rw [if_neg hpos]; exact hanswer, hunread.trans (and_iff_right ?_).symm⟩
      exact fun hmem => hpos (count_pos_iff.2 hmem)

lemma Counts.modify (hv : HasMark n v) (vs' : List ValueId) (change : Nat → Nat)
    (hvs : ∀ u, vs'.count u = if u = v then change (vs.count u) else vs.count u) :
    ∃ counts', (if v < 0 ∨ counts.size ≤ v.toNat then none
      else some (counts.modify v.toNat change)) = some counts' ∧ Counts n counts' vs' := by
  obtain ⟨i, rfl⟩ := Int.eq_ofNat_of_zero_le hv.1
  have hi : i < n := hv.2
  refine ⟨_, if_neg (by rw [h.size]; omega), by rw [Array.size_modify, h.size], fun u hu => ?_⟩
  rw [Array.getElem?_modify, h.count u hu, hvs, Int.toNat_natCast]
  by_cases hsame : i = u
  · rw [hsame, if_pos rfl, if_pos rfl, Option.map_some]
  · rw [if_neg hsame, if_neg fun heq => hsame (Int.ofNat_inj.1 heq.symm)]

lemma Counts.addReaders {more : List ValueId} (hmore : ∀ v ∈ more, HasMark n v) :
    ∃ counts', more.foldlM addReader? counts = some counts' ∧ Counts n counts' (more ++ vs) := by
  induction more generalizing counts vs with
  | nil => exact ⟨counts, rfl, h⟩
  | cons v more ih =>
    obtain ⟨next, hadd, hnext⟩ := h.modify (hmore v mem_cons_self) (v :: vs) (· + 1)
      fun u => by grind
    obtain ⟨counts', hfold, hcounts'⟩ := ih hnext fun u hu => hmore u (mem_cons_of_mem _ hu)
    refine ⟨counts', ?_, hcounts'.perm perm_middle⟩
    rw [foldlM_cons, show addReader? counts v = some next from hadd]
    exact hfold

end

lemma Counts.dropReaders {gone : List ValueId}
    (h : Counts n counts (gone ++ vs)) (hgone : ∀ v ∈ gone, HasMark n v) :
    ∃ counts', gone.foldlM dropReader? counts = some counts' ∧ Counts n counts' vs := by
  induction gone generalizing counts with
  | nil => exact ⟨counts, rfl, h⟩
  | cons v gone ih =>
    obtain ⟨next, hdrop, hnext⟩ := h.modify (hgone v mem_cons_self) (gone ++ vs) (· - 1)
      fun u => by grind
    obtain ⟨counts', hfold, hcounts'⟩ := ih hnext fun u hu => hgone u (mem_cons_of_mem _ hu)
    refine ⟨counts', ?_, hcounts'⟩
    rw [foldlM_cons, show dropReader? counts v = some next from hdrop]
    exact hfold

/-! ## Operations that go -/

inductive Thinned (P : Op → Prop) : List Op → List Op → Prop
  | nil : Thinned P [] []
  | keep {op : Op} {ops kept : List Op} (h : Thinned P ops kept) :
      Thinned P (op :: ops) (op :: kept)
  | drop {op : Op} {ops kept : List Op} (hop : P op) (h : Thinned P ops kept) :
      Thinned P (op :: ops) kept

lemma Thinned.mono (hPQ : ∀ op, P op → Q op) (h : Thinned P ops kept) : Thinned Q ops kept := by
  induction h with
  | nil => exact .nil
  | keep _ ih => exact .keep ih
  | drop hop _ ih => exact .drop (hPQ _ hop) ih

lemma Thinned.trans {kept' : List Op} (h : Thinned P ops kept)
    (h' : Thinned P kept kept') : Thinned P ops kept' := by
  induction h generalizing kept' with
  | nil => exact h'
  | keep _ ih =>
    cases h' with
    | keep h' => exact .keep (ih h')
    | drop hop h' => exact .drop hop (ih h')
  | drop hop _ ih => exact .drop hop (ih h')

lemma Thinned.sublist (h : Thinned P ops kept) : kept.Sublist ops := by
  induction h with
  | nil => exact .slnil
  | keep _ ih => exact ih.cons_cons _
  | drop _ _ ih => exact ih.cons _

/-- Without side effects, and no result is among the values. -/
def Dead (vs : List ValueId) (op : Op) : Prop :=
  op.code.hasSideEffects = false ∧ ∀ v ∈ op.results, v ∉ vs

lemma Dead.mono (hsub : vs' ⊆ vs) (h : Dead vs op) : Dead vs' op :=
  ⟨h.1, fun v hv hmem => h.2 v hv (hsub hmem)⟩

lemma dead_congr (hperm : vs.Perm vs') : Dead vs = Dead vs' := by
  funext op
  exact propext ⟨.mono hperm.symm.subset, .mono hperm.subset⟩

lemma Counts.removable? (h : Counts n counts vs) (hres : ∀ v ∈ op.results, HasMark n v) :
    ∃ answer, removable? counts op = some answer ∧ (answer ↔ Dead vs op) := by
  unfold DeadCode.removable? Dead
  split
  · next heffects => exact ⟨false, rfl, by simp [heffects]⟩
  · next heffects =>
    obtain ⟨answer, hanswer, hunread⟩ := h.unread? hres
    exact ⟨answer, hanswer, hunread.trans (and_iff_right (by simpa using heffects)).symm⟩

structure InRange (n : Nat) (op : Op) : Prop where
  args : ∀ v ∈ op.args, HasMark n v
  results : ∀ v ∈ op.results, HasMark n v

lemma sweepOps_spec
    (h : Counts n counts (ops.flatMap (·.args) ++ vs)) (hrange : ∀ op ∈ ops, InRange n op) :
    ∃ s, sweepOps counts ops = s ∧ s.isDone ∧
      Counts n s.counts (s.kept.flatMap (·.args) ++ vs) ∧
      Thinned (Dead (s.kept.flatMap (·.args) ++ vs)) ops s.kept ∧
      s.removed + s.kept.length = ops.length ∧
      (s.removed = 0 ↔ ∀ op ∈ ops, ¬ Dead (ops.flatMap (·.args) ++ vs) op) := by
  induction ops generalizing counts vs with
  | nil => exact ⟨_, rfl, rfl, h, .nil, rfl, by simp [sweepOps]⟩
  | cons op rest ih =>
    have hop := hrange op mem_cons_self
    have hrest : ∀ op ∈ rest, InRange n op := fun op h => hrange op (mem_cons_of_mem _ h)
    rw [flatMap_cons, append_assoc] at h ⊢
    obtain ⟨answer, hanswer, hdead⟩ := h.removable? hop.results
    rw [sweepOps, hanswer, forall_mem_cons]
    cases answer with
    | false =>
      -- What the operation reads counts with the values read elsewhere.
      have hperm : ∀ us : List ValueId, (op.args ++ (us ++ vs)).Perm (us ++ (op.args ++ vs)) :=
        fun us => by
          rw [← append_assoc, ← append_assoc]
          exact perm_append_comm.append_right vs
      obtain ⟨s, rfl, hdone, hcounts, hthin, hlen, hnone⟩ := ih (h.perm (hperm _)) hrest
      refine ⟨_, rfl, hdone, ?_, .keep (hthin.mono fun op' hop' => ?_),
        congrArg (· + 1) hlen, hnone.trans ?_⟩ <;> try rw [flatMap_cons, append_assoc]
      · exact hcounts.perm (hperm _).symm
      · exact hop'.mono (hperm _).subset
      · rw [← hdead, dead_congr (hperm _)]
        simp
    | true =>
      obtain ⟨counts', hdrop, hcounts'⟩ := h.dropReaders hop.args
      rw [hdrop]
      obtain ⟨s, rfl, hdone, hcounts, hthin, hlen, -⟩ := ih hcounts' hrest
      refine ⟨_, rfl, hdone, hcounts, .drop ((hdead.1 rfl).mono fun v hv => ?_) hthin, ?_, ?_⟩
      · rw [mem_append] at hv ⊢
        refine .inr (mem_append.2 (hv.imp (fun hv => ?_) id))
        exact (hthin.sublist.flatMap _).subset hv
      · exact (Nat.succ_add _ _).trans (congrArg (· + 1) hlen)
      · simp [hdead.1 rfl]

structure Thin (P : Op → Prop) (b b' : Block) : Prop where
  id : b'.id = b.id
  params : b'.params = b.params
  term : b'.term = b.term
  ops : Thinned P b.ops b'.ops

lemma Thin.mono (hPQ : ∀ op, P op → Q op) (h : Thin P b b') : Thin Q b b' :=
  ⟨h.id, h.params, h.term, h.ops.mono hPQ⟩

lemma Thin.trans {b'' : Block} (h : Thin P b b') (h' : Thin P b' b'') : Thin P b b'' :=
  ⟨h'.id.trans h.id, h'.params.trans h.params, h'.term.trans h.term, h.ops.trans h'.ops⟩

lemma Thin.reads_subset (h : Thin P b b') : reads b' ⊆ reads b := by
  intro v hv
  rw [reads, mem_append, h.term] at hv
  rw [reads, mem_append]
  exact hv.imp (fun hv => (h.ops.sublist.flatMap _).subset hv) fun hv => hv

lemma reads_subset_of_forall₂
    (h : Forall₂ (Thin P) blocks blocks') : blocks'.flatMap reads ⊆ blocks.flatMap reads := by
  induction h with
  | nil => exact fun v hv => hv
  | cons hthin _ ih =>
    intro v hv
    rw [flatMap_cons, mem_append] at hv ⊢
    exact hv.imp (fun hv => hthin.reads_subset hv) (fun hv => ih hv)

lemma forall₂_thin_trans {blocks'' : List Block} (h : Forall₂ (Thin P) blocks blocks')
    (h' : Forall₂ (Thin P) blocks' blocks'') : Forall₂ (Thin P) blocks blocks'' := by
  induction h generalizing blocks'' with
  | nil => exact h'
  | cons hthin _ ih =>
    cases h' with
    | cons hthin' h' => exact .cons (hthin.trans hthin') (ih h')

lemma sweepBlocks_spec (h : Counts n counts (blocks.flatMap reads ++ vs))
    (hrange : ∀ b ∈ blocks, ∀ op ∈ b.ops, InRange n op) :
    ∃ s, sweepBlocks counts blocks = s ∧ s.isDone ∧
      Counts n s.counts (s.kept.flatMap reads ++ vs) ∧
      Forall₂ (Thin (Dead (s.kept.flatMap reads ++ vs))) blocks s.kept ∧
      s.removed + (s.kept.flatMap (·.ops)).length = (blocks.flatMap (·.ops)).length ∧
      (s.removed = 0 → s.kept = blocks) ∧
      (s.removed = 0 ↔ ∀ op ∈ blocks.flatMap (·.ops), ¬ Dead (blocks.flatMap reads ++ vs) op) := by
  induction blocks generalizing counts vs with
  | nil => exact ⟨_, rfl, rfl, h, .nil, rfl, fun _ => rfl, by simp [sweepBlocks]⟩
  | cons b rest ih =>
    rw [flatMap_cons, reads, append_assoc, append_assoc] at h
    obtain ⟨s, hs, hdone, hcounts, hthin, hlen, hnone⟩ :=
      sweepOps_spec h (hrange b mem_cons_self)
    -- What is left of the block counts with the values read elsewhere.
    have hperm : ∀ us : List ValueId, (s.kept.flatMap (·.args) ++ (b.term.uses ++ (us ++ vs))).Perm
        (us ++ ((s.kept.flatMap (·.args) ++ b.term.uses) ++ vs)) := by
      intro us
      rw [← append_assoc, ← append_assoc us]
      refine List.Perm.trans ?_ (perm_append_comm.append_right vs)
      rw [append_assoc, append_assoc, append_assoc]
    obtain ⟨t, ht, hdone', hcounts', hthin', hlen', hsame', hnone'⟩ :=
      ih (hcounts.perm (hperm _)) fun b' hb' => hrange b' (mem_cons_of_mem _ hb')
    have hsame : s.removed = 0 → s.kept = b.ops := fun hzero =>
      hthin.sublist.eq_of_length (by omega)
    rw [sweepBlocks, hs, if_pos hdone, ht]
    have hreads : ({ b with ops := s.kept } :: t.kept).flatMap reads ++ vs =
        s.kept.flatMap (·.args) ++ (b.term.uses ++ (t.kept.flatMap reads ++ vs)) := by
      rw [flatMap_cons, reads, append_assoc, append_assoc]
    refine ⟨_, rfl, hdone', ?_⟩
    rw [hreads]
    refine ⟨hcounts'.perm (hperm _).symm, .cons ⟨rfl, rfl, rfl, ?_⟩ ?_, ?_, fun hzero => ?_, ?_⟩
    · refine hthin.mono fun op hop => hop.mono fun v hv => ?_
      have hsub := reads_subset_of_forall₂ hthin'
      simp only [mem_append] at hv ⊢
      exact hv.imp id (Or.imp id (Or.imp (fun hv => hsub hv) id))
    · refine hthin'.imp fun b b' hb => hb.mono fun op hop => hop.mono ?_
      exact (hperm _).subset
    · simp only [flatMap_cons, length_append]
      omega
    · obtain ⟨hs, ht⟩ := Nat.add_eq_zero_iff.1 hzero
      simp only [hsame hs, hsame' ht]
    · rw [Nat.add_eq_zero_iff, flatMap_cons, forall_mem_append, flatMap_cons, reads, append_assoc,
        append_assoc, ← hnone]
      refine and_congr_right fun hzero => ?_
      rw [hnone', ← dead_congr (hperm _), hsame hzero]

lemma sweeps_spec {fuel : Nat} (h : Counts n counts (blocks.flatMap reads))
    (hrange : ∀ b ∈ blocks, ∀ op ∈ b.ops, InRange n op)
    (hfuel : (blocks.flatMap (·.ops)).length < fuel) :
    ∃ s, sweeps fuel counts blocks = s ∧ s.isDone ∧
      Forall₂ (Thin (Dead (s.kept.flatMap reads))) blocks s.kept ∧
      s.removed + (s.kept.flatMap (·.ops)).length = (blocks.flatMap (·.ops)).length ∧
      (∀ op ∈ s.kept.flatMap (·.ops), ¬ Dead (s.kept.flatMap reads) op) ∧
      ((∀ op ∈ blocks.flatMap (·.ops), ¬ Dead (blocks.flatMap reads) op) →
        s.removed = 0 ∧ s.kept = blocks) := by
  induction fuel generalizing counts blocks with
  | zero => omega
  | succ fuel ih =>
    obtain ⟨s, hs, hdone, hcounts, hthin, hlen, hsame, hnone⟩ :=
      @sweepBlocks_spec counts blocks [] n (by rwa [append_nil]) hrange
    rw [append_nil] at hcounts hthin hnone
    rw [sweeps, hs]
    by_cases hzero : s.removed = 0
    · refine ⟨s, if_pos (.inl hzero), hdone, hthin, hlen, ?_, fun _ => ⟨hzero, hsame hzero⟩⟩
      rw [hsame hzero]
      exact hnone.1 hzero
    have hrange' : ∀ b ∈ s.kept, ∀ op ∈ b.ops, InRange n op := by
      intro b' hb' op hop
      obtain ⟨b, hb, hthin⟩ := (forall₂_mem hthin).2 b' hb'
      exact hrange b hb op (hthin.ops.sublist.subset hop)
    obtain ⟨t, ht, hdone', hthin', hlen', hnone', -⟩ := ih hcounts hrange' (by omega)
    rw [if_neg (by simp [hzero, hdone]), ht]
    refine ⟨_, rfl, hdone', ?_, ?_, hnone', fun h => absurd (hnone.2 h) hzero⟩
    · refine forall₂_thin_trans (hthin.imp fun b b' hb => hb.mono fun op hop => ?_) hthin'
      exact hop.mono (reads_subset_of_forall₂ hthin')
    · dsimp only
      omega

end DeadCode

open DeadCode

variable {m : Module} {f : Func}

lemma mem_defined_of_reads (hf : f.Checked m) {v : ValueId}
    (hv : v ∈ f.blocks.toList.flatMap reads) : v ∈ f.defined := by
  obtain ⟨b, hb, hv⟩ := mem_flatMap.1 hv
  have hcheck := hf.block b (Array.mem_toList_iff.1 hb)
  rcases mem_append.1 hv with hv | hv
  · obtain ⟨op, hop, hv⟩ := mem_flatMap.1 hv
    exact hcheck.operands op hop v hv
  · exact hcheck.uses v hv

lemma opCount_eq_length (f : Func) :
    f.opCount = (f.blocks.toList.flatMap (·.ops)).length := by
  rw [opCount, length_flatMap, sum_eq_foldl, foldl_map]

lemma exists_prune_eq (hf : f.Checked m) :
    ∃ blocks n, f.prune = .done (f.withBlocks blocks) n ∧
      Forall₂ (Thin (Dead (blocks.flatMap reads))) f.blocks.toList blocks ∧
      n + (blocks.flatMap (·.ops)).length = (f.blocks.toList.flatMap (·.ops)).length ∧
      (∀ op ∈ blocks.flatMap (·.ops), ¬ Dead (blocks.flatMap reads) op) ∧
      ((∀ op ∈ f.blocks.toList.flatMap (·.ops), ¬ Dead (f.blocks.toList.flatMap reads) op) →
        n = 0 ∧ blocks = f.blocks.toList) := by
  have hdef : ∀ {b : Block} {v : ValueId}, b ∈ f.blocks.toList → v ∈ b.defs → v ∈ f.defined :=
    fun hb hv => mem_flatMap.2 ⟨_, hb, hv⟩
  have hrange : ∀ b ∈ f.blocks.toList, ∀ op ∈ b.ops, InRange f.values.size op := by
    intro b hb op hop
    refine ⟨fun v hv => ?_, fun v hv => ?_⟩
    · exact hf.range v ((hf.block b (Array.mem_toList_iff.1 hb)).operands op hop v hv)
    · exact hf.range v (hdef hb (mem_append_right _ (mem_flatMap.2 ⟨op, hop, hv⟩)))
  have hstart : Counts f.values.size (Array.replicate f.values.size 0) [] :=
    ⟨Array.size_replicate, fun v hv => by rw [Array.getElem?_replicate, if_pos hv, count_nil]⟩
  obtain ⟨counts, hfold, hcounts⟩ := hstart.addReaders fun v hv =>
    hf.range v (mem_defined_of_reads hf hv)
  rw [append_nil] at hcounts
  obtain ⟨s, hs, hdone, hrest⟩ := sweeps_spec hcounts hrange (Nat.lt_succ_self _)
  rw [← opCount_eq_length] at hs
  refine ⟨s.kept, s.removed, ?_, hrest⟩
  rw [prune, hfold]
  dsimp only
  rw [hs, if_pos hdone]

/-! ## The pruned function -/

lemma DeadCode.Thinned.mem_cases (h : Thinned P ops kept) (hop : op ∈ ops) : op ∈ kept ∨ P op := by
  induction h with
  | nil => exact .inl hop
  | keep _ ih =>
    rcases mem_cons.1 hop with rfl | hop
    · exact .inl mem_cons_self
    · exact (ih hop).imp (mem_cons_of_mem _) id
  | drop hP _ ih =>
    rcases mem_cons.1 hop with rfl | hop
    · exact .inr hP
    · exact ih hop

section

variable {blocks : List Block}

lemma mem_defined_of_read
    (h : Forall₂ (Thin (Dead (blocks.flatMap reads))) f.blocks.toList blocks) {v : ValueId}
    (hv : v ∈ f.defined) (hread : v ∈ blocks.flatMap reads) : v ∈ (f.withBlocks blocks).defined := by
  obtain ⟨d, b, hb, hv⟩ := f.mem_defined_iff.1 hv
  obtain ⟨b', hb', hthin⟩ := (withBlocks_getElem? h d).1 b hb
  refine (f.withBlocks blocks).mem_defined_iff.2 ⟨d, b', hb', ?_⟩
  rw [Block.defs, mem_append, mem_flatMap] at hv ⊢
  rcases hv with hv | ⟨op, hop, hv⟩
  · exact .inl (by rw [hthin.params]; exact hv)
  · rcases hthin.ops.mem_cases hop with hop | hdead
    · exact .inr ⟨op, hop, hv⟩
    · exact absurd hread (hdead.2 v hv)

lemma withBlocks_defined_sublist (h : Forall₂ (Thin P) f.blocks.toList blocks) :
    (f.withBlocks blocks).defined.Sublist f.defined := by
  show (blocks.flatMap Block.defs).Sublist (f.blocks.toList.flatMap Block.defs)
  generalize f.blocks.toList = given at h
  induction h with
  | nil => exact .slnil
  | cons hthin _ ih =>
    rw [flatMap_cons, Block.defs, hthin.params]
    exact ((List.Sublist.refl _).append (hthin.ops.sublist.flatMap _)).append ih

lemma checked_pruned (hf : f.Checked m)
    (h : Forall₂ (Thin (Dead (blocks.flatMap reads))) f.blocks.toList blocks) :
    (f.withBlocks blocks).Checked m := by
  have hsub := withBlocks_defined_sublist h
  refine ⟨?_, fun v hv => hf.range v (hsub.subset hv), hf.nodup.sublist hsub, ?_, ?_⟩
  · obtain ⟨b, hb, htype⟩ := hf.entry
    obtain ⟨b', hb', hthin⟩ := withBlocks_block? h hb
    exact ⟨b', hb', by rw [hthin.params]; exact htype⟩
  · intro i b' hb'
    obtain ⟨b, hb, hthin⟩ := (withBlocks_getElem? h i).2 b' hb'
    rw [hthin.id]
    exact hf.place i b hb
  · intro b' hmem
    obtain ⟨b, hb, hthin⟩ := withBlocks_mem h hmem
    have hcheck := hf.block b hb
    have hread : ∀ v ∈ reads b', v ∈ blocks.flatMap reads := fun v hv =>
      mem_flatMap.2 ⟨b', by simpa using hmem, hv⟩
    refine ⟨fun op hop v hv => ?_, fun op hop => ?_, ?_, fun v hv => ?_, fun e he => ?_, ?_⟩
    · refine mem_defined_of_read h
        (hcheck.operands op (hthin.ops.sublist.subset hop) v hv) (hread v ?_)
      exact mem_append_left _ (mem_flatMap.2 ⟨op, hop, hv⟩)
    · exact hcheck.ops op (hthin.ops.sublist.subset hop)
    · rw [hthin.term]
      exact hcheck.closed
    · have huse := hv
      rw [hthin.term] at huse
      exact mem_defined_of_read h (hcheck.uses v huse) (hread v (mem_append_right _ hv))
    · rw [hthin.term] at he
      obtain ⟨c, hc, htype⟩ := hcheck.edges e he
      obtain ⟨c', hc', hthin⟩ := withBlocks_block? h hc
      exact ⟨c', hc', by rw [hthin.params]; exact htype⟩
    · rw [hthin.term, ← Terminator.mapUses_id b.term]
      exact hcheck.term.mapUses (fun _ _ => rfl) rfl

end

/-! ## Operations that hand out memory -/

def Code.handsOut : Code → Bool
  | .alloc | .realloc => true
  | _ => false

def Block.allocations (b : Block) : Nat := b.ops.countP (·.code.handsOut)

def Func.allocations (f : Func) : Nat := (f.blocks.toList.map Block.allocations).sum

lemma DeadCode.Thinned.of_countP {q : Op → Bool} (h : Thinned P ops kept)
    (hcount : kept.countP q = ops.countP q) : Thinned (fun op => P op ∧ q op = false) ops kept := by
  have hle : ∀ {ops kept : List Op}, Thinned P ops kept → kept.countP q ≤ ops.countP q :=
    fun h => h.sublist.countP_le
  induction h with
  | nil => exact .nil
  | keep _ ih =>
    rw [countP_cons, countP_cons] at hcount
    exact .keep (ih (by omega))
  | drop hP h ih =>
    have := hle h
    rw [countP_cons] at hcount
    split at hcount
    · omega
    · next hq => exact .drop ⟨hP, by simpa using hq⟩ (ih hcount)

lemma thin_of_allocations (h : Forall₂ (Thin P) blocks blocks')
    (hsum : (blocks'.map Block.allocations).sum = (blocks.map Block.allocations).sum) :
    Forall₂ (Thin fun op => P op ∧ op.code.handsOut = false) blocks blocks' := by
  have hblock : ∀ {b b' : Block}, Thin P b b' → b'.allocations ≤ b.allocations :=
    fun h => h.ops.sublist.countP_le
  have hle : ∀ {blocks blocks' : List Block}, Forall₂ (Thin P) blocks blocks' →
      (blocks'.map Block.allocations).sum ≤ (blocks.map Block.allocations).sum := by
    intro blocks blocks' h
    induction h with
    | nil => exact Nat.le_refl _
    | cons hthin _ ih =>
      have := hblock hthin
      simp only [map_cons, sum_cons]
      omega
  induction h with
  | nil => exact .nil
  | cons hthin h ih =>
    have h₁ := hblock hthin
    have h₂ := hle h
    simp only [map_cons, sum_cons] at hsum
    have heq : Block.allocations _ = Block.allocations _ := Nat.le_antisymm h₁ (by omega)
    exact .cons ⟨hthin.id, hthin.params, hthin.term, hthin.ops.of_countP heq⟩ (ih (by omega))

end Sierra.Ir

namespace Sierra.Machine

open Ir DeadCode List

variable {σ : Type} {m : Module} {f : Func} {blocks : List Block} {regs' : Array Image}
  {images : List Image} {vs : List ValueId} {rest : List Op} {P : Op → Prop}
variable {regs : Array Image} {env : Env σ} {op : Op}

/-! ## The pruned function does the same work -/

/-- The operation is dead and hands out no memory. -/
def Idle (vs : List ValueId) (op : Op) : Prop := Dead vs op ∧ op.code.handsOut = false

lemma world_eq_of_idle (h : Idle vs op) (hvalid : op.code ≠ .invalid) {world world' : World σ}
    (hexec : execOp env m f regs op world = .ok regs' world') :
    world' = world ∧ ∃ images, assign? regs (written op) images = some regs' := by
  obtain ⟨⟨heffects, -⟩, hmemory⟩ := h
  have hcall : op.code ≠ .call := by
    intro hcode
    rw [hcode] at heffects
    cases heffects
  rw [execOp_eq_written hcall] at hexec
  obtain ⟨images, himages, hset⟩ := writeImages_eq_ok_iff.1 hexec
  refine ⟨?_, images, hset⟩
  by_cases hpure : isPure op.code
  · exact ((opImages_pure_eq_ok_iff hpure).1 himages).1
  -- The one idle operation that is not a function of its operands reads memory.
  have hload : op.code = .load := by
    cases hcode : op.code <;> simp_all [isPure, Code.hasSideEffects, Code.handsOut]
  unfold opImages at himages
  simp only [hload, heapImages, Heap.read] at himages
  cases hfault : world.heap.accessFault? "read" (argReg regs op 0).word64
      (Heap.address op.type.storeSize) with
  | some fault => simp [hfault] at himages
  | none =>
    simp only [hfault] at himages
    injection himages with _ h
    exact h.symm

/-- The same place without what is gone, and registers that agree on what is read. -/
structure PruneRel (gone : Op → Prop) (f : Func) (blocks : List Block) (fr fr' : Frame)
    (before : List Nat) (i : Nat) (b b' : Block) (k : Nat) : Prop where
  place : At f before i b k fr
  block : (f.withBlocks blocks).blocks[i]? = some b'
  thin : Thin gone b b'
  func : fr'.func = f.withBlocks blocks
  depth : fr'.depth = fr.depth
  ops : Thinned gone (b.ops.drop k) fr'.ops
  left : fr'.ops ⊆ b'.ops
  term : fr'.term = b.term
  size : fr'.regs.size = fr.regs.size
  regs : ∀ v ∈ blocks.flatMap reads, reg fr'.regs v = reg fr.regs v

section

variable {gone : Op → Prop} {fr fr' : Frame} {before : List Nat} {i k : Nat} {b b' : Block}

section

variable (h : PruneRel gone f blocks fr fr' before i b b' k)

include h

lemma PruneRel.mem_block : b' ∈ blocks := by
  have hmem := Array.mem_of_getElem? h.block
  simpa using hmem

lemma PruneRel.map_reg {kept : List Op} (hleft : fr'.ops = op :: kept) :
    op.args.map (reg fr'.regs) = op.args.map (reg fr.regs) := by
  refine map_congr_left fun v hv => h.regs v (mem_flatMap.2 ⟨b', h.mem_block, ?_⟩)
  have hop : op ∈ fr'.ops := by simp [hleft]
  exact mem_append_left _ (mem_flatMap.2 ⟨op, h.left hop, hv⟩)

lemma PruneRel.reg_use {v : ValueId} (hv : v ∈ b.term.uses) : reg fr'.regs v = reg fr.regs v := by
  refine h.regs v (mem_flatMap.2 ⟨b', h.mem_block, mem_append_right _ ?_⟩)
  rw [h.thin.term]
  exact hv

lemma PruneRel.ops_eq_nil (hops : fr.ops = []) : fr'.ops = [] := by
  have hthinned := h.ops
  rw [h.place.eq_length hops, drop_length] at hthinned
  exact sublist_nil.1 hthinned.sublist

lemma PruneRel.kept_or_gone (hops : fr.ops = op :: rest) :
    (∃ kept, fr'.ops = op :: kept ∧ Thinned gone (b.ops.drop (k + 1)) kept) ∨
      gone op ∧ Thinned gone (b.ops.drop (k + 1)) fr'.ops := by
  have hthinned := h.ops
  rw [drop_eq_cons (h.place.getElem? hops).1] at hthinned
  generalize fr'.ops = left at hthinned ⊢
  cases hthinned with
  | @keep _ _ kept hthinned => exact .inl ⟨kept, rfl, hthinned⟩
  | drop hgone hthinned => exact .inr ⟨hgone, hthinned⟩

lemma PruneRel.nextOf_eq :
    nextOf (f.withBlocks blocks) fr'.regs fr'.term = nextOf f fr.regs fr.term := by
  rw [h.term, h.place.term]
  exact nextOf_congr_uses rfl fun v hv => h.reg_use hv

lemma PruneRel.keep {kept : List Op} (hops : fr.ops = op :: rest)
    (hthin : Thinned gone (b.ops.drop (k + 1)) kept) (hleft : fr'.ops = op :: kept)
    (hset : assign? fr.regs vs images = some regs)
    (hset' : assign? fr'.regs vs images = some regs') :
    PruneRel gone f blocks { fr with regs := regs, ops := rest }
      { fr' with regs := regs', ops := kept } before i b b' (k + 1) := by
  refine ⟨h.place.next hops (size_assign? hset), h.block, h.thin, h.func, h.depth, hthin,
    fun op' hop' => h.left (by rw [hleft]; exact mem_cons_of_mem _ hop'), h.term, ?_,
    fun v hv => ?_⟩
  · rw [size_assign? hset', size_assign? hset, h.size]
  · exact reg_assign?_congr h.size hset' hset (.inr (h.regs v hv))

end

lemma PruneRel.drop (hf : f.Checked m) (hread : ∀ v ∈ blocks.flatMap reads, v ∈ f.defined)
    (h : PruneRel gone f blocks fr fr' before i b b' k) (hops : fr.ops = op :: rest)
    (hdead : Dead (blocks.flatMap reads) op) (hthin : Thinned gone (b.ops.drop (k + 1)) fr'.ops)
    (hset : assign? fr.regs (written op) images = some regs) :
    PruneRel gone f blocks { fr with regs := regs, ops := rest } fr' before i b b' (k + 1) := by
  obtain ⟨hop, -⟩ := h.place.getElem? hops
  refine ⟨h.place.next hops (size_assign? hset), h.block, h.thin, h.func, h.depth, hthin, h.left,
    h.term, ?_, fun v hv => ?_⟩
  · rw [size_assign? hset, h.size]
  · have hnonneg : ∀ w ∈ written op, (0 : Int) ≤ w := fun w hw =>
      (h.place.range hf (Block.mem_defs_of_mem_results hop (written_subset op hw))).1
    rw [h.regs v hv]
    refine (reg_assign?_of_not_mem hset hnonneg (hf.range v (hread v hv)).1 fun hmem => ?_).symm
    exact hdead.2 v (written_subset op hmem) hv

lemma PruneRel.enter (hthin : List.Forall₂ (Thin gone) f.blocks.toList blocks) {args : List Image}
    {depth : Nat} (henter : enter env f args depth = .ok fr) :
    ∃ fr', Machine.enter env (f.withBlocks blocks) args depth = .ok fr' ∧
      ∃ before i b b' k, PruneRel gone f blocks fr fr' before i b b' k := by
  obtain ⟨hdepth, i, b, regs, rfl, hentry, hat, hset⟩ := at_of_enter henter
  obtain ⟨b', hb', hblock⟩ := (Func.withBlocks_getElem? hthin i).1 b hat.block
  refine ⟨_, enter_eq_ok_iff.2 ⟨hdepth, i, b', regs, hentry, hb', ?_, rfl⟩, [], i, b, b', 0, hat,
    hb', hblock, rfl, rfl, hblock.ops, fun op hop => hop, hblock.term, rfl, fun _ _ => rfl⟩
  rw [hblock.params]
  exact hset

lemma PruneRel.jump (hthin : List.Forall₂ (Thin gone) f.blocks.toList blocks)
    (h : PruneRel gone f blocks fr fr' before i b b' k) {edge : Edge}
    (hnext : nextOf f fr.regs fr.term = .jump edge) {next : Frame}
    (hjump : jump? fr edge = some next) :
    ∃ next', jump? fr' edge = some next' ∧
      ∃ before i b b' k, PruneRel gone f blocks next next' before i b b' k := by
  obtain ⟨j, c, regs, rfl, hedge, htarget, -, hat, hset⟩ := h.place.jump hnext hjump
  obtain ⟨c', hc', hblock⟩ := (Func.withBlocks_getElem? hthin j).1 c hat.block
  have hargs : edge.args.map (reg fr'.regs) = edge.args.map (reg fr.regs) :=
    map_congr_left fun v hv => h.reg_use (mem_uses_of_mem_edges hedge hv)
  obtain ⟨regs', hset'⟩ := exists_reassign? hset fr'.regs
  refine ⟨_, jump?_eq_some_iff.2 ⟨j, c', regs', htarget, by rw [h.func]; exact hc', ?_, rfl⟩,
    i :: before, j, c, c', 0, hat, hc', hblock, h.func, h.depth, hblock.ops, fun op hop => hop,
    hblock.term, ?_, fun v hv => ?_⟩
  · rw [hargs, hblock.params]
    exact hset'
  · rw [size_assign? hset', size_assign? hset, h.size]
  · exact reg_assign?_congr h.size hset' hset (.inr (h.regs v hv))

end

lemma refines_pruned (hf : f.Valid m) (hread : ∀ v ∈ blocks.flatMap reads, v ∈ f.defined)
    (hthin : List.Forall₂ (Thin (Idle (blocks.flatMap reads))) f.blocks.toList blocks)
    (hfault : funcFault? f = none) : Refines env m f (f.withBlocks blocks) := by
  rw [funcFault?_eq_none_iff] at hfault
  refine ⟨fun fr fr' => ∃ before i b b' k,
    PruneRel (Idle (blocks.flatMap reads)) f blocks fr fr' before i b b' k, ?_⟩
  constructor
  case func =>
    rintro fr fr' ⟨before, i, b, b', k, h⟩
    exact ⟨h.place.func, h.func, h.depth.symm⟩
  case enter => exact fun henter => PruneRel.enter hthin henter
  case done =>
    rintro fr fr' values ⟨before, i, b, b', k, h⟩ hops hdone
    exact ⟨h.ops_eq_nil hops, h.nextOf_eq.trans hdone⟩
  case jump =>
    rintro fr fr' next edge ⟨before, i, b, b', k, h⟩ hops hnext hjump
    obtain ⟨next', hjump', hrel⟩ := h.jump hthin hnext hjump
    exact .inr ⟨h.ops_eq_nil hops, edge, next', h.nextOf_eq.trans hnext, hjump', hrel⟩
  case op =>
    rintro fr fr' op rest regs world world' ⟨before, i, b, b', k, h⟩ hops hcode hexec
    obtain ⟨hop, -⟩ := h.place.getElem? hops
    have hmem := mem_of_getElem? hop
    have hblock := Array.mem_of_getElem? h.place.block
    have hbuilt := hf.built b hblock op hmem
    rcases h.kept_or_gone hops with ⟨kept, hleft, hthinned⟩ | ⟨hidle, hthinned⟩
    · have hname : (f.withBlocks blocks).name = f.name := rfl
      obtain ⟨images, regs', hset, hset', hexec'⟩ :=
        execOp_rename hbuilt (hfault b hblock op hmem) hcode rfl (h.map_reg hleft) rfl hname rfl
          hexec
      exact .inr ⟨op, kept, regs', hleft, hcode, hexec', before, i, b, b', k + 1,
        h.keep hops hthinned hleft hset hset'⟩
    · have hvalid := (opFault?_eq_none_iff.1 (hfault b hblock op hmem)).1
      obtain ⟨hworld, images, hset⟩ := world_eq_of_idle hidle hvalid hexec
      exact .inl ⟨hworld, before, i, b, b', k + 1,
        h.drop hf.checked hread hops hidle.1 hthinned hset⟩
  case call =>
    rintro fr fr' op rest out regs ⟨before, i, b, b', k, h⟩ hops hcode hset
    rcases h.kept_or_gone hops with ⟨kept, hleft, hthinned⟩ | ⟨hidle, -⟩
    · obtain ⟨regs', hset'⟩ := exists_reassign? hset fr'.regs
      exact ⟨op, kept, regs', hleft, hcode, rfl, h.map_reg hleft, hset', before, i, b, b', k + 1,
        h.keep hops hthinned hleft hset hset'⟩
    · have heffects := hidle.1.1
      rw [hcode] at heffects
      cases heffects

lemma mem_defined_of_thin (hf : f.Checked m)
    (hthin : List.Forall₂ (Thin P) f.blocks.toList blocks) :
    ∀ v ∈ blocks.flatMap reads, v ∈ f.defined := fun _ hv =>
  mem_defined_of_reads hf (reads_subset_of_forall₂ hthin hv)

lemma ready_of_thin (hthin : List.Forall₂ (Thin P) f.blocks.toList blocks)
    (hfault : funcFault? f = none) : funcFault? (f.withBlocks blocks) = none := by
  rw [funcFault?_eq_none_iff] at hfault ⊢
  intro b' hmem op hop
  obtain ⟨b, hb, hblock⟩ := Func.withBlocks_mem hthin hmem
  exact hfault b hb op (hblock.ops.sublist.subset hop)

lemma replaces_prune (env : Env σ) (hf : f.Valid m)
    (hcount : f.prune.func.allocations = f.allocations) : Replaces env m f f.prune.func := by
  obtain ⟨blocks, n, heq, hthin, -⟩ := exists_prune_eq hf.checked
  rw [heq] at hcount ⊢
  exact ⟨rfl, rfl, rfl, rfl, ready_of_thin hthin,
    refines_pruned hf (mem_defined_of_thin hf.checked hthin) (thin_of_allocations hthin hcount)⟩

end Sierra.Machine
