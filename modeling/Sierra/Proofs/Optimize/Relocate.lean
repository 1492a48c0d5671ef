import Sierra.Proofs.Optimize.Redirect

/-!
# Functions whose blocks have moved

A relocation has the reachable blocks of a function at new places, and no others. It is as valid,
and does the same work round by round.
-/

namespace Sierra.Ir

open List Func Terminator

variable {b : Block} {i j k : Nat} {v : ValueId} {τ : BlockId → BlockId} {f : Func}

def Func.Reached (f : Func) (i : Nat) : Prop := ∃ before, f.Path before i

lemma Func.Reached.succ (h : f.Reached i) (hsucc : f.Succ i j) : f.Reached j := by
  obtain ⟨before, hpath⟩ := h
  exact ⟨i :: before, hpath.step hsucc⟩

def Func.Trim (f : Func) : Prop := ∀ (i : Nat) (b : Block), f.blocks[i]? = some b → f.Reached i

lemma Func.InScope.reached (h : f.InScope i b k v) (hb : f.blocks[i]? = some b) (hi : f.Reached i) :
    ∃ d, f.Reached d ∧ f.Defines d v := by
  rcases h with h | h
  · obtain ⟨before, hpath⟩ := hi
    obtain ⟨d, hd, hdef⟩ := h before hpath
    obtain ⟨earlier, hpast, -, -⟩ := hpath.cut hd
    exact ⟨d, ⟨earlier, hpast⟩, hdef⟩
  · exact ⟨i, hi, b, hb, Block.mem_defs_of_mem_defsBefore h⟩

def Block.moved (τ : BlockId → BlockId) (b : Block) : Block :=
  { b with id := τ b.id, term := b.term.mapEdges fun e => { e with target := τ e.target } }

lemma Block.edges_moved (τ : BlockId → BlockId) (b : Block) :
    (b.moved τ).term.edges = b.term.edges.map fun e => { e with target := τ e.target } :=
  edges_mapEdges _ _

lemma Block.uses_moved (hv : v ∈ (b.moved τ).term.uses) : v ∈ b.term.uses := by
  rcases mem_uses_mapEdges hv with hv | ⟨e, he, hv⟩
  · exact hv
  · exact Machine.mem_uses_of_mem_edges he hv

lemma Block.isBare_of_moved (h : (b.moved τ).IsBare) : b.IsBare := by
  obtain ⟨hops, e, hterm⟩ := h
  refine ⟨hops, ?_⟩
  cases hb : b.term with
  | br edge => exact ⟨edge, rfl⟩
  | _ => simp [Block.moved, hb, mapEdges] at hterm

/-- The blocks of `f'` are the reachable blocks of `f`, moved to the places that `τ` gives. -/
structure Relocation (f f' : Func) (τ : BlockId → BlockId) : Prop where
  name : f'.name = f.name
  params : f'.params = f.params
  results : f'.results = f.results
  values : f'.values = f.values
  entry : f'.entry = τ f.entry
  defined : f'.defined.Sublist f.defined
  block : ∀ (i : Nat) (b : Block), f.Reached i → f.blocks[i]? = some b →
    ∃ j : Nat, τ (i : Int) = (j : Int) ∧ f'.blocks[j]? = some (b.moved τ)
  onto : ∀ (j : Nat) (b' : Block), f'.blocks[j]? = some b' →
    ∃ (i : Nat) (b : Block), f.Reached i ∧ f.blocks[i]? = some b ∧ τ (i : Int) = (j : Int) ∧
      b' = b.moved τ
  inj : ∀ i j : Nat, f.Reached i → f.Reached j → τ (i : Int) = τ (j : Int) → i = j

namespace Relocation

variable {m : Module} {f f' : Func} {τ : BlockId → BlockId} (h : Relocation f f' τ)

include h

lemma path (hf : f.Checked m) {before' : List Nat} (hpath : f'.Path before' j) :
    ∃ before i, f.Path before i ∧ τ (i : Int) = (j : Int) ∧
      ∀ d ∈ before, ∃ d' ∈ before', τ (d : Int) = ((d' : Nat) : Int) := by
  induction hpath with
  | entry hentry =>
    obtain ⟨b, hb, -⟩ := hf.entry
    obtain ⟨i, hi, -⟩ := block?_eq_some_iff.1 hb
    exact ⟨[], i, .entry hi, by rw [← hi, ← h.entry, hentry], by simp⟩
  | @step before' j j' _ hsucc ih =>
    obtain ⟨before, i, hpath, hi, hmem⟩ := ih
    obtain ⟨b', hb', e', he', htarget⟩ := hsucc
    obtain ⟨i', b, hreached, hb, hi', rfl⟩ := h.onto j b' hb'
    obtain rfl : i' = i := h.inj i' i hreached ⟨before, hpath⟩ (hi'.trans hi.symm)
    rw [Block.edges_moved, mem_map] at he'
    obtain ⟨e, he, rfl⟩ := he'
    obtain ⟨c, hc, -⟩ := (hf.blockAt hb).edges e he
    obtain ⟨k, hk, -⟩ := block?_eq_some_iff.1 hc
    refine ⟨i' :: before, k, hpath.step ⟨b, hb, e, he, hk⟩, hk ▸ htarget, fun d hd => ?_⟩
    rcases mem_cons.1 hd with rfl | hd
    · exact ⟨j, mem_cons_self, hi⟩
    · obtain ⟨d', hd', hd⟩ := hmem d hd
      exact ⟨d', mem_cons_of_mem _ hd', hd⟩

lemma defines {d : Nat} (hd : f.Reached d)
    (hv : f.Defines d v) (hj : τ (d : Int) = (j : Int)) : f'.Defines j v := by
  obtain ⟨b, hb, hmem⟩ := hv
  obtain ⟨j', hj', hb'⟩ := h.block d b hd hb
  obtain rfl : j' = j := Int.ofNat_inj.1 (hj'.symm.trans hj)
  exact ⟨_, hb', hmem⟩

lemma avail (hf : f.Checked m)
    (hi : f.Reached i) (hj : τ (i : Int) = (j : Int)) (hv : f.Avail i v) : f'.Avail j v := by
  intro before' hpath'
  obtain ⟨before, i', hpath, hi', hmem⟩ := h.path hf hpath'
  obtain rfl : i' = i := h.inj i' i ⟨before, hpath⟩ hi (hi'.trans hj.symm)
  obtain ⟨d, hd, hdef⟩ := hv before hpath
  obtain ⟨d', hd', hplace⟩ := hmem d hd
  obtain ⟨earlier, hpast, -, -⟩ := hpath.cut hd
  exact ⟨d', hd', h.defines ⟨earlier, hpast⟩ hdef hplace⟩

lemma inScope (hf : f.Checked m) (hi : f.Reached i) (hj : τ (i : Int) = (j : Int))
    (hv : f.InScope i b k v) : f'.InScope j (b.moved τ) k v := by
  rcases hv with hv | hv
  · exact .inl (h.avail hf hi hj hv)
  · exact .inr hv

lemma mem_defined (hi : f.Reached i) (hb : f.blocks[i]? = some b) (hv : f.InScope i b k v) :
    v ∈ f'.defined := by
  obtain ⟨d, hd, c, hc, hvc⟩ := hv.reached hb hi
  obtain ⟨j, hj, -⟩ := h.block d c hd hc
  exact f'.mem_defined_iff.2 ⟨j, h.defines hd ⟨c, hc, hvc⟩ hj⟩

lemma edge (hi : f.Reached i) (hb : f.blocks[i]? = some b) {e : Edge} (he : e ∈ b.term.edges)
    {c : Block} (hc : f.block? e.target = some c) : f'.block? (τ e.target) = some (c.moved τ) := by
  obtain ⟨k, hk, hc⟩ := block?_eq_some_iff.1 hc
  obtain ⟨j, hj, hc'⟩ := h.block k c (hi.succ ⟨b, hb, e, he, hk⟩) hc
  rw [hk, hj, block?_natCast, hc']

lemma reached {before : List Nat} (hpath : f.Path before i)
    (hj : τ (i : Int) = (j : Int)) : f'.Reached j := by
  induction hpath generalizing j with
  | entry hentry => exact ⟨[], .entry (by rw [h.entry, hentry, hj])⟩
  | @step before i k hpath hsucc ih =>
    obtain ⟨b, hb, e, he, htarget⟩ := hsucc
    obtain ⟨x, hx, hb'⟩ := h.block i b ⟨before, hpath⟩ hb
    refine (ih hx).succ ⟨_, hb', { e with target := τ e.target }, ?_, by rw [htarget, hj]⟩
    rw [Block.edges_moved]
    exact mem_map_of_mem he

lemma trim : f'.Trim := by
  intro j b' hb'
  obtain ⟨i, b, ⟨before, hpath⟩, -, hj, -⟩ := h.onto j b' hb'
  exact h.reached hpath hj

lemma valid (hf : f.Valid m) : f'.Valid m := by
  have htype := typeOf_congr h.values
  refine ⟨⟨?_, ?_, ?_, ?_, ?_⟩, ⟨?_, ?_⟩, ?_⟩
  · obtain ⟨b, hb, hparams⟩ := hf.checked.entry
    obtain ⟨i, hi, hb⟩ := block?_eq_some_iff.1 hb
    obtain ⟨j, hj, hb'⟩ := h.block i b ⟨[], .entry hi⟩ hb
    refine ⟨b.moved τ, ?_, ?_⟩
    · rw [h.entry, hi, hj, block?_natCast, hb']
    · rw [h.params, ← hparams, htype]
      rfl
  · intro v hv
    rw [h.values]
    exact hf.checked.range v (h.defined.subset hv)
  · exact hf.checked.nodup.sublist h.defined
  · intro j b' hb'
    obtain ⟨i, b, -, hb, hj, rfl⟩ := h.onto j b' hb'
    rw [Block.moved, hf.checked.place i b hb, hj]
  · intro b' hmem
    obtain ⟨j, hb'⟩ := Array.mem_iff_getElem?.1 hmem
    obtain ⟨i, b, hi, hb, hj, rfl⟩ := h.onto j b' hb'
    have hcheck := hf.checked.blockAt hb
    refine ⟨?_, ?_, ?_, ?_, ?_, ?_⟩
    · intro op hop v hv
      obtain ⟨k, hk⟩ := mem_iff_getElem?.1 hop
      exact h.mem_defined hi hb (hf.dominated.ops i b hb k op hk v hv)
    · intro op hop
      rw [opProblem?_congr (f := f) (.refl m) rfl (by rw [htype]) (by rw [htype])]
      exact hcheck.ops op hop
    · exact (isClosed_mapEdges _ _).trans hcheck.closed
    · intro v hv
      exact h.mem_defined hi hb (hf.dominated.term i b hb v (Block.uses_moved hv))
    · intro e' he'
      rw [Block.edges_moved, mem_map] at he'
      obtain ⟨e, he, rfl⟩ := he'
      obtain ⟨c, hc, hargs⟩ := hcheck.edges e he
      refine ⟨c.moved τ, h.edge hi hb he hc, ?_⟩
      rw [htype, hargs]
      rfl
    · exact hcheck.term.mapEdges h.values h.results
  · intro j b' hb' k op hop v hv
    obtain ⟨i, b, hi, hb, hj, rfl⟩ := h.onto j b' hb'
    exact h.inScope hf.checked hi hj (hf.dominated.ops i b hb k op hop v hv)
  · intro j b' hb' v hv
    obtain ⟨i, b, hi, hb, hj, rfl⟩ := h.onto j b' hb'
    exact h.inScope hf.checked hi hj (hf.dominated.term i b hb v (Block.uses_moved hv))
  · intro b' hmem op hop
    obtain ⟨j, hb'⟩ := Array.mem_iff_getElem?.1 hmem
    obtain ⟨i, b, hi, hb, hj, rfl⟩ := h.onto j b' hb'
    exact (hf.built b (Array.mem_of_getElem? hb) op hop).rename rfl (by rw [htype]) h.values

lemma bareLocal (hlocal : f.BareLocal) : f'.BareLocal := by
  intro x b' hb' hbare v hv y c' hc'
  obtain ⟨i, b, -, hb, hi, rfl⟩ := h.onto x b' hb'
  obtain ⟨j, c, -, hc, hj, rfl⟩ := h.onto y c' hc'
  obtain ⟨hops, hterm⟩ := hlocal i b hb (Block.isBare_of_moved hbare) v hv j c hc
  refine ⟨hops, fun huse => ?_⟩
  have hji := hterm (Block.uses_moved huse)
  rw [hji] at hj
  exact Int.ofNat_inj.1 (hj.symm.trans hi)

end Relocation

end Sierra.Ir

namespace Sierra.Machine

open Ir

variable {σ : Type} {m : Module} {f f' : Func} {τ : BlockId → BlockId} {env : Env σ}

def RelocationRel (f f' : Func) (τ : BlockId → BlockId) (fr fr' : Frame) : Prop :=
  ∃ (before : List Nat) (i : Nat) (b : Block) (k : Nat), At f before i b k fr ∧
    fr' = ⟨f', fr.regs, fr.ops, (b.moved τ).term, fr.depth⟩

lemma refines_of_relocation (h : Relocation f f' τ) (hf : f.Valid m)
    (hfault : funcFault? f = none) : Refines env m f f' := by
  rw [funcFault?_eq_none_iff] at hfault
  refine ⟨RelocationRel f f' τ, ?_⟩
  constructor
  case func =>
    rintro fr fr' ⟨before, i, b, k, hat, rfl⟩
    exact ⟨hat.func, rfl, rfl⟩
  case enter =>
    intro args depth fr henter
    obtain ⟨hdepth, i, b, regs, rfl, hentry, hat, hset⟩ := at_of_enter henter
    obtain ⟨j, hj, hb'⟩ := h.block i b ⟨[], hat.path⟩ hat.block
    refine ⟨_, enter_eq_ok_iff.2 ⟨hdepth, j, _, regs, ?_, hb', ?_, rfl⟩, [], i, b, 0, hat, rfl⟩
    · rw [h.entry, hentry, hj]
    · rw [h.values]
      exact hset
  case done =>
    rintro fr fr' values ⟨before, i, b, k, hat, rfl⟩ hops hdone
    rw [hat.term] at hdone
    exact ⟨hops, nextOf_mapEdges h.name (fun _ _ => rfl) hdone⟩
  case jump =>
    rintro fr fr' next edge ⟨before, i, b, k, hat, rfl⟩ hops hnext hjump
    obtain ⟨j, c, regs, rfl, hedge, htarget, hsucc, hat', hset⟩ := hat.jump hnext hjump
    obtain ⟨j', hj', hc'⟩ := h.block j c ⟨_, hat'.path⟩ hat'.block
    rw [hat.term] at hnext
    exact .inr ⟨hops, _, _, nextOf_mapEdges h.name (fun _ _ => rfl) hnext, jump?_eq_some_iff.2
      ⟨j', _, regs, (congrArg τ htarget).trans hj', hc', hset, rfl⟩, _, j, c, 0, hat', rfl⟩
  case op =>
    rintro fr fr' op rest regs world world' ⟨before, i, b, k, hat, rfl⟩ hops hcode hexec
    obtain ⟨hop, hrest⟩ := hat.getElem? hops
    have hmem := List.mem_of_getElem? hop
    have hblock := Array.mem_of_getElem? hat.block
    obtain ⟨images, regs', hset, hset', hexec'⟩ :=
      execOp_rename (hf.built b hblock op hmem) (hfault b hblock op hmem) hcode rfl rfl
        (by rw [Func.typeOf_congr h.values]) h.name h.values hexec
    cases hset.symm.trans hset'
    exact .inr ⟨op, rest, regs, hops, hcode, hexec', before, i, b, k + 1,
      hat.next hops (size_assign? hset), rfl⟩
  case call =>
    rintro fr fr' op rest out regs ⟨before, i, b, k, hat, rfl⟩ hops hcode hset
    exact ⟨op, rest, regs, hops, hcode, rfl, rfl, hset, before, i, b, k + 1,
      hat.next hops (size_assign? hset), rfl⟩

lemma replaces_of_relocation (h : Relocation f f' τ) (hf : f.Valid m) : Replaces env m f f' := by
  refine ⟨h.name, h.params, h.results, h.values, fun hfault => ?_, refines_of_relocation h hf⟩
  rw [funcFault?_eq_none_iff] at hfault ⊢
  intro b' hmem
  obtain ⟨j, hb'⟩ := Array.mem_iff_getElem?.1 hmem
  obtain ⟨i, b, -, hb, -, rfl⟩ := h.onto j b' hb'
  exact hfault b (Array.mem_of_getElem? hb)

end Sierra.Machine
