import Sierra.Ir.Flow
import Sierra.Proofs.Machine.Refine

/-!
# Jumps past blocks that only jump on

An edge to a block that only jumps is replaced by the edge that block takes, which is harmless while
nobody else reads its parameters (`BareLocal`). While the given function goes through bare blocks,
the redirected one waits; otherwise they walk in step (`RedirectRel`).
-/

namespace Sierra.Ir

open List Func

variable {c : Block} {e next : Edge} {f : Func} {args params : List ValueId} {i j : Nat}
  {v : ValueId} {id : BlockId}

/-! ## Bare blocks -/

def Block.IsBare (b : Block) : Prop := b.ops = [] ∧ ∃ e, b.term = .br e

/-- Parameters of bare blocks are read by their own terminators only. -/
def Func.BareLocal (f : Func) : Prop :=
  ∀ (i : Nat) (b : Block), f.blocks[i]? = some b → b.IsBare → ∀ v ∈ b.params,
    ∀ (j : Nat) (c : Block), f.blocks[j]? = some c →
      (∀ op ∈ c.ops, v ∉ op.args) ∧ (v ∈ c.term.uses → j = i)

/-- A parameter of no bare block but perhaps the one at `index`. -/
def Func.Visible (f : Func) (index : Nat) (v : ValueId) : Prop :=
  ∀ (i : Nat) (b : Block), f.blocks[i]? = some b → b.IsBare → v ∈ b.params → i = index

def Func.Plain (f : Func) (v : ValueId) : Prop :=
  ∀ (i : Nat) (b : Block), f.blocks[i]? = some b → b.IsBare → v ∉ b.params

lemma Func.Plain.visible (h : f.Plain v) (index : Nat) : f.Visible index v := by
  intro i b hb hbare hv
  exact absurd hv (h i b hb hbare)

lemma Func.BareLocal.plain_operand (h : f.BareLocal)
    (hc : f.blocks[j]? = some c) {op : Op} (hop : op ∈ c.ops) (hv : v ∈ op.args) : f.Plain v := by
  intro i b hb hbare hparam
  exact (h i b hb hbare v hparam j c hc).1 op hop hv

lemma Func.BareLocal.visible_use (h : f.BareLocal)
    (hc : f.blocks[j]? = some c) (hv : v ∈ c.term.uses) : f.Visible j v := by
  intro i b hb hbare hparam
  exact ((h i b hb hbare v hparam j c hc).2 hv).symm

lemma Func.Visible.plain (h : f.Visible j v)
    (hc : f.blocks[j]? = some c) (hv : v ∉ c.params) : f.Plain v := by
  intro i b hb hbare hparam
  obtain rfl := h i b hb hbare hparam
  cases hb.symm.trans hc
  exact hv hparam

/-! ## What is passed for a parameter -/

namespace Flow

lemma passed_of_not_mem (h : v ∉ params) : passed params args v = v := by
  have hnone : (params.zip args).reverse.find? (fun entry => entry.1 == v) = none := by
    rw [find?_eq_none]
    rintro ⟨p, a⟩ hmem heq
    rw [mem_reverse] at hmem
    rw [beq_iff_eq] at heq
    subst heq
    exact h (of_mem_zip hmem).1
  rw [passed, hnone, Option.map_none, Option.getD_none]

lemma passed_getElem? (hnodup : params.Nodup) {n : Nat} {a : ValueId} (hv : params[n]? = some v)
    (ha : args[n]? = some a) : passed params args v = a := by
  have hentry : (v, a) ∈ params.zip args := mem_of_getElem? (getElem?_zip_eq_some.2 ⟨hv, ha⟩)
  cases hfind : (params.zip args).reverse.find? fun entry => entry.1 == v with
  | none =>
    rw [find?_eq_none] at hfind
    exact absurd (beq_self_eq_true v) (hfind (v, a) (mem_reverse.2 hentry))
  | some entry =>
    have hmem := mem_of_find?_eq_some hfind
    have hkey := find?_some hfind
    rw [mem_reverse] at hmem
    rw [beq_iff_eq] at hkey
    subst hkey
    -- A parameter stands at one place only, so both entries are the same.
    obtain ⟨n', hn'⟩ := mem_iff_getElem?.1 hmem
    obtain ⟨hp, ha'⟩ := getElem?_zip_eq_some.1 hn'
    have hlt : n < params.length := (List.getElem?_eq_some_iff.1 hv).1
    have heq : n = n' := (getElem?_inj hlt hnodup).1 (hv.trans hp.symm)
    subst heq
    rw [ha, Option.some.injEq] at ha'
    rw [passed, hfind, Option.map_some, Option.getD_some, ha']

lemma passed_cases (hnodup : params.Nodup) (hlen : args.length = params.length) (v : ValueId) :
    (v ∉ params ∧ passed params args v = v) ∨
      ∃ (n : Nat) (a : ValueId), params[n]? = some v ∧ args[n]? = some a ∧
        passed params args v = a := by
  by_cases hv : v ∈ params
  · obtain ⟨n, hn⟩ := mem_iff_getElem?.1 hv
    have hlt : n < args.length := by
      have := (List.getElem?_eq_some_iff.1 hn).1
      omega
    have ha := getElem?_eq_getElem hlt
    exact .inr ⟨n, args[n], hn, ha, passed_getElem? hnodup hn ha⟩
  · exact .inl ⟨hv, passed_of_not_mem hv⟩

lemma typeOf_passed (hnodup : params.Nodup) (htype : args.map f.typeOf = params.map f.typeOf)
    (v : ValueId) : f.typeOf (passed params args v) = f.typeOf v := by
  have hlen : args.length = params.length := by simpa using congrArg length htype
  rcases passed_cases hnodup hlen v with ⟨-, heq⟩ | ⟨n, a, hv, ha, heq⟩
  · rw [heq]
  · have h := congrArg (·[n]?) htype
    simp only [getElem?_map, hv, ha, Option.map_some, Option.some.injEq] at h
    rw [heq, h]

/-! ## Chains of bare blocks -/

abbrev beyond (params : List ValueId) (next e : Edge) : Edge :=
  { target := next.target, args := next.args.map (passed params e.args) }

/-- A chain of blocks that only jump on. -/
inductive Forwards (f : Func) : Edge → Edge → Prop
  | refl (e : Edge) : Forwards f e e
  | hop {e e' next : Edge} {params : List ValueId}
      (h : passThrough? f e.target = some (params, next))
      (hrest : Forwards f (beyond params next e) e') : Forwards f e e'

lemma forwards_forward (f : Func) (fuel : Nat) (visited : List BlockId) (e : Edge) :
    Forwards f e (forward f fuel visited e) := by
  fun_induction forward f fuel visited e with
  | case1 | case2 | case3 => exact .refl _
  | case4 _ _ _ _ _ _ hpass ih => exact .hop hpass ih

lemma exists_of_passThrough? (h : passThrough? f id = some (params, next)) :
    ∃ (i : Nat) (b : Block), id = (i : Int) ∧ f.blocks[i]? = some b ∧ b.params = params ∧
      b.ops = [] ∧ b.term = .br next := by
  unfold passThrough? at h
  split at h
  · cases h
  next b hb =>
  obtain ⟨i, hi, hblock⟩ := block?_eq_some_iff.1 hb
  split at h
  · cases h
  split at h
  · next edge hops hterm =>
    split at h
    · rw [Option.some.injEq, Prod.mk.injEq] at h
      exact ⟨i, b, hi, hblock, h.1, hops, by rw [hterm, h.2]⟩
    · cases h
  · cases h

variable {m : Module} {f : Func} {index : Nat} {b : Block}

/-- The edge passes what the block may read, and leads where the block gets over bare blocks only.
-/
structure Fits (f : Func) (index : Nat) (b : Block) (e : Edge) : Prop where
  typed : e.Typed f
  args : ∀ v ∈ e.args, v ∈ f.defined ∧ f.InScope index b b.ops.length v ∧ f.Visible index v
  chain : ∀ before, f.Path before index → ∀ j : Nat, e.target = (j : Int) →
    ∃ between, (∀ d ∈ between, ∃ c, f.blocks[d]? = some c ∧ c.IsBare) ∧
      f.Path (between ++ index :: before) j

lemma fits_of_mem (hf : f.Valid m) (hlocal : f.BareLocal) (hb : f.blocks[index]? = some b)
    (he : e ∈ b.term.edges) : Fits f index b e := by
  have hcheck := hf.checked.blockAt hb
  refine ⟨hcheck.edges e he, fun v hv => ?_, fun before hpath j hj => ?_⟩
  · have huse := Machine.mem_uses_of_mem_edges he hv
    exact ⟨hcheck.uses v huse, hf.dominated.term index b hb v huse, hlocal.visible_use hb huse⟩
  · exact ⟨[], by simp, hpath.step ⟨b, hb, e, he, hj⟩⟩

lemma Fits.inScope (h : Fits f index b e) (hb : f.blocks[index]? = some b)
    (hj : e.target = (j : Int)) (hplain : f.Plain v) (hv : f.Avail j v) :
    f.InScope index b b.ops.length v := by
  rw [Func.InScope, Block.defsBefore_length]
  by_cases hdef : v ∈ b.defs
  · exact .inr hdef
  refine .inl fun before hpath => ?_
  obtain ⟨between, hbare, hlong⟩ := h.chain before hpath j hj
  obtain ⟨d, hd, c, hc, hvc⟩ := hv _ hlong
  rw [mem_append, mem_cons] at hd
  rcases hd with hd | rfl | hd
  · obtain ⟨c', hc', hbare⟩ := hbare d hd
    cases hc.symm.trans hc'
    rw [Block.defs, hbare.1, flatMap_nil, append_nil] at hvc
    exact absurd hvc (hplain d c hc hbare)
  · rw [hb, Option.some.injEq] at hc
    subst hc
    exact absurd hvc hdef
  · exact ⟨d, hd, c, hc, hvc⟩

lemma Fits.beyond (hf : f.Valid m) (hlocal : f.BareLocal) (hb : f.blocks[index]? = some b)
    (h : Fits f index b e) (hpass : passThrough? f e.target = some (params, next)) :
    Fits f index b (beyond params next e) := by
  obtain ⟨i, c, hi, hc, rfl, hops, hterm⟩ := exists_of_passThrough? hpass
  have hbare : c.IsBare := ⟨hops, next, hterm⟩
  have hedge : next ∈ c.term.edges := by simp [hterm, Terminator.edges]
  have hcheck := hf.checked.blockAt hc
  have hnodup : c.params.Nodup := f.nodup_params hf.checked.nodup hc
  have htype := h.typed.types_eq hi hc
  have hlen : e.args.length = c.params.length := by simpa using congrArg length htype
  obtain ⟨target, htarget, hnext⟩ := hcheck.edges next hedge
  refine ⟨⟨target, htarget, ?_⟩, ?_, ?_⟩
  · rw [← hnext, map_map]
    exact map_congr_left fun v _ => typeOf_passed hnodup htype v
  · intro w hw
    obtain ⟨v, hv, rfl⟩ := mem_map.1 hw
    have huse := Machine.mem_uses_of_mem_edges hedge hv
    rcases passed_cases hnodup hlen v with ⟨hnot, heq⟩ | ⟨n, a, -, ha, heq⟩
    · -- Not a parameter of the bare block, so it comes from further up.
      have hplain := (hlocal.visible_use hc huse).plain hc hnot
      have hscope := hf.dominated.term i c hc v huse
      rw [hops, length_nil, inScope_zero] at hscope
      rw [heq]
      exact ⟨hcheck.uses v huse, h.inScope hb hi hplain (hscope.resolve_right hnot),
        hplain.visible index⟩
    · rw [heq]
      exact h.args a (mem_of_getElem? ha)
  · intro before hpath j hj
    obtain ⟨between, hbetween, hlong⟩ := h.chain before hpath i hi
    refine ⟨i :: between, fun d hd => ?_, hlong.step ⟨c, hc, next, hedge, hj⟩⟩
    rcases mem_cons.1 hd with rfl | hd
    · exact ⟨c, hc, hbare⟩
    · exact hbetween d hd

lemma Fits.forwards (hf : f.Valid m) (hlocal : f.BareLocal) (hb : f.blocks[index]? = some b)
    {e' : Edge} (hchain : Forwards f e e') (h : Fits f index b e) : Fits f index b e' := by
  induction hchain with
  | refl e => exact h
  | hop hpass _ ih => exact ih (h.beyond hf hlocal hb hpass)

/-! ## The redirected function -/

def redirected (f : Func) (index i : Nat) (b : Block) : Block :=
  { b with term :=
      if i = index then b.term.mapEdges (forward f (f.blocks.size + 1) []) else b.term }

lemma redirect_getElem? (f : Func) (index i : Nat) :
    (redirect f index).blocks[i]? = (f.blocks[i]?).map (redirected f index i) := by
  show (f.blocks.modify index _)[i]? = _
  rw [Array.getElem?_modify]
  by_cases hi : index = i
  · subst hi
    cases f.blocks[index]? <;> simp [redirected]
  · cases f.blocks[i]? <;> simp [redirected, hi, Ne.symm hi]

lemma redirect_getElem?_of_eq (hb : f.blocks[i]? = some b) :
    (redirect f index).blocks[i]? = some (redirected f index i b) := by
  rw [redirect_getElem?, hb, Option.map_some]

lemma exists_of_redirect {b' : Block} (h : (redirect f index).blocks[i]? = some b') :
    ∃ b, f.blocks[i]? = some b ∧ b' = redirected f index i b := by
  rw [redirect_getElem?, Option.map_eq_some_iff] at h
  obtain ⟨b, hb, rfl⟩ := h
  exact ⟨b, hb, rfl⟩

lemma redirect_block? (index : Nat) (hb : f.block? id = some b) :
    ∃ b', (redirect f index).block? id = some b' ∧ b'.params = b.params := by
  obtain ⟨i, rfl, hblock⟩ := block?_eq_some_iff.1 hb
  refine ⟨redirected f index i b, ?_, rfl⟩
  exact redirect_getElem?_of_eq hblock

lemma redirect_defined (f : Func) (index : Nat) : (redirect f index).defined = f.defined := by
  have hmap : (redirect f index).blocks.toList.map Block.defs = f.blocks.toList.map Block.defs := by
    apply ext_getElem?
    intro i
    rw [getElem?_map, getElem?_map, Array.getElem?_toList, Array.getElem?_toList,
      redirect_getElem?, Option.map_map]
    rfl
  rw [defined, defined, flatMap_def, flatMap_def, hmap]

lemma exists_mapEdges (f : Func) (index i : Nat) (b : Block) : ∃ g : Edge → Edge,
    (∀ e, Forwards f e (g e)) ∧ (redirected f index i b).term = b.term.mapEdges g := by
  unfold redirected
  split
  · exact ⟨_, forwards_forward f _ _, rfl⟩
  · exact ⟨id, .refl, by cases b.term <;> simp [Terminator.mapEdges]⟩

variable (hf : f.Valid m) (hlocal : f.BareLocal)

include hf hlocal

lemma fits_redirected (hb : f.blocks[i]? = some b)
    (he : e ∈ (redirected f index i b).term.edges) : Fits f i b e := by
  obtain ⟨g, hforwards, hterm⟩ := exists_mapEdges f index i b
  rw [hterm, Terminator.edges_mapEdges, mem_map] at he
  obtain ⟨e, he, rfl⟩ := he
  exact (fits_of_mem hf hlocal hb he).forwards hf hlocal hb (hforwards e)

lemma use_redirected (hb : f.blocks[i]? = some b) (hv : v ∈ (redirected f index i b).term.uses) :
    v ∈ f.defined ∧ f.InScope i b b.ops.length v ∧ f.Visible i v := by
  obtain ⟨g, hforwards, hterm⟩ := exists_mapEdges f index i b
  rw [hterm] at hv
  rcases Terminator.mem_uses_mapEdges hv with hv | ⟨e, he, hv⟩
  · exact ⟨(hf.checked.blockAt hb).uses v hv, hf.dominated.term i b hb v hv,
      hlocal.visible_use hb hv⟩
  · exact ((fits_of_mem hf hlocal hb he).forwards hf hlocal hb (hforwards e)).args v hv

lemma path_of_redirect {before : List Nat} (h : (redirect f index).Path before j) :
    ∃ full, f.Path full j ∧ ∀ d ∈ full, d ∈ before ∨ ∃ c, f.blocks[d]? = some c ∧ c.IsBare := by
  induction h with
  | entry h => exact ⟨[], .entry h, by simp⟩
  | @step before i j _ hsucc ih =>
    obtain ⟨full, hfull, hmem⟩ := ih
    obtain ⟨b', hb', e, he, htarget⟩ := hsucc
    obtain ⟨b, hb, rfl⟩ := exists_of_redirect hb'
    obtain ⟨between, hbare, hlong⟩ := (fits_redirected hf hlocal hb he).chain full hfull j htarget
    refine ⟨_, hlong, fun d hd => ?_⟩
    rw [mem_append, mem_cons] at hd
    rcases hd with hd | rfl | hd
    · exact .inr (hbare d hd)
    · exact .inl mem_cons_self
    · rcases hmem d hd with hd | hd
      · exact .inl (mem_cons_of_mem _ hd)
      · exact .inr hd

lemma avail_redirect (hplain : f.Plain v) (hv : f.Avail i v) : (redirect f index).Avail i v := by
  intro before hpath
  obtain ⟨full, hfull, hmem⟩ := path_of_redirect hf hlocal hpath
  obtain ⟨d, hd, c, hc, hvc⟩ := hv full hfull
  rcases hmem d hd with hd | ⟨c', hc', hbare⟩
  · exact ⟨d, hd, _, redirect_getElem?_of_eq hc, hvc⟩
  · rw [hc, Option.some.injEq] at hc'
    subst hc'
    rw [Block.defs, hbare.1, flatMap_nil, append_nil] at hvc
    exact absurd hvc (hplain d c hc hbare)

lemma inScope_redirect {k : Nat} (hb : f.blocks[i]? = some b) (hvisible : f.Visible i v)
    (hv : f.InScope i b k v) : (redirect f index).InScope i (redirected f index i b) k v := by
  rcases hv with hv | hv
  · by_cases hparam : v ∈ b.params
    · exact .inr (mem_append_left _ hparam)
    · exact .inl (avail_redirect hf hlocal (hvisible.plain hb hparam) hv)
  · exact .inr hv

omit hf hlocal in
lemma isBare_of_redirected (h : (redirected f index i b).IsBare) : b.IsBare := by
  obtain ⟨hops, e, hterm⟩ := h
  obtain ⟨g, -, hg⟩ := exists_mapEdges f index i b
  rw [hg] at hterm
  refine ⟨hops, ?_⟩
  cases hb : b.term with
  | br edge => exact ⟨edge, rfl⟩
  | _ => simp [hb, Terminator.mapEdges] at hterm

lemma bareLocal_redirect (index : Nat) : (redirect f index).BareLocal := by
  intro i b' hb' hbare v hv j c' hc'
  obtain ⟨b, hb, rfl⟩ := exists_of_redirect hb'
  obtain ⟨c, hc, rfl⟩ := exists_of_redirect hc'
  have hbare := isBare_of_redirected hbare
  refine ⟨(hlocal i b hb hbare v hv j c hc).1, fun huse => ?_⟩
  exact ((use_redirected hf hlocal hc huse).2.2 i b hb hbare hv).symm

lemma valid_redirect (index : Nat) : (redirect f index).Valid m := by
  refine ⟨⟨?_, ?_, ?_, ?_, ?_⟩, ⟨?_, ?_⟩, ?_⟩
  · obtain ⟨b, hb, htype⟩ := hf.checked.entry
    obtain ⟨b', hb', hparams⟩ := redirect_block? index hb
    exact ⟨b', hb', by rw [hparams]; exact htype⟩
  · rw [redirect_defined]
    exact hf.checked.range
  · rw [redirect_defined]
    exact hf.checked.nodup
  · intro i b' hb'
    obtain ⟨b, hb, rfl⟩ := exists_of_redirect hb'
    exact hf.checked.place i b hb
  · intro b' hmem
    obtain ⟨i, hb'⟩ := Array.mem_iff_getElem?.1 hmem
    obtain ⟨b, hb, rfl⟩ := exists_of_redirect hb'
    have hcheck := hf.checked.blockAt hb
    obtain ⟨g, -, hterm⟩ := exists_mapEdges f index i b
    refine ⟨?_, fun op hop => ?_, ?_, ?_, ?_, ?_⟩
    · rw [redirect_defined]
      exact hcheck.operands
    · exact hcheck.ops op hop
    · rw [hterm, Terminator.isClosed_mapEdges]
      exact hcheck.closed
    · intro v hv
      rw [redirect_defined]
      exact (use_redirected hf hlocal hb hv).1
    · intro e he
      obtain ⟨c, hc, htype⟩ := (fits_redirected hf hlocal hb he).typed
      obtain ⟨c', hc', hparams⟩ := redirect_block? index hc
      exact ⟨c', hc', by rw [hparams]; exact htype⟩
    · rw [hterm]
      exact hcheck.term.mapEdges rfl rfl
  · intro i b' hb' k op hop v hv
    obtain ⟨b, hb, rfl⟩ := exists_of_redirect hb'
    have hplain := hlocal.plain_operand hb (mem_of_getElem? hop) hv
    exact inScope_redirect hf hlocal hb (hplain.visible i) (hf.dominated.ops i b hb k op hop v hv)
  · intro i b' hb' v hv
    obtain ⟨b, hb, rfl⟩ := exists_of_redirect hb'
    obtain ⟨-, hscope, hvisible⟩ := use_redirected hf hlocal hb hv
    exact inScope_redirect hf hlocal hb hvisible hscope
  · intro b' hmem op hop
    obtain ⟨i, hb'⟩ := Array.mem_iff_getElem?.1 hmem
    obtain ⟨b, hb, rfl⟩ := exists_of_redirect hb'
    exact (hf.built b (Array.mem_of_getElem? hb) op hop).rename rfl rfl rfl

end Flow

end Sierra.Ir

namespace Sierra.Machine

open Ir Ir.Flow List

variable {σ : Type} {m : Module} {f : Func} {index : Nat}
variable {regs regs' : Array Image} {b : Block} {e : Edge} {i : Nat}

/-! ## The redirected function does the same work -/

/-- At the same place, or the given one is inside a chain of bare blocks that the other waits to
jump past. -/
inductive RedirectRel (f : Func) (index : Nat) : Frame → Frame → Prop
  | same {before : List Nat} {i k : Nat} {b : Block} {fr : Frame} {regs : Array Image}
      (hat : At f before i b k fr) (hsize : regs.size = fr.regs.size)
      (hregs : ∀ v ∈ f.defined, f.Visible i v → reg regs v = reg fr.regs v) :
      RedirectRel f index fr
        ⟨redirect f index, regs, fr.ops, (redirected f index i b).term, fr.depth⟩
  | wait {before : List Nat} {i : Nat} {b : Block} {fr : Frame} {regs : Array Image}
      {term : Terminator} {next e last : Edge} (hat : At f before i b 0 fr) (hops : b.ops = [])
      (hterm : b.term = .br next) (hlen : e.args.length = b.params.length)
      (hparams : ∀ (n : Nat) (p a : ValueId), b.params[n]? = some p → e.args[n]? = some a →
        reg regs a = reg fr.regs p)
      (hsize : regs.size = fr.regs.size)
      (hregs : ∀ v ∈ f.defined, f.Plain v → reg regs v = reg fr.regs v)
      (hchain : Forwards f (beyond b.params next e) last)
      (hjump : nextOf (redirect f index) regs term = .jump last) :
      RedirectRel f index fr ⟨redirect f index, regs, [], term, fr.depth⟩

/-- The redirected function arrives over the forwarded edge, or waits if there is more to pass over.
-/
lemma RedirectRel.arrive (hf : f.Valid m) {before : List Nat} {j : Nat} {c : Block} {next : Frame}
    {term : Terminator} {last : Edge} (hat : At f before j c 0 next)
    (htarget : e.target = (j : Int)) (hlen : e.args.length = c.params.length)
    (hset : assign? regs c.params (e.args.map (reg regs')) = some next.regs)
    (hsize : regs'.size = regs.size)
    (hplain : ∀ v ∈ f.defined, f.Plain v → reg regs' v = reg regs v) (hchain : Forwards f e last)
    (hjump : nextOf (redirect f index) regs' term = .jump last) :
    RedirectRel f index next ⟨redirect f index, regs', [], term, next.depth⟩ ∨
      ∃ next', jump? ⟨redirect f index, regs', [], term, next.depth⟩ last = some next' ∧
        RedirectRel f index next next' := by
  have hdef : ∀ p ∈ c.params, p ∈ f.defined := fun p hp =>
    f.mem_defined_iff.2 ⟨j, c, hat.block, mem_append_left _ hp⟩
  have hnonneg : ∀ p ∈ c.params, (0 : Int) ≤ p := fun p hp => (hf.checked.range p (hdef p hp)).1
  have hsize' := size_assign? hset
  cases hchain with
  | refl =>
    obtain ⟨regs₁, hset'⟩ := exists_reassign? hset regs'
    refine .inr ⟨_, jump?_eq_some_iff.2 ⟨j, _, regs₁, htarget,
      redirect_getElem?_of_eq hat.block, hset', rfl⟩, ?_⟩
    have hops : next.ops = c.ops := hat.ops
    rw [show (redirected f index j c).ops = next.ops from hops.symm]
    refine .same hat ?_ fun v hv hvisible => ?_
    · rw [size_assign? hset', hsize, hsize']
    · refine reg_assign?_congr hsize hset' hset ?_
      by_cases hparam : v ∈ c.params
      · exact .inl hparam
      · exact .inr (hplain v hv (hvisible.plain hat.block hparam))
  | @hop _ _ taken params hpass hrest =>
    obtain ⟨i, b, hi, hb, rfl, hops, hterm⟩ := exists_of_passThrough? hpass
    obtain rfl : i = j := Int.ofNat_inj.1 (hi.symm.trans htarget)
    obtain rfl : b = c := by
      rw [hat.block, Option.some.injEq] at hb
      exact hb.symm
    have hnodup : b.params.Nodup := f.nodup_params hf.checked.nodup hb
    refine .inl (.wait hat hops hterm hlen ?_ (by rw [hsize, hsize']) ?_ hrest hjump)
    · intro n p a hp ha
      have hmark : ∀ v ∈ b.params, HasMark regs.size v := by
        intro v hv
        rw [← hsize', hat.size]
        exact hf.checked.range v (hdef v hv)
      have himg := reg_assign?_getElem hset hnodup hmark hp
      rw [getElem?_map, ha, Option.map_some, Option.some.injEq] at himg
      exact himg
    · intro v hv hvplain
      rw [hplain v hv hvplain]
      refine (reg_assign?_of_not_mem hset hnonneg (hf.checked.range v hv).1 fun hmem => ?_).symm
      exact hvplain i b hb ⟨hops, _, hterm⟩ hmem

lemma map_reg_args (hf : f.Valid m) (hlocal : f.BareLocal) {k : Nat}
    (hb : f.blocks[i]? = some b) {op : Op} (hop : b.ops[k]? = some op)
    (hregs : ∀ v ∈ f.defined, f.Visible i v → reg regs' v = reg regs v) :
    op.args.map (reg regs') = op.args.map (reg regs) := by
  have hmem := mem_of_getElem? hop
  have hcheck := hf.checked.blockAt hb
  refine map_congr_left fun v hv => hregs v (hcheck.operands op hmem v hv) ?_
  exact (hlocal.plain_operand hb hmem hv).visible i

lemma map_reg_beyond (hf : f.Valid m) (hlocal : f.BareLocal)
    (hb : f.blocks[i]? = some b) {next : Edge} (hterm : b.term = .br next)
    (hlen : e.args.length = b.params.length)
    (hparams : ∀ (n : Nat) (p a : ValueId), b.params[n]? = some p → e.args[n]? = some a →
      reg regs' a = reg regs p) (hregs : ∀ v ∈ f.defined, f.Plain v → reg regs' v = reg regs v) :
    (beyond b.params next e).args.map (reg regs') = next.args.map (reg regs) := by
  have hnodup : b.params.Nodup := f.nodup_params hf.checked.nodup hb
  rw [map_map]
  refine map_congr_left fun v hv => ?_
  have huse : v ∈ b.term.uses := mem_uses_of_mem_edges (by simp [hterm, Terminator.edges]) hv
  rw [Function.comp_apply]
  rcases passed_cases hnodup hlen v with ⟨hnot, heq⟩ | ⟨n, a, hp, ha, heq⟩
  · rw [heq]
    exact hregs v ((hf.checked.blockAt hb).uses v huse) ((hlocal.visible_use hb huse).plain hb hnot)
  · rw [heq]
    exact hparams n v a hp ha

lemma refines_redirect {env : Env σ} (hf : f.Valid m) (hlocal : f.BareLocal) (index : Nat)
    (hfault : funcFault? f = none) : Refines env m f (redirect f index) := by
  rw [funcFault?_eq_none_iff] at hfault
  refine ⟨RedirectRel f index, ?_⟩
  constructor
  case func =>
    intro fr fr' h
    cases h with
    | same hat _ _ | wait hat _ _ _ _ _ _ _ _ => exact ⟨hat.func, rfl, rfl⟩
  case enter =>
    intro args depth fr h
    obtain ⟨hdepth, i, b, regs, rfl, hentry, hat, hset⟩ := at_of_enter h
    exact ⟨_, enter_eq_ok_iff.2 ⟨hdepth, i, _, _, hentry, redirect_getElem?_of_eq hat.block,
      hset, rfl⟩, .same hat rfl fun _ _ _ => rfl⟩
  case done =>
    intro fr fr' values h hops hdone
    cases h with
    | @same before i k b _ regs hat hsize hregs =>
      refine ⟨hops, ?_⟩
      have hagree : ∀ v ∈ b.term.uses, reg regs v = reg fr.regs v := fun v hv =>
        hregs v ((hf.checked.blockAt hat.block).uses v hv) (hlocal.visible_use hat.block hv)
      obtain ⟨g, -, hterm⟩ := exists_mapEdges f index i b
      rw [hat.term] at hdone
      rw [hterm]
      exact nextOf_mapEdges rfl hagree hdone
    | wait hat _ hterm _ _ _ _ _ _ =>
      rw [hat.term, hterm] at hdone
      cases hdone
  case jump =>
    intro fr fr' next edge h hops hnext hjump
    cases h with
    | @same before i k b _ regs hat hsize hregs =>
      have hcheck := hf.checked.blockAt hat.block
      have hagree : ∀ v ∈ b.term.uses, reg regs v = reg fr.regs v := fun v hv =>
        hregs v (hcheck.uses v hv) (hlocal.visible_use hat.block hv)
      obtain ⟨j, c, regs₁, rfl, hedge, htarget, hsucc, hat', hset⟩ := hat.jump hnext hjump
      rw [hat.term] at hnext
      obtain ⟨g, hforwards, hterm⟩ := exists_mapEdges f index i b
      have hlast : nextOf (redirect f index) regs (redirected f index i b).term = .jump (g edge) := by
        rw [hterm]
        exact nextOf_mapEdges rfl hagree hnext
      have hargs : edge.args.map (reg regs) = edge.args.map (reg fr.regs) :=
        map_congr_left fun v hv => hagree v (mem_uses_of_mem_edges hedge hv)
      have htype := (hcheck.edges edge hedge).types_eq htarget hat'.block
      rw [← hargs] at hset
      have hplain : ∀ v ∈ f.defined, f.Plain v → reg regs v = reg fr.regs v :=
        fun v hv hvplain => hregs v hv (hvplain.visible i)
      rw [hops]
      rcases RedirectRel.arrive hf hat' htarget (by simpa using congrArg length htype) hset
        hsize hplain (hforwards edge) hlast with hr | ⟨next', hjump', hr⟩
      · exact .inl hr
      · exact .inr ⟨rfl, _, next', hlast, hjump', hr⟩
    | @wait before i b _ regs term taken e last hat hnil hterm hlen hparams hsize hregs hchain hlast =>
      obtain ⟨j, c, regs₁, rfl, hedge, htarget, hsucc, hat', hset⟩ := hat.jump hnext hjump
      rw [hat.term, hterm, nextOf, Next.jump.injEq] at hnext
      subst hnext
      have htype := ((hf.checked.blockAt hat.block).edges taken hedge).types_eq htarget hat'.block
      rw [← map_reg_beyond hf hlocal hat.block hterm hlen hparams hregs] at hset
      have htarget' : (beyond b.params taken e).target = (j : Int) := htarget
      have hlen' : (beyond b.params taken e).args.length = c.params.length := by
        simpa using congrArg length htype
      rcases RedirectRel.arrive hf hat' htarget' hlen' hset hsize hregs hchain hlast with
        hr | ⟨next', hjump', hr⟩
      · exact .inl hr
      · exact .inr ⟨rfl, last, next', hlast, hjump', hr⟩
  case op =>
    intro fr fr' op rest regs₁ world world' h hops hcode hexec
    cases h with
    | @same before i k b _ regs hat hsize hregs =>
      obtain ⟨hop, hrest⟩ := hat.getElem? hops
      have hmem := mem_of_getElem? hop
      have hblock := Array.mem_of_getElem? hat.block
      have hname : (redirect f index).name = f.name := rfl
      obtain ⟨images, regs₁', hset, hset', hexec'⟩ :=
        execOp_rename (hf.built b hblock op hmem) (hfault b hblock op hmem) hcode rfl
          (map_reg_args hf hlocal hat.block hop hregs) rfl hname rfl hexec
      refine .inr ⟨op, rest, regs₁', hops, hcode, hexec', ?_⟩
      refine .same (hat.next hops (size_assign? hset)) ?_ fun v hv hvisible => ?_
      · rw [size_assign? hset', size_assign? hset, hsize]
      · exact reg_assign?_congr hsize hset' hset (.inr (hregs v hv hvisible))
    | wait hat hnil _ _ _ _ _ _ _ =>
      rw [hat.ops, hnil] at hops
      cases hops
  case call =>
    intro fr fr' op rest out regs₁ h hops hcode hset
    cases h with
    | @same before i k b _ regs hat hsize hregs =>
      obtain ⟨hop, hrest⟩ := hat.getElem? hops
      obtain ⟨regs₁', hset'⟩ := exists_reassign? hset regs
      refine ⟨op, rest, regs₁', hops, hcode, rfl, map_reg_args hf hlocal hat.block hop hregs,
        hset', ?_⟩
      refine .same (hat.next hops (size_assign? hset)) ?_ fun v hv hvisible => ?_
      · rw [size_assign? hset', size_assign? hset, hsize]
      · exact reg_assign?_congr hsize hset' hset (.inr (hregs v hv hvisible))
    | wait hat hnil _ _ _ _ _ _ _ =>
      rw [hat.ops, hnil] at hops
      cases hops

lemma replaces_redirectAll (env : Env σ) (hf : f.Valid m) (hlocal : f.BareLocal) :
    (redirectAll f).Valid m ∧ (redirectAll f).BareLocal ∧ Replaces env m f (redirectAll f) := by
  unfold redirectAll
  generalize range f.blocks.size = indices
  induction indices generalizing f with
  | nil => exact ⟨hf, hlocal, .refl env m f⟩
  | cons index rest ih =>
    have hstep : Replaces env m f (redirect f index) := by
      refine ⟨rfl, rfl, rfl, rfl, fun hfault => ?_, refines_redirect hf hlocal index⟩
      rw [funcFault?_eq_none_iff] at hfault ⊢
      intro b' hmem
      obtain ⟨i, hb'⟩ := Array.mem_iff_getElem?.1 hmem
      obtain ⟨b, hb, rfl⟩ := exists_of_redirect hb'
      exact hfault b (Array.mem_of_getElem? hb)
    obtain ⟨hvalid, hbare, hrepl⟩ :=
      ih (valid_redirect hf hlocal index) (bareLocal_redirect hf hlocal index)
    exact ⟨hvalid, hbare, hstep.trans hrepl⟩

end Sierra.Machine
