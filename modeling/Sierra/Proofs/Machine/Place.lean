import Sierra.Proofs.Ir.Rename
import Sierra.Proofs.Machine.Registers

/-!
# The place of an activation

`At` records that an activation stands before an operation and came on a way through the block
graph, whatever the registers hold.
-/

namespace Sierra.Ir

variable {f : Func} {c : Block}

lemma Func.block?_eq_some_iff {id : Int} {b : Block} :
    f.block? id = some b ↔ ∃ i : Nat, id = (i : Int) ∧ f.blocks[i]? = some b := by
  have hdef : f.block? id = if id < 0 then none else f.blocks[id.toNat]? := rfl
  rw [hdef]
  constructor
  · intro h
    split at h
    · cases h
    · exact ⟨id.toNat, by omega, h⟩
  · rintro ⟨i, rfl, h⟩
    rw [if_neg (by omega), Int.toNat_natCast, h]

lemma Func.withBlocks_block? {R : Block → Block → Prop} {blocks : List Block}
    (h : List.Forall₂ R f.blocks.toList blocks) {id : BlockId}
    (hc : f.block? id = some c) : ∃ c', (f.withBlocks blocks).block? id = some c' ∧ R c c' := by
  obtain ⟨j, hj, hc⟩ := block?_eq_some_iff.1 hc
  obtain ⟨c', hc', hr⟩ := (withBlocks_getElem? h j).1 c hc
  exact ⟨c', block?_eq_some_iff.2 ⟨j, hj, hc'⟩, hr⟩

@[simp] lemma Func.block?_natCast (f : Func) (i : Nat) : f.block? (i : Int) = f.blocks[i]? := by
  have hdef : f.block? (i : Int) = if (i : Int) < 0 then none else f.blocks[(i : Int).toNat]? := rfl
  rw [hdef, if_neg (by omega), Int.toNat_natCast]

lemma Edge.Typed.types_eq {e : Edge} {j : Nat} (h : e.Typed f) (hj : e.target = (j : Int))
    (hc : f.blocks[j]? = some c) : e.args.map f.typeOf = c.params.map f.typeOf := by
  obtain ⟨c', hc', htype⟩ := h
  rw [hj, Func.block?_natCast, hc, Option.some.injEq] at hc'
  rw [hc', htype]

end Sierra.Ir

namespace Sierra.Machine

open Ir Func Nat Terminator List

variable {regs regs' : Array Image} {e edge : Edge} {f f' : Func} {m : Module} {op : Op}
  {t : Terminator} {v : ValueId} {args images : List Image} {rest : List Op} {env : Env σ}
  {depth : Nat} {σ : Type}

/-! ## Ends of blocks -/

def switchEdge (z : Nat) (cases : List (Nat × Edge)) (default : Edge) : Edge :=
  ((if z < pow2 64 then cases.find? fun case => case.1 == z else none).map (·.2)).getD default

lemma nextOf_switch (f : Func) (regs : Array Image) (value : ValueId) (cases : List (Nat × Edge))
    (default : Edge) (listed : Bool) :
    nextOf f regs (.switch value cases default listed) =
      .jump (switchEdge (reg regs value).word cases default) := by
  simp only [nextOf, switchEdge]
  split
  · next hcase => rw [hcase, Option.map_some, Option.getD_some]
  · next hcase => rw [hcase, Option.map_none, Option.getD_none]

lemma switchEdge_mem (z : Nat) (cases : List (Nat × Edge)) (default : Edge) :
    switchEdge z cases default ∈ cases.map (·.2) ++ [default] := by
  unfold switchEdge
  cases hcase : if z < pow2 64 then cases.find? fun case => case.1 == z else none with
  | none => simp
  | some case =>
    split at hcase
    · exact mem_append_left _ (mem_map_of_mem (mem_of_find?_eq_some hcase))
    · cases hcase

lemma switchEdge_map (g : Edge → Edge) (z : Nat) (cases : List (Nat × Edge)) (default : Edge) :
    switchEdge z (cases.map fun case => (case.1, g case.2)) (g default) =
      g (switchEdge z cases default) := by
  unfold switchEdge
  split
  · rw [find?_map]
    simp only [Function.comp_def]
    cases cases.find? fun case => case.1 == z <;> rfl
  · rfl

lemma mem_edges_of_nextOf (h : nextOf f regs t = .jump e) : e ∈ t.edges := by
  cases t with
  | br edge =>
    simp only [nextOf, Next.jump.injEq] at h
    simp [edges, h]
  | condBr cond yes no =>
    simp only [nextOf, Next.jump.injEq] at h
    rw [← h, edges]
    split <;> simp
  | switch value cases default listed =>
    rw [nextOf_switch, Next.jump.injEq] at h
    rw [← h]
    exact switchEdge_mem _ cases default
  | ret values | trap code message | none => simp [nextOf] at h

lemma mem_uses_of_mem_edges (he : e ∈ t.edges) (hv : v ∈ e.args) : v ∈ t.uses := by
  exact mem_append_right _ (mem_flatMap.2 ⟨e, he, hv⟩)

def Next.onEdge (g : Edge → Edge) : Next → Next
  | .jump e => .jump (g e)
  | next => next

lemma nextOf_mapUses {g : ValueId → ValueId} {next : Next} (hname : f'.name = f.name)
    (hregs : ∀ v ∈ t.uses, reg regs' (g v) = reg regs v) (h : nextOf f regs t = next) :
    nextOf f' regs' (t.mapUses g) = next.onEdge (onArgs g) := by
  subst h
  cases t with
  | condBr cond yes no =>
    simp only [mapUses, nextOf, hregs cond (by simp [uses]), Next.onEdge]
    split <;> rfl
  | switch value cases default listed =>
    rw [mapUses, nextOf_switch, nextOf_switch, hregs value (by simp [uses]),
      switchEdge_map (onArgs g), Next.onEdge]
  | ret vs =>
    simp only [Terminator.mapUses, nextOf, map_map, Next.onEdge, Next.done.injEq]
    exact map_congr_left fun v hv => hregs v (by simp [Terminator.uses, hv])
  | trap code message => simp [mapUses, nextOf, hname, Next.onEdge]
  | _ => rfl

lemma nextOf_congr_uses (hname : f'.name = f.name) (h : ∀ v ∈ t.uses, reg regs' v = reg regs v) :
    nextOf f' regs' t = nextOf f regs t := by
  have hsame := nextOf_mapUses (g := id) hname h rfl
  rw [mapUses_id] at hsame
  rw [hsame]
  cases nextOf f regs t <;> simp [Next.onEdge, onArgs]

lemma nextOf_mapEdges {g : Edge → Edge} {next : Next} (hname : f'.name = f.name)
    (hregs : ∀ v ∈ t.uses, reg regs' v = reg regs v) (h : nextOf f regs t = next) :
    nextOf f' regs' (t.mapEdges g) = next.onEdge g := by
  rw [← h, ← nextOf_congr_uses hname hregs]
  cases t with
  | condBr cond yes no =>
    simp only [mapEdges, nextOf, Next.onEdge]
    split <;> rfl
  | switch value cases default listed =>
    rw [mapEdges, nextOf_switch, nextOf_switch, switchEdge_map g, Next.onEdge]
  | _ => rfl

lemma jump?_eq_some_iff {frame next : Frame} :
    jump? frame edge = some next ↔ ∃ (j : Nat) (target : Block) (regs : Array Image),
      edge.target = (j : Int) ∧ frame.func.blocks[j]? = some target ∧
      assign? frame.regs target.params (edge.args.map (reg frame.regs)) = some regs ∧
      next = { frame with regs := regs, ops := target.ops, term := target.term } := by
  rw [jump?]
  simp only [Option.bind_eq_bind, Option.bind_eq_some_iff, Option.pure_def, Option.some.injEq,
    Func.block?_eq_some_iff]
  constructor
  · rintro ⟨target, ⟨j, hj, htarget⟩, regs, hregs, rfl⟩
    exact ⟨j, target, regs, hj, htarget, hregs, rfl⟩
  · rintro ⟨j, target, regs, hj, htarget, hregs, rfl⟩
    exact ⟨target, ⟨j, hj, htarget⟩, regs, hregs, rfl⟩

lemma enter_eq_ok_iff {frame : Frame} :
    enter env f args depth = .ok frame ↔ depth < env.maxDepth ∧
      ∃ (i : Nat) (entry : Block) (regs : Array Image),
        f.entry = (i : Int) ∧ f.blocks[i]? = some entry ∧
        assign? (Array.replicate f.values.size []) entry.params args = some regs ∧
        frame = ⟨f, regs, entry.ops, entry.term, depth⟩ := by
  unfold enter
  constructor
  · intro h
    split at h
    · cases h
    refine ⟨by omega, ?_⟩
    split at h
    · cases h
    next entry hentry =>
    obtain ⟨i, hi, hblock⟩ := block?_eq_some_iff.1 hentry
    split at h
    · cases h
    · next regs hregs =>
      rw [Except.ok.injEq] at h
      exact ⟨i, entry, regs, hi, hblock, hregs, h.symm⟩
  · rintro ⟨hdepth, i, entry, regs, hi, hblock, hregs, rfl⟩
    rw [if_neg (by omega), block?_eq_some_iff.2 ⟨i, hi, hblock⟩]
    dsimp only
    rw [hregs]

/-! ## Places -/

/-- The activation stands before operation `k` of the block `b` at place `i`, reached over the
blocks `before`. -/
structure At (f : Func) (before : List Nat) (i : Nat) (b : Block) (k : Nat) (frame : Frame) :
    Prop where
  func : frame.func = f
  path : f.Path before i
  block : f.blocks[i]? = some b
  le : k ≤ b.ops.length
  ops : frame.ops = b.ops.drop k
  term : frame.term = b.term
  size : frame.regs.size = f.values.size

variable {f : Func} {before : List Nat} {i k : Nat} {b : Block} {frame : Frame}

lemma at_of_enter (h : enter env f args depth = .ok frame) :
    depth < env.maxDepth ∧ ∃ (i : Nat) (b : Block) (regs : Array Image),
      frame = ⟨f, regs, b.ops, b.term, depth⟩ ∧ f.entry = (i : Int) ∧ At f [] i b 0 frame ∧
      assign? (Array.replicate f.values.size []) b.params args = some regs := by
  obtain ⟨hdepth, i, b, regs, hi, hblock, hregs, rfl⟩ := enter_eq_ok_iff.1 h
  refine ⟨hdepth, i, b, regs, rfl, hi, ⟨rfl, .entry hi, hblock, zero_le _, rfl, rfl, ?_⟩, hregs⟩
  rw [size_assign? hregs, Array.size_replicate]

lemma drop_eq_cons {ops : List Op} (h : ops[k]? = some op) :
    ops.drop k = op :: ops.drop (k + 1) := by
  obtain ⟨hk, rfl⟩ := List.getElem?_eq_some_iff.1 h
  exact List.drop_eq_getElem_cons hk

section

variable (h : At f before i b k frame)

include h

lemma At.getElem?
    (hops : frame.ops = op :: rest) : b.ops[k]? = some op ∧ rest = b.ops.drop (k + 1) := by
  have hdrop : b.ops.drop k = op :: rest := h.ops.symm.trans hops
  have hk : k < b.ops.length := by
    refine Nat.lt_of_not_le fun hle => ?_
    cases (drop_eq_nil_of_le hle).symm.trans hdrop
  rw [drop_eq_getElem_cons hk, cons.injEq] at hdrop
  exact ⟨by rw [getElem?_eq_getElem hk, hdrop.1], hdrop.2.symm⟩

lemma At.eq_length (hops : frame.ops = []) : k = b.ops.length := by
  have hdrop : b.ops.drop k = [] := h.ops.symm.trans hops
  rw [drop_eq_nil_iff] at hdrop
  exact Nat.le_antisymm h.le hdrop

lemma At.next (hops : frame.ops = op :: rest) (hsize : regs.size = frame.regs.size) :
    At f before i b (k + 1) { frame with regs := regs, ops := rest } := by
  obtain ⟨hop, hrest⟩ := h.getElem? hops
  have hk : k < b.ops.length := (List.getElem?_eq_some_iff.1 hop).1
  exact ⟨h.func, h.path, h.block, hk, hrest, h.term, hsize.trans h.size⟩

lemma At.jump (hnext : nextOf f' frame.regs frame.term = .jump edge) {next : Frame}
    (hjump : jump? frame edge = some next) :
    ∃ (j : Nat) (c : Block) (regs : Array Image), next = ⟨f, regs, c.ops, c.term, frame.depth⟩ ∧
      edge ∈ b.term.edges ∧ edge.target = (j : Int) ∧ f.Succ i j ∧ At f (i :: before) j c 0 next ∧
      assign? frame.regs c.params (edge.args.map (reg frame.regs)) = some regs := by
  obtain ⟨j, c, regs, hj, hblock, hregs, rfl⟩ := jump?_eq_some_iff.1 hjump
  rw [h.func] at hblock
  have hedge : edge ∈ b.term.edges := by
    rw [← h.term]
    exact mem_edges_of_nextOf hnext
  have hsucc : f.Succ i j := ⟨b, h.block, edge, hedge, hj⟩
  refine ⟨j, c, regs, by rw [h.func], hedge, hj, hsucc,
    ⟨h.func, h.path.step hsucc, hblock, zero_le _, rfl, rfl, ?_⟩, hregs⟩
  rw [size_assign? hregs, h.size]

variable (hcheck : f.Checked m)

include hcheck

lemma At.exists_jump
    (hnext : nextOf f' frame.regs frame.term = .jump edge) : ∃ next, jump? frame edge = some next := by
  rw [h.term] at hnext
  obtain ⟨c, hc, htype⟩ := (hcheck.blockAt h.block).edges edge (mem_edges_of_nextOf hnext)
  obtain ⟨j, hj, hc⟩ := block?_eq_some_iff.1 hc
  have hlen : c.params.length ≤ (edge.args.map (reg frame.regs)).length := by
    simpa using Nat.le_of_eq (congrArg length htype).symm
  obtain ⟨regs, hset⟩ := exists_assign? hlen frame.regs
  rw [← h.func] at hc
  exact ⟨_, jump?_eq_some_iff.2 ⟨j, c, regs, hj, hc, hset, rfl⟩⟩

lemma At.range (hv : v ∈ b.defs) : HasMark f.values.size v :=
  hcheck.range v (f.mem_defined_iff.2 ⟨i, b, h.block, hv⟩)

lemma At.hasMark (hv : f.InScope i b k v) : HasMark frame.regs.size v := by
  rw [h.size]
  exact hcheck.range v (hv.mem_defined h.block h.path)

lemma At.reg_results (hop : b.ops[k]? = some op)
    (hset : assign? regs op.results images = some regs')
    (hv : f.InScope i b k v) : reg regs' v = reg regs v := by
  have hres : ∀ w ∈ op.results, (0 : Int) ≤ w := fun w hw =>
    (h.range hcheck (Block.mem_defs_of_mem_results hop hw)).1
  refine reg_assign?_of_not_mem hset hres (h.hasMark hcheck hv).1 fun hmem => ?_
  exact not_inScope_result hcheck.nodup h.path h.block hop hmem hv

end

lemma At.reg_params (h : At f before i b 0 frame) (hcheck : f.Checked m)
    (hset : assign? regs b.params images = some regs')
    (hv : f.Avail i v) : reg regs' v = reg regs v := by
  have hparams : ∀ w ∈ b.params, (0 : Int) ≤ w := fun w hw =>
    (h.range hcheck (mem_append_left _ hw)).1
  refine reg_assign?_of_not_mem hset hparams (h.hasMark hcheck (.inl hv)).1 fun hmem => ?_
  have hdef : f.Defines i v := ⟨b, h.block, mem_append_left _ hmem⟩
  exact not_avail_of_defines hcheck.nodup h.path hdef hv

end Sierra.Machine
