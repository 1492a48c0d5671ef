import Mathlib.Algebra.GroupWithZero.Nat
import Sierra.Proofs.Ir.Replace
import Sierra.Proofs.Optimize.Compact

/-!
# Joining blocks

At every moment the blocks left are chains of given blocks (`Spans`), each joined to the one before
by its only jump (`Linked`); every join keeps this (`Joined.join`, `joined_mergeFrom`). The counts
of jumps stay good because a join never adds an edge into a block.
-/

namespace Sierra.Ir.Flow

open List Option Func

variable {blocks : Array Block} {counts : Array Nat} {b target : Block} {f : Func} {ops : List Op}
  {args : List ValueId} {s : Merge} {c i j : Nat} {r : Replacements} {chain : List Nat}
  {term : Terminator} {m : Module}

/-! ## Totals over blocks -/

def total (g : Block → Nat) (blocks : Array Block) : Nat := (blocks.toList.map g).sum

lemma total_set (g : Block → Nat) (b' : Block) (hb : blocks[i]? = some b) :
    total g (blocks.setIfInBounds i b') + g b = total g blocks + g b' := by
  have hlt := (Array.getElem?_eq_some_iff.1 hb).1
  have hset : ∀ x : Block, total g (blocks.setIfInBounds i x) =
      ((blocks.toList.map g).take i).sum + g x + ((blocks.toList.map g).drop (i + 1)).sum := by
    intro x
    rw [total, Array.toList_setIfInBounds, map_set, sum_set, if_pos (by simpa using hlt)]
  have hkept := hset b
  rw [show blocks.setIfInBounds i b = blocks by grind] at hkept
  rw [hset]
  omega

def edgesInto (target : BlockId) (b : Block) : Nat := (b.term.edges.map (·.target)).count target

lemma edgesInto_pos {target : BlockId} {e : Edge} (he : e ∈ b.term.edges)
    (htarget : e.target = target) : 0 < edgesInto target b :=
  count_pos_iff.2 (mem_map.2 ⟨e, he, htarget⟩)

lemma edgesInto_add_le (target : BlockId) {c : Block}
    (hb : blocks[i]? = some b) (hc : blocks[j]? = some c) (hne : i ≠ j) :
    edgesInto target b + edgesInto target c ≤ total (edgesInto target) blocks := by
  -- Both blocks are exchanged for one without edges.
  let bare : Block := { id := 0 }
  have hbare : edgesInto target bare = 0 := rfl
  have hc' : (blocks.setIfInBounds i bare)[j]? = some c := by
    rw [Array.getElem?_setIfInBounds, if_neg hne, hc]
  have h₁ := total_set (edgesInto target) bare hb
  have h₂ := total_set (edgesInto target) bare hc'
  omega

lemma foldlM_countEdge? {targets : List BlockId} (hnonneg : ∀ t ∈ targets, (0 : Int) ≤ t)
    (counts : Array Nat) :
    ∃ counts', targets.foldlM countEdge? counts = some counts' ∧
      ∀ (t n : Nat), counts[t]? = some n → counts'[t]? = some (n + targets.count (t : Int)) := by
  induction targets generalizing counts with
  | nil => exact ⟨counts, rfl, by simp⟩
  | cons target targets ih =>
    have h0 := hnonneg target mem_cons_self
    obtain ⟨i, hi⟩ := Int.eq_ofNat_of_zero_le h0
    subst hi
    obtain ⟨counts', hfold, hcounts⟩ :=
      ih (fun t ht => hnonneg t (mem_cons_of_mem _ ht)) (counts.modify i (· + 1))
    refine ⟨counts', ?_, fun t n hn => ?_⟩
    · exact hfold
    · by_cases hit : i = t
      · subst hit
        rw [hcounts i (n + 1) (by rw [Array.getElem?_modify, if_pos rfl, hn]; rfl), count_cons_self]
        congr 1
        omega
      · rw [hcounts t n (by rw [Array.getElem?_modify, if_neg hit, hn]), count_cons_of_ne]
        exact fun h => hit (Int.ofNat_inj.1 h)

def CountsEdges (f : Func) (counts : Array Nat) : Prop :=
  ∀ t : Nat, t < f.blocks.size → counts[t]? = some (total (edgesInto (t : Int)) f.blocks)

lemma exists_predecessors? (hf : f.Checked m) :
    ∃ counts, predecessors? f = some counts ∧ CountsEdges f counts := by
  have hnonneg : ∀ t ∈ f.blocks.toList.flatMap fun b => b.term.edges.map (·.target),
      (0 : Int) ≤ t := by
    intro t ht
    obtain ⟨b, hb, ht⟩ := mem_flatMap.1 ht
    obtain ⟨e, he, rfl⟩ := mem_map.1 ht
    obtain ⟨c, hc, -⟩ := (hf.block b (Array.mem_toList_iff.1 hb)).edges e he
    obtain ⟨j, hj, -⟩ := block?_eq_some_iff.1 hc
    rw [hj]
    exact Int.natCast_nonneg j
  obtain ⟨counts, hcounts, hcount⟩ := foldlM_countEdge? hnonneg (Array.replicate f.blocks.size 0)
  refine ⟨counts, hcounts, fun t ht => ?_⟩
  rw [hcount t 0 (by rw [Array.getElem?_replicate, if_pos ht]), Nat.zero_add, count_flatMap]
  rfl

/-! ## Chains of joined blocks -/

/-- The jump of `c` is the only one to `j`, whose parameters have been replaced by what it passes.
-/
structure Linked (f : Func) (s : Merge) (c j : Nat) (args : List ValueId) : Prop where
  jump : ∃ b, f.blocks[c]? = some b ∧ b.term = .br ⟨(j : Int), args⟩
  only : ∀ i, f.Succ i j → i = c
  entry : f.entry ≠ (j : Int)
  merged : s.merged[j]? = some true
  bound : ∀ b, f.blocks[j]? = some b → ∀ (n : Nat) (p a : ValueId), b.params[n]? = some p →
    args[n]? = some a → s.replaced.next[p]? = some a

section

variable (h : Linked f s c j args)
include h

lemma Linked.term_eq (hb : f.blocks[c]? = some b) : b.term = .br ⟨(j : Int), args⟩ := by
  obtain ⟨b', hb', hterm⟩ := h.jump
  rw [hb, some.injEq] at hb'
  rw [hb', hterm]

lemma Linked.mem_edges (hb : f.blocks[c]? = some b) : ⟨(j : Int), args⟩ ∈ b.term.edges := by
  simp [h.term_eq hb, Terminator.edges]

lemma Linked.succ : f.Succ c j := by
  obtain ⟨b, hb, -⟩ := h.jump
  exact ⟨b, hb, _, h.mem_edges hb, rfl⟩

lemma Linked.mem_uses (hb : f.blocks[c]? = some b) {a : ValueId}
    (ha : a ∈ args) : a ∈ b.term.uses :=
  Machine.mem_uses_of_mem_edges (h.mem_edges hb) ha

end

/-- The operations and the terminator are those of a chain of linked blocks. -/
inductive Spans (f : Func) (s : Merge) : List Nat → List Op → Terminator → Prop
  | last {c : Nat} {b : Block} (hb : f.blocks[c]? = some b) : Spans f s [c] b.ops b.term
  | more {c j : Nat} {b : Block} {args : List ValueId} {rest : List Nat} {ops : List Op}
      {term : Terminator} (hb : f.blocks[c]? = some b) (hlink : Linked f s c j args)
      (hrest : Spans f s (j :: rest) ops term) : Spans f s (c :: j :: rest) (b.ops ++ ops) term

lemma Spans.mono {s' : Merge} (hlinks : ∀ c j args, Linked f s c j args → Linked f s' c j args)
    (h : Spans f s chain ops term) : Spans f s' chain ops term := by
  induction h with
  | last hb => exact .last hb
  | more hb hlink _ ih => exact .more hb (hlinks _ _ _ hlink) ih

lemma Spans.exists_last (h : Spans f s chain ops term) :
    ∃ (c : Nat) (b : Block), f.blocks[c]? = some b ∧ b.term = term := by
  induction h with
  | @last c b hb => exact ⟨c, b, hb, rfl⟩
  | more _ _ _ ih => exact ih

lemma Spans.append
    (hlink : ∀ (c : Nat) (b : Block), f.blocks[c]? = some b → b.term = .br ⟨(j : Int), args⟩ →
      Linked f s c j args) {rest' : List Nat} {ops' : List Op} {term' : Terminator}
    (h' : Spans f s (j :: rest') ops' term') {rest : List Nat}
    (h : Spans f s (i :: rest) ops (.br ⟨(j : Int), args⟩)) :
    ∃ rest'', Spans f s (i :: rest'') (ops ++ ops') term' := by
  generalize hchain : i :: rest = chain at h
  generalize hterm : Terminator.br ⟨(j : Int), args⟩ = term at h
  induction h generalizing i rest with
  | @last c b hb =>
    obtain ⟨rfl, rfl⟩ : i = c ∧ rest = [] := by simpa using hchain
    exact ⟨j :: rest', .more hb (hlink i b hb hterm.symm) h'⟩
  | @more c k b args' more ops term hb hlink' hrest ih =>
    obtain ⟨rfl, rfl⟩ : i = c ∧ rest = k :: more := by simpa using hchain
    obtain ⟨rest'', hrest''⟩ := ih rfl hterm
    rw [append_assoc]
    exact ⟨k :: rest'', .more hb hlink' hrest''⟩

structure Joined (f : Func) (s : Merge) : Prop where
  blocks : s.blocks.size = f.blocks.size
  merged : s.merged.size = f.blocks.size
  shape : ∀ (i : Nat) (b' : Block), s.blocks[i]? = some b' →
    ∃ b, f.blocks[i]? = some b ∧ b'.id = b.id ∧ b'.params = b.params
  left : ∀ (i : Nat) (b' : Block), s.merged[i]? = some false → s.blocks[i]? = some b' →
    ∃ rest, Spans f s (i :: rest) b'.ops b'.term
  gone : ∀ (i : Nat) (b' : Block), s.merged[i]? = some true → s.blocks[i]? = some b' →
    b'.ops = [] ∧ b'.term = .trap .unreachable ""
  linked : ∀ j : Nat, s.merged[j]? = some true → ∃ c args, Linked f s c j args
  next : ∀ v w, s.replaced.next[v]? = some w →
    ∃ (c j : Nat) (args : List ValueId) (b : Block) (n : Nat), Linked f s c j args ∧
      f.blocks[j]? = some b ∧ b.params[n]? = some v ∧ args[n]? = some w
  edges : ∀ t : BlockId, total (edgesInto t) s.blocks ≤ total (edgesInto t) f.blocks
  into : ∀ j : Nat, s.merged[j]? = some true → total (edgesInto (j : Int)) s.blocks = 0
  defs : ∀ v, total (fun b => b.defs.count v) s.blocks = total (fun b => b.defs.count v) f.blocks

lemma joined_start (f : Func) :
    Joined f { blocks := f.blocks, merged := Array.replicate f.blocks.size false } := by
  have hmerged : ∀ i : Nat, (Array.replicate f.blocks.size false)[i]? ≠ some true := by
    simp [Array.getElem?_replicate]
  refine ⟨rfl, Array.size_replicate, fun i b hb => ⟨b, hb, rfl, rfl⟩, fun i b _ hb => ⟨[], .last hb⟩,
    ?_, ?_, ?_, fun t => Nat.le_refl _, ?_, fun v => rfl⟩
  · intro i b hi
    exact absurd hi (hmerged i)
  · intro j hj
    exact absurd hj (hmerged j)
  · intro v w h
    simp at h
  · intro j hj
    exact absurd hj (hmerged j)

/-! ## One join -/

lemma exists_bindAll? {params : List ValueId} (hnodup : params.Nodup)
    (hlen : params.length ≤ args.length)
    (hne : ∀ (n : Nat) (p a : ValueId), params[n]? = some p → args[n]? = some a → p ≠ a)
    (r : Replacements) :
    ∃ r', bindAll? r params args = some r' ∧
      (∀ (n : Nat) (p a : ValueId), params[n]? = some p → args[n]? = some a →
        r'.next[p]? = some a) ∧ ∀ v, v ∉ params → r'.next[v]? = r.next[v]? := by
  induction params generalizing args r with
  | nil => exact ⟨r, rfl, by simp, fun _ _ => rfl⟩
  | cons p params ih =>
    cases args with
    | nil => simp at hlen
    | cons a args =>
      rw [nodup_cons] at hnodup
      obtain ⟨r', hbind, hbound, hkeep⟩ := ih hnodup.2 (by simpa using hlen)
        (fun n q b hq hb => hne (n + 1) q b hq hb) (r.set p a)
      have hpa : p ≠ a := hne 0 p a rfl rfl
      refine ⟨r', hbind, fun n q b hq hb => ?_, fun v hv => ?_⟩
      · cases n with
        | zero =>
          rw [getElem?_cons_zero, some.injEq] at hq hb
          subst hq hb
          rw [hkeep p hnodup.1, Replacements.next_set hpa, if_pos rfl]
        | succ n => exact hbound n q b hq hb
      · rw [mem_cons, not_or] at hv
        rw [hkeep v hv.2, Replacements.next_set hpa, if_neg (Ne.symm hv.1)]

lemma ne_of_only_jump (hf : f.Valid m)
    (hb : f.blocks[c]? = some b) (htarget : f.blocks[j]? = some target) (hj : f.Reached j)
    (honly : ∀ i, f.Succ i j → i = c) (hentry : f.entry ≠ (j : Int)) {p a : ValueId}
    (hp : p ∈ target.params) (ha : a ∈ b.term.uses) : p ≠ a := by
  rintro rfl
  have hdef : f.Defines j p := ⟨target, htarget, mem_append_left _ hp⟩
  obtain ⟨before, hpath⟩ := hj
  obtain ⟨earlier, hpast, hnot⟩ := hpath.first
  cases hpast with
  | entry h => exact hentry h
  | @step before i _ hpath hsucc =>
    obtain rfl := honly i hsucc
    rw [mem_cons, not_or] at hnot
    rcases hf.dominated.term i b hb p ha with havail | hown
    · obtain ⟨d, hd, hdp⟩ := havail before hpath
      rw [hdp.unique hf.checked.nodup hdef] at hd
      exact hnot.2 hd
    · have hdef' : f.Defines i p := ⟨b, hb, Block.mem_defs_of_mem_defsBefore hown⟩
      exact hnot.1 (hdef.unique hf.checked.nodup hdef')

lemma eq_of_succ (hb : f.blocks[c]? = some b) (hterm : b.term = .br ⟨(j : Int), args⟩)
    (hcount : total (edgesInto (j : Int)) f.blocks = 1) (h : f.Succ i j) : i = c := by
  obtain ⟨b', hb', e, he, htarget⟩ := h
  have hpos := edgesInto_pos he htarget
  have hpos' : 0 < edgesInto (j : Int) b :=
    edgesInto_pos (e := ⟨(j : Int), args⟩) (by simp [hterm, Terminator.edges]) rfl
  refine Decidable.byContradiction fun hne => ?_
  have hle := edgesInto_add_le (j : Int) hb' hb hne
  omega

/-- The block `succ` at `j` may be joined to the block `p` at `i`. -/
structure Joinable (f : Func) (s : Merge) (i j : Nat) (p succ : Block) (args : List ValueId) :
    Prop where
  source : s.blocks[i]? = some p
  target : s.blocks[j]? = some succ
  source_left : s.merged[i]? = some false
  target_left : s.merged[j]? = some false
  ne : i ≠ j
  entry : f.entry ≠ (j : Int)
  term : p.term = .br ⟨(j : Int), args⟩
  count : total (edgesInto (j : Int)) f.blocks = 1

abbrev withTail (p succ : Block) : Block := { p with ops := p.ops ++ succ.ops, term := succ.term }

abbrev husk (succ : Block) : Block := { succ with ops := [], term := .trap .unreachable "" }

abbrev joinedState (s : Merge) (i j : Nat) (p succ : Block) (r : Replacements) : Merge where
  blocks := (s.blocks.setIfInBounds i { p with ops := p.ops ++ succ.ops, term := succ.term }
    ).setIfInBounds j { succ with ops := [], term := .trap .unreachable "" }
  replaced := r
  merged := s.merged.setIfInBounds j true

section

variable {m : Module} {f : Func} {s : Merge} {i j : Nat} {p succ : Block} {args : List ValueId}

lemma joinedState_cases {b' : Block} (hb' : (joinedState s i j p succ r).blocks[c]? = some b') :
    (c = j ∧ b' = husk succ) ∨ c ≠ j ∧ (c = i ∧ b' = withTail p succ ∨ s.blocks[c]? = some b') := by
  grind

section

variable (h : Joinable f s i j p succ args)

include h

lemma Joinable.merged (r : Replacements) (x : Nat) :
    (joinedState s i j p succ r).merged[x]? = if x = j then some true else s.merged[x]? := by
  have hlt : j < s.merged.size := (Array.getElem?_eq_some_iff.1 h.target_left).1
  by_cases hx : j = x
  · subst hx
    simp [hlt]
  · simp [hx, Ne.symm hx]

lemma Joinable.total (g : Block → Nat) (r : Replacements) :
    Flow.total g (joinedState s i j p succ r).blocks + g p + g succ =
      Flow.total g s.blocks + g (withTail p succ) + g (husk succ) := by
  have htarget : (s.blocks.setIfInBounds i (withTail p succ))[j]? = some succ := by
    rw [Array.getElem?_setIfInBounds, if_neg h.ne, h.target]
  have h₁ := total_set g (withTail p succ) h.source
  have h₂ := total_set g (husk succ) htarget
  change Flow.total g ((s.blocks.setIfInBounds i (withTail p succ)).setIfInBounds j (husk succ)) +
    g p + g succ = _
  omega

lemma Joinable.edges (r : Replacements) (t : BlockId) :
    Flow.total (edgesInto t) (joinedState s i j p succ r).blocks + edgesInto t p =
      Flow.total (edgesInto t) s.blocks := by
  have htotal := h.total (edgesInto t) r
  have hmoved : edgesInto t (withTail p succ) = edgesInto t succ := rfl
  have htrap : edgesInto t (husk succ) = 0 := rfl
  omega

lemma Joinable.defs (r : Replacements) (v : ValueId) :
    Flow.total (fun b => b.defs.count v) (joinedState s i j p succ r).blocks =
      Flow.total (fun b => b.defs.count v) s.blocks := by
  have htotal := h.total (fun b => b.defs.count v) r
  simp only [Block.defs, count_append, flatMap_append, flatMap_nil, count_nil] at htotal ⊢
  omega

end

/-- Links stay, since the parameters of the joined block have not been replaced before. -/
lemma Linked.joinedState (hf : f.Checked m) (h : Joinable f s i j p succ args)
    (htarget : f.blocks[j]? = some target)
    (hkeep : ∀ v, v ∉ target.params → r.next[v]? = s.replaced.next[v]?) {k : Nat}
    {vs : List ValueId} (hlink : Linked f s c k vs) :
    Linked f (Flow.joinedState s i j p succ r) c k vs := by
  have hkj : k ≠ j := by
    rintro rfl
    have hmerged := hlink.merged
    cases h.target_left.symm.trans hmerged
  refine ⟨hlink.jump, hlink.only, hlink.entry, ?_, fun b hb n v a hv ha => ?_⟩
  · rw [h.merged, if_neg hkj]
    exact hlink.merged
  · have hnot : v ∉ target.params := by
      intro hmem
      have hk : f.Defines k v := ⟨b, hb, mem_append_left _ (mem_of_getElem? hv)⟩
      have hj : f.Defines j v := ⟨target, htarget, mem_append_left _ hmem⟩
      exact hkj (hk.unique hf.nodup hj)
    rw [hkeep v hnot]
    exact hlink.bound b hb n v a hv ha

lemma Joined.joinedState (hf : f.Checked m) (hs : Joined f s) (h : Joinable f s i j p succ args)
    (htarget : f.blocks[j]? = some target) (hlen : args.length = target.params.length)
    (hbound : ∀ (n : Nat) (v a : ValueId), target.params[n]? = some v → args[n]? = some a →
      r.next[v]? = some a) (hkeep : ∀ v, v ∉ target.params → r.next[v]? = s.replaced.next[v]?) :
    Joined f (Flow.joinedState s i j p succ r) := by
  have hlinks : ∀ c k vs, Linked f s c k vs → Linked f (Flow.joinedState s i j p succ r) c k vs :=
    fun c k vs => Linked.joinedState hf h htarget hkeep
  have hnew : ∀ (c : Nat) (b : Block), f.blocks[c]? = some b → b.term = .br ⟨(j : Int), args⟩ →
      Linked f (Flow.joinedState s i j p succ r) c j args := by
    intro c b hb hterm
    refine ⟨⟨b, hb, hterm⟩, fun x => eq_of_succ hb hterm h.count, h.entry, ?_, ?_⟩
    · rw [h.merged, if_pos rfl]
    · intro b' hb' n v a hv ha
      cases htarget.symm.trans hb'
      exact hbound n v a hv ha
  obtain ⟨rest, hspans⟩ := hs.left i p h.source_left h.source
  rw [h.term] at hspans
  obtain ⟨c, b, hb, hterm⟩ := hspans.exists_last
  obtain ⟨rest', hspans'⟩ := hs.left j succ h.target_left h.target
  obtain ⟨rest'', hjoined⟩ := Spans.append hnew (hspans'.mono hlinks) (hspans.mono hlinks)
  refine ⟨?_, ?_, ?_, ?_, ?_, ?_, ?_, ?_, ?_, ?_⟩
  · rw [Array.size_setIfInBounds, Array.size_setIfInBounds, hs.blocks]
  · rw [Array.size_setIfInBounds, hs.merged]
  · intro x b' hb'
    rcases joinedState_cases hb' with ⟨rfl, rfl⟩ | ⟨-, ⟨rfl, rfl⟩ | hb'⟩
    · exact hs.shape x succ h.target
    · exact hs.shape x p h.source
    · exact hs.shape x b' hb'
  · intro x b' hx hb'
    rw [h.merged] at hx
    rcases joinedState_cases hb' with ⟨rfl, -⟩ | ⟨hxj, hb'⟩
    · rw [if_pos rfl] at hx
      cases hx
    · rw [if_neg hxj] at hx
      rcases hb' with ⟨rfl, rfl⟩ | hb'
      · exact ⟨rest'', hjoined⟩
      · obtain ⟨others, hothers⟩ := hs.left x b' hx hb'
        exact ⟨others, hothers.mono hlinks⟩
  · intro x b' hx hb'
    rw [h.merged] at hx
    rcases joinedState_cases hb' with ⟨-, rfl⟩ | ⟨hxj, hb'⟩
    · exact ⟨rfl, rfl⟩
    · rw [if_neg hxj] at hx
      rcases hb' with ⟨rfl, -⟩ | hb'
      · cases h.source_left.symm.trans hx
      · exact hs.gone x b' hx hb'
  · intro x hx
    rw [h.merged] at hx
    split at hx
    · next hxj =>
      subst hxj
      exact ⟨c, args, hnew c b hb hterm⟩
    · obtain ⟨c, vs, hlink⟩ := hs.linked x hx
      exact ⟨c, vs, hlinks c x vs hlink⟩
  · intro v w hvw
    by_cases hv : v ∈ target.params
    · obtain ⟨n, hn⟩ := mem_iff_getElem?.1 hv
      have hlt : n < args.length := by
        have := (List.getElem?_eq_some_iff.1 hn).1
        omega
      have ha := getElem?_eq_getElem hlt
      rw [hbound n v _ hn ha] at hvw
      exact ⟨c, j, args, target, n, hnew c b hb hterm, htarget, hn, by rw [ha, hvw]⟩
    · rw [hkeep v hv] at hvw
      obtain ⟨c, k, vs, b, n, hlink, hrest⟩ := hs.next v w hvw
      exact ⟨c, k, vs, b, n, hlinks c k vs hlink, hrest⟩
  · intro t
    have hedges := h.edges r t
    have hle := hs.edges t
    omega
  · intro x hx
    rw [h.merged] at hx
    have hedges := h.edges r (x : Int)
    split at hx
    · next hxj =>
      -- The one edge to the joined block was the jump that is gone.
      subst hxj
      have hpos : 0 < edgesInto (x : Int) p :=
        edgesInto_pos (e := ⟨(x : Int), args⟩) (by simp [h.term, Terminator.edges]) rfl
      have hle := hs.edges (x : Int)
      have hcount := h.count
      omega
    · have hzero := hs.into x hx
      omega
  · intro v
    rw [h.defs r v]
    exact hs.defs v

/-! ## The whole pass -/

lemma candidate?_cases (hf : f.Checked m) (hs : Joined f s) (hcounts : CountsEdges f counts)
    (hi : s.merged[i]? = some false) :
    candidate? f.entry counts s i = some none ∨
      ∃ (j : Nat) (p succ : Block) (args : List ValueId),
        candidate? f.entry counts s i = some (some (j, args)) ∧ Joinable f s i j p succ args := by
  have hlt : i < s.blocks.size := by
    have := (Array.getElem?_eq_some_iff.1 hi).1
    rw [hs.merged] at this
    rw [hs.blocks]
    exact this
  have hp := Array.getElem?_eq_getElem hlt
  generalize s.blocks[i] = p at hp
  obtain ⟨b, hb, hid, -⟩ := hs.shape i p hp
  rw [hf.place i b hb] at hid
  obtain ⟨rest, hspans⟩ := hs.left i p hi hp
  obtain ⟨c, b', hb', hterm⟩ := hspans.exists_last
  rw [candidate?, hp]
  dsimp only
  cases ht : p.term with
  | br edge =>
    dsimp only
    split
    · exact .inl rfl
    next hskip =>
    rw [not_or] at hskip
    obtain ⟨target, htarget, -⟩ := (hf.blockAt hb').edges edge
      (by rw [hterm, ht]; simp [Terminator.edges])
    obtain ⟨j, hj, htarget⟩ := block?_eq_some_iff.1 htarget
    obtain ⟨dest, args⟩ := edge
    subst hj
    have hjlt : j < f.blocks.size := (Array.getElem?_eq_some_iff.1 htarget).1
    have hcount := hcounts j hjlt
    have hjmerged : j < s.merged.size := by rw [hs.merged]; exact hjlt
    have hjblocks : j < s.blocks.size := by rw [hs.blocks]; exact hjlt
    have hmark := Array.getElem?_eq_getElem hjmerged
    have hsucc := Array.getElem?_eq_getElem hjblocks
    have hnonneg : ¬ (j : Int) < 0 := by omega
    rw [if_neg hnonneg]
    simp only [Int.toNat_natCast, hcount, hmark, bind_eq_bind, bind_some]
    split
    · next hgo =>
      refine .inr ⟨j, p, _, args, rfl, hp, hsucc, hi, by rw [hmark, hgo.2], ?_, ?_, ht, hgo.1⟩
      · rintro rfl
        exact hskip.1 hid.symm
      · exact Ne.symm hskip.2
    · exact .inl rfl
  | _ => exact .inl rfl

lemma exists_join? (hf : f.Valid m) (htrim : f.Trim) (hs : Joined f s)
    (h : Joinable f s i j p succ args) :
    ∃ r, join? s i j args = some (joinedState s i j p succ r) ∧
      Joined f (joinedState s i j p succ r) := by
  obtain ⟨rest, hspans⟩ := hs.left i p h.source_left h.source
  rw [h.term] at hspans
  obtain ⟨c, b, hb, hterm⟩ := hspans.exists_last
  have hedge : ⟨(j : Int), args⟩ ∈ b.term.edges := by simp [hterm, Terminator.edges]
  obtain ⟨target, htarget, htype⟩ := (hf.checked.blockAt hb).edges _ hedge
  rw [block?_natCast] at htarget
  have hlen : args.length = target.params.length := by simpa using congrArg length htype
  obtain ⟨target', htarget', -, hparams⟩ := hs.shape j succ h.target
  obtain rfl : target' = target := by
    rw [htarget, some.injEq] at htarget'
    exact htarget'.symm
  have hnodup : target'.params.Nodup := f.nodup_params hf.checked.nodup htarget
  have hne : ∀ (n : Nat) (v a : ValueId), target'.params[n]? = some v → args[n]? = some a →
      v ≠ a := by
    intro n v a hv ha
    exact ne_of_only_jump hf hb htarget (htrim j target' htarget)
      (fun x => eq_of_succ hb hterm h.count) h.entry (mem_of_getElem? hv)
      (Machine.mem_uses_of_mem_edges hedge (mem_of_getElem? ha))
  obtain ⟨r, hbind, hbound, hkeep⟩ := exists_bindAll? hnodup (Nat.le_of_eq hlen.symm) hne s.replaced
  refine ⟨r, ?_, hs.joinedState hf.checked h htarget hlen hbound hkeep⟩
  rw [← hparams] at hbind
  rw [join?, h.source, h.target]
  simp only [Option.bind_eq_bind, Option.bind_some, hbind, Option.pure_def]

lemma joined_mergeAt (hf : f.Valid m) (htrim : f.Trim) (hcounts : CountsEdges f counts)
    (fuel : Nat) (hs : Joined f s) (hi : s.merged[i]? = some false) :
    ∃ s', mergeAt f.entry counts i fuel s = (s', true) ∧ Joined f s' := by
  induction fuel generalizing s with
  | zero => exact ⟨s, rfl, hs⟩
  | succ fuel ih =>
    rcases candidate?_cases hf.checked hs hcounts hi with
      hnone | ⟨j, p, succ, args, hsome, hjoin⟩
    · exact ⟨s, by rw [mergeAt, hnone], hs⟩
    · obtain ⟨r, hjoined, hs'⟩ := exists_join? hf htrim hs hjoin
      have hi' : (joinedState s i j p succ r).merged[i]? = some false := by
        rw [hjoin.merged, if_neg hjoin.ne]
        exact hi
      obtain ⟨s'', hrest, hs''⟩ := ih hs' hi'
      exact ⟨s'', by rw [mergeAt, hsome]; dsimp only; rw [hjoined]; exact hrest, hs''⟩

lemma joined_mergeFrom (hf : f.Valid m) (htrim : f.Trim) (hcounts : CountsEdges f counts)
    (indices : List Nat) (hs : Joined f s) :
    ∃ s', mergeFrom f.entry counts indices s = (s', true) ∧ Joined f s' := by
  induction indices generalizing s with
  | nil => exact ⟨s, rfl, hs⟩
  | cons index rest ih =>
    rw [mergeFrom]
    cases hmark : s.merged[index]? with
    | none => exact ih hs
    | some mark =>
      cases mark with
      | true => exact ih hs
      | false =>
        obtain ⟨s', hat, hs'⟩ := joined_mergeAt hf htrim hcounts (s.blocks.size + 1) hs hmark
        rw [hat]
        exact ih hs'

end

end Sierra.Ir.Flow
