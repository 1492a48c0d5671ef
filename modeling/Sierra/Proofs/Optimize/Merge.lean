import Sierra.Proofs.Optimize.Join

/-!
# Joined blocks do the same work

A parameter of a joined block and the value passed for it get one name (`valid_merged`). While the
given function jumps to a block joined, the joined one stays where it is (`MergeRel`). Replacements
lead to values defined on shorter ways from the entry, so chains end (`Joined.exists_rank`).
-/

namespace Sierra.Ir.Flow

open List Replacements Func

variable {m : Module} {f : Func} {s : Merge} {before chain : List Nat} {k : Nat} {op' : Op}
variable {b b' : Block} {e : Edge} {rest : List Nat} {ops : List Op} {args : List ValueId}
  {c i j : Nat} {term : Terminator} {v : ValueId}

/-! ## Replacements end -/

lemma exists_shortest (f : Func) :
    ∃ rank : ValueId → Nat, ∀ v d before, f.Defines d v →
      f.Path before d → rank v ≤ before.length ∧
        ∃ d' before', f.Defines d' v ∧ f.Path before' d' ∧ before'.length = rank v := by
  classical
  let Way (v : ValueId) (n : Nat) : Prop :=
    ∃ d before, f.Defines d v ∧ f.Path before d ∧ before.length = n
  refine ⟨fun v => if h : ∃ n, Way v n then Nat.find h else 0, fun v d before hdef hpath => ?_⟩
  have hway : Way v before.length := ⟨d, before, hdef, hpath, rfl⟩
  have hex : ∃ n, Way v n := ⟨_, hway⟩
  dsimp only
  rw [dif_pos hex]
  exact ⟨Nat.find_min' hex hway, Nat.find_spec hex⟩

lemma Joined.exists_rank (hf : f.Valid m) (htrim : f.Trim) (hs : Joined f s) :
    ∃ rank : ValueId → Nat, ∀ v w, s.replaced.next[v]? = some w → rank w < rank v := by
  obtain ⟨rank, hrank⟩ := exists_shortest f
  refine ⟨rank, fun v w hvw => ?_⟩
  obtain ⟨c, j, args, b, n, hlink, hb, hv, hw⟩ := hs.next v w hvw
  obtain ⟨q, hq, -⟩ := hlink.jump
  have hdef : f.Defines j v := ⟨b, hb, mem_append_left _ (mem_of_getElem? hv)⟩
  obtain ⟨start, hstart⟩ := htrim j b hb
  obtain ⟨-, d, before, hd, hpath, hlen⟩ := hrank v j start hdef hstart
  obtain rfl := hd.unique hf.checked.nodup hdef
  have huse := hlink.mem_uses hq (mem_of_getElem? hw)
  cases hpath with
  | entry h => exact absurd h hlink.entry
  | @step before i _ hpath hsucc =>
    obtain rfl := hlink.only i hsucc
    rw [length_cons] at hlen
    rcases hf.dominated.term i q hq w huse with havail | hown
    · obtain ⟨x, hx, hxw⟩ := havail before hpath
      obtain ⟨earlier, hpast, hshort, -⟩ := hpath.cut hx
      have := (hrank w x earlier hxw hpast).1
      omega
    · have := (hrank w i before ⟨q, hq, Block.mem_defs_of_mem_defsBefore hown⟩ hpath).1
      omega

/-- A parameter of no block that has been joined to another. -/
def Kept (f : Func) (s : Merge) (v : ValueId) : Prop :=
  ∀ (j : Nat) (b : Block), s.merged[j]? = some true → f.blocks[j]? = some b → v ∉ b.params

lemma Linked.types (hf : f.Checked m) (h : Linked f s c j args) (hb : f.blocks[j]? = some b) :
    args.map f.typeOf = b.params.map f.typeOf := by
  obtain ⟨q, hq, -⟩ := h.jump
  exact ((hf.blockAt hq).edges _ (h.mem_edges hq)).types_eq rfl hb

section

variable (hs : Joined f s)

include hs

lemma Joined.next_eq_none_iff (hf : f.Checked m) : s.replaced.next[v]? = none ↔ Kept f s v := by
  constructor
  · intro hnone j b hj hb hv
    obtain ⟨c, args, hlink⟩ := hs.linked j hj
    obtain ⟨n, hn⟩ := mem_iff_getElem?.1 hv
    have hlen : args.length = b.params.length := by
      simpa using congrArg length (hlink.types hf hb)
    have hlt : n < args.length := by
      have := (List.getElem?_eq_some_iff.1 hn).1
      omega
    rw [hlink.bound b hb n v _ hn (getElem?_eq_getElem hlt)] at hnone
    cases hnone
  · intro hkept
    cases hnext : s.replaced.next[v]? with
    | none => rfl
    | some w =>
      obtain ⟨c, j, args, b, n, hlink, hb, hv, -⟩ := hs.next v w hnext
      exact absurd (mem_of_getElem? hv) (hkept j b hlink.merged hb)

/-! ## What values are replaced by -/

lemma Joined.find_of_kept (hf : f.Checked m) (hv : Kept f s v) : s.replaced.find v = v :=
  find_of_none ((hs.next_eq_none_iff hf).2 hv)

lemma Joined.kept_find (hf : f.Valid m) (htrim : f.Trim) (v : ValueId) :
    Kept f s (s.replaced.find v) := by
  obtain ⟨rank, hrank⟩ := hs.exists_rank hf htrim
  exact (hs.next_eq_none_iff hf.checked).1 (next_find hrank v)

lemma Joined.find_link (hf : f.Valid m) (htrim : f.Trim) (hlink : Linked f s c j args)
    (hb : f.blocks[j]? = some b) {n : Nat} {p a : ValueId} (hp : b.params[n]? = some p)
    (ha : args[n]? = some a) : s.replaced.find p = s.replaced.find a := by
  obtain ⟨rank, hrank⟩ := hs.exists_rank hf htrim
  exact find_next hrank (hlink.bound b hb n p a hp ha)

lemma Joined.typeOf_find (hf : f.Checked m) (v : ValueId) :
    f.typeOf (s.replaced.find v) = f.typeOf v := by
  refine follow_induction (R := fun v w => f.typeOf w = f.typeOf v) (fun v => rfl)
    (fun u v w huv hvw => ?_) _ v
  obtain ⟨c, j, args, b, n, hlink, hb, hu, hv⟩ := hs.next u v huv
  have h := congrArg (·[n]?) (hlink.types hf hb)
  simp only [getElem?_map, hu, hv, Option.map_some, Option.some.injEq] at h
  exact hvw.trans h

lemma Joined.find_mem_defined (hf : f.Checked m)
    (hv : v ∈ f.defined) : s.replaced.find v ∈ f.defined := by
  refine follow_induction (R := fun v w => v ∈ f.defined → w ∈ f.defined)
    (fun v => id) (fun u v w huv ih hu => ih ?_) _ v hv
  obtain ⟨c, j, args, b, n, hlink, hb, -, hv⟩ := hs.next u v huv
  obtain ⟨q, hq, -⟩ := hlink.jump
  exact (hf.blockAt hq).uses v (hlink.mem_uses hq (mem_of_getElem? hv))

lemma Joined.precedes_find (hf : f.Valid m) (v : ValueId) : f.Precedes (s.replaced.find v) v := by
  refine follow_induction (R := fun v w => f.Precedes w v)
    (fun v => ⟨fun _ => id, fun _ _ _ _ => id⟩) (fun u v w huv ih => ?_) _ v
  obtain ⟨c, j, args, b, n, hlink, hb, hu, hv⟩ := hs.next u v huv
  obtain ⟨q, hq, -⟩ := hlink.jump
  have hscope := hf.dominated.term c q hq v (hlink.mem_uses hq (mem_of_getElem? hv))
  have hstep := f.precedes_of_only_succ hf.checked.nodup hq hb hlink.only hlink.entry
    (mem_of_getElem? hu) hscope
  exact ⟨fun i hi => ih.avail i (hstep.avail i hi),
    fun i b k hb hk => ih.inScope i b k hb (hstep.inScope i b k hb hk)⟩

end

/-! ## Scopes along chains -/

/-- Each place of a chain is a place of one of its blocks. What may be read there could be read at the
start or has been defined since, parameters of linked blocks apart. -/
lemma Spans.scopes (h : Spans f s (c :: rest) ops term) {scope : ValueId → Prop}
    (hscope : ∀ b, f.blocks[c]? = some b → ∀ v, Kept f s v → f.InScope c b 0 v → scope v) :
    ∃ d b n, f.blocks[d]? = some b ∧
      (∀ op, ops[k]? = some op → b.ops[n]? = some op) ∧
      (k = ops.length → n = b.ops.length ∧ b.term = term) ∧
      ∀ v, Kept f s v → f.InScope d b n v → scope v ∨ v ∈ (ops.take k).flatMap (·.results) := by
  generalize hchain : c :: rest = chain at h
  -- What one block of the chain adds to the scope.
  have hown : ∀ {c : Nat} {b : Block} {scope : ValueId → Prop}, f.blocks[c]? = some b →
      (∀ v, Kept f s v → f.InScope c b 0 v → scope v) → ∀ (n : Nat) (v : ValueId), Kept f s v →
        f.InScope c b n v → scope v ∨ v ∈ (b.ops.take n).flatMap (·.results) := by
    rintro c b scope hb hscope n v hv (havail | hpre)
    · exact .inl (hscope v hv (.inl havail))
    · rcases mem_append.1 hpre with hparam | hresult
      · exact .inl (hscope v hv (.inr (by rw [Block.defsBefore_zero]; exact hparam)))
      · exact .inr hresult
  induction h generalizing c rest scope k with
  | @last c' b hb =>
    obtain ⟨rfl, rfl⟩ : c = c' ∧ rest = [] := by simpa using hchain
    exact ⟨c, b, k, hb, fun op hop => hop, fun hk => ⟨hk, rfl⟩, hown hb (hscope b hb) k⟩
  | @more c' j b args more ops term hb hlink hrest ih =>
    obtain ⟨rfl, rfl⟩ : c = c' ∧ rest = j :: more := by simpa using hchain
    rw [take_append, length_append]
    by_cases hk : k < b.ops.length
    · rw [getElem?_append_left hk, Nat.sub_eq_zero_of_le (Nat.le_of_lt hk), take_zero, append_nil]
      exact ⟨c, b, k, hb, fun op hop => hop, fun hend => by omega, hown hb (hscope b hb) k⟩
    · rw [not_lt] at hk
      -- The scope at the start of the linked block.
      have hnext : ∀ b', f.blocks[j]? = some b' → ∀ v, Kept f s v → f.InScope j b' 0 v →
          scope v ∨ v ∈ b.ops.flatMap (·.results) := by
        intro b' hb' v hv hin
        rw [inScope_zero] at hin
        have havail := hin.resolve_right (hv j b' hlink.merged hb')
        have h := hown hb (hscope b hb) b.ops.length v hv (havail.of_succ hb hlink.succ)
        rwa [take_length] at h
      obtain ⟨d, b', n, hd, hop, hend, hmem⟩ := ih (k := k - b.ops.length) hnext rfl
      rw [getElem?_append_right hk, take_of_length_le hk, flatMap_append]
      refine ⟨d, b', n, hd, hop, fun hk => hend (by omega), fun v hv hin => ?_⟩
      rw [mem_append]
      exact or_assoc.1 (hmem v hv hin)

lemma Spans.path (h : Spans f s chain ops term) (hchain : chain = c :: rest)
    (hpath : f.Path before c) (he : e ∈ term.edges)
    (hj : e.target = (j : Int)) : f.Path (chain.reverse ++ before) j := by
  induction h generalizing c rest before with
  | @last c' b hb =>
    obtain ⟨rfl, rfl⟩ : c' = c ∧ [] = rest := by simpa using hchain
    exact hpath.step ⟨b, hb, e, he, hj⟩
  | @more c' k b args more ops term hb hlink hrest ih =>
    obtain ⟨rfl, rfl⟩ : c' = c ∧ k :: more = rest := by simpa using hchain
    have h := ih rfl (hpath.step hlink.succ) he
    rw [reverse_cons, append_assoc]
    exact h

lemma Spans.mem_results (h : Spans f s chain ops term) {d : Nat} (hd : d ∈ chain)
    (hdef : f.Defines d v) (hv : Kept f s v) :
    v ∈ ops.flatMap (·.results) ∨
      ∃ c rest b, chain = c :: rest ∧ f.blocks[c]? = some b ∧
        v ∈ b.params := by
  obtain ⟨b', hb', hmem⟩ := hdef
  rw [Block.defs, mem_append] at hmem
  induction h with
  | @last c b hb =>
    rw [mem_singleton] at hd
    subst hd
    cases hb.symm.trans hb'
    rcases hmem with hparam | hresult
    · exact .inr ⟨d, [], _, rfl, hb, hparam⟩
    · exact .inl hresult
  | @more c k b args more ops term hb hlink hrest ih =>
    rw [flatMap_append, mem_append]
    rcases mem_cons.1 hd with rfl | hd
    · cases hb.symm.trans hb'
      rcases hmem with hparam | hresult
      · exact .inr ⟨d, k :: more, _, rfl, hb, hparam⟩
      · exact .inl (.inl hresult)
    · rcases ih hd with h | ⟨k', more', b'', hchain, hb'', hparam⟩
      · exact .inl (.inr h)
      · obtain ⟨rfl, rfl⟩ : k = k' ∧ more = more' := by simpa using hchain
        exact absurd hparam (hv k b'' hlink.merged hb'')

/-! ## The joined function -/

abbrev mergedFunc (f : Func) (s : Merge) : Func :=
  { f with blocks := s.blocks.map s.replaced.applyBlock }

lemma mergedFunc_getElem? (f : Func) (s : Merge) (i : Nat) :
    (mergedFunc f s).blocks[i]? = (s.blocks[i]?).map s.replaced.applyBlock :=
  Array.getElem?_map

lemma exists_of_mergedFunc (h : (mergedFunc f s).blocks[i]? = some b) :
    ∃ b', s.blocks[i]? = some b' ∧ b = s.replaced.applyBlock b' := by
  rw [mergedFunc_getElem?, Option.map_eq_some_iff] at h
  obtain ⟨b', hb', rfl⟩ := h
  exact ⟨b', hb', rfl⟩

lemma defs_applyBlock (r : Replacements) (b : Block) : (r.applyBlock b).defs = b.defs := by
  refine Block.defs_congr rfl ?_
  rw [applyBlock, map_map]
  rfl

section

variable (hs : Joined f s)

include hs

lemma Joined.perm_defined : (mergedFunc f s).defined.Perm f.defined := by
  rw [perm_iff_count]
  intro v
  have hcount : ∀ blocks : Array Block, (blocks.toList.flatMap Block.defs).count v =
      total (fun b => b.defs.count v) blocks := by
    intro blocks
    rw [count_flatMap]
    rfl
  have hmap : (mergedFunc f s).defined = s.blocks.toList.flatMap Block.defs := by
    rw [defined, Array.toList_map, flatMap_map]
    congr 1
    funext b
    exact defs_applyBlock _ b
  rw [hmap, hcount, hs.defs v, ← hcount]
  rfl

lemma Joined.left_of_ne (hb : f.blocks[i]? = some b)
    (h : s.merged[i]? ≠ some true) : s.merged[i]? = some false := by
  have hlt : i < s.merged.size := by
    rw [hs.merged]
    exact (Array.getElem?_eq_some_iff.1 hb).1
  rw [Array.getElem?_eq_getElem hlt] at h ⊢
  simpa using h

lemma Joined.block_cases (hb' : s.blocks[i]? = some b') :
    (s.merged[i]? = some false ∧ ∃ rest, Spans f s (i :: rest) b'.ops b'.term) ∨
      (b'.ops = [] ∧ b'.term = .trap .unreachable "") := by
  obtain ⟨b, hb, -, -⟩ := hs.shape i b' hb'
  by_cases hgone : s.merged[i]? = some true
  · exact .inr (hs.gone i b' hgone hb')
  · have hleft := hs.left_of_ne hb hgone
    exact .inl ⟨hleft, hs.left i b' hleft hb'⟩

lemma Joined.target_left
    (hb' : s.blocks[i]? = some b') (he : e ∈ b'.term.edges) (hj : e.target = (j : Int))
    {c : Block} (hc : f.blocks[j]? = some c) : s.merged[j]? = some false := by
  refine hs.left_of_ne hc fun hgone => ?_
  have hzero := hs.into j hgone
  have hpos := edgesInto_pos he hj
  have hsum : _ = _ + 0 := total_set (edgesInto (j : Int)) { id := 0 } hb'
  omega

lemma Joined.open_edge (hf : f.Checked m) (hb' : s.blocks[i]? = some b')
    (hspans : Spans f s (i :: rest) b'.ops b'.term) (he : e ∈ b'.term.edges)
    (hj : e.target = (j : Int)) : s.merged[j]? = some false := by
  obtain ⟨d, q, hq, hterm⟩ := hspans.exists_last
  obtain ⟨t, ht, -⟩ := (hf.blockAt hq).edges e (by rw [hterm]; exact he)
  rw [hj] at ht
  exact hs.target_left hb' he hj ht

lemma Joined.path (h : (mergedFunc f s).Path before j) :
    ∃ full, f.Path full j ∧ ∀ d ∈ full, ∃ i ∈ before, ∃ b' rest,
      s.blocks[i]? = some b' ∧ Spans f s (i :: rest) b'.ops b'.term ∧ d ∈ i :: rest := by
  induction h with
  | entry h => exact ⟨[], .entry h, by simp⟩
  | @step before i j _ hsucc ih =>
    obtain ⟨full, hfull, hmem⟩ := ih
    obtain ⟨b, hb, e', he', htarget⟩ := hsucc
    obtain ⟨b', hb', rfl⟩ := exists_of_mergedFunc hb
    rw [applyBlock, Terminator.edges_mapUses, mem_map] at he'
    obtain ⟨e, he, rfl⟩ := he'
    rcases hs.block_cases hb' with ⟨-, rest, hspans⟩ | ⟨-, htrap⟩
    · refine ⟨_, hspans.path rfl hfull he htarget, fun d hd => ?_⟩
      rcases mem_append.1 hd with hd | hd
      · exact ⟨i, mem_cons_self, b', rest, hb', hspans, mem_reverse.1 hd⟩
      · obtain ⟨x, hx, hrest⟩ := hmem d hd
        exact ⟨x, mem_cons_of_mem _ hx, hrest⟩
    · rw [htrap] at he
      cases he

lemma Joined.avail (hkept : Kept f s v) (hv : f.Avail i v) : (mergedFunc f s).Avail i v := by
  intro before hpath
  obtain ⟨full, hfull, hmem⟩ := hs.path hpath
  obtain ⟨d, hd, hdef⟩ := hv full hfull
  obtain ⟨x, hx, b', rest, hb', hspans, hchain⟩ := hmem d hd
  refine ⟨x, hx, s.replaced.applyBlock b', by rw [mergedFunc_getElem?, hb']; rfl, ?_⟩
  rw [defs_applyBlock, Block.defs, mem_append]
  rcases hspans.mem_results hchain hdef hkept with h | ⟨c, rest', b, hcons, hb, hparam⟩
  · exact .inr h
  · obtain ⟨rfl, -⟩ : x = c ∧ rest = rest' := by simpa using hcons
    obtain ⟨b₀, hb₀, -, hparams⟩ := hs.shape x b' hb'
    cases hb.symm.trans hb₀
    exact .inl (by rw [hparams]; exact hparam)

lemma Joined.scopes (hb' : s.blocks[i]? = some b') (hspans : Spans f s (i :: rest) b'.ops b'.term) :
    ∃ d b n, f.blocks[d]? = some b ∧
      (∀ op, b'.ops[k]? = some op → b.ops[n]? = some op) ∧
      (k = b'.ops.length → n = b.ops.length ∧ b.term = b'.term) ∧
      ∀ v, Kept f s v → f.InScope d b n v →
        (mergedFunc f s).InScope i (s.replaced.applyBlock b') k v := by
  obtain ⟨b₀, hb₀, -, hparams⟩ := hs.shape i b' hb'
  have hpre : ∀ k, (s.replaced.applyBlock b').defsBefore k = b'.defsBefore k := by
    refine Block.defsBefore_congr rfl ?_
    rw [applyBlock, map_map]
    rfl
  have hstart : ∀ b, f.blocks[i]? = some b → ∀ v, Kept f s v → f.InScope i b 0 v →
      (mergedFunc f s).Avail i v ∨ v ∈ b'.params := by
    intro b hb v hv hin
    cases hb.symm.trans hb₀
    rw [inScope_zero, ← hparams] at hin
    exact hin.imp_left (hs.avail hv)
  obtain ⟨d, b, n, hb, hop, hend, hmem⟩ := hspans.scopes hstart
  refine ⟨d, b, n, hb, hop, hend, fun v hv hin => ?_⟩
  rw [Func.InScope, hpre, Block.defsBefore, mem_append, ← or_assoc]
  exact hmem v hv hin

lemma Joined.exists_op
    (hb' : s.blocks[i]? = some b') (hop' : (s.replaced.applyBlock b').ops[k]? = some op') :
    ∃ d b n op, f.blocks[d]? = some b ∧ b.ops[n]? = some op ∧
      op' = { op with args := op.args.map s.replaced.find } ∧
      ∀ v, Kept f s v → f.InScope d b n v →
        (mergedFunc f s).InScope i (s.replaced.applyBlock b') k v := by
  rw [applyBlock, getElem?_map, Option.map_eq_some_iff] at hop'
  obtain ⟨op, hop, rfl⟩ := hop'
  rcases hs.block_cases hb' with ⟨-, rest, hspans⟩ | ⟨hnil, -⟩
  · obtain ⟨d, b, n, hb, hsame, -, hscope⟩ := hs.scopes hb' hspans
    exact ⟨d, b, n, op, hb, hsame op hop, rfl, hscope⟩
  · rw [hnil] at hop
    cases hop

lemma Joined.exists_op_of_mem (hb' : b' ∈ s.blocks) (hop' : op' ∈ (s.replaced.applyBlock b').ops) :
    ∃ b ∈ f.blocks, ∃ op ∈ b.ops, op' = { op with args := op.args.map s.replaced.find } := by
  obtain ⟨i, hb'⟩ := Array.mem_iff_getElem?.1 hb'
  obtain ⟨k, hk⟩ := mem_iff_getElem?.1 hop'
  obtain ⟨d, b, n, op, hb, hn, rfl, -⟩ := hs.exists_op hb' hk
  exact ⟨b, Array.mem_of_getElem? hb, op, mem_of_getElem? hn, rfl⟩

lemma Joined.exists_term (hb' : s.blocks[i]? = some b') :
    (∃ d b, f.blocks[d]? = some b ∧ b.term = b'.term ∧ ∀ v, Kept f s v →
      f.InScope d b b.ops.length v →
        (mergedFunc f s).InScope i (s.replaced.applyBlock b') b'.ops.length v) ∨
      b'.term = .trap .unreachable "" := by
  rcases hs.block_cases hb' with ⟨-, rest, hspans⟩ | ⟨-, htrap⟩
  · obtain ⟨d, b, n, hb, -, hend, hscope⟩ := hs.scopes hb' hspans
    obtain ⟨rfl, hterm⟩ := hend rfl
    exact .inl ⟨d, b, hb, hterm, hscope⟩
  · exact .inr htrap

lemma Joined.exists_block (hb : f.blocks[i]? = some b) :
    ∃ b', s.blocks[i]? = some b' ∧ b'.params = b.params := by
  have hlt : i < s.blocks.size := by
    rw [hs.blocks]
    exact (Array.getElem?_eq_some_iff.1 hb).1
  have hb' := Array.getElem?_eq_getElem hlt
  obtain ⟨b₀, hb₀, -, hparams⟩ := hs.shape i _ hb'
  cases hb.symm.trans hb₀
  exact ⟨_, hb', hparams⟩

lemma Joined.exists_block? {id : BlockId} (hb : f.block? id = some b) :
    ∃ b', (mergedFunc f s).block? id = some b' ∧ b'.params = b.params := by
  obtain ⟨i, rfl, hblock⟩ := block?_eq_some_iff.1 hb
  obtain ⟨b', hb', hparams⟩ := hs.exists_block hblock
  refine ⟨s.replaced.applyBlock b', ?_, hparams⟩
  rw [block?_natCast, mergedFunc_getElem?, hb', Option.map_some]

lemma Joined.map_typeOf (hf : f.Checked m) (vs : List ValueId) :
    (vs.map s.replaced.find).map (mergedFunc f s).typeOf = vs.map f.typeOf := by
  rw [map_map]
  exact map_congr_left fun v _ => hs.typeOf_find hf v

lemma Joined.block_checked (hf : f.Checked m)
    (hb' : s.blocks[i]? = some b') : (s.replaced.applyBlock b').Checked m (mergedFunc f s) := by
  have hmem : ∀ v, v ∈ f.defined → s.replaced.find v ∈ (mergedFunc f s).defined := fun v hv =>
    hs.perm_defined.mem_iff.2 (hs.find_mem_defined hf hv)
  have hblock := Array.mem_of_getElem? hb'
  have hoperands : ∀ op' ∈ (s.replaced.applyBlock b').ops, ∀ v ∈ op'.args,
      v ∈ (mergedFunc f s).defined := by
    intro op' hop' w hw
    obtain ⟨b, hb, op, hop, rfl⟩ := hs.exists_op_of_mem hblock hop'
    obtain ⟨v, hv, rfl⟩ := mem_map.1 hw
    exact hmem v ((hf.block b hb).operands op hop v hv)
  have hrules : ∀ op' ∈ (s.replaced.applyBlock b').ops,
      opProblem? m (mergedFunc f s) op' = none := by
    intro op' hop'
    obtain ⟨b, hb, op, hop, rfl⟩ := hs.exists_op_of_mem hblock hop'
    rw [opProblem?_congr (.refl m) rfl (hs.map_typeOf hf op.args) rfl]
    exact (hf.block b hb).ops op hop
  have hterm : (s.replaced.applyBlock b').term = b'.term.mapUses s.replaced.find := rfl
  rcases hs.exists_term hb' with ⟨d, b, hb, hb'term, -⟩ | htrap
  · have hcheck := hf.blockAt hb
    rw [hb'term.symm] at hterm
    refine ⟨hoperands, hrules, ?_, ?_, ?_, ?_⟩
    · rw [hterm, Terminator.isClosed_mapUses]
      exact hcheck.closed
    · intro w hw
      rw [hterm, Terminator.uses_mapUses] at hw
      obtain ⟨v, hv, rfl⟩ := mem_map.1 hw
      exact hmem v (hcheck.uses v hv)
    · intro e' he'
      rw [hterm, Terminator.edges_mapUses] at he'
      obtain ⟨e, he, rfl⟩ := mem_map.1 he'
      obtain ⟨c, hc, htype⟩ := hcheck.edges e he
      obtain ⟨c', hc', hparams⟩ := hs.exists_block? hc
      refine ⟨c', hc', ?_⟩
      rw [hs.map_typeOf hf e.args, htype, hparams]
      rfl
    · rw [hterm]
      exact hcheck.term.mapUses (fun v _ => hs.typeOf_find hf v) rfl
  · rw [htrap] at hterm
    refine ⟨hoperands, hrules, ?_, ?_, ?_, ?_⟩ <;> rw [hterm]
    · rfl
    · exact fun v hv => absurd hv not_mem_nil
    · exact fun e he => absurd he not_mem_nil
    · trivial

lemma Joined.valid (hf : f.Valid m) (htrim : f.Trim) : (mergedFunc f s).Valid m := by
  refine ⟨⟨?_, ?_, ?_, ?_, ?_⟩, ⟨?_, ?_⟩, ?_⟩
  · obtain ⟨b, hb, hparams⟩ := hf.checked.entry
    obtain ⟨b', hb', hparams'⟩ := hs.exists_block? hb
    exact ⟨b', hb', by rw [hparams']; exact hparams⟩
  · intro v hv
    exact hf.checked.range v (hs.perm_defined.mem_iff.1 hv)
  · exact hs.perm_defined.nodup_iff.2 hf.checked.nodup
  · intro i b hb
    obtain ⟨b', hb', rfl⟩ := exists_of_mergedFunc hb
    obtain ⟨b₀, hb₀, hid, -⟩ := hs.shape i b' hb'
    exact hid.trans (hf.checked.place i b₀ hb₀)
  · intro b hb
    obtain ⟨i, hi⟩ := Array.mem_iff_getElem?.1 hb
    obtain ⟨b', hb', rfl⟩ := exists_of_mergedFunc hi
    exact hs.block_checked hf.checked hb'
  · intro i b hb k op' hop' w hw
    obtain ⟨b', hb', rfl⟩ := exists_of_mergedFunc hb
    obtain ⟨d, b₀, n, op, hb₀, hn, rfl, hscope⟩ := hs.exists_op hb' hop'
    obtain ⟨v, hv, rfl⟩ := mem_map.1 hw
    exact hscope _ (hs.kept_find hf htrim v)
      ((hs.precedes_find hf v).inScope d b₀ n hb₀ (hf.dominated.ops d b₀ hb₀ n op hn v hv))
  · intro i b hb w hw
    obtain ⟨b', hb', rfl⟩ := exists_of_mergedFunc hb
    rw [applyBlock, Terminator.uses_mapUses] at hw
    obtain ⟨v, hv, rfl⟩ := mem_map.1 hw
    have hlen : (s.replaced.applyBlock b').ops.length = b'.ops.length := by
      simp [applyBlock]
    rw [hlen]
    rcases hs.exists_term hb' with ⟨d, b₀, hb₀, hterm, hscope⟩ | htrap
    · rw [← hterm] at hv
      exact hscope _ (hs.kept_find hf htrim v)
        ((hs.precedes_find hf v).inScope d b₀ _ hb₀ (hf.dominated.term d b₀ hb₀ v hv))
    · rw [htrap] at hv
      cases hv
  · intro c hc op' hop'
    obtain ⟨b', hb', rfl⟩ := Array.mem_map.1 hc
    obtain ⟨b, hb, op, hop, rfl⟩ := hs.exists_op_of_mem hb' hop'
    exact (hf.built b hb op hop).rename rfl (hs.map_typeOf hf.checked op.args) rfl

end

end Sierra.Ir.Flow

namespace Sierra.Machine

open Ir Ir.Flow List

variable {σ : Type} {m : Module} {f : Func} {s : Merge} {images : List Image} {term : Terminator}
  {rest : List Nat} {ops : List Op} {v : ValueId}
variable {b : Block} {j : Nat} {op : Op}

/-! ## The joined function does the same work -/

abbrev replaceArgs (r : Replacements) (op : Op) : Op := { op with args := op.args.map r.find }

/-- The chain of the current block is still to come, and what may be read is held by what stands for
it. -/
structure MergeRel (f : Func) (s : Merge) (fr fr' : Frame) (before : List Nat) (c : Nat) (b : Block)
    (k : Nat) (rest : List Nat) (ops : List Op) (term : Terminator) : Prop where
  place : At f before c b k fr
  chain : Spans f s (c :: rest) ops term
  left : ∀ e ∈ term.edges, ∀ j : Nat, e.target = (j : Int) → s.merged[j]? = some false
  func : fr'.func = mergedFunc f s
  depth : fr'.depth = fr.depth
  ops : fr'.ops = (ops.drop k).map (replaceArgs s.replaced)
  term : fr'.term = term.mapUses s.replaced.find
  size : fr'.regs.size = fr.regs.size
  regs : ∀ v, f.InScope c b k v → reg fr'.regs (s.replaced.find v) = reg fr.regs v

lemma spans_cases {c : Nat} (h : Spans f s (c :: rest) ops term) (hb : f.blocks[c]? = some b) :
    (ops = b.ops ∧ term = b.term) ∨
      ∃ j args more tail, rest = j :: more ∧
        ops = b.ops ++ tail ∧ Linked f s c j args ∧ Spans f s (j :: more) tail term := by
  cases h with
  | last hb' =>
    cases hb.symm.trans hb'
    exact .inl ⟨rfl, rfl⟩
  | more hb' hlink hrest =>
    cases hb.symm.trans hb'
    exact .inr ⟨_, _, _, _, rfl, rfl, hlink, hrest⟩

lemma MergeRel.drop {fr fr' : Frame} {before : List Nat} {c k : Nat}
    (h : MergeRel f s fr fr' before c b k rest ops term)
    (hop : b.ops[k]? = some op) : ops.drop k = op :: ops.drop (k + 1) := by
  refine drop_eq_cons ?_
  rcases spans_cases h.chain h.place.block with ⟨rfl, -⟩ | ⟨j, args, more, tail, -, rfl, -⟩
  · exact hop
  · rw [List.getElem?_append_left (List.getElem?_eq_some_iff.1 hop).1, hop]

lemma kept_of_left (hf : f.Checked m) {c : Block} (hc : f.blocks[j]? = some c)
    (hj : s.merged[j]? = some false) (hv : v ∈ c.defs) : Kept f s v := by
  intro i b hi hb hparam
  have hdef : f.Defines i v := ⟨b, hb, mem_append_left _ hparam⟩
  obtain rfl := hdef.unique hf.nodup ⟨c, hc, hv⟩
  cases hj.symm.trans hi

section

variable {fr fr' : Frame} {before rest : List Nat} {c k : Nat} {b : Block} {ops : List Op}
  {term : Terminator}

lemma MergeRel.map_reg (h : MergeRel f s fr fr' before c b k rest ops term) {vs : List ValueId}
    (hvs : ∀ v ∈ vs, f.InScope c b k v) :
    (vs.map s.replaced.find).map (reg fr'.regs) = vs.map (reg fr.regs) := by
  rw [map_map]
  exact map_congr_left fun v hv => h.regs v (hvs v hv)

lemma MergeRel.next (hf : f.Valid m) (hs : Joined f s)
    (h : MergeRel f s fr fr' before c b k rest ops term) {left : List Op}
    (hops : fr.ops = op :: left) {regs regs' : Array Image}
    (hset : assign? fr.regs op.results images = some regs)
    (hset' : assign? fr'.regs op.results images = some regs') :
    MergeRel f s { fr with regs := regs, ops := left }
      { fr' with regs := regs', ops := (ops.drop (k + 1)).map (replaceArgs s.replaced) }
      before c b (k + 1) rest ops term := by
  obtain ⟨hop, -⟩ := h.place.getElem? hops
  refine ⟨h.place.next hops (size_assign? hset), h.chain, h.left, h.func, h.depth, rfl, h.term, ?_,
    fun v hv => ?_⟩
  · rw [size_assign? hset', size_assign? hset, h.size]
  · rw [Func.inScope_succ hop] at hv
    rcases hv with hv | hv
    · rw [h.place.reg_results hf.checked hop hset hv, ← h.regs v hv]
      exact h.place.reg_results hf.checked hop hset'
        ((hs.precedes_find hf v).inScope c b k h.place.block hv)
    · rw [hs.find_of_kept hf.checked fun _ _ _ =>
        f.not_mem_params_of_mem_results hf.checked.nodup h.place.block hop hv]
      exact reg_assign?_congr h.size hset' hset (.inl hv)

lemma MergeRel.link (hf : f.Valid m) (htrim : f.Trim) (hs : Joined f s)
    {args : List ValueId} {more : List Nat} {tail : List Op}
    (h : MergeRel f s fr fr' before c b b.ops.length (j :: more) (b.ops ++ tail) term)
    (hlink : Linked f s c j args) (hchain : Spans f s (j :: more) tail term) {target : Block}
    {next : Frame} (hat : At f (c :: before) j target 0 next) (hdepth : next.depth = fr.depth)
    (hsucc : f.Succ c j)
    (hset : assign? fr.regs target.params (args.map (reg fr.regs)) = some next.regs) :
    MergeRel f s next fr' (c :: before) j target 0 more tail term := by
  have hops := h.ops
  rw [drop_left] at hops
  refine ⟨hat, hchain, h.left, h.func, h.depth.trans hdepth.symm, hops, h.term, ?_, fun v hv => ?_⟩
  · rw [h.size, size_assign? hset]
  · rw [Func.inScope_zero] at hv
    rcases hv with hv | hv
    · rw [hat.reg_params hf.checked hset hv]
      exact h.regs v (hv.of_succ h.place.block hsucc)
    -- A parameter is held by what stands for the value that was passed.
    obtain ⟨n, hn⟩ := mem_iff_getElem?.1 hv
    have hdefs := f.nodup_defs hf.checked.nodup hat.block
    have himg := reg_assign?_getElem hset (nodup_append.1 hdefs).1 ?_ hn
    · rw [getElem?_map, Option.map_eq_some_iff] at himg
      obtain ⟨a, ha, himg⟩ := himg
      rw [hs.find_link hf htrim hlink hat.block hn ha, ← himg]
      exact h.regs a (hf.dominated.term c b h.place.block a
        (hlink.mem_uses h.place.block (mem_of_getElem? ha)))
    · intro w hw
      rw [h.place.size]
      exact hat.range hf.checked (mem_append_left _ hw)

lemma MergeRel.land (hf : f.Valid m) (hs : Joined f s)
    (h : MergeRel f s fr fr' before c b b.ops.length rest ops term) {target b' : Block}
    {next : Frame} (hat : At f (c :: before) j target 0 next) (hdepth : next.depth = fr.depth)
    (hsucc : f.Succ c j) (hb' : s.blocks[j]? = some b') (hj : s.merged[j]? = some false)
    {regs' : Array Image} (hset : assign? fr.regs target.params images = some next.regs)
    (hset' : assign? fr'.regs target.params images = some regs') :
    ∃ more, MergeRel f s next ⟨mergedFunc f s, regs', (s.replaced.applyBlock b').ops,
      (s.replaced.applyBlock b').term, fr'.depth⟩ (c :: before) j target 0 more b'.ops b'.term := by
  obtain ⟨more, hchain⟩ := hs.left j b' hj hb'
  refine ⟨more, hat, hchain, fun e he i hi => ?_, rfl, h.depth.trans hdepth.symm, rfl, rfl, ?_,
    fun v hv => ?_⟩
  · exact hs.open_edge hf.checked hb' hchain he hi
  · rw [size_assign? hset', h.size, size_assign? hset]
  · rw [Func.inScope_zero] at hv
    rcases hv with hv | hv
    · rw [hat.reg_params hf.checked hset hv, ← h.regs v (hv.of_succ h.place.block hsucc)]
      exact hat.reg_params hf.checked hset' ((hs.precedes_find hf v).avail j hv)
    · rw [hs.find_of_kept hf.checked (kept_of_left hf.checked hat.block hj (mem_append_left _ hv))]
      exact reg_assign?_congr h.size hset' hset (.inl hv)

end

lemma refines_merged {env : Env σ} (hf : f.Valid m) (htrim : f.Trim) (hs : Joined f s)
    (hfault : funcFault? f = none) : Refines env m f (mergedFunc f s) := by
  rw [funcFault?_eq_none_iff] at hfault
  refine ⟨fun fr fr' => ∃ before c b k rest ops term,
    MergeRel f s fr fr' before c b k rest ops term, ?_⟩
  constructor
  case func =>
    rintro fr fr' ⟨before, c, b, k, rest, ops, term, h⟩
    exact ⟨h.place.func, h.func, h.depth.symm⟩
  case enter =>
    intro args depth fr henter
    obtain ⟨hdepth, i, b, regs, rfl, hentry, hat, hset⟩ := at_of_enter henter
    obtain ⟨b', hb', hparams⟩ := hs.exists_block hat.block
    have hleft : s.merged[i]? = some false := by
      refine hs.left_of_ne hat.block fun hgone => ?_
      obtain ⟨c, args, hlink⟩ := hs.linked i hgone
      exact hlink.entry hentry
    obtain ⟨rest, hchain⟩ := hs.left i b' hleft hb'
    refine ⟨_, enter_eq_ok_iff.2 ⟨hdepth, i, s.replaced.applyBlock b', regs, hentry, ?_, ?_, rfl⟩,
      [], i, b, 0, rest, b'.ops, b'.term, hat, hchain, fun e he j hj => ?_, rfl, rfl, rfl, rfl, rfl,
      fun v hv => ?_⟩
    · rw [mergedFunc_getElem?, hb', Option.map_some]
    · rw [show (s.replaced.applyBlock b').params = b.params from hparams]
      exact hset
    · exact hs.open_edge hf.checked hb' hchain he hj
    · rw [Func.inScope_zero] at hv
      have hparam := hv.resolve_left (f.not_avail_entry hentry)
      rw [hs.find_of_kept hf.checked
        (kept_of_left hf.checked hat.block hleft (mem_append_left _ hparam))]
  case done =>
    rintro fr fr' values ⟨before, c, b, k, rest, ops, term, h⟩ hops hdone
    obtain rfl := h.place.eq_length hops
    rw [h.place.term] at hdone
    rcases spans_cases h.chain h.place.block with ⟨rfl, rfl⟩ | ⟨j, args, more, tail, -, -, hlink, -⟩
    · refine ⟨by rw [h.ops, drop_length, map_nil], ?_⟩
      rw [h.term]
      exact nextOf_mapUses rfl
        (fun v hv => h.regs v (hf.dominated.term c b h.place.block v hv)) hdone
    · rw [hlink.term_eq h.place.block] at hdone
      cases hdone
  case jump =>
    rintro fr fr' next edge ⟨before, c, b, k, rest, ops, term, h⟩ hops hnext hjump
    obtain rfl := h.place.eq_length hops
    obtain ⟨j, target, regs, rfl, hedge, htarget, hsucc, hat, hset⟩ := h.place.jump hnext hjump
    rw [h.place.term] at hnext
    rcases spans_cases h.chain h.place.block with
      ⟨rfl, rfl⟩ | ⟨j', args, more, tail, rfl, rfl, hlink, hchain⟩
    · have hscope := hf.dominated.term c b h.place.block
      have hleft := h.left edge hedge j htarget
      obtain ⟨b', hb', hparams⟩ := hs.exists_block hat.block
      have hargs := h.map_reg fun v hv => hscope v (mem_uses_of_mem_edges hedge hv)
      obtain ⟨regs', hset'⟩ := exists_reassign? hset fr'.regs
      obtain ⟨more, hland⟩ := h.land hf hs hat rfl hsucc hb' hleft hset hset'
      refine .inr ⟨by rw [h.ops, drop_length, map_nil],
        Terminator.onArgs s.replaced.find edge, _, ?_,
        jump?_eq_some_iff.2 ⟨j, s.replaced.applyBlock b', regs', htarget, ?_, ?_, rfl⟩, c :: before,
        j, target, 0, more, b'.ops, b'.term, ?_⟩
      · rw [h.term]
        exact nextOf_mapUses rfl (fun v hv => h.regs v (hscope v hv)) hnext
      · rw [h.func, mergedFunc_getElem?, hb', Option.map_some]
      · rw [show (s.replaced.applyBlock b').params = target.params from hparams, hargs]
        exact hset'
      · rw [h.func]
        exact hland
    · rw [hlink.term_eq h.place.block, nextOf, Next.jump.injEq] at hnext
      subst hnext
      obtain rfl : j' = j := Int.ofNat_inj.1 htarget
      exact .inl ⟨_, _, _, _, _, _, _, h.link hf htrim hs hlink hchain hat rfl hsucc hset⟩
  case op =>
    rintro fr fr' op left regs world world' ⟨before, c, b, k, rest, ops, term, h⟩ hops hcode hexec
    obtain ⟨hop, -⟩ := h.place.getElem? hops
    have hmem := mem_of_getElem? hop
    have hblock := Array.mem_of_getElem? h.place.block
    have hname : (mergedFunc f s).name = f.name := rfl
    have hargs := h.map_reg (hf.dominated.ops c b h.place.block k op hop)
    have hsame : replaceArgs s.replaced op =
      { op with args := (replaceArgs s.replaced op).args } := rfl
    obtain ⟨images, regs', hset, hset', hexec'⟩ :=
      execOp_rename (hf.built b hblock op hmem) (hfault b hblock op hmem) hcode hsame hargs
        (hs.map_typeOf hf.checked op.args) hname rfl hexec
    refine .inr ⟨replaceArgs s.replaced op, _, regs', ?_, hcode, hexec', before, c, b, k + 1, rest,
      ops, term, h.next hf hs hops hset hset'⟩
    rw [h.ops, h.drop hop, map_cons]
  case call =>
    rintro fr fr' op left out regs ⟨before, c, b, k, rest, ops, term, h⟩ hops hcode hset
    obtain ⟨hop, -⟩ := h.place.getElem? hops
    obtain ⟨regs', hset'⟩ := exists_reassign? hset fr'.regs
    refine ⟨replaceArgs s.replaced op, _, regs', ?_, hcode, rfl,
      h.map_reg (hf.dominated.ops c b h.place.block k op hop), hset', before, c, b, k + 1, rest,
      ops, term, h.next hf hs hops hset hset'⟩
    rw [h.ops, h.drop hop, map_cons]

lemma funcFault?_merged (hs : Joined f s) (hfault : funcFault? f = none) :
    funcFault? (mergedFunc f s) = none := by
  rw [funcFault?_eq_none_iff] at hfault ⊢
  intro c hc op' hop'
  obtain ⟨b', hb', rfl⟩ := Array.mem_map.1 hc
  obtain ⟨b, hb, op, hop, rfl⟩ := hs.exists_op_of_mem hb' hop'
  have h := hfault b hb op hop
  rw [opFault?_eq_none_iff] at h ⊢
  simpa [hasShape] using h

lemma exists_mergeLinear_eq (hf : f.Valid m) (hvalid : f.simplify.Valid m)
    (htrim : f.simplify.Trim) : ∃ s, Joined f.simplify s ∧
      f.mergeLinear = .done (compact (mergedFunc f.simplify s)
        (reachable (mergedFunc f.simplify s))) (s.merged.count true) := by
  obtain ⟨counts, hpred, hcounts⟩ := exists_predecessors? hvalid.checked
  obtain ⟨s, hmerge, hs⟩ := joined_mergeFrom hvalid htrim hcounts
    (range f.simplify.blocks.size) (joined_start f.simplify)
  refine ⟨s, hs, ?_⟩
  rw [Func.mergeLinear, if_neg (not_isEmpty_of_checked hf.checked)]
  dsimp only
  rw [hpred]
  dsimp only
  rw [hmerge]
  dsimp only
  rw [Replacements.apply_eq]

lemma replaces_mergeLinear (env : Env σ) (hf : f.Valid m) (hlocal : f.BareLocal) :
    f.mergeLinear.changes.isSome ∧ f.mergeLinear.func.Valid m ∧
      Replaces env m f f.mergeLinear.func := by
  obtain ⟨hvalid, hsimplify, htrim, -⟩ := replaces_simplify env hf hlocal
  obtain ⟨s, hs, heq⟩ := exists_mergeLinear_eq hf hvalid htrim
  have hmerged : Replaces env m f.simplify (mergedFunc f.simplify s) :=
    ⟨rfl, rfl, rfl, rfl, funcFault?_merged hs, refines_merged hvalid htrim hs⟩
  obtain ⟨hvalid', hcompact, -, -⟩ := replaces_compact env (hs.valid hvalid htrim)
  rw [heq]
  exact ⟨rfl, hvalid', (hsimplify.trans hmerged).trans hcompact⟩

end Sierra.Machine
