import Mathlib.Data.List.Flatten
import Sierra.Proofs.Ir.Checked

/-!
# Scopes

`Avail` holds of the values defined on every way to a block, `InScope` adds those defined in the
block before a place, and a function is `Dominated` when everything it reads is in scope. What is in
scope after a jump was so before it (`Avail.of_succ`), and with a value all that its definition
reads (`Precedes`).
-/

namespace Sierra.Ir

open List Block

variable {b c b' : Block} {f f' : Func} {before : List Nat} {d i j k : Nat} {op : Op}
  {v w : ValueId}

/-! ## Definitions of a block -/

def Block.defsBefore (b : Block) (k : Nat) : List ValueId :=
  b.params ++ (b.ops.take k).flatMap (·.results)

@[simp] lemma Block.defsBefore_zero (b : Block) : b.defsBefore 0 = b.params := by
  simp [defsBefore]

@[simp] lemma Block.defsBefore_length (b : Block) : b.defsBefore b.ops.length = b.defs := by
  simp [defsBefore, defs]

lemma Block.defsBefore_succ (hop : b.ops[k]? = some op) :
    b.defsBefore (k + 1) = b.defsBefore k ++ op.results := by
  simp [defsBefore, take_add_one, hop]

lemma Block.mem_defs_of_mem_defsBefore (hv : v ∈ b.defsBefore k) : v ∈ b.defs :=
  (((take_sublist k b.ops).flatMap _).append_left b.params).subset hv

lemma Block.defsBefore_subset (hle : j ≤ k) : b.defsBefore j ⊆ b.defsBefore k :=
  (((take_sublist_take_left hle).flatMap _).append_left b.params).subset

lemma Block.mem_defs_of_mem_results
    (hop : b.ops[k]? = some op) (hv : v ∈ op.results) : v ∈ b.defs := by
  rw [defs, mem_append, mem_flatMap]
  exact .inr ⟨op, mem_of_getElem? hop, hv⟩

lemma Block.defsBefore_congr (hparams : b'.params = b.params)
    (hres : b'.ops.map (·.results) = b.ops.map (·.results)) (k : Nat) :
    b'.defsBefore k = b.defsBefore k := by
  have hflat : ∀ c : Block, (c.ops.take k).flatMap (·.results) =
      ((c.ops.map (·.results)).take k).flatten := by
    intro c
    rw [← map_take, flatMap_def]
  rw [defsBefore, defsBefore, hparams, hflat, hflat, hres]

lemma Block.defs_congr (hparams : b'.params = b.params)
    (hres : b'.ops.map (·.results) = b.ops.map (·.results)) : b'.defs = b.defs := by
  rw [defs, defs, hparams, flatMap_def, flatMap_def, hres]

lemma Block.not_mem_defsBefore_of_mem_results (hnodup : b.defs.Nodup)
    (hop : b.ops[k]? = some op) (hv : v ∈ op.results) : v ∉ b.defsBefore k := by
  intro hpre
  have hsplit : b.defs = b.defsBefore (k + 1) ++ (b.ops.drop (k + 1)).flatMap (·.results) := by
    rw [defsBefore, defs, append_assoc, ← flatMap_append, take_append_drop]
  rw [hsplit, defsBefore_succ hop] at hnodup
  have hleft := (nodup_append.1 hnodup).1
  exact (nodup_append.1 hleft).2.2 v hpre v hv rfl

/-! ## Places in a function -/

def Func.Defines (f : Func) (d : Nat) (v : ValueId) : Prop :=
  ∃ b, f.blocks[d]? = some b ∧ v ∈ b.defs

lemma Func.mem_defined_iff : v ∈ f.defined ↔ ∃ d, f.Defines d v := by
  rw [Func.defined, mem_flatMap]
  constructor
  · rintro ⟨b, hb, hv⟩
    obtain ⟨d, hd⟩ := mem_iff_getElem?.1 hb
    rw [Array.getElem?_toList] at hd
    exact ⟨d, b, hd, hv⟩
  · rintro ⟨d, b, hd, hv⟩
    refine ⟨b, ?_, hv⟩
    rw [Array.mem_toList_iff]
    exact Array.mem_of_getElem? hd

section

variable (hnodup : f.defined.Nodup)
include hnodup

lemma Func.nodup_defs (hb : f.blocks[i]? = some b) : b.defs.Nodup := by
  have hpair := pairwise_flatMap.1 hnodup
  refine hpair.1 b ?_
  rw [Array.mem_toList_iff]
  exact Array.mem_of_getElem? hb

lemma Func.nodup_params (hb : f.blocks[i]? = some b) : b.params.Nodup :=
  (nodup_append.1 (f.nodup_defs hnodup hb)).1

lemma Func.Defines.unique (hi : f.Defines i v) (hj : f.Defines j v) : i = j := by
  obtain ⟨b, hb, hvb⟩ := hi
  obtain ⟨c, hc, hvc⟩ := hj
  have hpair := (pairwise_flatMap.1 hnodup).2
  rw [pairwise_iff_getElem] at hpair
  rw [← Array.getElem?_toList] at hb hc
  obtain ⟨hi, rfl⟩ := List.getElem?_eq_some_iff.1 hb
  obtain ⟨hj, rfl⟩ := List.getElem?_eq_some_iff.1 hc
  rcases Nat.lt_trichotomy i j with hlt | heq | hgt
  · exact absurd rfl (hpair i j hi hj hlt v hvb v hvc)
  · exact heq
  · exact absurd rfl (hpair j i hj hi hgt v hvc v hvb)

lemma Func.not_mem_params_of_mem_results (hb : f.blocks[i]? = some b) (hop : b.ops[k]? = some op)
    (hv : v ∈ op.results) (hc : f.blocks[j]? = some c) : v ∉ c.params := by
  intro hparam
  obtain rfl := Func.Defines.unique hnodup ⟨c, hc, mem_append_left _ hparam⟩
    ⟨b, hb, mem_defs_of_mem_results hop hv⟩
  cases hb.symm.trans hc
  exact not_mem_defsBefore_of_mem_results (f.nodup_defs hnodup hb) hop hv (mem_append_left _ hparam)

end

lemma Block.result_unique (hnodup : b.defs.Nodup) {op' : Op} (hj : b.ops[j]? = some op)
    (hv : v ∈ op.results) (hk : b.ops[k]? = some op') (hv' : v ∈ op'.results) : j = k := by
  have hmem : ∀ {j k : Nat} {op : Op}, j < k → b.ops[j]? = some op → v ∈ op.results →
      v ∈ b.defsBefore k := fun hlt hop hv =>
    defsBefore_subset hlt (by rw [defsBefore_succ hop]; exact mem_append_right _ hv)
  rcases Nat.lt_trichotomy j k with hlt | heq | hgt
  · exact absurd (hmem hlt hj hv) (not_mem_defsBefore_of_mem_results hnodup hk hv')
  · exact heq
  · exact absurd (hmem hgt hk hv') (not_mem_defsBefore_of_mem_results hnodup hj hv)

/-! ## Ways through the block graph -/

/-- An edge leads from the block at `i` to place `j`. -/
def Func.Succ (f : Func) (i j : Nat) : Prop :=
  ∃ b, f.blocks[i]? = some b ∧ ∃ e ∈ b.term.edges, e.target = (j : Int)

/-- A way from the entry to place `i`, over blocks listed last first. -/
inductive Func.Path (f : Func) : List Nat → Nat → Prop
  | entry {i : Nat} (h : f.entry = (i : Int)) : f.Path [] i
  | step {before : List Nat} {i j : Nat} (h : f.Path before i) (hsucc : f.Succ i j) :
      f.Path (i :: before) j

/-- The value is defined on every way to place `i`, before the block there. -/
def Func.Avail (f : Func) (i : Nat) (v : ValueId) : Prop :=
  ∀ before, f.Path before i → ∃ d ∈ before, f.Defines d v

/-- The value may be read before operation `k` of the block `b` at place `i`. -/
def Func.InScope (f : Func) (i : Nat) (b : Block) (k : Nat) (v : ValueId) : Prop :=
  f.Avail i v ∨ v ∈ b.defsBefore k

structure Func.Dominated (f : Func) : Prop where
  ops : ∀ (i : Nat) (b : Block), f.blocks[i]? = some b →
    ∀ (k : Nat) (op : Op), b.ops[k]? = some op → ∀ v ∈ op.args, f.InScope i b k v
  term : ∀ (i : Nat) (b : Block), f.blocks[i]? = some b →
    ∀ v ∈ b.term.uses, f.InScope i b b.ops.length v

lemma Func.dominated_of_local
    (hops : ∀ b ∈ f.blocks.toList, ∀ e ∈ b.ops.zipIdx, ∀ v ∈ e.1.args, v ∈ b.defsBefore e.2)
    (hterm : ∀ b ∈ f.blocks.toList, ∀ v ∈ b.term.uses, v ∈ b.defs) : f.Dominated := by
  refine ⟨fun i b hb k op hop v hv => .inr ?_, fun i b hb v hv => .inr ?_⟩
  · exact hops b (Array.mem_toList_iff.2 (Array.mem_of_getElem? hb)) (op, k)
      (mk_mem_zipIdx_iff_getElem?.2 hop) v hv
  · rw [defsBefore_length]
    exact hterm b (Array.mem_toList_iff.2 (Array.mem_of_getElem? hb)) v hv

lemma Func.Path.cut (h : f.Path before i) (hd : d ∈ before) :
    ∃ earlier, f.Path earlier d ∧ earlier.length < before.length ∧ ∀ x ∈ earlier, x ∈ before := by
  induction h with
  | entry _ => cases hd
  | @step before i j hpath hsucc ih =>
    rcases mem_cons.1 hd with rfl | hd
    · exact ⟨before, hpath, by simp, fun x hx => mem_cons_of_mem _ hx⟩
    · obtain ⟨earlier, hpast, hlen, hsub⟩ := ih hd
      refine ⟨earlier, hpast, ?_, fun x hx => mem_cons_of_mem _ (hsub x hx)⟩
      rw [length_cons]
      omega

lemma Func.Path.first (h : f.Path before i) : ∃ earlier, f.Path earlier i ∧ i ∉ earlier := by
  generalize hn : before.length = n
  induction n using Nat.strongRecOn generalizing before with
  | ind n ih =>
    by_cases hmem : i ∈ before
    · obtain ⟨earlier, hpast, hlen, -⟩ := h.cut hmem
      exact ih earlier.length (by omega) hpast rfl
    · exact ⟨before, h, hmem⟩

lemma Func.not_avail_entry (h : f.entry = (i : Int)) : ¬ f.Avail i v := by
  intro hv
  obtain ⟨d, hd, -⟩ := hv [] (.entry h)
  cases hd

lemma Func.Avail.of_succ (hv : f.Avail j v)
    (hb : f.blocks[i]? = some b) (hsucc : f.Succ i j) : f.InScope i b b.ops.length v := by
  rw [Func.InScope, defsBefore_length]
  by_cases hdef : v ∈ b.defs
  · exact .inr hdef
  refine .inl fun before hpath => ?_
  obtain ⟨d, hd, hdv⟩ := hv (i :: before) (hpath.step hsucc)
  rcases mem_cons.1 hd with rfl | hd
  · obtain ⟨c, hc, hvc⟩ := hdv
    rw [hb, Option.some.injEq] at hc
    rw [hc] at hdef
    exact absurd hvc hdef
  · exact ⟨d, hd, hdv⟩

lemma Func.Avail.of_subset (hv : f.Avail i v) (hpath : ∀ before, f'.Path before i → f.Path before i)
    (hdef : ∀ d, f.Defines d v → f'.Defines d v) : f'.Avail i v := by
  intro before hpre
  obtain ⟨d, hd, hdv⟩ := hv before (hpath before hpre)
  exact ⟨d, hd, hdef d hdv⟩

lemma Func.Path.of_subset (hentry : f'.entry = f.entry)
    (hsucc : ∀ i j, f'.Succ i j → f.Succ i j) (h : f'.Path before i) : f.Path before i := by
  induction h with
  | entry h => exact .entry (by rw [← hentry, h])
  | step _ h ih => exact .step ih (hsucc _ _ h)

lemma Func.not_avail_of_defines (hnodup : f.defined.Nodup)
    (hpath : f.Path before i) (hdef : f.Defines i v) : ¬ f.Avail i v := by
  intro hv
  obtain ⟨earlier, hpast, hnot⟩ := hpath.first
  obtain ⟨d, hd, hdv⟩ := hv earlier hpast
  rw [hdv.unique hnodup hdef] at hd
  exact hnot hd

lemma Func.not_inScope_result (hnodup : f.defined.Nodup)
    (hpath : f.Path before i) (hb : f.blocks[i]? = some b)
    (hop : b.ops[k]? = some op) (hv : v ∈ op.results) : ¬ f.InScope i b k v := by
  rintro (havail | hpre)
  · exact f.not_avail_of_defines hnodup hpath ⟨b, hb, mem_defs_of_mem_results hop hv⟩ havail
  · exact not_mem_defsBefore_of_mem_results (f.nodup_defs hnodup hb) hop hv hpre

lemma Func.inScope_zero : f.InScope i b 0 v ↔ f.Avail i v ∨ v ∈ b.params := by
  rw [Func.InScope, defsBefore_zero]

lemma Func.inScope_succ (hop : b.ops[k]? = some op) :
    f.InScope i b (k + 1) v ↔ f.InScope i b k v ∨ v ∈ op.results := by
  rw [Func.InScope, Func.InScope, defsBefore_succ hop, mem_append, or_assoc]

lemma Func.InScope.mono (h : f.InScope i b j v) (hle : j ≤ k) : f.InScope i b k v :=
  h.imp_right fun hv => defsBefore_subset hle hv

lemma Func.InScope.mem_defined (h : f.InScope i b k v) (hb : f.blocks[i]? = some b)
    (hpath : f.Path before i) : v ∈ f.defined := by
  rw [f.mem_defined_iff]
  rcases h with h | h
  · obtain ⟨d, -, hd⟩ := h before hpath
    exact ⟨d, hd⟩
  · exact ⟨i, b, hb, mem_defs_of_mem_defsBefore h⟩

/-! ## Values that come before others -/

/-- Wherever `v` may be read, `w` may be read too. -/
structure Func.Precedes (f : Func) (w v : ValueId) : Prop where
  avail : ∀ i : Nat, f.Avail i v → f.Avail i w
  inScope : ∀ (i : Nat) (b : Block) (k : Nat), f.blocks[i]? = some b → f.InScope i b k v →
    f.InScope i b k w

section

variable (hnodup : f.defined.Nodup)
include hnodup

lemma Func.Avail.through (hv : f.Avail i v) (hd : f.Defines d v) (hc : f.blocks[d]? = some c)
    (hw : f.InScope d c c.ops.length w) : f.Avail i w := by
  intro before hpath
  obtain ⟨x, hx, hxv⟩ := hv before hpath
  rw [hxv.unique hnodup hd] at hx
  rcases hw with hw | hw
  · obtain ⟨earlier, hpast, -, hsub⟩ := hpath.cut hx
    obtain ⟨y, hy, hyw⟩ := hw earlier hpast
    exact ⟨y, hsub y hy, hyw⟩
  · exact ⟨d, hx, c, hc, mem_defs_of_mem_defsBefore hw⟩

lemma Func.precedes_of_defines (hc : f.blocks[d]? = some c)
    (hv : v ∈ c.defs) (hw : f.InScope d c c.ops.length w)
    (hown : ∀ k, v ∈ c.defsBefore k → f.InScope d c k w) : f.Precedes w v := by
  have havail : ∀ i, f.Avail i v → f.Avail i w := fun i hi => hi.through hnodup ⟨c, hc, hv⟩ hc hw
  refine ⟨havail, fun i b k hb hscope => ?_⟩
  rcases hscope with hi | hpre
  · exact .inl (havail i hi)
  · obtain rfl : i = d :=
      Func.Defines.unique hnodup ⟨b, hb, mem_defs_of_mem_defsBefore hpre⟩ ⟨c, hc, hv⟩
    cases hb.symm.trans hc
    exact hown k hpre

lemma Func.precedes_of_operand (hc : f.blocks[d]? = some c) (hop : c.ops[k]? = some op)
    (hv : v ∈ op.results) (hw : f.InScope d c k w) : f.Precedes w v := by
  have hk : k < c.ops.length := (List.getElem?_eq_some_iff.1 hop).1
  refine f.precedes_of_defines hnodup hc (mem_defs_of_mem_results hop hv)
    (hw.mono (Nat.le_of_lt hk)) fun j hpre => hw.mono (Nat.le_of_not_lt fun hjk => ?_)
  -- A result defined at `k` cannot be among what comes before an earlier place.
  exact not_mem_defsBefore_of_mem_results (f.nodup_defs hnodup hc) hop hv
    (defsBefore_subset (Nat.le_of_lt hjk) hpre)

lemma Func.precedes_of_only_succ {p : Nat} {q : Block} (hq : f.blocks[p]? = some q)
    (hc : f.blocks[d]? = some c) (honly : ∀ i, f.Succ i d → i = p) (hentry : f.entry ≠ (d : Int))
    (hv : v ∈ c.params) (hw : f.InScope p q q.ops.length w) : f.Precedes w v := by
  have havail : f.Avail d w := by
    intro before hpath
    cases hpath with
    | entry h => exact absurd h hentry
    | @step before i _ hpath hsucc =>
      obtain rfl := honly i hsucc
      rcases hw with hw | hw
      · obtain ⟨x, hx, hxw⟩ := hw before hpath
        exact ⟨x, mem_cons_of_mem _ hx, hxw⟩
      · exact ⟨i, mem_cons_self, q, hq, mem_defs_of_mem_defsBefore hw⟩
  exact f.precedes_of_defines hnodup hc (mem_append_left _ hv) (.inl havail) fun _ _ => .inl havail

end

end Sierra.Ir
