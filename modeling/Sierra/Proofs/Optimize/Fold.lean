import Sierra.Proofs.Ir.Replace
import Sierra.Proofs.Machine.Refine
import Sierra.Proofs.Optimize.Constants

/-!
# Constant folding

The tables hold facts about the given code (`KnownFacts`), and every change settles an operation for
good (`Advances`), so the rounds stop. The finished function is the given one place by place
(`exists_fold_eq`). It is as valid (`valid_finish`), and its activations do the same
(`refines_finish`).
-/

namespace Sierra.Ir

open List Fold Func

variable {b : Block} {k k' : Fold.Known} {f : Func} {m : Module} {i j z : Nat} {op op' : Op}
  {v w : ValueId} {t : Terminator}

/-! ## Tables that hold facts -/

/-- Everything the tables say holds of the code. -/
structure KnownFacts (f : Func) (k : Fold.Known) : Prop where
  consts : ∀ v z, k.consts[v]? = some z → Constant f v z
  replaced : ∀ v w, k.replaced.next[v]? = some w → Stands f v w

inductive Leads (f : Func) : ValueId → ValueId → Prop
  | refl (v : ValueId) : Leads f v v
  | step {u v w : ValueId} (h : Stands f u v) (hrest : Leads f v w) : Leads f u w

lemma Leads.constant (h : Leads f v w) (hw : Constant f w z) : Constant f v z := by
  induction h with
  | refl => exact hw
  | step hstands _ ih => exact hstands.constant (ih hw)

lemma KnownFacts.leads_find (h : KnownFacts f k) (v : ValueId) : Leads f v (k.replaced.find v) :=
  Replacements.follow_induction .refl (fun u v _ huv => .step (h.replaced u v huv)) _ v

lemma KnownFacts.const? (h : KnownFacts f k) (hv : k.const? v = some z) : Constant f v z :=
  (h.leads_find v).constant (h.consts _ z hv)

lemma KnownFacts.insert_const (h : KnownFacts f k) (hv : Constant f v z) (folded : Nat) :
    KnownFacts f { k with consts := k.consts.insert v z, folded := folded } := by
  refine ⟨fun u y hu => ?_, h.replaced⟩
  rw [Std.HashMap.getElem?_insert] at hu
  split at hu
  · next heq =>
    cases hu
    exact eq_of_beq heq ▸ hv
  · exact h.consts u y hu

lemma KnownFacts.set_replaced (h : KnownFacts f k)
    (hv : Stands f v w) : KnownFacts f { k with replaced := k.replaced.set v w } := by
  refine ⟨h.consts, fun u y hu => ?_⟩
  dsimp only [Replacements.set] at hu
  split at hu
  · exact h.replaced u y hu
  rw [Std.HashMap.getElem?_insert] at hu
  split at hu
  · next heq =>
    cases hu
    exact eq_of_beq heq ▸ hv
  · exact h.replaced u y hu

/-! ## Operations before and after -/

def constOp (op : Op) (z : Nat) : Op :=
  { code := .const, results := op.results, type := op.type, imm := Fold.imageOf op.type z }

/-- As it was, or the constant it computes. -/
def Folded (f : Func) (op current : Op) : Prop :=
  current = op ∨ ∃ z, Computes f op z ∧ current = constOp op z

/-- What folding can make of the tables and of an operation. -/
inductive FoldsTo (f : Func) (k : Fold.Known) (op : Op) : Fold.Known × Op × Fold.Progress → Prop
  | same : FoldsTo f k op (k, op, .same)
  | noted {v : ValueId} (hcode : op.code = .const) (hresults : op.results = [v])
      (hint : op.type.isInt = true) (hnew : k.consts[v]? = none) :
      FoldsTo f k op ({ k with consts := k.consts.insert v (wordOf op.imm) }, op, .same)
  | computed {v : ValueId} {z : Nat} {zs : List Nat} (hresults : op.results = [v])
      (hint : op.type.isInt = true) (hlen : zs.length ≤ op.args.length)
      (hargs : ∀ (n : Nat) (x : ValueId) (y : Nat), op.args[n]? = some x → zs[n]? = some y →
        k.const? x = some y) (hz : evalWords? f op zs = some z) :
      FoldsTo f k op ({ k with consts := k.consts.insert v z, folded := k.folded + 1 },
        constOp op z, .changed)
  | chosen {v c yes no : ValueId} {z : Nat} (hcode : op.code = .select) (hresults : op.results = [v])
      (hargs : op.args = [c, yes, no]) (hcond : k.const? c = some z)
      (hnew : k.replaced.find v ≠ k.replaced.find (if z ≠ 0 then yes else no)) :
      FoldsTo f k op ({ k with replaced := k.replaced.set v (if z ≠ 0 then yes else no) }, op,
        .changed)

lemma noteConst_foldsTo (hcode : op.code = .const) (hres : op.results = [v]) :
    FoldsTo f k op (noteConst k op) := by
  simp only [noteConst, hres]
  split
  · next htest =>
    rw [Bool.and_eq_true] at htest
    exact .noted hcode hres htest.2 (by simpa using htest.1)
  · exact .same

lemma operands_known {vs rest : List ValueId} {zs : List Nat}
    (h : Forall₂ (fun v z => k.const? v = some z) vs zs) (n : Nat) (v : ValueId) (z : Nat)
    (hv : (vs ++ rest)[n]? = some v) (hz : zs[n]? = some z) : k.const? v = some z := by
  obtain ⟨u, hu, hconst⟩ := (forall₂_getElem? h n).2 z hz
  rw [getElem?_append_left (List.getElem?_eq_some_iff.1 hu).1] at hv
  cases hu.symm.trans hv
  exact hconst

section

variable (hprob : opProblem? m f op = none)
  (hone : op.code.hasOneResult = true → ∃ v, op.results = [v])
include hprob hone

lemma foldSelect_foldsTo (hcode : op.code = .select) : FoldsTo f k op (foldSelect k op) := by
  obtain ⟨v, hres⟩ := hone (by rw [hcode]; rfl)
  have hlen : op.args.length = 3 := by
    by_contra hlen
    simp [opProblem?, hcode, hlen] at hprob
  obtain ⟨c, yes, no, hargs⟩ := length_eq_three.1 hlen
  simp only [foldSelect, hargs, hres, head?_cons, Option.map_some]
  cases hcond : k.const? c with
  | none => exact .same
  | some z =>
    have hchosen := FoldsTo.chosen (f := f) hcode hres hargs hcond
    dsimp only
    generalize (if z ≠ 0 then yes else no) = pick at hchosen ⊢
    split
    · next hnew => exact hchosen hnew
    · exact .same

lemma foldOp_foldsTo : FoldsTo f k op (foldOp f k op) := by
  -- A known operation becomes the constant it computes.
  have hconst : ∀ {z : Nat} (zs : List Nat), op.type.isInt → zs.length ≤ op.args.length →
      (∀ (n : Nat) (x : ValueId) (y : Nat), op.args[n]? = some x → zs[n]? = some y →
        k.const? x = some y) → evalWords? f op zs = some z → FoldsTo f k op (toConst k op z) := by
    intro z zs hint hlen hargs hz
    obtain ⟨v, hres⟩ := hone (Machine.hasOneResult_of_evalWords? hz)
    have h := FoldsTo.computed hres hint hlen hargs hz
    simp only [toConst, hres]
    rwa [constOp, hres] at h
  unfold foldOp
  cases hcode : op.code with
  | const =>
    obtain ⟨v, hres⟩ := hone (by rw [hcode]; rfl)
    exact noteConst_foldsTo hcode hres
  | select => exact foldSelect_foldsTo hprob hone hcode
  | binary code =>
    have hlen : op.args.length = 2 := by
      by_contra hlen
      simp [opProblem?, hcode, hlen] at hprob
    obtain ⟨x, y, hargs⟩ := length_eq_two.1 hlen
    dsimp only
    split
    · exact .same
    next hint =>
    rw [hargs]
    dsimp only
    split
    · next zx zy hx hy =>
      split
      · next z hz =>
        refine hconst [zx, zy] (by simpa using hint) (by simp [hargs]) ?_ ?_
        · rw [hargs]
          exact operands_known (.cons hx (.cons hy .nil))
        · simp only [evalWords?, hcode, hz]
      · exact .same
    · exact .same
  | icmp =>
    have hlen : op.args.length = 2 := by
      by_contra hlen
      simp [opProblem?, hcode, hlen] at hprob
    obtain ⟨x, y, hargs⟩ := length_eq_two.1 hlen
    dsimp only
    split
    · exact .same
    next hint =>
    rw [hargs]
    dsimp only
    split
    · next zx zy hx_int hx hy =>
      refine hconst [zx, zy] (by simpa using hint) (by simp [hargs]) ?_ ?_
      · rw [hargs]
        exact operands_known (.cons hx (.cons hy .nil))
      · have htype : argType f op 0 = f.typeOf x := by simp [argType, hargs]
        simp only [evalWords?, hcode, htype, hx_int, if_true]
    · exact .same
  | cast code =>
    dsimp only
    split
    · exact .same
    next hint =>
    -- A conversion without operands has no integer to convert, which the rules refuse.
    have hargs : code ≠ .bitcast → ∃ x rest, op.args = x :: rest := by
      intro hne
      cases hargs : op.args with
      | cons x rest => exact ⟨x, rest, rfl⟩
      | nil =>
        have htype : argType f op 0 = .none := by simp [argType, hargs]
        cases code <;> simp [opProblem?, hcode, htype, Ty.isInt] at hprob hne
    cases code with
    | bitcast => exact .same
    | _ =>
      obtain ⟨x, rest, hargs⟩ := hargs (by simp)
      rw [hargs]
      dsimp only
      split
      · next zx hx_int hx =>
        refine hconst [zx] (by simpa using hint) (by simp [hargs]) ?_ ?_
        · rw [hargs]
          exact operands_known (.cons hx .nil)
        · have htype : argType f op 0 = f.typeOf x := by simp [argType, hargs]
          simp only [evalWords?, hcode, htype, hx_int, if_true]
      · exact .same
  | _ =>
    dsimp only
    split
    · exact .same
    · exact .same

end

def FoldStep (f : Func) (op : Op) (out : Fold.Known × Op × Fold.Progress) : Prop :=
  KnownFacts f out.1 ∧ Folded f op out.2.1 ∧ out.2.2 ≠ .stuck

lemma FoldsTo.foldStep {out : Fold.Known × Op × Fold.Progress} (h : FoldsTo f k op out)
    (hk : KnownFacts f k) (hop : f.OpAt i j op) : FoldStep f op out := by
  cases h with
  | same => exact ⟨hk, .inl rfl, by simp⟩
  | noted hcode hres hint _ =>
    exact ⟨hk.insert_const (.const hop hcode hres hint) k.folded, .inl rfl, by simp⟩
  | computed hres hint hlen hargs hz =>
    have hcomp : Computes f op _ :=
      ⟨hint, _, hlen, fun n x y hx hy => hk.const? (hargs n x y hx hy), hz⟩
    exact ⟨hk.insert_const (hcomp.constant hop hres) _, .inr ⟨_, hcomp, rfl⟩, by simp⟩
  | chosen hcode hres hargs hcond _ =>
    exact ⟨hk.set_replaced ⟨i, j, op, _, _, _, _, hop, hcode, hres, hargs, hk.const? hcond, rfl⟩,
      .inl rfl, by simp⟩

/-- Everything the tables say holds, and chains of replaced values end. -/
structure Sound (f : Func) (k : Fold.Known) : Prop where
  facts : KnownFacts f k
  ends : ∃ rank : ValueId → Nat, ∀ v w, k.replaced.next[v]? = some w → rank w < rank v

/-- As it was, or the constant it computes, once noted. -/
def Kept (f : Func) (k : Fold.Known) (op current : Op) : Prop :=
  current = op ∨
    ∃ z, Computes f op z ∧ current = constOp op z ∧ ∀ v ∈ op.results, v ∈ k.consts

lemma Kept.folded (h : Kept f k op op') : Folded f op op' :=
  h.imp id fun ⟨z, hz, heq, _⟩ => ⟨z, hz, heq⟩

lemma Kept.mono (h : Kept f k op op') (hconsts : ∀ v ∈ k.consts, v ∈ k'.consts) :
    Kept f k' op op' :=
  h.imp id fun ⟨z, hz, heq, hnoted⟩ => ⟨z, hz, heq, fun v hv => hconsts v (hnoted v hv)⟩

/-- Folding may still change the operation. -/
def Fold.Known.isOpen (k : Fold.Known) (op : Op) : Bool :=
  match op.code with
  | .const => false
  | .select => op.results.all fun v => !k.replaced.next.contains v
  | _ => true

def Fold.Progress.cost (p : Fold.Progress) : Nat := if p = .changed then 1 else 0

/-- What is noted and replaced stays so, and every change settles an operation for good. -/
structure Advances (f : Func) (k : Fold.Known) (ops : List Op) (k' : Fold.Known) (ops' : List Op)
    (p : Fold.Progress) : Prop where
  sound : Sound f k'
  consts : ∀ v ∈ k.consts, v ∈ k'.consts
  replaced : ∀ v ∈ k.replaced.next, v ∈ k'.replaced.next
  stuck : p ≠ .stuck
  count : ops'.countP k'.isOpen + p.cost ≤ ops.countP k.isOpen

lemma Sound.advances (h : Sound f k) (ops : List Op) : Advances f k ops k ops .same :=
  ⟨h, fun _ hv => hv, fun _ hv => hv, by simp, Nat.le_refl _⟩

lemma Sound.not_mem_next (h : Sound f k) (hnodup : f.defined.Nodup) (hop : f.OpAt i j op)
    (hres : op.results = [v]) {c yes no : ValueId} (hargs : op.args = [c, yes, no])
    (hcond : k.const? c = some z)
    (hne : k.replaced.find v ≠ k.replaced.find (if z ≠ 0 then yes else no)) :
    v ∉ k.replaced.next := by
  intro hmem
  -- A choice is decided once: what it was replaced by ends where the choice does.
  obtain ⟨rank, hrank⟩ := h.ends
  obtain ⟨w, hw⟩ := Option.isSome_iff_exists.1 (Std.HashMap.mem_iff_isSome_getElem?.1 hmem)
  obtain ⟨_, _, _, _, _, _, _, hop', -, hv', hargs', hconst, rfl⟩ := h.facts.replaced v w hw
  obtain ⟨-, -, rfl⟩ := hop.unique hnodup (v := v) (by simp [hres]) hop' (by simp [hv'])
  cases hargs.symm.trans hargs'
  cases hconst.unique hnodup (h.facts.const? hcond)
  exact hne (Replacements.find_next hrank hw)

lemma countP_isOpen_le (h : ∀ v ∈ k.replaced.next, v ∈ k'.replaced.next) (ops : List Op) :
    ops.countP k'.isOpen ≤ ops.countP k.isOpen := by
  refine countP_mono_left fun op _ hop => ?_
  unfold Known.isOpen at hop ⊢
  split at hop
  · cases hop
  · simp only [all_eq_true, Bool.not_eq_true', ← Bool.not_eq_true, Std.HashMap.contains_iff_mem]
      at hop ⊢
    exact fun v hv hmem => hop v hv (h v hmem)
  · rfl

lemma Advances.append {k₁ k₂ : Fold.Known} {a a₁ b b₂ : List Op} {p q : Fold.Progress}
    (h : Advances f k a k₁ a₁ p) (hrest : Advances f k₁ b k₂ b₂ q) :
    Advances f k (a ++ b) k₂ (a₁ ++ b₂) (p.both q) := by
  refine ⟨hrest.sound, fun v hv => hrest.consts v (h.consts v hv),
    fun v hv => hrest.replaced v (h.replaced v hv), ?_, ?_⟩
  · have hp := h.stuck
    have hq := hrest.stuck
    cases p <;> cases q <;> simp_all [Fold.Progress.both]
  · have hboth : (p.both q).cost ≤ p.cost + q.cost := by cases p <;> cases q <;> decide
    have hdone := countP_isOpen_le hrest.replaced a₁
    have hleft := countP_isOpen_le h.replaced b
    have hcount := h.count
    have hcount' := hrest.count
    simp only [countP_append]
    omega

section

variable (hf : f.Checked m)
  (hone : ∀ b ∈ f.blocks, ∀ op ∈ b.ops, op.code.hasOneResult = true → op.results.length = 1)
  (hk : Sound f k)
include hf hone hk

lemma foldOp_advances (hop : f.OpAt i j op) (h : Kept f k op op') :
    ∃ k₁ op₁ p, foldOp f k op' = (k₁, op₁, p) ∧ Kept f k₁ op op₁ ∧
      Advances f k [op'] k₁ [op₁] p := by
  obtain ⟨b, hb, hmem⟩ := hop.mem
  have hone : op.code.hasOneResult → ∃ v, op.results = [v] := fun h =>
    length_eq_one_iff.1 (hone b hb op hmem h)
  rcases h with rfl | ⟨z, hz, rfl, hnoted⟩
  · have hto : FoldsTo f k op' _ := foldOp_foldsTo ((hf.block b hb).ops op' hmem) hone
    generalize foldOp f k op' = out at hto ⊢
    obtain ⟨hfacts, -, hstuck⟩ := hto.foldStep hk.facts hop
    cases hto with
    | same => exact ⟨k, op', .same, rfl, .inl rfl, hk.advances _⟩
    | noted _ _ _ _ =>
      refine ⟨_, _, _, rfl, .inl rfl, ⟨hfacts, hk.ends⟩, ?_, fun _ hv => hv, hstuck, Nat.le_refl _⟩
      simp +contextual
    | @computed v z _ hres hint hlen hargs hz =>
      have hcomp : Computes f op' z :=
        ⟨hint, _, hlen, fun n x y hx hy => hk.facts.const? (hargs n x y hx hy), hz⟩
      refine ⟨_, _, _, rfl, .inr ⟨z, hcomp, rfl, by simp [hres]⟩, ⟨hfacts, hk.ends⟩, ?_,
        fun _ hv => hv, hstuck, ?_⟩
      · simp +contextual
      · have hopen : k.isOpen op' := by
          unfold Known.isOpen
          split <;> simp_all [evalWords?]
        have hclosed : k.isOpen (constOp op' z) = false := rfl
        change [constOp op' z].countP k.isOpen + 1 ≤ [op'].countP k.isOpen
        simp [hopen, hclosed]
    | @chosen v c yes no z hcode hres hargs hcond hne =>
      have hfree := hk.not_mem_next hf.nodup hop hres hargs hcond hne
      obtain ⟨rank, hrank⟩ := hk.ends
      generalize (if z ≠ 0 then yes else no) = pick at hne hfacts hstuck ⊢
      have hset : (k.replaced.set v pick).next = k.replaced.next.insert v pick := by
        rw [Replacements.set, if_neg fun h => hne (congrArg k.replaced.find h)]
      refine ⟨_, _, _, rfl, .inl rfl, ⟨hfacts, Replacements.exists_rank_set hrank hne⟩,
        fun _ hv => hv, ?_, hstuck, ?_⟩
      · simp +contextual [hset]
      · simp [Known.isOpen, hcode, hres, hfree, hset, Progress.cost]
  · obtain ⟨-, zs, -, -, heval⟩ := id hz
    obtain ⟨v, hres⟩ := hone (Machine.hasOneResult_of_evalWords? heval)
    refine ⟨k, constOp op z, .same, ?_, .inr ⟨z, hz, rfl, hnoted⟩, hk.advances _⟩
    have hv := hnoted v (by simp [hres])
    simp [foldOp, constOp, noteConst, hres, hv]

lemma foldOps_advances {ops current : List Op} (hops : ∀ op ∈ ops, ∃ i j, f.OpAt i j op)
    (h : Forall₂ (Kept f k) ops current) :
    ∃ k₁ current₁ p, foldOps f k current = (k₁, current₁, p) ∧
      Forall₂ (Kept f k₁) ops current₁ ∧ Advances f k current k₁ current₁ p := by
  induction ops generalizing k current with
  | nil =>
    cases h
    exact ⟨k, [], .same, rfl, .nil, hk.advances _⟩
  | cons op ops ih =>
    obtain _ | ⟨hkept, hrest⟩ := h
    obtain ⟨i, j, hop⟩ := hops op mem_cons_self
    obtain ⟨k₁, op₁, p, heq, hkept₁, hstep⟩ := foldOp_advances hf hone hk hop hkept
    obtain ⟨k₂, current₂, q, heq', hrest₂, hadvances⟩ := ih hstep.sound
      (fun op h => hops op (mem_cons_of_mem _ h)) (hrest.imp fun _ _ h => h.mono hstep.consts)
    refine ⟨k₂, op₁ :: current₂, p.both q, ?_, .cons (hkept₁.mono hadvances.consts) hrest₂,
      hstep.append hadvances⟩
    rw [foldOps, heq]
    have hp := hstep.stuck
    cases p with
    | stuck => exact absurd rfl hp
    | same | changed => simp only [heq']

structure FoldedBlock (f : Func) (b current : Block) : Prop where
  id : current.id = b.id
  params : current.params = b.params
  term : current.term = b.term
  ops : List.Forall₂ (Folded f) b.ops current.ops

def KeptBlock (f : Func) (k : Fold.Known) (b current : Block) : Prop :=
  FoldedBlock f b current ∧ Forall₂ (Kept f k) b.ops current.ops

variable {blocks current : List Block}
  (hblocks : ∀ b ∈ blocks, ∀ op ∈ b.ops, ∃ i j, f.OpAt i j op)
  (h : Forall₂ (KeptBlock f k) blocks current)
include hblocks h

lemma foldBlocks_advances :
    ∃ k₁ current₁ p, foldBlocks f k current = (k₁, current₁, p) ∧
      Forall₂ (KeptBlock f k₁) blocks current₁ ∧
      Advances f k (current.flatMap (·.ops)) k₁ (current₁.flatMap (·.ops)) p := by
  induction blocks generalizing k current with
  | nil =>
    cases h
    exact ⟨k, [], .same, rfl, .nil, hk.advances _⟩
  | cons b blocks ih =>
    obtain _ | @⟨_, cur, _, _, hkept, hrest⟩ := h
    obtain ⟨k₁, ops, p, heq, hops, hstep⟩ :=
      foldOps_advances hf hone hk (hblocks b mem_cons_self) hkept.2
    obtain ⟨k₂, current₂, q, heq', hrest₂, hadvances⟩ := ih hstep.sound
      (fun b h => hblocks b (mem_cons_of_mem _ h))
      (hrest.imp fun _ _ h => ⟨h.1, h.2.imp fun _ _ h => h.mono hstep.consts⟩)
    have hfolded : FoldedBlock f b { cur with ops := ops } :=
      ⟨hkept.1.id, hkept.1.params, hkept.1.term, hops.imp fun _ _ h => h.folded⟩
    refine ⟨k₂, { cur with ops := ops } :: current₂, p.both q, ?_,
      .cons ⟨hfolded, hops.imp fun _ _ h => h.mono hadvances.consts⟩ hrest₂, hstep.append hadvances⟩
    rw [foldBlocks, heq]
    have hp := hstep.stuck
    cases p with
    | stuck => exact absurd rfl hp
    | same | changed => simp only [heq']

/-- Rounds of folding up to the first that changes nothing, without a bound. -/
inductive Rounds (f : Func) : Fold.Known → List Block → Fold.Known → List Block → Prop
  | last {k k' : Fold.Known} {blocks blocks' : List Block}
      (h : foldBlocks f k blocks = (k', blocks', .same)) : Rounds f k blocks k' blocks'
  | more {k k₁ k' : Fold.Known} {blocks blocks₁ blocks' : List Block}
      (h : foldBlocks f k blocks = (k₁, blocks₁, .changed)) (hrest : Rounds f k₁ blocks₁ k' blocks') :
      Rounds f k blocks k' blocks'

lemma rounds_spec (fuel : Nat) :
    ∃ k₁ current₁, rounds f fuel k current = (k₁, current₁, true) ∧ Sound f k₁ ∧
      Forall₂ (FoldedBlock f) blocks current₁ ∧
      ((current.flatMap (·.ops)).countP k.isOpen < fuel → Rounds f k current k₁ current₁) := by
  induction fuel generalizing k current with
  | zero => exact ⟨k, current, rfl, hk, h.imp fun _ _ h => h.1, fun hfuel => by omega⟩
  | succ fuel ih =>
    obtain ⟨k₁, current₁, p, heq, hkept, hstep⟩ := foldBlocks_advances hf hone hk hblocks h
    have hp := hstep.stuck
    have hcount := hstep.count
    rw [rounds, heq]
    cases p with
    | stuck => exact absurd rfl hp
    | same => exact ⟨k₁, current₁, rfl, hstep.sound, hkept.imp fun _ _ h => h.1, fun _ => .last heq⟩
    | changed =>
      obtain ⟨k₂, current₂, heq', hsound, hfolded, hrounds⟩ := ih hstep.sound hkept
      refine ⟨k₂, current₂, heq', hsound, hfolded, fun hfuel => .more heq (hrounds ?_)⟩
      change _ + 1 ≤ _ at hcount
      omega

end

lemma exists_rounds_eq (hf : f.Checked m) (hone : ∀ b ∈ f.blocks, ∀ op ∈ b.ops,
    op.code.hasOneResult → op.results.length = 1) (fuel : Nat) :
    ∃ k blocks, rounds f fuel {} f.blocks.toList = (k, blocks, true) ∧ Sound f k ∧
      Forall₂ (FoldedBlock f) f.blocks.toList blocks ∧
      ((f.blocks.toList.flatMap (·.ops)).countP (Known.isOpen {}) < fuel →
        Rounds f {} f.blocks.toList k blocks) := by
  have hops : ∀ b ∈ f.blocks.toList, ∀ op ∈ b.ops, ∃ i j, f.OpAt i j op := by
    intro b hb op hop
    obtain ⟨i, hi⟩ := mem_iff_getElem?.1 hb
    obtain ⟨j, hj⟩ := mem_iff_getElem?.1 hop
    rw [Array.getElem?_toList] at hi
    exact ⟨i, j, b, hi, hj⟩
  have hstart : Sound f {} := by
    refine ⟨?_, fun _ => 0, by simp⟩
    constructor <;> intro v x h <;> simp at h
  have hsame : Forall₂ (KeptBlock f {}) f.blocks.toList f.blocks.toList :=
    forall₂_same.2 fun b _ => ⟨⟨rfl, rfl, rfl, forall₂_same.2 fun op _ => .inl rfl⟩,
      forall₂_same.2 fun op _ => .inl rfl⟩
  exact rounds_spec hf hone hstart hops hsame fuel

/-! ## The finished function -/

/-- The edge that a terminator takes is known before the code runs. -/
inductive Decided (f : Func) : Terminator → Edge → Prop
  | condBr {cond : ValueId} {yes no : Edge} {c : Nat} (h : Constant f cond c) :
      Decided f (.condBr cond yes no) (if c ≠ 0 then yes else no)
  | switch {value : ValueId} {cases : List (Nat × Edge)} {default : Edge} {listed : Bool} {c : Nat}
      (h : Constant f value c) :
      Decided f (.switch value cases default listed) (Machine.switchEdge c cases default)

lemma Decided.mem_edges {e : Edge} (h : Decided f t e) : e ∈ t.edges := by
  cases h with
  | condBr _ =>
    rw [Terminator.edges]
    split <;> simp
  | switch _ => exact Machine.switchEdge_mem _ _ _

def FinishedOp (f : Func) (g : ValueId → ValueId) (op op' : Op) : Prop :=
  op' = { op with args := op.args.map g } ∨ ∃ z, Computes f op z ∧ op' = constOp op z

/-- Values renamed, known operations written as constants, a decided branch as a jump. -/
structure Finished (f : Func) (g : ValueId → ValueId) (b b' : Block) : Prop where
  id : b'.id = b.id
  params : b'.params = b.params
  ops : List.Forall₂ (fun op op' => op' = { op with args := op.args.map g } ∨
    ∃ z, Computes f op z ∧ op' = constOp op z) b.ops b'.ops
  term : b'.term = b.term.mapUses g ∨
    ∃ e, Decided f b.term e ∧ b'.term = .br (Terminator.onArgs g e)

def finishBlock (k : Fold.Known) (b : Block) : Block :=
  match Fold.jump? k.consts (k.replaced.applyBlock b).term with
  | some edge => { k.replaced.applyBlock b with term := .br edge }
  | none => k.replaced.applyBlock b

lemma decided_of_jump? (hk : KnownFacts f k)
    {edge : Edge} (h : jump? k.consts (t.mapUses k.replaced.find) = some edge) :
    ∃ e, Decided f t e ∧ edge = Terminator.onArgs k.replaced.find e := by
  cases t with
  | condBr cond yes no =>
    simp only [Terminator.mapUses, jump?] at h
    split at h
    · next c hc =>
      rw [Option.some.injEq] at h
      refine ⟨_, .condBr ((hk.leads_find cond).constant (hk.consts _ c hc)), ?_⟩
      rw [← h]
      split <;> rfl
    · cases h
  | switch value cases default listed =>
    simp only [Terminator.mapUses, jump?] at h
    split at h
    · next c hc =>
      split at h
      · next hsmall =>
        rw [Option.some.injEq] at h
        refine ⟨_, .switch ((hk.leads_find value).constant (hk.consts _ c hc)), ?_⟩
        rw [← Machine.switchEdge_map (Terminator.onArgs k.replaced.find), ← h, Machine.switchEdge,
          if_pos hsmall]
      · cases h
    · cases h
  | _ => simp [Terminator.mapUses, jump?] at h

lemma finished_finishBlock (hk : KnownFacts f k) {current : Block}
    (h : FoldedBlock f b current) : Finished f k.replaced.find b (finishBlock k current) := by
  have hops : Forall₂ (FinishedOp f k.replaced.find) b.ops (k.replaced.applyBlock current).ops := by
    rw [Replacements.applyBlock, forall₂_map_right_iff]
    refine h.ops.imp fun op cur hcur => ?_
    rcases hcur with rfl | ⟨z, hz, rfl⟩
    · exact .inl rfl
    · exact .inr ⟨z, hz, rfl⟩
  have hterm : (k.replaced.applyBlock current).term = b.term.mapUses k.replaced.find := by
    rw [Replacements.applyBlock, h.term]
  unfold finishBlock
  split
  · next edge hedge =>
    rw [hterm] at hedge
    obtain ⟨e, hdecided, rfl⟩ := decided_of_jump? hk hedge
    exact ⟨h.id, h.params, hops, .inr ⟨e, hdecided, rfl⟩⟩
  · exact ⟨h.id, h.params, hops, .inl hterm⟩

lemma foldl_foldBranch (consts : Std.HashMap ValueId Nat) (blocks : List Block)
    (state : Nat × Array Block) :
    (blocks.foldl (foldBranch consts) state).2 = state.2 ++
      (blocks.map fun b => match jump? consts b.term with
        | some edge => { b with term := .br edge }
        | none => b).toArray := by
  induction blocks generalizing state with
  | nil => simp
  | cons b rest ih =>
    rw [foldl_cons, ih, foldBranch]
    split
    · next edge hedge => simp [hedge]
    · next hnone => simp [hnone]

lemma exists_fold_eq (hf : f.Valid m) :
    ∃ g blocks n,
      (∀ v, Leads f v (g v)) ∧ Forall₂ (Finished f g) f.blocks.toList blocks ∧
      f.fold = .done { f with blocks := blocks.toArray } n := by
  obtain ⟨known, blocks, hrounds, ⟨hk, -⟩, hblocks, -⟩ := exists_rounds_eq hf.checked
    (fun b hb op hop h => by
      obtain ⟨v, hv, -⟩ := (hf.built b hb op hop).one h
      rw [hv, length_singleton]) (f.opCount + 1)
  rw [fold, hrounds]
  have hbranches := foldl_foldBranch known.consts (blocks.map known.replaced.applyBlock)
    (known.folded, #[])
  have hfinish : blocks.map (finishBlock known) = (blocks.map known.replaced.applyBlock).map
      fun b => match jump? known.consts b.term with
        | some edge => { b with term := .br edge }
        | none => b := by
    rw [map_map]
    rfl
  rw [← hfinish, Array.empty_append] at hbranches
  dsimp only
  rw [Replacements.apply_eq, ← Array.foldl_toList]
  rw [Array.toList_map]
  generalize foldl (foldBranch known.consts) (known.folded, #[])
    (blocks.map known.replaced.applyBlock) = out at hbranches ⊢
  obtain ⟨n, finished⟩ := out
  subst hbranches
  refine ⟨known.replaced.find, blocks.map (finishBlock known), n, hk.leads_find, ?_, rfl⟩
  rw [forall₂_map_right_iff]
  exact hblocks.imp fun b c h => finished_finishBlock hk h

/-! ## The finished function is valid -/

lemma Leads.typeOf (hf : f.Valid m) {v w : ValueId} (h : Leads f v w) :
    f.typeOf w = f.typeOf v := by
  induction h with
  | refl => rfl
  | step hstands _ ih =>
    obtain ⟨i, k, op, c, yes, no, b, hop, hcode, hres, hargs, -, rfl⟩ := hstands
    obtain ⟨-, hyes, hno⟩ :=
      Machine.select_types (hf.opProblem? hop) (hf.op_built hop) hcode hres hargs
    rw [ih]
    split
    · exact hyes
    · exact hno

lemma Leads.mem_defined (hf : f.Valid m)
    (h : Leads f v w) (hv : v ∈ f.defined) : w ∈ f.defined := by
  induction h with
  | refl => exact hv
  | step hstands _ ih =>
    obtain ⟨i, k, op, hop, -, hw⟩ := hstands.mem_args
    obtain ⟨b, hb, hmem⟩ := hop.mem
    exact ih ((hf.checked.block b hb).operands op hmem _ hw)

lemma Leads.inScope (hf : f.Valid m) (h : Leads f v w)
    {k : Nat} (hb : f.blocks[i]? = some b) (hv : f.InScope i b k v) : f.InScope i b k w := by
  induction h with
  | refl => exact hv
  | step hstands _ ih => exact ih ((hstands.precedes hf).inScope i b k hb hv)

lemma Leads.reg_eq (hf : f.Valid m) (h : Leads f v w)
    {k : Nat} (hb : f.blocks[i]? = some b) (hv : f.InScope i b k v)
    {regs : Array Machine.Image} (hknows : Machine.Knows f (f.InScope i b k) regs) :
    Machine.reg regs w = Machine.reg regs v := by
  induction h with
  | refl => rfl
  | step hstands _ ih =>
    rw [ih ((hstands.precedes hf).inScope i b k hb hv), hknows.stands _ _ hv hstands]

namespace Finished

variable {g : ValueId → ValueId} {b' : Block}

section

variable (h : Finished f g b b')
include h

lemma results : b'.ops.map (·.results) = b.ops.map (·.results) := by
  have hops := h.ops
  generalize b.ops = ops at hops ⊢
  generalize b'.ops = ops' at hops ⊢
  induction hops with
  | nil => rfl
  | @cons op op' ops ops' hop _ ih =>
    rw [map_cons, ih]
    rcases hop with rfl | ⟨z, -, rfl⟩
    · rfl
    · rfl

lemma length_ops : b'.ops.length = b.ops.length := by
  simpa using congrArg length h.results

lemma defs : b'.defs = b.defs := Block.defs_congr h.params h.results

lemma exists_edge {e' : Edge} (he : e' ∈ b'.term.edges) :
    ∃ e ∈ b.term.edges, e' = Terminator.onArgs g e := by
  rcases h.term with hterm | ⟨e, hdecided, hterm⟩
  · rw [hterm, Terminator.edges_mapUses, mem_map] at he
    obtain ⟨e, he, rfl⟩ := he
    exact ⟨e, he, rfl⟩
  · rw [hterm, Terminator.edges, mem_singleton] at he
    exact ⟨e, hdecided.mem_edges, he⟩

lemma exists_use (hw : w ∈ b'.term.uses) : ∃ v ∈ b.term.uses, w = g v := by
  rcases h.term with hterm | ⟨e, hdecided, hterm⟩
  · rw [hterm, Terminator.uses_mapUses, mem_map] at hw
    obtain ⟨v, hv, rfl⟩ := hw
    exact ⟨v, hv, rfl⟩
  · rw [hterm] at hw
    simp only [Terminator.uses, Terminator.edges, nil_append, flatMap_cons,
      flatMap_nil, append_nil, mem_map] at hw
    obtain ⟨v, hv, rfl⟩ := hw
    exact ⟨v, Machine.mem_uses_of_mem_edges hdecided.mem_edges hv, rfl⟩

end

end Finished

section

variable {g : ValueId → ValueId} {blocks : List Block}

lemma finish_defined (hfin : Forall₂ (Finished f g) f.blocks.toList blocks) :
    (f.withBlocks blocks).defined = f.defined := by
  rw [defined, flatMap_def]
  congr 1
  generalize f.blocks.toList = given at hfin
  induction hfin with
  | nil => rfl
  | cons h _ ih => rw [map_cons, map_cons, h.defs, ih]

lemma finish_inScope (hfin : Forall₂ (Finished f g) f.blocks.toList blocks) {k : Nat}
    {b' : Block} (hb : f.blocks[i]? = some b) (hb' : (f.withBlocks blocks).blocks[i]? = some b')
    (hv : f.InScope i b k v) : (f.withBlocks blocks).InScope i b' k v := by
  rcases hv with hv | hv
  · refine .inl (hv.of_subset (fun before h => ?_) fun d hd => ?_)
    · have hentry : (f.withBlocks blocks).entry = f.entry := rfl
      refine Func.Path.of_subset hentry (fun i j hsucc => ?_) h
      obtain ⟨b', hb', e', he', htarget⟩ := hsucc
      obtain ⟨b, hb, hblock⟩ := (withBlocks_getElem? hfin i).2 b' hb'
      obtain ⟨e, he, rfl⟩ := hblock.exists_edge he'
      exact ⟨b, hb, e, he, htarget⟩
    · obtain ⟨c, hc, hdef⟩ := hd
      obtain ⟨c', hc', hblock⟩ := (withBlocks_getElem? hfin d).1 c hc
      exact ⟨c', hc', by rw [hblock.defs]; exact hdef⟩
  · obtain ⟨b'', hb'', hblock⟩ := (withBlocks_getElem? hfin i).1 b hb
    cases hb'.symm.trans hb''
    exact .inr (by rw [Block.defsBefore_congr hblock.params hblock.results]; exact hv)

lemma finish_op (hf : f.Valid m) (hg : ∀ v, Leads f v (g v)) {op' : Op} (hb : b ∈ f.blocks)
    (hop : op ∈ b.ops) (h : FinishedOp f g op op') :
    opProblem? m (f.withBlocks blocks) op' = none ∧ op'.Built (f.withBlocks blocks) := by
  have hbuilt := hf.built b hb op hop
  rcases h with rfl | ⟨z, ⟨hint, zs, -, -, heval⟩, rfl⟩
  · have hargs : ({ op with args := op.args.map g } : Op).args.map (f.withBlocks blocks).typeOf =
        op.args.map f.typeOf := by
      rw [map_map]
      exact map_congr_left fun v _ => (hg v).typeOf hf
    refine ⟨?_, hbuilt.rename rfl hargs rfl⟩
    rw [opProblem?_congr (.refl m) rfl hargs rfl]
    exact (hf.checked.block b hb).ops op hop
  · obtain ⟨v, hres, htype⟩ := hbuilt.one (Machine.hasOneResult_of_evalWords? heval)
    obtain ⟨hsize, -⟩ := Ty.bits_le_storeSize hint
    constructor
    · have hlen : ((constOp op z).imm.length : Int) = (constOp op z).type.storeSize := by
        simp only [constOp, imageOf, Bytes.length_ofNat]
        omega
      exact if_pos (decide_eq_true hlen)
    · refine ⟨fun _ => ⟨v, hres, htype⟩, fun _ => rfl, ?_⟩
      rintro (h | h) <;> cases h

lemma valid_finish (hf : f.Valid m) (hg : ∀ v, Leads f v (g v))
    (hfin : Forall₂ (Finished f g) f.blocks.toList blocks) : (f.withBlocks blocks).Valid m := by
  have hmem : ∀ v ∈ f.defined, g v ∈ (f.withBlocks blocks).defined := by
    intro v hv
    rw [finish_defined hfin]
    exact (hg v).mem_defined hf hv
  refine ⟨⟨?_, ?_, ?_, ?_, ?_⟩, ⟨?_, ?_⟩, ?_⟩
  · obtain ⟨b, hb, htypes⟩ := hf.checked.entry
    obtain ⟨b', hb', hfinished⟩ := withBlocks_block? hfin hb
    exact ⟨b', hb', by rw [hfinished.params]; exact htypes⟩
  · rw [finish_defined hfin]
    exact hf.checked.range
  · rw [finish_defined hfin]
    exact hf.checked.nodup
  · intro i b' hb'
    obtain ⟨b, hb, hfinished⟩ := (withBlocks_getElem? hfin i).2 b' hb'
    rw [hfinished.id]
    exact hf.checked.place i b hb
  · intro b' hb'
    obtain ⟨b, hb, hfinished⟩ := withBlocks_mem hfin hb'
    have hcheck := hf.checked.block b hb
    refine ⟨?_, ?_, ?_, ?_, ?_, ?_⟩
    · intro op' hop' w hw
      obtain ⟨op, hop, hrel⟩ := (forall₂_mem hfinished.ops).2 op' hop'
      rcases hrel with rfl | ⟨z, -, rfl⟩
      · obtain ⟨v, hv, rfl⟩ := mem_map.1 hw
        exact hmem v (hcheck.operands op hop v hv)
      · cases hw
    · intro op' hop'
      obtain ⟨op, hop, hrel⟩ := (forall₂_mem hfinished.ops).2 op' hop'
      exact (finish_op hf hg hb hop hrel).1
    · rcases hfinished.term with hterm | ⟨e, -, hterm⟩
      · rw [hterm, Terminator.isClosed_mapUses]
        exact hcheck.closed
      · rw [hterm]
        rfl
    · intro w hw
      obtain ⟨v, hv, rfl⟩ := hfinished.exists_use hw
      exact hmem v (hcheck.uses v hv)
    · intro e' he'
      obtain ⟨e, he, rfl⟩ := hfinished.exists_edge he'
      obtain ⟨c, hc, htypes⟩ := hcheck.edges e he
      obtain ⟨c', hc', hfinished⟩ := withBlocks_block? hfin hc
      refine ⟨c', hc', ?_⟩
      have hc'' : c'.params.map (f.withBlocks blocks).typeOf = c.params.map f.typeOf := by
        rw [hfinished.params]
        rfl
      rw [hc'', ← htypes, map_map]
      exact map_congr_left fun v _ => (hg v).typeOf hf
    · rcases hfinished.term with hterm | ⟨e, -, hterm⟩
      · rw [hterm]
        exact hcheck.term.mapUses (fun v _ => (hg v).typeOf hf) rfl
      · rw [hterm]
        trivial
  · intro i b' hb' k op' hop' w hw
    obtain ⟨b, hb, hfinished⟩ := (withBlocks_getElem? hfin i).2 b' hb'
    obtain ⟨op, hop, hrel⟩ := (forall₂_getElem? hfinished.ops k).2 op' hop'
    rcases hrel with rfl | ⟨z, -, rfl⟩
    · obtain ⟨v, hv, rfl⟩ := mem_map.1 hw
      have hscope := hf.dominated.ops i b hb k op hop v hv
      exact finish_inScope hfin hb hb' ((hg v).inScope hf hb hscope)
    · cases hw
  · intro i b' hb' w hw
    obtain ⟨b, hb, hfinished⟩ := (withBlocks_getElem? hfin i).2 b' hb'
    obtain ⟨v, hv, rfl⟩ := hfinished.exists_use hw
    rw [hfinished.length_ops]
    exact finish_inScope hfin hb hb' ((hg v).inScope hf hb (hf.dominated.term i b hb v hv))
  · intro b' hb' op' hop'
    obtain ⟨b, hb, hfinished⟩ := withBlocks_mem hfin hb'
    obtain ⟨op, hop, hrel⟩ := (forall₂_mem hfinished.ops).2 op' hop'
    exact (finish_op hf hg hb hop hrel).2

end

end Sierra.Ir

namespace Sierra.Machine

open Ir List

variable {σ : Type} {m : Module} {f : Func} {g : ValueId → ValueId} {blocks : List Block}
  {before : List Nat} {env : Env σ} {fr : Frame} {b : Block}

/-! ## The finished function does the same work -/

lemma funcFault?_finish (hf : f.Valid m) (hfin : List.Forall₂ (Finished f g) f.blocks.toList blocks)
    (hfault : funcFault? f = none) : funcFault? (f.withBlocks blocks) = none := by
  rw [funcFault?_eq_none_iff] at hfault ⊢
  intro b' hb' op' hop'
  obtain ⟨b, hb, hfinished⟩ := Func.withBlocks_mem hfin hb'
  obtain ⟨op, hop, hrel⟩ := (forall₂_mem hfinished.ops).2 op' hop'
  have hgiven := hfault b hb op hop
  rcases hrel with rfl | ⟨z, ⟨-, zs, -, -, heval⟩, rfl⟩
  · rw [opFault?_eq_none_iff] at hgiven ⊢
    simpa [hasShape] using hgiven
  · obtain ⟨v, hres, -⟩ := (hf.built b hb op hop).one (hasOneResult_of_evalWords? heval)
    rw [opFault?_eq_none_iff]
    simp [constOp, hasShape, hres]

/-- The same place and the same registers, which hold what is known. -/
def FoldRel (f : Func) (g : ValueId → ValueId) (blocks : List Block) (fr fr' : Frame) : Prop :=
  ∃ (before : List Nat) (i : Nat) (b b' : Block) (k : Nat), At f before i b k fr ∧
    (f.withBlocks blocks).blocks[i]? = some b' ∧ Finished f g b b' ∧
    Knows f (f.InScope i b k) fr.regs ∧
    fr' = ⟨f.withBlocks blocks, fr.regs, b'.ops.drop k, b'.term, fr.depth⟩

section Run

variable (hf : f.Valid m) (hnarrow : Narrow f)
include hf hnarrow

lemma nextOf_of_decided {t : Terminator} {e : Edge} (h : Decided f t e) (htyped : t.Typed f)
    {scope : ValueId → Prop} {regs : Array Image} (hscope : ∀ v ∈ t.uses, scope v)
    (hknows : Knows f scope regs) : nextOf f regs t = .jump e := by
  cases h with
  | @condBr cond yes no c hc =>
    have hbelow := below_of_constant hf hnarrow hc
    rw [htyped] at hbelow
    have hword := hknows.constant cond c (hscope cond (by simp [Terminator.uses])) hc
    simp only [nextOf, hbelow.flag_iff hword, decide_eq_true_eq]
  | @switch value cases default listed c hc =>
    have hword := hknows.constant value c (hscope value (by simp [Terminator.uses])) hc
    rw [nextOf_switch, hword]

variable (hg : ∀ v, Leads f v (g v))
include hg

lemma opImages_finished {i k : Nat} (hat : At f before i b k fr)
    (hknows : Knows f (f.InScope i b k) fr.regs) {op op' : Op} (hop : b.ops[k]? = some op)
    (hrel : FinishedOp f g op op') {world world' : World σ} {images : List Image}
    (h : opImages env m f fr.regs op world = .ok images world') :
    opImages env m (f.withBlocks blocks) fr.regs op' world = .ok images world' := by
  have hopAt : f.OpAt i k op := ⟨b, hat.block, hop⟩
  have hscope := hf.dominated.ops i b hat.block k op hop
  rcases hrel with rfl | ⟨z, hz, rfl⟩
  · rw [← h]
    refine congrFun (opImages_congr ?_ ?_ rfl rfl rfl) world
    · rw [map_map]
      exact map_congr_left fun v hv => (hg v).reg_eq hf hat.block (hscope v hv) hknows
    · rw [map_map]
      exact map_congr_left fun v _ => (hg v).typeOf hf
  · obtain ⟨hint, zs, hlen, hconsts, heval⟩ := id hz
    have hbuilt := hf.op_built hopAt
    have hone := hasOneResult_of_evalWords? heval
    obtain ⟨v, hres, htype⟩ := hbuilt.one hone
    obtain ⟨rfl, image, rfl, himg⟩ := (opImages_pure_eq_ok_iff (isPure_of_evalWords? heval)).1 h
    have hwords := hknows.argReg_word hscope hlen hconsts
    rw [pureResult_of_evalWords? (hf.opProblem? hopAt) hbuilt hint hwords heval,
      Except.ok.injEq] at himg
    have hbelow := below_of_constant hf hnarrow (hz.constant hopAt hres)
    rw [htype] at hbelow
    refine (opImages_pure_eq_ok_iff rfl).2 ⟨rfl, image, rfl, ?_⟩
    simp only [pureResult, constOp, Except.ok.injEq]
    rw [hbelow.normalize_imageOf (hnarrow.hasWidth_type hres hbuilt hone), himg]

lemma nextOf_finished {i : Nat} {b' : Block} {f' : Func} (hname : f'.name = f.name)
    (hat : At f before i b b.ops.length fr) (hfinished : Finished f g b b')
    (hknows : Knows f (f.InScope i b b.ops.length) fr.regs) {next : Next}
    (h : nextOf f fr.regs b.term = next) :
    nextOf f' fr.regs b'.term = next.onEdge (Terminator.onArgs g) := by
  have hscope := hf.dominated.term i b hat.block
  rcases hfinished.term with hterm | ⟨e', hdecided, hterm⟩
  · rw [hterm]
    exact nextOf_mapUses hname (fun v hv => (hg v).reg_eq hf hat.block (hscope v hv) hknows) h
  · have htyped := (hf.checked.blockAt hat.block).term
    rw [nextOf_of_decided hf hnarrow hdecided htyped hscope hknows] at h
    rw [hterm, nextOf, ← h, Next.onEdge]

lemma refines_finish (hfin : List.Forall₂ (Finished f g) f.blocks.toList blocks)
    (hfault : funcFault? f = none) : Refines env m f (f.withBlocks blocks) := by
  have hfault' := funcFault?_eq_none_iff.1 (funcFault?_finish hf hfin hfault)
  rw [funcFault?_eq_none_iff] at hfault
  have hvalid' := valid_finish hf hg hfin
  refine ⟨FoldRel f g blocks, ?_⟩
  constructor
  case func =>
    rintro fr fr' ⟨before, i, b, b', k, hat, -, -, -, rfl⟩
    exact ⟨hat.func, rfl, rfl⟩
  case enter =>
    intro args depth fr h
    obtain ⟨hdepth, i, b, regs, rfl, hentry, hat, hassign⟩ := at_of_enter h
    obtain ⟨b', hb', hfinished⟩ := (Func.withBlocks_getElem? hfin i).1 b hat.block
    refine ⟨_, enter_eq_ok_iff.2 ⟨hdepth, i, b', _, hentry, hb', ?_, rfl⟩, [], i, b, b', 0, hat, hb',
      hfinished, ?_, rfl⟩
    · rw [hfinished.params]
      exact hassign
    · refine Knows.at_start hf hat hassign ⟨fun v z hv _ => ?_, fun v w hv _ => ?_⟩
      · exact absurd hv (Func.not_avail_entry hentry)
      · exact absurd hv (Func.not_avail_entry hentry)
  case done =>
    rintro fr fr' values ⟨before, i, b, b', k, hat, hb', hfinished, hknows, rfl⟩ hops hdone
    obtain rfl := hat.eq_length hops
    rw [hat.term] at hdone
    exact ⟨by rw [← hfinished.length_ops, drop_length],
      nextOf_finished hf hnarrow hg rfl hat hfinished hknows hdone⟩
  case jump =>
    rintro fr fr' next edge ⟨before, i, b, b', k, hat, hb', hfinished, hknows, rfl⟩ hops hnext hjump
    obtain rfl := hat.eq_length hops
    obtain ⟨j, c, regs, rfl, hedge, htarget, hsucc, hat', hassign⟩ := hat.jump hnext hjump
    obtain ⟨c', hc', hfinished'⟩ := (Func.withBlocks_getElem? hfin j).1 c hat'.block
    rw [hat.term] at hnext
    have hscope := hf.dominated.term i b hat.block
    have hargs : (Terminator.onArgs g edge).args.map (reg fr.regs) =
        edge.args.map (reg fr.regs) := by
      rw [map_map]
      exact map_congr_left fun v hv => (hg v).reg_eq hf hat.block
        (hscope v (mem_uses_of_mem_edges hedge hv)) hknows
    refine .inr ⟨by rw [← hfinished.length_ops, drop_length], Terminator.onArgs g edge, _,
      nextOf_finished hf hnarrow hg rfl hat hfinished hknows hnext,
      jump?_eq_some_iff.2 ⟨j, c', _, htarget, hc', ?_, rfl⟩,
      i :: before, j, c, c', 0, hat', hc', hfinished', ?_, rfl⟩
    · rw [hargs, hfinished'.params]
      exact hassign
    · refine Knows.at_start hf hat' hassign ⟨fun v z hv hconst => ?_, fun v w hv hstands => ?_⟩
      · exact hknows.constant v z (hv.of_succ hat.block hsucc) hconst
      · exact hknows.stands v w (hv.of_succ hat.block hsucc) hstands
  case op =>
    rintro fr fr' op rest regs world world' ⟨before, i, b, b', k, hat, hb', hfinished, hknows, rfl⟩
      hops hcode hexec
    obtain ⟨hop, hrest⟩ := hat.getElem? hops
    obtain ⟨op', hop', hrel⟩ := (forall₂_getElem? hfinished.ops k).1 op hop
    have hopAt : f.OpAt i k op := ⟨b, hat.block, hop⟩
    have hbuilt' := hvalid'.built b' (Array.mem_of_getElem? hb') op' (mem_of_getElem? hop')
    have hcode' : op'.code ≠ .call := by
      rcases hrel with rfl | ⟨z, -, rfl⟩
      · exact hcode
      · simp [constOp]
    have hres : op'.results = op.results := by
      rcases hrel with rfl | ⟨z, -, rfl⟩ <;> rfl
    obtain ⟨images, regs', himages, hassign, hassign', hexec'⟩ :=
      execOp_transfer (hf.op_built hopAt) hbuilt'
        (hfault b (Array.mem_of_getElem? hat.block) op (mem_of_getElem? hop))
        (hfault' b' (Array.mem_of_getElem? hb') op' (mem_of_getElem? hop')) hcode hcode'
        hres (fun images => opImages_finished hf hnarrow hg hat hknows hop hrel) hexec
    cases hassign.symm.trans hassign'
    refine .inr ⟨op', b'.ops.drop (k + 1), regs, drop_eq_cons hop', hcode', hexec', before, i, b,
      b', k + 1, hat.next hops (size_assign? hassign), hb', hfinished, ?_, rfl⟩
    refine hknows.next hf hnarrow hat hop hassign fun hpure => ?_
    exact ((opImages_pure_eq_ok_iff hpure).1 himages).2
  case call =>
    rintro fr fr' op rest out regs ⟨before, i, b, b', k, hat, hb', hfinished, hknows, rfl⟩ hops hcode
      hassign
    obtain ⟨hop, hrest⟩ := hat.getElem? hops
    obtain ⟨op', hop', hrel⟩ := (forall₂_getElem? hfinished.ops k).1 op hop
    have hscope := hf.dominated.ops i b hat.block k op hop
    rcases hrel with rfl | ⟨z, ⟨-, zs, -, -, heval⟩, rfl⟩
    · refine ⟨_, b'.ops.drop (k + 1), regs, drop_eq_cons hop', hcode, rfl, ?_, hassign, before, i, b,
        b', k + 1, hat.next hops (size_assign? hassign), hb', hfinished, ?_, rfl⟩
      · rw [map_map]
        exact map_congr_left fun v hv => (hg v).reg_eq hf hat.block (hscope v hv) hknows
      · refine hknows.next hf hnarrow hat hop hassign fun hpure => ?_
        rw [hcode] at hpure
        cases hpure
    · have hpure := isPure_of_evalWords? heval
      rw [hcode] at hpure
      cases hpure

end Run

lemma replaces_fold (env : Env σ) (hf : f.Valid m) (hnarrow : Narrow f) :
    f.fold.changes.isSome ∧ f.fold.func.Valid m ∧ Replaces env m f f.fold.func := by
  obtain ⟨g, blocks, n, hg, hfin, heq⟩ := exists_fold_eq hf
  rw [heq]
  exact ⟨rfl, valid_finish hf hg hfin, rfl, rfl, rfl, rfl, funcFault?_finish hf hfin,
    refines_finish hf hnarrow hg hfin⟩

end Sierra.Machine
