import Sierra.Proofs.Ir.Built
import Sierra.Proofs.Loops

/-!
# Renaming what code reads

Passes replace values by others of the same type and edges by others; the rules look at operands
through their types (`opProblem?_congr`).
-/

namespace Sierra.Ir

open List Terminator

variable {f f' : Func} {op op' : Op} {t : Terminator} {R : Block → Block → Prop}
  {blocks : List Block} {g : Edge → Edge}

abbrev Func.withBlocks (f : Func) (blocks : List Block) : Func :=
  { f with blocks := blocks.toArray }

lemma Func.withBlocks_getElem? (h : Forall₂ R f.blocks.toList blocks) (i : Nat) :
    (∀ b, f.blocks[i]? = some b → ∃ b', (f.withBlocks blocks).blocks[i]? = some b' ∧ R b b') ∧
      ∀ b', (f.withBlocks blocks).blocks[i]? = some b' → ∃ b, f.blocks[i]? = some b ∧ R b b' := by
  have h := forall₂_getElem? h i
  simpa using h

lemma Func.withBlocks_mem (h : Forall₂ R f.blocks.toList blocks) {b' : Block}
    (hb' : b' ∈ (f.withBlocks blocks).blocks) : ∃ b ∈ f.blocks, R b b' := by
  obtain ⟨b, hb, hrel⟩ := (forall₂_mem h).2 b' (mem_toArray.1 hb')
  exact ⟨b, Array.mem_toList_iff.1 hb, hrel⟩

/-! ## Terminators -/

namespace Terminator

abbrev onArgs (g : ValueId → ValueId) (e : Edge) : Edge := { e with args := e.args.map g }

lemma edges_mapUses (g : ValueId → ValueId) (t : Terminator) :
    (t.mapUses g).edges = t.edges.map (onArgs g) := by
  cases t <;> simp [mapUses, edges, onArgs, Function.comp_def]

lemma uses_mapUses (g : ValueId → ValueId) (t : Terminator) :
    (t.mapUses g).uses = t.uses.map g := by
  cases t <;> simp [mapUses, uses, edges, flatMap_map, map_flatMap]

lemma edges_mapEdges (g : Edge → Edge) (t : Terminator) : (t.mapEdges g).edges = t.edges.map g := by
  cases t <;> simp [mapEdges, edges, Function.comp_def]

lemma isClosed_mapUses (g : ValueId → ValueId) (t : Terminator) :
    (t.mapUses g).isClosed = t.isClosed := by
  cases t <;> rfl

lemma isClosed_mapEdges (g : Edge → Edge) (t : Terminator) :
    (t.mapEdges g).isClosed = t.isClosed := by
  cases t <;> rfl

lemma mapUses_id (t : Terminator) : t.mapUses id = t := by
  cases t <;> simp [mapUses]

lemma mem_uses_mapEdges {v : ValueId}
    (h : v ∈ (t.mapEdges g).uses) : v ∈ t.uses ∨ ∃ e ∈ t.edges, v ∈ (g e).args := by
  cases t with
  | switch value cases default listed =>
    simp only [mapEdges, uses, edges, map_map, singleton_append, mem_cons,
      mem_flatMap, mem_append, mem_map, not_mem_nil, or_false] at h ⊢
    rcases h with h | ⟨e, ⟨case, hcase, rfl⟩ | rfl, hv⟩
    · exact .inl (.inl h)
    · exact .inr ⟨case.2, .inl ⟨case, hcase, rfl⟩, hv⟩
    · exact .inr ⟨default, .inr rfl, hv⟩
  | br edge => exact .inr ⟨edge, by simp [edges], by simpa [mapEdges, uses, edges] using h⟩
  | condBr cond yes no =>
    simp only [mapEdges, uses, edges, singleton_append, mem_cons, flatMap_cons,
      flatMap_nil, mem_append] at h ⊢
    rcases h with h | h | h
    · exact .inl (.inl h)
    · exact .inr ⟨yes, .inl rfl, h⟩
    · exact .inr ⟨no, .inr (.inl rfl), by simpa using h⟩
  | _ => exact .inl h

lemma Typed.mapUses {g : ValueId → ValueId} (h : t.Typed f)
    (hg : ∀ v ∈ t.uses, f'.typeOf (g v) = f.typeOf v) (hres : f'.results = f.results) :
    (t.mapUses g).Typed f' := by
  cases t with
  | condBr cond yes no =>
    simp only [mapUses, Typed] at h ⊢
    rw [hg cond (by simp [uses]), h]
  | switch value cases default listed =>
    simp only [mapUses, Typed] at h ⊢
    rw [hg value (by simp [uses]), h]
  | ret values =>
    simp only [mapUses, Typed, map_map, hres] at h ⊢
    rw [← h]
    exact map_congr_left fun v hv => hg v (by simp [uses, hv])
  | _ => trivial

lemma Typed.mapEdges (h : t.Typed f) (hvals : f'.values = f.values)
    (hres : f'.results = f.results) : (t.mapEdges g).Typed f' := by
  have htype : ∀ v, f'.typeOf v = f.typeOf v := by
    intro v
    rw [Func.typeOf, Func.typeOf, hvals]
  cases t with
  | condBr cond yes no | switch value cases default listed =>
    simpa [mapEdges, Typed, htype] using h
  | ret values =>
    simp only [mapEdges, Typed, hres] at h ⊢
    rw [← h]
    exact map_congr_left fun v _ => htype v
  | _ => trivial

end Terminator

/-! ## Operations -/

lemma Func.typeOf_congr (hvals : f'.values = f.values) : f'.typeOf = f.typeOf := by
  funext v
  rw [Func.typeOf, Func.typeOf, hvals]

lemma argType_congr (htypes : op'.args.map f'.typeOf = op.args.map f.typeOf) (index : Nat) :
    argType f' op' index = argType f op index := by
  have h := congrArg (·[index]?) htypes
  simp only [getElem?_map] at h
  unfold argType
  cases hop : op.args[index]? <;> cases hop' : op'.args[index]? <;>
    simp_all

def SameSignatures (m m' : Module) : Prop :=
  m'.runtime = m.runtime ∧ ∀ name, (m'.func? name).map (fun f => (f.params, f.results)) =
    (m.func? name).map (fun f => (f.params, f.results))

lemma SameSignatures.refl (m : Module) : SameSignatures m m := ⟨rfl, fun _ => rfl⟩

lemma opProblem?_congr {m m' : Module} (hsig : SameSignatures m m')
    (hop : op' = { op with args := op'.args })
    (hargs : op'.args.map f'.typeOf = op.args.map f.typeOf)
    (hres : op.results.map f'.typeOf = op.results.map f.typeOf) :
    opProblem? m' f' op' = opProblem? m f op := by
  have hlen : op'.args.length = op.args.length := by
    simpa using congrArg length hargs
  have ht : argType f' op' = argType f op := funext (argType_congr hargs)
  have hcall : ∀ params results,
      signatureProblem? f' op' params results = signatureProblem? f op params results := by
    intro params results
    have hr : op'.results = op.results := by rw [hop]
    have hc : op'.callee = op.callee := by rw [hop]
    rw [signatureProblem?, signatureProblem?, hlen, hr, hargs, hres, hc]
  have hfunc := hsig.2 op.callee
  have hruntime : m'.runtime? op.callee = m.runtime? op.callee := by
    rw [Module.runtime?, Module.runtime?, hsig.1]
  have hcode : op'.code = op.code := by rw [hop]
  have htype : op'.type = op.type := by rw [hop]
  have himm : op'.imm = op.imm := by rw [hop]
  have hoffset : op'.offset = op.offset := by rw [hop]
  have hname : op'.callee = op.callee := by rw [hop]
  unfold opProblem?
  simp only [ht, hlen, hcode, htype, himm, hoffset, hname, hruntime, hcall]
  cases op.code with
  | call =>
    cases hf : m.func? op.callee with
    | none =>
      rw [hf, Option.map_none, Option.map_eq_none_iff] at hfunc
      rw [hfunc]
    | some callee =>
      rw [hf, Option.map_some, Option.map_eq_some_iff] at hfunc
      obtain ⟨callee', hf', heq⟩ := hfunc
      rw [Prod.mk.injEq] at heq
      rw [hf']
      dsimp only
      rw [heq.1, heq.2]
  | cast code => cases code <;> rfl
  | _ => rfl

lemma Op.Built.rename (h : op.Built f) (hop : op' = { op with args := op'.args })
    (hargs : op'.args.map f'.typeOf = op.args.map f.typeOf)
    (hvals : f'.values = f.values) : op'.Built f' := by
  refine h.congr (by rw [hop]) (by rw [hop]) (by rw [hop]) ?_ ?_
  · intro i
    exact (argType_congr hargs i).symm
  · intro v
    rw [Func.typeOf_congr hvals]

end Sierra.Ir
