import Sierra.Proofs.Flow
import Sierra.Proofs.Lower.Code

/-!
# The code of a function

An entry block with the arguments of the function, and one block for each reachable statement. The
code of a statement goes on its block and on new ones, so it stays when the next is written
(`Laid`).
-/

namespace Sierra.Lower

open List
open Ir

variable {blocks : Array (Option BlockId)} {d d' : Draft} {flow : Flow} {f : Func}
  {gas : Gas.Analysis} {s : Settled} {types : Types} {nodes : List Flow.Node} {vars : List TypeId}
  {ts : List Ty} {b : Ir.Block} {first : Nat}

/-! ## Blank blocks -/

/-- Nothing is written, and parameters have the types given by their Sierra types. -/
structure Blank (types : Types) (f : Func) (vars : List TypeId) (i : Nat) (b : Ir.Block) :
    Prop where
  found : f.blocks[i]? = some b
  ops : b.ops = []
  term : b.term = .none
  nodup : b.params.Nodup
  marks : ∀ v ∈ b.params, HasMark f.values.size v
  types : List.Forall₂ (fun v t => types.register t = .ok (f.typeOf v)) b.params vars

lemma blank_addBlank (h : Forall₂ (fun t register => types.register t = .ok register) vars ts)
    (f : Func) : ∃ b, Blank types (f.addBlank ts) vars f.blocks.size b := by
  have hsize : (f.addBlank ts).values.size = f.values.size + ts.length := by
    show (f.values ++ ts.toArray).size = f.values.size + ts.length
    rw [Array.size_append]
    rfl
  refine ⟨{ id := f.blocks.size, params := f.nextIds ts.length },
    (Func.getElem?_addBlock _ _ _).trans (if_pos rfl), rfl, rfl, Func.nodup_nextIds _ _,
    fun v hv => ?_, ?_⟩
  · obtain ⟨hge, hlt⟩ := Func.mem_nextIds.1 hv
    have hpos : (0 : Int) ≤ v := Int.le_trans (Int.natCast_nonneg _) hge
    have hnat : Int.toNat v < (f.addBlank ts).values.size := by
      omega
    exact ⟨hpos, hnat⟩
  · rw [forall₂_iff_get]
    have hlen := h.length_eq
    refine ⟨by rw [Func.length_nextIds, hlen], fun k hk hk' => ?_⟩
    have hkt : k < ts.length := by
      rw [Func.length_nextIds] at hk
      exact hk
    have htype : (f.addBlank ts).typeOf ((f.values.size + k : Nat) : Int) = ts[k] := by
      show (if ((f.values.size + k : Nat) : Int) < 0 then Ty.none
        else ((f.values ++ ts.toArray)[((f.values.size + k : Nat) : Int).toNat]?).getD .none) = _
      rw [if_neg (by omega), Int.toNat_natCast, Array.getElem?_append_right (Nat.le_add_right _ _),
        Nat.add_sub_cancel_left, getElem?_toArray, getElem?_eq_getElem hkt,
        Option.getD_some]
    have hval : (f.nextIds ts.length).get ⟨k, hk⟩ = ((f.values.size + k : Nat) : Int) := by
      simp [Func.nextIds]
    rw [hval, htype]
    exact h.get hk' hkt

lemma Blank.keeps {f' : Func} {i place : Nat}
    (h : Blank types f vars i b) (hkeep : f.Keeps f' place) (hne : i ≠ place) :
    Blank types f' vars i b where
  found := hkeep.found h.found hne
  ops := h.ops
  term := h.term
  nodup := h.nodup
  marks := fun v hv => ⟨(h.marks v hv).1, Nat.lt_of_lt_of_le (h.marks v hv).2 hkeep.valuesSize⟩
  types := by
    refine ((forall₂_and_left _ _).2 ⟨h.marks, h.types⟩).imp fun v entry hv => ?_
    rw [hkeep.typeOf hv.1.lt]
    exact hv.2

/-! ## The blocks of the statements -/

lemma lift_mapM_eq_ok {α : Type} (key : α → TypeId) {as : List α}
    (h : as.mapM (fun a => Build.lift (types.register (key a))) d = .ok ts d') :
    Forall₂ (fun t register => types.register t = .ok register) (as.map key) ts ∧ d' = d := by
  induction as generalizing ts d' with
  | nil =>
    obtain ⟨rfl, rfl⟩ := pure_eq_ok.1 h
    exact ⟨.nil, rfl⟩
  | cons a as ih =>
    rw [mapM_cons] at h
    obtain ⟨t, d₁, hfirst, hothers⟩ := bind_eq_ok.1 h
    obtain ⟨ht, hd⟩ := Build.lift_eq_ok.1 hfirst
    obtain ⟨rest, d₂, hrest, hpure⟩ := bind_eq_ok.1 hothers
    obtain ⟨rfl, rfl⟩ := pure_eq_ok.1 hpure
    rw [hd] at hrest
    obtain ⟨hall, hd'⟩ := ih hrest
    exact ⟨.cons ht hall, hd'⟩

/-- The blocks of statements, from a place on. -/
structure Blocks (types : Types) (first : Nat) (nodes : List Flow.Node) (f : Func)
    (blocks : Array (Option BlockId)) : Prop where
  size : f.blocks.size = first + nodes.length
  places : ∀ (k : Nat) (n : Flow.Node), nodes[k]? = some n →
    blocks[n.index.toNat]? = some (some ((first + k : Nat) : Int)) ∧
      ∃ b, Blank types f (n.state.map (·.2)) (first + k) b

lemma makeBlocks_fold {blocks' : Array (Option BlockId)}
    (hlive : d.Live) (hnodup : (nodes.map (·.index.toNat)).Nodup)
    (hrange : ∀ n ∈ nodes, n.index.toNat < blocks.size)
    (h : nodes.foldlM (m := Build) (fun blocks n => do
      let params ← n.state.mapM fun (_, t) => Build.lift (types.register t)
      let id ← Build.newBlock params
      return blocks.modify n.index.toNat fun _ => some id) blocks d = .ok blocks' d') :
    d'.slot = d.slot ∧ d'.Live ∧ d.func.Keeps d'.func d.func.blocks.size ∧
      (∀ k, (∀ n ∈ nodes, n.index.toNat ≠ k) → blocks'[k]? = blocks[k]?) ∧
      Blocks types d.func.blocks.size nodes d'.func blocks' := by
  induction nodes generalizing blocks d with
  | nil =>
    obtain ⟨rfl, rfl⟩ := pure_eq_ok.1 h
    exact ⟨rfl, hlive, .refl _ _, fun _ _ => rfl, rfl, by simp⟩
  | cons n nodes ih =>
    obtain ⟨between, d₁, hfirst, hothers⟩ := bind_eq_ok.1 h
    obtain ⟨ts, d₂, hts, hadded⟩ := bind_eq_ok.1 hfirst
    obtain ⟨htypes, hd₂⟩ := lift_mapM_eq_ok (fun entry : VarId × TypeId => entry.2) hts
    rw [hd₂, bind_of_ok (Build.newBlock_apply hlive ts)] at hadded
    obtain ⟨rfl, rfl⟩ := pure_eq_ok.1 hadded
    obtain ⟨hhead, htail⟩ := nodup_cons.1 hnodup
    have hlive₁ := Draft.live_put hlive (d.func.addBlank ts)
    have hfunc : (d.put (d.func.addBlank ts)).func = d.func.addBlank ts := Draft.func_put hlive _
    have hsize : (d.func.addBlank ts).blocks.size = d.func.blocks.size + 1 :=
      Func.size_blocks_addBlock ..
    obtain ⟨hslot, hlive', hkeep, hkept, hblocks⟩ := ih hlive₁ htail
      (fun m hm => by rw [Array.size_modify]; exact hrange m (mem_cons_of_mem _ hm)) hothers
    rw [hfunc, hsize] at hkeep hblocks
    refine ⟨hslot, hlive', (Func.keeps_addBlank _ _).trans hkeep (.inr (Nat.le_succ _)),
      fun k hk => ?_, ?_,
      fun k m hm => ?_⟩
    · rw [hkept k fun m hm => hk m (mem_cons_of_mem _ hm), Array.getElem?_modify,
        if_neg (hk n mem_cons_self)]
    · rw [hblocks.size, length_cons]
      omega
    · cases k with
      | zero =>
        obtain rfl : n = m := by simpa using hm
        have hlt := hrange n mem_cons_self
        obtain ⟨b, hblank⟩ := blank_addBlank htypes d.func
        refine ⟨?_, b, hblank.keeps hkeep (by omega)⟩
        rw [hkept _ fun m hm hsame => hhead (mem_map.2 ⟨m, hm, hsame⟩), Array.getElem?_modify,
          if_pos rfl, Array.getElem?_eq_getElem hlt]
        rfl
      | succ k =>
        have hshift : d.func.blocks.size + (k + 1) = d.func.blocks.size + 1 + k := by omega
        rw [hshift]
        exact hblocks.places k m (by simpa using hm)

/-! ## The statements -/

section Statements

variable {p : Plan} {limit : Nat}

lemma Blocks.heads (gas : Gas.Analysis) (h : Blocks s.types first flow.order f blocks)
    (hflow : flow.Explored s) {n : Flow.Node} (hn : n ∈ flow.order) :
    ∃ i b, Plan.Heads ⟨s, gas, flow, blocks⟩ f.blocks.size f n i b ∧ first ≤ i ∧ b.ops = [] ∧
      b.term = .none := by
  obtain ⟨k, hk⟩ := mem_iff_getElem?.1 hn
  obtain ⟨hplace, b, hblank⟩ := h.places k n hk
  obtain ⟨hlt, -⟩ := List.getElem?_eq_some_iff.1 hk
  have hsize := h.size
  refine ⟨first + k, b, ⟨?_, by omega, hblank.found, hblank.nodup, hblank.marks, ?_⟩, by omega,
    hblank.ops, hblank.term⟩
  · rw [Plan.block?, if_neg (by have := (hflow.index_nonneg hn).1; omega), hplace, Option.getD_some]
  · exact forall₂_map_right_iff.1 hblank.types

lemma Blocks.injective (h : Blocks s.types first flow.order f blocks)
    (hflow : flow.Explored s) {n m : Flow.Node} (hn : n ∈ flow.order) (hm : m ∈ flow.order)
    (hsame : Plan.block? ⟨s, gas, flow, blocks⟩ n.index = Plan.block? ⟨s, gas, flow, blocks⟩ m.index) :
    n = m := by
  obtain ⟨j, hj⟩ := mem_iff_getElem?.1 hn
  obtain ⟨k, hk⟩ := mem_iff_getElem?.1 hm
  have hplace : ∀ {k : Nat} {n : Flow.Node}, flow.order[k]? = some n →
      Plan.block? ⟨s, gas, flow, blocks⟩ n.index = some ((first + k : Nat) : Int) := by
    intro k n hk
    have hpos := (hflow.index_nonneg (mem_of_getElem? hk)).1
    rw [Plan.block?, if_neg (by omega), (h.places k n hk).1, Option.getD_some]
  rw [hplace hj, hplace hk, Option.some.injEq] at hsame
  obtain rfl : j = k := by omega
  exact Option.some.inj (hj.symm.trans hk)

lemma statements_eq_ok (hlive : d.Live)
    (hblank : ∀ n ∈ nodes, ∃ i b, p.Heads limit d.func n i b ∧ b.ops = [] ∧ b.term = .none)
    (hdist : nodes.Pairwise fun n m => p.block? n.index ≠ p.block? m.index)
    (hlim : limit ≤ d.func.blocks.size)
    (hlib : ∀ n ∈ nodes, ∀ lib, n.libfunc = some lib → lib.Fragment)
    (htargets : ∀ n ∈ nodes, p.Targets limit n) (h : nodes.forM p.statement d = .ok () d') :
    d'.slot = d.slot ∧ d'.Live ∧ d'.func.name = d.func.name ∧ d'.func.entry = d.func.entry ∧
      (∀ i < limit, (∀ n ∈ nodes, p.block? n.index ≠ some (i : Int)) →
        d'.func.blocks[i]? = d.func.blocks[i]?) ∧
      d.func.values.size ≤ d'.func.values.size ∧
      (∀ m, (∀ n ∈ nodes, p.block? n.index ≠ p.block? m.index) → p.Coded limit d.func m →
        p.Coded limit d'.func m) ∧ ∀ n ∈ nodes, p.Coded limit d'.func n := by
  induction nodes generalizing d with
  | nil =>
    obtain ⟨-, rfl⟩ := pure_eq_ok.1 h
    exact ⟨rfl, hlive, rfl, rfl, fun _ _ _ => rfl, Nat.le_refl _, fun _ _ hm => hm, by simp⟩
  | cons n nodes ih =>
    obtain ⟨_, d₁, hfirst, hothers⟩ := bind_eq_ok.1 h
    obtain ⟨i, b, hheads, hops, hterm⟩ := hblank n mem_cons_self
    obtain ⟨hhead, htail⟩ := pairwise_cons.1 hdist
    obtain ⟨hslot, hlive₁, hkeep, hcoded⟩ := Plan.statement_eq_ok hlive hheads hops hterm hlim
      (hlib n mem_cons_self) (htargets n mem_cons_self) hfirst
    have hblank₁ : ∀ m ∈ nodes, ∃ i b, p.Heads limit d₁.func m i b ∧ b.ops = [] ∧
        b.term = .none := by
      intro m hm
      obtain ⟨j, c, hheads', hc⟩ := hblank m (mem_cons_of_mem _ hm)
      refine ⟨j, c, hheads'.keeps hkeep ?_, hc⟩
      rintro rfl
      exact hhead m hm (hheads.place.trans hheads'.place.symm)
    obtain ⟨hslot', hlive', hname, hentry, hblocks, hvals, hkept, hall⟩ := ih hlive₁ hblank₁ htail
      (Nat.le_trans hlim hkeep.blocksSize) (fun m hm => hlib m (mem_cons_of_mem _ hm))
      (fun m hm => htargets m (mem_cons_of_mem _ hm)) hothers
    refine ⟨hslot'.trans hslot, hlive', hname.trans hkeep.name, hentry.trans hkeep.entry,
      fun j hj hother => ?_, Nat.le_trans hkeep.valuesSize hvals, fun m hother hm => ?_,
      fun m hm => ?_⟩
    · rw [hblocks j hj fun m hm => hother m (mem_cons_of_mem _ hm)]
      refine hkeep.blocks j (by omega) ?_
      rintro rfl
      exact hother n mem_cons_self hheads.place
    · refine hkept m (fun m' hm' => hother m' (mem_cons_of_mem _ hm')) ?_
      refine hm.keeps hkeep hheads.lt ?_
      rw [← hheads.place]
      exact (hother n mem_cons_self).symm
    · rcases mem_cons.1 hm with rfl | hm
      · exact hkept _ (fun m' hm' => (hhead m' hm').symm) hcoded
      · exact hall m hm

end Statements

/-! ## Functions -/

/-- The entry block goes on to the first statement, and every statement has its code. -/
structure Laid (p : Plan) (limit : Nat) (f : Func) : Prop where
  name : f.name = p.flow.function.id.symbol
  entry : f.entry = 0
  start : ∃ (b : Ir.Block) (target : Nat) (args : List ValueId), f.blocks[0]? = some b ∧
    b.params.length = p.flow.function.paramTypes.length ∧ b.params.Nodup ∧
    (∀ v ∈ b.params, HasMark f.values.size v) ∧ b.ops = [] ∧ b.term = .br ⟨(target : Int), args⟩ ∧
    p.block? p.flow.function.entry = some (target : Int) ∧
    p.arrange p.flow.function.entry ((p.flow.function.params.map (·.var)).zip b.params) = .ok args
  coded : ∀ n ∈ p.flow.order, p.Coded limit f n
  injective : ∀ n ∈ p.flow.order, ∀ m ∈ p.flow.order, p.block? n.index = p.block? m.index → n = m

lemma body_eq_ok (hflow : flow.Explored s) (hlive : d.Live) (hsize : d.func.blocks.size = 1)
    (hname : d.func.name = flow.function.id.symbol) (hentry : d.func.entry = 0)
    (hb : Blank s.types d.func flow.function.paramTypes 0 b)
    (hlib : ∀ n ∈ flow.order, ∀ lib, n.libfunc = some lib → lib.Fragment)
    (h : body s gas flow d = .ok () d') :
    d'.slot = d.slot ∧ d'.Live ∧ ∃ blocks limit, Laid ⟨s, gas, flow, blocks⟩ limit d'.func := by
  obtain ⟨blocks, d₁, hmake, hrest⟩ := bind_eq_ok.1 h
  have hidx : ∀ n ∈ flow.order, 0 ≤ n.index ∧ n.index.toNat < flow.nodes.size :=
    fun n hn => hflow.index_nonneg hn
  have hnodup : (flow.order.map (·.index.toNat)).Nodup := by
    have hdist := hflow.nodup_index
    rw [List.Nodup, pairwise_map] at hdist ⊢
    refine hdist.imp_of_mem fun hn hm hne hsame => hne ?_
    have := (hidx _ hn).1
    have := (hidx _ hm).1
    omega
  obtain ⟨hslot₁, hlive₁, hkeep₁, -, hblocks⟩ := makeBlocks_fold hlive hnodup
    (fun n hn => by rw [Array.size_replicate]; exact (hidx n hn).2) hmake
  rw [hsize] at hkeep₁ hblocks
  generalize hp : (⟨s, gas, flow, blocks⟩ : Plan) = p at hrest
  have hb₁ := hb.keeps hkeep₁ (by omega)
  have hblock : d₁.func.block? 0 = some b := hb₁.found
  rw [bind_of_ok (Build.moveTo_apply _)] at hrest
  generalize hd₂ : ({ d₁ with block := 0 } : Draft) = d₂ at hrest
  have hfunc₂ : d₂.func = d₁.func := by rw [← hd₂]; rfl
  have hlive₂ : d₂.Live := by rw [← hd₂]; exact hlive₁
  rw [bind_of_ok (Build.paramsOf_apply _), hfunc₂, hblock] at hrest
  obtain ⟨args, d₃, hargs, hrest⟩ := bind_eq_ok.1 hrest
  obtain ⟨harrange, hd₃⟩ := Build.lift_eq_ok.1 hargs
  have hplace₃ : d₃.block.toNat = 0 := by rw [hd₃, ← hd₂]; rfl
  rw [← hd₃] at hfunc₂ hlive₂
  rw [Build.br, bind_of_ok (Build.close_apply hlive₂ _), hplace₃, hfunc₂] at hrest
  generalize hf₄ : d₁.func.onBlock 0 _ = f₄ at hrest
  have hkeep₄ : d₁.func.Keeps f₄ 0 := by
    rw [← hf₄]
    exact (Func.Keeps.refl _ _).onBlock (.inl rfl) _
  have hlive₄ := Draft.live_put hlive₂ f₄
  have hfunc₄ := Draft.func_put hlive₂ f₄
  -- every statement has a blank block, none of them the entry block
  have hheads : ∀ n ∈ flow.order, ∃ i b, p.Heads d₁.func.blocks.size f₄ n i b ∧ 1 ≤ i ∧
      b.ops = [] ∧ b.term = .none := by
    intro n hn
    obtain ⟨i, c, hheads, hge, hc⟩ := hblocks.heads gas hflow hn
    rw [hp] at hheads
    exact ⟨i, c, hheads.keeps hkeep₄ (by omega), hge, hc⟩
  have hpositive : ∀ n ∈ flow.order, p.block? n.index ≠ some 0 := by
    intro n hn hzero
    obtain ⟨i, c, hheads, hge, -⟩ := hheads n hn
    rw [hheads.place, Option.some.injEq] at hzero
    omega
  have hinj : ∀ n ∈ flow.order, ∀ m ∈ flow.order, p.block? n.index = p.block? m.index →
      n = m := by
    rw [← hp]
    exact fun n hn m hm => hblocks.injective hflow hn hm
  obtain ⟨hslot, hlive', hname', hentry', hkept, hvals, -, hcoded⟩ := statements_eq_ok hlive₄
      (fun n hn => by
        obtain ⟨i, c, hheads, -, hc⟩ := hheads n hn
        exact ⟨i, c, hfunc₄.symm ▸ hheads, hc⟩)
      (by
        have hdist := hflow.nodup_index
        rw [List.Nodup, pairwise_map] at hdist
        exact hdist.imp_of_mem fun hn hm hne hsame =>
          hne (congrArg _ (hinj _ hn _ hm hsame)))
      (show d₁.func.blocks.size ≤ _ by rw [hfunc₄]; exact hkeep₄.blocksSize) hlib
      (fun n hn e he => by
        obtain ⟨m, hm, htarget⟩ := hflow.exists_target hn he
        obtain ⟨i, c, hheads, -⟩ := hheads m hm
        exact ⟨i, hheads.lt, htarget ▸ hheads.place⟩) hrest
  rw [hfunc₄] at hname' hentry' hkept hvals
  obtain ⟨n₀, hn₀, -⟩ := hflow.entry
  obtain ⟨target, _, hheads₀, -⟩ := hheads n₀ (Flow.mem_order_of_node? hn₀)
  have hplace₀ := hheads₀.place
  rw [(hflow.visited_of_node? hn₀).2] at hplace₀
  rw [hplace₀] at hf₄
  refine ⟨hslot.trans ((congrArg Draft.slot (hd₃.trans hd₂.symm)).trans hslot₁), hlive', blocks,
    d₁.func.blocks.size, ?_⟩
  rw [hp]
  have hflow' : p.flow = flow := by rw [← hp]
  refine ⟨?_, ?_, ?_, hflow' ▸ hcoded, hflow' ▸ hinj⟩
  · rw [hname', hkeep₄.name, hkeep₁.name, hname, hflow']
  · rw [hentry', hkeep₄.entry, hkeep₁.entry, hentry]
  · have hzero : d'.func.blocks[0]? = f₄.blocks[0]? :=
      hkept 0 (by have := hblocks.size; omega) fun n hn => hpositive n hn
    rw [hflow']
    refine ⟨{ b with term := .br ⟨(target : Int), args⟩ }, target, args, ?_, hb₁.types.length_eq,
      hb₁.nodup, fun v hv => ?_, hb₁.ops, rfl, hplace₀, harrange⟩
    · rw [hzero, ← hf₄]
      exact Func.found_onBlock hb₁.found _
    · exact ⟨(hb₁.marks v hv).1, Nat.lt_of_lt_of_le (hb₁.marks v hv).2
        (Nat.le_trans hkeep₄.valuesSize hvals)⟩

lemma function_eq_ok (hflow : flow.Explored s)
    (hlib : ∀ n ∈ flow.order, ∀ lib, n.libfunc = some lib → lib.Fragment)
    (h : function s gas flow d = .ok () d') :
    ∃ f blocks limit, d'.funcs[d.funcs.size]? = some f ∧ Laid ⟨s, gas, flow, blocks⟩ limit f := by
  obtain ⟨params, d₁, hparams, hrest⟩ := bind_eq_ok.1 h
  obtain ⟨htypes, hd₁⟩ := lift_mapM_eq_ok (fun t => t) hparams
  rw [map_id'] at htypes
  obtain ⟨results, d₂, hres, hrest⟩ := bind_eq_ok.1 hrest
  obtain ⟨-, hd₂⟩ := lift_mapM_eq_ok (fun t => t) hres
  obtain ⟨slot, d₃, hadd, hrest⟩ := bind_eq_ok.1 hrest
  rw [tryCatch_eq_ok, hd₂, hd₁] at hadd
  obtain ⟨hslot, hd₃⟩ := Build.addFunc_eq_ok hadd
  have hsize : d₃.funcs.size = d.funcs.size + 1 := by
    rw [hd₃]
    exact Array.size_push ..
  have hlt₃ : slot < d₃.funcs.size := by omega
  have hlive : (d₃.within slot).Live := hlt₃
  have hfunc : (d₃.within slot).func =
      { name := flow.function.id.symbol, params := params, results := results, isPublic := true } := by
    rw [hd₃, hslot]
    show ((d.funcs.push _)[d.funcs.size]?).getD default = _
    rw [Array.getElem?_push_size, Option.getD_some]
  obtain ⟨last, hbody, hd'⟩ := Build.inFunc_eq_ok hlt₃ hrest
  rw [hfunc] at hbody
  obtain ⟨b, hblank⟩ := blank_addBlank htypes
    { name := flow.function.id.symbol, params := params, results := results, isPublic := true }
  have hadded := Draft.func_put hlive (Func.addBlank
    { name := flow.function.id.symbol, params := params, results := results, isPublic := true } params)
  rw [← hadded] at hblank
  obtain ⟨hslot', hlive', blocks, limit, hlaid⟩ := body_eq_ok hflow (Draft.live_put hlive _)
    (by rw [hadded]; rfl) (by rw [hadded]; rfl) (by rw [hadded]; rfl) hblank hlib hbody
  refine ⟨last.func, blocks, limit, ?_, hlaid⟩
  have hslot'' : last.slot = d.funcs.size := hslot'.trans hslot
  have hlt : d.funcs.size < last.funcs.size := hslot'' ▸ hlive'
  rw [hd', Draft.func, hslot'']
  rw [Array.getElem?_eq_getElem hlt, Option.getD_some]

end Sierra.Lower
