import Sierra.Proofs.Lower.Holds
import Sierra.Proofs.Lower.Layout
import Sierra.Proofs.Machine.Words
import Sierra.Proofs.Types

/-!
# Standing before a statement

An activation stands before a statement at the start of its block, whose parameters are what the
store has (`Stands`). A function that pays has the amount taken from its counter, or traps.
-/

namespace Sierra.Lower

open Ir Machine Array List

variable {n : Flow.Node} {i : Nat}

def Plan.statementAt? (p : Plan) (target : BlockId) : Option Int :=
  (p.flow.order.find? fun n => p.block? n.index == some target).map (·.index)

def Plan.Quiet (p : Plan) (trail : List Arrival) : Prop :=
  ∀ a ∈ trail, p.statementAt? a.edge.target = none

section

variable {p : Plan} {limit : Nat} {f : Func}

lemma Laid.statementAt?_eq (h : Laid p limit f) (hn : n ∈ p.flow.order) {target : BlockId}
    (htarget : p.block? n.index = some target) : p.statementAt? target = some n.index := by
  unfold Plan.statementAt?
  have hsome : (p.flow.order.find? fun n => p.block? n.index == some target).isSome :=
    find?_isSome.2 ⟨n, hn, by simpa using htarget⟩
  obtain ⟨m, hm⟩ := Option.isSome_iff_exists.1 hsome
  have hblock : p.block? m.index = some target := by simpa using find?_some hm
  rw [hm, h.injective m (mem_of_find?_eq_some hm) n hn (hblock.trans htarget.symm)]
  rfl

lemma Laid.statementAt?_eq_none (h : Laid p limit f) (hi : limit ≤ i) :
    p.statementAt? (i : Int) = none := by
  unfold Plan.statementAt?
  rw [Option.map_eq_none_iff, List.find?_eq_none]
  intro n hn hsame
  obtain ⟨j, b, rest, values, hheads, -⟩ := h.coded n hn
  rw [hheads.place] at hsame
  have hcast : (j : Int) = (i : Int) := by simpa using hsame
  have hlt := hheads.lt
  omega

end

variable {σ : Type} {env : Env σ} {mp : Machine.Program} {p : Plan} {limit depth : Nat} {f : Func}

structure Stands (p : Plan) (limit : Nat) (f : Func) (depth : Nat) (x : State σ) (n : Flow.Node)
    (b : Ir.Block) (frame : Frame) : Prop where
  node : p.flow.node? x.index = some n
  heads : ∃ i, p.Heads limit f n i b
  place : frame = ⟨f, frame.regs, b.ops, b.term, depth⟩
  size : frame.regs.size = f.values.size
  images : b.params.map (reg frame.regs) = x.store.images
  fits : x.store.Fits n.state

structure Poised (f : Func) (depth : Nat) (x : State σ) (n : Flow.Node) (rest : Ir.Block)
    (values : Values) (frame : Frame) : Prop where
  place : frame = ⟨f, frame.regs, rest.ops, rest.term, depth⟩
  size : frame.regs.size = f.values.size
  holds : Holds frame.regs values x.store
  fits : x.store.Fits n.state

lemma exists_stands (world : World σ) {t : Int} {store : Store}
    {b : Ir.Block} (hn : p.flow.node? t = some n) (hheads : p.Heads limit f n i b)
    (hfits : store.Fits n.state) {mid : Frame} (hfunc : mid.func = f) (hdepth : mid.depth = depth)
    (hsize : mid.regs.size = f.values.size) {values : Values} (hholds : Holds mid.regs values store)
    {e : Ir.Edge} (htarget : e.target = (i : Int)) (hargs : p.arrange t values = .ok e.args) :
    ∃ next, jump? mid e = some next ∧ Stands p limit f depth ⟨t, store, world⟩ n b next ∧
      (next.arrival e).images = store.images := by
  obtain ⟨m, hm, harranged⟩ := Plan.arrange_eq_ok hargs
  cases hn.symm.trans hm
  have himages := hholds.images_eq hfits harranged
  have hlen : (e.args.map (reg mid.regs)).length = b.params.length := by
    rw [length_map, ← harranged.length_eq, hheads.types.length_eq]
  obtain ⟨regs, hregs⟩ := exists_assign? (le_of_eq hlen.symm) mid.regs
  have hread := map_reg_assign? hregs hheads.nodup (by rw [hsize]; exact hheads.marks) hlen
  refine ⟨_, jump?_eq_some_iff.2 ⟨i, b, regs, htarget, hfunc ▸ hheads.found, hregs, rfl⟩, ?_, ?_⟩
  · refine ⟨hn, ⟨i, hheads⟩, by rw [← hfunc, ← hdepth], ?_, hread.trans himages, hfits⟩
    rw [size_assign? hregs, hsize]
  · show ((mid.func.block? e.target).elim [] (·.params)).map (reg regs) = _
    rw [htarget, Func.block?_natCast, hfunc, hheads.found]
    exact hread.trans himages

/-! ## The first statement -/

lemma fits_initial {g : Function} {vars : Vars} (h : Flow.initial g = .ok vars)
    {images : List Image} (hlen : images.length = g.params.length) :
    (Store.empty.bring (bindAll (g.params.map fun p => (p.var, p.type)) images)).Fits vars ∧
      ((bindAll (g.params.map fun p => (p.var, p.type)) images).map (·.var)).Nodup := by
  have hfits : Store.empty.Fits [] := .nil
  obtain ⟨hfits, hnodup, -⟩ := hfits.bring_of_foldlM (fun q : Param => (q.var, q.type))
    (fun _ _ _ => Flow.bringOne_eq_ok) (map_bindAll (by simpa using hlen)) h
  exact ⟨hfits, hnodup⟩

lemma Laid.exists_stands (env : Env σ) (mp : Machine.Program) {s : Settled} (h : Laid p limit f)
    (hflow : p.flow.Explored s)
    (hparams : p.flow.function.params.length = p.flow.function.paramTypes.length)
    {args : List Image} (hargs : args.length = p.flow.function.params.length)
    (hdepth : depth < env.maxDepth) (world : World σ) :
    ∃ frame first n b e, enter env f args depth = .ok frame ∧
      Passes env mp frame world [first.arrival e] first (tick world) ∧
      Stands p limit f depth (begins p.flow.function args world) n b first ∧
      p.block? p.flow.function.entry = some e.target ∧
      (first.arrival e).images = (begins p.flow.function args world).store.images := by
  obtain ⟨b, target, values, hfound, hlen, hnodup, hmarks, hops, hterm, htarget, harrange⟩ :=
    h.start
  obtain ⟨n, hn, hinit⟩ := hflow.entry
  obtain ⟨i, c, _, _, hheads, -⟩ := h.coded n (Flow.mem_order_of_node? hn)
  have hplace := hheads.place
  rw [(hflow.visited_of_node? hn).2, htarget, Option.some.injEq] at hplace
  -- the entry block receives the arguments
  have hcount : args.length = b.params.length := by rw [hargs, hparams, hlen]
  obtain ⟨regs, hregs⟩ := exists_assign? (le_of_eq hcount.symm) (replicate f.values.size [])
  have hsize : regs.size = f.values.size := by rw [size_assign? hregs, size_replicate]
  have hread := map_reg_assign? hregs hnodup (by rw [size_replicate]; exact hmarks) hcount
  have hentered : enter env f args depth = .ok ⟨f, regs, b.ops, b.term, depth⟩ := by
    rw [enter, if_neg (Nat.not_le_of_lt hdepth), h.entry, show f.block? 0 = some b from hfound]
    dsimp only
    rw [hregs]
  obtain ⟨hfits, hvars⟩ := fits_initial hinit hargs
  -- the first statement gets what the entry block holds
  have hholds : Holds regs ((p.flow.function.params.map (·.var)).zip b.params)
      (begins p.flow.function args world).store := by
    have hempty : Holds regs [] Store.empty := fun _ => rfl
    have htake : Store.empty.take [] = some ([], Store.empty) := rfl
    rw [← hread] at hvars
    have hall := hempty.bring htake .nil (by simp [← hcount, hargs]) hvars
    rw [hread, map_nil, append_nil, List.map_map] at hall
    exact hall
  have hmid : (⟨f, regs, [], b.term, depth⟩ : Frame).regs.size = f.values.size := hsize
  have hedge : (⟨(target : Int), values⟩ : Ir.Edge).target = (i : Int) := hplace
  obtain ⟨next, hjump, hstands, himages⟩ :=
    Lower.exists_stands (tick world) hn hheads hfits rfl rfl hmid hholds hedge harrange
  refine ⟨_, next, n, c, ⟨(target : Int), values⟩, hentered, ?_, hstands, htarget, himages⟩
  rw [hops]
  refine .along rfl ?_ hjump (.here _ _)
  rw [hterm]
  rfl

end Sierra.Lower
