import Sierra.Proofs.Lower.Pay

/-!
# One statement

A statement that moves has a way of the machine to the next (`Realized.moves`), a way into the block
of a statement comes from a move (`Realized.exists_moves`), and both end alike (`Realized.ends`,
`Realized.finishes`).
-/

namespace Sierra

open List Flow
open Ir Machine

variable {n : Flow.Node} {frame last : Frame} {call : Invocation} {b rest : Ir.Block}
  {lib : Libfunc} {trail : List Arrival} {args : List Image} {branch : Nat} {x : Piece}
  {p : Lower.Plan} {left : Store} {values : Lower.Values} {gas : Gas.Analysis} {vs : List VarId}
  {s : Settled} {t : Int} {outputs : List ValueId}

/-! ## The flow of variables and the store -/

namespace Store

variable {s : Store} {vars : Vars} {g : Function} {index : Int}

lemma map_fst_zipIdx_zip {α β : Type} {as : List α} {bs : List β} (h : as.length = bs.length) :
    (as.zip bs).zipIdx.map (fun entry => entry.1.1) = as := by
  have hfst : (as.zip bs).zipIdx.map (fun entry => entry.1.1) =
      ((as.zip bs).zipIdx.map (·.1)).map (·.1) := by
    rw [map_map]
    rfl
  rw [hfst, zipIdx_map_fst, map_fst_zip (le_of_eq h)]

lemma Fits.take_of_takeArgs (hfits : s.Fits vars) {lib : LibfuncId}
    {ts : List TypeId} (hlen : vs.length = ts.length) {rest : Vars}
    (h : takeArgs g index lib vars (vs.zip ts) = .ok rest) :
    ∃ images left, s.take vs = some (images, left) ∧ left.Fits rest := by
  have htake := Fits.take_of_foldlM (fun entry : (VarId × TypeId) × Nat => entry.1)
    (fun _ _ _ => takeOne_eq_ok) h hfits
  rwa [map_fst_zipIdx_zip hlen] at htake

lemma Fits.take_of_checkReturn (hfits : s.Fits vars) (h : checkReturn g index vars vs = .ok ()) :
    ∃ images left, s.take vs = some (images, left) ∧ left.bindings = [] := by
  unfold checkReturn at h
  by_cases hlen : vs.length = g.retTypes.length
  swap
  · rw [if_pos hlen] at h
    cases h
  rw [if_neg (not_not.2 hlen)] at h
  obtain ⟨rest, hrest, hlast⟩ := except_bind_eq_ok.1 h
  obtain ⟨images, left, htake, hleft⟩ :=
    Fits.take_of_foldlM (fun entry : (VarId × TypeId) × Nat => entry.1)
      (fun _ _ _ => takeOne_eq_ok) hrest hfits
  rw [map_fst_zipIdx_zip hlen] at htake
  refine ⟨images, left, htake, ?_⟩
  cases rest with
  | nil => exact forall₂_nil_right_iff.1 hleft
  | cons entry rest => cases hlast

lemma Fits.bring_of_bringResults (hfits : s.Fits vars) {results : List (VarId × TypeId)}
    {next : Vars} (h : bringResults g index vars results = .ok next) {images : List Image}
    (hlen : images.length = results.length) :
    (s.bring (Lower.bindAll results images)).Fits next ∧
      ((Lower.bindAll results images).map (·.var)).Nodup := by
  obtain ⟨hfits, hnodup, -⟩ := hfits.bring_of_foldlM (fun entry => entry)
    (fun _ _ _ => bringOne_eq_ok) ((Lower.map_bindAll hlen).trans (map_id' _).symm) h
  exact ⟨hfits, hnodup⟩

lemma Fits.of_same (hfits : s.Fits vars) {known : Vars} (h : known.same vars) :
    s.Fits known := by
  unfold Fits at hfits ⊢
  generalize s.bindings = bs at hfits ⊢
  have h := Vars.same_iff.1 h
  induction hfits generalizing known with
  | nil =>
    cases h
    exact .nil
  | cons hfirst _ ih =>
    obtain - | ⟨hsame, hrest⟩ := h
    rw [Ident.same, beq_iff_eq] at hfirst
    refine .cons ⟨hfirst.1.trans hsame.1.symm, ?_⟩ (ih (Vars.same_iff.2 hrest) hrest)
    rw [Ident.same, beq_iff_eq, hfirst.2, hsame.2]

end Store

namespace Lower

variable {σ : Type}

/-! ## What is visited -/

/-- The blocks entered, with what their parameters receive. -/
def Plan.visits (p : Plan) (trail : List Arrival) : List (Int × List Image) :=
  trail.filterMap fun a => (p.statementAt? a.edge.target).map fun index => (index, a.images)

/-- The statement, and the values of the live variables in ascending order. -/
def State.visit (x : State σ) : Int × List Image := (x.index, x.store.images)

lemma Plan.visits_append (p : Plan) (trail trail' : List Arrival) :
    p.visits (trail ++ trail') = p.visits trail ++ p.visits trail' :=
  filterMap_append

lemma Plan.Quiet.visits_eq (h : p.Quiet trail) : p.visits trail = [] := by
  unfold Plan.visits
  rw [filterMap_eq_nil_iff]
  intro a ha
  rw [h a ha]
  rfl

lemma Plan.quiet_append {trail' : List Arrival} :
    p.Quiet (trail ++ trail') ↔ p.Quiet trail ∧ p.Quiet trail' := by
  simp only [Plan.Quiet, mem_append, or_imp, forall_and]

/-! ## Functions with the code of their statements -/

/-- The code of a statement, the piece of an invocation being known. -/
def Plan.CodedBy (p : Plan) (limit : Nat) (f : Func) (n : Flow.Node) (x : Piece) : Prop :=
  ∃ i b rest values, p.Heads limit f n i b ∧ p.Begins limit f n b rest values ∧
    match n.statement with
    | .ret vars => rest.ops = [] ∧ rest.term = .ret (vars.map (valueOf values))
    | .invoke call => ∃ lib, p.Emits limit f n rest values call lib x

/-- A function that lowering has written, with the pieces of its invocations. -/
structure Realized (p : Plan) (limit : Nat) (f : Func) (code : Int → Piece) : Prop where
  laid : Laid p limit f
  flow : p.flow.Explored p.settled
  types : p.settled.types.Sound
  amounts : ∀ index, due p.gas index < pow2 64
  coded : ∀ n ∈ p.flow.order, p.CodedBy limit f n (code n.index)

lemma Laid.exists_code {limit : Nat} {f : Func} (h : Laid p limit f)
    (hflow : p.flow.Explored p.settled) :
    ∃ code : Int → Piece, ∀ n ∈ p.flow.order, p.CodedBy limit f n (code n.index) := by
  have hchoice : ∀ index : Int, ∃ x : Piece, ∀ n ∈ p.flow.order, n.index = index →
      p.CodedBy limit f n x := by
    intro index
    by_cases hsome : ∃ n ∈ p.flow.order, n.index = index
    · obtain ⟨n, hn, hidx⟩ := hsome
      obtain ⟨i, b, rest, values, hheads, hbegins, hdoes⟩ := h.coded n hn
      unfold Plan.Does at hdoes
      -- a statement is the only one with its index
      suffices hx : ∃ x, p.CodedBy limit f n x by
        obtain ⟨x, hx⟩ := hx
        refine ⟨x, fun m hm hm' => ?_⟩
        rw [hflow.eq_of_index hm hn (hm'.trans hidx.symm)]
        exact hx
      unfold Plan.CodedBy
      cases hstmt : n.statement with
      | ret vars =>
        rw [hstmt] at hdoes
        exact ⟨⟨⟨p.settled.types, 0, 0, 0, [], []⟩, default, default⟩, i, b, rest, values, hheads,
          hbegins, hdoes⟩
      | invoke call =>
        rw [hstmt] at hdoes
        obtain ⟨lib, x, hemit⟩ := hdoes
        exact ⟨x, i, b, rest, values, hheads, hbegins, lib, hemit⟩
    · exact ⟨⟨⟨p.settled.types, 0, 0, 0, [], []⟩, default, default⟩,
        fun n hn hidx => absurd ⟨n, hn, hidx⟩ hsome⟩
  choose code hcode using hchoice
  exact ⟨code, fun n hn => hcode n.index n hn rfl⟩

def conduct (env : Env σ) (mp : Machine.Program) (f : Func) (depth : Nat) (code : Int → Piece) :
    Conduct σ where
  leaves := fun index => (code index).Leaves env mp f depth
  stops := fun index => (code index).Stops env mp f depth

variable {env : Env σ} {mp : Machine.Program} {p : Plan} {limit depth : Nat} {f : Func}
  {code : Int → Piece} {y : State σ}

lemma Pays.unique {x y' : State σ} (h : Pays s gas x y) (h' : Pays s gas x y') : y = y' := by
  cases h with
  | free hdue =>
    cases h' with
    | free => rfl
    | paid hdue' => omega
  | paid hdue hcounter =>
    cases h' with
    | free hdue' => omega
    | paid _ hcounter' =>
      cases hcounter.symm.trans hcounter'
      rfl

lemma Pays.not_short {x : State σ} (h : Pays s gas x y)
    {c : Binding} (hcounter : counter? s.types x.store = some c)
    (hshort : c.image.word < due gas x.index) : False := by
  cases h with
  | free hdue => omega
  | paid _ hcounter' henough =>
    cases hcounter.symm.trans hcounter'
    omega

/-! ## Leaving a piece -/

lemma Plan.Begins.nonneg {i : Nat} (h : p.Begins limit f n b rest values)
    (hheads : p.Heads limit f n i b) : ∀ entry ∈ values, (0 : Int) ≤ entry.2 := by
  have hstart : ∀ entry ∈ Plan.start n b, (0 : Int) ≤ entry.2 := fun entry hentry =>
    (hheads.marks entry.2 (Plan.mem_start hentry)).1
  cases h with
  | plain => exact hstart
  | checked =>
    intro entry hentry
    obtain ⟨⟨v, value⟩, hold, rfl⟩ := mem_map.1 hentry
    dsimp only
    split
    · exact Int.natCast_nonneg _
    · exact hstart _ hold

lemma Plan.exists_edge_of_landing
    {l : Landing} (h : (p.site n values call).landings[branch]? = some l) :
    ∃ e, n.edges[branch]? = some e ∧ l = p.landing n values branch e := by
  unfold Plan.site at h
  rw [getElem?_map, getElem?_zipIdx, Option.map_map, Option.map_eq_some_iff] at h
  obtain ⟨e, he, rfl⟩ := h
  refine ⟨e, he, ?_⟩
  simp

lemma Realized.exists_take (h : Realized p limit f code) (hn : p.flow.node? t = some n)
    (hstmt : n.statement = .invoke call) {store : Store} (hfits : store.Fits n.state) :
    ∃ args left, store.take call.args = some (args, left) ∧ left.Fits n.remaining := by
  obtain ⟨lib, hinv⟩ := (h.flow.visited_of_node? hn).1.invokes hstmt
  exact hfits.take_of_takeArgs hinv.args hinv.taken

lemma Realized.exists_target (h : Realized p limit f code)
    (hn : p.flow.node? t = some n) (hstmt : n.statement = .invoke call)
    (hlib : n.libfunc = some lib) {e : Flow.Edge} (he : n.edges[branch]? = some e) :
    ∃ b signature m next, call.branches[branch]? = some b ∧
      lib.branches[branch]? = some signature ∧
      e = ⟨b.target.resolve n.index, b.results, signature.vars⟩ ∧
      e.results.length = e.types.length ∧ p.flow.node? e.target = some m ∧
      bringResults p.flow.function n.index n.remaining (e.results.zip e.types) = .ok next ∧
      m.state.same next := by
  obtain ⟨lib', hinv⟩ := (h.flow.visited_of_node? hn).1.invokes hstmt
  cases hlib.symm.trans hinv.libfunc
  have hedges := he
  rw [hinv.edges, getElem?_map, Option.map_eq_some_iff] at hedges
  obtain ⟨⟨b, signature⟩, hzip, hedge⟩ := hedges
  obtain ⟨hb, hsig⟩ := getElem?_zip_eq_some.1 hzip
  obtain ⟨hlen, -, next, known, hnext, hknown, hsame⟩ := hinv.arrives e (mem_of_getElem? he)
  obtain ⟨m, hm, hidx⟩ := h.flow.exists_target (mem_order_of_node? hn) (mem_of_getElem? he)
  have hfound := h.flow.node?_index hm
  rw [hidx] at hfound
  refine ⟨b, signature, m, next, hb, hsig, hedge.symm, hlen, hfound, hnext, ?_⟩
  have hstate := (h.flow.visited_of_node? hfound).1.state
  rw [hknown, Option.some.injEq] at hstate
  rw [← hstate]
  exact hsame

lemma Realized.lands (h : Realized p limit f code) {mid : Frame}
    (hn : p.flow.node? y.index = some n) (hstmt : n.statement = .invoke call)
    (hemit : p.Emits limit f n rest values call lib (code n.index))
    (hpoised : Poised f depth y n rest values frame) (hpos : ∀ entry ∈ values, (0 : Int) ≤ entry.2)
    (htake : y.store.take call.args = some (args, left)) {between : World σ}
    (hpass : Passes env mp ((code n.index).frame f depth frame.regs) y.world trail mid between)
    (howns : ∀ a ∈ trail, (code n.index).Holds a.edge) {e : Ir.Edge}
    (hexits : (code n.index).site.Exits e branch outputs) (world : World σ) :
    ∃ b signature next m c, call.branches[branch]? = some b ∧
      lib.branches[branch]? = some signature ∧ jump? mid e = some next ∧
      Stands p limit f depth
        { index := b.target.resolve y.index
          store := left.bring (bindAll (b.results.zip signature.vars) (outputs.map (reg mid.regs)))
          world := world } m c next ∧
      p.visits [next.arrival e] = [(b.target.resolve y.index, (left.bring (bindAll
        (b.results.zip signature.vars) (outputs.map (reg mid.regs)))).images)] := by
  have hidx : n.index = y.index := (h.flow.visited_of_node? hn).2
  obtain ⟨l, hl, htarget, haccept⟩ := hexits
  rw [hemit.site] at hl
  obtain ⟨edge, hedge, rfl⟩ := Plan.exists_edge_of_landing hl
  -- a landing accepts as many values as the branch yields
  unfold Plan.landing at haccept
  dsimp only at haccept
  split at haccept
  · cases haccept
  next hcount =>
  obtain ⟨b, signature, m, nextVars, hb, hsig, rfl, hlen, hm, hbring, hsame⟩ :=
    h.exists_target hn hstmt hemit.libfunc hedge
  rw [hidx] at hm haccept
  -- the piece has left the values of the variables alone
  obtain ⟨hsize, hkept⟩ := hemit.inside.keeps hpass howns
  have hholds : Holds mid.regs values y.store := hpoised.holds.congr fun entry hentry =>
      hkept _ (hpos entry hentry) (hemit.values entry hentry)
  obtain ⟨args', left', htake', hleft⟩ := h.exists_take hn hstmt hpoised.fits
  cases htake.symm.trans htake'
  have hres : (outputs.map (reg mid.regs)).length = (b.results.zip signature.vars).length := by
    rw [length_map, length_zip, not_not.1 hcount, ← hlen, min_self]
  obtain ⟨hfits, hnodup⟩ := hleft.bring_of_bringResults hbring hres
  have hall := hholds.bring htake hleft (by rw [← hres, length_map]) hnodup
  rw [map_fst_zip (le_of_eq hlen)] at hall
  obtain ⟨i, c, _, _, hheads, -⟩ := h.laid.coded m (mem_order_of_node? hm)
  have hm' := (h.flow.visited_of_node? hm).2
  have hplace : e.target = (i : Int) := by
    have hblock := hheads.place
    rw [hm'] at hblock
    rw [htarget, Plan.landing, hidx]
    rw [hblock, Option.getD_some]
  obtain ⟨hfunc, hdepth⟩ := hpass.func
  obtain ⟨next, hjump, hstands, himages⟩ := exists_stands world hm hheads
    (hfits.of_same hsame) hfunc hdepth (hsize.trans hpoised.size) hall hplace haccept
  refine ⟨b, signature, next, m, c, hb, hsig, hjump, hstands, ?_⟩
  have hvisit := h.laid.statementAt?_eq (mem_order_of_node? hm) hheads.place
  rw [← hplace, hm'] at hvisit
  have hedge : (next.arrival e).edge.target = e.target := rfl
  simp only [Plan.visits, filterMap_cons, filterMap_nil, hedge, hvisit, Option.map_some, himages]

/-! ## Moves -/

section

variable (hemit : p.Emits limit f n rest values call lib x)
include hemit

lemma Poised.frame_eq (h : Poised f depth y n rest values frame) :
    x.frame f depth frame.regs = frame := by
  rw [h.place, Piece.frame, hemit.ops, hemit.term]

lemma Poised.args_eq (h : Poised f depth y n rest values frame)
    (htake : y.store.take call.args = some (args, left)) :
    x.site.args.map (reg frame.regs) = args := by
  rw [hemit.site]
  exact h.holds.map_valueOf htake

lemma Realized.quiet_of_owns (h : Realized p limit f code)
    (howns : ∀ a ∈ trail, x.Holds a.edge) : p.Quiet trail := by
  intro a ha
  obtain ⟨i, hi, howned⟩ := howns a ha
  rw [hi]
  exact h.laid.statementAt?_eq_none (le_trans hemit.blocks howned.1)

end

lemma Poised.halts (h : Poised f depth y n rest values frame) {vars : List VarId}
    (hrest : rest.ops = [] ∧ rest.term = .ret (vars.map (valueOf values))) :
    Halts env mp frame y.world (.ok ((vars.map (valueOf values)).map (reg frame.regs)) y.world) := by
  have hops : frame.ops = [] := by rw [h.place]; exact hrest.1
  refine ⟨⟨0, ?_⟩, by simp⟩
  rw [turn_nil hops, h.place, hrest.2]
  rfl

lemma Plan.Emits.exists_leaves (hemit : p.Emits limit f n rest values call lib (code n.index))
    (hpoised : Poised f depth y n rest values frame)
    (htake : y.store.take call.args = some (args, left)) {world : World σ}
    (hpass : Passes env mp frame y.world trail last world)
    (hforeign : ∃ a ∈ trail, ¬ (code n.index).Holds a.edge) :
    ∃ before e after mid next between branch outputs, trail = before ++ next.arrival e :: after ∧
      (∀ a ∈ before, (code n.index).Holds a.edge) ∧
      Passes env mp frame y.world before mid between ∧ jump? mid e = some next ∧
      Passes env mp mid between [next.arrival e] next (tick between) ∧
      Passes env mp next (tick between) after last world ∧
      (code n.index).site.Exits e branch outputs ∧
      (code n.index).Leaves env mp f depth args y.world branch (outputs.map (reg mid.regs))
        (tick between) := by
  obtain ⟨before, e, after, mid, next, between, htrail, hpre, hout, hway, hops, hnext, hjump,
    hrest⟩ := hpass.exists_first hforeign
  have howns : ∀ a ∈ before, (code n.index).Holds a.edge := fun a ha => not_not.1 (hpre a ha)
  have hframe := hpoised.frame_eq hemit
  have hfunc : mid.func = f := by rw [hway.func.1, hpoised.place]
  have hleap : Passes env mp mid between [next.arrival e] next (tick between) :=
    .along hops hnext hjump (.here _ _)
  rw [hfunc] at hnext
  have hway' := hway
  rw [← hframe] at hway'
  obtain ⟨branch, outputs, hexits, hleaves⟩ :=
    hemit.inside.leaves hway' howns hpoised.size hops hnext hout
  rw [hpoised.args_eq hemit htake] at hleaves
  exact ⟨before, e, after, mid, next, between, branch, outputs, htrail, howns, hway, hjump, hleap,
    hrest, hexits, hleaves⟩

variable {x z : State σ} (h : Realized p limit f code)
  (hstands : Stands p limit f depth x n b frame)

include h hstands

lemma Realized.exists_code :
    n.index = x.index ∧ ∃ rest values, p.Begins limit f n b rest values ∧
      (∀ entry ∈ values, (0 : Int) ≤ entry.2) ∧ match n.statement with
      | .ret vars => rest.ops = [] ∧ rest.term = .ret (vars.map (valueOf values))
      | .invoke call => ∃ lib, p.Emits limit f n rest values call lib (code n.index) := by
  obtain ⟨i, b', rest, values, hheads, hbegins, hcode⟩ :=
    h.coded n (mem_order_of_node? hstands.node)
  obtain ⟨j, hheads'⟩ := hstands.heads
  obtain rfl : i = j := by
    have hsame : (i : Int) = (j : Int) := Option.some.inj (hheads.place.symm.trans hheads'.place)
    exact Int.ofNat.inj hsame
  cases hheads'.found.symm.trans hheads.found
  exact ⟨(h.flow.visited_of_node? hstands.node).2, rest, values, hbegins, hbegins.nonneg hheads,
    hcode⟩

lemma Realized.moves (hmoves : Moves p.settled p.gas (conduct env mp f depth code) x branch z) :
    ∃ trail next m c, Passes env mp frame x.world trail next z.world ∧
      p.visits trail = [z.visit] ∧ Stands p limit f depth z m c next := by
  obtain ⟨hidx, rest, values, hbegins, hpos, hcode⟩ := h.exists_code hstands
  cases hmoves with
  | @mk y call lib args outputs left _ b' signature world hstmt hlib hpays htake hleaves
      hbranch hsig =>
    have hn : n.statement = .invoke call :=
      Option.some.inj ((h.flow.statement?_eq hstands.node).symm.trans hstmt)
    rw [hn] at hcode
    obtain ⟨lib', hemit⟩ := hcode
    obtain rfl : lib' = lib := Option.some.inj
      (hemit.libfunc.symm.trans ((h.flow.libfunc_eq hstands.node hn).1 hlib))
    rcases hstands.pays_or_traps h.laid h.flow h.types (h.amounts _) hbegins with
      ⟨y', trail, mid, hpays', hy, hway, hquiet, hpoised⟩ | ⟨c, -, -, -, hcounter, hshort, -⟩
    · obtain rfl := hpays.unique hpays'
      -- from the statement proper the piece is left through the branch
      rw [← hidx] at hleaves
      obtain ⟨inner, last, between, e, outs, hpass, howns, hops, hnext, hexits, houtputs, hworld⟩ :=
        hleaves mid.regs hpoised.size (hpoised.args_eq hemit htake)
      obtain ⟨b'', signature', next, m, c, hb'', hsig', hjump, hstands', hvisits⟩ :=
        h.lands (y := y) (by rw [hy]; exact hstands.node) hn hemit hpoised hpos htake hpass howns
          hexits world
      cases hbranch.symm.trans hb''
      cases hsig.symm.trans hsig'
      rw [hy, houtputs] at hstands' hvisits
      rw [hpoised.frame_eq hemit] at hpass
      refine ⟨trail ++ (inner ++ [next.arrival e]), next, m, c, ?_, ?_, hstands'⟩
      · refine hway.trans (hpass.trans (.along hops ?_ hjump ?_))
        · rw [hpass.func.1, hpoised.place]
          exact hnext
        · rw [hworld]
          exact .here _ _
      · rw [Plan.visits_append, Plan.visits_append, hquiet.visits_eq, hvisits, nil_append,
          (h.quiet_of_owns hemit howns).visits_eq]
        rfl
    · exact (hpays.not_short hcounter hshort).elim

lemma Realized.exists_moves {world : World σ}
    (hpass : Passes env mp frame x.world trail last world) (hloud : ¬ p.Quiet trail) :
    ∃ branch z before after next m c,
      Moves p.settled p.gas (conduct env mp f depth code) x branch z ∧ trail = before ++ after ∧
      p.visits before = [z.visit] ∧ Passes env mp frame x.world before next z.world ∧
      Stands p limit f depth z m c next ∧ Passes env mp next z.world after last world := by
  obtain ⟨hidx, rest, values, hbegins, hpos, hcode⟩ := h.exists_code hstands
  rcases hstands.pays_or_traps h.laid h.flow h.types (h.amounts _) hbegins with
    ⟨y, paying, mid, hpays, hy, hway, hquiet, hpoised⟩ | ⟨c, ways, mid, between, -, -, hway, hquiet,
      hhalts⟩
  · rcases hway.compare hpass with ⟨after, hafter, rfl⟩ | ⟨after, -, rfl⟩
    · have hloud : ¬ p.Quiet after := fun hq => hloud (Plan.quiet_append.2 ⟨hquiet, hq⟩)
      cases hn : n.statement with
      | ret vars =>
        -- a return goes nowhere
        rw [hn] at hcode
        obtain ⟨rfl, -⟩ := (hpoised.halts hcode).passes hafter
        exact absurd (by simp [Plan.Quiet]) hloud
      | invoke call =>
        rw [hn] at hcode
        obtain ⟨lib, hemit⟩ := hcode
        have hnode : p.flow.node? y.index = some n := by rw [hy]; exact hstands.node
        obtain ⟨args, left, htake, -⟩ := h.exists_take hnode hn hpoised.fits
        have hforeign : ∃ a ∈ after, ¬ (code n.index).Holds a.edge := by
          by_contra hnone
          refine hloud (h.quiet_of_owns hemit fun a ha => ?_)
          by_contra hnot
          exact hnone ⟨a, ha, hnot⟩
        obtain ⟨before, e, later, mid', next, between, branch, outputs, rfl, howns, hinner, hjump,
          hleap, hlater, hexits, hleaves⟩ := hemit.exists_leaves hpoised htake hafter hforeign
        have hpiece := hinner
        rw [← hpoised.frame_eq hemit] at hpiece
        obtain ⟨b', signature, next', m, c, hb', hsig, hjump', hstands', hvisits⟩ :=
          h.lands hnode hn hemit hpoised hpos htake hpiece howns hexits (tick between)
        cases hjump.symm.trans hjump'
        rw [hy] at hstands' hvisits
        rw [hidx] at hleaves
        have hstmt : p.settled.program.statement? x.index = some (.invoke call) := by
          rw [h.flow.statement?_eq hstands.node, hn]
        have hlib := (h.flow.libfunc_eq hstands.node hn).2 hemit.libfunc
        refine ⟨branch, _, paying ++ (before ++ [next.arrival e]), later, next, m, c,
          .mk hstmt hlib hpays htake hleaves hb' hsig, by simp, ?_,
          hway.trans (hinner.trans hleap), hstands', hlater⟩
        rw [Plan.visits_append, Plan.visits_append, hquiet.visits_eq, hvisits, nil_append,
          (h.quiet_of_owns hemit howns).visits_eq]
        rfl
    · exact absurd (Plan.quiet_append.1 hquiet).1 hloud
  · rcases hway.compare hpass with ⟨after, hafter, rfl⟩ | ⟨after, -, rfl⟩
    · obtain ⟨rfl, -⟩ := hhalts.passes hafter
      exact absurd (by rwa [append_nil]) hloud
    · exact absurd (Plan.quiet_append.1 hquiet).1 hloud

/-! ## Endings -/

lemma Realized.ends {r : Ending σ}
    (hdone : Finishes p.settled p.gas p.flow.function (conduct env mp f depth code) x r) :
    Ends env mp frame x.world r := by
  obtain ⟨hidx, rest, values, hbegins, hpos, hcode⟩ := h.exists_code hstands
  have hstmt := h.flow.statement?_eq hstands.node
  rcases hstands.pays_or_traps h.laid h.flow h.types (h.amounts _) hbegins with
    ⟨y, paying, mid, hpays, hy, hway, hquiet, hpoised⟩ | ⟨c, ways, mid, between, hcounter, hshort,
      hway, hquiet, hhalts⟩
  · rw [hway.ends_iff]
    cases hdone with
    | returned hret hpays' htake hleft =>
      obtain rfl := hpays.unique hpays'
      have hn := Option.some.inj (hstmt.symm.trans hret)
      rw [hn] at hcode
      have hhalts : Halts env mp mid y.world _ := hpoised.halts hcode
      rw [hpoised.holds.map_valueOf htake] at hhalts
      exact hhalts.ends
    | short hcounter hshort => exact (hpays.not_short hcounter hshort).elim
    | stopped hinvoke hpays' htake hstops =>
      obtain rfl := hpays.unique hpays'
      have hn := Option.some.inj (hstmt.symm.trans hinvoke)
      rw [hn] at hcode
      obtain ⟨lib, hemit⟩ := hcode
      rw [← hidx] at hstops
      obtain ⟨trail, last, between, hpass, -, hhalts⟩ :=
        hstops mid.regs hpoised.size (hpoised.args_eq hemit htake)
      rw [hpoised.frame_eq hemit] at hpass
      exact hpass.ends_iff.2 hhalts.ends
  · rw [hway.ends_iff]
    cases hdone with
    | returned _ hpays => exact (hpays.not_short hcounter hshort).elim
    | short => exact hhalts.ends
    | stopped _ hpays => exact (hpays.not_short hcounter hshort).elim

lemma Realized.finishes {world : World σ} (hpass : Passes env mp frame x.world trail last world)
    (hquiet : p.Quiet trail) {r : Ending σ} (hhalts : Halts env mp last world r) :
    Finishes p.settled p.gas p.flow.function (conduct env mp f depth code) x r := by
  obtain ⟨hidx, rest, values, hbegins, hpos, hcode⟩ := h.exists_code hstands
  have hstmt := h.flow.statement?_eq hstands.node
  have hends : Ends env mp frame x.world r := hpass.ends_iff.2 hhalts.ends
  rcases hstands.pays_or_traps h.laid h.flow h.types (h.amounts _) hbegins with
    ⟨y, paying, mid, hpays, hy, hway, -, hpoised⟩ | ⟨c, ways, mid, between, hcounter, hshort, hway, -,
      htrap⟩
  · have hnode : p.flow.node? y.index = some n := by rw [hy]; exact hstands.node
    cases hn : n.statement with
    | ret vars =>
      rw [hn] at hcode hstmt
      have hreturns := (h.flow.visited_of_node? hstands.node).1.returns hn
      obtain ⟨images, left, htake, hleft⟩ := hpoised.fits.take_of_checkReturn hreturns.checked
      have hreturn : Halts env mp mid y.world _ := hpoised.halts hcode
      rw [hpoised.holds.map_valueOf htake] at hreturn
      rw [hends.unique (hway.ends_iff.2 hreturn.ends)]
      exact .returned hstmt hpays htake hleft
    | invoke call =>
      rw [hn] at hcode hstmt
      obtain ⟨lib, hemit⟩ := hcode
      obtain ⟨args, left, htake, -⟩ := h.exists_take hnode hn hpoised.fits
      obtain ⟨after, hafter, rfl⟩ := hway.to_halt hpass hhalts
      have hquiet := (Plan.quiet_append.1 hquiet).2
      -- the piece is not left: its landings are blocks of statements
      have howns : ∀ a ∈ after, (code n.index).Holds a.edge := by
        by_contra hnot
        obtain ⟨a, ha, hforeign⟩ := not_forall₂.1 hnot
        obtain ⟨before, e, later, mid', next, between, branch, outputs, rfl, howns, hinner, hjump,
          -, -, hexits, -⟩ := hemit.exists_leaves hpoised htake hafter ⟨a, ha, hforeign⟩
        rw [← hpoised.frame_eq hemit] at hinner
        obtain ⟨b', signature, next', m, c, -, -, hjump', -, hvisits⟩ :=
          h.lands hnode hn hemit hpoised hpos htake hinner howns hexits (tick between)
        cases hjump.symm.trans hjump'
        have hsilent : p.Quiet [next.arrival e] := by
          intro a ha
          rw [mem_singleton.1 ha]
          exact hquiet _ (mem_append_right _ mem_cons_self)
        cases hsilent.visits_eq.symm.trans hvisits
      have hinner := hafter
      rw [← hpoised.frame_eq hemit] at hinner
      have hstops := hemit.inside.stops hinner howns hpoised.size hhalts
      rw [hpoised.args_eq hemit htake, hidx] at hstops
      exact .stopped hstmt hpays htake hstops
  · rw [hends.unique (hway.ends_iff.2 htrap.ends)]
    exact .short hcounter hshort

end Lower

end Sierra
