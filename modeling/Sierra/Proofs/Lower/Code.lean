import Sierra.Lower
import Sierra.Proofs.Lower.Line

/-!
# The code of a statement

A block has a parameter for each live variable (`Heads`) and begins with a gas check or not
(`Begins`); then come the return or the piece of the library function (`Does`). Writing one
statement keeps the code of all others.
-/

namespace Sierra.Lower

open Ir Func Draft Option List Build

variable {d d' : Draft} {b rest : Ir.Block} {i amount : Nat} {values : Values}

namespace Plan

variable {p : Plan} {limit : Nat} {f : Func} {n : Flow.Node}

def site (p : Plan) (n : Flow.Node) (values : Values) (call : Invocation) : Site where
  types := p.settled.types
  statement := n.index
  charge := p.gas.chargeAt n.index
  refund := p.gas.refundAt n.index
  args := call.args.map (valueOf values)
  landings := n.edges.zipIdx.map fun (e, number) => p.landing n values number e

def start (n : Flow.Node) (b : Ir.Block) : Values := (n.state.map (·.1)).zip b.params

def shortage (p : Plan) (n : Flow.Node) : String :=
  "out of gas in " ++ p.name ++ s!" at statement {n.index}"

/-- The results are the amount, whether it is there, and what is left of the counter. -/
def checkOps (k : Nat) (counter : ValueId) (amount : Nat) (t : Ty) : List Op := [
  { code := .const, results := [(k : Int)], type := .int 64
    imm := Machine.Image.ofInt (Ty.int 64).storeSize (amount : Int) },
  { code := .icmp, results := [((k + 1 : Nat) : Int)], args := [counter, (k : Int)]
    type := .int 1, pred := some .uge },
  { code := .binary .sub, results := [((k + 2 : Nat) : Int)], args := [counter, (k : Int)]
    type := t }]

def checkTerm (k goOn out : Nat) : Terminator :=
  .condBr ((k + 1 : Nat) : Int) ⟨(goOn : Int), []⟩ ⟨(out : Int), []⟩

/-- The block of a statement has a parameter for each variable. -/
structure Heads (p : Plan) (limit : Nat) (f : Func) (n : Flow.Node) (i : Nat) (b : Ir.Block) :
    Prop where
  place : p.block? n.index = some (i : Int)
  lt : i < limit
  found : f.blocks[i]? = some b
  nodup : b.params.Nodup
  marks : ∀ v ∈ b.params, HasMark f.values.size v
  types : List.Forall₂ (fun v entry => p.settled.types.register entry.2 = .ok (f.typeOf v))
    b.params n.state

/-- Where the statement proper begins, with the values of the variables: in its block, or after a
check. -/
inductive Begins (p : Plan) (limit : Nat) (f : Func) (n : Flow.Node) (b : Ir.Block) :
    Ir.Block → Values → Prop
  | plain (hnone : ∀ amount, p.gas.injectedAt n.index ≠ some (amount + 1)) :
      Begins p limit f n b b (start n b)
  | checked {amount k goOn out : Nat} {gas : VarId} {rest : Ir.Block}
      (hinjected : p.gas.injectedAt n.index = some (amount + 1)) (hgas : p.gasVar? n = some gas)
      (hops : b.ops = checkOps k (valueOf (start n b) gas) (amount + 1)
        (f.typeOf (valueOf (start n b) gas)))
      (hterm : b.term = checkTerm k goOn out)
      (hk : k + 2 < f.values.size) (hparams : ∀ v ∈ b.params, v < (k : Int))
      (hrest : f.blocks[goOn]? = some rest) (hempty : rest.params = [])
      (hout : f.blocks[out]? =
        some { id := (out : Int), term := .trap .outOfGas (p.shortage n) })
      (hgoOn : limit ≤ goOn) (hlimit : limit ≤ out) :
      Begins p limit f n b rest
        ((start n b).map fun (v, value) => if v = gas then (v, ((k + 2 : Nat) : Int)) else (v, value))

/-- A piece is what the library function of an invocation has written at its site. -/
structure Emits (p : Plan) (limit : Nat) (f : Func) (n : Flow.Node) (rest : Ir.Block)
    (values : Values) (call : Invocation) (lib : Libfunc) (x : Piece) : Prop where
  libfunc : n.libfunc = some lib
  site : x.site = p.site n values call
  emit : lib.emit x.site x.before = .ok () x.after
  ops : x.ops = rest.ops
  term : x.term = rest.term
  inside : x.Inside f
  blocks : limit ≤ x.before.func.blocks.size
  values : ∀ entry ∈ values, entry.2 < (x.before.func.values.size : Int)

/-- The statement proper: it returns values, or a library function has written it. -/
def Does (p : Plan) (limit : Nat) (f : Func) (n : Flow.Node) (rest : Ir.Block) (values : Values) :
    Prop :=
  match n.statement with
  | .ret vars => rest.ops = [] ∧ rest.term = .ret (vars.map (valueOf values))
  | .invoke call => ∃ lib x, p.Emits limit f n rest values call lib x

def Coded (p : Plan) (limit : Nat) (f : Func) (n : Flow.Node) : Prop :=
  ∃ i b rest values, p.Heads limit f n i b ∧ p.Begins limit f n b rest values ∧
    p.Does limit f n rest values

/-! ## Values -/

lemma valueOf_lt {m : Nat} (h : ∀ entry ∈ values, entry.2 < (m : Int))
    (v : VarId) : valueOf values v < (m : Int) := by
  unfold valueOf valueOf?
  cases hfind : values.find? fun entry => entry.1 == v with
  | none =>
    show (-1 : Int) < m
    omega
  | some entry => exact h entry (mem_of_find?_eq_some hfind)

lemma mem_start {entry : VarId × ValueId} (h : entry ∈ start n b) : entry.2 ∈ b.params :=
  (of_mem_zip h).2

/-! ## Code that is kept -/

section Keeps

variable {f' : Func} {place : Nat} (hkeep : f.Keeps f' place)

include hkeep

lemma Heads.written {b' : Ir.Block} (h : p.Heads limit f n i b)
    (hfound : f'.blocks[i]? = some b') (hparams : b'.params = b.params) :
    p.Heads limit f' n i b' where
  place := h.place
  lt := h.lt
  found := hfound
  nodup := hparams ▸ h.nodup
  marks := fun v hv => by
    rw [hparams] at hv
    exact ⟨(h.marks v hv).1, Nat.lt_of_lt_of_le (h.marks v hv).2 hkeep.valuesSize⟩
  types := by
    rw [hparams]
    refine ((forall₂_and_left _ _).2 ⟨h.marks, h.types⟩).imp fun v entry hv => ?_
    rw [hkeep.typeOf hv.1.lt]
    exact hv.2

lemma Heads.keeps (h : p.Heads limit f n i b) (hne : i ≠ place) : p.Heads limit f' n i b :=
  h.written hkeep (hkeep.found h.found hne) rfl

variable (hplace : place < limit)

include hplace

lemma Begins.keeps (h : p.Begins limit f n b rest values)
    (hmarks : ∀ v ∈ b.params, HasMark f.values.size v) : p.Begins limit f' n b rest values := by
  cases h with
  | plain hnone => exact .plain hnone
  | @checked amount k goOn out gas rest hinj hgas hops hterm hk hparams hrest hempty hout hgoOn
      hlim =>
    have hcount : valueOf (start n b) gas < (f.values.size : Int) :=
      valueOf_lt (fun entry hentry => (hmarks entry.2 (mem_start hentry)).lt) gas
    refine .checked hinj hgas ?_ hterm (Nat.lt_of_lt_of_le hk hkeep.valuesSize) hparams
      (hkeep.found hrest (by omega)) hempty (hkeep.found hout (by omega)) hgoOn hlim
    rw [hkeep.typeOf hcount]
    exact hops

lemma Does.keeps (h : p.Does limit f n rest values) : p.Does limit f' n rest values := by
  unfold Does at h ⊢
  split
  · next vars hstmt =>
    rw [hstmt] at h
    exact h
  next call hstmt =>
  rw [hstmt] at h
  obtain ⟨lib, x, hemits⟩ := h
  have hinside := hemits.inside
  have hlim := hemits.blocks
  refine ⟨lib, x, { hemits with
    inside := ⟨hinside.fragment, fun i hi => ?_, hinside.landings⟩ }⟩
  obtain ⟨hge, hlt⟩ := hi
  have hsome := Array.getElem?_eq_getElem hlt
  rw [← hinside.blocks i ⟨hge, hlt⟩] at hsome ⊢
  rw [hsome]
  exact hkeep.found hsome (by omega)

lemma Coded.keeps (h : p.Coded limit f n)
    (hne : p.block? n.index ≠ some (place : Int)) : p.Coded limit f' n := by
  obtain ⟨i, b, rest, values, hheads, hbegins, hdoes⟩ := h
  refine ⟨i, b, rest, values, hheads.keeps hkeep ?_, hbegins.keeps hkeep hplace hheads.marks,
    hdoes.keeps hkeep hplace⟩
  rintro rfl
  exact hne hheads.place

end Keeps

/-! ## A gas check -/

/-- A gas check has been written on the block at a place. -/
structure Adds (f f' : Func) (place : Nat) (counter : ValueId) (amount : Nat) (message : String) :
    Prop where
  keeps : f.Keeps f' place
  values : f'.values.size = f.values.size + 3
  block : ∀ b, f.blocks[place]? = some b → f'.blocks[place]? = some
    { b with
      ops := b.ops ++ checkOps f.values.size counter amount (f'.typeOf counter)
      term := checkTerm f.values.size f.blocks.size (f.blocks.size + 1) }
  goOn : f'.blocks[f.blocks.size]? = some { id := (f.blocks.size : Int) }
  out : f'.blocks[f.blocks.size + 1]? =
    some { id := ((f.blocks.size + 1 : Nat) : Int), term := .trap .outOfGas message }

lemma checkGas_eq_ok {values' : Values} (hlive : d.Live)
    (hblock : d.block = (i : Int)) (hplace : i < d.func.blocks.size)
    (h : p.checkGas n values amount d = .ok values' d') : ∃ gas, p.gasVar? n = some gas ∧
      values' = values.map (fun (v, value) =>
        if v = gas then (v, ((d.func.values.size + 2 : Nat) : Int)) else (v, value)) ∧
      d'.slot = d.slot ∧ d'.Live ∧ d'.block = (d.func.blocks.size : Int) ∧
      (valueOf values gas < (d.func.values.size : Int) →
        Adds d.func d'.func i (valueOf values gas) amount (p.shortage n)) := by
  have hi : d.block.toNat = i := by rw [hblock]; rfl
  unfold checkGas at h
  cases hgas : p.gasVar? n with
  | none =>
    rw [hgas] at h
    exact absurd h throw_ne_ok
  | some gas =>
    rw [hgas] at h
    refine ⟨gas, rfl, ?_⟩
    obtain ⟨cost, d₁, hcost, h⟩ := bind_eq_ok.1 h
    obtain ⟨rfl, hsize₁, hline₁⟩ := (Line.refl hlive).result (const_apply hlive _ _) hcost
    obtain ⟨enough, d₂, henough, h⟩ := bind_eq_ok.1 h
    obtain ⟨rfl, hsize₂, hline₂⟩ := hline₁.result (icmp_apply hline₁.live _ _ _) henough
    obtain ⟨left, d₃, hleft, h⟩ := bind_eq_ok.1 h
    obtain ⟨rfl, hsize₃, hline⟩ := hline₂.result 
      (bind_eq_ok.2 ⟨_, _, rfl, result_apply hline₂.live _ _⟩) hleft
    have hlive₃ := hline.live
    rw [bind_of_ok (newBlock_nil_apply hlive₃), hline.blocks] at h
    generalize hf₄ : d₃.func.addBlock _ = f₄ at h
    have hblocks : f₄.blocks.size = d.func.blocks.size + 1 := by
      rw [← hf₄, size_blocks_addBlock, hline.blocks]
    rw [bind_of_ok (newBlock_nil_apply (live_put hlive₃ _)), func_put hlive₃, put_put, hblocks] at h
    generalize hf₅ : f₄.addBlock _ = f₅ at h
    rw [condBr, bind_of_ok (close_apply (live_put hlive₃ _) _), func_put hlive₃, put_put,
      show (d₃.put f₅).block = d.block from hline.cursor, hi] at h
    generalize hf₆ : f₅.onBlock _ _ = f₆ at h
    rw [bind_of_ok (moveTo_apply _)] at h
    let out : BlockId := ((d.func.blocks.size + 1 : Nat) : Int)
    have hlive' : ({ d₃.put f₆ with block := out } : Draft).Live := live_put hlive₃ f₆
    have hfunc : ({ d₃.put f₆ with block := out } : Draft).func = f₆ := func_put hlive₃ f₆
    rw [trap, bind_of_ok (close_apply hlive' _), hfunc] at h
    generalize hf₇ : f₆.onBlock _ _ = f₇ at h
    obtain ⟨_, _, hmodify, h⟩ := bind_eq_ok.1 h
    obtain ⟨hvals, hd⟩ := pure_eq_ok.1 h
    injection hmodify with _ hmodified
    obtain ⟨hfunc', hrest⟩ : d'.func = f₇ ∧ d'.slot = d.slot ∧ d'.Live ∧
        d'.block = (d.func.blocks.size : Int) := by
      rw [← hd, ← hmodified]
      exact ⟨func_put hlive' f₇, hline.slot, live_put hlive' f₇, rfl⟩
    refine ⟨by rw [← hvals, hsize₂, hsize₁], hrest.1, hrest.2.1, hrest.2.2, fun hcount => ?_⟩
    rw [hfunc']
    have hkeep₃ := hline.keeps
    rw [hi] at hkeep₃
    have hkeep : d.func.Keeps f₇ i := by
      rw [← hf₇, ← hf₆, ← hf₅, ← hf₄]
      refine (((hkeep₃.addBlock _).addBlock _).onBlock (.inl rfl) _).onBlock (.inr ?_) _
      exact Nat.le_succ _
    have htype : d₂.func.typeOf (valueOf values gas) = f₇.typeOf (valueOf values gas) := by
      rw [hline₂.keeps.typeOf hcount, hkeep.typeOf hcount]
    refine ⟨hkeep, ?_, fun b hb => ?_, ?_, ?_⟩
    · rw [← hf₇, values_onBlock, ← hf₆, values_onBlock, ← hf₅, values_addBlock, ← hf₄,
        values_addBlock, hsize₃, hsize₂, hsize₁]
    · rw [← htype, ← hf₇, getElem?_onBlock, Int.toNat_natCast, if_neg (by omega), ← hf₆, ← hf₅,
        ← hf₄, found_onBlock (found_addBlock (found_addBlock (hline.written i b hblock hb) _) _)]
      simp [checkOps, checkTerm, hsize₁, hsize₂, Int.add_assoc]
    · rw [← hf₇, getElem?_onBlock, Int.toNat_natCast, if_neg (by omega), ← hf₆,
        getElem?_onBlock, if_neg (by omega), ← hf₅, getElem?_addBlock, if_neg (by omega),
        ← hf₄, getElem?_addBlock, if_pos hline.blocks.symm]
    · rw [← hf₇, getElem?_onBlock, Int.toNat_natCast, if_pos rfl, ← hf₆,
        getElem?_onBlock, if_neg (by omega), ← hf₅, getElem?_addBlock,
        if_pos hblocks.symm, map_some]
      rfl

/-! ## One statement -/

/-- The statement proper is written on a blank block at the cursor of the second draft. -/
structure Ready (p : Plan) (limit : Nat) (n : Flow.Node) (i : Nat) (d : Draft) (values : Values)
    (d' : Draft) : Prop where
  slot : d'.slot = d.slot
  live : d'.Live
  size : d.func.blocks.size ≤ d'.func.blocks.size
  bound : ∀ entry ∈ values, entry.2 < (d'.func.values.size : Int)
  cursor : ∃ (place : Nat) (rest : Ir.Block), d'.block = (place : Int) ∧
    d'.func.blocks[place]? = some rest ∧ rest.ops = [] ∧ rest.term = .none ∧
    ∀ f' rest', d'.func.Keeps f' place → f'.blocks[place]? = some rest' →
      rest'.params = rest.params → d.func.Keeps f' i ∧
        ∃ b, p.Heads limit f' n i b ∧ p.Begins limit f' n b rest' values

lemma Heads.ready (h : p.Heads limit d.func n i b)
    (hops : b.ops = []) (hterm : b.term = .none) (hlive : d.Live) (hblock : d.block = (i : Int))
    (hnone : ∀ amount, p.gas.injectedAt n.index ≠ some (amount + 1)) :
    p.Ready limit n i d (start n b) d where
  slot := rfl
  live := hlive
  size := Nat.le_refl _
  bound := fun entry hentry => (h.marks entry.2 (mem_start hentry)).lt
  cursor := by
    refine ⟨i, b, hblock, h.found, hops, hterm, fun f' rest' hkeep hfound hparams => ?_⟩
    refine ⟨hkeep, rest', h.written hkeep hfound hparams, ?_⟩
    have hstart : start n b = start n rest' := by rw [start, start, hparams]
    rw [hstart]
    exact .plain hnone

lemma Heads.ready_checkGas (h : p.Heads limit d.func n i b) (hops : b.ops = []) (hlive : d.Live)
    (hblock : d.block = (i : Int)) (hlim : limit ≤ d.func.blocks.size)
    (hinj : p.gas.injectedAt n.index = some (amount + 1))
    (hok : p.checkGas n (start n b) (amount + 1) d = .ok values d') :
    p.Ready limit n i d values d' := by
  have hlt := Nat.lt_of_lt_of_le h.lt hlim
  obtain ⟨gas, hgas, hvals, hslot, hlive', hcursor, hadds⟩ := checkGas_eq_ok hlive hblock hlt hok
  have hcount : valueOf (start n b) gas < (d.func.values.size : Int) :=
    valueOf_lt (fun entry hentry => (h.marks entry.2 (mem_start hentry)).lt) gas
  have hadds := hadds hcount
  refine ⟨hslot, hlive', hadds.keeps.blocksSize, fun entry hentry => ?_, d.func.blocks.size, _,
    hcursor, hadds.goOn, rfl, rfl, fun f' rest' hkeep hrest hparams => ?_⟩
  · rw [hvals, List.mem_map] at hentry
    obtain ⟨⟨v, value⟩, hold, rfl⟩ := hentry
    have hval := (h.marks value (mem_start hold)).lt
    have hsize := hadds.values
    dsimp only
    split
    · show ((d.func.values.size + 2 : Nat) : Int) < _
      omega
    · exact Int.lt_of_lt_of_le hval (Int.ofNat_le.2 hadds.keeps.valuesSize)
  · have hall : d.func.Keeps f' i := hadds.keeps.trans hkeep (.inr (Nat.le_refl _))
    -- the block of the statement holds the check now, and the rest is written elsewhere
    have hfound := hkeep.found (hadds.block b h.found) (by omega)
    refine ⟨hall, _, h.written hall hfound rfl, ?_⟩
    rw [hvals]
    have hout := hkeep.found hadds.out (by omega)
    refine .checked hinj hgas ?_ rfl ?_ (fun v hv => (h.marks v hv).lt) hrest hparams hout hlim
      (by omega)
    · have htype := hkeep.typeOf (Int.lt_of_lt_of_le hcount (Int.ofNat_le.2 hadds.keeps.valuesSize))
      rw [hops, ← htype]
      rfl
    · have hsize := hadds.values
      have hmore := hkeep.valuesSize
      omega

def proper (p : Plan) (n : Flow.Node) (values : Values) : Build Unit :=
  match n.statement, n.libfunc with
  | .ret vars, _ => Build.ret (vars.map (valueOf values))
  | .invoke _, none => throw (.native (p.name ++ s!": statement {n.index} has no libfunc"))
  | .invoke call, some f => do
    let place := p.name ++ s!": statement {n.index} (" ++ call.libfunc.text ++ ")"
    tryCatch (f.emit (p.site n values call)) fun cause => throw (cause.wrapWith place)
    if !(← get).isClosed then throw (.native (place ++ " left its block open"))

def Targets (p : Plan) (limit : Nat) (n : Flow.Node) : Prop :=
  ∀ e ∈ n.edges, ∃ j < limit, p.block? e.target = some (j : Int)

lemma landings_lt {call : Invocation} (htargets : p.Targets limit n) {l : Landing}
    (hl : l ∈ (p.site n values call).landings) (hi : l.block = (i : Int)) : i < limit := by
  obtain ⟨⟨e, number⟩, hentry, rfl⟩ := mem_map.1 hl
  obtain ⟨j, hj, hblock⟩ := htargets e (fst_mem_of_mem_zipIdx hentry)
  have hsame : (p.block? e.target).getD (-1) = (i : Int) := hi
  rw [hblock] at hsame
  have hnat : (j : Int) = (i : Int) := hsame
  omega

lemma proper_eq_ok {place : Nat}
    (hlive : d.Live) (hplace : d.block = (place : Int)) (hrest : d.func.blocks[place]? = some rest)
    (hempty : rest.ops = []) (hopen : rest.term = .none) (hlim : limit ≤ d.func.blocks.size)
    (hvals : ∀ entry ∈ values, entry.2 < (d.func.values.size : Int))
    (hlib : ∀ lib, n.libfunc = some lib → lib.Fragment)
    (htargets : p.Targets limit n) (h : p.proper n values d = .ok () d') :
    d'.slot = d.slot ∧ d'.Live ∧ d.func.Keeps d'.func place ∧
      ∃ rest', d'.func.blocks[place]? = some rest' ∧ rest'.params = rest.params ∧
        p.Does limit d'.func n rest' values := by
  have hplaceNat : d.block.toNat = place := by rw [hplace]; rfl
  unfold proper at h
  unfold Does
  cases hstmt : n.statement with
  | ret vars =>
    rw [hstmt] at h
    dsimp only at h
    rw [ret, close_apply hlive, hplaceNat] at h
    injection h with _ hd'
    rw [← hd', func_put hlive]
    exact ⟨rfl, live_put hlive _, (Func.Keeps.refl d.func place).onBlock (.inl rfl) _, _,
      found_onBlock hrest _, rfl, hempty, rfl⟩
  | invoke call =>
    cases hlibfunc : n.libfunc with
    | none =>
      rw [hstmt, hlibfunc] at h
      exact absurd h throw_ne_ok
    | some lib =>
      rw [hstmt, hlibfunc] at h
      obtain ⟨_, d₁, hemit, h⟩ := bind_eq_ok.1 h
      rw [tryCatch_eq_ok] at hemit
      obtain ⟨_, d₂, hget, h⟩ := bind_eq_ok.1 h
      obtain ⟨rfl, rfl⟩ : d₁ = d₂ ∧ d₂ = d' := by
        injection hget with _ hsame
        refine ⟨hsame, ?_⟩
        split at h
        · exact absurd h throw_ne_ok
        · exact (pure_eq_ok.1 h).2
      let x : Piece := ⟨p.site n values call, d, d₁⟩
      have hblock : d.func.block? d.block = some rest := by
        rw [hplace]
        exact hrest
      have hfragment : x.IsFragment := hlib lib hlibfunc x ⟨hlive, rest, hblock, hopen⟩ hemit
      obtain ⟨b, b', hb, hb', hparams, hops⟩ := hfragment.start
      cases hblock.symm.trans hb
      have hkeep : d.func.Keeps d₁.func place := hplaceNat ▸ hfragment.keeps
      have hfound : d₁.func.blocks[place]? = some b' := by
        rw [hplace] at hb'
        exact hb'
      refine ⟨hfragment.slot, hfragment.live, hkeep, b', hfound, hparams, ?_⟩
      refine ⟨lib, x, hlibfunc, rfl, hemit, ?_, ?_, ⟨hfragment, fun _ _ => rfl, ?_⟩, hlim, hvals⟩
      · rw [hops, hempty, nil_append]
      · show (d₁.func.block? d.block).elim Terminator.none _ = _
        rw [show d₁.func.block? d.block = some b' from hb']
        rfl
      · rintro l hl i hi ⟨hge, -⟩
        have hlt := landings_lt htargets hl hi
        have hge : d.func.blocks.size ≤ i := hge
        omega

lemma statement_eq_ok (hlive : d.Live)
    (hheads : p.Heads limit d.func n i b) (hops : b.ops = []) (hterm : b.term = .none)
    (hlim : limit ≤ d.func.blocks.size) (hlib : ∀ lib, n.libfunc = some lib → lib.Fragment)
    (htargets : p.Targets limit n) (h : p.statement n d = .ok () d') :
    d'.slot = d.slot ∧ d'.Live ∧ d.func.Keeps d'.func i ∧ p.Coded limit d'.func n := by
  unfold statement at h
  rw [hheads.place, getD_some, bind_of_ok (moveTo_apply _)] at h
  generalize hd₁ : ({ d with block := (i : Int) } : Draft) = d₁ at h
  have hfunc : d₁.func = d.func := by rw [← hd₁]; rfl
  have hslot₁ : d₁.slot = d.slot := by rw [← hd₁]
  have hcursor₁ : d₁.block = (i : Int) := by rw [← hd₁]
  have hlive₁ : d₁.Live := by rw [← hd₁]; exact hlive
  have hblock : d.func.block? (i : Int) = some b := hheads.found
  rw [bind_of_ok (paramsOf_apply _), hfunc, hblock] at h
  obtain ⟨values, d₂, hready, hproper⟩ : ∃ values d₂, p.Ready limit n i d₁ values d₂ ∧
      p.proper n values d₂ = .ok () d' := by
    rw [← hfunc] at hheads hlim
    have hplain := hheads.ready hops hterm hlive₁ hcursor₁
    cases hinj : p.gas.injectedAt n.index with
    | none =>
      rw [hinj] at h hplain
      exact ⟨_, _, hplain (by simp), h⟩
    | some amount =>
      cases amount with
      | zero =>
        rw [hinj] at h hplain
        exact ⟨_, _, hplain (by simp), h⟩
      | succ amount =>
        rw [hinj] at h
        obtain ⟨values, d₂, hcheck, h⟩ := bind_eq_ok.1 h
        exact ⟨values, d₂, hheads.ready_checkGas hops hlive₁ hcursor₁ hlim hinj hcheck, h⟩
  obtain ⟨place, rest, hplace, hrest, hempty, hopen, hbegins⟩ := hready.cursor
  have hsize := hready.size
  rw [hfunc] at hbegins hsize
  obtain ⟨hslot, hlive', hkeep, rest', hrest', hparams, hdoes⟩ :=
    proper_eq_ok hready.live hplace hrest hempty hopen (Nat.le_trans hlim hsize) hready.bound hlib
      htargets hproper
  obtain ⟨hall, b', hheads', hbegins'⟩ := hbegins _ _ hkeep hrest' hparams
  exact ⟨hslot.trans (hready.slot.trans hslot₁), hlive', hall, i, b', rest', values, hheads', hbegins',
    hdoes⟩

end Plan

end Sierra.Lower
