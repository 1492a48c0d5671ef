import Sierra.Proofs.Machine.Turn

/-!
# Pieces of a function

A region is some blocks, entered at one point and left along known edges, that write values of their
own. What happens inside depends on the registers given (`Passes.twin`), and it leaves all but its
own alone (`Passes.keeps`).
-/

namespace Sierra.Machine

open Ir List

variable {σ : Type} {env : Env σ} {p : Program} {f : Func} {op : Op}
variable {regs regs' : Array Image} {vs : List ValueId} {known : ValueId → Prop} {world : World σ}

structure Region where
  /-- Its blocks, the one it is entered in apart. -/
  blocks : Nat → Prop
  /-- The values that it writes. -/
  values : ValueId → Prop
  /-- What each of its blocks reads besides its parameters and its own results. -/
  scope : Nat → ValueId → Prop
  /-- The edges that leave it, with the values handed over. -/
  exit : Edge → List ValueId → Prop

def selectors : Terminator → List ValueId
  | .condBr cond _ _ => [cond]
  | .switch value _ _ _ => [value]
  | _ => []

namespace Region

def Holds (r : Region) (e : Edge) : Prop := ∃ i : Nat, e.target = (i : Int) ∧ r.blocks i

/-- The block does not return, and its edges stay in the region or leave it with known values. -/
structure Closes (r : Region) (known : ValueId → Prop) (t : Terminator) : Prop where
  stays : ∀ values, t ≠ .ret values
  selector : ∀ v ∈ selectors t, known v
  edges : ∀ e ∈ t.edges,
    (∃ i : Nat, e.target = (i : Int) ∧ r.blocks i ∧ (∀ v ∈ e.args, known v) ∧
      ∀ v, r.scope i v → known v) ∨
    ∃ outputs, r.exit e outputs ∧ ∀ v ∈ outputs, known v

/-- The rest of a block of the region when these values have been written. -/
def Reads (r : Region) : (known : ValueId → Prop) → List Op → Terminator → Prop
  | known, [], t => r.Closes known t
  | known, op :: rest, t => (∀ v ∈ op.args, known v) ∧ (∀ v ∈ written op, r.values v) ∧
      r.Reads (fun v => known v ∨ v ∈ written op) rest t

structure Of (r : Region) (f : Func) : Prop where
  nonneg : ∀ v : Int, r.values v → 0 ≤ v
  apart : ∀ e outputs, r.exit e outputs → ¬ r.Holds e
  params : ∀ i b, r.blocks i → f.blocks[i]? = some b → ∀ v ∈ b.params, r.values v
  reads : ∀ i b, r.blocks i → f.blocks[i]? = some b →
    r.Reads (fun v => r.scope i v ∨ v ∈ b.params) b.ops b.term

end Region

/-! ## Registers that agree -/

/-- Two activations at one place of a region, whose registers agree on what has been written. -/
structure Twin (r : Region) (known : ValueId → Prop) (a b : Frame) : Prop where
  same : b = { a with regs := b.regs }
  size : a.regs.size = b.regs.size
  regs : ∀ v, known v → reg a.regs v = reg b.regs v
  reads : r.Reads known a.ops a.term

lemma Twin.refl {r : Region} {a : Frame}
    (h : r.Reads known a.ops a.term) : Twin r known a a := ⟨rfl, rfl, fun _ _ => rfl, h⟩

lemma map_reg_congr (h : ∀ v, known v → reg regs v = reg regs' v) (hvs : ∀ v ∈ vs, known v) :
    vs.map (reg regs) = vs.map (reg regs') :=
  map_congr_left fun v hv => h v (hvs v hv)

lemma outcome_congr {rounds : Nat} {depth : Nat}
    (h : op.args.map (reg regs) = op.args.map (reg regs')) :
    outcome env p rounds f depth regs op = outcome env p rounds f depth regs' op := by
  unfold outcome
  rw [h, opImages_congr h rfl rfl rfl rfl]

lemma nextOf_congr {t : Terminator} (hstays : ∀ values, t ≠ .ret values)
    (h : ∀ v ∈ selectors t, reg regs v = reg regs' v) : nextOf f regs t = nextOf f regs' t := by
  cases t with
  | condBr cond yes no => rw [nextOf, nextOf, h cond (by simp [selectors])]
  | switch value cases default listed =>
    rw [nextOf_switch, nextOf_switch, h value (by simp [selectors])]
  | ret values => exact absurd rfl (hstays values)
  | _ => rfl

lemma writeImages_twin {next : Array Image} {r : EStateM.Result Stop (World σ) (List Image)}
    (hsize : regs.size = regs'.size) (hregs : ∀ v, known v → reg regs v = reg regs' v)
    (h : writeImages regs vs r = .ok next world) :
    ∃ next', writeImages regs' vs r = .ok next' world ∧ next.size = next'.size ∧
      ∀ v, known v ∨ v ∈ vs → reg next v = reg next' v := by
  obtain ⟨images, hr, hout⟩ := writeImages_eq_ok_iff.1 h
  obtain ⟨out', hout'⟩ := exists_reassign? hout regs'
  refine ⟨out', writeImages_eq_ok_iff.2 ⟨images, hr, hout'⟩, ?_, fun v hv => ?_⟩
  · rw [size_assign? hout, size_assign? hout', hsize]
  · exact reg_assign?_congr hsize hout hout' (hv.symm.imp_right (hregs v))

lemma writeImages_error_congr {stop : Stop} {r : EStateM.Result Stop (World σ) (List Image)}
    (h : writeImages regs vs r = .error stop world) :
    writeImages regs' vs r = .error stop world := by
  cases r with
  | error stop world => exact h
  | ok images between =>
    unfold writeImages at h ⊢
    dsimp only at h ⊢
    cases hset : assign? regs' vs images with
    | none =>
      split at h
      · cases h
      · exact h
    | some out =>
      obtain ⟨out', hout'⟩ := exists_reassign? hset regs
      rw [hout'] at h
      cases h

section Inside

variable {r : Region} {known : ValueId → Prop} {a b : Frame} {rounds : Nat}

section

variable (h : Twin r known a b)
include h

lemma Twin.nextOf_eq (hops : a.ops = []) :
    nextOf b.func b.regs b.term = nextOf a.func a.regs a.term := by
  have hread := h.reads
  rw [hops] at hread
  rw [h.same]
  exact (nextOf_congr hread.stays fun v hv => h.regs v (hread.selector v hv)).symm

lemma Twin.turn_op {rest : List Op} (hops : a.ops = op :: rest)
    {next : Frame} {between : World σ} (hturn : turn env p rounds a world = .go next between) :
    ∃ next', turn env p rounds b world = .go next' between ∧
      Twin r (fun v => known v ∨ v ∈ written op) next next' := by
  obtain ⟨hsame, hsize, hregs, hread⟩ := h
  rw [hops] at hread
  obtain ⟨hargs, -, hrest⟩ := hread
  have hops' : b.ops = op :: rest := by
    rw [hsame]
    exact hops
  rw [turn_cons hops] at hturn
  rw [turn_cons hops', show b.func = a.func by rw [hsame], show b.depth = a.depth by rw [hsame],
    ← outcome_congr (map_reg_congr hregs hargs)]
  split at hturn
  · next regs world' hwrite =>
    injection hturn with h₁ h₂
    obtain ⟨regs', hwrite', hsize', hregs'⟩ := writeImages_twin hsize hregs hwrite
    rw [hwrite', ← h₁, ← h₂]
    refine ⟨_, rfl, ?_, hsize', hregs', hrest⟩
    rw [hsame]
  · cases hturn

lemma Twin.jump (hof : r.Of a.func) (hops : a.ops = []) {e : Edge}
    (hnext : nextOf a.func a.regs a.term = .jump e) {i : Nat} {target : Block}
    (hi : e.target = (i : Int)) (hblock : r.blocks i) (htarget : a.func.blocks[i]? = some target)
    {next : Frame} (hjump : jump? a e = some next) :
    ∃ next', jump? b e = some next' ∧ next.arrival e = next'.arrival e ∧
      Twin r (fun v => r.scope i v ∨ v ∈ target.params) next next' := by
  obtain ⟨hsame, hsize, hregs, hread⟩ := h
  rw [hops] at hread
  rcases hread.edges e (mem_edges_of_nextOf hnext) with ⟨j, hj, -, hargs, hscope⟩ | hexit
  · obtain rfl : i = j := Int.ofNat.inj (hi.symm.trans hj)
    obtain ⟨j, target', regs, hj', htarget', hset, rfl⟩ := jump?_eq_some_iff.1 hjump
    obtain rfl : i = j := Int.ofNat.inj (hi.symm.trans hj')
    cases htarget.symm.trans htarget'
    rw [map_reg_congr hregs hargs] at hset
    obtain ⟨regs', hset'⟩ := exists_reassign? hset b.regs
    have hagree : ∀ v, r.scope i v ∨ v ∈ target.params → reg regs v = reg regs' v := fun v hv =>
      reg_assign?_congr hsize hset hset' (hv.symm.imp_right fun hv => hregs v (hscope v hv))
    refine ⟨{ b with regs := regs', ops := target.ops, term := target.term },
      jump?_eq_some_iff.2 ⟨i, target, regs', hi, ?_, hset', rfl⟩, ?_, ?_, ?_, hagree,
      hof.reads i target hblock htarget⟩
    · rw [hsame]
      exact htarget
    · have hfunc : b.func = a.func := by rw [hsame]
      unfold Frame.arrival
      rw [hfunc, hi, Func.block?_natCast, htarget]
      exact congrArg _ (map_reg_congr hagree fun v hv => .inr hv)
    · rw [hsame]
    · rw [size_assign? hset, size_assign? hset', hsize]
  · obtain ⟨outputs, hexit, -⟩ := hexit
    exact absurd ⟨i, hi, hblock⟩ (hof.apart e outputs hexit)

lemma Twin.halts {res : EStateM.Result Stop (World σ) (List Image)}
    (hhalts : Halts env p a world res) : Halts env p b world res := by
  obtain ⟨⟨rounds, hturn⟩, hres⟩ := hhalts
  refine ⟨⟨rounds, ?_⟩, hres⟩
  have hnext := fun hops => h.nextOf_eq hops
  obtain ⟨hsame, hsize, hregs, hread⟩ := h
  have hfunc : b.func = a.func := by rw [hsame]
  have hdepth : b.depth = a.depth := by rw [hsame]
  have hops' : b.ops = a.ops := by rw [hsame]
  cases hops : a.ops with
  | nil =>
    rw [turn_nil hops] at hturn
    rw [turn_nil (hops'.trans hops), hnext hops]
    cases hedge : nextOf a.func a.regs a.term with
    | done values | stop stop =>
      rw [hedge] at hturn
      exact hturn
    | jump e =>
      rw [hedge] at hturn
      dsimp only at hturn ⊢
      cases hjump : jump? b e with
      | none =>
        split at hturn
        · cases hturn
        · exact hturn
      | some next =>
        -- a jump that one of them can take the other can take
        obtain ⟨j, target, regs', hj, htarget, hset, -⟩ := jump?_eq_some_iff.1 hjump
        have hlen : target.params.length ≤ (e.args.map (reg a.regs)).length := by
          have hle := length_le_of_assign? hset
          rwa [length_map] at hle ⊢
        obtain ⟨regs, hset'⟩ := exists_assign? hlen a.regs
        rw [hfunc] at htarget
        rw [jump?_eq_some_iff.2 ⟨j, target, regs, hj, htarget, hset', rfl⟩] at hturn
        cases hturn
  | cons op rest =>
    rw [hops] at hread
    rw [turn_cons hops] at hturn
    rw [turn_cons (hops'.trans hops), hfunc, hdepth, ← outcome_congr (map_reg_congr hregs hread.1)]
    split at hturn
    · cases hturn
    · next stop world' hwrite =>
      rw [writeImages_error_congr hwrite]
      exact hturn

end

variable {last : Frame} {world' : World σ} {trail : List Arrival}
  (h : Passes env p a world trail last world') (hof : r.Of a.func)
  (hread : r.Reads known a.ops a.term) (htrail : ∀ x ∈ trail, r.Holds x.edge)

include h hof hread htrail

lemma Passes.twin :
    ∃ known', ∀ b, Twin r known a b →
      ∃ last', Passes env p b world trail last' world' ∧ Twin r known' last last' := by
  induction h generalizing known with
  | here => exact ⟨known, fun b htwin => ⟨b, .here _ _, htwin⟩⟩
  | @work rounds frame next last world between world' trail hops hturn _ ih =>
    obtain ⟨op, rest, hcons⟩ := exists_cons_of_ne_nil hops
    obtain ⟨_, -, hself⟩ := (Twin.refl hread).turn_op hcons hturn
    obtain ⟨known', hall⟩ := ih (by rw [(func_of_turn hturn).1]; exact hof) hself.reads htrail
    refine ⟨known', fun b htwin => ?_⟩
    obtain ⟨next', hturn', htwin'⟩ := htwin.turn_op hcons hturn
    obtain ⟨last', hpass, hlast⟩ := hall next' htwin'
    refine ⟨last', .work ?_ hturn' hpass, hlast⟩
    rw [htwin.same]
    exact hops
  | @jump rounds frame next last world between world' trail e hops hnext hturn _ ih =>
    obtain ⟨e', hnext', hjump, rfl⟩ := exists_edge_of_turn hops hturn
    obtain rfl : e = e' := Next.jump.inj (hnext.symm.trans hnext')
    obtain ⟨i, hi, hblock⟩ := htrail _ mem_cons_self
    obtain ⟨j, target, regs, hj, htarget, -, rfl⟩ := jump?_eq_some_iff.1 hjump
    obtain rfl : i = j := Int.ofNat.inj (hi.symm.trans hj)
    obtain ⟨known', hall⟩ := ih hof (hof.reads i target hblock htarget)
      fun x hx => htrail x (mem_cons_of_mem _ hx)
    refine ⟨known', fun b htwin => ?_⟩
    obtain ⟨next', hjump', harrival, htwin'⟩ := htwin.jump hof hops hnext hi hblock htarget hjump
    obtain ⟨last', hpass, hlast⟩ := hall next' htwin'
    have hops' : b.ops = [] := by
      rw [htwin.same]
      exact hops
    have hturn' : turn env p rounds b world = .go next' { world with steps := world.steps + 1 } := by
      rw [turn_nil hops', htwin.nextOf_eq hops, hnext]
      dsimp only
      rw [hjump']
    rw [harrival]
    exact ⟨last', .jump hops' ((htwin.nextOf_eq hops).trans hnext) hturn' hpass, hlast⟩

lemma Passes.keeps :
    last.regs.size = a.regs.size ∧
      ∀ v : Int, 0 ≤ v → ¬ r.values v → reg last.regs v = reg a.regs v := by
  induction h generalizing known with
  | here => exact ⟨rfl, fun _ _ _ => rfl⟩
  | @work rounds frame next last world between world' trail hops hturn _ ih =>
    obtain ⟨op, rest, hcons⟩ := exists_cons_of_ne_nil hops
    rw [hcons] at hread
    obtain ⟨-, hwrites, hrest⟩ := hread
    rw [turn_cons hcons] at hturn
    split at hturn
    · next regs world₁ hwrite =>
      cases hturn
      obtain ⟨hsize, hkeep⟩ := ih hof hrest htrail
      obtain ⟨images, -, hout⟩ := writeImages_eq_ok_iff.1 hwrite
      refine ⟨hsize.trans (size_assign? hout), fun v hpos hv => (hkeep v hpos hv).trans ?_⟩
      exact reg_assign?_of_not_mem hout (fun u hu => hof.nonneg u (hwrites u hu)) hpos
        fun hmem => hv (hwrites v hmem)
    · cases hturn
  | @jump rounds frame next last world between world' trail e hops hnext hturn _ ih =>
    obtain ⟨e', hnext', hjump, -⟩ := exists_edge_of_turn hops hturn
    obtain rfl : e = e' := Next.jump.inj (hnext.symm.trans hnext')
    obtain ⟨i, hi, hblock⟩ := htrail _ mem_cons_self
    obtain ⟨j, target, regs, hj, htarget, hset, rfl⟩ := jump?_eq_some_iff.1 hjump
    obtain rfl : i = j := Int.ofNat.inj (hi.symm.trans hj)
    obtain ⟨hsize, hkeep⟩ := ih hof (hof.reads i target hblock htarget)
      fun x hx => htrail x (mem_cons_of_mem _ hx)
    have hparams := hof.params i target hblock htarget
    refine ⟨hsize.trans (size_assign? hset), fun v hpos hv => (hkeep v hpos hv).trans ?_⟩
    exact reg_assign?_of_not_mem hset (fun u hu => hof.nonneg u (hparams u hu)) hpos
      fun hmem => hv (hparams v hmem)

end Inside

end Sierra.Machine
