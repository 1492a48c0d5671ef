import Sierra.Libfunc.Basic
import Sierra.Proofs.Ir.Draft
import Sierra.Proofs.Machine.Region

/-!
# Code fragments

The code of an invocation is what was written between two drafts (`Piece`). It is a fragment when it
only reads its arguments and what it computed, and is left through its landings. Its arguments then
decide how it leaves (`Leaves`) or ends the run (`Stops`).
-/

namespace Sierra

open Ir Machine

variable {σ : Type}
variable {regs : Array Image} {last : Frame} {trail : List Arrival} {between world : World σ}

/-- An edge leaves a site through a branch that yields some values. -/
def Site.Exits (site : Site) (e : Ir.Edge) (branch : Nat) (outputs : List ValueId) : Prop :=
  ∃ l, site.landings[branch]? = some l ∧ e.target = l.block ∧ l.accept outputs = .ok e.args

/-- The block at the cursor has not been closed. -/
def Ir.Draft.Open (d : Draft) : Prop :=
  d.Live ∧ ∃ b, d.func.block? d.block = some b ∧ b.term = .none

/-- What was written at a site between two drafts. -/
structure Piece where
  site : Site
  before : Draft
  after : Draft

namespace Piece

def ops (x : Piece) : List Op :=
  ((x.after.func.block? x.before.block).elim [] (·.ops)).drop
    ((x.before.func.block? x.before.block).elim 0 (·.ops.length))

def term (x : Piece) : Terminator :=
  (x.after.func.block? x.before.block).elim .none (·.term)

def Owns (x : Piece) (i : Nat) : Prop :=
  x.before.func.blocks.size ≤ i ∧ i < x.after.func.blocks.size

abbrev Holds (x : Piece) (e : Ir.Edge) : Prop := ∃ i : Nat, e.target = (i : Int) ∧ x.Owns i

def region (x : Piece) (scope : Nat → ValueId → Prop) : Region where
  blocks := x.Owns
  values := fun v => (x.before.func.values.size : Int) ≤ v ∧ v < x.after.func.values.size
  scope := scope
  exit := fun e outputs => ∃ branch, x.site.Exits e branch outputs

/-- The code reads its arguments and what it computed, writes its own values and leaves through its
landings. -/
structure IsFragment (x : Piece) : Prop where
  slot : x.after.slot = x.before.slot
  live : x.after.Live
  keeps : x.before.func.Keeps x.after.func x.before.block.toNat
  start : ∃ b b', x.before.func.block? x.before.block = some b ∧
    x.after.func.block? x.before.block = some b' ∧ b'.params = b.params ∧ b'.ops = b.ops ++ x.ops
  code : ∃ scope, (x.region scope).Reads (· ∈ x.site.args) x.ops x.term ∧
    ∀ i b, x.Owns i → x.after.func.blocks[i]? = some b →
      (∀ v ∈ b.params, (x.region scope).values v) ∧
      (x.region scope).Reads (fun v => scope i v ∨ v ∈ b.params) b.ops b.term

/-! ## What fragments do -/

section Running

variable (env : Env σ) (p : Machine.Program) (f : Func) (depth : Nat)

def frame (x : Piece) (regs : Array Image) : Frame := ⟨f, regs, x.ops, x.term, depth⟩

/-- Given its arguments, the code leaves through a branch with some images. -/
def Leaves (x : Piece) (args : List Image) (world : World σ) (branch : Nat)
    (outputs : List Image) (world' : World σ) : Prop :=
  ∀ regs : Array Image, regs.size = f.values.size → x.site.args.map (reg regs) = args →
    ∃ trail last between e values, Passes env p (x.frame f depth regs) world trail last between ∧
      (∀ a ∈ trail, ∃ i : Nat, a.edge.target = (i : Int) ∧ x.Owns i) ∧ last.ops = [] ∧
      nextOf f last.regs last.term = .jump e ∧ x.site.Exits e branch values ∧
      values.map (reg last.regs) = outputs ∧
      world' = { between with steps := between.steps + 1 }

def Stops (x : Piece) (args : List Image) (world : World σ)
    (r : EStateM.Result Stop (World σ) (List Image)) : Prop :=
  ∀ regs : Array Image, regs.size = f.values.size → x.site.args.map (reg regs) = args →
    ∃ trail last between, Passes env p (x.frame f depth regs) world trail last between ∧
      (∀ a ∈ trail, ∃ i : Nat, a.edge.target = (i : Int) ∧ x.Owns i) ∧
      Halts env p last between r

end Running

/-! ## Fragments inside a function -/

section Inside

variable {env : Env σ} {p : Machine.Program} {f : Func} {depth : Nat} {x : Piece}

/-- The piece is part of a function, in which its landings are other blocks. -/
structure Inside (x : Piece) (f : Func) : Prop where
  fragment : x.IsFragment
  blocks : ∀ i, x.Owns i → f.blocks[i]? = x.after.func.blocks[i]?
  landings : ∀ l ∈ x.site.landings, ∀ i : Nat, l.block = (i : Int) → ¬ x.Owns i

lemma Inside.exists_region (h : x.Inside f) : ∃ scope, (x.region scope).Of f ∧
    (x.region scope).Reads (· ∈ x.site.args) x.ops x.term := by
  obtain ⟨scope, hstart, hblocks⟩ := h.fragment.code
  refine ⟨scope, ⟨fun v hv => ?_, ?_, fun i b hi hb => ?_, fun i b hi hb => ?_⟩, hstart⟩
  · exact Int.le_trans (Int.natCast_nonneg _) hv.1
  · rintro e outputs ⟨branch, l, hl, htarget, -⟩ ⟨i, hi, howns⟩
    exact h.landings l (List.mem_of_getElem? hl) i (htarget.symm.trans hi) howns
  · exact (hblocks i b hi ((h.blocks i hi).symm.trans hb)).1
  · exact (hblocks i b hi ((h.blocks i hi).symm.trans hb)).2

lemma twin_frame {scope : Nat → ValueId → Prop} {regs' : Array Image}
    (hread : (x.region scope).Reads (· ∈ x.site.args) x.ops x.term)
    (hsize : regs.size = regs'.size)
    (hargs : x.site.args.map (reg regs) = x.site.args.map (reg regs')) :
    Twin (x.region scope) (· ∈ x.site.args) (x.frame f depth regs) (x.frame f depth regs') :=
  ⟨rfl, hsize, fun _ hv => List.map_inj_left.1 hargs _ hv, hread⟩

variable (h : x.Inside f) (hpass : Passes env p (x.frame f depth regs) world trail last between)
  (howns : ∀ a ∈ trail, x.Holds a.edge)

include h hpass howns

lemma Inside.leaves (hsize : regs.size = f.values.size) {e : Ir.Edge}
    (hops : last.ops = []) (hnext : nextOf f last.regs last.term = .jump e) (hout : ¬ x.Holds e) :
    ∃ branch values, x.site.Exits e branch values ∧
      x.Leaves env p f depth (x.site.args.map (reg regs)) world branch
        (values.map (reg last.regs)) { between with steps := between.steps + 1 } := by
  obtain ⟨scope, hof, hread⟩ := h.exists_region
  obtain ⟨known, hall⟩ := hpass.twin hof hread howns
  obtain ⟨_, -, hself⟩ := hall _ (Twin.refl hread)
  have hcloses := hself.reads
  rw [hops] at hcloses
  rcases hcloses.edges e (mem_edges_of_nextOf hnext) with ⟨i, hi, hblock, -⟩ | hexit
  · exact absurd ⟨i, hi, hblock⟩ hout
  obtain ⟨values, ⟨branch, hexits⟩, hknown⟩ := hexit
  refine ⟨branch, values, hexits, fun regs' hsize' hargs => ?_⟩
  obtain ⟨last', hpass', htwin⟩ := hall _ (twin_frame hread (hsize.trans hsize'.symm) hargs.symm)
  have hops' : last'.ops = [] := by
    rw [htwin.same]
    exact hops
  have hnext' := htwin.nextOf_eq hops
  rw [hpass.func.1, hpass'.func.1] at hnext'
  exact ⟨trail, last', between, e, values, hpass', howns, hops', hnext'.trans hnext, hexits,
    (map_reg_congr htwin.regs hknown).symm, rfl⟩

lemma Inside.stops (hsize : regs.size = f.values.size)
    {r : EStateM.Result Stop (World σ) (List Image)} (hhalts : Halts env p last between r) :
    x.Stops env p f depth (x.site.args.map (reg regs)) world r := by
  obtain ⟨scope, hof, hread⟩ := h.exists_region
  obtain ⟨known, hall⟩ := hpass.twin hof hread howns
  intro regs' hsize' hargs
  obtain ⟨last', hpass', htwin⟩ := hall _ (twin_frame hread (hsize.trans hsize'.symm) hargs.symm)
  exact ⟨trail, last', between, hpass', howns, htwin.halts hhalts⟩

lemma Inside.keeps :
    last.regs.size = regs.size ∧
      ∀ v : Int, 0 ≤ v → v < x.before.func.values.size → reg last.regs v = reg regs v := by
  obtain ⟨scope, hof, hread⟩ := h.exists_region
  obtain ⟨hsize, hkeep⟩ := hpass.keeps hof hread howns
  refine ⟨hsize, fun v hpos hv => hkeep v hpos ?_⟩
  rintro ⟨hge, -⟩
  omega

end Inside

end Piece

/-- Wherever its code is written it is a fragment. -/
def Libfunc.Fragment (f : Libfunc) : Prop :=
  ∀ x : Piece, x.before.Open → f.emit x.site x.before = .ok () x.after → x.IsFragment

end Sierra
