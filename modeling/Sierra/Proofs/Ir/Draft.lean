import Sierra.Ir.Draft
import Sierra.Proofs.Loops

/-!
# What writing code does

Each step declares values, adds operations at the cursor, closes a block or adds one. A function
keeps another (`Func.Keeps`) when it has all its values and blocks, one of which may have been
written on.
-/

namespace Sierra.Ir

open Array Option Func

variable {d' : Draft} {f g : Func} {place i slot : Nat} {v : Int}

/-! ## Functions that grow -/

namespace Func

def onBlock (f : Func) (place : Nat) (change : Block → Block) : Func :=
  { f with blocks := f.blocks.modify place change }

def addValue (f : Func) (t : Ty) : Func := { f with values := f.values.push t }

def addBlock (f : Func) (b : Block) : Func := { f with blocks := f.blocks.push b }

def addOp (f : Func) (place : Nat) (t : Ty) (op : ValueId → Op) : Func :=
  (f.addValue t).onBlock place fun b => { b with ops := b.ops ++ [op f.values.size] }

@[simp] lemma values_addBlock (f : Func) (b : Block) : (f.addBlock b).values = f.values := rfl

@[simp] lemma size_blocks_addBlock (f : Func) (b : Block) :
    (f.addBlock b).blocks.size = f.blocks.size + 1 := size_push ..

lemma getElem?_addBlock (f : Func) (b : Block) (i : Nat) :
    (f.addBlock b).blocks[i]? = if i = f.blocks.size then some b else f.blocks[i]? :=
  getElem?_push

@[simp] lemma values_onBlock (f : Func) (place : Nat) (change : Block → Block) :
    (f.onBlock place change).values = f.values := rfl

lemma getElem?_onBlock (f : Func) (place : Nat) (change : Block → Block) (i : Nat) :
    (f.onBlock place change).blocks[i]? =
      if place = i then (f.blocks[i]?).map change else f.blocks[i]? :=
  getElem?_modify ..

section Found

variable {f : Func} {i : Nat} {b : Block}

lemma found_addBlock (h : f.blocks[i]? = some b) (c : Block) :
    (f.addBlock c).blocks[i]? = some b := by
  obtain ⟨hlt, -⟩ := Array.getElem?_eq_some_iff.1 h
  rw [getElem?_addBlock, if_neg (by omega), h]

lemma found_onBlock (h : f.blocks[i]? = some b) (change : Block → Block) :
    (f.onBlock i change).blocks[i]? = some (change b) := by
  rw [getElem?_onBlock, if_pos rfl, h, map_some]

lemma found_addOp (h : f.blocks[i]? = some b) (t : Ty) (op : ValueId → Op) :
    (f.addOp i t op).blocks[i]? = some { b with ops := b.ops ++ [op f.values.size] } :=
  found_onBlock (f := f.addValue t) h _

end Found

/-- The second function has all that the first has, one block apart. -/
structure Keeps (f f' : Func) (place : Nat) : Prop where
  name : f'.name = f.name
  entry : f'.entry = f.entry
  values : ∀ i < f.values.size, f'.values[i]? = f.values[i]?
  valuesSize : f.values.size ≤ f'.values.size
  blocks : ∀ i < f.blocks.size, i ≠ place → f'.blocks[i]? = f.blocks[i]?
  blocksSize : f.blocks.size ≤ f'.blocks.size

lemma Keeps.refl (f : Func) (place : Nat) : f.Keeps f place :=
  ⟨rfl, rfl, fun _ _ => rfl, Nat.le_refl _, fun _ _ _ => rfl, Nat.le_refl _⟩

lemma Keeps.found (h : f.Keeps g place) {b : Block} (hb : f.blocks[i]? = some b)
    (hne : i ≠ place) : g.blocks[i]? = some b := by
  obtain ⟨hlt, -⟩ := Array.getElem?_eq_some_iff.1 hb
  rw [h.blocks i hlt hne, hb]

lemma Keeps.trans {h : Func} {new : Nat} (hfg : f.Keeps g place) (hgh : g.Keeps h new)
    (hnew : new = place ∨ f.blocks.size ≤ new) : f.Keeps h place where
  name := hgh.name.trans hfg.name
  entry := hgh.entry.trans hfg.entry
  values := fun i hi =>
    (hgh.values i (Nat.lt_of_lt_of_le hi hfg.valuesSize)).trans (hfg.values i hi)
  valuesSize := Nat.le_trans hfg.valuesSize hgh.valuesSize
  blocks := fun i hi hne =>
    (hgh.blocks i (Nat.lt_of_lt_of_le hi hfg.blocksSize) (by omega)).trans (hfg.blocks i hi hne)
  blocksSize := Nat.le_trans hfg.blocksSize hgh.blocksSize

section

variable (h : f.Keeps g place)
include h

lemma Keeps.addValue (t : Ty) :
    f.Keeps (g.addValue t) place where
  name := h.name
  entry := h.entry
  values := fun i hi => by
    have hlt : i < g.values.size := Nat.lt_of_lt_of_le hi h.valuesSize
    rw [Func.addValue, getElem?_push_lt hlt, ← getElem?_eq_getElem hlt]
    exact h.values i hi
  valuesSize := by
    rw [Func.addValue, size_push]
    exact Nat.le_succ_of_le h.valuesSize
  blocks := h.blocks
  blocksSize := h.blocksSize

lemma Keeps.addBlock (b : Block) :
    f.Keeps (g.addBlock b) place where
  name := h.name
  entry := h.entry
  values := h.values
  valuesSize := h.valuesSize
  blocks := fun i hi hne => by
    have hlt : i < g.blocks.size := Nat.lt_of_lt_of_le hi h.blocksSize
    rw [Func.addBlock, getElem?_push_lt hlt, ← getElem?_eq_getElem hlt]
    exact h.blocks i hi hne
  blocksSize := by
    rw [Func.addBlock, size_push]
    exact Nat.le_succ_of_le h.blocksSize

lemma Keeps.onBlock (hi : i = place ∨ f.blocks.size ≤ i) (change : Block → Block) :
    f.Keeps (g.onBlock i change) place where
  name := h.name
  entry := h.entry
  values := h.values
  valuesSize := h.valuesSize
  blocks := fun j hj hne => by
    rw [Func.onBlock, getElem?_modify, if_neg (by omega)]
    exact h.blocks j hj hne
  blocksSize := by
    rw [Func.onBlock, size_modify]
    exact h.blocksSize

lemma Keeps.typeOf (hv : v < f.values.size) : g.typeOf v = f.typeOf v := by
  have hdef : ∀ f : Func, f.typeOf v = if v < 0 then .none else (f.values[v.toNat]?).getD .none :=
    fun _ => rfl
  rw [hdef, hdef]
  split
  · rfl
  · rw [h.values v.toNat (by omega)]

end

def nextIds (f : Func) (count : Nat) : List ValueId :=
  (List.range' f.values.size count).map Int.ofNat

@[simp] lemma length_nextIds (f : Func) (count : Nat) : (f.nextIds count).length = count := by
  rw [nextIds, List.length_map, List.length_range']

lemma mem_nextIds {count : Nat} :
    v ∈ f.nextIds count ↔ (f.values.size : Int) ≤ v ∧ v < f.values.size + count := by
  simp only [nextIds, List.mem_map, List.mem_range'_1]
  constructor
  · rintro ⟨i, hi, rfl⟩
    show (f.values.size : Int) ≤ (i : Int) ∧ (i : Int) < _
    omega
  · intro hv
    exact ⟨v.toNat, by omega, Int.toNat_of_nonneg (by omega)⟩

lemma nodup_nextIds (f : Func) (count : Nat) : (f.nextIds count).Nodup :=
  List.Pairwise.map _ (fun _ _ hne heq => hne (Int.ofNat.inj heq)) (List.nodup_range' 1 (by omega))

def addBlank (f : Func) (ts : List Ty) : Func :=
  addBlock { f with values := f.values ++ ts.toArray }
    { id := f.blocks.size, params := f.nextIds ts.length }

lemma keeps_addBlank (f : Func) (ts : List Ty) : f.Keeps (f.addBlank ts) f.blocks.size where
  name := rfl
  entry := rfl
  values := fun i hi => getElem?_append_left hi
  valuesSize := by
    show _ ≤ (f.values ++ ts.toArray).size
    rw [size_append]
    exact Nat.le_add_right _ _
  blocks := fun i hi _ => by
    rw [addBlank, getElem?_addBlock]
    exact if_neg (Nat.ne_of_lt hi)
  blocksSize := by
    show _ ≤ (f.blocks.push _).size
    rw [size_push]
    exact Nat.le_succ _

end Func

/-! ## Drafts -/

namespace Draft

variable {d : Draft}

def Live (d : Draft) : Prop := d.slot < d.funcs.size

def put (d : Draft) (f : Func) : Draft := d.modifyFunc fun _ => f

def within (d : Draft) (slot : Nat) : Draft := { d with slot := slot, block := 0 }

lemma modifyFunc_eq_put (h : d.Live) (g : Func → Func) : d.modifyFunc g = d.put (g d.func) := by
  unfold put modifyFunc func
  congr 1
  refine ext_getElem? fun i => ?_
  rw [getElem?_modify, getElem?_modify]
  split
  · next hi =>
    subst hi
    rw [getElem?_eq_getElem h, map_some, map_some, getD_some]
  · rfl

lemma func_put (h : d.Live) (f : Func) : (d.put f).func = f := by
  unfold put modifyFunc func
  rw [getElem?_modify, if_pos rfl, getElem?_eq_getElem h]
  rfl

lemma live_put (h : d.Live) (f : Func) : (d.put f).Live := by
  unfold Live put modifyFunc
  rw [size_modify]
  exact h

lemma put_func_self (h : d.Live) : d.put d.func = d := by
  rw [← modifyFunc_eq_put h fun f => f]
  unfold modifyFunc
  congr 1
  refine ext_getElem? fun i => ?_
  rw [getElem?_modify]
  split
  · exact map_id'
  · rfl

lemma put_put (f g : Func) : (d.put f).put g = d.put g := by
  unfold put modifyFunc
  congr 1
  refine ext_getElem? fun i => ?_
  rw [getElem?_modify, getElem?_modify, getElem?_modify]
  split
  · cases d.funcs[i]? <;> rfl
  · rfl

end Draft

/-! ## Steps -/

namespace Build

variable {d : Draft}

lemma lift_eq_ok {α : Type} {x : Except Failure α} {a : α} :
    lift x d = .ok a d' ↔ x = .ok a ∧ d' = d := by
  cases x with
  | error e => exact iff_of_false throw_ne_ok (by simp)
  | ok b => exact pure_eq_ok.trans (by rw [Except.ok.injEq, eq_comm (a := d)])

lemma fresh_apply (h : d.Live) (t : Ty) :
    fresh t d = .ok (d.func.values.size : Int) (d.put (d.func.addValue t)) := by
  show EStateM.Result.ok _ (d.modifyFunc _) = _
  rw [Draft.modifyFunc_eq_put h]
  rfl

lemma emit_apply (h : d.Live) (op : Op) :
    emit op d = .ok () (d.put (d.func.onBlock d.block.toNat fun b =>
      { b with ops := b.ops ++ [op] })) := by
  show EStateM.Result.ok _ (d.modifyFunc _) = _
  rw [Draft.modifyFunc_eq_put h]
  rfl

lemma close_apply (h : d.Live) (t : Terminator) :
    close t d = .ok () (d.put (d.func.onBlock d.block.toNat fun b => { b with term := t })) := by
  show EStateM.Result.ok _ (d.modifyFunc _) = _
  rw [Draft.modifyFunc_eq_put h]
  rfl

lemma moveTo_apply (id : BlockId) : moveTo id d = .ok () { d with block := id } := rfl

lemma paramsOf_apply (id : BlockId) :
    paramsOf id d = .ok ((d.func.block? id).elim [] (·.params)) d := rfl

section

variable (h : d.Live)

include h

lemma freshAll_apply (ts : List Ty) :
    freshAll ts d = .ok (d.func.nextIds ts.length)
      (d.put { d.func with values := d.func.values ++ ts.toArray }) := by
  induction ts generalizing d with
  | nil =>
    show EStateM.Result.ok [] d = .ok [] (d.put _)
    rw [show ({ d.func with values := d.func.values ++ #[] } : Func) = d.func by simp,
      Draft.put_func_self h]
  | cons t ts ih =>
    refine bind_eq_ok.2 ⟨_, _, fresh_apply h t, bind_eq_ok.2 ⟨_, _, ih (Draft.live_put h _), ?_⟩⟩
    rw [pure_eq_ok, Draft.func_put h, Draft.put_put]
    constructor
    · simp [nextIds, addValue, List.range'_succ]
    · simp [addValue]

lemma newBlock_apply (ts : List Ty) :
    newBlock ts d = .ok (d.func.blocks.size : Int) (d.put (d.func.addBlank ts)) := by
  refine bind_eq_ok.2 ⟨d, d, rfl, bind_eq_ok.2 ⟨_, _, freshAll_apply h ts, ?_⟩⟩
  refine bind_eq_ok.2 ⟨(), (d.put _).modifyFunc _, rfl, ?_⟩
  rw [pure_eq_ok, Draft.modifyFunc_eq_put (Draft.live_put h _), Draft.func_put h, Draft.put_put]
  exact ⟨rfl, rfl⟩

lemma newBlock_nil_apply :
    newBlock [] d = .ok (d.func.blocks.size : Int)
      (d.put (d.func.addBlock { id := d.func.blocks.size })) := by
  rw [newBlock_apply h]
  rfl

lemma result_apply (t : Ty) (op : ValueId → Op) :
    (do
      let v ← fresh t
      emit (op v)
      return v : Build ValueId) d =
      .ok (d.func.values.size : Int) (d.put (d.func.addOp d.block.toNat t op)) := by
  refine bind_eq_ok.2 ⟨_, _, fresh_apply h t,
    bind_eq_ok.2 ⟨_, _, emit_apply (Draft.live_put h _) _, ?_⟩⟩
  rw [pure_eq_ok, Draft.func_put h, Draft.put_put]
  exact ⟨rfl, rfl⟩

lemma const_apply (t : Ty) (n : Int) :
    const t n d = .ok (d.func.values.size : Int) (d.put (d.func.addOp d.block.toNat t fun v =>
      { code := .const, results := [v], type := t, imm := Machine.Image.ofInt t.storeSize n })) :=
  result_apply h _ _

lemma icmp_apply (pred : Word.Pred) (x y : ValueId) :
    icmp pred x y d = .ok (d.func.values.size : Int)
      (d.put (d.func.addOp d.block.toNat (.int 1) fun v =>
        { code := .icmp, results := [v], args := [x, y], type := .int 1, pred := some pred })) :=
  result_apply h _ _

end

lemma addFunc_eq_ok {name : String} {params results : List Ty} {isPublic : Bool}
    (h : addFunc name params results isPublic d = .ok slot d') :
    slot = d.funcs.size ∧ d' = { d with
      funcs := d.funcs.push
        { name := name, params := params, results := results, isPublic := isPublic } } := by
  obtain ⟨found, d₁, hget, hrest⟩ := bind_eq_ok.1 h
  injection hget with hfound hd₁
  subst hfound hd₁
  split at hrest
  · obtain ⟨_, d₂, hthrow, -⟩ := bind_eq_ok.1 hrest
    exact absurd hthrow throw_ne_ok
  · obtain ⟨_, d₂, hset, hrest⟩ := bind_eq_ok.1 hrest
    injection hset with _ hd₂
    obtain ⟨hslot, hd'⟩ := pure_eq_ok.1 hrest
    exact ⟨hslot.symm, hd'.symm.trans hd₂.symm⟩

lemma inFunc_eq_ok {body : Build Unit} (hslot : slot < d.funcs.size)
    (h : inFunc slot body d = .ok () d') :
    ∃ last, body ((d.within slot).put ((d.within slot).func.addBlank (d.within slot).func.params)) =
      .ok () last ∧
      d' = { last with slot := d.slot, block := d.block } := by
  obtain ⟨before, d₁, hget, hrest⟩ := bind_eq_ok.1 h
  injection hget with hpre hd₁
  subst hpre hd₁
  obtain ⟨_, d₂, hset, hrest⟩ := bind_eq_ok.1 hrest
  injection hset with _ hd₂
  obtain ⟨found, d₃, hget, hrest⟩ := bind_eq_ok.1 hrest
  injection hget with hfound hd₃
  rw [← hfound, ← hd₃, show d₂ = d.within slot from hd₂.symm,
    bind_of_ok (newBlock_apply (show (d.within slot).Live from hslot) _)] at hrest
  obtain ⟨_, last, hbody, hrest⟩ := bind_eq_ok.1 hrest
  injection hrest with _ hd'
  exact ⟨last, hbody, hd'.symm⟩

end Build

end Sierra.Ir
