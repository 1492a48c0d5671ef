import Sierra.Libfunc.Control
import Sierra.Libfunc.Integer
import Sierra.Proofs.Lower.Fragment

/-!
# Straight code

A run of operations that leaves through its landings is a fragment when it reads the arguments and
what was computed before (`Piece.isFragment_of_line`).
-/

namespace Sierra

open Ir Machine Except List Func Terminator Build Draft

variable {d d' : Draft} {lib : Libfunc} {args : List GenericArg} {s : Scope} {site : Site}
  {ops : List Op} {generic : String}

structure Line (d : Draft) (ops : List Op) (d' : Draft) : Prop where
  slot : d'.slot = d.slot
  cursor : d'.block = d.block
  live : d'.Live
  keeps : d.func.Keeps d'.func d.block.toNat
  blocks : d'.func.blocks.size = d.func.blocks.size
  written : ∀ i b, d.block = (i : Nat) → d.func.blocks[i]? = some b →
    d'.func.blocks[i]? = some { b with ops := b.ops ++ ops }

lemma Line.refl (h : d.Live) : Line d [] d where
  slot := rfl
  cursor := rfl
  live := h
  keeps := .refl _ _
  blocks := rfl
  written := fun i b _ hb => by rw [hb, append_nil]

lemma Line.result {x : Build ValueId} {v : ValueId} {d'' : Draft} {t : Ty}
    {op : ValueId → Op} (h : Line d ops d')
    (hx : x d' = .ok (d'.func.values.size : Int) (d'.put (d'.func.addOp d'.block.toNat t op)))
    (hok : x d' = .ok v d'') : v = (d'.func.values.size : Int) ∧
      d''.func.values.size = d'.func.values.size + 1 ∧ Line d (ops ++ [op v]) d'' := by
  rw [hx] at hok
  injection hok with hv hd
  subst hv hd
  rw [func_put h.live]
  refine ⟨rfl, Array.size_push .., h.slot, h.cursor, live_put h.live _, ?_, ?_, fun i b hi hb => ?_⟩
  · rw [func_put h.live]
    exact (h.keeps.addValue t).onBlock (.inl (by rw [h.cursor])) _
  · rw [func_put h.live]
    exact Array.size_modify.trans h.blocks
  · have hplace : d'.block.toNat = i := by rw [h.cursor, hi, Int.toNat_natCast]
    rw [func_put h.live, hplace, found_addOp (h.written i b hi hb), append_assoc]

lemma Piece.isFragment_of_line {x : Piece} {t : Terminator}
    (hopen : x.before.Open) (hline : Line x.before ops d)
    (hafter : x.after = d.put (d.func.onBlock d.block.toNat fun b => { b with term := t }))
    (hread : (x.region fun _ _ => False).Reads (· ∈ x.site.args) ops t) : x.IsFragment := by
  obtain ⟨hlive, b, hb, -⟩ := hopen
  obtain ⟨i, hi, hfound⟩ := block?_eq_some_iff.1 hb
  have hplace : d.block.toNat = i := by rw [hline.cursor, hi, Int.toNat_natCast]
  have hfunc : x.after.func = d.func.onBlock i fun b => { b with term := t } := by
    rw [hafter, func_put hline.live, hplace]
  have hwritten : x.after.func.blocks[i]? = some { b with ops := b.ops ++ ops, term := t } := by
    rw [hfunc]
    exact found_onBlock (hline.written i b hi hfound) _
  have hafterBlock : x.after.func.block? x.before.block =
      some { b with ops := b.ops ++ ops, term := t } := by
    rw [hi, block?_natCast, hwritten]
  have hops : x.ops = ops := by
    rw [Piece.ops, hafterBlock, hb]
    exact drop_left
  have hterm : x.term = t := by
    rw [Piece.term, hafterBlock]
    rfl
  have hsize : x.after.func.blocks.size = x.before.func.blocks.size := by
    rw [hfunc]
    exact Array.size_modify.trans hline.blocks
  refine ⟨?_, ?_, ?_, ⟨b, _, hb, hafterBlock, rfl, by rw [hops]⟩, fun _ _ => False, ?_, ?_⟩
  · rw [hafter]
    exact hline.slot
  · rw [hafter]
    exact live_put hline.live _
  · rw [hfunc, hi]
    have hkeep := hline.keeps
    rw [hi] at hkeep
    exact hkeep.onBlock (.inl rfl) _
  · rw [hops, hterm]
    exact hread
  · rintro j c ⟨hge, hlt⟩
    omega

lemma Site.exits_of_edge {branch : Nat} {outputs : List ValueId} {e : Ir.Edge}
    (h : site.edge branch outputs d = .ok e d') : d' = d ∧ site.Exits e branch outputs := by
  unfold Site.edge at h
  cases hl : site.landings[branch]? with
  | none =>
    rw [hl] at h
    exact absurd h throw_ne_ok
  | some l =>
    rw [hl] at h
    obtain ⟨args, d₁, hargs, hrest⟩ := bind_eq_ok.1 h
    obtain ⟨haccept, hd₁⟩ := lift_eq_ok.1 hargs
    obtain ⟨rfl, rfl⟩ := pure_eq_ok.1 hrest
    exact ⟨hd₁, l, hl, rfl, haccept⟩

namespace Libfunc

lemma emit_eq_ok (h : lib.emit site d = .ok () d') :
    site.args.length = lib.params.length ∧ lib.code site d = .ok () d' := by
  unfold emit at h
  split at h
  · next hlen => exact ⟨hlen, h⟩
  · exact absurd h throw_ne_ok

lemma fragment_of_leave (outputs : Site → List ValueId)
    (houtputs : ∀ site, ∀ v ∈ outputs site, v ∈ site.args)
    (hcode : lib.code = fun site => site.leave 0 (outputs site)) : lib.Fragment := by
  intro x hopen hemit
  have hcode' := (emit_eq_ok hemit).2
  rw [hcode] at hcode'
  obtain ⟨e, d, hedge, hclose⟩ := bind_eq_ok.1 hcode'
  obtain ⟨rfl, hexits⟩ := Site.exits_of_edge hedge
  rw [close_apply hopen.1] at hclose
  injection hclose with _ hafter
  refine x.isFragment_of_line hopen (.refl hopen.1) hafter.symm ⟨by simp, by simp [selectors], ?_⟩
  intro e' he'
  obtain rfl : e' = e := by simpa [edges] using he'
  exact .inr ⟨_, ⟨0, hexits⟩, houtputs x.site⟩

lemma fragment_unwrapNonZero (h : unwrapNonZero s args = .ok lib) : lib.Fragment := by
  obtain ⟨_, -, h⟩ := except_bind_eq_ok.1 h
  obtain ⟨_, -, h⟩ := except_bind_eq_ok.1 h
  rw [← ok.inj h]
  exact fragment_of_leave (fun site => site.args) (fun _ _ hv => hv) rfl

lemma fragment_isZero {typeName : String}
    (h : isZero generic typeName s args = .ok lib) : lib.Fragment := by
  obtain ⟨_, -, h⟩ := except_bind_eq_ok.1 h
  obtain ⟨id, -, h⟩ := except_bind_eq_ok.1 h
  obtain ⟨nz, -, h⟩ := except_bind_eq_ok.1 h
  cases h
  intro x hopen hemit
  obtain ⟨hlen, hcode⟩ := emit_eq_ok hemit
  have harg : x.site.arg 0 ∈ x.site.args := by
    rw [Site.arg, getElem?_eq_getElem (by rw [hlen]; exact Nat.one_pos)]
    exact getElem_mem _
  have hlive := hopen.1
  obtain ⟨zero, d₁, hzeroLike, hrest⟩ := bind_eq_ok.1 hcode
  obtain ⟨test, d₂, hicmp, hleave⟩ := bind_eq_ok.1 hrest
  obtain ⟨t, _, htype, hconst⟩ := bind_eq_ok.1 hzeroLike
  obtain ⟨yes, d₃, hyes, hothers⟩ := bind_eq_ok.1 hleave
  obtain ⟨no, d₄, hno, hclose⟩ := bind_eq_ok.1 hothers
  injection htype with _ hsame
  rw [← hsame] at hconst
  obtain ⟨rfl, hsize₁, hline₁⟩ := (Line.refl hlive).result (const_apply hlive _ _) hconst
  obtain ⟨rfl, hsize₂, hline₂⟩ := hline₁.result (icmp_apply hline₁.live _ _ _) hicmp
  obtain ⟨hd₃, hyes⟩ := Site.exits_of_edge hyes
  obtain ⟨hd₄, hno⟩ := Site.exits_of_edge hno
  rw [hd₄, hd₃, Build.condBr, close_apply hline₂.live] at hclose
  injection hclose with _ hafter
  refine x.isFragment_of_line hopen hline₂ hafter.symm ?_
  -- both results are values of the piece
  have hsize : x.after.func.values.size = x.before.func.values.size + 2 := by
    rw [← hafter, func_put hline₂.live, values_onBlock, hsize₂, hsize₁]
  have hvals : ∀ v : Int, (x.before.func.values.size : Int) ≤ v →
      v < (x.before.func.values.size : Int) + 2 → (x.region fun _ _ => False).values v := by
    intro v hge hlt
    have hlast : v < (x.after.func.values.size : Int) := by omega
    exact ⟨hge, hlast⟩
  refine ⟨by simp, ?_, ?_, ?_, ⟨by simp, ?_, ?_⟩⟩
  · intro v hv
    obtain rfl : v = _ := by simpa [written] using hv
    exact hvals _ (Int.le_refl _) (by omega)
  · intro v hv
    have hv : v = x.site.arg 0 ∨ v = (x.before.func.values.size : Int) := by simpa using hv
    rcases hv with rfl | rfl
    · exact .inl harg
    · exact .inr (by simp [written])
  · intro v hv
    obtain rfl : v = _ := by simpa [written] using hv
    exact hvals _ (by omega) (by omega)
  · intro v hv
    obtain rfl : v = _ := by simpa [selectors] using hv
    exact .inr (by simp [written])
  · intro e he
    have he : e = yes ∨ e = no := by simpa [edges] using he
    rcases he with rfl | rfl
    · exact .inr ⟨[], ⟨0, hyes⟩, by simp⟩
    · exact .inr ⟨x.site.args, ⟨1, hno⟩, fun v hv => .inl (.inl hv)⟩

end Libfunc

end Sierra
