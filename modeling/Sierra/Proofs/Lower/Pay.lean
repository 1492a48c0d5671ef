import Sierra.Proofs.Lower.Stand

/-!
# Paying for a statement

A gas check compares the counter with the amount due and takes it, or traps
(`Stands.pays_or_traps`).
-/

namespace Sierra.Lower

open Ir Machine Option Except Image Word

variable {σ : Type} {env : Env σ} {mp : Machine.Program} {p : Plan} {limit depth : Nat} {f : Func}
  {n : Flow.Node} {b : Ir.Block} {store : Store} {frame : Frame} {x : State σ} {gas : VarId}

lemma exists_counter? {types : Types} {vars : Vars} (h : store.Fits vars)
    (hgas : (List.find? (fun entry : VarId × TypeId =>
      (types.info? entry.2).any fun info => info.kind == .gasBuiltin) vars).map (·.1) = some gas) :
    ∃ b info, counter? types store = some b ∧ b.var = gas ∧ types.info? b.type = some info ∧
      info.kind = .gasBuiltin := by
  have hsame : counter? types store = store.bindings.find? fun b =>
      (types.info? b.type).any fun info => info.kind == .gasBuiltin := rfl
  rw [hsame]
  unfold Store.Fits at h
  generalize store.bindings = bs at h
  induction h with
  | nil => simp at hgas
  | @cons b entry bs vars hfirst _ ih =>
    rw [List.find?_cons] at hgas ⊢
    rw [Types.info?_congr hfirst.2]
    cases hkind : (types.info? entry.2).any fun info => info.kind == .gasBuiltin with
    | false =>
      rw [hkind] at hgas
      exact ih hgas
    | true =>
      rw [hkind] at hgas
      obtain ⟨info, hinfo, hgasKind⟩ : ∃ info, types.info? entry.2 = some info ∧
          info.kind = .gasBuiltin := by
        simpa [any_eq_true] using hkind
      refine ⟨b, info, rfl, hfirst.1.trans (some.inj hgas), ?_, hgasKind⟩
      rw [Types.info?_congr hfirst.2, hinfo]

lemma exists_passes_checkOps (env : Env σ) (mp : Machine.Program) (depth : Nat) (t : Terminator)
    {regs : Array Image} {k amount : Nat} {counter : Int} (hsize : k + 2 < regs.size)
    (hpos : 0 ≤ counter) (hlt : counter < (k : Int)) (htype : f.typeOf counter = .int 64)
    (hamt : amount < pow2 64) (world : World σ) :
    ∃ regs' : Array Image, regs'.size = regs.size ∧
      Passes env mp ⟨f, regs, Plan.checkOps k counter amount (.int 64), t, depth⟩ world []
        ⟨f, regs', [], t, depth⟩ world ∧
      (∀ v : Int, 0 ≤ v → v < (k : Int) → reg regs' v = reg regs v) ∧
      reg regs' ((k + 1 : Nat) : Int) = ofBool (decide (amount ≤ (reg regs counter).word)) ∧
      (amount ≤ (reg regs counter).word → reg regs' ((k + 2 : Nat) : Int) =
        Bytes.ofNat 8 ((reg regs counter).word - amount)) := by
  have hmark : ∀ {regs : Array Image} {i : Nat}, i < regs.size → HasMark regs.size (i : Int) :=
    fun hi => ⟨Int.natCast_nonneg _, by rwa [Int.toNat_natCast]⟩
  generalize hcost : normalize (.int 64) (ofInt (Ty.int 64).storeSize (amount : Int)) =
    cost
  have hword : cost.word = amount := by
    rw [← hcost]
    exact word_const hamt
  generalize hregs₁ : setReg regs (k : Int) cost = regs₁
  have hcost₁ : reg regs₁ (k : Int) = cost := by
    rw [← hregs₁]
    exact reg_setReg_self _ (hmark (by omega))
  have hold₁ : ∀ v : Int, 0 ≤ v → v < (k : Int) → reg regs₁ v = reg regs v := by
    intro v hv hvk
    rw [← hregs₁]
    exact reg_setReg_of_ne _ (Int.natCast_nonneg k) hv (by omega)
  generalize henough : ofBool (decide (amount ≤ (reg regs counter).word)) = enough
  generalize hregs₂ : setReg regs₁ ((k + 1 : Nat) : Int) enough = regs₂
  have hold₂ : ∀ v : Int, 0 ≤ v → v ≤ (k : Int) → reg regs₂ v = reg regs₁ v := by
    intro v hv hvk
    rw [← hregs₂]
    exact reg_setReg_of_ne _ (Int.natCast_nonneg _) hv (by omega)
  have hsize₁ : regs₁.size = regs.size := by rw [← hregs₁, size_setReg]
  have hsize₂ : regs₂.size = regs.size := by rw [← hregs₂, size_setReg, hsize₁]
  have hcount₂ : reg regs₂ counter = reg regs counter := by
    rw [hold₂ counter hpos (by omega), hold₁ counter hpos hlt]
  obtain ⟨left, hleft⟩ : ∃ left, (binary .sub 64 (reg regs counter).word amount).map
      (ofWord (.int 64)) = some left := by
    simp [binary, binaryWide]
  refine ⟨setReg regs₂ ((k + 2 : Nat) : Int) left, by rw [size_setReg, hsize₂], ?_, ?_, ?_, ?_⟩
  · refine .pure_op rfl rfl rfl (congrArg ok hcost) ?_
    rw [hregs₁]
    have hicmp : ofBool (decide ((reg regs₁ (k : Int)).word ≤ (reg regs₁ counter).word)) =
        enough := by
      rw [hcost₁, hword, hold₁ counter hpos hlt, henough]
    refine .pure_op rfl rfl rfl (congrArg ok hicmp) ?_
    rw [hregs₂]
    obtain ⟨z, hz, himg⟩ := map_eq_some_iff.1 hleft
    refine .pure_op rfl rfl rfl ?_ (.here _ _)
    have hwidth : (Ty.int 64).width = 64 := by decide
    rw [← himg]
    simp [pureResult, argType, argReg, htype, hwidth, hcount₂,
      hold₂ (k : Int) (Int.natCast_nonneg k) (le_refl _), hcost₁, hword, hz]
  · intro v hv hvk
    rw [reg_setReg_of_ne _ (Int.natCast_nonneg _) hv (by omega), hold₂ v hv (by omega),
      hold₁ v hv hvk]
  · rw [reg_setReg_of_ne _ (Int.natCast_nonneg _) (Int.natCast_nonneg _) (by omega), ← hregs₂]
    exact reg_setReg_self _ (hmark (by omega))
  · intro hle
    rw [reg_setReg_self _ (hmark (by omega))]
    rw [binary_sub_64 (word_lt_modulus _) hle] at hleft
    exact (some.inj hleft).symm

lemma Plan.Heads.typeOf_eq {i : Nat} (h : p.Heads limit f n i b) (hfits : store.Fits n.state)
    {c : Binding} {info : TypeInfo} {value : ValueId} (hfind : store.find? c.var = some c)
    (hinfo : p.settled.types.info? c.type = some info)
    (hval : valueOf? (Plan.start n b) c.var = some value) :
    value ∈ b.params ∧ f.typeOf value = info.register := by
  obtain ⟨⟨v, w⟩, hentry, rfl⟩ := map_eq_some_iff.1 hval
  have hvar : v = c.var := by simpa using List.find?_some hentry
  have hmem : (v, w) ∈ Plan.start n b := List.mem_of_find?_eq_some hentry
  refine ⟨Plan.mem_start hmem, ?_⟩
  obtain ⟨k, hk⟩ := List.mem_iff_getElem?.1 hmem
  obtain ⟨hv, hw⟩ := List.getElem?_zip_eq_some.1 hk
  rw [List.getElem?_map, map_eq_some_iff] at hv
  obtain ⟨entry, hentry, hfirst⟩ := hv
  -- the binding at the same position is that of the variable
  obtain ⟨c', hc', hsame⟩ := (forall₂_getElem? hfits k).2 entry hentry
  have hc : c' = c := by
    have hfound := Store.find?_of_mem (List.mem_of_getElem? hc')
    rw [hsame.1, hfirst, hvar, hfind] at hfound
    exact (some.inj hfound).symm
  obtain ⟨w', hw', hreg⟩ := (forall₂_getElem? h.types k).2 entry hentry
  cases hw.symm.trans hw'
  have hinfo' : p.settled.types.info? entry.2 = some info := by
    rw [← Types.info?_congr hsame.2, hc, hinfo]
  rw [Types.register, Types.info, hinfo'] at hreg
  exact (ok.inj hreg).symm

lemma Stands.exists_counter (h : Stands p limit f depth x n b frame)
    (hsound : p.settled.types.Sound) (hgas : p.gasVar? n = some gas) :
    ∃ c, counter? p.settled.types x.store = some c ∧ c.var = gas ∧
      valueOf (Plan.start n b) gas ∈ b.params ∧
      f.typeOf (valueOf (Plan.start n b) gas) = .int 64 ∧
      reg frame.regs (valueOf (Plan.start n b) gas) = c.image := by
  obtain ⟨c, info, hcount, rfl, hinfo, hkind⟩ := exists_counter? h.fits hgas
  have hfind : x.store.find? c.var = some c :=
    Store.find?_of_mem (List.mem_of_find?_eq_some hcount)
  obtain ⟨hval, himg⟩ := (holds_zip h.fits h.images).eq_image hfind
  obtain ⟨i, hheads⟩ := h.heads
  obtain ⟨hmem, htype⟩ := hheads.typeOf_eq h.fits hfind hinfo hval
  exact ⟨c, hcount, rfl, hmem, htype.trans (hsound.register_gas hinfo hkind), himg⟩

lemma Stands.pays_or_traps {rest : Ir.Block}
    {values : Values} (h : Stands p limit f depth x n b frame) (hlaid : Laid p limit f)
    (hflow : p.flow.Explored p.settled) (hsound : p.settled.types.Sound)
    (hfits : due p.gas x.index < pow2 64) (hbegins : p.Begins limit f n b rest values) :
    (∃ y trail last, Pays p.settled p.gas x y ∧ y.index = x.index ∧
      Passes env mp frame x.world trail last y.world ∧ p.Quiet trail ∧
      Poised f depth y n rest values last) ∨
    ∃ c trail last between, counter? p.settled.types x.store = some c ∧
      c.image.word < due p.gas x.index ∧ Passes env mp frame x.world trail last between ∧
      p.Quiet trail ∧ Halts env mp last between
        (.error (.trap (shortage p.flow.function x.index)) (tick x.world)) := by
  have hidx : n.index = x.index := (hflow.visited_of_node? h.node).2
  have hholds := holds_zip h.fits h.images
  cases hbegins with
  | plain hnone =>
    have hzero : due p.gas x.index = 0 := by
      unfold due
      rw [← hidx]
      cases hinj : p.gas.injectedAt n.index with
      | none => rfl
      | some amount =>
        cases amount with
        | zero => rfl
        | succ amount => exact absurd hinj (hnone amount)
    exact .inl ⟨x, [], frame, .free hzero, rfl, .here _ _, by simp [Plan.Quiet], h.place, h.size,
      hholds, h.fits⟩
  | @checked amount k goOn out gas rest hinj hgas hops hterm hk hparams hrest hempty hout hgoOn
      hlim =>
    obtain ⟨i, hheads⟩ := h.heads
    obtain ⟨c, hcount, rfl, hmem, htype, himg⟩ := h.exists_counter hsound hgas
    have hdue : due p.gas x.index = amount + 1 := by rw [due, ← hidx, hinj, getD_some]
    rw [hdue] at hfits
    rw [htype] at hops
    obtain ⟨regs, hsize, hpass, hkept, henough, hleft⟩ :=
      exists_passes_checkOps env mp depth b.term (h.size.symm ▸ hk) (hheads.marks _ hmem).1
        (hparams _ hmem) htype hfits x.world
    rw [← hops, ← h.place] at hpass
    rw [himg] at henough hleft
    have hnext : nextOf f regs b.term = .jump (if amount + 1 ≤ c.image.word then
        ⟨(goOn : Int), []⟩ else ⟨(out : Int), []⟩) := by
      rw [hterm, Plan.checkTerm, nextOf, henough, flag_ofBool]
      simp
    have hgo : ∀ {target : Nat} {b' : Ir.Block} (t : Terminator), limit ≤ target →
        f.blocks[target]? = some b' → b'.params = [] →
        nextOf f regs t = .jump ⟨(target : Int), []⟩ → ∃ trail,
          Passes env mp ⟨f, regs, [], t, depth⟩ x.world trail ⟨f, regs, b'.ops, b'.term, depth⟩
            (tick x.world) ∧ p.Quiet trail := by
      intro target b' t hle hfound hnone hnext
      have hjump : jump? ⟨f, regs, [], t, depth⟩ ⟨(target : Int), []⟩ =
          some ⟨f, regs, b'.ops, b'.term, depth⟩ :=
        jump?_eq_some_iff.2 ⟨target, b', regs, rfl, hfound, by rw [hnone]; rfl, rfl⟩
      refine ⟨_, .along rfl hnext hjump (.here _ _), ?_⟩
      simp [Plan.Quiet, Frame.arrival, hlaid.statementAt?_eq_none hle]
    by_cases hle : amount + 1 ≤ c.image.word
    · -- the amount is there: the rest of the statement follows with what is left
      rw [if_pos hle] at hnext
      obtain ⟨trail, hway, hquiet⟩ := hgo b.term hgoOn hrest hempty hnext
      refine .inl ⟨_, _, _, .paid (by omega) hcount (by omega), rfl, hpass.trans hway, hquiet,
        rfl, hsize.trans h.size, ?_, h.fits.set _ _⟩
      rw [hdue, ← hleft hle]
      refine hholds.set fun entry hentry => hkept _ ?_ ?_
      · exact (hheads.marks _ (Plan.mem_start hentry)).1
      · exact hparams _ (Plan.mem_start hentry)
    · rw [if_neg hle] at hnext
      obtain ⟨trail, hway, hquiet⟩ := hgo b.term hlim hout rfl hnext
      refine .inr ⟨c, _, _, _, hcount, by omega, hpass.trans hway, hquiet, ⟨0, ?_⟩, by simp⟩
      rw [turn_nil rfl]
      simp only [nextOf, shortage, Plan.shortage, Plan.name, hidx, hlaid.name]

end Sierra.Lower
