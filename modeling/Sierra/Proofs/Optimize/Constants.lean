import Sierra.Proofs.Machine.Exec
import Sierra.Proofs.Machine.Place
import Sierra.Proofs.Machine.Words

/-!
# Values that are known before the code runs

A value is a known constant when its definition is a constant, an operation on known constants, or a
choice decided between known values (`Constant`). `Stands` relates a decided choice to what it
chooses. Values in scope hold what is known of them (`Knows`).
-/

namespace Sierra.Ir

variable {f : Func} {m : Module} {i k z : Nat} {op : Op} {v w : ValueId}

/-! ## Operations and their places -/

def Func.OpAt (f : Func) (i k : Nat) (op : Op) : Prop :=
  ∃ b, f.blocks[i]? = some b ∧ b.ops[k]? = some op

lemma Func.OpAt.unique (hnodup : f.defined.Nodup) {j l : Nat} {op' : Op}
    (h : f.OpAt i k op) (hv : v ∈ op.results) (h' : f.OpAt j l op')
    (hv' : v ∈ op'.results) : i = j ∧ k = l ∧ op = op' := by
  obtain ⟨b, hb, hop⟩ := h
  obtain ⟨c, hc, hop'⟩ := h'
  obtain rfl : i = j := Func.Defines.unique hnodup ⟨b, hb, Block.mem_defs_of_mem_results hop hv⟩
    ⟨c, hc, Block.mem_defs_of_mem_results hop' hv'⟩
  cases hb.symm.trans hc
  obtain rfl := Block.result_unique (f.nodup_defs hnodup hb) hop hv hop' hv'
  rw [hop, Option.some.injEq] at hop'
  exact ⟨rfl, rfl, hop'⟩

lemma Func.OpAt.mem (h : f.OpAt i k op) : ∃ b ∈ f.blocks, op ∈ b.ops := by
  obtain ⟨b, hb, hop⟩ := h
  exact ⟨b, Array.mem_of_getElem? hb, List.mem_of_getElem? hop⟩

lemma Func.Valid.opProblem? (h : f.Valid m) (hop : f.OpAt i k op) : opProblem? m f op = none := by
  obtain ⟨b, hb, hmem⟩ := hop.mem
  exact (h.checked.block b hb).ops op hmem

lemma Func.Valid.op_built (h : f.Valid m) (hop : f.OpAt i k op) : op.Built f := by
  obtain ⟨b, hb, hmem⟩ := hop.mem
  exact h.built b hb op hmem

/-! ## Known constants -/

/-- Only operations that folding knows have a word. -/
def evalWords? (f : Func) (op : Op) (zs : List Nat) : Option Nat :=
  match op.code, zs with
  | .binary code, [x, y] => Word.binary code op.type.width x y
  | .icmp, [x, y] =>
    if (argType f op 0).isInt then
      some (if evalPred op.pred (argType f op 0).width x y then 1 else 0)
    else none
  | .cast .bitcast, _ => none
  | .cast code, [x] =>
    if (argType f op 0).isInt then
      some (Word.cast code (argType f op 0).width op.type.width x)
    else none
  | _, _ => none

inductive Constant (f : Func) : ValueId → Nat → Prop
  | const {i k : Nat} {op : Op} {v : ValueId} (hop : f.OpAt i k op) (hcode : op.code = .const)
      (hresults : op.results = [v]) (hint : op.type.isInt = true) :
      Constant f v (Fold.wordOf op.imm)
  | computed {i k : Nat} {op : Op} {v : ValueId} {zs : List Nat} {z : Nat} (hop : f.OpAt i k op)
      (hresults : op.results = [v]) (hint : op.type.isInt = true)
      (hlen : zs.length ≤ op.args.length)
      (hargs : ∀ (n : Nat) (x : ValueId) (y : Nat), op.args[n]? = some x → zs[n]? = some y →
        Constant f x y)
      (hz : evalWords? f op zs = some z) : Constant f v z
  | chosen {i k : Nat} {op : Op} {v c yes no : ValueId} {b z : Nat} (hop : f.OpAt i k op)
      (hcode : op.code = .select) (hresults : op.results = [v]) (hargs : op.args = [c, yes, no])
      (hcond : Constant f c b) (hpick : Constant f (if b ≠ 0 then yes else no) z) : Constant f v z

lemma Constant.exists_op (h : Constant f v z) :
    ∃ j l op, f.OpAt j l op ∧ v ∈ op.results := by
  cases h with
  | const hop _ hres _ | computed hop hres _ _ _ _ =>
    exact ⟨_, _, _, hop, by simp [hres]⟩
  | chosen hop _ hres _ _ _ => exact ⟨_, _, _, hop, by simp [hres]⟩

/-- The value is a choice decided in favour of the other. -/
def Stands (f : Func) (v w : ValueId) : Prop :=
  ∃ (i k : Nat) (op : Op) (c yes no : ValueId) (b : Nat), f.OpAt i k op ∧ op.code = .select ∧
    op.results = [v] ∧ op.args = [c, yes, no] ∧ Constant f c b ∧ w = if b ≠ 0 then yes else no

lemma Stands.constant (h : Stands f v w) (hw : Constant f w z) : Constant f v z := by
  obtain ⟨i, k, op, c, yes, no, b, hop, hcode, hres, hargs, hcond, rfl⟩ := h
  exact .chosen hop hcode hres hargs hcond hw

def Computes (f : Func) (op : Op) (z : Nat) : Prop :=
  op.type.isInt = true ∧ ∃ zs : List Nat, zs.length ≤ op.args.length ∧
    (∀ (n : Nat) (x : ValueId) (y : Nat), op.args[n]? = some x → zs[n]? = some y →
      Constant f x y) ∧ evalWords? f op zs = some z

lemma Computes.constant
    (h : Computes f op z) (hop : f.OpAt i k op) (hres : op.results = [v]) : Constant f v z := by
  obtain ⟨hint, zs, hlen, hargs, hz⟩ := h
  exact .computed hop hres hint hlen hargs hz

lemma Constant.of_opAt (h : Constant f v z) (hnodup : f.defined.Nodup) (hop : f.OpAt i k op)
    (hres : op.results = [v]) :
    (op.code = .const ∧ z = Fold.wordOf op.imm) ∨ Computes f op z ∨
      ∃ c yes no b, op.code = .select ∧ op.args = [c, yes, no] ∧ Constant f c b ∧
        Constant f (if b ≠ 0 then yes else no) z := by
  have hsame : ∀ {j l : Nat} {op' : Op}, f.OpAt j l op' → op'.results = [v] → op' = op :=
    fun hop' hv => (hop'.unique hnodup (v := v) (by simp [hv]) hop (by simp [hres])).2.2
  cases h with
  | const hop' hcode hv _ =>
    cases hsame hop' hv
    exact .inl ⟨hcode, rfl⟩
  | computed hop' hv hint hlen hargs hz =>
    cases hsame hop' hv
    exact .inr (.inl ⟨hint, _, hlen, hargs, hz⟩)
  | chosen hop' hcode hv hargs hcond hpick =>
    cases hsame hop' hv
    exact .inr (.inr ⟨_, _, _, _, hcode, hargs, hcond, hpick⟩)

lemma length_of_evalWords? {zs : List Nat} (h : evalWords? f op zs = some z) :
    zs.length = match op.code with | .cast _ => 1 | _ => 2 := by
  unfold evalWords? at h
  split at h <;> simp_all

lemma Constant.unique (hnodup : f.defined.Nodup) (h : Constant f v z) {y : Nat}
    (h' : Constant f v y) : z = y := by
  induction h generalizing y with
  | const hop hcode hres _ =>
    rcases h'.of_opAt hnodup hop hres with ⟨-, rfl⟩ | ⟨-, zs, -, -, hz⟩ | ⟨_, _, _, _, hselect, -⟩
    · rfl
    · simp [evalWords?, hcode] at hz
    · cases hcode.symm.trans hselect
  | @computed _ _ op _ zs _ hop hres _ hlen _ hz ih =>
    rcases h'.of_opAt hnodup hop hres with
      ⟨hcode, -⟩ | ⟨-, zs', -, hargs', hz'⟩ | ⟨_, _, _, _, hcode, -⟩
    · simp [evalWords?, hcode] at hz
    · have hwords : zs = zs' := by
        refine List.ext_getElem ((length_of_evalWords? hz).trans (length_of_evalWords? hz').symm)
          fun n hn hn' => ?_
        have hx := List.getElem?_eq_getElem (Nat.lt_of_lt_of_le hn hlen)
        exact ih n _ _ hx (List.getElem?_eq_getElem hn)
          (hargs' n _ _ hx (List.getElem?_eq_getElem hn'))
      rw [hwords, hz', Option.some.injEq] at hz
      exact hz.symm
    · simp [evalWords?, hcode] at hz
  | chosen hop hcode hres hargs _ _ ih ih' =>
    rcases h'.of_opAt hnodup hop hres with
      ⟨hconst, -⟩ | ⟨-, zs, -, -, hz⟩ | ⟨_, _, _, _, -, hargs', hcond, hpick⟩
    · cases hcode.symm.trans hconst
    · simp [evalWords?, hcode] at hz
    · cases hargs.symm.trans hargs'
      cases ih hcond
      exact ih' hpick

lemma Stands.mem_args (h : Stands f v w) :
    ∃ i k op, f.OpAt i k op ∧ v ∈ op.results ∧ w ∈ op.args := by
  obtain ⟨i, k, op, c, yes, no, b, hop, -, hres, hargs, -, rfl⟩ := h
  refine ⟨i, k, op, hop, by simp [hres], ?_⟩
  rw [hargs]
  split <;> simp

lemma Stands.precedes (hf : f.Valid m) (h : Stands f v w) : f.Precedes w v := by
  obtain ⟨i, k, op, ⟨b, hb, hop⟩, hv, hw⟩ := h.mem_args
  exact f.precedes_of_operand hf.checked.nodup hb hop hv (hf.dominated.ops i b hb k op hop w hw)

end Sierra.Ir

namespace Sierra.Machine

open Ir

variable {regs : Array Image} {f : Func} {zs : List Nat} {m : Module} {z : Nat} {op : Op}
  {v yes no c : ValueId} {images : List Image}

/-! ## Bounds -/

/-- Integer types have widths within a machine word, and integer constants fit them. -/
structure Narrow (f : Func) : Prop where
  widths : ∀ t ∈ f.values, t.HasWidth
  consts : ∀ b ∈ f.blocks, ∀ op ∈ b.ops, op.code = .const → op.type.isInt = true →
    Bytes.toNat op.imm < pow2 op.type.bits.toNat

lemma Narrow.hasWidth_typeOf (h : Narrow f) (v : ValueId) : (f.typeOf v).HasWidth := by
  unfold Func.typeOf
  split
  · exact fun hint => absurd hint (by simp [Ty.isInt])
  · cases hv : f.values[v.toNat]? with
    | none => exact fun hint => absurd hint (by simp [Ty.isInt])
    | some t => exact h.widths t (Array.mem_of_getElem? hv)

lemma Narrow.hasWidth_type (h : Narrow f) (hres : op.results = [v]) (hbuilt : op.Built f)
    (hone : op.code.hasOneResult) : op.type.HasWidth := by
  rw [← hbuilt.typeOf_result hone (v := v) (by simp [hres])]
  exact h.hasWidth_typeOf v

lemma hasOneResult_of_evalWords? (h : evalWords? f op zs = some z) : op.code.hasOneResult := by
  unfold evalWords? at h
  split at h <;> simp_all [Code.hasOneResult]

lemma below_of_evalWords? (hbuilt : op.Built f) (hint : op.type.isInt) (hwidth : op.type.HasWidth)
    (hzs : ∀ y ∈ zs, y < Word.modulus) (h : evalWords? f op zs = some z) : Below op.type z := by
  have hbits : ∀ {z : Nat}, z < Word.modulus → (op.type.width < 256 → z < pow2 op.type.width) →
      Below op.type z := by
    intro z hlt hsmall
    refine ⟨hint, hlt, fun hle => ?_⟩
    rw [hwidth.width_eq hint] at hsmall
    by_cases heq : op.type.bits.toNat < 256
    · exact hsmall heq
    · have h256 : op.type.bits.toNat = 256 := by omega
      rw [h256]
      exact hlt
  have hone := hasOneResult_of_evalWords? h
  unfold evalWords? at h
  split at h
  · next code x y hcode =>
    obtain ⟨hlt, hsmall⟩ := Word.binary_lt (hzs x (by simp)) (hzs y (by simp)) h
    exact hbits hlt hsmall
  · next x y hcode =>
    have htype : op.type = .int 1 := by
      rw [hbuilt.type hone, producedType, hcode]
    split at h
    · rw [Option.some.injEq] at h
      rw [← h, htype]
      refine ⟨rfl, ?_, fun _ => ?_⟩
      · have hone : 1 < Word.modulus := by decide
        split <;> omega
      · have htwo : pow2 (Ty.int 1).bits.toNat = 2 := rfl
        split <;> omega
    · cases h
  · cases h
  · next code x hne hcode =>
    split at h
    · rw [Option.some.injEq] at h
      obtain ⟨hlt, hsmall⟩ := Word.cast_lt (hzs x (by simp))
      rw [← h]
      exact hbits hlt hsmall
    · cases h
  · cases h

lemma select_types (hop : opProblem? m f op = none) (hbuilt : op.Built f)
    (hcode : op.code = .select) (hres : op.results = [v]) (hargs : op.args = [c, yes, no]) :
    f.typeOf c = .int 1 ∧ f.typeOf yes = f.typeOf v ∧ f.typeOf no = f.typeOf v := by
  have hone : op.code.hasOneResult = true := by rw [hcode]; rfl
  have hv : f.typeOf v = op.type := hbuilt.typeOf_result hone (by simp [hres])
  have hcond : argType f op 0 = f.typeOf c := by simp [argType, hargs]
  have hyes : argType f op 1 = f.typeOf yes := by simp [argType, hargs]
  have hno : argType f op 2 = f.typeOf no := by simp [argType, hargs]
  have htype : op.type = f.typeOf yes := by
    rw [hbuilt.type hone, producedType, hcode]
    exact hyes
  simp only [opProblem?, hcode, hcond, hyes, hno] at hop
  rw [if_neg (by simp [hargs])] at hop
  split at hop
  · next htest =>
    rw [Bool.and_eq_true, beq_iff_eq, beq_iff_eq] at htest
    refine ⟨htest.1, (hv.trans htype).symm, ?_⟩
    rw [hv, htype]
    exact htest.2.symm
  · cases hop

lemma below_of_constant (hf : f.Valid m) (hnarrow : Narrow f)
    (h : Constant f v z) : Below (f.typeOf v) z := by
  induction h with
  | @const i k op v hop hcode hres hint =>
    have hone : op.code.hasOneResult = true := by rw [hcode]; rfl
    rw [(hf.op_built hop).typeOf_result hone (v := v) (by simp [hres])]
    obtain ⟨b, hb, hmem⟩ := hop.mem
    refine below_wordOf hint ?_ (hnarrow.consts b hb op hmem hcode hint)
    have hprob := hf.opProblem? hop
    simp only [opProblem?, hcode] at hprob
    split at hprob
    · next hlen => exact of_decide_eq_true hlen
    · cases hprob
  | @computed i k op v zs z hop hres hint hlen hargs hz ih =>
    have hone := hasOneResult_of_evalWords? hz
    have hbuilt := hf.op_built hop
    rw [hbuilt.typeOf_result hone (v := v) (by simp [hres])]
    refine below_of_evalWords? hbuilt hint (hnarrow.hasWidth_type hres hbuilt hone) ?_ hz
    intro y hy
    obtain ⟨n, hn⟩ := List.mem_iff_getElem?.1 hy
    have hlt : n < op.args.length := by
      have := (List.getElem?_eq_some_iff.1 hn).1
      omega
    exact (ih n op.args[n] y (List.getElem?_eq_getElem hlt) hn).lt
  | @chosen i k op v c yes no b z hop hcode hres hargs hcond hpick ihcond ihpick =>
    obtain ⟨-, hyes, hno⟩ := select_types (hf.opProblem? hop) (hf.op_built hop) hcode hres hargs
    have htype : f.typeOf (if b ≠ 0 then yes else no) = f.typeOf v := by
      split
      · exact hyes
      · exact hno
    rw [← htype]
    exact ihpick

/-! ## What folding foresees is what the machine computes -/

lemma isPure_of_evalWords? (h : evalWords? f op zs = some z) : isPure op.code := by
  unfold evalWords? at h
  split at h <;> simp_all [isPure]

lemma pureResult_of_evalWords? (hop : opProblem? m f op = none) (hbuilt : op.Built f)
    (hint : op.type.isInt) (hwords : ∀ n y, zs[n]? = some y → (argReg regs op n).word = y)
    (h : evalWords? f op zs = some z) : pureResult f regs op = .ok (Image.ofWord op.type z) := by
  have hone := hasOneResult_of_evalWords? h
  unfold evalWords? at h
  split at h
  · next code x y hcode =>
    have hx := hwords 0 x rfl
    have hy := hwords 1 y rfl
    have htype : (argType f op 0).width = op.type.width := by
      simp only [opProblem?, hcode] at hop
      split at hop
      · cases hop
      · split at hop
        · next htest =>
          rw [Bool.and_eq_true, beq_iff_eq] at htest
          rw [htest.2]
        · cases hop
    simp only [pureResult, hcode, hx, hy, htype, h]
  · next x y hcode =>
    have hx := hwords 0 x rfl
    have hy := hwords 1 y rfl
    have htype : op.type = .int 1 := by
      rw [hbuilt.type hone, producedType, hcode]
    split at h
    · rw [Option.some.injEq] at h
      simp only [pureResult, hcode, hx, hy, ← h, htype]
      cases evalPred op.pred (argType f op 0).width x y <;> rfl
    · cases h
  · cases h
  · next code x hne hcode =>
    have hx := hwords 0 x rfl
    split at h
    · next harg =>
      rw [Option.some.injEq] at h
      simp only [pureResult, hcode, hx, harg, hint, Bool.and_self, if_true, h]
    · cases h
  · cases h

/-- What is known about the values in scope holds of the registers. -/
structure Knows (f : Func) (scope : ValueId → Prop) (regs : Array Image) : Prop where
  constant : ∀ v z, scope v → Constant f v z → (reg regs v).word = z
  stands : ∀ v w, scope v → Stands f v w → reg regs v = reg regs w

variable {m : Module} {f : Func} {before : List Nat} {i k : Nat} {b : Block} {frame : Frame}

lemma Knows.argReg_word {scope : ValueId → Prop}
    (h : Knows f scope regs) (hargs : ∀ v ∈ op.args, scope v) (hlen : zs.length ≤ op.args.length)
    (hconsts : ∀ (n : Nat) (x : ValueId) (y : Nat), op.args[n]? = some x → zs[n]? = some y →
      Constant f x y) (n : Nat) (y : Nat) (hn : zs[n]? = some y) : (argReg regs op n).word = y := by
  have hlt := (List.getElem?_eq_some_iff.1 hn).1
  have hx := List.getElem?_eq_getElem (Nat.lt_of_lt_of_le hlt hlen)
  rw [argReg, hx]
  exact h.constant _ y (hargs _ (List.mem_of_getElem? hx)) (hconsts n _ y hx hn)

lemma not_constant_of_param (hf : f.Valid m) (hb : f.blocks[i]? = some b)
    (hv : v ∈ b.params) {j l : Nat} (hop : f.OpAt j l op) : v ∉ op.results := by
  obtain ⟨c, hc, hop⟩ := hop
  exact fun hresult => f.not_mem_params_of_mem_results hf.checked.nodup hc hop hresult hb hv

lemma Knows.at_start (hf : f.Valid m) (h : At f before i b 0 frame)
    (hset : assign? regs b.params images = some frame.regs)
    (hknows : Knows f (f.Avail i) regs) : Knows f (f.InScope i b 0) frame.regs := by
  constructor
  · intro v z hv hconst
    rcases Func.inScope_zero.1 hv with havail | hparam
    · rw [h.reg_params hf.checked hset havail]
      exact hknows.constant v z havail hconst
    · obtain ⟨j, l, op, hop, hmem⟩ := hconst.exists_op
      exact absurd hmem (not_constant_of_param hf h.block hparam hop)
  · intro v w hv hstands
    rcases Func.inScope_zero.1 hv with havail | hparam
    · have hw : f.Avail i w := (hstands.precedes hf).avail i havail
      rw [h.reg_params hf.checked hset havail, h.reg_params hf.checked hset hw]
      exact hknows.stands v w havail hstands
    · obtain ⟨j, l, op, hop, hmem, -⟩ := hstands.mem_args
      exact absurd hmem (not_constant_of_param hf h.block hparam hop)

lemma At.reg_single (hcheck : f.Checked m) (h : At f before i b k frame)
    (hop : b.ops[k]? = some op) (hres : op.results = [v]) {image : Image}
    (hset : assign? frame.regs op.results [image] = some regs) : reg regs v = image := by
  rw [hres, assign?_cons, assign?_nil, Option.some.injEq] at hset
  rw [← hset]
  refine reg_setReg_self image ?_
  rw [h.size]
  exact h.range hcheck (Block.mem_defs_of_mem_results hop (by simp [hres]))

lemma pureResult_select (hf : f.Valid m) (hnarrow : Narrow f) {j l : Nat}
    (hop : f.OpAt j l op) (hcode : op.code = .select) (hres : op.results = [v])
    (hargs : op.args = [c, yes, no]) (hcond : Constant f c z) (hword : (reg regs c).word = z) :
    pureResult f regs op = .ok (reg regs (if z ≠ 0 then yes else no)) := by
  obtain ⟨htype, -⟩ := select_types (hf.opProblem? hop) (hf.op_built hop) hcode hres hargs
  have hbelow := below_of_constant hf hnarrow hcond
  rw [htype] at hbelow
  have hflag := hbelow.flag_iff hword
  simp only [pureResult, hcode, argReg, hargs, List.getElem?_cons_zero, List.getElem?_cons_succ,
    hflag, decide_eq_true_eq]
  split <;> rfl

lemma Knows.next (hf : f.Valid m) (hnarrow : Narrow f) (h : At f before i b k frame)
    (hop : b.ops[k]? = some op)
    (hset : assign? frame.regs op.results images = some regs) (hpure : isPure op.code →
      ∃ image, images = [image] ∧ pureResult f frame.regs op = .ok image)
    (hknows : Knows f (f.InScope i b k) frame.regs) : Knows f (f.InScope i b (k + 1)) regs := by
  have hat : f.OpAt i k op := ⟨b, h.block, hop⟩
  have hargs : ∀ v ∈ op.args, f.InScope i b k v := hf.dominated.ops i b h.block k op hop
  have hstay : ∀ {v}, f.InScope i b k v → reg regs v = reg frame.regs v :=
    fun hv => h.reg_results hf.checked hop hset hv
  have hchoice : ∀ v w, f.InScope i b (k + 1) v → Stands f v w → reg regs v = reg regs w := by
    intro v w hv hstands
    by_cases hold : f.InScope i b k v
    · rw [hstay hold, hstay ((hstands.precedes hf).inScope i b k h.block hold)]
      exact hknows.stands v w hold hstands
    have hresult : v ∈ op.results := ((Func.inScope_succ hop).1 hv).resolve_left hold
    obtain ⟨j, l, op', c, yes, no, z, hop', hcode, hres, hop_args, hcond, rfl⟩ := hstands
    obtain ⟨-, -, rfl⟩ := hat.unique hf.checked.nodup hresult hop' (by simp [hres])
    obtain ⟨image, rfl, himg⟩ := hpure (by rw [hcode]; rfl)
    have hword := hknows.constant c z (hargs c (by simp [hop_args])) hcond
    rw [pureResult_select hf hnarrow hat hcode hres hop_args hcond hword, Except.ok.injEq] at himg
    rw [h.reg_single hf.checked hop hres hset, ← himg]
    refine (hstay (hargs _ ?_)).symm
    rw [hop_args]
    split <;> simp
  refine ⟨fun v z hv hconst => ?_, hchoice⟩
  by_cases hold : f.InScope i b k v
  · rw [hstay hold]
    exact hknows.constant v z hold hconst
  have hresult : v ∈ op.results := ((Func.inScope_succ hop).1 hv).resolve_left hold
  have hbelow := below_of_constant hf hnarrow hconst
  -- The result is defined here only, so this is the operation that the fact is about.
  cases hconst with
  | @const _ _ op' _ hop' hcode hres hint =>
    obtain ⟨-, -, rfl⟩ := hat.unique hf.checked.nodup hresult hop' (by simp [hres])
    have hone : op.code.hasOneResult = true := by rw [hcode]; rfl
    obtain ⟨image, rfl, himg⟩ := hpure (by rw [hcode]; rfl)
    rw [h.reg_single hf.checked hop hres hset]
    simp only [pureResult, hcode, Except.ok.injEq] at himg
    rw [← himg]
    rw [(hf.op_built hat).typeOf_result hone hresult] at hbelow
    exact word_normalize (hnarrow.hasWidth_type hres (hf.op_built hat) hone) hbelow
  | @computed _ _ op' _ zs _ hop' hres hint hlen hconsts hz =>
    obtain ⟨-, -, rfl⟩ := hat.unique hf.checked.nodup hresult hop' (by simp [hres])
    have hone := hasOneResult_of_evalWords? hz
    obtain ⟨image, rfl, himg⟩ := hpure (isPure_of_evalWords? hz)
    have hwords := hknows.argReg_word hargs hlen hconsts
    rw [pureResult_of_evalWords? (hf.opProblem? hat) (hf.op_built hat) hint hwords hz,
      Except.ok.injEq] at himg
    have hwidth := hnarrow.hasWidth_type hres (hf.op_built hat) hone
    rw [(hf.op_built hat).typeOf_result hone hresult] at hbelow
    rw [h.reg_single hf.checked hop hres hset, ← himg, hbelow.ofWord_eq hwidth]
    exact hbelow.word_imageOf
  | @chosen _ _ op' _ c yes no z' _ hop' hcode hres hop_args hcond hpick =>
    obtain ⟨-, -, rfl⟩ := hat.unique hf.checked.nodup hresult hop' (by simp [hres])
    have hscope := hargs (if z' ≠ 0 then yes else no) (by rw [hop_args]; split <;> simp)
    rw [hchoice v _ hv ⟨i, k, op, c, yes, no, z', hat, hcode, hres, hop_args, hcond, rfl⟩,
      hstay hscope]
    exact hknows.constant _ z hscope hpick

end Sierra.Machine
