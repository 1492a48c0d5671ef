import Sierra.Proofs.Heap
import Sierra.Proofs.Machine.Exec

/-!
# Sizes of images

A register holds as many bytes as its type stores. Operands of the right sizes give such results
(`opImages_hasSizes`), and only a request to the heap can be lost (`opImages_crash`).
-/

namespace Sierra.Machine

open Ir List Bytes Except Image Heap

variable {σ α : Type} {vs : List ValueId} {finish : α → List Image} {step : Heap.Action α}
  {types : List Ty}
variable {regs : Array Image} {env : Env σ} {f : Func} {heap heap' : Heap} {image : Image}
  {images : List Image} {m : Module} {count pointer : Nat} {op : Op} {text : Option String} {t : Ty}
  {world world' : World σ}

def HasSize (t : Ty) (image : Image) : Prop := (image.length : Int) = t.storeSize

/-- Images have as many bytes as their types store. -/
def HasSizes (types : List Ty) (images : List Image) : Prop :=
  images.map (fun image => (image.length : Int)) = types.map Ty.storeSize

lemma HasSizes.length_eq (h : HasSizes types images) : images.length = types.length := by
  simpa using congrArg length h

lemma hasSizes_singleton (h : HasSize t image) : HasSizes [t] [image] := by
  rw [HasSizes, map_singleton, map_singleton, h]

lemma hasSizes_map_reg (h : ∀ v ∈ vs, HasSize (f.typeOf v) (reg regs v)) :
    HasSizes (vs.map f.typeOf) (vs.map (reg regs)) := by
  rw [HasSizes, map_map, map_map]
  exact map_congr_left h

lemma HasSizes.hasSize_reg {regs' : Array Image} (h : HasSizes (vs.map f.typeOf) images)
    (hset : assign? regs vs images = some regs') (hnodup : vs.Nodup)
    (hvs : ∀ v ∈ vs, HasMark regs.size v) {v : ValueId} (hv : v ∈ vs) :
    HasSize (f.typeOf v) (reg regs' v) := by
  obtain ⟨i, hi⟩ := mem_iff_getElem?.1 hv
  have himg := reg_assign?_getElem hset hnodup hvs hi
  have hsizes := congrArg (·[i]?) h
  simp only [getElem?_map, himg, hi, Option.map_some, Option.some.injEq] at hsizes
  exact hsizes

/-! ## Images of each kind -/

lemma length_ofWordSized (size z : Nat) : (ofWordSized size z).length = size := by
  unfold ofWordSized
  split
  · exact length_ofNat size z
  · rw [length_append, length_ofNat, length_zeros]
    omega

lemma hasSize_ofWord (h : 0 ≤ t.storeSize) (z : Nat) : HasSize t (ofWord t z) := by
  rw [HasSize, ofWord, length_ofWordSized]
  omega

lemma storeSize_nonneg_of_isInt (h : t.isInt) : 0 ≤ t.storeSize := by
  cases t with
  | int bits =>
    simp only [Ty.storeSize, Layout.intBytes]
    split <;> (try split) <;> (try split) <;> (try split) <;> (try split) <;> (try split) <;> omega
  | _ => simp [Ty.isInt] at h

lemma hasSize_normalize (h : HasSize t image) : HasSize t (normalize t image) := by
  cases t with
  | int bits =>
    unfold Image.normalize
    dsimp only
    split
    · exact h
    · exact hasSize_ofWord (storeSize_nonneg_of_isInt rfl) _
  | _ => exact h

lemma hasSize_ofAddress (p : Nat) : HasSize .ptr (ofAddress p) := by
  rfl

lemma length_extract? {part : Image} {offset size : Int}
    (h : extract? image offset size = some part) : (part.length : Int) = size := by
  unfold extract? at h
  split at h
  · next hholds =>
    rw [Option.some.injEq] at h
    rw [← h, length_take, length_drop]
    simp only [holds, decide_eq_true_eq] at hholds
    omega
  · cases h

lemma length_insert? {part whole : Image} {offset : Int}
    (h : insert? image part offset = some whole) : whole.length = image.length := by
  unfold insert? at h
  split at h
  · cases h
  · rw [Option.some.injEq] at h
    rw [← h]
    simp only [length_append, length_take, length_drop]
    omega

/-! ## The heap -/

lemma read_ne_crash : read pointer count heap ≠ .error (.crash text) heap' := by
  unfold Heap.read
  rcases heap.accessFault?_cases "read" pointer count with hnone | ⟨fault, hfault⟩
  · simp [hnone]
  · simp [hfault]

lemma write_ne_crash {bytes : Bytes} :
    write pointer bytes heap ≠ .error (.crash text) heap' := by
  unfold write
  rcases heap.accessFault?_cases "write" pointer bytes.length with hnone | ⟨fault, hfault⟩
  · simp [hnone]
  · simp [hfault]

lemma copy_ne_crash {target source : Nat} :
    copy target source count heap ≠ .error (.crash text) heap' := by
  unfold copy
  rcases heap.copyFault?_cases target source count with hnone | ⟨fault, hfault⟩
  · simp [hnone]
  · simp [hfault]

/-! ## Operations -/

lemma hasSize_argReg (hargs : ∀ v ∈ op.args, HasSize (f.typeOf v) (reg regs v)) (index : Nat) :
    HasSize (argType f op index) (argReg regs op index) := by
  unfold argType argReg
  cases h : op.args[index]? with
  | none => rfl
  | some v => exact hargs v (mem_of_getElem? h)

def Op.Fits (op : Op) : Prop :=
  op.code.hasOneResult = true → Bytes.canHold op.type.storeSize = true

lemma pureResult_hasSize (hop : opProblem? m f op = none) (hbuilt : op.Built f) (hfits : Op.Fits op)
    (hone : op.code.hasOneResult)
    (hheap : op.code ≠ .alloc ∧ op.code ≠ .realloc ∧ op.code ≠ .load)
    (hargs : ∀ v ∈ op.args, HasSize (f.typeOf v) (reg regs v))
    (h : pureResult f regs op = .ok image) : HasSize op.type image := by
  have hpos : 0 ≤ op.type.storeSize := (canHold_iff.1 (hfits hone)).1
  have hmade := hbuilt.type hone
  unfold producedType at hmade
  unfold opProblem? at hop
  unfold pureResult at h
  cases hcode : op.code <;> simp only [hcode, ok.injEq] at h hop hmade
  case const =>
    simp only [ite_eq_left_iff, reduceCtorEq, imp_false, Decidable.not_not] at hop
    rw [← h]
    have himm : HasSize op.type op.imm := of_decide_eq_true (p := _ = _) hop
    exact hasSize_normalize himm
  case zero =>
    rw [← h]
    rw [HasSize, zero, length_zeros]
    omega
  case binary code =>
    split at h
    · rw [ok.injEq] at h
      rw [← h]
      exact hasSize_ofWord hpos _
    · cases h
  case modular code =>
    split at h
    · rw [if_pos (hfits hone), ok.injEq] at h
      rw [← h]
      exact hasSize_ofWord hpos _
    · cases h
  case icmp =>
    rw [← h, hmade]
    rfl
  case select =>
    have htypes : argType f op 1 = argType f op 2 := by
      split at hop
      · cases hop
      · split at hop
        · next htest => simpa using (Bool.and_eq_true_iff.1 htest).2
        · cases hop
    rw [← h, hmade]
    split
    · exact hasSize_argReg hargs 1
    · rw [htypes]
      exact hasSize_argReg hargs 2
  case cast code =>
    split at h
    · rw [ok.injEq] at h
      rw [← h]
      exact hasSize_ofWord hpos _
    · rw [if_pos (hfits hone), ok.injEq] at h
      rw [← h, HasSize, length_fit]
      omega
  case extract =>
    cases hpart : extract? (argReg regs op 0) op.offset op.type.storeSize with
    | none => simp [hpart] at h
    | some part =>
      simp only [hpart, Option.map_some, ok.injEq] at h
      rw [← h]
      exact hasSize_normalize (length_extract? hpart)
  case insert =>
    cases hwhole : insert? (argReg regs op 0) (argReg regs op 1) op.offset with
    | none => simp [hwhole] at h
    | some whole =>
      simp only [hwhole, ok.injEq] at h
      have hsize := hasSize_argReg hargs 0
      rw [← h, hmade, HasSize, length_insert? hwhole]
      exact hsize
  case ptradd =>
    rw [← h, hmade]
    exact hasSize_ofAddress _
  case alloc => exact absurd hcode hheap.1
  case realloc => exact absurd hcode hheap.2.1
  case load => exact absurd hcode hheap.2.2
  case store | memcpy | call | runtimeCall | invalid => simp [hcode, Code.hasOneResult] at hone

lemma heapImages_eq_ok (h : heapImages step finish world = .ok images world') :
    ∃ a heap, step world.heap = .ok a heap ∧ images = finish a := by
  unfold heapImages at h
  split at h
  · next a heap hstep =>
    injection h with h₁ h₂
    exact ⟨a, heap, hstep, h₁.symm⟩
  · cases h

lemma hasSizes_normalize (hlen : images.length = types.length)
    (hfind : ((images.zip types).zipIdx.find? fun ((image, t), _) =>
      image.length ≠ t.storeSize) = none) :
    HasSizes types ((images.zip types).map fun (image, t) => normalize t image) := by
  rw [find?_eq_none] at hfind
  apply ext_getElem?
  intro i
  simp only [getElem?_map]
  cases hzip : (images.zip types)[i]? with
  | none =>
    rw [getElem?_eq_none_iff, length_zip, hlen, Nat.min_self] at hzip
    simp [getElem?_eq_none_iff.2 hzip]
  | some entry =>
    obtain ⟨image, t⟩ := entry
    have hsize : (image.length : Int) = t.storeSize := by
      have hmem : ((image, t), i) ∈ (images.zip types).zipIdx := mem_zipIdx_iff_getElem?.2 hzip
      simpa using hfind _ hmem
    have ht := (getElem?_zip_eq_some.1 hzip).2
    simp only [ht, Option.map_some, Option.some.injEq]
    exact hasSize_normalize hsize

def Env.Answers (env : Env σ) : Prop :=
  ∀ name impl, env.host name = some impl →
    ∀ args world text world', impl args world ≠ .error (.crash text) world'

lemma hostImages_spec (args : List Image) (hop : opProblem? m f op = none)
    (hcode : op.code = .runtimeCall) (world : World σ) :
    (∀ {images world'}, hostImages env m args op world = .ok images world' →
      HasSizes (op.results.map f.typeOf) images) ∧
    (env.Answers → ∀ {text world'},
      hostImages env m args op world ≠ .error (.error (.crash text)) world') := by
  unfold hostImages
  split
  · next hdecl => simp [opProblem?, hcode, hdecl] at hop
  · exact ⟨nofun, nofun⟩
  next decl impl hdecl himpl =>
  have hres : op.results.map f.typeOf = decl.results :=
    (signatureProblem?_eq_none_iff.1 (by simpa [opProblem?, hcode, hdecl] using hop)).2
  split
  · next cause between hout =>
    refine ⟨nofun, fun henv _ _ h => ?_⟩
    injection h with h₁ h₂
    injection h₁ with h₁
    rw [h₁] at hout
    exact henv _ _ himpl _ _ _ _ hout
  · next out between hout =>
    split
    · exact ⟨nofun, nofun⟩
    next hcount =>
    have hcount := Decidable.not_not.1 hcount
    have hlen : out.length = decl.results.length := by rw [← hres, length_map, hcount]
    split
    · exact ⟨nofun, nofun⟩
    · next hfind =>
      rw [if_pos (by simp [← hlen, hcount])]
      refine ⟨fun h => ?_, nofun⟩
      injection h with h₁ h₂
      rw [← h₁, hres]
      exact hasSizes_normalize hlen hfind

lemma opImages_hasSizes (hop : opProblem? m f op = none)
    (hbuilt : op.Built f) (hfits : Op.Fits op) (hcall : op.code ≠ .call)
    (hvalid : op.code ≠ .invalid) (hargs : ∀ v ∈ op.args, HasSize (f.typeOf v) (reg regs v))
    (h : opImages env m f regs op world = .ok images world') :
    HasSizes (op.results.map f.typeOf) images := by
  have hresult : op.code.hasOneResult → op.results.map f.typeOf = [op.type] := by
    intro hone
    obtain ⟨v, hv, htype⟩ := hbuilt.one hone
    rw [hv, map_singleton, htype]
  have haddress : op.code = .alloc ∨ op.code = .realloc → ∀ p,
      HasSizes (op.results.map f.typeOf) [ofAddress p] := by
    intro hcode p
    have hone : op.code.hasOneResult := by
      rcases hcode with hcode | hcode <;> rw [hcode] <;> rfl
    have htype : op.type = .ptr := by
      rw [hbuilt.type hone, producedType]
      rcases hcode with hcode | hcode <;> rw [hcode]
    rw [hresult hone, htype]
    exact hasSizes_singleton (hasSize_ofAddress p)
  have hsingle : isPure op.code → op.code.hasOneResult →
      (op.code ≠ .alloc ∧ op.code ≠ .realloc ∧ op.code ≠ .load) →
      HasSizes (op.results.map f.typeOf) images := by
    intro hpure hone hheap
    obtain ⟨-, image, rfl, himg⟩ := (opImages_pure_eq_ok_iff hpure).1 h
    rw [hresult hone]
    exact hasSizes_singleton (pureResult_hasSize hop hbuilt hfits hone hheap hargs himg)
  unfold opImages at h
  cases hcode : op.code <;> simp only [hcode] at h
  case alloc =>
    obtain ⟨p, heap, -, rfl⟩ := heapImages_eq_ok h
    exact haddress (.inl hcode) p
  case realloc =>
    obtain ⟨p, heap, -, rfl⟩ := heapImages_eq_ok h
    exact haddress (.inr hcode) p
  case load =>
    obtain ⟨bytes, heap, hread, rfl⟩ := heapImages_eq_ok h
    have hone : op.code.hasOneResult = true := by rw [hcode]; rfl
    have hfit := canHold_iff.1 (hfits hone)
    rw [hresult hone]
    refine hasSizes_singleton (hasSize_normalize ?_)
    rw [HasSize, (read_eq_ok.1 hread).2.1, length_peek]
    -- A size that memory can hold is its own 64-bit word.
    have hword : op.type.storeSize % (addressSpace : Nat) = op.type.storeSize := by
      refine Int.emod_eq_of_lt hfit.1 ?_
      have : (pow2 48 : Int) < (addressSpace : Nat) := by decide
      omega
    rw [address]
    omega
  case store | memcpy =>
    obtain ⟨a, heap, -, rfl⟩ := heapImages_eq_ok h
    rw [hbuilt.none (by simp [hcode])]
    exact rfl
  case runtimeCall => exact (hostImages_spec _ hop hcode world).1 h
  case call => exact absurd hcode hcall
  case invalid => exact absurd hcode hvalid
  all_goals exact hsingle (by rw [hcode]; rfl) (by rw [hcode]; rfl) (by simp [hcode])

/-! ## Losses -/

def Op.Placed (op : Op) : Prop :=
  op.code = .extract ∨ op.code = .insert → Bytes.canHold op.offset = true

instance (op : Op) : Decidable (Op.Placed op) :=
  inferInstanceAs (Decidable (_ ∨ _ → _ = true))

lemma wrap64_add_of_canHold {a b : Int} (ha : canHold a)
    (hb : canHold b) : wrap64 (a + b) = a + b := by
  rw [canHold_iff] at ha hb
  have hpow : (pow2 48 : Int) + pow2 48 < pow2 63 := by decide
  exact wrap64_eq (by omega) (by omega)

lemma storeSize_of_isBlob (h : t.isBlob) : t.storeSize = t.blobSize := by
  cases t <;> simp_all [Ty.isBlob, Ty.storeSize, Ty.blobSize]

lemma pureResult_ne_crash (hop : opProblem? m f op = none) (hfits : Op.Fits op)
    (hplaced : Op.Placed op) (htypes : ∀ i, canHold (argType f op i).storeSize)
    (hargs : ∀ v ∈ op.args, HasSize (f.typeOf v) (reg regs v)) :
    pureResult f regs op ≠ .error (.error (.crash text)) := by
  intro h
  unfold opProblem? at hop
  unfold pureResult at h
  cases hcode : op.code with
  | binary code =>
    simp only [hcode] at h
    split at h <;> simp at h
  | modular code | cast code =>
    have hfit := hfits (by rw [hcode]; rfl)
    simp only [hcode, if_pos hfit] at h
    split at h <;> simp at h
  | extract =>
    have hfit := hfits (by rw [hcode]; rfl)
    have hoffset := hplaced (.inl hcode)
    simp only [hcode] at h hop
    split at hop
    · next htest =>
      simp only [Bool.and_eq_true, decide_eq_true_eq] at htest
      obtain ⟨⟨hblob, hpos⟩, hbound⟩ := htest
      rw [wrap64_add_of_canHold hoffset hfit] at hbound
      have hsize : HasSize (argType f op 0) (argReg regs op 0) := hasSize_argReg hargs 0
      rw [HasSize, storeSize_of_isBlob hblob] at hsize
      have hholds : holds (argReg regs op 0).length op.offset op.type.storeSize := by
        rw [holds, decide_eq_true_eq, hsize]
        exact ⟨hpos, (canHold_iff.1 hfit).1, hbound⟩
      rw [extract?, if_pos hholds] at h
      simp at h
    · cases hop
  | insert =>
    have hoffset := hplaced (.inr hcode)
    simp only [hcode] at h hop
    split at hop
    · cases hop
    split at hop
    · next htest =>
      simp only [Bool.and_eq_true, decide_eq_true_eq] at htest
      obtain ⟨⟨hblob, hpos⟩, hbound⟩ := htest
      rw [wrap64_add_of_canHold hoffset (htypes 1)] at hbound
      have hpart := (canHold_iff.1 (htypes 1)).1
      have hsize : HasSize (argType f op 0) (argReg regs op 0) := hasSize_argReg hargs 0
      rw [HasSize, storeSize_of_isBlob hblob] at hsize
      rw [insert?, if_neg (by omega)] at h
      simp at h
    · cases hop
  | _ =>
    simp only [hcode] at h
    cases h

/-- The next operation asks the heap for memory and the request is lost. -/
def HeapLost (regs : Array Image) (op : Op) (heap : Heap) : Prop :=
  let a (index : Nat) : Nat := (argReg regs op index).word64
  (op.code = .alloc ∧ ∃ text heap', Heap.alloc (a 0) heap = .error (.crash text) heap') ∨
    (op.code = .realloc ∧
      ∃ text heap', Heap.realloc (a 0) (a 1) (a 2) heap = .error (.crash text) heap')

lemma heapImages_eq_crash
    (h : heapImages step finish world = .error (.error (.crash text)) world') :
    ∃ heap, step world.heap = .error (.crash text) heap := by
  unfold heapImages at h
  split at h
  · cases h
  · next fault heap hstep =>
    injection h with h₁ h₂
    injection h₁ with h₁
    exact ⟨heap, by rw [hstep, h₁]⟩

lemma opImages_crash (henv : env.Answers) (hop : opProblem? m f op = none) (hfits : Op.Fits op)
    (hplaced : Op.Placed op) (htypes : ∀ i, canHold (argType f op i).storeSize)
    (hargs : ∀ v ∈ op.args, HasSize (f.typeOf v) (reg regs v))
    (h : opImages env m f regs op world = .error (.error (.crash text)) world') :
    HeapLost regs op world.heap := by
  unfold opImages at h
  cases hcode : op.code <;> simp only [hcode] at h
  case alloc =>
    obtain ⟨heap, hheap⟩ := heapImages_eq_crash h
    exact .inl ⟨hcode, text, heap, hheap⟩
  case realloc =>
    obtain ⟨heap, hheap⟩ := heapImages_eq_crash h
    exact .inr ⟨hcode, text, heap, hheap⟩
  case load =>
    obtain ⟨heap, hheap⟩ := heapImages_eq_crash h
    exact absurd hheap read_ne_crash
  case store =>
    obtain ⟨heap, hheap⟩ := heapImages_eq_crash h
    exact absurd hheap write_ne_crash
  case memcpy =>
    obtain ⟨heap, hheap⟩ := heapImages_eq_crash h
    exact absurd hheap copy_ne_crash
  case runtimeCall => exact absurd h ((hostImages_spec _ hop hcode world).2 henv)
  all_goals
    split at h
    · cases h
    · next stop hstop =>
      injection h with h₁ h₂
      rw [h₁] at hstop
      exact absurd hstop (pureResult_ne_crash hop hfits hplaced htypes hargs)

end Sierra.Machine
