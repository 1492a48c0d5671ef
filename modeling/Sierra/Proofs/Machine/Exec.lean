import Sierra.Proofs.Ir.Built
import Sierra.Proofs.Machine.Registers

/-!
# What operations compute and what they write

`opImages` computes the images that an operation with the results of its code writes
(`execOp_eq_ok_iff`), from the images and types of the operands only (`opImages_congr`).
-/

namespace Sierra.Machine

open Ir List Image Heap

variable {σ : Type} {vs : List ValueId} {world' : World σ}
variable {regs regs' : Array Image} {env : Env σ} {f : Func} {m : Module} {op : Op}
  {world : World σ}

def heapImages {α : Type} (step : Heap.Action α) (finish : α → List Image) :
    Exec σ (List Image) := fun world =>
  match step world.heap with
  | .ok a heap => .ok (finish a) { world with heap := heap }
  | .error fault heap => .error (.error fault) { world with heap := heap }

def hostImages (env : Env σ) (m : Module) (args : List Image) (op : Op) :
    Exec σ (List Image) := fun world =>
  match m.runtime? op.callee, env.host op.callee with
  | none, _ => .error (.error (.crash none)) world
  | some decl, none =>
    .error (.error (.typed .link s!"jit: runtime function {decl.name} is not bound")) world
  | some decl, some impl =>
    match impl args world with
    | .error cause world => .error (.error cause) world
    | .ok out world =>
      if out.length ≠ op.results.length then
        .error (.error (.plain (s!"jit: runtime {decl.name} returned {out.length} values, " ++
          s!"want {op.results.length}"))) world
      else
        match ((out.zip decl.results).zipIdx).find? fun ((image, t), _) =>
            image.length ≠ t.storeSize with
        | some ((image, t), index) =>
          .error (.error (.plain
            (s!"jit: runtime {decl.name} result {index} is {image.length} bytes, " ++
            "want " ++ t.text))) world
        | none =>
          let images := (out.zip decl.results).map fun (image, t) => normalize t image
          if op.results.length ≤ images.length then .ok images world
          else .error (.error (.crash none)) world

def opImages (env : Env σ) (m : Module) (f : Func) (regs : Array Image) (op : Op) :
    Exec σ (List Image) :=
  let a (index : Nat) : Nat := (argReg regs op index).word64
  match op.code with
  | .alloc => heapImages (Heap.alloc (a 0)) fun p => [ofAddress p]
  | .realloc => heapImages (Heap.realloc (a 0) (a 1) (a 2)) fun p => [ofAddress p]
  | .load =>
    heapImages (read (a 0) (address op.type.storeSize)) fun bytes =>
      [normalize op.type bytes]
  | .store => heapImages (Heap.write (a 0) (argReg regs op 1)) fun _ => []
  | .memcpy => heapImages (copy (a 0) (a 1) (a 2)) fun _ => []
  | .runtimeCall => hostImages env m (op.args.map (reg regs)) op
  | _ => fun world =>
    match pureResult f regs op with
    | .ok image => .ok [image] world
    | .error stop => .error stop world

/-- Whether what a code gives depends on its operands alone. -/
def isPure : Code → Bool
  | .alloc | .realloc | .load | .store | .memcpy | .runtimeCall | .call | .invalid => false
  | _ => true

lemma opImages_pure_eq_ok_iff (hpure : isPure op.code) {images : List Image} :
    opImages env m f regs op world = .ok images world' ↔
      world' = world ∧ ∃ image, images = [image] ∧ pureResult f regs op = .ok image := by
  have hdef : opImages env m f regs op world = match pureResult f regs op with
      | .ok image => .ok [image] world
      | .error stop => .error stop world := by
    unfold opImages
    cases hcode : op.code <;> simp_all [isPure]
  rw [hdef]
  cases pureResult f regs op with
  | error stop => simp
  | ok image =>
    simp only [EStateM.Result.ok.injEq, Except.ok.injEq]
    constructor
    · rintro ⟨rfl, rfl⟩
      exact ⟨rfl, image, rfl, rfl⟩
    · rintro ⟨rfl, image', rfl, rfl⟩
      exact ⟨rfl, rfl⟩

/-! ## Writing what was computed -/

def written (op : Op) : List ValueId :=
  match op.code with
  | .store | .memcpy => []
  | .call | .runtimeCall => op.results
  | _ => op.results.take 1

def writeImages (regs : Array Image) (vs : List ValueId) :
    EStateM.Result Stop (World σ) (List Image) → EStateM.Result Stop (World σ) (Array Image)
  | .ok images world =>
    match assign? regs vs images with
    | some regs => .ok regs world
    | none => .error (.error (.crash none)) world
  | .error stop world => .error stop world

lemma written_subset (op : Op) : written op ⊆ op.results := by
  unfold written
  split <;> simp [take_subset]

lemma writeImages_eq_ok_iff {r : EStateM.Result Stop (World σ) (List Image)} :
    writeImages regs vs r = .ok regs' world ↔
      ∃ images, r = .ok images world ∧ assign? regs vs images = some regs' := by
  cases r with
  | error stop between => simp [writeImages]
  | ok images between =>
    unfold writeImages
    dsimp only
    constructor
    · intro h
      split at h
      · next hset =>
        injection h with h₁ h₂
        exact ⟨images, by rw [h₂], by rw [hset, h₁]⟩
      · cases h
    · rintro ⟨images', himages, hset⟩
      injection himages with h₁ h₂
      rw [h₁, hset, h₂]

lemma onHeap_eq_writeImages {α : Type}
    {step : Heap.Action α} {finish : α → Array Image} {images : α → List Image}
    (h : ∀ a, assign? regs vs (images a) = some (finish a)) (world : World σ) :
    onHeap step finish world = writeImages regs vs (heapImages step images world) := by
  obtain ⟨heap, host, steps⟩ := world
  unfold onHeap heapImages
  dsimp only
  cases step heap with
  | ok a heap => simp only [writeImages, h]
  | error fault heap => rfl

lemma callHost_eq_writeImages (world : World σ) :
    callHost env m regs op world =
      writeImages regs op.results (hostImages env m (op.args.map (reg regs)) op world) := by
  unfold callHost hostImages
  cases m.runtime? op.callee with
  | none => rfl
  | some decl =>
    cases env.host op.callee with
    | none => rfl
    | some impl =>
      dsimp only
      cases impl (op.args.map (reg regs)) world with
      | error cause world => rfl
      | ok out world =>
        dsimp only
        by_cases hcount : out.length ≠ op.results.length
        · rw [if_pos hcount, if_pos hcount]
          rfl
        rw [if_neg hcount, if_neg hcount]
        cases (out.zip decl.results).zipIdx.find? fun ((image, t), _) =>
            image.length ≠ t.storeSize with
        | some _ => rfl
        | none =>
          by_cases hlen : op.results.length ≤
              ((out.zip decl.results).map fun (image, t) => normalize t image).length
          · rw [if_pos hlen]
            rfl
          · rw [if_neg hlen]
            have hnone : assign? regs op.results
                ((out.zip decl.results).map fun (image, t) => normalize t image) = none :=
              assign?_eq_none (Nat.lt_of_not_le hlen)
            rw [hnone]
            rfl

lemma execOp_eq_written (hcall : op.code ≠ .call) (world : World σ) :
    execOp env m f regs op world =
      writeImages regs (written op) (opImages env m f regs op world) := by
  have hone : written op = op.results.take 1 → ∀ image, assign? regs (written op) [image] =
      some (setResult regs op image) := by
    intro h image
    rw [h, setResult]
    cases op.results with
    | nil => exact assign?_nil regs [image]
    | cons v rest => rw [take_succ_cons, take_zero, assign?_cons, assign?_nil]
  have hnone : written op = [] → assign? regs (written op) [] = some regs := by
    intro h
    rw [h, assign?_nil]
  have hpure : written op = op.results.take 1 → (match pureResult f regs op with
        | .ok image => (.ok (setResult regs op image) world :
            EStateM.Result Stop (World σ) (Array Image))
        | .error stop => .error stop world) =
      writeImages regs (written op) (match pureResult f regs op with
        | .ok image => .ok [image] world
        | .error stop => .error stop world) := by
    intro h
    cases pureResult f regs op with
    | error stop => rfl
    | ok image => simp only [writeImages, hone h]
  unfold execOp opImages
  cases hcode : op.code with
  | alloc | realloc =>
    exact onHeap_eq_writeImages (fun a => hone (by simp [written, hcode]) _) world
  | load => exact onHeap_eq_writeImages (fun a => hone (by simp [written, hcode]) _) world
  | store | memcpy => exact onHeap_eq_writeImages (fun a => hnone (by simp [written, hcode])) world
  | runtimeCall =>
    rw [show written op = op.results by simp [written, hcode]]
    exact callHost_eq_writeImages world
  | call => exact absurd hcode hcall
  | _ => exact hpure (by simp [written, hcode])

lemma written_eq_results (hbuilt : op.Built f)
    (hvalid : op.code ≠ .invalid) : written op = op.results := by
  by_cases hone : op.code.hasOneResult
  · obtain ⟨v, hv, -⟩ := hbuilt.one hone
    cases hcode : op.code <;> simp_all [written, Code.hasOneResult]
  · by_cases hnone : op.code = .store ∨ op.code = .memcpy
    · rw [hbuilt.none hnone]
      cases hcode : op.code <;> simp_all [written]
    · cases hcode : op.code <;> simp_all [written, Code.hasOneResult]

lemma execOp_eq_writeImages (hbuilt : op.Built f) (hcall : op.code ≠ .call)
    (hvalid : op.code ≠ .invalid) (world : World σ) :
    execOp env m f regs op world =
      writeImages regs op.results (opImages env m f regs op world) := by
  rw [execOp_eq_written hcall, written_eq_results hbuilt hvalid]

lemma execOp_eq_ok_iff (hbuilt : op.Built f) (hcall : op.code ≠ .call) (hvalid : op.code ≠ .invalid)
    :
    execOp env m f regs op world = .ok regs' world' ↔
      ∃ images, opImages env m f regs op world = .ok images world' ∧
        assign? regs op.results images = some regs' := by
  rw [execOp_eq_writeImages hbuilt hcall hvalid, writeImages_eq_ok_iff]

/-! ## What operations depend on -/

lemma argReg_eq (regs : Array Image) (op : Op) (index : Nat) :
    argReg regs op index = ((op.args.map (reg regs))[index]?).getD [] := by
  unfold argReg
  cases h : op.args[index]? with
  | none => simp [h]
  | some v => simp [h]

lemma argType_eq (f : Func) (op : Op) (index : Nat) :
    argType f op index = ((op.args.map f.typeOf)[index]?).getD .none := by
  unfold argType
  cases h : op.args[index]? with
  | none => simp [h]
  | some v => simp [h]

lemma opImages_congr {m' : Module} {f' : Func}
    {op' : Op} (hargs : op'.args.map (reg regs') = op.args.map (reg regs))
    (htypes : op'.args.map f'.typeOf = op.args.map f.typeOf)
    (hop : op' = { op with args := op'.args }) (hname : f'.name = f.name)
    (hruntime : m'.runtime = m.runtime) :
    opImages env m' f' regs' op' = opImages env m f regs op := by
  have ha : argReg regs' op' = argReg regs op := by
    funext index
    rw [argReg_eq, argReg_eq, hargs]
  have ht : argType f' op' = argType f op := by
    funext index
    rw [argType_eq, argType_eq, htypes]
  have hcode : op'.code = op.code := by rw [hop]
  have htype : op'.type = op.type := by rw [hop]
  have himm : op'.imm = op.imm := by rw [hop]
  have hpred : op'.pred = op.pred := by rw [hop]
  have hoffset : op'.offset = op.offset := by rw [hop]
  have hcallee : op'.callee = op.callee := by rw [hop]
  have hres : op'.results = op.results := by rw [hop]
  have hhost : hostImages env m' (op'.args.map (reg regs')) op' =
      hostImages env m (op.args.map (reg regs)) op := by
    unfold hostImages Module.runtime?
    rw [hargs, hcallee, hres, hruntime]
  have hpure : pureResult f' regs' op' = pureResult f regs op := by
    unfold pureResult
    rw [ha, ht, hcode, htype, himm, hpred, hoffset, hname]
  unfold opImages
  rw [ha, hcode, htype, hhost, hpure]

end Sierra.Machine
