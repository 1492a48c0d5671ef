import Sierra.Artifact.Image
import Sierra.Invoke
import Sierra.Proofs.Packed.Programs

/-!
# Stored artifacts

Every part of an artifact is restored. Fields that hold zero are left out and read as zero, so block
0, value 0 and an empty constant are not lost.
-/

namespace Sierra

open Packed Codec

/-! ## Code -/

namespace Ir

@[simp] lemma Ty.restores (t : Ty) : Ty.codec.Restores t :=
  via_restores (record_restores (by decide) (by simp) rfl) (by cases t <;> rfl)

@[simp] lemma Op.restores (op : Op) : Op.codec.Restores op := by
  have hcode : (via .uint8 Code.number Code.ofNumber).Restores op.code :=
    via_restores (by simp) (by rcases op.code with _ | _ | _ | ⟨⟨⟩⟩ | ⟨⟨⟩⟩ | _ | _ | ⟨⟨⟩⟩ <;> rfl)
  have hpred : (via .uint8 predNumber predOfNumber).Restores op.pred :=
    via_restores (by simp) (by rcases op.pred with _ | ⟨⟨⟩⟩ <;> rfl)
  exact record_restores (by decide) (by simp [valuesCodec, hcode, hpred])
    (by simp [Slot.of, Slot.opt])

@[simp] lemma Edge.restores (e : Edge) : Edge.codec.Restores e :=
  record_restores (by decide) (by simp [valuesCodec]) rfl

@[simp] lemma case_restores (c : Nat × Edge) : caseCodec.Restores c :=
  record_restores (by decide) (by simp) rfl

@[simp] lemma StoredTerm.restores (t : StoredTerm) : StoredTerm.codec.Restores t := by
  have hcond : condCodec.Restores t.cond := record_restores (by decide) (by simp) rfl
  have hcases : caseCodec.list.optional.Restores t.switch.2.1 :=
    optional_restores (by simp) fun _ => Packed.noConfusion
  have hswitch : switchCodec.Restores t.switch := record_restores (by decide) (by simp [hcases]) rfl
  have hret : retCodec.Restores t.ret := record_restores (by decide) (by simp [valuesCodec]) rfl
  have htrap : trapCodec.Restores t.trap := record_restores (by decide) (by simp) rfl
  exact record_restores (by decide) (by simp [hcond, hswitch, hret, htrap]) rfl

/-- A switch with cases is listed, and a trap that is not listed has a number of its own. -/
def Terminator.Proper : Terminator → Prop
  | switch _ cases _ listed => cases ≠ [] → listed = true
  | trap (.unlisted n) _ => n = 0 ∨ 3 < n
  | _ => True

lemma Terminator.toTerminator_stored {t : Terminator} (h : t.Proper) :
    t.stored.toTerminator = t := by
  cases t with
  | switch value cases default listed =>
    cases listed <;> cases cases <;> simp_all [Proper, stored, StoredTerm.toTerminator]
  | trap code message =>
    rcases code with _ | _ | _ | n
    case unlisted =>
      obtain rfl | ⟨m, rfl⟩ := h.imp_right Nat.exists_eq_add_of_lt
      · rfl
      · rw [show 3 + m + 1 = m + 4 by omega]
        rfl
    all_goals rfl
  | _ => rfl

lemma Block.restores {b : Block} (h : b.term.Proper) : Block.codec.Restores b :=
  record_restores (by decide) (by
    simpa [valuesCodec] using
      via_restores b.term.stored.restores (Terminator.toTerminator_stored h)) rfl

/-- Terminators are proper, and no blocks are left where all were dropped. -/
structure Func.Proper (f : Func) : Prop where
  terms : ∀ b ∈ f.blocks, b.term.Proper
  cleared : f.isCleared = true → f.blocks = #[]

lemma Func.restores {f : Func} (h : f.Proper) : Func.codec.Restores f := by
  have hblocks : Block.codec.list.optional.Restores
      (if f.isCleared || !f.blocks.isEmpty then some f.blocks.toList else none) := by
    refine optional_restores (fun bs hbs => list_restores fun b hb => Block.restores ?_) fun _ =>
      Packed.noConfusion
    split at hbs <;> cases hbs
    exact h.terms b (Array.mem_toList_iff.1 hb)
  refine record_restores (by decide) (by simpa [typesCodec] using hblocks) ?_
  have hcleared := h.cleared
  rcases f with ⟨_, _, _, _, ⟨⟨_ | _⟩⟩, ⟨⟩⟩ <;> simp_all [Slot.of, Slot.opt]

@[simp] lemma RuntimeDecl.restores (d : RuntimeDecl) : RuntimeDecl.codec.Restores d :=
  record_restores (by decide) (by simp [typesCodec]) rfl

lemma Module.restores {m : Module} (h : ∀ f ∈ m.funcs, f.Proper) : Module.codec.Restores m :=
  record_restores (by decide) (by
    simpa using listOrNil_restores fun f hf => Func.restores (h f hf)) rfl

end Ir

/-! ## Descriptors and entry points -/

@[simp] lemma bits_restores (n : Nat) : bitsCodec.Restores n := restores_last fun h => by
    have hlt : (n : Int) < (pow2 63 : Nat) := (eq_of_beq h) ▸ Int.bmod_lt (by decide)
    exact congrArg Except.ok (Nat.mod_eq_of_lt (Int.ofNat_lt.1 hlt))

@[simp] lemma bound_restores (n : Option Int) : boundCodec.Restores n := by
  refine via_restores (by simp) ?_
  cases n with
  | none => rfl
  | some n => exact (if_neg (Text.toString_ne_empty n)).trans (Text.decimal?_toString n)

@[simp] lemma Shape.restores (k : Shape) : Shape.codec.Restores k :=
  via_restores (by simp) (by cases k <;> rfl)

@[simp] lemma Descriptor.restores (d : Descriptor) : Descriptor.codec.Restores d :=
  via_restores (record_restores (by decide) (by simp [numbersCodec]) (by simp [Slot.of, Slot.opt]))
    (by rcases d with ⟨_, _, _, _, _, _, _ | _⟩ <;> rfl)

@[simp] lemma Descriptors.restores (ds : Descriptors) : Descriptors.codec.Restores ds := by
  refine via_restores (list_restores fun e he => restores_last fun hfits => ?_) rfl
  have hitems := fitAll_iff.1 hfits
  have hid := (uint64_restores e.1).read (hitems _ List.mem_cons_self)
  have hd := e.2.restores.read (hitems _ (by simp))
  show (do return (← uint64.decoder.read (uint64.write e.1).plain,
    ← Descriptor.codec.decoder.read _)) = _
  rw [hid, hd]
  rfl

@[simp] lemma EntryPoint.restores (e : EntryPoint) : EntryPoint.codec.Restores e :=
  record_restores (by decide) (by simp [numbersCodec]) rfl

/-! ## Artifacts -/

namespace Artifact

/-- Numbers have the widths they are stored in, and the bytes are read faithfully. -/
structure Storable (a : Artifact) : Prop where
  proper : ∀ m ∈ a.module, ∀ f ∈ m.funcs, f.Proper
  faithful : codec.Faithful a

lemma Storable.decode_encode {a : Artifact} (h : a.Storable) (hversion : a.version = currentVersion)
    (hmodule : a.module.isNone = false) : decode a.encode = .ok a := by
  have hcode : Ir.Module.codec.optional.Restores a.module :=
    optional_restores (fun m hm => Ir.Module.restores (h.proper m hm)) fun _ => Packed.noConfusion
  have hrestores : codec.Restores a := record_restores (by decide) (by simp [hcode]) rfl
  rw [decode, encode, hrestores.read_parse h.faithful]
  simp only [Except.mapError, bind, Except.bind, hversion, hmodule]
  rfl

/-- The artifact of a compilation is read back from its image as it was, and an executable loaded
from the image ends every invocation as one loaded from the artifact. -/
theorem stored_artifacts_are_read_back (c : Compiled) (options : CompileOptions) (key : String)
    (h : Storable { ofCompiled c options with key := key }) :
    let a := { ofCompiled c options with key := key }
    decode a.encode = .ok a ∧ ∀ (entry : String) (args : List Value) (b : Budget) (host : Host),
        (decode a.encode >>= Executable.load).map (·.invoke entry args b host) =
          (Executable.load a).map (·.invoke entry args b host) := by
  intro a
  have hdecode : decode a.encode = .ok a := h.decode_encode rfl rfl
  refine ⟨hdecode, fun entry args b host => ?_⟩
  rw [hdecode]
  rfl

deriving instance DecidableEq for Artifact

def choice : Ir.Module where
  name := "m"
  funcs := [{
    name := "f"
    params := [.int 1]
    values := #[.int 1, .int 1]
    blocks := #[⟨0, [0], [], .condBr 0 ⟨1, [0]⟩ ⟨2, []⟩⟩, ⟨1, [1], [], .ret [1]⟩,
      ⟨2, [], [], .trap .outOfGas "x"⟩] }]

def storedChoice : Artifact where
  version := 1
  key := "k"
  hash := "080994fc57921fb0963ebd35deff389ecff51722ea376e0fcc5f452c42fe24e7"
  options := "O2;gas=false,false"
  module := some choice

def compiledChoice : Compiled := ⟨⟨{}, {}, []⟩, [], default, {}, choice⟩

set_option maxRecDepth 20000 in
theorem storedChoice_is_read_back : decode storedChoice.encode = .ok storedChoice := by
  have hsame : { ofCompiled compiledChoice {} with key := "k" } = storedChoice := by
    decide +kernel
  have hproper : ∀ f ∈ choice.funcs, f.Proper :=
    List.forall_mem_singleton.2 ⟨by simp [Ir.Terminator.Proper], by simp⟩
  have hstorable : storedChoice.Storable := ⟨by rintro _ ⟨⟩; exact hproper, rfl, rfl⟩
  exact hsame ▸ (stored_artifacts_are_read_back compiledChoice {} "k" (hsame ▸ hstorable)).1

end Artifact

end Sierra
