import Sierra.Program.Image
import Sierra.Proofs.Packed.Restore

/-!
# Stored programs

Every part of a program is restored. The kind of a generic argument tells which of its stored
alternatives is meant; an integer is read back from decimal text.
-/

namespace Sierra

open List

variable {a : GenericArg}

namespace Text

lemma digitsFrom?_eq (cs : List Char) (h : ∀ c ∈ cs, c.isDigit) (acc : Nat) :
    digitsFrom? 10 acc cs = some (Nat.ofDigitChars 10 cs acc) := by
  induction cs generalizing acc with
  | nil => rfl
  | cons c cs ih =>
    have hc : '0' ≤ c ∧ c ≤ '9' := by simpa [Char.isDigit, Char.le_def] using h c mem_cons_self
    have hsmall : c.toNat - 48 < 10 := by
      have hle : c.toNat ≤ 57 := hc.2
      omega
    rw [digitsFrom?, Nat.ofDigitChars_cons, Nat.mul_comm]
    simp [digitIn?, digitValue?, hc, hsmall, ih fun c hc => h c (mem_cons_of_mem _ hc)]

lemma isDigit_of_mem {n : Nat} {c : Char} (hc : c ∈ Nat.toDigits 10 n) : c.isDigit :=
  Nat.isDigit_of_mem_toDigits (by decide) (by decide) hc

lemma digits?_toDigits (n : Nat) : digits? 10 (Nat.toDigits 10 n) = some n := by
  rw [digits?, if_neg (by simp), digitsFrom?_eq _ fun c => isDigit_of_mem,
    Nat.ofDigitChars_toDigits (by decide) (by decide)]

lemma decimal?_toString (n : Int) : decimal? (toString n) = some n := by
  have hsign : splitSign (toString n).toList = (decide (n < 0), Nat.toDigits 10 n.natAbs) := by
    cases n with
    | negSucc m =>
      rw [show toString (Int.negSucc m) = "-" ++ (m + 1).repr from rfl, String.toList_append,
        Nat.toList_repr]
      simp [splitSign, Int.negSucc_lt_zero]
    | ofNat m =>
      rw [show toString (Int.ofNat m) = m.repr from rfl]
      rcases hm : Nat.toDigits 10 m with _ | ⟨c, cs⟩
      · simp at hm
      · have hc : c.isDigit := isDigit_of_mem (hm ▸ mem_cons_self)
        unfold splitSign
        split <;> simp_all
  rw [decimal?, hsign]
  simp only [digits?_toDigits, Option.map_some, signed, decide_eq_true_eq, Option.some.injEq]
  split <;> omega

lemma toString_ne_empty (n : Int) : toString n ≠ "" := fun h => by
  simpa [h, decimal?, splitSign, digits?] using decimal?_toString n

end Text

open Packed Codec

/-! ## Parts of a program -/

@[simp] lemma Ident.restores (id : Ident) : Ident.codec.Restores id :=
  record_restores (by decide) (by simp) rfl

@[simp] lemma StoredArg.restores (a : StoredArg) : StoredArg.codec.Restores a :=
  record_restores (by decide) (by simp) rfl

namespace GenericArg

/-- The sort of an argument that no generic takes is none of the five others. -/
def Proper : GenericArg → Prop
  | other kind _ => kind = 0 ∨ 5 < kind
  | _ => True

lemma toArg_stored (h : a.Proper) : a.stored.toArg = .ok a := by
  rcases a with _ | n | _ | _ | _ | ⟨kind, id⟩
  case value =>
    cases n with
    | none => rfl
    | some n =>
      simp only [stored, StoredArg.toArg, Option.map_some, Option.getD_some,
        if_neg (Text.toString_ne_empty n), Text.decimal?_toString]
      rfl
  case other =>
    obtain rfl | ⟨m, rfl⟩ := h.imp_right Nat.exists_eq_add_of_lt
    · rfl
    · rw [show 5 + m + 1 = m + 6 by omega]
      rfl
  all_goals rfl

lemma restores (h : a.Proper) : codec.Restores a := restores_last fun hfits => by
    rw [a.stored.restores.read hfits]
    exact toArg_stored h

end GenericArg

lemma Declaration.restores {d : Declaration} (h : ∀ a ∈ d.args, a.Proper) :
    Declaration.codec.Restores d :=
  record_restores (by decide) (by
    simpa using list_restores fun a ha => GenericArg.restores (h a ha)) rfl

@[simp] lemma Target.restores (t : Target) : Target.codec.Restores t :=
  via_restores (record_restores (by decide) (by simp) rfl) (by cases t <;> rfl)

@[simp] lemma Branch.restores (b : Branch) : Branch.codec.Restores b :=
  record_restores (by decide) (by simp [varsCodec]) rfl

@[simp] lemma Invocation.restores (call : Invocation) : Invocation.codec.Restores call :=
  record_restores (by decide) (by simp [varsCodec]) rfl

@[simp] lemma Statement.restores (s : Statement) : Statement.codec.Restores s :=
  via_restores (record_restores (by decide) (by simp [varsCodec]) rfl) (by cases s <;> rfl)

@[simp] lemma Param.restores (q : Param) : Param.codec.Restores q :=
  record_restores (by decide) (by simp) rfl

@[simp] lemma signature_restores (types : List TypeId × List TypeId) :
    signatureCodec.Restores types :=
  record_restores (by decide) (by simp) rfl

@[simp] lemma Function.restores (f : Function) : Function.codec.Restores f :=
  record_restores (by decide) (by simp) rfl

/-! ## Programs -/

namespace Program

/-- Numbers have the widths they are stored in, and the bytes are read faithfully. -/
structure Storable (p : Program) : Prop where
  proper : ∀ d ∈ p.types ++ p.libfuncs, ∀ a ∈ d.args, a.Proper
  faithful : codec.Faithful p

lemma Storable.decode_encode {p : Program} (h : p.Storable) : decode p.encode = .ok p := by
  have hproper := forall_mem_append.1 h.proper
  have hrestores : codec.Restores p := by
    refine record_restores (by decide) ?_ rfl
    simpa using ⟨listOrNil_restores fun d hd => Declaration.restores (hproper.1 d hd),
      listOrNil_restores fun d hd => Declaration.restores (hproper.2 d hd)⟩
  rw [decode, encode, hrestores.read_parse h.faithful]
  rfl

/-- A program is read back from its image as it was, so no two programs have the same image, and
what is hashed identifies a program. -/
theorem stored_programs_are_read_back (p : Program) (h : p.Storable) :
    decode p.encode = .ok p ∧ ∀ q : Program, q.Storable → q.encode = p.encode → q = p := by
  refine ⟨h.decode_encode, fun q hq heq => ?_⟩
  have hdecoded := hq.decode_encode
  rw [heq, h.decode_encode] at hdecoded
  exact (Except.ok.inj hdecoded).symm

def minusOne : Program where
  types := [⟨⟨0, "felt252"⟩, "felt252", []⟩]
  libfuncs := [⟨⟨0, ""⟩, "felt252_const", [.value (some (-1)), .type ⟨0, "felt252"⟩]⟩]
  statements := #[.invoke ⟨⟨0, ""⟩, [], [⟨.next, [0]⟩]⟩, .ret [0]]
  funcs := [{ id := ⟨0, "main"⟩, retTypes := [⟨0, "felt252"⟩] }]

set_option maxRecDepth 20000 in
theorem minusOne_is_read_back : decode minusOne.encode = .ok minusOne :=
  (stored_programs_are_read_back minusOne ⟨by simp [minusOne, GenericArg.Proper], rfl, rfl⟩).1

end Program

end Sierra
