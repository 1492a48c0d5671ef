import Sierra.Llvm.Emit
import Sierra.Machine.Run
import Sierra.Proofs.Machine.Words

/-!
# Integer constants as they are read

Three readers make an integer of an image: the machine, folding, and the writer of the other form.
-/

namespace Sierra.Llvm

open Ir Machine Image Bytes

variable {f : Func} {m : Module} {op : Op} {r : ValueId} {rest : List ValueId} {bits : Int}
  {regs : Array Image} {known : Fold.Known} {imm : Bytes}

def Operand.number? : Operand → Option Int
  | .int value => some value
  | .bool value => some (if value then 1 else 0)
  | _ => none

lemma constOf_bool (imm : Bytes) : constOf (.int 1) imm = .ok (.bool (flag imm)) := by
  cases imm <;> rfl

lemma constOf_int (hpos : 0 < bits) (hle : bits ≤ 256) (hone : bits ≠ 1) :
    constOf (.int bits) imm = .ok (.int (Fold.wordOf imm % pow2 bits.toNat : Nat)) := by
  have hmask : Word.mask (Word.width bits) (Fold.wordOf imm) = Fold.wordOf imm % pow2 bits.toNat := by
    rw [show Word.width bits = bits.toNat from width_int hpos hle]
    unfold Word.mask
    split
    · obtain rfl : bits = 256 := by omega
      exact (Nat.mod_eq_of_lt (word_lt_modulus imm)).symm
    · rfl
  simp [constOf, hmask]

lemma number?_constOf (hpos : 0 < bits) (hle : bits ≤ 256) (imm : Bytes) :
    ∃ x, constOf (.int bits) imm = .ok x ∧
      x.number? = some ((Fold.wordOf imm % pow2 bits.toNat : Nat) : Int) := by
  by_cases hone : bits = 1
  · subst hone
    refine ⟨_, constOf_bool imm, ?_⟩
    rw [Operand.number?, flag_eq]
    have hword : word imm = Fold.wordOf imm := rfl
    show _ = some ((Fold.wordOf imm % 2 : Nat) : Int)
    split <;> grind
  · exact ⟨_, constOf_int hpos hle hone, rfl⟩

/-- The machine cuts a constant unless its width is one of whole bytes, folding takes it as it
stands, and the writer cuts it. So all three read the same integer exactly when no bit above the
width is set. -/
theorem constants_are_read_alike_iff (hcode : op.code = .const) (htype : op.type = .int bits)
    (hpos : 0 < bits) (hle : bits ≤ 256) (hok : opProblem? m f op = none)
    (hresults : op.results = r :: rest) (hnew : known.consts[r]? = none) :
    ∃ (image : Image) (folded : Nat) (printed : Operand),
      pureResult f regs op = .ok image ∧ (Fold.foldOp f known op).1.consts[r]? = some folded ∧
      constOf op.type op.imm = .ok printed ∧
      image.word = (if bits % 8 = 0 then folded else folded % pow2 bits.toNat) ∧
      folded = toNat op.imm ∧ printed.number? = some ((folded % pow2 bits.toNat : Nat) : Int) ∧
      (image.word = folded ∧ printed.number? = some (folded : Int) ↔
        toNat op.imm < pow2 bits.toNat) ∧
      (bits = 1 → printed = .bool image.flag ∧
        (image.flag = decide (folded ≠ 0) ↔ folded = 0 ∨ folded % 2 = 1)) := by
  obtain ⟨x, hx, hnumber⟩ := number?_constOf hpos hle op.imm
  have hlen : (op.imm.length : Int) = (Ty.int bits).storeSize := by
    simpa [opProblem?, hcode, htype] using hok
  have hfold : (Fold.foldOp f known op).1.consts[r]? = some (Fold.wordOf op.imm) := by
    simp [Fold.foldOp, hcode, Fold.noteConst, hresults, hnew, htype, Ty.isInt]
  have hword : Fold.wordOf op.imm = toNat op.imm := by
    rw [Fold.wordOf, List.take_of_length_le]
    have := (Ty.bits_le_storeSize (t := .int bits) rfl).2.1
    omega
  have hread : pureResult f regs op = .ok (normalize op.type op.imm) := by
    simp [pureResult, hcode]
  have hloaded := word_normalize_int hpos hle op.imm
  have hread' : word op.imm = Fold.wordOf op.imm := rfl
  rw [hread'] at hloaded
  refine ⟨_, _, x, hread, hfold, htype ▸ hx, htype ▸ hloaded, hword, hnumber, ?_, ?_⟩
  · rw [hnumber, htype, hloaded, ← hword, Option.some.injEq, Int.natCast_inj]
    constructor
    · rintro ⟨-, hcut⟩
      exact hcut ▸ Nat.mod_lt _ (Nat.pow_pos (by decide))
    · intro hlt
      rw [Nat.mod_eq_of_lt hlt, ite_self]
      exact ⟨rfl, rfl⟩
  · rintro rfl
    rw [constOf_bool, Except.ok.injEq] at hx
    have hflag : (normalize op.type op.imm).flag = decide (Fold.wordOf op.imm % 2 = 1) := by
      rw [flag_eq, htype, hloaded, if_neg (by decide)]
      show decide (Fold.wordOf op.imm % 2 % 2 = 1) = _
      rw [Nat.mod_mod]
    rw [hflag, ← hx, flag_eq]
    refine ⟨rfl, ?_⟩
    rw [decide_eq_decide]
    omega

/-- A truth value with the image `02`: folding takes a branch on it that the machine does not. -/
theorem constants_are_read_alike_iff_bit :
    ∃ (f : Func) (op : Op) (image : Image) (folded : Nat) (printed : Operand), op.type = .int 1 ∧
      opProblem? ⟨"m", [], []⟩ f op = none ∧ pureResult f #[] op = .ok image ∧
      (Fold.foldOp f {} op).1.consts[(0 : ValueId)]? = some folded ∧
      constOf op.type op.imm = .ok printed ∧
      ¬ (image.word = folded ∧ printed.number? = some (folded : Int)) ∧
      image.flag ≠ decide (folded ≠ 0) := by
  let f : Func := { name := "f" }
  let op : Op := { code := .const, results := [0], type := .int 1, imm := [2] }
  have hok : opProblem? ⟨"m", [], []⟩ f op = none := rfl
  obtain ⟨image, folded, printed, himage, hfolded, hprinted, -, rfl, -, halike, hbranch⟩ :=
    @constants_are_read_alike_iff f _ op 0 [] 1 #[] {} rfl rfl (by decide) (by decide) hok rfl (by simp)
  exact ⟨f, op, image, _, printed, rfl, hok, himage, hfolded, hprinted,
    fun h => absurd (halike.1 h) (by decide), fun h => absurd ((hbranch rfl).2.1 h) (by decide)⟩

end Sierra.Llvm
