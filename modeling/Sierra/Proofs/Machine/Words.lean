import Mathlib.Tactic.Lemma
import Sierra.Ir.Fold
import Sierra.Machine.Image

/-!
# Words and their images

A word that is small enough for its type (`Below`) is read back from its image, and arithmetic on
such words gives such words. Widths are not negative and within a machine word (`Ty.HasWidth`).
-/

namespace Sierra

open Bytes Option List

variable {bits x y z : Nat} {t : Ir.Ty} {imm : Bytes}

namespace Ir

def Ty.HasWidth (t : Ty) : Prop := t.isInt = true → 0 ≤ t.bits ∧ t.bits < (pow2 63 : Nat)

instance (t : Ty) : Decidable t.HasWidth :=
  inferInstanceAs (Decidable (_ = true → _ ∧ _))

lemma Ty.HasWidth.width_eq (h : t.HasWidth) (hint : t.isInt) : t.width = t.bits.toNat := by
  obtain ⟨hpos, hlt⟩ := h hint
  have hpow : ((pow2 63 : Nat) : Int) < ((pow2 64 : Nat) : Int) := by decide
  rw [Ty.width, Word.width, Int.emod_eq_of_lt hpos (by omega)]

lemma Ty.bits_le_storeSize (hint : t.isInt) :
    0 ≤ t.storeSize ∧ t.storeSize ≤ 32 ∧ (t.bits ≤ 256 → t.bits ≤ 8 * t.storeSize) ∧
      (256 < t.bits → t.storeSize = 32) := by
  cases t with
  | int bits =>
    simp only [Ty.storeSize, Ty.bits, Layout.intBytes]
    refine ⟨?_, ?_, ?_, ?_⟩ <;> grind
  | _ => simp [Ty.isInt] at hint

end Ir

/-! ## Bounds of words -/

namespace Word

lemma modulus_pos : 0 < modulus := Nat.pow_pos (by decide)

lemma mask_le (bits x : Nat) : mask bits x ≤ x := by
  unfold mask
  split
  · exact Nat.le_refl x
  · exact Nat.mod_le x _

lemma mask_lt (h : bits < 256) (x : Nat) : mask bits x < pow2 bits := by
  rw [mask, if_neg (by omega)]
  exact Nat.mod_lt _ (Nat.pow_pos (by decide))

lemma mask_eq_self (h : bits < 256 → x < pow2 bits) : mask bits x = x := by
  unfold mask
  split
  · rfl
  · next hlt => exact Nat.mod_eq_of_lt (h (by omega))

lemma ofInt_lt (n : Int) : ofInt n < modulus := by
  have hpos : (0 : Int) < modulus := by exact_mod_cast modulus_pos
  have hlt := Int.emod_lt_of_pos n hpos
  rw [ofInt]
  omega

lemma signExtend_lt (hx : x < modulus) : signExtend bits x < modulus := by
  unfold signExtend
  split
  · exact hx
  · have hpow : pow2 bits ≤ modulus := Nat.pow_le_pow_right (by decide) (by omega)
    have hlow : x % pow2 bits < pow2 bits := Nat.mod_lt _ (Nat.pow_pos (by decide))
    dsimp only
    split
    · omega
    · omega

lemma binaryWide_lt {op : Binary} (hx : x < modulus) (hy : y < modulus)
    (h : binaryWide op bits x y = some z) : z < modulus := by
  have hpos := modulus_pos
  cases op <;> simp only [binaryWide, ite_none_left_eq_some, some.injEq] at h
  case add | sub | mul =>
    rw [← h]
    exact Nat.mod_lt _ hpos
  case udiv =>
    rw [← h.2]
    exact Nat.lt_of_le_of_lt (Nat.div_le_self x y) hx
  case urem =>
    rw [← h.2]
    exact Nat.lt_of_le_of_lt (Nat.mod_le x y) hx
  case sdiv =>
    rw [← h.2]
    exact ofInt_lt _
  case srem =>
    rw [← h.2, srem]
    split
    · exact hpos
    · exact ofInt_lt _
  case and =>
    rw [← h]
    exact Nat.lt_of_le_of_lt Nat.and_le_left hx
  case or =>
    rw [← h]
    exact Nat.or_lt_two_pow hx hy
  case xor =>
    rw [← h]
    exact Nat.xor_lt_two_pow hx hy
  case shl =>
    rw [← h]
    split
    · exact Nat.mod_lt _ hpos
    · exact hpos
  case lshr =>
    rw [← h]
    split
    · exact Nat.lt_of_le_of_lt (Nat.shiftRight_le x y) hx
    · exact hpos
  case ashr =>
    rw [← h]
    exact ofInt_lt _

lemma binary_lt {op : Binary} (hx : x < modulus) (hy : y < modulus)
    (h : binary op bits x y = some z) : z < modulus ∧ (bits < 256 → z < pow2 bits) := by
  obtain ⟨wide, hwide, rfl⟩ := map_eq_some_iff.1 h
  exact ⟨Nat.lt_of_le_of_lt (mask_le bits wide) (binaryWide_lt hx hy hwide),
    fun hbits => mask_lt hbits wide⟩

lemma cast_lt {op : Cast} {fromBits toBits : Nat} (hx : x < modulus) :
    cast op fromBits toBits x < modulus ∧
    (toBits < 256 → cast op fromBits toBits x < pow2 toBits) := by
  cases op with
  | sext => exact ⟨Nat.lt_of_le_of_lt (mask_le _ _) (signExtend_lt hx), fun h => mask_lt h _⟩
  | _ =>
    exact ⟨Nat.lt_of_le_of_lt (mask_le _ _) (Nat.lt_of_le_of_lt (mask_le _ _) hx),
      fun h => mask_lt h _⟩

end Word

/-! ## Words that fit their type -/

namespace Machine

open Ir

structure Below (t : Ty) (z : Nat) : Prop where
  int : t.isInt = true
  lt : z < Word.modulus
  bits : t.bits ≤ 256 → z < pow2 t.bits.toNat

lemma pow256_eq (n : Nat) : pow256 n = pow2 (8 * n) := (Nat.pow_mul 2 8 n).symm

lemma Below.lt_pow256 (h : Below t z) : z < pow256 t.storeSize.toNat := by
  obtain ⟨hpos, -, hnarrow, hwide⟩ := Ty.bits_le_storeSize h.int
  rw [pow256_eq]
  by_cases hbits : t.bits ≤ 256
  · refine Nat.lt_of_lt_of_le (h.bits hbits) (Nat.pow_le_pow_right (by decide) ?_)
    omega
  · have hsize := hwide (by omega)
    rw [hsize]
    exact h.lt

lemma word_ofNat {size : Nat} (hsize : size ≤ 32) (z : Nat) :
    Image.word (ofNat size z) = z % pow256 size := by
  have hlen : (ofNat size z).length ≤ 32 := by
    rw [length_ofNat]
    exact hsize
  rw [Image.word, take_of_length_le hlen, toNat_ofNat]

lemma Below.ofWord_eq (h : Below t z) (hwidth : t.HasWidth) :
    Image.ofWord t z = Fold.imageOf t z := by
  obtain ⟨hpos, hle, -⟩ := Ty.bits_le_storeSize h.int
  rw [Image.ofWord, if_pos h.int, hwidth.width_eq h.int,
    Word.mask_eq_self fun hlt => h.bits (by omega), Image.ofWordSized, if_pos (by omega),
    Fold.imageOf]

lemma Below.word_imageOf (h : Below t z) : Image.word (Fold.imageOf t z) = z := by
  obtain ⟨hpos, hle, -⟩ := Ty.bits_le_storeSize h.int
  rw [Fold.imageOf, word_ofNat (by omega), Nat.mod_eq_of_lt h.lt_pow256]

lemma Below.normalize_imageOf (h : Below t z) (hwidth : t.HasWidth) :
    Image.normalize t (Fold.imageOf t z) = Image.ofWord t z := by
  have hint := h.int
  cases t with
  | int bits =>
    rw [Image.normalize]
    split
    · exact (h.ofWord_eq hwidth).symm
    · rw [h.word_imageOf]
  | _ => simp [Ty.isInt] at hint

lemma below_wordOf (hint : t.isInt) (hlen : (imm.length : Int) = t.storeSize)
    (himm : toNat imm < pow2 t.bits.toNat) : Below t (Fold.wordOf imm) := by
  obtain ⟨-, hle, -⟩ := Ty.bits_le_storeSize hint
  have hword : Fold.wordOf imm = toNat imm := by
    rw [Fold.wordOf, take_of_length_le (by omega)]
  rw [hword]
  refine ⟨hint, ?_, fun _ => himm⟩
  have hlt := toNat_lt imm
  rw [pow256_eq] at hlt
  exact Nat.lt_of_lt_of_le hlt (Nat.pow_le_pow_right (by decide) (by omega))

lemma word_normalize (hwidth : t.HasWidth)
    (h : Below t (Fold.wordOf imm)) : Image.word (Image.normalize t imm) = Fold.wordOf imm := by
  have hint := h.int
  cases t with
  | int bits =>
    rw [Image.normalize]
    split
    · rfl
    · have hword : Image.word imm = Fold.wordOf imm := rfl
      rw [hword, h.ofWord_eq hwidth, h.word_imageOf]
  | _ => simp [Ty.isInt] at hint

lemma flag_eq (image : Image) : image.flag = decide (image.word % 2 = 1) := by
  cases image with
  | nil => rfl
  | cons b rest =>
    have hword : Image.word (b :: rest) = b.toNat + 256 * toNat (rest.take 31) := rfl
    have hmod : (b.toNat + 256 * toNat (rest.take 31)) % 2 = b.toNat % 2 := by omega
    rw [hword, hmod]
    rfl

lemma Below.flag_iff {image : Image} (h : Below (.int 1) z) (hword : image.word = z) :
    image.flag = decide (z ≠ 0) := by
  have hlt : z < 2 := h.bits (by decide)
  rw [flag_eq, hword]
  have hz : z = 0 ∨ z = 1 := by omega
  rcases hz with rfl | rfl <;> rfl

lemma flag_ofBool (b : Bool) : (Image.ofBool b).flag = b := by
  cases b <;> rfl

lemma word_lt_modulus (image : Image) : image.word < Word.modulus := by
  have hlt := toNat_lt (image.take 32)
  have hle : pow256 (image.take 32).length ≤ pow256 32 :=
    Nat.pow_le_pow_right (by decide) (length_take_le 32 image)
  exact Nat.lt_of_lt_of_le hlt hle

lemma ofNat_mod_pow256 (size value : Nat) :
    ofNat size (value % pow256 size) = ofNat size value := by
  have hback := ofNat_toNat (ofNat size value)
  rwa [length_ofNat, toNat_ofNat] at hback

lemma width_int {bits : Int} (hpos : 0 < bits) (hle : bits ≤ 256) :
    Ty.width (.int bits) = bits.toNat :=
  Ty.HasWidth.width_eq (t := .int bits)
    (fun _ => ⟨Int.le_of_lt hpos, Int.lt_of_le_of_lt hle (by decide)⟩) rfl

lemma word_ofWord {bits : Int} (hpos : 0 < bits) (hle : bits ≤ 256) (z : Nat) :
    (Image.ofWord (.int bits) z).word = z % pow2 bits.toNat := by
  obtain ⟨hsize, hsize', hbits, -⟩ := Ty.bits_le_storeSize (t := .int bits) rfl
  have hbits : bits ≤ 8 * (Ty.int bits).storeSize := hbits hle
  have hroom : pow2 bits.toNat ≤ pow256 (Ty.int bits).storeSize.toNat := by
    rw [pow256_eq]
    exact Nat.pow_le_pow_right (by decide) (by omega)
  have himg : Image.ofWord (.int bits) z =
      ofNat (Ty.int bits).storeSize.toNat (Word.mask bits.toNat z) := by
    rw [← width_int hpos hle]
    exact if_pos (by omega)
  rw [himg, word_ofNat (by omega)]
  unfold Word.mask
  split
  · obtain rfl : bits = 256 := by omega
    rfl
  · exact Nat.mod_eq_of_lt (Nat.lt_of_lt_of_le (Nat.mod_lt _ (Nat.pow_pos (by decide))) hroom)

lemma word_normalize_int {bits : Int} (hpos : 0 < bits) (hle : bits ≤ 256) (image : Image) :
    (Image.normalize (.int bits) image).word =
      if bits % 8 = 0 then image.word else image.word % pow2 bits.toNat := by
  rw [Image.normalize]
  split
  · rfl
  · exact word_ofWord hpos hle _

lemma word_const {n : Nat} (h : n < pow2 64) :
    (Image.normalize (.int 64) (Image.ofInt (Ty.int 64).storeSize (n : Int))).word = n := by
  have hword : Word.ofInt (n : Int) = n := by
    have hlt : (n : Int) < (Word.modulus : Int) := by
      exact_mod_cast Nat.lt_trans h (by decide : pow2 64 < Word.modulus)
    rw [Word.ofInt, Int.emod_eq_of_lt (Int.natCast_nonneg n) hlt, Int.toNat_natCast]
  show Image.word (Image.ofWordSized 8 (Word.ofInt (n : Int))) = n
  rw [hword, Image.ofWordSized, if_pos (by decide), word_ofNat (by decide)]
  exact Nat.mod_eq_of_lt h

lemma binary_sub_64 (hx : x < Word.modulus) (hle : y ≤ x) :
    (Word.binary .sub 64 x y).map (Image.ofWord (.int 64)) = some (ofNat 8 (x - y)) := by
  have hwide : (x + (Word.modulus - y)) % Word.modulus = x - y := by
    rw [show x + (Word.modulus - y) = x - y + Word.modulus by omega, Nat.add_mod_right]
    exact Nat.mod_eq_of_lt (by omega)
  have hmask : ∀ z, Word.mask 64 z = z % pow256 8 := fun z => if_neg (by decide)
  have himg : ∀ z, Image.ofWord (.int 64) z = ofNat 8 (Word.mask 64 z) := fun _ => rfl
  simp only [Word.binary, Word.binaryWide, hwide, map_some, himg, hmask, ofNat_mod_pow256]

end Machine

end Sierra
