import Mathlib.Data.Nat.Digits.Defs
import Sierra.Proofs.Bits
import Sierra.Proofs.Llvm.Symbols
import Sierra.Proofs.Value.Flat

/-!
# Numbers as bytes, limbs and text

Integers and field elements are written as their digits (`IsDigits`), short strings as the bytes of
a number, and reading inverts writing.
-/

namespace Sierra

open List Bytes Machine Llvm

variable {size : Nat} {bytes : Bytes}

/-- So many digits, lowest first, that stand for a number. -/
structure IsDigits (base count value : Nat) (digits : List Nat) : Prop where
  length : digits.length = count
  lt : ∀ digit ∈ digits, digit < base
  value : Nat.ofDigits base digits = value

namespace Bytes

lemma toNat_eq_ofDigits (bytes : Bytes) :
    toNat bytes = Nat.ofDigits 256 (bytes.map UInt8.toNat) := by
  induction bytes with
  | nil => rfl
  | cons b rest ih => rw [toNat, ih, map_cons, Nat.ofDigits_cons]

lemma isDigits_ofNat (size value : Nat) :
    IsDigits 256 size (value % pow256 size) ((ofNat size value).map UInt8.toNat) := by
  refine ⟨by rw [length_map, length_ofNat], ?_, by rw [← toNat_eq_ofDigits, toNat_ofNat]⟩
  intro digit hdigit
  obtain ⟨b, -, rfl⟩ := mem_map.1 hdigit
  exact b.toNat_lt

lemma toNatBE_minimalBE (n : Nat) : toNatBE (minimalBE n) = n := by
  unfold minimalBE
  split
  · next hzero => exact hzero.symm
  · next hne =>
    have hlt : n < pow256 (n.log2 / 8 + 1) := by
      rw [pow256_eq]
      exact (Nat.log2_lt hne).1 (by omega)
    rw [toNatBE, ofNatBE, reverse_reverse, toNat_ofNat, Nat.mod_eq_of_lt hlt]

lemma minimalBE_toNatBE {b : UInt8} (hb : b ≠ 0) (rest : Bytes) :
    minimalBE (toNatBE (b :: rest)) = b :: rest := by
  -- the first byte is the highest digit
  have hlow : pow2 (8 * rest.length) ≤ toNatBE (b :: rest) := by
    have hpos : 0 < b.toNat := Nat.pos_of_ne_zero fun h => hb (UInt8.toNat_inj.1 h)
    rw [← pow256_eq, toNatBE, reverse_cons, toNat_eq_ofDigits, map_append, Nat.ofDigits_append,
      length_map, length_reverse]
    exact Nat.le_add_left_of_le (Nat.le_mul_of_pos_right _ hpos)
  have hhigh : toNatBE (b :: rest) < pow2 (8 * (rest.length + 1)) := by
    have hlt := toNat_lt (b :: rest).reverse
    rwa [length_reverse, pow256_eq] at hlt
  have hne : toNatBE (b :: rest) ≠ 0 :=
    Nat.ne_of_gt (Nat.lt_of_lt_of_le (Nat.pow_pos (by decide)) hlow)
  have hlog : (toNatBE (b :: rest)).log2 / 8 + 1 = (b :: rest).reverse.length := by
    have hle := (Nat.le_log2 hne).2 hlow
    have hlt := (Nat.log2_lt hne).2 hhigh
    rw [length_reverse, length_cons]
    omega
  rw [minimalBE, if_neg hne, hlog, ofNatBE, toNatBE, ofNat_toNat, reverse_reverse]

lemma ofString_ofList (h : bytes.all Felt.isShown) :
    ofString (String.ofList (bytes.map fun b => Char.ofNat b.toNat)) = bytes := by
  have hshown : ∀ n < 256, Felt.isShown (UInt8.ofNat n) →
      String.utf8EncodeChar (Char.ofNat n) = [UInt8.ofNat n] := by decide +kernel
  rw [ofString_eq, String.toList_ofList, flatMap_map]
  induction bytes with
  | nil => rfl
  | cons b rest ih =>
    rw [all_cons, Bool.and_eq_true] at h
    have hb := hshown b.toNat b.toNat_lt
    rw [UInt8.ofNat_toNat] at hb
    rw [flatMap_cons, hb h.1, ih h.2, singleton_append]

end Bytes

lemma Word.ofInt_mod (n : Int) (h : size ≤ 32) :
    ((Word.ofInt n % pow256 size : Nat) : Int) = n % (pow2 (8 * size) : Nat) := by
  have hne : (pow2 (8 * size) : Int) ≠ 0 := Int.natCast_ne_zero.2 (Nat.pow_pos (by decide)).ne'
  rw [pow256_eq, ← Word.mask_eq_mod (by omega) (Word.ofInt_lt n), Word.mask_ofInt (by omega),
    BitVec.toNat_ofInt]
  exact Int.toNat_of_nonneg (Int.emod_nonneg n hne)

namespace Felt

lemma isDigits_limbs (f : Felt) : IsDigits (pow2 64) 4 f.val f.limbs := by
  have hlt : f.val < pow2 256 := Nat.lt_trans f.isLt (by decide)
  refine ⟨rfl, by simp [limbs, Nat.mod_lt], ?_⟩
  simp only [limbs, Nat.ofDigits_cons, Nat.ofDigits_nil]
  -- with the powers as numerals the goal is linear
  simp only [pow2, Nat.pow_eq, Nat.reducePow] at hlt ⊢
  omega

lemma shortString?_toNatBE (hne : bytes ≠ []) (hlen : bytes.length ≤ 31)
    (hall : bytes.all isShown) : (ofNat (toNatBE bytes)).shortString? =
      some (String.ofList (bytes.map fun b => Char.ofNat b.toNat)) := by
  have hval : (ofNat (toNatBE bytes)).val = toNatBE bytes := by
    refine Nat.mod_eq_of_lt (Nat.lt_trans (toNat_lt bytes.reverse) ?_)
    rw [length_reverse]
    exact Nat.lt_of_le_of_lt (Nat.pow_le_pow_right (by decide) hlen) (by decide)
  have hbytes : minimalBE (toNatBE bytes) = bytes := by
    cases bytes with
    | nil => contradiction
    | cons b rest =>
      refine minimalBE_toNatBE (fun hzero => ?_) rest
      subst hzero
      cases hall
  have hpos := length_pos_iff.2 hne
  rw [shortString?, hval, hbytes, if_neg (by omega), if_pos hall]

lemma ofShortString?_of_shortString? {f : Felt} {text : String} (h : f.shortString? = some text) :
    ofShortString? text = some f := by
  unfold shortString? at h
  dsimp only at h
  split at h
  · cases h
  · split at h
    · next hlen hall =>
      cases h
      rw [ofShortString?, ofString_ofList hall, if_pos (by omega), toNatBE_minimalBE]
      simp only [ofNat, Nat.mod_eq_of_lt f.isLt]
    · cases h

end Felt

/-- Integers in up to 32 bytes, field elements in bytes and limbs, and short strings. -/
theorem numbers_are_read_back :
    (∀ (n : Int) (size : Nat), size ≤ 32 → ∃ residue : Nat,
      (residue : Int) = n % (pow2 (8 * size) : Nat) ∧
      IsDigits 256 size residue ((Image.ofInt size n).map UInt8.toNat) ∧
      (Image.ofInt size n).word = residue) ∧
    (∀ f : Felt, IsDigits 256 32 f.val (f.toBytes.map UInt8.toNat) ∧ Felt.ofBytes f.toBytes = f ∧
      IsDigits (pow2 64) 4 f.val f.limbs) ∧
    (∀ text : String, 1 ≤ (ofString text).length → (ofString text).length ≤ 31 →
      (∀ b ∈ ofString text, 0x20 ≤ b ∧ b ≤ 0x7e) →
      ∃ f, Felt.ofShortString? text = some f ∧ f.shortString? = some text) ∧
    ∀ (f : Felt) (text : String), f.shortString? = some text → Felt.ofShortString? text = some f := by
  refine ⟨fun n size h => ?_, fun f => ?_, fun text hpos hlength hshown => ?_, fun f text =>
    Felt.ofShortString?_of_shortString?⟩
  · refine ⟨_, Word.ofInt_mod n h, ?_⟩
    rw [Image.ofInt, Image.ofWordSized, Int.toNat_natCast, if_pos h]
    exact ⟨isDigits_ofNat size _, word_ofNat h _⟩
  · have hbytes := isDigits_ofNat 32 f.val
    rw [Nat.mod_eq_of_lt (Nat.lt_trans f.isLt (by decide))] at hbytes
    exact ⟨hbytes, Value.ofBytes_toBytes f, f.isDigits_limbs⟩
  · have hall : (ofString text).all Felt.isShown = true := by simpa [Felt.isShown] using hshown
    have htext := ofString_injective (ofString_ofList hall)
    refine ⟨_, if_pos hlength, ?_⟩
    rw [Felt.shortString?_toNatBE (length_pos_iff.1 hpos) hlength hall, htext]

theorem minus_two_and_tilde_are_read_back :
    (Image.ofInt 2 (-2)).word = 0xfffe ∧
    (∃ f, Felt.ofShortString? "~" = some f ∧ f.shortString? = some "~") ∧
    Felt.ofShortString? "~" = some (Felt.ofNat 0x7e) := by
  obtain ⟨hints, -, hwrite, hread⟩ := numbers_are_read_back
  obtain ⟨residue, hresidue, -, hword⟩ := hints (-2) 2 (by decide)
  have hvalue : (-2 : Int) % (pow2 (8 * 2) : Nat) = (0xfffe : Nat) := by decide
  exact ⟨hword.trans (Int.ofNat_inj.1 (hresidue.trans hvalue)),
    hwrite "~" (by decide) (by decide) (forall_mem_singleton.2 (by decide)), hread _ _ (by decide)⟩

end Sierra
