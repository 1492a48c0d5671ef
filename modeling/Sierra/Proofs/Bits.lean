import Sierra.Proofs.Machine.Words

/-!
# Words as bit vectors

Arithmetic on words is done in 256 bits and cut to the width afterwards. Every width divides the
widest word, so cutting commutes with reduction (`mask_mod`), and signed readings agree at both
widths (`toSigned_signExtend`).
-/

namespace Sierra.Word

open Ir Option Int

variable {n x : Nat}

/-! ## The operations on bit vectors -/

/-- There is no value for a zero divisor. -/
def Binary.onBits (op : Binary) (x y : BitVec n) : Option (BitVec n) :=
  match op with
  | .add => some (x + y)
  | .sub => some (x - y)
  | .mul => some (x * y)
  | .udiv => if y = 0 then none else some (x / y)
  | .urem => if y = 0 then none else some (x % y)
  | .sdiv => if y = 0 then none else some (x.sdiv y)
  | .srem => if y = 0 then none else some (x.srem y)
  | .and => some (x &&& y)
  | .or => some (x ||| y)
  | .xor => some (x ^^^ y)
  | .shl => some (x <<< y.toNat)
  | .lshr => some (x >>> y.toNat)
  | .ashr => some (x.sshiftRight y.toNat)

def Binary.divides : Binary → Bool
  | .udiv | .urem | .sdiv | .srem => true
  | _ => false

/-- The operation whose remainder is taken. -/
def Modular.exact (op : Modular) (x y : Int) : Int :=
  match op with
  | .addmod => x + y
  | .submod => x - y
  | .mulmod => x * y

def Pred.onBits (p : Pred) (x y : BitVec n) : Bool :=
  match p with
  | .eq => x == y
  | .ne => x != y
  | .ult => x.ult y
  | .ule => x.ule y
  | .ugt => y.ult x
  | .uge => y.ule x
  | .slt => x.slt y
  | .sle => x.sle y
  | .sgt => y.slt x
  | .sge => y.sle x

def Cast.onBits (op : Cast) (m : Nat) (x : BitVec n) : BitVec m :=
  match op with
  | .sext => x.signExtend m
  | .zext | .trunc | .bitcast => x.setWidth m

/-! ## Cutting and signs -/

lemma pow2_dvd_modulus (h : n ≤ 256) : pow2 n ∣ modulus := Nat.pow_dvd_pow 2 h

lemma mask_eq_mod (h : n ≤ 256) (hx : x < modulus) : mask n x = x % pow2 n := by
  unfold mask
  split
  · obtain rfl : n = 256 := by omega
    exact (Nat.mod_eq_of_lt hx).symm
  · rfl

lemma mask_mod (h : n ≤ 256) (x : Nat) : mask n (x % modulus) = x % pow2 n := by
  rw [mask_eq_mod h (Nat.mod_lt x modulus_pos), Nat.mod_mod_of_dvd x (pow2_dvd_modulus h)]

lemma mask_toNat (x : BitVec n) : mask n x.toNat = x.toNat := mask_eq_self fun _ => x.isLt

lemma mask_ofInt (h : n ≤ 256) (i : Int) : mask n (ofInt i) = (BitVec.ofInt n i).toNat := by
  have hdvd : ((pow2 n : Nat) : Int) ∣ modulus := natCast_dvd_natCast.2 (pow2_dvd_modulus h)
  have hpos : (0 : Int) < modulus := natCast_pos.2 modulus_pos
  have hnonneg : 0 ≤ i % (modulus : Int) := Int.emod_nonneg i (Int.ne_of_gt hpos)
  calc mask n (ofInt i) = (i % (modulus : Int)).toNat % pow2 n := mask_eq_mod h (ofInt_lt i)
    _ = (i % (modulus : Int) % (pow2 n : Nat)).toNat :=
        (toNat_emod hnonneg (natCast_nonneg _)).symm
    _ = (i % (pow2 n : Nat)).toNat := by rw [emod_emod_of_dvd i hdvd]
    _ = (BitVec.ofInt n i).toNat := (BitVec.toNat_ofInt i).symm

lemma pow2_eq_double (hpos : 0 < n) : pow2 n = 2 * pow2 (n - 1) := by
  rw [show pow2 n = pow2 (n - 1 + 1) by rw [Nat.sub_add_cancel hpos]]
  exact Nat.pow_succ'

lemma toSigned_signExtend (hpos : 0 < n) (h : n ≤ 256) (x : BitVec n) :
    toSigned (signExtend n x.toNat) = x.toInt := by
  have hhalf := pow2_eq_double hpos
  have htop : modulus = 2 * pow2 255 := rfl
  have hle : pow2 (n - 1) ≤ pow2 255 := Nat.pow_le_pow_right (by decide) (by omega)
  have hlt : x.toNat < pow2 n := x.isLt
  have hint : x.toInt = if 2 * x.toNat < pow2 n then (x.toNat : Int) else x.toNat - (pow2 n : Nat) :=
    BitVec.toInt_eq_toNat_cond x
  have hext : signExtend n x.toNat =
      if x.toNat < pow2 (n - 1) then x.toNat else x.toNat + (modulus - pow2 n) := by
    unfold signExtend
    split
    · have hfull : modulus = pow2 n := by rw [show n = 256 by omega]; rfl
      split <;> omega
    · rw [Nat.mod_eq_of_lt hlt]
  rw [hint, hext, toSigned]
  split <;> split <;> split <;> omega

lemma ofInt_toSigned (hx : x < modulus) : ofInt (toSigned x) = x := by
  unfold ofInt toSigned
  split
  · rw [emod_eq_of_lt (by omega) (by omega), toNat_natCast]
  · rw [sub_emod_right, emod_eq_of_lt (by omega) (by omega), toNat_natCast]

lemma toInt_shiftRight (x : BitVec n) {s : Nat} (hs : n - 1 ≤ s) :
    x.toInt >>> s = if x.toInt < 0 then -1 else 0 := by
  have hlow : -((pow2 (n - 1) : Nat) : Int) ≤ x.toInt := by
    simpa using BitVec.le_toInt x
  have hhigh : x.toInt < (pow2 (n - 1) : Nat) := by
    simpa using BitVec.toInt_lt (x := x)
  have hle : ((pow2 (n - 1) : Nat) : Int) ≤ (pow2 s : Nat) :=
    ofNat_le.2 (Nat.pow_le_pow_right (by decide) hs)
  have hpos : (0 : Int) < (pow2 s : Nat) := natCast_pos.2 (Nat.pow_pos (by decide))
  rw [shiftRight_eq_div_pow]
  change x.toInt / (pow2 s : Nat) = _
  split
  · exact (ediv_eq_iff_of_pos hpos).2 (by omega)
  · exact ediv_eq_zero_of_lt (by omega) (by omega)

/-! ## Agreement -/

lemma modular_toNat (op : Modular) (x y : BitVec n) {m : BitVec n} (hm : m ≠ 0) :
    ∃ z : BitVec n, modular op n x.toNat y.toNat m.toNat = some z.toNat ∧
      (z.toNat : Int) = op.exact x.toNat y.toNat % m.toNat := by
  have hne : m.toNat ≠ 0 := fun h0 => hm (BitVec.eq_of_toNat_eq (by simpa using h0))
  have ha := Nat.mod_lt x.toNat (Nat.pos_of_ne_zero hne)
  have hb := Nat.mod_lt y.toNat (Nat.pos_of_ne_zero hne)
  have hexact : (modularWide op x.toNat y.toNat m.toNat : Int) =
      op.exact x.toNat y.toNat % m.toNat := by
    cases op with
    | addmod | mulmod => simp [modularWide, Modular.exact]
    | submod =>
      rw [Modular.exact, sub_emod, modularWide]
      split
      · rw [emod_eq_of_lt (by omega) (by omega)]
        omega
      · rw [← add_emod_right, emod_eq_of_lt (by omega) (by omega)]
        omega
  have hlt : modularWide op x.toNat y.toNat m.toNat < m.toNat := by
    have := emod_lt_of_pos (op.exact x.toNat y.toNat) (show (0 : Int) < m.toNat by omega)
    omega
  refine ⟨BitVec.ofNatLT _ (Nat.lt_trans hlt m.isLt), ?_, hexact⟩
  rw [modular, if_neg hne, mask_eq_self fun _ => Nat.lt_trans hlt m.isLt]
  rfl

section

variable (hpos : 0 < n) (h : n ≤ 256)

include h

lemma mask_sub (x y : BitVec n) :
    mask n ((x.toNat + (modulus - y.toNat)) % modulus) = (x - y).toNat := by
  obtain ⟨k, hk⟩ := pow2_dvd_modulus h
  have hy : y.toNat < pow2 n := y.isLt
  have hk' : 0 < k := Nat.pos_of_mul_pos_left (hk ▸ modulus_pos)
  have hsplit : pow2 n * k = pow2 n * (k - 1) + pow2 n := by
    rw [← Nat.mul_succ, Nat.succ_eq_add_one, Nat.sub_add_cancel hk']
  rw [mask_mod h, BitVec.toNat_sub, hk,
    show x.toNat + (pow2 n * k - y.toNat) = pow2 n - y.toNat + x.toNat + pow2 n * (k - 1) by omega]
  exact Nat.add_mul_mod_self_left _ _ _

include hpos

lemma mask_ofInt_signed (f : Int → Int → Int) (x y : BitVec n) :
    mask n (ofInt (f (toSigned (signExtend n x.toNat)) (toSigned (signExtend n y.toNat)))) =
      (BitVec.ofInt n (f x.toInt y.toInt)).toNat := by
  rw [toSigned_signExtend hpos h, toSigned_signExtend hpos h, mask_ofInt h]

lemma mask_sar (x y : BitVec n) :
    mask n (sar (signExtend n x.toNat) (min (if y.toNat < n then y.toNat else n) 255)) =
      (x.sshiftRight y.toNat).toNat := by
  rw [sar, toSigned_signExtend hpos h, mask_ofInt h]
  refine congrArg (fun i => (BitVec.ofInt n i).toNat) ((shiftRight_eq_div_pow _ _).symm.trans ?_)
  split
  · rw [Nat.min_eq_left (by omega)]
  · rw [toInt_shiftRight x (by omega), toInt_shiftRight x (by omega)]

lemma binary_toNat (op : Binary) (x y : BitVec n) :
    binary op n x.toNat y.toNat = (op.onBits x y).map BitVec.toNat := by
  have hzero : y.toNat = 0 ↔ y = 0 := by simp [← BitVec.toNat_inj]
  have hmin : min n 256 = n := Nat.min_eq_left h
  cases op <;> simp only [binary, binaryWide, Binary.onBits, hzero, hmin]
  case add => exact congrArg some ((mask_mod h _).trans (BitVec.toNat_add x y).symm)
  case sub => exact congrArg some (mask_sub h x y)
  case mul => exact congrArg some ((mask_mod h _).trans (BitVec.toNat_mul x y).symm)
  case udiv =>
    split
    · rfl
    · rw [← BitVec.toNat_udiv, map_some, mask_toNat, map_some]
  case urem =>
    split
    · rfl
    · rw [← BitVec.toNat_umod, map_some, mask_toNat, map_some]
  case sdiv =>
    split
    · rfl
    · rw [map_some, sdiv, mask_ofInt_signed hpos h tdiv]
      exact congrArg _ (congrArg _ (BitVec.eq_of_toInt_eq (by
        rw [BitVec.toInt_ofInt, BitVec.toInt_sdiv])))
  case srem =>
    split
    · rfl
    next hy =>
    have hne : signExtend n y.toNat ≠ 0 := fun h0 => by
      have hint := toSigned_signExtend hpos h y
      rw [h0] at hint
      exact hy (BitVec.eq_of_toInt_eq (hint.symm.trans (by simp [toSigned])))
    rw [map_some, srem, if_neg hne, mask_ofInt_signed hpos h tmod, map_some]
    rw [← BitVec.toInt_srem, BitVec.ofInt_toInt]
  case and => rw [← BitVec.toNat_and, map_some, mask_toNat, map_some]
  case or => rw [← BitVec.toNat_or, map_some, mask_toNat, map_some]
  case xor => rw [← BitVec.toNat_xor, map_some, mask_toNat, map_some]
  case shl =>
    split
    · exact congrArg some ((mask_mod h _).trans (BitVec.toNat_shiftLeft).symm)
    · next hy =>
      rw [BitVec.shiftLeft_eq_zero (by omega)]
      simp [mask]
  case lshr =>
    split
    · rw [← BitVec.toNat_ushiftRight, map_some, mask_toNat, map_some]
    · next hy =>
      rw [BitVec.ushiftRight_eq_zero (by omega)]
      simp [mask]
  case ashr => exact congrArg some (mask_sar hpos h x y)

lemma compare_toNat (p : Pred) (x y : BitVec n) : compare p n x.toNat y.toNat = p.onBits x y := by
  cases p <;> simp only [compare, Pred.onBits, toSigned_signExtend hpos h]
  case eq | ne => simp [bne, ← BitVec.toNat_inj, Bool.beq_eq_decide_eq]
  all_goals rfl

lemma cast_toNat (op : Cast) {m : Nat} (hm : m ≤ 256) (x : BitVec n) :
    cast op n m x.toNat = (op.onBits m x).toNat := by
  have hx : x.toNat < modulus :=
    Nat.lt_of_lt_of_le x.isLt (Nat.pow_le_pow_right (by decide) h)
  cases op with
  | sext =>
    rw [cast, ← ofInt_toSigned (signExtend_lt hx), toSigned_signExtend hpos h, mask_ofInt hm]
    rfl
  | _ =>
    rw [cast, mask_toNat, mask_eq_mod hm hx]
    exact (BitVec.toNat_setWidth m x).symm

end

/-- Arithmetic on words is arithmetic on bit vectors of their width. Only a zero divisor has no
result, and arithmetic modulo a number is exact. -/
theorem words_are_bit_vectors (hpos : 0 < n) (h : n ≤ 256) (x y : BitVec n) :
    (∀ op : Binary, (Code.binary op).evalBinary n x.toNat y.toNat = (op.onBits x y).map BitVec.toNat ∧
      ((Code.binary op).evalBinary n x.toNat y.toNat = none ↔ op.divides = true ∧ y = 0)) ∧
    (∀ p : Pred, evalPred (some p) n x.toNat y.toNat = p.onBits x y) ∧
    (∀ (op : Cast) (m : Nat), 0 < m → m ≤ 256 →
      (Code.cast op).evalCast n m x.toNat = (op.onBits m x).toNat) ∧
    ∀ (op : Modular) (m : BitVec n), m ≠ 0 → ∃ z : BitVec n,
      (Code.modular op).evalModular n x.toNat y.toNat m.toNat = some z.toNat ∧
        (z.toNat : Int) = op.exact x.toNat y.toNat % m.toNat := by
  refine ⟨fun op => ⟨binary_toNat hpos h op x y, ?_⟩, fun p => compare_toNat hpos h p x y,
    fun op m _ hm => cast_toNat hpos h op hm x, fun op m hm => modular_toNat op x y hm⟩
  rw [Code.evalBinary, binary_toNat hpos h, Option.map_eq_none_iff]
  cases op <;> simp [Binary.onBits, Binary.divides]

theorem words_are_bit_vectors_byte :
    0 < 8 ∧ 8 ≤ 256 ∧ (Code.binary .sdiv).evalBinary 8 128 255 = some 128 ∧
      (Code.binary .srem).evalBinary 8 128 0 = none := by
  have h (y : BitVec 8) := (words_are_bit_vectors (by decide) (by decide) 128#8 y).1
  exact ⟨by decide, by decide, (h 255#8 .sdiv).1, (h 0#8 .srem).2.2 ⟨rfl, rfl⟩⟩

end Sierra.Word
