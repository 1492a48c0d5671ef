import Mathlib.AlgebraicGeometry.EllipticCurve.Affine.Point
import Mathlib.FieldTheory.Finite.Basic
import Mathlib.NumberTheory.LucasPrimality
import Mathlib.Tactic.NormNum.Prime
import Sierra.Chain
import Sierra.Proofs.Loops

/-!
# Addition of points

Over a prime field, valid points are the coordinates of the points of a Weierstrass curve
(`valid_iff`), and their sum is the sum in its group (`add?_coordinates`). That the modulus of
`secp256r1` is prime is shown by a tree of numbers that generate the units modulo a factor.
-/

namespace Sierra

open Int WeierstrassCurve Affine

lemma Felt.powMod_eq (m b e : Nat) : powMod m b e = b ^ e % m := by
  fun_induction powMod m b e with
  | case1 => rw [pow_zero]
  | case2 e he half square heven ih =>
    show half * half % m = _
    rw [show half = _ from ih, ← Nat.mul_mod, ← pow_add, show e / 2 + e / 2 = e by omega]
  | case3 e he half square hodd ih =>
    show half * half % m * b % m = _
    rw [show half = _ from ih, ← Nat.mul_mod, ← pow_add, Nat.mod_mul_mod, ← pow_succ,
      show e / 2 + e / 2 + 1 = e by omega]

namespace Curve

/-- The point at infinity, or a point of the curve with reduced coordinates. -/
def Valid (c : Curve) (p : Point) : Prop := p = infinity ∨ c.inField p ∧ c.satisfies p

def opposite (c : Curve) (p : Point) : Point := (p.1, c.reduce (-p.2))

/-- The curve over the field of its prime. -/
def weierstrass (c : Curve) : Affine (ZMod c.prime) := ⟨0, 0, 0, c.a, c.b⟩

/-- How a point of the group is written down. -/
def coordinates (c : Curve) : c.weierstrass.Point → Point
  | .zero => infinity
  | .some x y _ => (x.val, y.val)

section Prime

variable {c : Curve} [hprime : Fact c.prime.Prime] {n : Int}

lemma reduce_eq (n : Int) : c.reduce n = ((n : ZMod c.prime).val : Int) := (ZMod.val_intCast n).symm

lemma reduce_eq_zero : c.reduce n = 0 ↔ (n : ZMod c.prime) = 0 := by
  rw [reduce_eq, natCast_eq_zero, ZMod.val_eq_zero]

/-- Division is that of the field, by the little theorem of Fermat. -/
lemma div?_eq (num den : Int) : c.div? num den =
    if (den : ZMod c.prime) = 0 then none else some ((num / den : ZMod c.prime).val : Int) := by
  unfold div?
  simp only [reduce_eq_zero]
  split
  · rfl
  next hden =>
  have hinverse : ((Felt.powMod c.prime (c.reduce den).toNat (c.prime - 2) : Nat) : ZMod c.prime) =
      (den : ZMod c.prime)⁻¹ := by
    have htwo := hprime.out.two_le
    rw [Felt.powMod_eq, ZMod.natCast_mod, Nat.cast_pow, reduce_eq, toNat_natCast,
      ZMod.natCast_zmod_val]
    refine eq_inv_of_mul_eq_one_left ?_
    rw [← pow_succ, show c.prime - 2 + 1 = c.prime - 1 by omega, ZMod.pow_card_sub_one_eq_one hden]
  rw [reduce_eq, cast_mul, cast_natCast, hinverse, reduce_eq, cast_natCast,
    ZMod.natCast_zmod_val, div_eq_mul_inv]

lemma satisfies_iff {p : Point} :
    c.satisfies p ↔ c.weierstrass.Equation (p.1 : ZMod c.prime) p.2 := by
  rw [equation_iff, satisfies, beq_iff_eq, reduce_eq, reduce_eq,
    natCast_inj, (ZMod.val_injective _).eq_iff]
  simp only [weierstrass]
  push_cast
  ring_nf

lemma valid_iff (hsmooth : c.weierstrass.Δ ≠ 0) {p : Point} :
    c.Valid p ↔ ∃ P, c.coordinates P = p := by
  constructor
  · rintro (rfl | ⟨hfield, hcurve⟩)
    · exact ⟨0, rfl⟩
    · have hpoint := (equation_iff_nonsingular_of_Δ_ne_zero hsmooth).1 (satisfies_iff.1 hcurve)
      simp only [inField, Bool.and_eq_true, decide_eq_true_eq] at hfield
      refine ⟨.some _ _ hpoint, ?_⟩
      rw [coordinates, ZMod.val_intCast, ZMod.val_intCast, emod_eq_of_lt (by omega) (by omega),
        emod_eq_of_lt (by omega) (by omega)]
  · rintro ⟨P, rfl⟩
    cases P with
    | zero => exact .inl rfl
    | some x y h =>
      have hx := ZMod.val_lt x
      have hy := ZMod.val_lt y
      refine .inr ⟨?_, satisfies_iff.2 ?_⟩
      · simp [inField, coordinates, -ZMod.natCast_val, hx, hy]
      · simpa [coordinates] using h.1

/-- The third point of a line, mirrored, is the one that the group law names. -/
lemma third_eq (slope x y x' y' : ZMod c.prime) :
    c.third slope.val (x.val, y.val) (x'.val, y'.val) =
      (((c.weierstrass.addX x x' slope).val : Int),
        ((c.weierstrass.addY x x' y slope).val : Int)) := by
  simp only [third, reduce_eq, cast_sub, cast_mul, cast_natCast, ZMod.natCast_zmod_val,
    addX, addY, negAddY, negY, weierstrass]
  ring_nf

lemma coordinates_neg (P : c.weierstrass.Point) :
    c.coordinates (-P) = c.opposite (c.coordinates P) := by
  cases P with
  | zero => simp [opposite, coordinates, ← Point.zero_def, infinity, reduce_eq]
  | some x y h =>
    rw [Point.neg_some]
    simp [opposite, coordinates, reduce_eq, negY, weierstrass]

variable (hb : (c.b : ZMod c.prime) ≠ 0)

include hb

/-- The curve does not pass through the coordinates that stand for infinity. -/
lemma coordinates_ne_infinity {x y : ZMod c.prime} (h : c.weierstrass.Nonsingular x y) :
    ((x.val : Int), (y.val : Int)) ≠ infinity := by
  intro hzero
  simp only [infinity, Prod.mk.injEq, natCast_eq_zero, ZMod.val_eq_zero] at hzero
  obtain ⟨rfl, rfl⟩ := hzero
  exact hb (equation_zero.1 h.1)

lemma coordinates_injective : Function.Injective c.coordinates := by
  intro P Q h
  cases P with
  | zero =>
    cases Q with
    | zero => rfl
    | some x y hpoint => exact absurd h.symm (coordinates_ne_infinity hb hpoint)
  | some x y hpoint =>
    cases Q with
    | zero => exact absurd h (coordinates_ne_infinity hb hpoint)
    | some x' y' _ =>
      simp only [coordinates, Prod.mk.injEq, natCast_inj, (ZMod.val_injective _).eq_iff] at h
      obtain ⟨rfl, rfl⟩ := h
      rfl

lemma add?_coordinates (P Q : c.weierstrass.Point) :
    c.add? (c.coordinates P) (c.coordinates Q) = some (c.coordinates (P + Q)) := by
  cases P with
  | zero =>
    show c.add? infinity _ = some (c.coordinates (0 + Q))
    rw [add?, if_pos rfl, zero_add]
  | some x y h =>
  have hne := coordinates_ne_infinity hb h
  cases Q with
  | zero =>
    show c.add? (x.val, y.val) infinity = some (c.coordinates (.some x y h + 0))
    rw [add?, add_zero, if_neg hne, if_pos rfl, coordinates]
  | some x' y' h' =>
  have hopposite : y = c.weierstrass.negY x' y' ↔ y + y' = 0 := by
    simp [negY, weierstrass, eq_neg_iff_add_eq_zero]
  simp only [coordinates, add?, if_neg hne, if_neg (coordinates_ne_infinity hb h'), natCast_inj,
    (ZMod.val_injective _).eq_iff, reduce_eq_zero, tangent?, chord?, div?_eq, cast_add,
    cast_sub, cast_mul, cast_natCast, ZMod.natCast_zmod_val, cast_ofNat]
  by_cases hx : x = x'
  · rw [if_pos hx]
    by_cases hy : y + y' = 0
    · rw [if_pos hy, Point.add_of_Y_eq hx (hopposite.2 hy)]
    · have hy' : y ≠ c.weierstrass.negY x' y' := mt hopposite.1 hy
      obtain rfl : y = y' := Y_eq_of_Y_ne h.1 h'.1 hx hy'
      have hslope : (3 * x * x + c.a) / (2 * y) = c.weierstrass.slope x x' y y := by
        rw [slope_of_Y_ne hx hy']
        simp only [negY, weierstrass]
        ring
      rw [if_neg hy, Point.add_of_Y_ne hy', if_neg (by rwa [two_mul]), Option.map_some, hslope,
        third_eq]
  · have hslope : (y' - y) / (x' - x) = c.weierstrass.slope x x' y y' := by
      rw [slope_of_X_ne hx, ← neg_sub y, ← neg_sub x, neg_div_neg_eq]
    rw [if_neg hx, Point.add_of_X_ne hx, if_neg (sub_ne_zero.2 (Ne.symm hx)), Option.map_some,
      hslope, third_eq]

end Prime

/-! ## The curve `secp256r1` -/

/-- Whether a number has the order `p - 1` modulo `p`. -/
def generates (p a : Nat) (factors : List Nat) : Bool :=
  1 < p && factors.prod == p - 1 && Felt.powMod p a (p - 1) == 1 &&
    factors.all fun q => Felt.powMod p a ((p - 1) / q) != 1

lemma prime_of_generates {p : Nat} (a : Nat) (factors : List Nat)
    (hprimes : ∀ q ∈ factors, q.Prime) (h : generates p a factors) : p.Prime := by
  simp only [generates, Felt.powMod_eq, Bool.and_eq_true, decide_eq_true_eq, beq_iff_eq,
    List.all_eq_true, bne_iff_ne] at h
  obtain ⟨⟨⟨htwo, hprod⟩, hone⟩, hpowers⟩ := h
  have hcast : ∀ n, (a : ZMod p) ^ n = 1 ↔ a ^ n % p = 1 := by
    intro n
    rw [← Nat.cast_pow, ← Nat.cast_one, ZMod.natCast_eq_natCast_iff', Nat.mod_eq_of_lt htwo]
  refine lucas_primality p a ((hcast _).2 hone) fun q hq hdvd => ?_
  rw [← hprod, Prime.dvd_prod_iff hq.prime] at hdvd
  obtain ⟨r, hr, hdvd⟩ := hdvd
  rw [(Nat.prime_dvd_prime_iff_eq hq (hprimes r hr)).1 hdvd, Ne, hcast]
  exact hpowers r hr

instance prime_secp256r1 : Fact secp256r1.prime.Prime := by
  have h₁ : Nat.Prime 34282281433 :=
    prime_of_generates 17 [2, 2, 2, 3, 7, 204061199] (by norm_num) (by decide +kernel)
  have h₂ : Nat.Prime 66417393611 :=
    prime_of_generates 6 [2, 5, 53, 173, 197, 3677] (by norm_num) (by decide +kernel)
  have h₃ : Nat.Prime 11290956913871 :=
    prime_of_generates 13 [2, 5, 17, 66417393611] (by simp [h₂]; norm_num) (by decide +kernel)
  have h₄ : Nat.Prime 46076956964474543 :=
    prime_of_generates 5 [2, 23, 18169, 78283, 704251] (by norm_num) (by decide +kernel)
  have h₅ : Nat.Prime 774023187263532362759620327192479577272145303 :=
    prime_of_generates 3 [2, 3, 3, 2411, 34282281433, 11290956913871, 46076956964474543]
      (by simp [h₁, h₃, h₄]; norm_num) (by decide +kernel)
  have h₆ : Nat.Prime 835945042244614951780389953367877943453916927241 :=
    prime_of_generates 11
      [2, 2, 2, 3, 3, 3, 5, 774023187263532362759620327192479577272145303]
      (by simp [h₅]; norm_num) (by decide +kernel)
  exact ⟨prime_of_generates 6 [2, 3, 5, 5, 17, 257, 641, 1531, 65537, 490463, 6700417,
    835945042244614951780389953367877943453916927241] (by simp [h₆]; norm_num) (by decide +kernel)⟩

lemma smooth_secp256r1 : secp256r1.weierstrass.Δ ≠ 0 := by
  have hdiscriminant : secp256r1.weierstrass.Δ =
      ((-(16 * (4 * secp256r1.a ^ 3 + 27 * secp256r1.b ^ 2)) : Int) : ZMod secp256r1.prime) := by
    simp only [Δ, b₂, b₄, b₆, b₈, weierstrass]
    push_cast
    ring
  rw [hdiscriminant, Ne, ZMod.intCast_zmod_eq_zero_iff_dvd]
  decide +kernel

/-- Valid points are the points of the curve, each written in one way, and they add up to their sum
in its group. So infinity is the unit, opposite points add up to it, and sums are valid and do not
depend on the order. -/
theorem valid_points_form_the_curve_group :
    Function.Injective secp256r1.coordinates ∧
    (∀ p, secp256r1.Valid p ↔ ∃ P, secp256r1.coordinates P = p) ∧
    (∀ P Q, secp256r1.add? (secp256r1.coordinates P) (secp256r1.coordinates Q) =
      some (secp256r1.coordinates (P + Q))) ∧
    ∀ p q : { p // secp256r1.Valid p },
      secp256r1.add? infinity p = some p.1 ∧ secp256r1.add? p infinity = some p.1 ∧
      secp256r1.add? p (secp256r1.opposite p) = some infinity ∧
      ∃ r, secp256r1.Valid r ∧ secp256r1.add? p q = some r ∧ secp256r1.add? q p = some r := by
  have hb : (secp256r1.b : ZMod secp256r1.prime) ≠ 0 := by
    rw [Ne, ZMod.natCast_eq_zero_iff]
    decide +kernel
  have hvalid := fun p => valid_iff smooth_secp256r1 (p := p)
  have hadd := add?_coordinates (c := secp256r1) hb
  have hzero : secp256r1.coordinates 0 = infinity := rfl
  refine ⟨coordinates_injective hb, hvalid, hadd, ?_⟩
  rintro ⟨p, hp⟩ ⟨q, hq⟩
  obtain ⟨P, rfl⟩ := (hvalid p).1 hp
  obtain ⟨Q, rfl⟩ := (hvalid q).1 hq
  refine ⟨?_, ?_, ?_, secp256r1.coordinates (P + Q), (hvalid _).2 ⟨_, rfl⟩, hadd P Q, ?_⟩
  · simpa only [zero_add, hzero] using hadd 0 P
  · simpa only [add_zero, hzero] using hadd P 0
  · rw [← coordinates_neg, hadd, add_neg_cancel, hzero]
  · rw [hadd, add_comm]

/-- The base point doubled. -/
example : secp256r1.add? (0x6b17d1f2e12c4247f8bce6e563a440f277037d812deb33a0f4a13945d898c296,
      0x4fe342e2fe1a7f9b8ee7eb4a7c0f9e162bce33576b315ececbb6406837bf51f5)
    (0x6b17d1f2e12c4247f8bce6e563a440f277037d812deb33a0f4a13945d898c296,
      0x4fe342e2fe1a7f9b8ee7eb4a7c0f9e162bce33576b315ececbb6406837bf51f5) = some
    (0x7cf27b188d034f7e8a52380304b51ac3c08969e277f21b35a60b48fc47669978,
      0x07775510db8ed040293d9ac69f7430dbba7dade63ce982299e04b79d227873d1) := by
  decide +kernel

/-! ## Points without a sum -/

lemma add?_eq_none_iff (c : Curve) (p q : Point) :
    c.add? p q = none ↔ p ≠ infinity ∧ q ≠ infinity ∧
      (p.1 = q.1 ∧ c.reduce (p.2 + q.2) ≠ 0 ∧ c.reduce (2 * p.2) = 0 ∨
        p.1 ≠ q.1 ∧ c.reduce (q.1 - p.1) = 0) := by
  unfold add? tangent? chord? div?
  split_ifs <;> simp [*]

end Curve

lemma Chain.pay_eq (cost : Nat) (f : Frame) :
    pay cost f = if f.gas < cost then .error (.because ["Out of gas"]) f
      else .ok () { f with gas := f.gas - cost } := by
  unfold pay Contract.charge
  rw [bind_of_ok (show (get : Call Frame) f = .ok f f from rfl)]
  by_cases hcost : f.gas < cost
  · rw [if_pos hcost, if_pos hcost]
    rfl
  · rw [if_neg hcost, if_neg hcost]
    rfl

open Curve in
/-- The host is lost if the first point is doubled at an ordinate that is zero modulo the prime, or
if different abscissas are the same modulo the prime. -/
theorem secp256r1_add_aborts_iff (p q : Point) (chain : Chain) (gas : Nat) :
    (∃ f, Chain.secpAdd .r1 p q ⟨chain, gas⟩ = .error (.abort (.crash none)) f) ↔
      (chain.costs.lookup "secp256r1_add").getD 0 ≤ gas ∧ p ≠ infinity ∧ q ≠ infinity ∧
        (p.1 = q.1 ∧ secp256r1.reduce (p.2 + q.2) ≠ 0 ∧ secp256r1.reduce (2 * p.2) = 0 ∨
          p.1 ≠ q.1 ∧ secp256r1.reduce (q.1 - p.1) = 0) := by
  rw [← add?_eq_none_iff]
  show (∃ f, EStateM.bind (Chain.pay ((chain.costs.lookup "secp256r1_add").getD 0)) _ _ = _) ↔ _
  rw [EStateM.bind, Chain.pay_eq]
  by_cases hgas : (chain.costs.lookup "secp256r1_add").getD 0 ≤ gas
  · rw [if_neg (Nat.not_lt.2 hgas)]
    cases secp256r1.add? p q with
    | some sum => simp [pure, EStateM.pure]
    | none => exact iff_of_true ⟨_, rfl⟩ ⟨hgas, rfl⟩
  · rw [if_pos (Nat.not_le.1 hgas)]
    simp [hgas, Refusal.because]

end Sierra
