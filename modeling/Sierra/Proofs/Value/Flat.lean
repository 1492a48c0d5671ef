import Sierra.Proofs.Value.Laid

/-!
# Values that hold no others

A value fits a description when it has its shapes (`fits`); counts, tags and ranges are looked at in
writing. Numbers and points are read back as written, field elements as their residues (`reduced`).
-/

namespace Sierra.Value

open List Bytes Option Except

/-- A value has the shapes of a description, all the way down. -/
def fits (ds : Descriptors) : Value → Descriptor → Bool
  | number sort n, d => d.shape = sort.shape && n.isSome
  | point sort _, d => d.shape = sort.shape
  | struct fields, d => d.shape = .struct && fitAll d.members fields
  | enum tag (some payload), d => d.shape = .enum && decide (tag < pow2 63) &&
      ((d.members[tag.toNat]?).bind ds.find?).any fun e => payload.fits ds e
  | array items, d => d.shape = .array && (ds.find? d.elem).any fun e => fitEach e items
  | box (some inner), d => d.shape = .box && (ds.find? d.elem).any fun e => inner.fits ds e
  | nullable none, d => d.shape = .nullable
  | nullable (some inner), d =>
    d.shape = .nullable && (ds.find? d.elem).any fun e => inner.fits ds e
  | uninit, d => d.shape = .uninit
  | _, _ => false
where
  fitAll : List Nat → List Value → Bool
    | [], [] => true
    | member :: members, v :: rest =>
      ((ds.find? member).any fun e => v.fits ds e) && fitAll members rest
    | _, _ => false
  fitEach (e : Descriptor) : List Value → Bool
    | [] => true
    | v :: rest => v.fits ds e && fitEach e rest
termination_by structural v => v

def reduced : Value → Value
  | number .felt n => number .felt (n.map (· % (Felt.prime : Int)))
  | number sort n => number sort n
  | point .ec coords => point .ec (coords.map (· % (Felt.prime : Int)))
  | point sort coords => point sort coords
  | struct fields => struct (reducedAll fields)
  | enum tag (some payload) => enum tag (some payload.reduced)
  | array items => array (reducedAll items)
  | box (some inner) => box (some inner.reduced)
  | nullable (some inner) => nullable (some inner.reduced)
  | v => v
where
  reducedAll : List Value → List Value
    | [] => []
    | v :: rest => v.reduced :: reducedAll rest
termination_by structural v => v

variable {ds : Descriptors} {d : Descriptor} {image : Bytes}

/-! ## Bytes -/

lemma fit_of_length {size : Nat} {bytes : Bytes} (h : bytes.length = size) :
    fit size bytes = bytes := by
  subst h
  simp [fit, zeros]

lemma toNat_ofNat_of_lt {size n : Nat} (h : n < pow256 size) : toNat (ofNat size n) = n := by
  rw [toNat_ofNat, Nat.mod_eq_of_lt h]

lemma Wide.lowBits_ofNat (hwide : d.Wide) {n : Nat} (hn : n < pow2 d.bits) :
    lowBits d.bits (ofNat d.size.toNat n) = n := by
  have hbytes : n < pow256 d.size.toNat := by
    refine Nat.lt_of_lt_of_le hn ?_
    show 2 ^ d.bits ≤ 256 ^ d.size.toNat
    rw [show 256 = 2 ^ 8 from rfl, ← Nat.pow_mul]
    exact Nat.pow_le_pow_right (by decide) hwide.2
  have hbits := hwide.1
  rw [lowBits, if_neg (by omega), toNat_ofNat_of_lt hbytes, Nat.mod_eq_of_lt hn]

lemma ofBytes_toBytes (f : Felt) : Felt.ofBytes f.toBytes = f := by
  have hbytes : Felt.prime < pow256 32 := by decide
  unfold Felt.ofBytes Felt.toBytes Felt.ofNat
  simp only [toNat_ofNat_of_lt (Nat.lt_trans f.isLt hbytes), Nat.mod_eq_of_lt f.isLt]

lemma val_ofInt (n : Int) : ((Felt.ofInt n).val : Int) = n % (Felt.prime : Int) := by
  have hpos : (0 : Int) < (Felt.prime : Int) := by exact_mod_cast Felt.prime_pos
  have hnonneg := Int.emod_nonneg n (Int.ne_of_gt hpos)
  have hlt := Int.emod_lt_of_pos n hpos
  show (((n % (Felt.prime : Int)).toNat % Felt.prime : Nat) : Int) = _
  rw [Nat.mod_eq_of_lt (by omega), Int.toNat_of_nonneg hnonneg]

/-! ## Parts of images -/

section Parts

variable {whole inner : Bytes} {offset : Int}

lemma length_place (h : offset.toNat + inner.length ≤ whole.length) :
    (place whole offset inner).length = whole.length := by
  simp only [place, length_append, length_take, length_drop]
  omega

lemma part_place (h : offset.toNat + inner.length ≤ whole.length) :
    part (place whole offset inner) offset.toNat inner.length = inner := by
  have htake : (whole.take offset.toNat).length = offset.toNat := by
    rw [length_take]
    omega
  rw [part, place, append_assoc, drop_left' htake, take_left' rfl]

lemma take_place {k : Nat} (hk : k ≤ offset.toNat) (h : offset.toNat ≤ whole.length) :
    (place whole offset inner).take k = whole.take k := by
  rw [place, append_assoc, take_append_of_le_length (by rw [length_take]; omega),
    take_take, Nat.min_eq_left hk]

lemma part_eq_of_take {k i n : Nat} (htake : image.take k = whole.take k)
    (hle : i + n ≤ k) : part image i n = part whole i n := by
  have hpart : ∀ b : Bytes, part b i n = ((b.take k).drop i).take n := by
    intro b
    rw [part, drop_take, take_take, Nat.min_eq_left (by omega)]
  rw [hpart, hpart, htake]

end Parts

/-! ## Numbers -/

lemma checkRange_eq_ok {n : Int} {u : Unit} (hok : checkRange d n = .ok u) {lo hi : Int}
    (hrange : d.range = some (lo, hi)) : lo ≤ n ∧ n ≤ hi := by
  unfold checkRange at hok
  rw [hrange] at hok
  dsimp only at hok
  split at hok
  · cases hok
  · omega

lemma decodeFlat_number {sort : NumberSort} {n : Int} (hlaid : d.Laid ds)
    (hshape : d.shape = sort.shape) (hok : encodeNumber d sort (some n) = .ok image) :
    image.length = d.size.toNat ∧ decodeFlat d image = some (reduced (number sort (some n))) := by
  unfold Descriptor.Laid at hlaid
  unfold encodeNumber at hok
  unfold decodeFlat
  cases sort <;> simp only [hshape, NumberSort.shape] at hlaid hok ⊢
  case felt =>
    obtain ⟨_, -, hok⟩ := except_bind_eq_ok.1 hok
    cases hok
    rw [hlaid, fit_of_length (by rfl : (Felt.toBytes _).length = _), ofBytes_toBytes, ofFelt,
      val_ofInt]
    exact ⟨rfl, rfl⟩
  case uint =>
    obtain ⟨hi, hrange, hhi, hwide⟩ := hlaid
    obtain ⟨_, hcheck, hok⟩ := except_bind_eq_ok.1 hok
    cases hok
    obtain ⟨hlo, hle⟩ := checkRange_eq_ok hcheck hrange
    refine ⟨length_ofNat _ _, ?_⟩
    rw [twos, if_neg (by omega), Wide.lowBits_ofNat hwide (by omega), Int.toNat_of_nonneg hlo]
    rfl
  case sint =>
    obtain ⟨hrange, hwide⟩ := hlaid
    obtain ⟨_, hcheck, hok⟩ := except_bind_eq_ok.1 hok
    cases hok
    obtain ⟨hlo, hle⟩ := checkRange_eq_ok hcheck hrange
    have hbits := hwide.1
    have hhalf : pow2 d.bits = 2 * pow2 (d.bits - 1) := by
      show 2 ^ d.bits = 2 * 2 ^ (d.bits - 1)
      rw [← Nat.pow_succ', Nat.succ_eq_add_one, Nat.sub_add_cancel hbits]
    refine ⟨length_ofNat _ _, ?_⟩
    unfold twos
    split
    all_goals
      rw [Wide.lowBits_ofNat hwide (by omega)]
      simp only [reduced, some.injEq, number.injEq, true_and]
      omega
  case bounded =>
    obtain ⟨lo, hi, hrange, hspan, hwide⟩ := hlaid
    obtain ⟨_, hcheck, hok⟩ := except_bind_eq_ok.1 hok
    obtain ⟨hlo, hle⟩ := checkRange_eq_ok hcheck hrange
    rw [hrange] at hok ⊢
    cases hok
    refine ⟨length_ofNat _ _, ?_⟩
    rw [Wide.lowBits_ofNat hwide (by omega)]
    simp only [reduced, some.injEq, number.injEq, true_and, elim_some]
    omega
  case builtin =>
    split at hok
    · cases hok
    cases hok
    rw [hlaid, show (8 : Int).toNat = 8 from rfl, fit_of_length (length_ofNat 8 _)]
    refine ⟨length_ofNat _ _, ?_⟩
    have hpow : pow256 8 = pow2 64 := by decide
    rw [take_of_length_le (Nat.le_of_eq (length_ofNat 8 _)),
      toNat_ofNat_of_lt (by omega), Int.toNat_of_nonneg (by omega)]
    rfl

/-! ## Points -/

lemma place_pair {x y : Bytes} (hx : x.length = 32) (hy : y.length = 32) :
    place (place (zeros 64) 0 x) 32 y = x ++ y := by
  have hfirst : place (zeros 64) 0 x = x ++ zeros 32 := by
    simp [place, zeros, hx]
  have hlong : (x ++ zeros 32).length = 64 := by
    rw [length_append, hx, length_zeros]
  rw [hfirst, place, show (32 : Int).toNat = 32 from rfl, take_left' hx,
    drop_eq_nil_of_le (by omega), append_nil]

lemma ofWideImage_wideImage {n : Nat} (hn : n < pow2 256) (tail : Bytes) :
    ofWideImage (wideImage n ++ tail) = n := by
  have hhalf : pow256 16 = pow2 128 := by decide
  have hwhole : pow2 256 = pow2 128 * pow2 128 := by decide
  have hhigh : n / pow2 128 < pow256 16 := by
    exact Nat.div_lt_of_lt_mul (hwhole ▸ hn)
  rw [ofWideImage, wideImage, append_assoc, take_left' (length_ofNat 16 _),
    drop_left' (length_ofNat 16 _), take_left' (length_ofNat 16 _),
    toNat_ofNat, toNat_ofNat_of_lt hhigh, hhalf]
  exact Nat.mod_add_div n (pow2 128)

lemma length_wideImage (n : Nat) : (wideImage n).length = 32 := by
  rw [wideImage, length_append, length_ofNat, length_ofNat]

lemma decodeFlat_point {sort : PointSort} {coords : List Int} (hlaid : d.Laid ds)
    (hshape : d.shape = sort.shape) (hok : encodePoint d sort coords = .ok image) :
    image.length = d.size.toNat ∧ decodeFlat d image = some (reduced (point sort coords)) := by
  unfold Descriptor.Laid at hlaid
  unfold encodePoint at hok
  unfold decodeFlat
  cases sort with
  | ec =>
    simp only [hshape, PointSort.shape] at hlaid hok ⊢
    obtain ⟨hsize, hoffsets⟩ := hlaid
    match coords, hok with
    | [x, y], hok =>
      have hlen : ∀ f : Felt, f.toBytes.length = 32 := fun f => length_ofNat 32 _
      cases hok
      simp only [hsize, hoffsets, zip_cons_cons, zip_nil_right, foldl_cons, foldl_nil]
      rw [show (64 : Int).toNat = 64 from rfl, place_pair (hlen _) (hlen _)]
      refine ⟨by rw [length_append, hlen, hlen], ?_⟩
      simp only [part, getElem?_cons_zero, getElem?_cons_succ, getD_some,
        Int.toNat_zero, drop_zero, show (32 : Int).toNat = 32 from rfl,
        take_left' (hlen _), drop_left' (hlen _), ofBytes_toBytes, val_ofInt,
        take_of_length_le (Nat.le_of_eq (hlen _))]
      rfl
  | secp =>
    simp only [hshape, PointSort.shape] at hlaid hok ⊢
    obtain ⟨hsize, hoffsets⟩ := hlaid
    match coords, hok with
    | [x, y], hok =>
      simp only [hsize, hoffsets, zip_cons_cons, zip_nil_right, foldlM_cons, foldlM_nil] at hok
      obtain ⟨_, hx, hok⟩ := except_bind_eq_ok.1 hok
      obtain ⟨_, hy, hok⟩ := except_bind_eq_ok.1 hok
      split at hx
      · cases hx
      split at hy
      · cases hy
      cases hx
      cases hy
      cases hok
      rw [show (64 : Int).toNat = 64 from rfl,
        place_pair (length_wideImage _) (length_wideImage _), hsize, hoffsets]
      refine ⟨by rw [length_append, length_wideImage, length_wideImage]; rfl, ?_⟩
      simp only [getElem?_cons_zero, getElem?_cons_succ, getD_some,
        Int.toNat_zero, drop_zero, show (32 : Int).toNat = 32 from rfl,
        drop_left' (length_wideImage _)]
      rw [ofWideImage_wideImage (by omega), ← append_nil (wideImage y.toNat),
        ofWideImage_wideImage (by omega), Int.toNat_of_nonneg (by omega),
        Int.toNat_of_nonneg (by omega)]
      rfl

end Sierra.Value
