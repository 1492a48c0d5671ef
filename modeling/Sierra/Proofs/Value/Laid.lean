import Sierra.Proofs.Value.Shows

/-!
# How described types lie in memory

`Descriptor.Laid`: numbers fit their bytes, parts of a struct lie one after another, the tag of an
enum before its payload, and elements are no closer than their size.
-/

namespace Sierra

open List

/-! ## Layouts -/

namespace Layout

variable {variants : List Layout}

lemma roundUp_bounds {n a : Int} (hn : 0 ≤ n) (hlim : n ≤ pow2 48) (ha : a ≤ 32) :
    n ≤ roundUp n a ∧ roundUp n a ≤ n + 32 := by
  unfold roundUp
  split
  · omega
  dsimp only
  split
  · omega
  have hpos : 0 ≤ n.tmod a := Int.tmod_nonneg a hn
  have hlt : n.tmod a < a := Int.tmod_lt_of_pos n (by omega)
  have hpow : ((pow2 48 : Nat) : Int) + 32 < pow2 63 := by decide
  rw [wrap64_eq (by omega) (by omega)]
  omega

def positions (stop : Int) : List Layout → List Int
  | [] => []
  | l :: rest =>
    roundUp stop (max 1 l.align) ::
      positions (wrap64 (roundUp stop (max 1 l.align) + l.size)) rest

lemma foldl_placeMember (members : List Layout) (size align : Int) (offsets : List Int) :
    (members.foldl placeMember (size, align, offsets)).2.2 =
      (positions size members).reverse ++ offsets := by
  induction members generalizing size align offsets with
  | nil => rfl
  | cons l members ih =>
    rw [foldl_cons, ih, positions, reverse_cons, append_assoc]
    rfl

lemma le_intBytes {bits : Nat} (h : bits ≤ 256) : bits ≤ 8 * (intBytes bits).toNat := by
  unfold intBytes
  split_ifs <;> omega

lemma intBytes_nonneg (bits : Int) : 0 ≤ intBytes bits := by
  unfold intBytes
  split_ifs <;> omega

lemma intBytes_le (bits : Int) : intBytes bits ≤ 32 := by
  unfold intBytes
  split_ifs <;> omega

lemma lt_tagBytes {tag n : Nat} (hn : tag < n) (hword : tag < pow2 63) :
    tag < pow256 (intBytes (tagBits n)).toNat := by
  have hpow : ∀ {bits bytes : Nat}, bits ≤ 8 * bytes → tag < pow2 bits → tag < pow256 bytes := by
    intro bits bytes hbits htag
    refine Nat.lt_of_lt_of_le htag ?_
    show 2 ^ bits ≤ 256 ^ bytes
    rw [show 256 = 2 ^ 8 from rfl, ← Nat.pow_mul]
    exact Nat.pow_le_pow_right (by decide) hbits
  by_cases hbits : tagBits n ≤ 256
  · refine hpow (le_intBytes hbits) ?_
    unfold tagBits
    split
    · show tag < 2 ^ 0
      omega
    · refine Nat.lt_of_le_of_lt ?_ Nat.lt_log2_self
      omega
  · have hlarge : intBytes (tagBits n) = 32 := by
      unfold intBytes
      split_ifs <;> omega
    rw [hlarge]
    exact @hpow 63 _ (by decide) hword

lemma foldl_align_le (hvariants : ∀ l ∈ variants, l.align ≤ 32) :
    variants.foldl (fun align v => max align (max 1 v.align)) 1 ≤ 32 :=
  foldl_max_le_iff.2 ⟨by decide, fun l hl => Int.max_le.2 ⟨by decide, hvariants l hl⟩⟩

lemma tagSize_le_payloadOffset (hvariants : ∀ l ∈ variants, l.align ≤ 32) :
    (Layout.enum variants).tagSize ≤ (Layout.enum variants).payloadOffset := by
  unfold Layout.enum
  split
  · exact Int.le_refl _
  · have hle := intBytes_le (tagBits variants.length)
    have hpow : (32 : Int) ≤ pow2 48 := by decide
    exact (roundUp_bounds (intBytes_nonneg _) (Int.le_trans hle hpow) (foldl_align_le hvariants)).1

lemma tagSize_enum (h : variants ≠ []) :
    (Layout.enum variants).tagSize = intBytes (tagBits variants.length) := by
  unfold Layout.enum
  rw [if_neg (by simpa using h)]

end Layout

/-! ## Descriptions -/

def Descriptors.Lays (ds : Descriptors) (id : Nat) (l : Layout) : Prop :=
  ∃ e, ds.find? id = some e ∧ e.size = l.size ∧ l.align ≤ 32

def Descriptor.Wide (d : Descriptor) : Prop := 0 < d.bits ∧ d.bits ≤ 8 * d.size.toNat

/-- What a description says of the bytes of a type. -/
def Descriptor.Laid (ds : Descriptors) (d : Descriptor) : Prop :=
  match d.shape with
  | .felt => d.size = 32
  | .uint => ∃ hi, d.range = some (0, hi) ∧ hi < pow2 d.bits ∧ d.Wide
  | .sint =>
    d.range = some (-(pow2 (d.bits - 1) : Int), (pow2 (d.bits - 1) : Int) - 1) ∧ d.Wide
  | .bounded => ∃ lo hi, d.range = some (lo, hi) ∧ hi - lo < pow2 d.bits ∧ d.Wide
  | .builtin => d.size = 8
  | .ecPoint | .secpPoint => d.size = 64 ∧ d.offsets = [0, 32]
  | .struct => ∃ layouts, List.Forall₂ ds.Lays d.members layouts ∧
      d.offsets = (Layout.struct layouts).offsets
  | .enum => ∃ layouts, List.Forall₂ ds.Lays d.members layouts ∧
      d.tagSize = (Layout.enum layouts).tagSize ∧
      d.payloadOffset = (Layout.enum layouts).payloadOffset
  | .array => d.size = 16 ∧ ∃ l, ds.Lays d.elem l ∧ d.stride = l.stride
  | .box | .nullable => d.size = 8 ∧ ∃ l, ds.Lays d.elem l ∧ d.stride = l.stride
  | .uninit | .invalid => True

def Descriptors.Laid (ds : Descriptors) : Prop :=
  ∀ id d, ds.find? id = some d → d.Laid ds

end Sierra
