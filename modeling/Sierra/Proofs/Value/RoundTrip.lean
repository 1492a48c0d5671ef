import Sierra.Proofs.Value.Encode
import Sierra.Proofs.Value.Flat
import Sierra.Proofs.Value.Tables

/-!
# Values are read back as they were written

The image shows the value on the part of the heap handed out while it was written (`shows_encode`).
Later blocks lie beyond that part.
-/

namespace Sierra.Value

open List Bytes Layout Heap Int
open Heap (Grows Agrees alloc write alloc_eq_ok write_eq_ok)
open encode (encodeFields encodeItems)
open Shows (fieldsShow itemsShow)
open fits (fitAll fitEach)
open reduced (reducedAll)

variable {c : Codec} {ds : Descriptors} {e : Descriptor} {h₂ : Heap} {size : Nat} {n : Int}
variable {bytes image : Bytes} {d : Descriptor} {h h' h₁ : Heap} {count id p : Nat} {s : Set Nat}
  {u : Unit} {v : Value}

lemma wrap64_of_le (h : 0 ≤ n) (hlim : n ≤ pow2 50) : wrap64 n = n :=
  wrap64_eq h (lt_of_le_of_lt hlim (by decide))

lemma address_eq (h : 0 ≤ n) (hlim : n ≤ pow2 50) : address n = n.toNat := by
  have hpow : ((pow2 50 : Nat) : Int) < (addressSpace : Nat) := by decide
  rw [address, emod_eq_of_lt h (by omega)]

/-! ## Headers -/

lemma toNat_part_arrayHeader (hcount : count < pow2 32) :
    toNat (part (arrayHeader p count) 8 4) = count := by
  rw [part, arrayHeader, append_assoc, drop_left' (length_ofNat 8 p),
    take_left' (length_ofNat 4 count), toNat_ofNat_of_lt hcount]

lemma length_arrayHeader (p count : Nat) : (arrayHeader p count).length = 16 := by
  simp [arrayHeader]

/-! ## Blocks -/

lemma reads_of_write (hcount : bytes.length = count) (hwrite : write p bytes h = .ok u h')
    (hs : ∀ a, p ≤ a → a < p + count → a ∈ s) : h'.Reads s p count bytes := by
  obtain ⟨haccess, rfl⟩ := write_eq_ok.1 hwrite
  subst hcount
  refine ⟨?_, (peek_poke _ _ _).symm, hs⟩
  have hplace := accessFault?_eq_none_iff.1 haccess
  exact accessFault?_eq_none_iff.2 hplace

lemma agrees_refl (s : Set Nat) (h : Heap) : Agrees s h h := ⟨le_refl _, fun _ _ => rfl⟩

lemma agrees_Ico (hgrows : h₁.Grows h₂) : Agrees (Set.Ico h.used h₁.used) h₁ h₂ :=
  ⟨hgrows.used, fun a ha => hgrows.bytes a ha.2⟩

/-! ## Parts -/

lemma Lays.size_eq {l : Layout}
    (hlays : ds.Lays id l) (he : ds.get id = .ok e) : e.size = l.size ∧ l.align ≤ 32 := by
  obtain ⟨e', he', hsize, halign⟩ := hlays
  rw [Descriptors.get_eq_ok, he'] at he
  cases he
  exact ⟨hsize, halign⟩

lemma tag_fits {layouts : List Layout} {tag : Int}
    {member : Nat} (hlays : Forall₂ ds.Lays d.members layouts)
    (htagSize : d.tagSize = (Layout.enum layouts).tagSize)
    (hoffset : d.payloadOffset = (Layout.enum layouts).payloadOffset) (htag : 0 ≤ tag)
    (hword : tag < pow2 63) (hmember : d.members[tag.toNat]? = some member) :
    d.tagSize ≤ d.payloadOffset ∧ tag.toNat < pow256 d.tagSize.toNat := by
  have haligns : ∀ l ∈ layouts, l.align ≤ 32 := by
    intro l hl
    obtain ⟨m, -, e, -, -, halign⟩ := (forall₂_mem hlays).2 l hl
    exact halign
  obtain ⟨hlt, -⟩ := List.getElem?_eq_some_iff.1 hmember
  rw [hlays.length_eq] at hlt
  rw [htagSize, hoffset, tagSize_enum (ne_nil_of_length_pos (by omega))]
  refine ⟨?_, lt_tagBytes hlt (by omega)⟩
  rw [← tagSize_enum (ne_nil_of_length_pos (by omega))]
  exact tagSize_le_payloadOffset haligns

lemma lt_of_alloc (halloc : alloc size h = .ok p h') : h.used < pow2 64 := by
  obtain ⟨hok, -, -⟩ := alloc_eq_ok.1 halloc
  have hroom := (allocFault?_eq_none hok).2.1
  have hlim : roomLimit < pow2 64 := by decide
  omega

lemma reads_block (hwrite : write p bytes h₁ = .ok u h') (hused : h.used ≤ p) :
    h'.Reads (Set.Ico h.used h'.used) p bytes.length bytes := by
  refine reads_of_write rfl hwrite fun a hle hlt => ⟨le_trans hused hle, ?_⟩
  obtain ⟨haccess, rfl⟩ := write_eq_ok.1 hwrite
  have hplace := accessFault?_eq_none_iff.1 haccess
  show a < h₁.used
  omega

lemma length_reducedAll (vs : List Value) : (reducedAll vs).length = vs.length := by
  induction vs with
  | nil => rfl
  | cons v vs ih => rw [reducedAll, length_cons, length_cons, ih]

lemma shows_contents (hsize : d.size = 8) (hroom : canHold e.size)
    (hheap : alignment ≤ h.used) (hgrows : h.Grows h₁)
    (halloc : alloc size h₁ = .ok h₁.used h₂) (hwrite : write h₁.used bytes h₂ = .ok u h')
    (himg : image = fit d.size.toNat (ofNat 8 h₁.used)) (hlength : bytes.length = e.size.toNat)
    (hshows : Shows c h₁ (Set.Ico h.used h₁.used) v e bytes) :
    image.length = d.size.toNat ∧ toNat (image.take 8) ≠ 0 ∧
      h'.Reads (Set.Ico h.used h'.used) (toNat (image.take 8)) (address e.size) bytes ∧
      Shows c h' (Set.Ico h.used h'.used) v e bytes := by
  have hptr : toNat (image.take 8) = h₁.used := by
    rw [himg, hsize, show (8 : Int).toNat = 8 from rfl, fit_of_length (length_ofNat 8 _),
      take_of_length_le (le_of_eq (length_ofNat 8 _)),
      toNat_ofNat_of_lt (lt_of_alloc halloc)]
  obtain ⟨hpos, hlim⟩ := canHold_iff.1 hroom
  have hpow : ((pow2 48 : Nat) : Int) ≤ pow2 50 := by decide
  have hlater := grows_of_write halloc (.refl h₂) hwrite
  have halign : 0 < alignment := by decide
  have hused := hgrows.used
  rw [hptr, address_eq hpos (le_trans hlim hpow), ← hlength]
  refine ⟨by rw [himg, length_fit], by omega, reads_block hwrite hused, ?_⟩
  exact hshows.carry (agrees_Ico hlater) (Set.Ico_subset_Ico_right hlater.used)

mutual

lemma shows_encode (hlaid : c.types.Laid) :
    ∀ {v : Value} {d : Descriptor} {h h' : Heap} {image : Bytes} {id : Nat},
      c.types.find? id = some d → canHold d.size → v.fits c.types d →
      alignment ≤ h.used → encode c d v h = .ok image h' →
      image.length = d.size.toNat ∧ Shows c h' (Set.Ico h.used h'.used) v.reduced d image
  | struct fields, d, h, h', image, id, hd, hroom, hfits, hheap, hok => by
    simp only [fits, Bool.and_eq_true, decide_eq_true_eq] at hfits
    obtain ⟨hshape, hall⟩ := hfits
    have hstruct := hlaid id d hd
    simp only [Descriptor.Laid, hshape] at hstruct
    obtain ⟨layouts, hlays, hoffsets⟩ := hstruct
    unfold Layout.struct at hoffsets
    dsimp only at hoffsets
    rw [foldl_placeMember, append_nil, reverse_reverse] at hoffsets
    rcases encode_struct hok with ⟨-, -, hfields⟩ | hblank
    · rw [hoffsets] at hfields
      obtain ⟨hlength, -, hshows⟩ := shows_encodeFields hlaid hlays hall (le_refl 0)
        (canHold_iff.1 hroom).1 hroom (length_zeros _) hheap hfields
      refine ⟨hlength, ?_⟩
      simp only [reduced, Shows]
      exact ⟨hshape, hoffsets ▸ hshows⟩
    · exact absurd (hshape.symm.trans hblank.shape) (by decide)
  | enum tag (some payload), d, h, h', image, id, hd, hroom, hfits, hheap, hok => by
    simp only [fits, Bool.and_eq_true, decide_eq_true_eq, Option.any_eq_true,
      Option.bind_eq_some_iff] at hfits
    obtain ⟨⟨hshape, hword⟩, e', ⟨member', hmember', he'⟩, hpayload⟩ := hfits
    have henum := hlaid id d hd
    simp only [Descriptor.Laid, hshape] at henum
    obtain ⟨layouts, hlays, htagSize, hpayloadOffset⟩ := henum
    rcases encode_enum hok with ⟨-, htag, member, e, inner, hmember, he, hholds, hinner, rfl⟩ |
      hblank
    · cases hmember'.symm.trans hmember
      cases he'.symm.trans (Descriptors.get_eq_ok.1 he)
      obtain ⟨hoffset, hpos, hend⟩ := holds_iff.1 hholds
      obtain ⟨hroom₀, hroom₁⟩ := canHold_iff.1 hroom
      obtain ⟨hlength, hshows⟩ := shows_encode hlaid he' (canHold_iff.2 (by omega)) hpayload
        hheap hinner
      obtain ⟨hpre, hfit⟩ := tag_fits hlays htagSize hpayloadOffset htag hword hmember
      have hzero : (0 : Int).toNat + (ofNat d.tagSize.toNat tag.toNat).length ≤
          (zeros d.size.toNat).length := by
        simp only [toNat_zero, length_ofNat, length_zeros]
        omega
      have htagged := (length_place hzero).trans (length_zeros _)
      have htake := part_place hzero
      rw [part, Int.toNat_zero, drop_zero, length_ofNat] at htake
      generalize place (zeros d.size.toNat) 0 (ofNat d.tagSize.toNat tag.toNat) = tagged
        at htagged htake ⊢
      have hplace : d.payloadOffset.toNat + inner.length ≤ tagged.length := by omega
      refine ⟨(length_place hplace).trans htagged, ?_⟩
      simp only [reduced, Shows]
      refine ⟨hshape, ?_, member', e', hmember, he, ?_, ?_⟩
      · rw [take_place (by omega) (by omega), htake, toNat_ofNat_of_lt hfit,
          Int.toNat_of_nonneg htag]
      · rw [length_place hplace, htagged]
        exact hholds
      · rw [← hlength, part_place hplace]
        exact hshows
    · exact absurd (hshape.symm.trans hblank.shape) (by decide)
  | array items, d, h, h', image, id, hd, hroom, hfits, hheap, hok => by
    simp only [fits, Bool.and_eq_true, decide_eq_true_eq, Option.any_eq_true] at hfits
    obtain ⟨hshape, e', he', hall⟩ := hfits
    have harray := hlaid id d hd
    simp only [Descriptor.Laid, hshape] at harray
    obtain ⟨hsize, l, hlay, hstride⟩ := harray
    rcases encode_array hok with ⟨-, hcount, ⟨rfl, rfl, rfl⟩ | hitems⟩ | hblank
    · refine ⟨by rw [length_arrayHeader, hsize]; rfl, ?_⟩
      simp only [reduced, reducedAll, Shows]
      exact ⟨hshape, toNat_part_arrayHeader hcount, .inl trivial⟩
    · obtain ⟨e, bytes, h₁, h₂, he, hhas, halloc, hblock, hitems, hwrite, rfl⟩ := hitems
      cases he'.symm.trans (Descriptors.get_eq_ok.1 he)
      obtain ⟨hesize, halign⟩ := Lays.size_eq hlay he
      obtain ⟨hlength, hbound, hshows⟩ := shows_encodeItems hlaid he' hesize halign hstride hblock
        hall (by simp) (by simp) (Nat.le_trans hheap (grows_of_alloc halloc).used) hitems
      refine ⟨by rw [length_arrayHeader, hsize]; rfl, ?_⟩
      simp only [reduced, Shows, toNat_part_arrayHeader hcount, length_reducedAll]
      refine ⟨hshape, trivial, ?_⟩
      by_cases hempty : items = []
      · exact .inl (by rw [hempty, reducedAll])
      obtain ⟨hpos, hlim⟩ := hbound hempty
      obtain ⟨hblock₁, -, rfl⟩ := alloc_eq_ok.1 halloc
      have halign₀ : 0 < alignment := by decide
      -- the items fill the block and no more
      have hfull : address (d.stride * items.length) = bytes.length := by
        rw [Nat.zero_add, mul_comm] at hlim
        rw [address_eq (Int.mul_nonneg hpos (by omega)) hlim, hlength,
          toNat_mul hpos (by omega), toNat_natCast, Nat.mul_comm]
      have hfits := (allocFault?_eq_none hblock₁).1
      rw [arrayHeader, append_assoc, take_left' (length_ofNat 8 _),
        toNat_ofNat_of_lt (lt_of_alloc halloc), hfull]
      refine .inr ⟨by omega, hhas, e', bytes, he, reads_block hwrite (Nat.le_refl _), ?_⟩
      obtain ⟨-, rfl⟩ := write_eq_ok.1 hwrite
      have hagrees : Agrees (Set.Ico (h.extend (address (d.stride * items.length))).used
          h₂.used) h₂ (h₂.poke h.used bytes) := by
        refine ⟨Nat.le_refl _, fun a ha => byteAt_storeFrom_of_outside (.inr ?_)⟩
        have hbeyond : h.used + rounded (address (d.stride * items.length)) ≤ a := ha.1
        omega
      exact itemsShow_carry hagrees (Set.Ico_subset_Ico_left (Nat.le_add_right _ _))
        (hshows [] (by simp))
    · exact absurd (hshape.symm.trans hblank.shape) (by decide)
  | box (some inner), d, h, h', image, id, hd, hroom, hfits, hheap, hok
  | nullable (some inner), d, h, h', image, id, hd, hroom, hfits, hheap, hok => by
    simp only [fits, Bool.and_eq_true, decide_eq_true_eq, Option.any_eq_true] at hfits
    obtain ⟨hshape, e', he', hv⟩ := hfits
    have hbox := hlaid id d hd
    simp only [Descriptor.Laid, hshape] at hbox
    rcases encode_inner inner (by simp) hok with
      ⟨-, e, bytes, h₁, h₂, he, hhas, hfit, hinner, halloc, hwrite, himg⟩ | hblank
    · cases he'.symm.trans (Descriptors.get_eq_ok.1 he)
      obtain ⟨hlength, hshows⟩ := shows_encode hlaid he' hfit hv hheap hinner
      obtain ⟨hlen, hp, hread, hinner⟩ := shows_contents hbox.1 hfit hheap (grows_encode hinner)
        halloc hwrite himg hlength hshows
      simp only [reduced, Shows]
      exact ⟨hlen, hshape, hp, hhas, e', bytes, he, hread, hinner⟩
    · exact absurd (hshape.symm.trans hblank.shape) (by decide)
  | nullable none, d, h, h', image, id, hd, hroom, hfits, hheap, hok => by
    simp only [fits, decide_eq_true_eq] at hfits
    obtain ⟨rfl, rfl⟩ := encode_null hok
    refine ⟨length_zeros _, ?_⟩
    simp only [reduced, Shows]
    exact ⟨hfits, toNat_take_zeros _ _⟩
  | number sort n, d, h, h', image, id, hd, hroom, hfits, hheap, hok => by
    simp only [fits, Bool.and_eq_true, decide_eq_true_eq, Option.isSome_iff_exists] at hfits
    obtain ⟨hshape, n, rfl⟩ := hfits
    rw [encode] at hok
    rcases flat_eq_ok hok with ⟨himg, rfl⟩ | hblank
    · obtain ⟨hlength, hflat⟩ := decodeFlat_number (hlaid id d hd) hshape himg
      exact ⟨hlength, by cases sort <;> simpa only [reduced, Shows] using hflat⟩
    · exact absurd (hshape.symm.trans hblank.shape) (by cases sort <;> decide)
  | point sort coords, d, h, h', image, id, hd, hroom, hfits, hheap, hok => by
    simp only [fits, decide_eq_true_eq] at hfits
    rw [encode] at hok
    rcases flat_eq_ok hok with ⟨himg, rfl⟩ | hblank
    · obtain ⟨hlength, hflat⟩ := decodeFlat_point (hlaid id d hd) hfits himg
      exact ⟨hlength, by cases sort <;> simpa only [reduced, Shows] using hflat⟩
    · exact absurd (hfits.symm.trans hblank.shape) (by cases sort <;> decide)
  | uninit, d, h, h', image, id, hd, hroom, hfits, hheap, hok => by
    simp only [fits, decide_eq_true_eq] at hfits
    rw [encode] at hok
    rw [(blank_of_other hok).image]
    refine ⟨length_zeros _, ?_⟩
    simp only [reduced, Shows, decodeFlat, hfits]
  | enum tag none, _, _, _, _, _, _, _, hfits, _, _
  | box none, _, _, _, _, _, _, _, hfits, _, _ | invalid, _, _, _, _, _, _, _, hfits, _, _ => by
    simp [fits] at hfits

lemma shows_encodeFields (hlaid : c.types.Laid) :
    ∀ {fields : List Value} {d : Descriptor} {members : List Nat} {layouts : List Layout}
      {stop : Int} {index : Nat} {start image : Bytes} {h h' : Heap},
      Forall₂ c.types.Lays members layouts → fitAll c.types members fields →
      0 ≤ stop → stop ≤ d.size → canHold d.size → start.length = d.size.toNat →
      alignment ≤ h.used →
      encodeFields c d (members.zip (positions stop layouts)) index start fields h =
        .ok image h' →
      image.length = d.size.toNat ∧ image.take stop.toNat = start.take stop.toNat ∧
        fieldsShow c h' (Set.Ico h.used h'.used) image
          (members.zip (positions stop layouts)) (reducedAll fields)
  | [], d, _, _, stop, index, start, image, h, h', .nil, hfits, _, _, _, hstart, hheap, hok => by
    rw [encodeFields] at hok
    obtain ⟨rfl, rfl⟩ := pure_eq_ok.1 hok
    refine ⟨hstart, rfl, ?_⟩
    simp only [zip_nil_left, reducedAll, fieldsShow]
  | v :: rest, d, member :: members, l :: layouts, stop, index, start, image, h, h',
      .cons hlay hlays, hfits, hstop, hstopd, hroom, hstart, hheap, hok => by
    simp only [fitAll, Bool.and_eq_true, Option.any_eq_true] at hfits
    obtain ⟨⟨e', he', hv⟩, hrest⟩ := hfits
    obtain ⟨e, inner, h₁, he, hholds, hinner, hok⟩ := encodeFields_cons hok
    obtain ⟨hsize, halign⟩ := Lays.size_eq hlay he
    cases he'.symm.trans (Descriptors.get_eq_ok.1 he)
    obtain ⟨hroom₀, hroom₁⟩ := canHold_iff.1 hroom
    have hle : stop ≤ roundUp stop (max 1 l.align) :=
      (roundUp_bounds hstop (le_trans hstopd hroom₁) (by omega)).1
    rw [positions, zip_cons_cons]
    generalize roundUp stop (max 1 l.align) = offset at hle hholds hok ⊢
    obtain ⟨hoffset, hpos, hend⟩ := holds_iff.1 hholds
    obtain ⟨hlength, hshows⟩ := shows_encode hlaid he' (canHold_iff.2 (by omega)) hv hheap hinner
    have hpow : ((pow2 48 : Nat) : Int) ≤ pow2 50 := by decide
    rw [← hsize, wrap64_of_le (by omega) (by omega)] at hok ⊢
    have hplace : offset.toNat + inner.length ≤ start.length := by omega
    have hgrows := grows_encodeFields hok
    obtain ⟨himg, htake, hfields⟩ := shows_encodeFields hlaid hlays hrest (by omega) (by omega)
      hroom ((length_place hplace).trans hstart) (le_trans hheap (grows_encode hinner).used) hok
    refine ⟨himg, ?_, ?_⟩
    · have hpre := congrArg (take stop.toNat) htake
      rw [take_take, take_take, min_eq_left (by omega), take_place (by omega) (by omega)] at hpre
      exact hpre
    · have hpart : part image offset.toNat e'.size.toNat = inner := by
        rw [part_eq_of_take htake (by omega), ← hlength, part_place hplace]
      simp only [reducedAll, fieldsShow]
      refine ⟨⟨e', he, by rw [himg]; exact hholds, ?_⟩, ?_⟩
      · rw [hpart]
        exact hshows.carry (agrees_Ico hgrows) (Set.Ico_subset_Ico_right hgrows.used)
      · exact fieldsShow_carry (agrees_refl _ _)
          (Set.Ico_subset_Ico_left (grows_encode hinner).used) hfields
  | _ :: _, d, [], _, _, _, _, _, _, _, _, hfits, _, _, _, _, _, _
  | [], d, _ :: _, _, _, _, _, _, _, _, _, hfits, _, _, _, _, _, _ => by
    simp [fitAll] at hfits

lemma shows_encodeItems (hlaid : c.types.Laid) :
    ∀ {items : List Value} {d e : Descriptor} {l : Layout} {id room index : Nat} {bytes : Bytes}
      {h h' : Heap}, c.types.find? id = some e → e.size = l.size → l.align ≤ 32 →
      d.stride = l.stride → canHold room → fitEach c.types e items →
      0 ≤ index * d.stride → index * d.stride ≤ pow2 50 → alignment ≤ h.used →
      encodeItems c d e room index items h = .ok bytes h' →
      bytes.length = items.length * d.stride.toNat ∧
        (items ≠ [] → 0 ≤ d.stride ∧ (index + items.length : Nat) * d.stride ≤ pow2 50) ∧
        ∀ before : Bytes, before.length = (index * d.stride).toNat →
          itemsShow c h' (Set.Ico h.used h'.used) d.stride e (before ++ bytes) index
            (reducedAll items)
  | [], d, e, l, id, room, index, bytes, h, h', _, _, _, _, _, _, _, _, _, hok => by
    rw [encodeItems] at hok
    obtain ⟨rfl, rfl⟩ := pure_eq_ok.1 hok
    refine ⟨by simp, fun hne => absurd rfl hne, fun before _ => ?_⟩
    simp only [reducedAll, itemsShow]
  | v :: rest, d, e, l, id, room, index, bytes, h, h', he, hsize, halign, hstride, hroom, hfits,
      hidx, hlim, hheap, hok => by
    simp only [fitEach, Bool.and_eq_true] at hfits
    obtain ⟨hv, hrest⟩ := hfits
    obtain ⟨inner, tail, h₁, hholds, hinner, htail, rfl⟩ := encodeItems_cons hok
    rw [wrap64_of_le hidx hlim] at hholds
    obtain ⟨-, hpos, hend⟩ := holds_iff.1 hholds
    obtain ⟨-, hroom₁⟩ := canHold_iff.1 hroom
    obtain ⟨hfit, hnear⟩ : l.size ≤ l.stride ∧ l.stride ≤ l.size + 32 :=
      roundUp_bounds (hsize ▸ hpos) (by omega) (by omega)
    rw [← hstride, ← hsize] at hfit hnear
    have hpow : ((pow2 48 : Nat) : Int) + 32 ≤ pow2 50 := by decide
    have hnext : ((index + 1 : Nat) : Int) * d.stride = index * d.stride + d.stride := by
      rw [Int.natCast_add, Int.add_mul, Int.natCast_one, Int.one_mul]
    obtain ⟨hlength, hshows⟩ := shows_encode hlaid he (canHold_iff.2 (by omega)) hv hheap hinner
    have hgrows := grows_encodeItems htail
    obtain ⟨hcount, hbound, hitems⟩ := shows_encodeItems hlaid he hsize halign hstride hroom hrest
      (by rw [hnext]; omega) (by rw [hnext]; omega)
      (Nat.le_trans hheap (grows_encode hinner).used) htail
    refine ⟨?_, fun _ => ⟨by omega, ?_⟩, fun before hpre => ?_⟩
    · rw [length_append, length_fit, hcount, length_cons, Nat.succ_mul]
      omega
    · by_cases hlast : rest = []
      · rw [hlast, length_singleton, hnext]
        omega
      · rw [length_cons, add_comm rest.length 1, ← add_assoc]
        exact (hbound hlast).2
    · have hwhole := hitems (before ++ fit d.stride.toNat inner)
        (by rw [length_append, length_fit, hpre, hnext]; omega)
      rw [append_assoc] at hwhole
      have hpart : part (before ++ (fit d.stride.toNat inner ++ tail))
          (index * d.stride).toNat e.size.toNat = inner := by
        rw [part, drop_left' hpre, fit, append_assoc,
          take_of_length_le (show inner.length ≤ d.stride.toNat by omega),
          take_left' hlength]
      simp only [reducedAll, itemsShow, wrap64_of_le hidx hlim, hpart]
      refine ⟨⟨holds_iff.2 ⟨hidx, hpos, ?_⟩, ?_⟩, ?_⟩
      · simp only [length_append, length_fit, hpre]
        omega
      · exact hshows.carry (agrees_Ico hgrows) (Set.Ico_subset_Ico_right hgrows.used)
      · exact itemsShow_carry (agrees_refl _ _)
          (Set.Ico_subset_Ico_left (grows_encode hinner).used) hwhole

end

/-! ## Later -/

/-- A heap after any number of blocks were handed out and values were written. -/
inductive Later (h : Heap) : Heap → Prop
  | same : Later h h
  | alloc {h₁ h₂ : Heap} {size p : Nat} (hbefore : Later h h₁)
      (hok : Heap.alloc size h₁ = .ok p h₂) : Later h h₂
  | encode {h₁ h₂ : Heap} {c : Codec} {id : Nat} {v : Value} {image : Bytes}
      (hbefore : Later h h₁) (hok : c.encode id v h₁ = .ok image h₂) : Later h h₂

lemma Codec.encode_eq_ok (hok : c.encode id v h = .ok image h') : ∃ d, c.types.find? id = some d ∧
      canHold d.size ∧ Value.encode c d v h = .ok image h' := by
  obtain ⟨d, hd, hok⟩ := lift_bind_eq_ok.1 hok
  obtain ⟨hroom, hok⟩ := check_bind_eq_ok.1 hok
  exact ⟨d, Descriptors.get_eq_ok.1 hd, hroom, hok⟩

lemma Later.grows (hlater : Later h h') : h.Grows h' := by
  induction hlater with
  | same => exact .refl h
  | alloc _ hok ih => exact ih.trans (grows_of_alloc hok)
  | encode _ hok ih =>
    obtain ⟨d, -, -, hok⟩ := Codec.encode_eq_ok hok
    exact ih.trans (grows_encode hok)

lemma Shows.codec_decode {rank : Descriptor → Nat} (hfalls : c.types.Falls rank)
    (hd : c.types.find? id = some d) (hpos : 0 ≤ d.size) (hlength : image.length = d.size.toNat)
    (hrank : rank d < c.types.entries.length + 1) (hshows : Shows c h s v d image) :
    c.decode id image h = .ok v h := by
  refine lift_bind_eq_ok.2 ⟨d, Descriptors.get_eq_ok.2 hd, ?_⟩
  rw [if_neg (by omega)]
  refine bind_eq_ok.2 ⟨image, h, partOf_eq_ok.2
    ⟨holds_iff.2 ⟨le_refl 0, hpos, by omega⟩, ?_, rfl⟩, ?_⟩
  · rw [part, toNat_zero, drop_zero, take_of_length_le (le_of_eq hlength)]
  · exact hshows.decode_eq hfalls hd hrank

/-- A value that was written is read back, field elements as residues, also after other values
were written and other blocks handed out. -/
theorem written_values_are_read_back {program : Program} {s : Settled}
    (hs : Settled.ofProgram program = .ok s) (htable : s.types.Tabulated c.types)
    (hnarrow : c.types.narrow = true) {id : Nat} {d : Descriptor}
    (hd : c.types.find? id = some d) {v : Value} (hfits : v.fits c.types d = true) {h h' h'' : Heap}
    (hheap : Heap.alignment ≤ h.used) {image : Bytes} (hok : c.encode id v h = .ok image h')
    (hlater : Later h' h'') : c.decode id image h'' = .ok v.reduced h'' := by
  have hsound := Settled.sound_ofProgram hs
  obtain ⟨roots, hroots⟩ : ∃ roots, c.types = s.types.descriptorsFor roots :=
    htable.elim (fun h => ⟨_, h.trans hsound.descriptorsFor_order.symm⟩) fun h => h
  have hlaid : c.types.Laid := by
    rw [hroots] at hnarrow ⊢
    exact hsound.laid hnarrow
  have hfalls : c.types.Falls (s.types.earlier c.types) := by
    rw [hroots]
    exact hsound.falls roots
  obtain ⟨d', hd', hroom, hok⟩ := Codec.encode_eq_ok hok
  cases hd'.symm.trans hd
  obtain ⟨hlength, hshows⟩ := shows_encode hlaid hd hroom hfits hheap hok
  refine Shows.codec_decode hfalls hd (Bytes.canHold_iff.1 hroom).1 hlength
    (Nat.lt_succ_of_lt (Types.earlier_lt hd)) (hshows.carry ?_ (Set.Subset.refl _))
  exact agrees_Ico hlater.grows

/-- Boxes of choices between a number and a record of a number and a list. -/
def nested : Program where
  types := [
    { id := ⟨0, ""⟩, generic := "felt252" },
    { id := ⟨1, ""⟩, generic := "Array", args := [.type ⟨0, ""⟩] },
    { id := ⟨2, ""⟩, generic := "Struct",
      args := [.userType ⟨0, "Row"⟩, .type ⟨0, ""⟩, .type ⟨1, ""⟩] },
    { id := ⟨3, ""⟩, generic := "Enum",
      args := [.userType ⟨1, "Cell"⟩, .type ⟨0, ""⟩, .type ⟨2, ""⟩] },
    { id := ⟨4, ""⟩, generic := "Box", args := [.type ⟨3, ""⟩] }]

/-- A box with a record, whose first number is given as a negative one. -/
def nestedValue : Value :=
  box (some (enum 1 (some (struct [number .felt (some (-1)),
    array [number .felt (some 7), number .felt (some 8)]]))))

def isWritable (program : Program) (id : Nat) (v : Value) (h : Heap) : Bool :=
  match Settled.ofProgram program with
  | .error _ => false
  | .ok s =>
    let c : Codec := { types := s.types.descriptors }
    c.types.narrow && ((c.types.find? id).any fun d => v.fits c.types d) &&
      match c.encode id v h with
      | .error _ _ => false
      | .ok _ h' =>
        match c.encode id v h' with
        | .error _ _ => false
        | .ok _ _ => true

theorem nested_value_is_read_back : ∃ s image other h' h'', Settled.ofProgram nested = .ok s ∧
    Codec.encode { types := s.types.descriptors } 4 nestedValue (.new 0) = .ok image h' ∧
    Codec.encode { types := s.types.descriptors } 4 nestedValue h' = .ok other h'' ∧
    Codec.decode { types := s.types.descriptors } 4 image h'' =
      .ok (box (some (enum 1 (some (struct [number .felt (some (Felt.prime - 1)),
        array [number .felt (some 7), number .felt (some 8)]]))))) h'' := by
  have hwritable : isWritable nested 4 nestedValue (.new 0) = true := by decide +kernel
  unfold isWritable at hwritable
  split at hwritable
  · cases hwritable
  next s hs =>
  simp only [Bool.and_eq_true, Option.any_eq_true] at hwritable
  obtain ⟨⟨hnarrow, d, hd, hfits⟩, hwritten⟩ := hwritable
  split at hwritten
  · cases hwritten
  next image h' hok =>
  split at hwritten
  · cases hwritten
  · next other h'' hagain =>
    refine ⟨s, image, other, h', h'', hs, hok, hagain, ?_⟩
    exact written_values_are_read_back hs (.inl rfl) hnarrow hd hfits (Nat.le_refl _) hok
      (.encode .same hagain)

end Sierra.Value
