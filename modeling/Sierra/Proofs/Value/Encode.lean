import Sierra.Proofs.Value.Shows

/-!
# What writing a value does

Writing goes through one of a few steps, said once for each kind of value, and only adds to the heap
(`grows_encode`).
-/

namespace Sierra.Value

open Bytes
open Heap (Grows alloc write alloc_eq_ok write_eq_ok)

open encode (encodeFields encodeItems)

variable {c : Codec} {d e : Descriptor} {h h' : Heap} {image bytes : Bytes} {rest : List Value}
  {v : Value} {index : Nat}

/-- The image of a type without values. -/
structure Blank (d : Descriptor) (h : Heap) (image : Bytes) (h' : Heap) : Prop where
  shape : d.shape = .uninit
  image : image = Bytes.zeros d.size.toNat
  heap : h' = h

lemma blank_of_other (hok : encode.other d v h = .ok image h') : Blank d h image h' := by
  unfold encode.other at hok
  cases hshape : d.shape with
  | uninit =>
    rw [hshape] at hok
    obtain ⟨himg, hheap⟩ := pure_eq_ok.1 hok
    exact ⟨hshape, himg.symm, hheap.symm⟩
  | _ =>
    rw [hshape] at hok
    exact absurd hok throw_ne_ok

lemma flat_eq_ok {x : Except Failure Bytes} (hok : encode.flat d v x h = .ok image h') :
    (x = .ok image ∧ h' = h) ∨ Blank d h image h' := by
  unfold encode.flat at hok
  cases hshape : d.shape with
  | invalid | uninit =>
    rw [hshape] at hok
    exact .inr (blank_of_other hok)
  | _ =>
    rw [hshape] at hok
    obtain ⟨hx, hheap⟩ := lift_eq_ok.1 hok
    exact .inl ⟨hx, hheap.symm⟩

lemma encode_struct {fields : List Value} (hok : encode c d (struct fields) h = .ok image h') :
    (d.shape = .struct ∧ fields.length = d.members.length ∧
      encodeFields c d (d.members.zip d.offsets) 0 (zeros d.size.toNat) fields h =
        .ok image h') ∨ Blank d h image h' := by
  rw [encode] at hok
  split at hok
  · next hfits => exact .inl ⟨hfits.1, hfits.2, hok⟩
  · exact .inr (blank_of_other hok)

lemma encode_enum {tag : Int} {payload : Value}
    (hok : encode c d (enum tag (some payload)) h = .ok image h') :
    (d.shape = .enum ∧ 0 ≤ tag ∧ ∃ member e inner, d.members[tag.toNat]? = some member ∧
      c.types.get member = .ok e ∧ holds d.size.toNat d.payloadOffset e.size ∧
      encode c e payload h = .ok inner h' ∧
      image = place (place (zeros d.size.toNat) 0 (ofNat d.tagSize.toNat tag.toNat))
        d.payloadOffset inner) ∨ Blank d h image h' := by
  rw [encode] at hok
  by_cases hfits : d.shape = .enum ∧ 0 ≤ tag
  case neg =>
    rw [decide_eq_false hfits] at hok
    exact .inr (blank_of_other hok)
  rw [decide_eq_true hfits] at hok
  cases hmember : d.members[tag.toNat]? with
  | none =>
    rw [hmember] at hok
    exact .inr (blank_of_other hok)
  | some member =>
    rw [hmember] at hok
    obtain ⟨e, he, hok⟩ := lift_bind_eq_ok.1 hok
    obtain ⟨hpart, hok⟩ := check_bind_eq_ok.1 hok
    obtain ⟨inner, h₃, hinner, hok⟩ := bind_eq_ok.1 hok
    obtain ⟨himg, rfl⟩ := pure_eq_ok.1 hok
    exact .inl ⟨hfits.1, hfits.2, member, e, inner, rfl, he, hpart, tryCatch_eq_ok.1 hinner,
      himg.symm⟩

lemma encode_array {items : List Value} (hok : encode c d (array items) h = .ok image h') :
    (d.shape = .array ∧ items.length < pow2 32 ∧
      ((items = [] ∧ image = arrayHeader 0 0 ∧ h' = h) ∨
        ∃ e bytes h₁ h₂, c.types.get d.elem = .ok e ∧ c.hasHeap ∧
          alloc (Heap.address (d.stride * items.length)) h = .ok h.used h₁ ∧
          canHold (Heap.address (d.stride * items.length)) ∧
          encodeItems c d e (Heap.address (d.stride * items.length)) 0 items h₁ = .ok bytes h₂ ∧
          write h.used bytes h₂ = .ok () h' ∧ image = arrayHeader h.used items.length)) ∨
      Blank d h image h' := by
  rw [encode] at hok
  split at hok
  · exact .inr (blank_of_other hok)
  next hshape =>
  split at hok
  · exact absurd hok throw_ne_ok
  next hcount =>
  refine .inl ⟨by simpa using hshape, Nat.lt_of_not_le hcount, ?_⟩
  split at hok
  · next hempty =>
    obtain ⟨himg, hheap⟩ := pure_eq_ok.1 hok
    exact .inl ⟨List.isEmpty_iff.1 hempty, himg.symm, hheap.symm⟩
  · obtain ⟨e, he, hok⟩ := lift_bind_eq_ok.1 hok
    obtain ⟨_, hheap, hok⟩ := lift_bind_eq_ok.1 hok
    obtain ⟨p, h₁, hp, hok⟩ := bind_eq_ok.1 hok
    obtain rfl := (alloc_eq_ok.1 hp).2.1
    obtain ⟨hroom, hok⟩ := check_bind_eq_ok.1 hok
    obtain ⟨bytes, h₂, hitems, hok⟩ := bind_eq_ok.1 hok
    obtain ⟨_, h₃, hwrite, hok⟩ := bind_eq_ok.1 hok
    obtain ⟨himg, rfl⟩ := pure_eq_ok.1 hok
    exact .inr ⟨e, bytes, h₁, h₂, he, needHeap_eq_ok.1 hheap, hp, hroom, hitems, hwrite, himg.symm⟩

lemma contents_eq_ok {size : Int} {x : Passing Bytes}
    (hok : encode.contents d size x h = .ok image h') :
    ∃ inner h₁ h₂, canHold size ∧ x h = .ok inner h₁ ∧
      alloc (max d.stride 1).toNat h₁ = .ok h₁.used h₂ ∧ write h₁.used inner h₂ = .ok () h' ∧
      image = fit d.size.toNat (ofNat 8 h₁.used) := by
  unfold encode.contents at hok
  obtain ⟨hroom, hok⟩ := check_bind_eq_ok.1 hok
  obtain ⟨inner, h₁, hinner, hok⟩ := bind_eq_ok.1 hok
  obtain ⟨p, h₃, hboxed, hok⟩ := bind_eq_ok.1 hok
  obtain ⟨himg, rfl⟩ := pure_eq_ok.1 hok
  unfold boxed at hboxed
  obtain ⟨q, h₂, hq, hboxed⟩ := bind_eq_ok.1 hboxed
  obtain ⟨_, h₄, hwrite, hboxed⟩ := bind_eq_ok.1 hboxed
  obtain ⟨rfl, rfl⟩ := pure_eq_ok.1 hboxed
  obtain rfl := (alloc_eq_ok.1 hq).2.1
  exact ⟨inner, h₁, h₂, hroom, tryCatch_eq_ok.1 hinner, hq, hwrite, himg.symm⟩

lemma encode_inner (inner : Value)
    (hv : v = box (some inner) ∨ v = nullable (some inner)) (hok : encode c d v h = .ok image h') :
    ((d.shape = .box ∨ d.shape = .nullable) ∧ ∃ e bytes h₁ h₂, c.types.get d.elem = .ok e ∧
      c.hasHeap ∧ canHold e.size ∧ encode c e inner h = .ok bytes h₁ ∧
      alloc (max d.stride 1).toNat h₁ = .ok h₁.used h₂ ∧ write h₁.used bytes h₂ = .ok () h' ∧
      image = fit d.size.toNat (ofNat 8 h₁.used)) ∨ Blank d h image h' := by
  have hok : (if d.shape = .box ∨ d.shape = .nullable then do
      let e ← lift (c.types.get d.elem)
      lift c.needHeap
      encode.contents d e.size (encode c e inner)
    else encode.other d v) h = .ok image h' := by
    rcases hv with rfl | rfl <;> rw [encode] at hok <;> exact hok
  split at hok
  · next hshape =>
    obtain ⟨e, he, hok⟩ := lift_bind_eq_ok.1 hok
    obtain ⟨_, hheap, hok⟩ := lift_bind_eq_ok.1 hok
    obtain ⟨bytes, h₁, h₂, hroom, hinner, halloc, hwrite, himg⟩ := contents_eq_ok hok
    exact .inl ⟨hshape, e, bytes, h₁, h₂, he, needHeap_eq_ok.1 hheap, hroom, hinner, halloc,
      hwrite, himg⟩
  · exact .inr (blank_of_other hok)

lemma encode_null (hok : encode c d (nullable none) h = .ok image h') :
    image = zeros d.size.toNat ∧ h' = h := by
  rw [encode] at hok
  split at hok
  · obtain ⟨himg, hheap⟩ := pure_eq_ok.1 hok
    exact ⟨himg.symm, hheap.symm⟩
  · have hblank := blank_of_other hok
    exact ⟨hblank.image, hblank.heap⟩

lemma encodeFields_cons {places : List (Nat × Int)} {member : Nat} {offset : Int} {start : Bytes}
    (hok : encodeFields c d ((member, offset) :: places) index start (v :: rest) h = .ok image h') :
    ∃ e inner h₁, c.types.get member = .ok e ∧ holds d.size.toNat offset e.size ∧
      encode c e v h = .ok inner h₁ ∧
      encodeFields c d places (index + 1) (place start offset inner) rest h₁ = .ok image h' := by
  rw [encodeFields] at hok
  obtain ⟨e, he, hok⟩ := lift_bind_eq_ok.1 hok
  obtain ⟨hpart, hok⟩ := check_bind_eq_ok.1 hok
  obtain ⟨inner, h₁, hinner, hok⟩ := bind_eq_ok.1 hok
  exact ⟨e, inner, h₁, he, hpart, tryCatch_eq_ok.1 hinner, hok⟩

lemma encodeItems_cons {room : Nat}
    (hok : encodeItems c d e room index (v :: rest) h = .ok bytes h') :
    ∃ inner tail h₁, holds room (wrap64 (index * d.stride)) e.size ∧
      encode c e v h = .ok inner h₁ ∧
      encodeItems c d e room (index + 1) rest h₁ = .ok tail h' ∧
      bytes = fit d.stride.toNat inner ++ tail := by
  rw [encodeItems] at hok
  obtain ⟨hpart, hok⟩ := check_bind_eq_ok.1 hok
  obtain ⟨inner, h₁, hinner, hok⟩ := bind_eq_ok.1 hok
  obtain ⟨tail, h₂, htail, hok⟩ := bind_eq_ok.1 hok
  obtain ⟨hbytes, rfl⟩ := pure_eq_ok.1 hok
  exact ⟨inner, tail, h₁, by simpa using hpart, tryCatch_eq_ok.1 hinner, htail, hbytes.symm⟩

/-! ## Writing only adds to the heap -/

lemma Blank.grows (hblank : Blank d h image h') : h.Grows h' := by
  rw [hblank.heap]
  exact .refl h

lemma grows_of_write {h₁ h₂ : Heap} {size : Nat} {u : Unit} (halloc : alloc size h = .ok h.used h₁)
    (hgrows : h₁.Grows h₂) (hwrite : write h.used bytes h₂ = .ok u h') : h.Grows h' := by
  obtain ⟨-, rfl⟩ := write_eq_ok.1 hwrite
  exact ((Heap.grows_of_alloc halloc).trans hgrows).poke (Nat.le_refl _) bytes

mutual

lemma grows_encode : ∀ {v : Value} {d : Descriptor} {h h' : Heap} {image : Bytes},
    encode c d v h = .ok image h' → h.Grows h'
  | number _ _, _, _, _, _, hok | point _ _, _, _, _, _, hok => by
    rw [encode] at hok
    rcases flat_eq_ok hok with ⟨-, rfl⟩ | hblank
    · exact .refl _
    · exact hblank.grows
  | struct fields, _, _, _, _, hok => by
    rcases encode_struct hok with ⟨-, -, hfields⟩ | hblank
    · exact grows_encodeFields hfields
    · exact hblank.grows
  | enum _ (some payload), _, _, _, _, hok => by
    rcases encode_enum hok with ⟨-, -, _, _, _, -, -, -, hpayload, -⟩ | hblank
    · exact grows_encode hpayload
    · exact hblank.grows
  | array items, _, _, _, _, hok => by
    rcases encode_array hok with ⟨-, -, ⟨-, -, rfl⟩ | hitems⟩ | hblank
    · exact .refl _
    · obtain ⟨_, _, _, _, -, -, halloc, -, hitems, hwrite, -⟩ := hitems
      exact grows_of_write halloc (grows_encodeItems hitems) hwrite
    · exact hblank.grows
  | nullable none, _, _, _, _, hok => by
    rw [(encode_null hok).2]
    exact .refl _
  | box (some inner), _, _, _, _, hok | nullable (some inner), _, _, _, _, hok => by
    rcases encode_inner inner (by simp) hok with ⟨-, _, _, _, _, -, -, -, hinner, halloc, hwrite, -⟩ |
      hblank
    · exact (grows_encode hinner).trans (grows_of_write halloc (.refl _) hwrite)
    · exact hblank.grows
  | enum _ none, _, _, _, _, hok | box none, _, _, _, _, hok | invalid, _, _, _, _, hok
  | uninit, _, _, _, _, hok => by
    rw [encode] at hok
    exact (blank_of_other hok).grows

lemma grows_encodeFields : ∀ {fields : List Value} {d : Descriptor} {places : List (Nat × Int)}
    {index : Nat} {start image : Bytes} {h h' : Heap},
    encodeFields c d places index start fields h = .ok image h' → h.Grows h'
  | [], _, _, _, _, _, _, _, hok | _ :: _, _, [], _, _, _, _, _, hok => by
    rw [encodeFields] at hok
    obtain ⟨-, rfl⟩ := pure_eq_ok.1 hok
    exact .refl _
  | v :: rest, _, _ :: _, _, _, _, _, _, hok => by
    obtain ⟨_, _, _, -, -, hv, hrest⟩ := encodeFields_cons hok
    exact (grows_encode hv).trans (grows_encodeFields hrest)

lemma grows_encodeItems : ∀ {items : List Value} {d e : Descriptor} {room index : Nat}
    {bytes : Bytes} {h h' : Heap}, encodeItems c d e room index items h = .ok bytes h' → h.Grows h'
  | [], _, _, _, _, _, _, _, hok => by
    rw [encodeItems] at hok
    obtain ⟨-, rfl⟩ := pure_eq_ok.1 hok
    exact .refl _
  | v :: rest, _, _, _, _, _, _, _, hok => by
    obtain ⟨_, _, _, -, hv, hrest, -⟩ := encodeItems_cons hok
    exact (grows_encode hv).trans (grows_encodeItems hrest)

end

end Sierra.Value
