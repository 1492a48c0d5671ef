import Sierra.Proofs.Heap
import Sierra.Value.Image

/-!
# What an image shows

An image shows a value when each part of it, and each block it points to, holds what the value has
there (`Shows`). Other bytes do not matter (`Shows.agrees`), and it is read as that value
(`Shows.decode_eq`).
-/

namespace Sierra

open List Bytes

variable {rank : Descriptor → Nat} {ds : Descriptors} {u : Unit} {id : Nat} {d : Descriptor}

/-- The types that values of a type go through. -/
def Descriptor.mentions (d : Descriptor) : List Nat :=
  match d.shape with
  | .struct | .enum => d.members
  | .array | .box | .nullable => [d.elem]
  | _ => []

/-- A measure that falls from every described type to the types it mentions. -/
def Descriptors.Falls (ds : Descriptors) (rank : Descriptor → Nat) : Prop :=
  ∀ id d, ds.find? id = some d → ∀ m ∈ d.mentions, ∀ e, ds.find? m = some e → rank e < rank d

lemma Descriptors.get_eq_ok :
    ds.get id = .ok d ↔ ds.find? id = some d := by
  unfold get
  cases ds.find? id with
  | none => simp
  | some e => simp

lemma Descriptors.Falls.lt_of_get (hfalls : ds.Falls rank) {m depth : Nat} {e : Descriptor}
    (hd : ds.find? id = some d) (hm : m ∈ d.mentions) (he : ds.get m = .ok e)
    (hdepth : rank d < depth + 1) : rank e < depth :=
  Nat.lt_of_lt_of_le (hfalls id d hd m hm e (Descriptors.get_eq_ok.1 he)) (Nat.le_of_lt_succ hdepth)

namespace Value

open Heap (Reads Agrees)

variable {c : Codec} {h h' : Heap} {s t : Set Nat} {d e : Descriptor} {image : Bytes} {β α : Type}
  {x : Except Failure α}

def Shows (c : Codec) (h : Heap) (s : Set Nat) : Value → Descriptor → Bytes → Prop
  | struct fields, d, image => d.shape = .struct ∧ fieldsShow image (d.members.zip d.offsets) fields
  | enum tag (some payload), d, image =>
    d.shape = .enum ∧ tag = toNat (image.take d.tagSize.toNat) ∧
      ∃ member e, d.members[tag.toNat]? = some member ∧ c.types.get member = .ok e ∧
        Bytes.holds image.length d.payloadOffset e.size = true ∧
        Shows c h s payload e (part image d.payloadOffset.toNat e.size.toNat)
  | array items, d, image =>
    d.shape = .array ∧ toNat (part image 8 4) = items.length ∧
      (items = [] ∨ toNat (image.take 8) ≠ 0 ∧ c.hasHeap = true ∧
        ∃ e bytes, c.types.get d.elem = .ok e ∧
          h.Reads s (toNat (image.take 8)) (Heap.address (d.stride * items.length)) bytes ∧
          itemsShow d.stride e bytes 0 items)
  | box (some inner), d, image => d.shape = .box ∧ toNat (image.take 8) ≠ 0 ∧
      c.hasHeap = true ∧ ∃ e bytes, c.types.get d.elem = .ok e ∧
        h.Reads s (toNat (image.take 8)) (Heap.address e.size) bytes ∧
        Shows c h s inner e bytes
  | nullable none, d, image => d.shape = .nullable ∧ toNat (image.take 8) = 0
  | nullable (some inner), d, image => d.shape = .nullable ∧ toNat (image.take 8) ≠ 0 ∧
      c.hasHeap = true ∧ ∃ e bytes, c.types.get d.elem = .ok e ∧
        h.Reads s (toNat (image.take 8)) (Heap.address e.size) bytes ∧
        Shows c h s inner e bytes
  | number sort n, d, image => decodeFlat d image = some (number sort n)
  | point sort coords, d, image => decodeFlat d image = some (point sort coords)
  | uninit, d, image => decodeFlat d image = some uninit
  | _, _, _ => False
where
  /-- The parts of an image at given places show values. -/
  fieldsShow (image : Bytes) : List (Nat × Int) → List Value → Prop
    | [], [] => True
    | (member, offset) :: places, v :: rest =>
      (∃ e, c.types.get member = .ok e ∧ Bytes.holds image.length offset e.size = true ∧
        Shows c h s v e (part image offset.toNat e.size.toNat)) ∧ fieldsShow image places rest
    | _, _ => False
  /-- The parts of a block, one stride after another, show values. -/
  itemsShow (stride : Int) (e : Descriptor) (bytes : Bytes) (index : Nat) : List Value → Prop
    | [] => True
    | v :: rest =>
      (Bytes.holds bytes.length (wrap64 (index * stride)) e.size = true ∧
        Shows c h s v e (part bytes (wrap64 (index * stride)).toNat e.size.toNat)) ∧
      itemsShow stride e bytes (index + 1) rest
termination_by structural v => v

open Shows (fieldsShow itemsShow)

/-! ## Other bytes do not matter -/

mutual

lemma Shows.carry (hagrees : Agrees s h h') (hst : s ⊆ t) :
    ∀ {v : Value} {d : Descriptor} {image : Bytes}, Shows c h s v d image → Shows c h' t v d image
  | struct fields, d, image, hv => by
    simp only [Shows] at hv ⊢
    exact ⟨hv.1, fieldsShow_carry hagrees hst hv.2⟩
  | enum tag (some payload), d, image, hv => by
    simp only [Shows] at hv ⊢
    obtain ⟨hshape, htag, member, e, hmember, he, hholds, hpayload⟩ := hv
    exact ⟨hshape, htag, member, e, hmember, he, hholds, hpayload.carry hagrees hst⟩
  | array items, d, image, hv => by
    simp only [Shows] at hv ⊢
    obtain ⟨hshape, hcount, hitems⟩ := hv
    refine ⟨hshape, hcount, hitems.imp_right ?_⟩
    rintro ⟨hp, hheap, e, bytes, he, hreads, hitems⟩
    exact ⟨hp, hheap, e, bytes, he, (hreads.agrees hagrees).mono hst,
      itemsShow_carry hagrees hst hitems⟩
  | box (some inner), d, image, hv | nullable (some inner), d, image, hv => by
    simp only [Shows] at hv ⊢
    obtain ⟨hshape, hp, hheap, e, bytes, he, hreads, hinner⟩ := hv
    exact ⟨hshape, hp, hheap, e, bytes, he, (hreads.agrees hagrees).mono hst,
      hinner.carry hagrees hst⟩
  | nullable none, d, image, hv | number sort n, d, image, hv | point sort coords, d, image, hv
  | uninit, d, image, hv => by
    simp only [Shows] at hv ⊢
    exact hv
  | invalid, d, image, hv | enum tag none, d, image, hv | box none, d, image, hv => by
    simp only [Shows] at hv

lemma fieldsShow_carry (hagrees : Agrees s h h') (hst : s ⊆ t) :
    ∀ {fields : List Value} {places : List (Nat × Int)} {image : Bytes},
      fieldsShow c h s image places fields → fieldsShow c h' t image places fields
  | [], [], _, _ => by simp only [fieldsShow]
  | v :: rest, (member, offset) :: places, image, hv => by
    simp only [fieldsShow] at hv ⊢
    obtain ⟨⟨e, he, hholds, hv⟩, hrest⟩ := hv
    exact ⟨⟨e, he, hholds, hv.carry hagrees hst⟩, fieldsShow_carry hagrees hst hrest⟩
  | [], _ :: _, _, hv | _ :: _, [], _, hv => by simp only [fieldsShow] at hv

lemma itemsShow_carry (hagrees : Agrees s h h') (hst : s ⊆ t) :
    ∀ {items : List Value} {stride : Int} {e : Descriptor} {bytes : Bytes} {index : Nat},
      itemsShow c h s stride e bytes index items → itemsShow c h' t stride e bytes index items
  | [], _, _, _, _, _ => by simp only [itemsShow]
  | v :: rest, _, _, _, _, hv => by
    simp only [itemsShow] at hv ⊢
    exact ⟨⟨hv.1.1, hv.1.2.carry hagrees hst⟩, itemsShow_carry hagrees hst hv.2⟩

end

/-! ## Reading what an image shows -/

lemma lift_eq_ok {a : α} :
    lift x h = .ok a h' ↔ x = .ok a ∧ h = h' := by
  cases x with
  | ok b => exact pure_eq_ok.trans (by simp)
  | error e => exact iff_of_false throw_ne_ok (by simp)

lemma lift_bind_eq_ok {f : α → Passing β} {b : β} :
    (lift x >>= f) h = .ok b h' ↔ ∃ a, x = .ok a ∧ f a h = .ok b h' := by
  simp [bind_eq_ok, lift_eq_ok]

lemma needHeap_eq_ok : c.needHeap = .ok u ↔ c.hasHeap := by
  unfold Codec.needHeap
  split <;> simp_all

lemma check_bind_eq_ok {p : Bool} {e : Failure} {f : Unit → Passing β} {b : β} :
    ((if p then return () else throw e) >>= f) h = .ok b h' ↔ p = true ∧ f () h = .ok b h' := by
  cases p <;> simp [bind_eq_ok]

lemma partOf_eq_ok {offset size : Int} {bytes : Bytes} :
    partOf image offset size h = .ok bytes h' ↔
      holds image.length offset size ∧
        bytes = part image offset.toNat size.toNat ∧ h = h' :=
  check_bind_eq_ok.trans (and_congr_right fun _ => pure_eq_ok.trans (and_congr_left' eq_comm))

lemma decodeFlat_eq_none (hshape : d.shape = .struct ∨ d.shape = .enum ∨ d.shape = .array ∨
    d.shape = .box ∨ d.shape = .nullable) (image : Bytes) : decodeFlat d image = none := by
  unfold decodeFlat
  rcases hshape with hshape | hshape | hshape | hshape | hshape <;> simp only [hshape]

mutual

lemma Shows.decode_eq (hfalls : c.types.Falls rank) :
    ∀ {v : Value} {d : Descriptor} {image : Bytes} {id depth : Nat}, Shows c h s v d image →
      c.types.find? id = some d → rank d < depth → decode c depth d image h = .ok v h
  | _, _, _, _, 0, _, _, hdepth => absurd hdepth (Nat.not_lt_zero _)
  | struct fields, d, image, id, depth + 1, hv, hd, hdepth => by
    simp only [Shows] at hv
    obtain ⟨hshape, hfields⟩ := hv
    rw [decode, decodeFlat_eq_none (.inl hshape)]
    simp only [hshape]
    refine bind_eq_ok.2 ⟨fields, h, decode_fields hfalls hfields fun m hm e he => ?_,
      pure_eq_ok.2 ⟨rfl, rfl⟩⟩
    obtain ⟨x, hx, rfl⟩ := mem_map.1 hm
    refine hfalls.lt_of_get hd ?_ he hdepth
    simpa [Descriptor.mentions, hshape] using (of_mem_zip hx).1
  | enum tag (some payload), d, image, id, depth + 1, hv, hd, hdepth => by
    simp only [Shows] at hv
    obtain ⟨hshape, htag, member, e, hmember, he, hholds, hpayload⟩ := hv
    have hm : member ∈ d.mentions := by
      simpa [Descriptor.mentions, hshape] using mem_of_getElem? hmember
    rw [decode, decodeFlat_eq_none (.inr (.inl hshape))]
    simp only [hshape]
    rw [htag, Int.toNat_natCast] at hmember
    rw [hmember, htag]
    refine lift_bind_eq_ok.2 ⟨e, he, bind_eq_ok.2 ⟨_, h,
      partOf_eq_ok.2 ⟨hholds, rfl, rfl⟩, bind_eq_ok.2 ⟨payload, h, ?_, pure_eq_ok.2 ⟨rfl, rfl⟩⟩⟩⟩
    exact hpayload.decode_eq hfalls (Descriptors.get_eq_ok.1 he) (hfalls.lt_of_get hd hm he hdepth)
  | array items, d, image, id, depth + 1, hv, hd, hdepth => by
    obtain ⟨hshape, hcount, hitems⟩ := hv
    rw [decode, decodeFlat_eq_none (.inr (.inr (.inl hshape)))]
    simp only [hshape, hcount]
    rcases hitems with rfl | ⟨hp, hheap, e, bytes, he, hreads, hitems⟩
    · rfl
    have hm : d.elem ∈ d.mentions := by simp [Descriptor.mentions, hshape]
    have hread := decode_items hfalls hitems (Descriptors.get_eq_ok.1 he)
      (hfalls.lt_of_get hd hm he hdepth)
    by_cases hempty : items = []
    · rw [hempty, if_pos length_nil]
      rfl
    · rw [if_neg (by simpa using hempty), if_neg hp]
      refine lift_bind_eq_ok.2 ⟨e, he, lift_bind_eq_ok.2 ⟨(),
        needHeap_eq_ok.2 hheap, bind_eq_ok.2 ⟨bytes, h, hreads.read,
        bind_eq_ok.2 ⟨items, h, ?_, pure_eq_ok.2 ⟨rfl, rfl⟩⟩⟩⟩⟩
      rw [range_eq_range']
      exact hread
  | box (some inner), d, image, id, depth + 1, hv, hd, hdepth
  | nullable (some inner), d, image, id, depth + 1, hv, hd, hdepth => by
    obtain ⟨hshape, hp, hheap, e, bytes, he, hreads, hinner⟩ := hv
    have hm : d.elem ∈ d.mentions := by simp [Descriptor.mentions, hshape]
    rw [decode, decodeFlat_eq_none (by simp [hshape])]
    simp only [hshape]
    rw [if_neg hp]
    exact lift_bind_eq_ok.2 ⟨e, he, lift_bind_eq_ok.2 ⟨(),
      needHeap_eq_ok.2 hheap, bind_eq_ok.2 ⟨bytes, h, hreads.read,
      bind_eq_ok.2 ⟨inner, h, hinner.decode_eq hfalls (Descriptors.get_eq_ok.1 he)
        (hfalls.lt_of_get hd hm he hdepth), rfl⟩⟩⟩⟩
  | nullable none, d, image, id, depth + 1, hv, hd, hdepth => by
    obtain ⟨hshape, hp⟩ := hv
    rw [decode, decodeFlat_eq_none (.inr (.inr (.inr (.inr hshape))))]
    simp only [hshape]
    rw [if_pos hp]
    rfl
  | number sort n, d, image, id, depth + 1, hv, _, _
  | point sort coords, d, image, id, depth + 1, hv, _, _
  | uninit, d, image, id, depth + 1, hv, _, _ => by
    rw [decode, hv]
    rfl
  | invalid, _, _, _, _ + 1, hv, _, _ | enum _ none, _, _, _, _ + 1, hv, _, _ => by
    simp only [Shows] at hv
  | box none, _, _, _, _ + 1, hv, _, _ => by simp only [Shows] at hv

lemma decode_fields (hfalls : c.types.Falls rank) :
    ∀ {fields : List Value} {places : List (Nat × Int)} {image : Bytes} {depth : Nat},
      fieldsShow c h s image places fields →
      (∀ m ∈ places.map (·.1), ∀ e, c.types.get m = .ok e → rank e < depth) →
      (places.mapM fun (member, offset) => do
        let e ← lift (c.types.get member)
        decode c depth e (← partOf image offset e.size)) h = .ok fields h
  | [], [], _, _, _, _ => rfl
  | v :: rest, (member, offset) :: places, image, depth, hv, hdepth => by
    simp only [fieldsShow] at hv
    obtain ⟨⟨e, he, hholds, hv⟩, hrest⟩ := hv
    rw [mapM_cons]
    refine bind_eq_ok.2 ⟨v, h, lift_bind_eq_ok.2 ⟨e, he, bind_eq_ok.2 ⟨_, h,
      partOf_eq_ok.2 ⟨hholds, rfl, rfl⟩, ?_⟩⟩, bind_eq_ok.2 ⟨rest, h, ?_, pure_eq_ok.2 ⟨rfl, rfl⟩⟩⟩
    · exact hv.decode_eq hfalls (Descriptors.get_eq_ok.1 he) (hdepth member (by simp) e he)
    · exact decode_fields hfalls hrest fun m hm => hdepth m (by simp [mem_map.1 hm])
  | [], _ :: _, _, _, hv, _ | _ :: _, [], _, _, hv, _ => by simp only [fieldsShow] at hv

lemma decode_items (hfalls : c.types.Falls rank) :
    ∀ {items : List Value} {stride : Int} {e : Descriptor} {bytes : Bytes} {id index depth : Nat},
      itemsShow c h s stride e bytes index items → c.types.find? id = some e → rank e < depth →
      ((range' index items.length).mapM fun (i : Nat) => do
        decode c depth e (← partOf bytes (wrap64 (i * stride)) e.size)) h = .ok items h
  | [], _, _, _, _, _, _, _, _, _ => rfl
  | v :: rest, stride, e, bytes, id, index, depth, hv, he, hdepth => by
    simp only [itemsShow] at hv
    obtain ⟨⟨hholds, hv⟩, hrest⟩ := hv
    rw [length_cons, range'_succ, mapM_cons]
    exact bind_eq_ok.2 ⟨v, h, bind_eq_ok.2 ⟨_, h, partOf_eq_ok.2 ⟨hholds, rfl, rfl⟩,
      hv.decode_eq hfalls he hdepth⟩, bind_eq_ok.2 ⟨rest, h, decode_items hfalls hrest he hdepth,
      pure_eq_ok.2 ⟨rfl, rfl⟩⟩⟩

end

end Value

end Sierra
