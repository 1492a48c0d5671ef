import Sierra.Proofs.Types
import Sierra.Proofs.Value.Laid

/-!
# Tables of descriptions

Descriptions say how each type lies in memory and mention only described types, settled earlier. So
does the part of the table that some types need.
-/

namespace Sierra

open List Layout Descriptors

variable {d : Descriptor} {ds ds' : Descriptors} {hi lo : Int} {inner : Layout}
  {after before : List (TypeId × TypeInfo)} {n : Nat} {id m : TypeId} {x : TypeId × TypeInfo}
  {info i : TypeInfo} {t : Types} {roots : List TypeId} {α : Type} {as : List α}

namespace Descriptors

lemma find?_insertEntry {id : Nat} {entries : List (Nat × Descriptor)}
    (hfresh : ∀ x ∈ entries, x.1 ≠ id) (n : Nat) :
    (insertEntry id d entries).find? (fun x => x.1 == n) =
      if n = id then some (id, d) else entries.find? fun x => x.1 == n := by
  induction entries with
  | nil =>
    by_cases hn : n = id
    · simp [insertEntry, hn]
    · simp [insertEntry, hn, Ne.symm hn]
  | cons x entries ih =>
    obtain ⟨i, e⟩ := x
    have hi : i ≠ id := hfresh (i, e) mem_cons_self
    have hrest := ih fun x hx => hfresh x (mem_cons_of_mem _ hx)
    unfold insertEntry
    split
    · by_cases hn : n = id
      · simp [hn]
      · simp [hn, Ne.symm hn]
    · rw [if_neg hi.symm, find?_cons, hrest, find?_cons]
      by_cases hn : n = id
      · simp [hn, beq_false_of_ne hi]
      · simp [hn]

lemma find?_insert {id : Nat} (hfresh : ds.find? id = none) (n : Nat) :
    (ds.insert id d).find? n = if n = id then some d else ds.find? n := by
  have hkeys : ∀ x ∈ ds.entries, x.1 ≠ id := by
    simpa [find?] using hfresh
  rw [find?, insert, find?_insertEntry hkeys]
  split <;> rfl

end Descriptors

namespace Types

/-! ## Types in their order -/

lemma prefix_induction {l : List α} {P : List α → Prop} (hnil : P [])
    (hstep : ∀ before x after, l = before ++ x :: after → P before → P (before ++ [x])) : P l := by
  suffices hall : ∀ after before, l = before ++ after → P before → P l from hall l [] rfl hnil
  intro after
  induction after with
  | nil =>
    intro before hsplit hpre
    rwa [hsplit, append_nil]
  | cons x after ih =>
    intro before hsplit hpre
    exact ih (before ++ [x]) (by rw [hsplit, append_cons]) (hstep before x after hsplit hpre)

lemma Sound.induction (hsound : t.Sound) {P : TypeId × TypeInfo → Prop}
    (hstep : ∀ before id info after, t.entries = before ++ (id, info) :: after →
      info.Built ⟨t.declared, before⟩ → (∀ x ∈ before, P x) → P (id, info)) :
    ∀ x ∈ t.entries, P x := by
  refine prefix_induction (P := fun before => ∀ x ∈ before, P x) (by simp)
    fun before x after hsplit hpre y hy => ?_
  rcases mem_append.1 hy with hy | hy
  · exact hpre y hy
  · rw [mem_singleton.1 hy]
    exact hstep before x.1 x.2 after hsplit (hsound.built before x.1 x.2 after hsplit) hpre

lemma Sound.info?_eq (hsound : t.Sound) {id' : TypeId} (hmem : (id', info) ∈ t.entries)
    (hnum : id'.number = id.number) : t.info? id = some info := by
  have hsome : (t.entries.find? fun entry => entry.1.same id).isSome :=
    find?_isSome.2 ⟨_, hmem, by simp [Ident.same, hnum]⟩
  obtain ⟨found, hfound⟩ := Option.isSome_iff_exists.1 hsome
  have hsame : found.1.number = id'.number := by
    rw [hnum]
    simpa [Ident.same] using find?_some hfound
  have heq : found = (id', info) :=
    inj_on_of_nodup_map hsound.distinct (mem_of_find?_eq_some hfound) hmem hsame
  rw [info?, hfound, heq]
  rfl

/-! ## Alignments -/

lemma align_int (bits : Int) : (int bits).align ≤ 32 := by
  unfold int scalar
  split
  · decide
  · show min _ 16 ≤ (32 : Int)
    omega

lemma align_struct {members : List Layout} (h : ∀ l ∈ members, l.align ≤ 32) :
    (struct members).align ≤ 32 := by
  refine foldlRecOn (motive := fun placed : Int × Int × List Int => placed.2.1 ≤ 32) members _
    (show (1 : Int) ≤ 32 by omega) fun placed hplaced l hl => ?_
  have halign := h l hl
  show max placed.2.1 (max 1 l.align) ≤ 32
  omega

lemma align_enum {variants : List Layout} (h : ∀ l ∈ variants, l.align ≤ 32) :
    (enum variants).align ≤ 32 := by
  unfold enum
  split
  · decide
  · have htag := intBytes_le (tagBits variants.length)
    have hpayload := foldl_align_le h
    exact Int.max_le.2 ⟨Int.max_le.2 ⟨by omega, htag⟩, hpayload⟩

lemma Sound.align_le (hsound : t.Sound) : ∀ x ∈ t.entries, x.2.layout.align ≤ 32 := by
  refine hsound.induction fun before id info after _ hbuilt hpre => ?_
  have hknown : ∀ {id info}, (⟨t.declared, before⟩ : Types).info? id = some info →
      info.layout.align ≤ 32 := by
    intro id info hinfo
    obtain ⟨id', hmem, -⟩ := mem_of_info? hinfo
    exact hpre _ hmem
  cases hbuilt with
  | felt | uint | sint | bounded | counter => exact align_int _
  | point hkind =>
    rcases hkind with ⟨-, rfl⟩ | ⟨-, rfl⟩
    · exact show GenericType.ecPointLayout.align ≤ 32 by decide
    · exact show GenericType.secpPointLayout.align ≤ 32 by decide
  | nonZero hinner | snapshot hinner =>
    have halign := hknown hinner
    exact halign
  | pointer => exact show pointer.align ≤ 32 by decide
  | array => exact show arrayDescriptor.align ≤ 32 by decide
  | uninitialized => exact show unit.align ≤ 32 by decide
  | struct hmembers =>
    refine align_struct fun l hl => ?_
    obtain ⟨m, hm, rfl⟩ := mem_map.1 hl
    exact hknown (hmembers m hm)
  | enum hmembers =>
    refine align_enum fun l hl => ?_
    obtain ⟨m, hm, rfl⟩ := mem_map.1 hl
    exact hknown (hmembers m hm)

end Types

/-! ## Descriptions of settled types -/

/-- Whether the numbers of a type fit 256 bits, if it has bounds of its own. -/
def Descriptor.narrow (d : Descriptor) : Bool :=
  d.shape != .bounded || d.range.all fun (lo, hi) => hi - lo < pow2 256

def Descriptors.Within (ds ds' : Descriptors) : Prop :=
  ∀ n e, ds.find? n = some e → ds'.find? n = some e

lemma forall₂_of_mem {β : Type} {R S : α → β → Prop} {bs : List β}
    (h : Forall₂ R as bs) (hRS : ∀ a ∈ as, ∀ b, R a b → S a b) : Forall₂ S as bs := by
  induction h with
  | nil => exact .nil
  | cons hab _ ih =>
    exact .cons (hRS _ mem_cons_self _ hab) (ih fun a ha => hRS a (mem_cons_of_mem _ ha))

lemma Descriptor.Laid.of_mentions (hlaid : d.Laid ds)
    (h : ∀ m ∈ d.mentions, ∀ e, ds.find? m = some e → ds'.find? m = some e) : d.Laid ds' := by
  have hlays : ∀ m ∈ d.mentions, ∀ l, ds.Lays m l → ds'.Lays m l := by
    rintro m hm l ⟨e, he, hrest⟩
    exact ⟨e, h m hm e he, hrest⟩
  unfold Descriptor.Laid at hlaid ⊢
  unfold Descriptor.mentions at hlays
  cases hshape : d.shape with
  | struct | enum =>
    simp only [hshape] at hlaid hlays ⊢
    obtain ⟨layouts, hall, hrest⟩ := hlaid
    exact ⟨layouts, forall₂_of_mem hall hlays, hrest⟩
  | array | box | nullable =>
    simp only [hshape] at hlaid hlays ⊢
    obtain ⟨hsize, l, hl, hrest⟩ := hlaid
    exact ⟨hsize, l, hlays _ mem_cons_self _ hl, hrest⟩
  | invalid | uninit => trivial
  | _ =>
    simp only [hshape] at hlaid ⊢
    exact hlaid

namespace Types

def rankOf (t : Types) (n : Nat) : Nat := (t.entries.map (·.1.number)).idxOf n

def Closed (t : Types) (s : Set Nat) : Prop :=
  ∀ entry ∈ t.entries, entry.1.number ∈ s → ∀ id ∈ mentioned entry.2, id.number ∈ s

structure Described (t : Types) (ds : Descriptors) (id : Nat) (info : TypeInfo) (d : Descriptor) :
    Prop where
  found : ds.find? id = some d
  size : d.size = info.layout.size
  self : ds.find? d.id = some d
  laid : d.narrow = true → d.Laid ds
  rank : t.rankOf d.id ≤ t.rankOf id
  falls : ∀ m ∈ d.mentions, (∃ e, ds.find? m = some e ∧ e.id = m) ∧ t.rankOf m < t.rankOf d.id
  closed : ∀ s, t.Closed s → id ∈ s → d.id ∈ s ∧ ∀ m ∈ d.mentions, m ∈ s

lemma Described.of_mentions {id : Nat} (hd : t.Described ds id info d)
    (hfound : ds'.find? id = some d) (hself : ds'.find? d.id = some d)
    (h : ∀ m ∈ d.mentions, ∀ e, ds.find? m = some e → ds'.find? m = some e) :
    t.Described ds' id info d where
  found := hfound
  size := hd.size
  self := hself
  laid := fun hnarrow => (hd.laid hnarrow).of_mentions h
  rank := hd.rank
  falls := fun m hm => by
    obtain ⟨⟨e, he, hid⟩, hlt⟩ := hd.falls m hm
    exact ⟨⟨e, h m hm e he, hid⟩, hlt⟩
  closed := hd.closed

lemma Described.within (h : ds.Within ds') {id : Nat} (hd : t.Described ds id info d) :
    t.Described ds' id info d :=
  hd.of_mentions (h _ _ hd.found) (h _ _ hd.self) fun m _ => h m

lemma size_int (bits : Nat) : (int bits).size = intBytes bits := by
  have hpos := intBytes_nonneg bits
  unfold int scalar
  split
  · show (0 : Int) = _
    omega
  · rfl

lemma wide_int {bits : Nat} (hpos : 0 < bits) (hbits : bits ≤ 256) :
    0 < bits ∧ bits ≤ 8 * (int bits).size.toNat :=
  ⟨hpos, by rw [size_int]; exact le_intBytes hbits⟩

lemma lt_boundedBits (hle : lo ≤ hi) : hi - lo < pow2 (GenericType.boundedBits lo hi) := by
  unfold GenericType.boundedBits
  dsimp only
  split
  · show hi - lo < 2 ^ 1
    omega
  · have hlog := @Nat.lt_log2_self (hi - lo).natAbs
    have hcast : ((2 ^ ((hi - lo).natAbs.log2 + 1) : Nat) : Int) =
      (pow2 ((hi - lo).natAbs.log2 + 1) : Nat) := rfl
    omega

lemma boundedBits_le (hle : lo ≤ hi) (hspan : hi - lo < pow2 256) :
    0 < GenericType.boundedBits lo hi ∧ GenericType.boundedBits lo hi ≤ 256 := by
  unfold GenericType.boundedBits
  dsimp only
  split
  · decide
  · next hne =>
    have hlog : (hi - lo).natAbs.log2 < 256 := (Nat.log2_lt hne).2 (by
      show (hi - lo).natAbs < pow2 256
      omega)
    omega

lemma forall₂_lays {members : List (TypeId × TypeInfo)}
    (hlays : ∀ m i, t.info? m = some i → ds'.Lays (describedNumber ds m) i.layout)
    (hmembers : ∀ m ∈ members, t.info? m.1 = some m.2) :
    Forall₂ ds'.Lays ((members.map (·.1)).map (describedNumber ds)) (members.map (·.2.layout)) := by
  rw [map_map, forall₂_map_left_iff, forall₂_map_right_iff, forall₂_same]
  exact fun m hm => hlays m.1 m.2 (hmembers m hm)

lemma laid_ofInfo (hbuilt : info.Built t) (hown : info.kind ≠ .nonZero ∧ info.kind ≠ .snapshot)
    (hlays : ∀ m i, t.info? m = some i → ds'.Lays (describedNumber ds m) i.layout)
    (hinner : ∀ i, t.info? info.inner = some i → inner = i.layout)
    (hnarrow : (Descriptor.ofInfo id info (describedNumber ds) inner).narrow) :
    (Descriptor.ofInfo id info (describedNumber ds) inner).Laid ds' := by
  cases hbuilt with
  | felt hkind => rcases hkind with rfl | rfl <;> exact rfl
  | uint hkind hpos hbits =>
    rcases hkind with rfl | rfl <;>
      exact ⟨_, rfl, Int.sub_one_lt_of_le (Int.le_refl _), wide_int hpos hbits⟩
  | sint hpos hbits => exact ⟨rfl, wide_int hpos hbits⟩
  | bounded hle =>
    obtain ⟨hpos, hbits⟩ := boundedBits_le hle (of_decide_eq_true hnarrow)
    exact ⟨_, _, rfl, lt_boundedBits hle, wide_int hpos hbits⟩
  | counter hkind => rcases hkind with rfl | rfl | rfl | rfl <;> exact rfl
  | point hkind => rcases hkind with ⟨rfl, rfl⟩ | ⟨rfl, rfl⟩ <;> exact ⟨rfl, rfl⟩
  | nonZero => exact absurd rfl hown.1
  | snapshot => exact absurd rfl hown.2
  | pointer hkind hinfo =>
    rcases hkind with rfl | rfl <;> exact ⟨rfl, _, hlays _ _ hinfo, by rw [hinner _ hinfo]; rfl⟩
  | array hinfo => exact ⟨rfl, _, hlays _ _ hinfo, by rw [hinner _ hinfo]; rfl⟩
  | uninitialized => exact trivial
  | struct hmembers => exact ⟨_, forall₂_lays hlays hmembers, rfl⟩
  | enum hmembers => exact ⟨_, forall₂_lays hlays hmembers, rfl, rfl⟩

lemma mentions_ofInfo {numberOf : TypeId → Nat}
    (hown : info.kind ≠ .nonZero ∧ info.kind ≠ .snapshot) :
    (Descriptor.ofInfo id info numberOf inner).mentions = (mentioned info).map numberOf := by
  unfold Descriptor.ofInfo Descriptor.mentions mentioned
  cases hkind : info.kind <;> simp_all [Descriptor.shapeOf]

lemma id_size_ofInfo (id : TypeId) (info : TypeInfo) (numberOf : TypeId → Nat) (inner : Layout) :
    (Descriptor.ofInfo id info numberOf inner).id = id.number ∧
      (Descriptor.ofInfo id info numberOf inner).size = info.layout.size := by
  unfold Descriptor.ofInfo
  cases info.kind <;> simp [Descriptor.shapeOf]

lemma info?_of_mem_mentioned (hbuilt : info.Built t)
    (hm : m ∈ mentioned info) : ∃ i, t.info? m = some i := by
  cases hbuilt with
  | nonZero hinfo | snapshot hinfo | array hinfo =>
    obtain rfl := mem_singleton.1 hm
    exact ⟨_, hinfo⟩
  | pointer hkind hinfo =>
    rcases hkind with rfl | rfl <;>
    · obtain rfl := mem_singleton.1 hm
      exact ⟨_, hinfo⟩
  | struct hmembers | enum hmembers =>
    obtain ⟨x, hx, rfl⟩ := mem_map.1 hm
    exact ⟨_, hmembers x hx⟩
  | felt hkind | uint hkind => rcases hkind with rfl | rfl <;> cases hm
  | counter hkind => rcases hkind with rfl | rfl | rfl | rfl <;> cases hm
  | point hkind => rcases hkind with ⟨rfl, -⟩ | ⟨rfl, -⟩ <;> cases hm
  | sint | bounded | uninitialized => cases hm

/-! ### One type after another -/

lemma within_insert {id : Nat} (hfresh : ds.find? id = none) : ds.Within (ds.insert id d) := by
  intro n e he
  rw [find?_insert hfresh, if_neg, he]
  rintro rfl
  cases hfresh.symm.trans he

lemma rankOf_lt (hsplit : t.entries = before ++ after) (hn : n ∈ before.map (·.1.number)) :
    t.rankOf n < before.length := by
  rw [rankOf, hsplit, map_append, idxOf_append, if_pos hn]
  simpa using idxOf_lt_length_of_mem hn

lemma Sound.not_mem_before (hsound : t.Sound)
    (hsplit : t.entries = before ++ x :: after) : x.1.number ∉ before.map (·.1.number) := by
  have hnodup := hsound.distinct
  rw [hsplit, map_append] at hnodup
  intro hmem
  exact (nodup_append'.1 hnodup).2.2 hmem mem_cons_self

lemma Sound.rankOf_eq (hsound : t.Sound) (hsplit : t.entries = before ++ x :: after) :
    t.rankOf x.1.number = before.length := by
  rw [rankOf, hsplit, map_append, idxOf_append, if_neg (hsound.not_mem_before hsplit)]
  simp

/-- What is known of the types in front once they are described. -/
structure Prefix (t : Types) (before : List (TypeId × TypeInfo)) (ds : Descriptors) : Prop where
  keys : ∀ n, ds.find? n = none ↔ n ∉ before.map (·.1.number)
  described : ∀ x ∈ before, ∃ d, t.Described ds x.1.number x.2 d

lemma Prefix.of_info? (h : t.Prefix before ds) (hsplit : t.entries = before ++ after)
    (hm : (⟨t.declared, before⟩ : Types).info? m = some i) :
    ∃ e, t.Described ds m.number i e ∧ t.rankOf m.number < before.length := by
  obtain ⟨id', hmem, hnum⟩ := mem_of_info? hm
  obtain ⟨e, he⟩ := h.described _ hmem
  rw [show (id', i).1.number = m.number from hnum] at he
  refine ⟨e, he, rankOf_lt hsplit ?_⟩
  rw [← hnum]
  exact mem_map.2 ⟨_, hmem, rfl⟩

lemma Prefix.insert (h : t.Prefix before ds) (hfresh : ds.find? x.1.number = none)
    (hd : t.Described (ds.insert x.1.number d) x.1.number x.2 d) :
    t.Prefix (before ++ [x]) (ds.insert x.1.number d) := by
  refine ⟨fun n => ?_, fun y hy => ?_⟩
  · rw [find?_insert hfresh]
    by_cases hn : n = x.1.number
    · simp [hn]
    · rw [if_neg hn, h.keys n]
      simp [hn]
  · rcases mem_append.1 hy with hy | hy
    · obtain ⟨e, he⟩ := h.described y hy
      exact ⟨e, he.within (within_insert hfresh)⟩
    · rw [mem_singleton.1 hy]
      exact ⟨d, hd⟩

lemma Described.alias {inner : TypeId}
    (hd : t.Described ds inner.number i d) (hfresh : ds.find? id.number = none)
    (hlayout : info.layout = i.layout) (hmem : (id, info) ∈ t.entries)
    (hmentioned : mentioned info = [inner]) (hrank : t.rankOf inner.number ≤ t.rankOf id.number) :
    t.Described (ds.insert id.number d) id.number info d := by
  have hwithin := hd.within (within_insert (d := d) hfresh)
  refine ⟨?_, by rw [hlayout]; exact hd.size, hwithin.self, hwithin.laid,
    le_trans hd.rank hrank, hwithin.falls, fun s hs hid => ?_⟩
  · rw [find?_insert hfresh, if_pos rfl]
  · refine hd.closed s hs (hs _ hmem hid inner ?_)
    simp [hmentioned]

lemma Prefix.own (hsound : t.Sound) (h : t.Prefix before ds)
    (hsplit : t.entries = before ++ (id, info) :: after) (hfresh : ds.find? id.number = none)
    (hown : info.kind ≠ .nonZero ∧ info.kind ≠ .snapshot)
    (hinner : ∀ i, (⟨t.declared, before⟩ : Types).info? info.inner = some i → inner = i.layout) :
    t.Described (ds.insert id.number (Descriptor.ofInfo id info (describedNumber ds) inner))
      id.number info (Descriptor.ofInfo id info (describedNumber ds) inner) := by
  generalize hd : Descriptor.ofInfo id info (describedNumber ds) inner = d
  have hid : d.id = id.number := by rw [← hd, (id_size_ofInfo ..).1]
  have hbuilt := hsound.built before id info after hsplit
  have hwithin : ds.Within (ds.insert id.number d) := within_insert hfresh
  have hfound : (ds.insert id.number d).find? id.number = some d := by
    rw [find?_insert hfresh, if_pos rfl]
  have hnum : ∀ {m : TypeId} {i : TypeInfo} {e : Descriptor},
      t.Described ds m.number i e → describedNumber ds m = e.id := by
    intro m i e he
    rw [describedNumber, he.found]
    rfl
  refine ⟨hfound, ?_, ?_, fun hnarrow => ?_, le_of_eq (by rw [hid]), fun m hm => ?_,
    fun s hs hmem => ⟨by rw [hid]; exact hmem, fun m hm => ?_⟩⟩
  · rw [← hd, (id_size_ofInfo ..).2]
  · rw [hid]
    exact hfound
  · rw [← hd] at hnarrow ⊢
    refine laid_ofInfo hbuilt hown (fun m i hm => ?_) hinner hnarrow
    obtain ⟨e, he, -⟩ := h.of_info? hsplit hm
    obtain ⟨id', hmem, -⟩ := mem_of_info? hm
    rw [hnum he]
    have halign := hsound.align_le (id', i) (by rw [hsplit]; exact mem_append_left _ hmem)
    exact ⟨e, by rw [hd]; exact hwithin _ _ he.self, he.size, halign⟩
  · rw [← hd, mentions_ofInfo hown] at hm
    obtain ⟨x, hx, rfl⟩ := mem_map.1 hm
    obtain ⟨i, hi⟩ := info?_of_mem_mentioned hbuilt hx
    obtain ⟨e, he, hlt⟩ := h.of_info? hsplit hi
    rw [hnum he, hid, hsound.rankOf_eq hsplit]
    exact ⟨⟨e, hwithin _ _ he.self, rfl⟩, lt_of_le_of_lt he.rank hlt⟩
  · rw [← hd, mentions_ofInfo hown] at hm
    obtain ⟨x, hx, rfl⟩ := mem_map.1 hm
    obtain ⟨i, hi⟩ := info?_of_mem_mentioned hbuilt hx
    obtain ⟨e, he, -⟩ := h.of_info? hsplit hi
    rw [hnum he]
    exact (he.closed s hs (hs (id, info) (by rw [hsplit]; simp) hmem x hx)).1

lemma wrapped_of_alias (hbuilt : info.Built t)
    (hkind : info.kind = .nonZero ∨ info.kind = .snapshot) :
    ∃ i, t.info? info.inner = some i ∧ info.layout = i.layout := by
  cases hbuilt with
  | nonZero hi | snapshot hi => exact ⟨_, hi, rfl⟩
  | felt hfelt | uint hfelt | pointer hfelt =>
    rcases hfelt with rfl | rfl <;> simp [GenericType.integerInfo] at hkind
  | counter hcount => rcases hcount with rfl | rfl | rfl | rfl <;> simp at hkind
  | point hpoint => rcases hpoint with ⟨rfl, -⟩ | ⟨rfl, -⟩ <;> simp at hkind
  | _ => simp [GenericType.integerInfo, GenericType.aggregate] at hkind

lemma Prefix.step (hsound : t.Sound) (h : t.Prefix before ds)
    (hsplit : t.entries = before ++ x :: after) :
    t.Prefix (before ++ [x]) (t.describe ds x.1 x.2) := by
  obtain ⟨id, info⟩ := x
  have hfresh : ds.find? id.number = none := (h.keys _).2 (hsound.not_mem_before hsplit)
  have hbuilt := hsound.built before id info after hsplit
  have hmem : (id, info) ∈ t.entries := by rw [hsplit]; simp
  by_cases hown : info.kind ≠ .nonZero ∧ info.kind ≠ .snapshot
  · have hdescribe : t.describe ds id info = ds.insert id.number (Descriptor.ofInfo id info
        (describedNumber ds) (((t.info? info.inner).map (·.layout)).getD unit)) := by
      unfold describe
      cases hkind : info.kind <;> simp_all
    rw [hdescribe]
    refine h.insert hfresh (h.own hsound hsplit hfresh hown fun i hi => ?_)
    obtain ⟨id', hmem', hnum⟩ := mem_of_info? hi
    rw [hsound.info?_eq (by rw [hsplit]; exact mem_append_left _ hmem') hnum]
    rfl
  · have hkind : info.kind = .nonZero ∨ info.kind = .snapshot := by
      by_cases hnonZero : info.kind = .nonZero
      · exact .inl hnonZero
      · exact .inr (not_not.1 fun hsnapshot => hown ⟨hnonZero, hsnapshot⟩)
    obtain ⟨i, hi, hlayout⟩ := wrapped_of_alias hbuilt hkind
    obtain ⟨d, hd, hlt⟩ := h.of_info? hsplit hi
    have hmentioned : mentioned info = [info.inner] := by
      unfold mentioned
      rcases hkind with hkind | hkind <;> rw [hkind]
    have hdescribe : t.describe ds id info = ds.insert id.number d := by
      unfold describe
      rcases hkind with hkind | hkind <;> simp only [hkind, hd.found]
    rw [hdescribe]
    refine h.insert hfresh (hd.alias hfresh hlayout hmem hmentioned ?_)
    rw [hsound.rankOf_eq hsplit]
    exact le_of_lt hlt

lemma Sound.prefix_descriptors (hsound : t.Sound) : t.Prefix t.entries t.descriptors := by
  refine prefix_induction (P := fun before => t.Prefix before
    (before.foldl (fun ds x => t.describe ds x.1 x.2) {})) ⟨by simp [Descriptors.find?], by simp⟩
    fun before x after hsplit h => ?_
  rw [foldl_append]
  exact h.step hsound hsplit

/-! ### The types that some need -/

def see (seen : List Nat) (x : TypeId × TypeInfo) : List Nat :=
  if seen.contains x.1.number then seen ++ (mentioned x.2).map (·.number) else seen

lemma mem_see {seen : List Nat} :
    n ∈ see seen x ↔ n ∈ seen ∨ x.1.number ∈ seen ∧ n ∈ (mentioned x.2).map (·.number) := by
  unfold see
  split
  · next hseen => rw [mem_append]; simp [contains_iff_mem.1 hseen]
  · next hseen =>
    have hnot : x.1.number ∉ seen := fun hmem => hseen (contains_iff_mem.2 hmem)
    simp [hnot]

lemma Sound.see_closed (hsound : t.Sound) (before : List (TypeId × TypeInfo)) :
    ∀ after, t.entries = before ++ after → ∀ seen, seen ⊆ before.reverse.foldl see seen ∧
      (∀ n ∈ before.reverse.foldl see seen, n ∈ seen ∨ n ∈ before.map (·.1.number)) ∧
      ∀ y ∈ before, y.1.number ∈ before.reverse.foldl see seen →
        ∀ m ∈ mentioned y.2, m.number ∈ before.reverse.foldl see seen := by
  induction before using reverseRecOn with
  | nil => simp
  | append_singleton before x ih =>
    intro after hsplit seen
    rw [append_assoc] at hsplit
    rw [reverse_append]
    obtain ⟨hsub, hfrom, hclosed⟩ := ih (x :: after) hsplit (see seen x)
    have hbuilt := hsound.built before x.1 x.2 after hsplit
    have hmentioned : ∀ m ∈ mentioned x.2, m.number ∈ before.map (·.1.number) := by
      intro m hm
      obtain ⟨i, hi⟩ := info?_of_mem_mentioned hbuilt hm
      obtain ⟨id', hmem, hnum⟩ := mem_of_info? hi
      exact mem_map.2 ⟨_, hmem, hnum⟩
    have hnew := hsound.not_mem_before hsplit
    refine ⟨fun n hn => hsub (mem_see.2 (.inl hn)), fun n hn => ?_, fun y hy hseen m hm => ?_⟩
    · rw [map_append, mem_append]
      rcases hfrom n hn with hn | hn
      · rcases mem_see.1 hn with hn | ⟨-, hn⟩
        · exact .inl hn
        · obtain ⟨m, hm, rfl⟩ := mem_map.1 hn
          exact .inr (.inl (hmentioned m hm))
      · exact .inr (.inl hn)
    · rcases mem_append.1 hy with hy | hy
      · exact hclosed y hy hseen m hm
      · rw [mem_singleton.1 hy] at hseen hm
        refine hsub (mem_see.2 (.inr ⟨?_, mem_map.2 ⟨m, hm, rfl⟩⟩))
        rcases hfrom _ hseen with hmem | hmem
        · rcases mem_see.1 hmem with hmem | ⟨hmem, -⟩ <;> exact hmem
        · exact absurd hmem hnew

lemma find?_descriptorsFor (t : Types) (roots : List TypeId) (n : Nat) :
    (t.descriptorsFor roots).find? n =
      if n ∈ t.reached roots then t.descriptors.find? n else none := by
  unfold descriptorsFor Descriptors.find?
  rw [find?_filter]
  split
  · next hseen =>
    congr 2
    funext x
    by_cases hx : x.1 = n
    · simp [hx, hseen]
    · simp [hx]
  · next hseen =>
    rw [find?_eq_none.2, Option.map_none]
    intro x _
    rw [decide_eq_true_eq]
    rintro ⟨hcontains, hx⟩
    exact hseen (eq_of_beq hx ▸ contains_iff_mem.1 hcontains)

lemma Sound.described (hsound : t.Sound) (hd : (t.descriptorsFor roots).find? n = some d) :
    ∃ info, t.Described (t.descriptorsFor roots) n info d := by
  rw [find?_descriptorsFor] at hd
  split at hd
  · next hseen =>
    have hpart := hsound.prefix_descriptors
    have hmem : n ∈ t.entries.map (·.1.number) := by
      by_contra hnot
      rw [(hpart.keys n).2 hnot] at hd
      cases hd
    obtain ⟨x, hx, rfl⟩ := mem_map.1 hmem
    obtain ⟨d', hd'⟩ := hpart.described x hx
    cases hd'.found.symm.trans hd
    obtain ⟨hid, hmentions⟩ := hd'.closed { m | m ∈ t.reached roots }
      (hsound.see_closed t.entries [] (by simp) _).2.2 hseen
    have hkept : ∀ m ∈ t.reached roots, ∀ e, t.descriptors.find? m = some e →
        (t.descriptorsFor roots).find? m = some e := by
      intro m hm e he
      rw [find?_descriptorsFor, if_pos hm, he]
    exact ⟨x.2, hd'.of_mentions (hkept _ hseen _ hd) (hkept _ hid _ hd'.self) fun m hm =>
      hkept m (hmentions m hm)⟩
  · cases hd

end Types

/-! ## Sound tables -/

def Descriptors.narrow (ds : Descriptors) : Bool := ds.entries.all fun x => x.2.narrow

lemma Descriptors.mem_of_find? (h : ds.find? n = some d) : (n, d) ∈ ds.entries := by
  obtain ⟨⟨m, e⟩, hfound, rfl⟩ := Option.map_eq_some_iff.1 h
  have hkey : m = n := by simpa using find?_some hfound
  exact hkey ▸ mem_of_find?_eq_some hfound

namespace Types

lemma Sound.descriptorsFor_order (hsound : t.Sound) : t.descriptorsFor t.order = t.descriptors := by
  unfold descriptorsFor
  dsimp only
  rw [filter_eq_self.2]
  intro x hx
  have hkey : t.descriptors.find? x.1 ≠ none := by
    simpa [Descriptors.find?] using ⟨x.2, hx⟩
  have hmem : x.1 ∈ t.entries.map (·.1.number) := by
    by_contra hnot
    exact hkey ((hsound.prefix_descriptors.keys x.1).2 hnot)
  refine contains_iff_mem.2 ((hsound.see_closed t.entries [] (by simp) _).1 ?_)
  rw [order, map_map]
  exact hmem

/-- Descriptions of all settled types, or of those that some need. -/
def Tabulated (t : Types) (ds : Descriptors) : Prop :=
  ds = t.descriptors ∨ ∃ roots, ds = t.descriptorsFor roots

lemma Sound.laid (hsound : t.Sound)
    (hnarrow : (t.descriptorsFor roots).narrow) : (t.descriptorsFor roots).Laid := by
  intro n d hd
  obtain ⟨info, hdesc⟩ := hsound.described hd
  exact hdesc.laid (all_eq_true.1 hnarrow _ (mem_of_find? hd))

def earlier (t : Types) (ds : Descriptors) (d : Descriptor) : Nat :=
  ds.entries.countP fun x => decide (t.rankOf x.2.id < t.rankOf d.id)

lemma countP_lt_countP {p q : α → Bool} (hpq : ∀ a ∈ as, p a → q a) {a : α}
    (ha : a ∈ as) (hp : p a = false) (hq : q a) : as.countP p < as.countP q := by
  obtain ⟨before, after, rfl⟩ := append_of_mem ha
  have hpre : before.countP p ≤ before.countP q :=
    countP_mono_left fun b hb => hpq b (mem_append_left _ hb)
  have hafter : after.countP p ≤ after.countP q := countP_mono_left fun b hb => hpq b (by simp [hb])
  rw [countP_append, countP_append, countP_cons_of_neg (by simp [hp]), countP_cons_of_pos hq]
  omega

lemma Sound.falls (hsound : t.Sound) (roots : List TypeId) :
    (t.descriptorsFor roots).Falls (t.earlier (t.descriptorsFor roots)) := by
  intro n d hd m hm e he
  obtain ⟨info, hdesc⟩ := hsound.described hd
  obtain ⟨⟨e', he', hid⟩, hlt⟩ := hdesc.falls m hm
  cases he'.symm.trans he
  rw [← hid] at hlt
  refine countP_lt_countP (fun x _ hx => ?_) (mem_of_find? he) (by simp) (by simpa)
  have hpre := of_decide_eq_true hx
  exact decide_eq_true (by omega)

lemma earlier_lt (h : ds.find? n = some d) : t.earlier ds d < ds.entries.length := by
  rw [← countP_true]
  exact countP_lt_countP (fun _ _ _ => rfl) (mem_of_find? h) (by simp) rfl

end Types

end Sierra
