import Mathlib.Data.List.Basic
import Sierra.Packed.Codec
import Sierra.Packed.Parse

/-!
# Codecs read back what they write

A tree loses the widths of its numbers in bytes (`plain`). A codec restores a value when the tree
that it writes is read as the value. A record restores what its slots restore
(`Codec.record_restores`).
-/

namespace Sierra.Packed

open List Except

variable {entries : List (Packed × Packed)}

/-- The tree as it is read from its bytes. -/
def plain : Packed → Packed
  | uint8 n | uint64 n => int n
  | int32 n => int n
  | array items => array (plainAll items)
  | map entries => map (plainEntries entries)
  | other => other
where
  plainAll : List Packed → List Packed
    | [] => []
    | item :: rest => plain item :: plainAll rest
  plainEntries : List (Packed × Packed) → List (Packed × Packed)
    | [] => []
    | (key, value) :: rest => (plain key, plain value) :: plainEntries rest
termination_by structural value => value

def fits : Packed → Bool
  | int n => Int.bmod n (pow2 64) == n
  | int32 n => Int.bmod n (pow2 32) == n
  | uint8 n => n < pow2 8
  | uint64 n => n < pow2 64
  | array items => fitAll items
  | map entries => fitEntries entries
  | _ => true
where
  fitAll : List Packed → Bool
    | [] => true
    | item :: rest => fits item && fitAll rest
  fitEntries : List (Packed × Packed) → Bool
    | [] => true
    | (_, value) :: rest => fits value && fitEntries rest
termination_by structural value => value

lemma plainAll_eq (items : List Packed) : plain.plainAll items = items.map plain := by
  induction items with
  | nil => rfl
  | cons item items ih => rw [plain.plainAll, ih, map_cons]

lemma plainEntries_eq (entries : List (Packed × Packed)) :
    plain.plainEntries entries = entries.map fun e => (e.1.plain, e.2.plain) := by
  induction entries with
  | nil => rfl
  | cons e entries ih => rw [plain.plainEntries, ih, map_cons]

lemma fitAll_iff {items : List Packed} : fits.fitAll items ↔ ∀ p ∈ items, p.fits := by
  induction items with
  | nil => simp [fits.fitAll]
  | cons item items ih => simp [fits.fitAll, ih]

lemma fitEntries_iff : fits.fitEntries entries ↔ ∀ e ∈ entries, e.2.fits := by
  induction entries with
  | nil => simp [fits.fitEntries]
  | cons e entries ih => simp [fits.fitEntries, ih]

variable {α β : Type} {x : α}

namespace Codec

def Restores (c : Codec α) (x : α) : Prop :=
  (c.write x).fits →
    c.decoder.fault? (c.write x).plain = none ∧ c.decoder.value [(c.write x).plain] = x

/-- Numbers fit their words, and the bytes are read as written. -/
structure Faithful (c : Codec α) (x : α) : Prop where
  fits : (c.write x).fits
  parse : parse (c.write x).encode = (c.write x).plain

lemma Restores.read {c : Codec α} (h : c.Restores x) (hfits : (c.write x).fits) :
    c.decoder.read (c.write x).plain = .ok x := by
  rw [Decoder.read, (h hfits).1, (h hfits).2]

lemma Restores.read_parse {c : Codec α} (h : c.Restores x) (hx : c.Faithful x) :
    c.decoder.read (Packed.parse (c.write x).encode) = .ok x := by
  rw [hx.parse, h.read hx.fits]

lemma restores_last {write : α → Packed} {zero : α} {read : Packed → Except Fault α}
    (h : (write x).fits → read (write x).plain = .ok x) :
    (Codec.mk write (.last zero read)).Restores x := by
  intro hfits
  simp [Decoder.last, h hfits]

@[simp] lemma uint8_restores (n : Nat) : uint8.Restores n :=
  restores_last fun h => congrArg ok (Nat.mod_eq_of_lt (of_decide_eq_true h))

@[simp] lemma uint64_restores (n : Nat) : uint64.Restores n :=
  restores_last fun h => congrArg ok (Nat.mod_eq_of_lt (of_decide_eq_true h))

@[simp] lemma int_restores (n : Int) : int.Restores n :=
  restores_last fun h => congrArg ok (eq_of_beq h)

@[simp] lemma int32_restores (n : Int) : int32.Restores n :=
  restores_last fun h => congrArg ok (eq_of_beq h)

@[simp] lemma bool_restores (b : Bool) : bool.Restores b := restores_last fun _ => rfl

@[simp] lemma text_restores (t : String) : text.Restores t := restores_last fun _ => rfl

@[simp] lemma bytes_restores (data : Bytes) : bytes.Restores data := restores_last fun _ => rfl

lemma via_restores {c : Codec β} {store : α → β} {restore : β → α}
    (h : c.Restores (store x)) (hx : restore (store x) = x) : (c.via store restore).Restores x :=
  fun hfits => ⟨(h hfits).1, (congrArg restore (h hfits).2).trans hx⟩

lemma columns_singleton (items : List Packed) :
    Decoder.columns items.length [items] = items.map fun item => [item] := by
  induction items with
  | nil => rfl
  | cons item items ih => simpa [Decoder.columns] using ih

@[simp] lemma list_restores {c : Codec α} {xs : List α} (h : ∀ x ∈ xs, c.Restores x) :
    c.list.Restores xs := by
  intro hfits
  have hitems : ∀ x ∈ xs, (c.write x).fits := fun x hx =>
    fitAll_iff.1 hfits _ (mem_map_of_mem hx)
  have hplain : (c.list.write xs).plain = .array (xs.map fun x => (c.write x).plain) := by
    simp [list, plain, plainAll_eq]
  rw [hplain]
  constructor
  · simpa [list, Decoder.list] using fun x hx => (h x hx (hitems x hx)).1
  · generalize hread : (xs.map fun x => (c.write x).plain) = items
    show (Decoder.columns items.length [items]).map c.decoder.value = xs
    rw [columns_singleton, ← hread, map_map, map_map]
    exact (map_congr_left fun x hx => (h x hx (hitems x hx)).2).trans (map_id xs)

@[simp] lemma listOrNil_restores {c : Codec α} {xs : List α} (h : ∀ x ∈ xs, c.Restores x) :
    c.listOrNil.Restores xs := by
  cases xs with
  | nil => exact fun _ => ⟨rfl, rfl⟩
  | cons x xs => exact list_restores h

lemma optional_restores {c : Codec α} {x : Option α} (h : ∀ y ∈ x, c.Restores y)
    (hnil : ∀ y, (c.write y).plain ≠ .nil) : c.optional.Restores x := by
  cases x with
  | none => exact fun _ => ⟨rfl, rfl⟩
  | some y =>
    intro hfits
    have hy := h y rfl hfits
    have hw := hnil y
    show (Decoder.optional _).fault? (c.write y).plain = none ∧
      (Decoder.optional _).value [(c.write y).plain] = some y
    generalize (c.write y).plain = w at hy hw
    cases w with
    | nil => exact absurd rfl hw
    | _ => exact ⟨hy.1, congrArg some hy.2⟩

end Codec

/-! ## Records -/

def Slot.Restores (s : Slot α) (x : α) : Prop :=
  s.codec.Restores (s.get x) ∧ (s.omits (s.get x) = true → s.codec.decoder.value [] = s.get x)

section

variable {name : String} {c : Codec β} {get : α → β} {put : α → β → α}

@[simp] lemma Slot.of_restores : (Slot.of name c get put).Restores x ↔ c.Restores (get x) := by
  simp [Slot.Restores, Slot.of]

@[simp] lemma Slot.opt_restores [BEq β] [LawfulBEq β] :
    (Slot.opt name c get put).Restores x ↔ c.Restores (get x) := by
  simp +contextual [Slot.Restores, Slot.opt]

end

variable {s : Slot α} {slots : List (Slot α)}

def valuesOf (entries : List (Packed × Packed)) (name : String) : List Packed :=
  (Decoder.entries [] (Packed.map entries).plain).filterMap fun (n, value) =>
    if n == name then some value else none

lemma valuesOf_flatMap (hnames : (slots.map (·.name)).Nodup) (hs : s ∈ slots) :
    valuesOf (slots.flatMap (·.entries x)) s.name = (s.entries x).map (·.2.plain) := by
  have hslot (t : Slot α) : valuesOf (t.entries x) s.name =
      if t.name = s.name then (t.entries x).map (·.2.plain) else [] := by
    unfold Slot.entries
    split <;> simp [valuesOf, Decoder.entries, plain, plainEntries_eq, toText, Except.toOption]
    split <;> simp_all
  have hall : valuesOf (slots.flatMap (·.entries x)) s.name =
      slots.flatMap fun t => valuesOf (t.entries x) s.name := by
    simp [valuesOf, Decoder.entries, plain, plainEntries_eq, map_flatMap, filterMap_flatMap]
  obtain ⟨before, after, rfl⟩ := append_of_mem hs
  have hothers (ts : List (Slot α)) (h : s.name ∉ ts.map (·.name)) :
      (ts.flatMap fun t => valuesOf (t.entries x) s.name) = [] :=
    flatMap_eq_nil_iff.2 fun t ht => by
      rw [hslot, if_neg fun hname : t.name = s.name => h (hname ▸ mem_map_of_mem ht)]
  rw [hall, flatMap_append, flatMap_cons, hothers before (by grind),
    hothers after (by grind), hslot, if_pos rfl, append_nil, nil_append]

lemma Slot.Restores.set (h : s.Restores x) (hfits : ∀ e ∈ s.entries x, e.2.fits) (z : α) :
    s.field.set z ((s.entries x).map (·.2.plain)) = s.put z (s.get x) := by
  unfold Slot.entries at hfits ⊢
  split
  · next homits => exact congrArg (s.put z) (h.2 homits)
  · exact congrArg (s.put z) (h.1 (hfits (str s.name, _) (by simp [*]))).2

lemma find?_field (hnames : (slots.map (·.name)).Nodup) (hs : s ∈ slots) :
    (slots.map Slot.field).find? (fun f => f.name == s.name) = some s.field := by
  induction slots with
  | nil => cases hs
  | cons t slots ih => grind [Slot.field, Decoder.Field.of]

lemma entriesFault?_eq_none {fields : List (Decoder.Field α)}
    (h : ∀ e ∈ entries, ∃ name f, toText e.1 = .ok name ∧
      fields.find? (fun f => f.name == name) = some f ∧ f.fault? e.2 = none) :
    Decoder.entriesFault? fields entries = none := by
  induction entries with
  | nil => rfl
  | cons e entries ih =>
    obtain ⟨⟨name, f, hname, hf, hfault⟩, hrest⟩ := forall_mem_cons.1 h
    simp only [Decoder.entriesFault?, hname, hf, hfault, ih hrest, Option.none_or]

lemma Codec.record_restores {zero : α} (hnames : (slots.map (·.name)).Nodup)
    (hslots : ∀ s ∈ slots, s.Restores x)
    (hx : slots.foldl (fun z s => s.put z (s.get x)) zero = x) :
    (Codec.record zero slots).Restores x := by
  intro hfits
  have hfits : ∀ s ∈ slots, ∀ e ∈ s.entries x, e.2.fits := fun s hs e he =>
    fitEntries_iff.1 hfits e (mem_flatMap.2 ⟨s, hs, he⟩)
  constructor
  · refine entriesFault?_eq_none fun e he => ?_
    rw [plainEntries_eq] at he
    obtain ⟨e', he', rfl⟩ := mem_map.1 he
    obtain ⟨s, hs, hmem⟩ := mem_flatMap.1 he'
    have hfit := hfits s hs e' hmem
    unfold Slot.entries at hmem
    split at hmem
    · cases hmem
    · obtain rfl := mem_singleton.1 hmem
      exact ⟨s.name, s.field, rfl, find?_field hnames hs, ((hslots s hs).1 hfit).1⟩
  · have hcopied : slots.foldl (fun z s => s.field.set z
        (valuesOf (slots.flatMap (·.entries x)) s.name)) zero = x :=
      (foldl_ext _ _ _ fun z s hs => by
        rw [valuesOf_flatMap hnames hs, (hslots s hs).set (hfits s hs)]).trans hx
    refine Eq.trans ?_ hcopied
    simp [record, Decoder.record, Decoder.kept, plain, valuesOf, Decoder.entries, foldl_map]
    rfl

end Sierra.Packed
