import Mathlib.Order.Interval.Set.Defs
import Sierra.Heap
import Sierra.Proofs.Loops

/-!
# What steps do to the heap

When each step goes through and what the bytes are then. A heap grows when it keeps every byte
handed out (`Grows`); what is read at some addresses depends on the bytes there (`Agrees`, `Reads`).
-/

namespace Sierra.Heap

open List

variable {bytes : Bytes} {h h' : Heap} {count p size : Nat} {s : Set Nat} {data : ByteArray}

/-! ## Bytes -/

lemma byteAt_eq (data : ByteArray) (a : Nat) : byteAt data a = (data.data[a]?).getD 0 := by
  by_cases ha : a < data.size
  · rw [byteAt, dif_pos ha, Array.getElem?_eq_getElem (show a < data.data.size from ha)]
    rfl
  · rw [byteAt, dif_neg ha,
      Array.getElem?_eq_none (show data.data.size ≤ a from Nat.le_of_not_lt ha)]
    rfl

lemma byteAt_push (data : ByteArray) (b : UInt8) (a : Nat) :
    byteAt (data.push b) a = if a = data.size then b else byteAt data a := by
  rw [byteAt_eq, byteAt_eq, show (data.push b).data = data.data.push b from rfl,
    Array.getElem?_push]
  show ((if a = data.size then some b else data.data[a]?).getD 0 : UInt8) = _
  split <;> rfl

lemma byteAt_pushZeros (count : Nat) (data : ByteArray) (a : Nat) :
    byteAt (pushZeros count data) a = byteAt data a := by
  induction count generalizing data with
  | zero => rfl
  | succ count ih =>
    rw [pushZeros, ih, byteAt_push]
    split
    · next ha => rw [ha, byteAt, dif_neg (Nat.lt_irrefl _)]
    · rfl

lemma size_pushZeros (count : Nat) (data : ByteArray) :
    (pushZeros count data).size = data.size + count := by
  induction count generalizing data with
  | zero => rfl
  | succ count ih =>
    rw [pushZeros, ih, ByteArray.size_push]
    omega

lemma byteAt_storeAt (data : ByteArray) (p : Nat) (b : UInt8) (a : Nat) :
    byteAt (storeAt data p b) a = if a = p then b else byteAt data a := by
  unfold storeAt
  split
  · next hp =>
    rw [byteAt_eq, byteAt_eq, show (data.set p b hp).data = data.data.set p b hp from rfl,
      Array.getElem?_set]
    by_cases ha : a = p
    · rw [if_pos ha.symm, if_pos ha]
      rfl
    · rw [if_neg (Ne.symm ha), if_neg ha]
  · rw [byteAt_push, size_pushZeros, byteAt_pushZeros,
      show data.size + (p - data.size) = p from by omega]

lemma byteAt_storeFrom_of_outside {a : Nat} (ha : a < p ∨ p + bytes.length ≤ a) :
    byteAt (storeFrom data p bytes) a = byteAt data a := by
  induction bytes generalizing data p with
  | nil => rfl
  | cons b bytes ih =>
    rw [length_cons] at ha
    rw [storeFrom, ih (by omega), byteAt_storeAt, if_neg (by omega)]

lemma byteAt_storeFrom {i : Nat}
    (hi : i < bytes.length) : byteAt (storeFrom data p bytes) (p + i) = bytes[i] := by
  induction bytes generalizing data p i with
  | nil => exact absurd hi (Nat.not_lt_zero i)
  | cons b bytes ih =>
    rw [storeFrom]
    cases i with
    | zero =>
      rw [byteAt_storeFrom_of_outside (.inl (by omega)), byteAt_storeAt, if_pos (by omega),
        getElem_cons_zero]
    | succ i =>
      rw [length_cons] at hi
      rw [show p + (i + 1) = p + 1 + i from by omega, ih (by omega), getElem_cons_succ]

lemma bytesFrom_eq (data : ByteArray) (p count : Nat) (tail : Bytes) :
    bytesFrom data p count tail = ((range count).map fun i => byteAt data (p + i)) ++ tail := by
  induction count generalizing tail with
  | zero => rfl
  | succ count ih => rw [bytesFrom, ih, range_succ, map_append, append_assoc]; rfl

lemma peek_eq (h : Heap) (p count : Nat) :
    h.peek p count = (range count).map fun i => byteAt h.data (p + i) := by
  rw [peek, bytesFrom_eq, append_nil]

@[simp]
lemma length_peek (h : Heap) (p count : Nat) : (h.peek p count).length = count := by
  rw [peek_eq, length_map, length_range]

lemma peek_congr (hbytes : ∀ a, p ≤ a → a < p + count → byteAt h'.data a = byteAt h.data a) :
    h'.peek p count = h.peek p count := by
  rw [peek_eq, peek_eq]
  refine map_congr_left fun i hi => ?_
  rw [mem_range] at hi
  exact hbytes _ (by omega) (by omega)

lemma peek_poke (h : Heap) (p : Nat) (bytes : Bytes) :
    (h.poke p bytes).peek p bytes.length = bytes := by
  refine ext_getElem (length_peek _ _ _) fun i hi hi' => ?_
  simp only [peek_eq, getElem_map, getElem_range]
  exact byteAt_storeFrom hi'

/-! ## Handing out, reading and storing -/

lemma rounded_lt (size : Nat) : rounded size < addressSpace := by
  unfold rounded
  have hmod := Nat.mod_lt (max size 1 + (alignment - 1)) (show 0 < addressSpace by decide)
  have hmul := Nat.div_mul_le_self ((max size 1 + (alignment - 1)) % addressSpace) alignment
  omega

lemma allocFault?_eq_none (hok : h.allocFault? size = none) :
    size ≤ rounded size ∧ h.used + rounded size ≤ roomLimit ∧ h.used + rounded size ≤ h.limit := by
  unfold allocFault? at hok
  dsimp only at hok
  split at hok
  · cases hok
  split at hok
  · cases hok
  next hlim =>
  split at hok
  · cases hok
  split at hok
  · cases hok
  next hstop =>
  have hrounded := rounded_lt size
  have hroom : roomLimit < addressSpace := by decide
  -- the end does not wrap around, as it is not before the start
  have hend : (h.used + rounded size) % addressSpace = h.used + rounded size := by
    by_cases hlt : h.used + rounded size < addressSpace
    · exact Nat.mod_eq_of_lt hlt
    · rw [Nat.mod_eq_sub_mod (Nat.le_of_not_lt hlt), Nat.mod_eq_of_lt (by omega)] at hstop
      omega
  omega

lemma alloc_eq_ok :
    alloc size h = .ok p h' ↔ h.allocFault? size = none ∧ p = h.used ∧ h' = h.extend size := by
  unfold alloc
  cases h.allocFault? size with
  | some fault => simp
  | none => simp [eq_comm]

lemma accessFault?_eq_none_iff {operation : String} :
    h.accessFault? operation p count = none ↔
      count = 0 ∨ alignment ≤ p ∧ p + count ≤ h.used ∧ p + count < addressSpace := by
  unfold accessFault?
  have halign : 0 < alignment := by decide
  split
  · next hcount => simp [hcount]
  split
  · simp only [reduceCtorEq, false_iff]
    omega
  · split
    · simp only [reduceCtorEq, false_iff]
      omega
    · simp only [true_iff]
      omega

lemma accessFault?_cases (h : Heap) (operation : String) (p count : Nat) :
    h.accessFault? operation p count = none ∨
      ∃ fault, h.accessFault? operation p count = some (.heap fault) := by
  unfold accessFault?
  split
  · exact .inl rfl
  · split
    · exact .inr ⟨_, rfl⟩
    · split
      · exact .inr ⟨_, rfl⟩
      · exact .inl rfl

lemma copyFault?_cases (h : Heap) (target source count : Nat) :
    h.copyFault? target source count = none ∨
      ∃ fault, h.copyFault? target source count = some (.heap fault) := by
  unfold copyFault?
  rcases h.accessFault?_cases "copy" source count with haccess | ⟨fault, haccess⟩
  · rw [haccess]
    exact h.accessFault?_cases "copy" target count
  · exact .inr ⟨fault, by rw [haccess, Option.some_or]⟩

lemma read_eq_ok :
    read p count h = .ok bytes h' ↔
      h.accessFault? "read" p count = none ∧ bytes = h.peek p count ∧ h' = h := by
  unfold read
  cases h.accessFault? "read" p count with
  | some fault => simp
  | none => simp [eq_comm]

lemma write_eq_ok {u : Unit} :
    write p bytes h = .ok u h' ↔
      h.accessFault? "write" p bytes.length = none ∧ h' = h.poke p bytes := by
  unfold write
  cases h.accessFault? "write" p bytes.length with
  | some fault => simp
  | none => simp [eq_comm]

/-! ## Heaps that grow -/

/-- Every byte that was handed out is as it was. -/
structure Grows (h h' : Heap) : Prop where
  used : h.used ≤ h'.used
  bytes : ∀ a < h.used, byteAt h'.data a = byteAt h.data a

lemma Grows.refl (h : Heap) : h.Grows h := ⟨Nat.le_refl _, fun _ _ => rfl⟩

lemma Grows.trans {h₁ h₂ : Heap} (hfirst : h.Grows h₁) (hsecond : h₁.Grows h₂) : h.Grows h₂ :=
  ⟨Nat.le_trans hfirst.used hsecond.used, fun a ha => by
    rw [hsecond.bytes a (Nat.lt_of_lt_of_le ha hfirst.used), hfirst.bytes a ha]⟩

lemma grows_of_alloc (hok : alloc size h = .ok p h') : h.Grows h' := by
  obtain ⟨-, -, rfl⟩ := alloc_eq_ok.1 hok
  exact ⟨Nat.le_add_right _ _, fun _ _ => rfl⟩

lemma Grows.poke {h₁ : Heap} (hgrows : h.Grows h₁) (hp : h.used ≤ p)
    (bytes : Bytes) : h.Grows (h₁.poke p bytes) :=
  ⟨hgrows.used, fun a ha => by
    rw [← hgrows.bytes a ha]
    exact byteAt_storeFrom_of_outside (.inl (Nat.lt_of_lt_of_le ha hp))⟩

/-- The same bytes at some addresses, and no less handed out. -/
structure Agrees (s : Set Nat) (h h' : Heap) : Prop where
  used : h.used ≤ h'.used
  bytes : ∀ a ∈ s, byteAt h'.data a = byteAt h.data a

/-- Bytes that can be read at an address within a set. -/
structure Reads (h : Heap) (s : Set Nat) (p count : Nat) (bytes : Bytes) : Prop where
  access : h.accessFault? "read" p count = none
  peek : bytes = h.peek p count
  mem : ∀ a, p ≤ a → a < p + count → a ∈ s

lemma Reads.read (hread : h.Reads s p count bytes) : Heap.read p count h = .ok bytes h :=
  read_eq_ok.2 ⟨hread.access, hread.peek, rfl⟩

lemma Reads.agrees
    (hread : h.Reads s p count bytes) (hagrees : Agrees s h h') : h'.Reads s p count bytes := by
  refine ⟨?_, ?_, hread.mem⟩
  · have haccess := accessFault?_eq_none_iff.1 hread.access
    have hused := hagrees.used
    exact accessFault?_eq_none_iff.2 (by omega)
  · rw [hread.peek]
    exact (peek_congr fun a hle hlt => hagrees.bytes a (hread.mem a hle hlt)).symm

lemma Reads.mono {t : Set Nat}
    (hread : h.Reads s p count bytes) (hst : ∀ a ∈ s, a ∈ t) : h.Reads t p count bytes :=
  ⟨hread.access, hread.peek, fun a hle hlt => hst a (hread.mem a hle hlt)⟩

end Sierra.Heap
