import Mathlib.Data.List.Basic
import Sierra.Value.Literal

/-!
# Written integers

Felts and integers are read as literals, so a leading zero stands for base eight (`Stands`), while
the tag of a variant is always decimal.
-/

namespace Sierra

open List

namespace Text

variable {base acc : Nat} {cs : List Char} {value : Option Nat} (negative : Bool)

/-- The digits, decimal ones first. -/
def figures : List Char := "0123456789abcdefABCDEF".toList

def digitOf (c : Char) : Nat := figures.idxOf c.toLower

def valueIn? (base : Nat) (cs : List Char) : Option Nat :=
  if cs.all (digitOf · < base) then some (cs.foldl (fun n c => n * base + digitOf c) 0) else none

/-- What may be written after a sign, and the number that it stands for, if any. -/
inductive Stands : List Char → Option Nat → Prop
  | decimal {c : Char} {cs : List Char} (h : c :: cs ⊆ figures.take 10) :
      Stands (c :: cs) (valueIn? (if c = '0' then 8 else 10) (c :: cs))
  | hex {c : Char} {cs : List Char} (h : c :: cs ⊆ figures) :
      Stands ('0' :: 'x' :: c :: cs) (valueIn? 16 (c :: cs))

def written (negative : Bool) (cs : List Char) : String :=
  String.ofList (if negative then '-' :: cs else cs)

lemma digitsFrom?_of_subset (h : cs ⊆ figures) : digitsFrom? base acc cs =
    if cs.all (digitOf · < base) then some (cs.foldl (fun n c => n * base + digitOf c) acc)
    else none := by
  have hval : ∀ c ∈ figures, (digitValue? c == some (digitOf c)) :=
    all_eq_true.1 (by decide)
  induction cs generalizing acc with
  | nil => rfl
  | cons c cs ih =>
    obtain ⟨hc, hcs⟩ := cons_subset.1 h
    rw [digitsFrom?, digitIn?, eq_of_beq (hval c hc)]
    by_cases hlt : digitOf c < base
    · simp only [all_cons, hlt, decide_true, Bool.true_and, if_true]
      exact ih hcs
    · simp [hlt]

lemma separatedFrom?_eq {b : Bool} (hb : cs = [] → b) (h : cs ⊆ figures) :
    separatedFrom? base acc b cs = digitsFrom? base acc cs := by
  induction cs generalizing acc b with
  | nil => simp_all [separatedFrom?, digitsFrom?]
  | cons c cs ih =>
    obtain ⟨hc, hcs⟩ := cons_subset.1 h
    have hmark : c ≠ '_' := fun hmark => absurd hc (by rw [hmark]; decide)
    rw [separatedFrom?, if_neg hmark, digitsFrom?]
    cases digitIn? base c with
    | none => rfl
    | some d => exact ih (fun _ => rfl) hcs

lemma Stands.magnitude? (h : Stands cs value) : magnitude? cs = value := by
  cases h with
  | @decimal c cs h =>
    have hall : c :: cs ⊆ figures := Subset.trans h (take_subset ..)
    rw [valueIn?, ← digitsFrom?_of_subset hall]
    by_cases hzero : c = '0'
    · subst hzero
      cases cs with
      | nil => rfl
      | cons d rest =>
        have hmark : ∀ d ∈ figures.take 10, decide (¬(d = 'x' ∨ d = 'X') ∧
            ¬(d = 'o' ∨ d = 'O') ∧ ¬(d = 'b' ∨ d = 'B')) = true := all_eq_true.1 (by decide)
        obtain ⟨hx, ho, hb⟩ := of_decide_eq_true (hmark d (h (by simp)))
        rw [magnitude?, if_neg hx, if_neg ho, if_neg hb,
          separatedFrom?_eq (fun _ => rfl) (cons_subset.1 hall).2]
        rfl
    · rw [if_neg hzero, ← separatedFrom?_eq (b := false) (by simp) hall]
      unfold magnitude?
      split <;> simp_all
  | hex h =>
    rw [valueIn?, ← digitsFrom?_of_subset h, ← separatedFrom?_eq (b := true) (by simp) h]
    rfl

lemma Stands.subset (h : Stands cs value) : cs ⊆ 'x' :: figures := by
  cases h with
  | decimal h => exact Subset.trans h (by decide)
  | hex h => exact cons_subset.2 ⟨by decide, cons_subset.2 ⟨by decide, Subset.trans h (by simp)⟩⟩

lemma splitSign_written (h : Stands cs value) :
    splitSign (written negative cs).toList = (negative, cs) := by
  have hminus : '-' ∉ cs := fun hmem => absurd (h.subset hmem) (by decide)
  have hplus : '+' ∉ cs := fun hmem => absurd (h.subset hmem) (by decide)
  cases negative with
  | true => simp [written, splitSign]
  | false =>
    simp only [written, String.toList_ofList, Bool.false_eq_true, if_false]
    unfold splitSign
    split <;> simp_all

lemma Stands.literal? (h : Stands cs value) :
    literal? (written negative cs) = value.map (signed negative) := by
  simp [Text.literal?, splitSign_written negative h, h.magnitude?]

lemma Stands.decimal? (h : Stands cs value) :
    decimal? (written negative cs) = (valueIn? 10 cs).map (signed negative) := by
  have hval : digits? 10 cs = valueIn? 10 cs := by
    cases h with
    | decimal h => exact digitsFrom?_of_subset (Subset.trans h (take_subset ..))
    | hex => rfl
  simp [Text.decimal?, splitSign_written negative h, hval]

lemma Stands.trim (h : Stands cs value) : trim (written negative cs) = written negative cs := by
  have hblank : ∀ c ∈ (written negative cs).toList, isBlank c = false := by
    have hall : ∀ c ∈ 'x' :: figures, (!isBlank c) = true := all_eq_true.1 (by decide)
    have hcs : ∀ c ∈ cs, isBlank c = false := fun c hc => by
      simpa using hall c (h.subset hc)
    cases negative with
    | true => simpa [written] using ⟨by decide, hcs⟩
    | false => simpa [written] using hcs
  have hkeep : ∀ l : List Char, (∀ c ∈ l, isBlank c = false) → l.dropWhile isBlank = l := by
    rintro (_ | ⟨c, l⟩) hl
    · rfl
    · simp [hl c mem_cons_self]
  rw [Text.trim, trimChars, hkeep _ hblank, hkeep _ (by simpa using hblank), reverse_reverse,
    String.ofList_toList]

end Text

open Text

/-- Felts and integers are what the numeral stands for; a tag is the decimal value. -/
theorem leading_zero_is_octal_except_in_tags {cs : List Char} {value : Option Nat}
    (h : Stands cs value) (negative : Bool) :
    (Felt.parse (written negative cs)).toOption =
        value.map (fun n => Felt.ofInt (signed negative n)) ∧
      (∀ name variants, (Literal.tag name variants (written negative cs)).toOption =
        ((valueIn? 10 cs).map (signed negative)).bind fun n =>
          if 0 ≤ n ∧ n < variants then some n.toNat else none) ∧
      ∀ types rounds id column sort d, sort ≠ .builtin → types.get id = .ok d →
        d.shape = NumberSort.shape sort → (Literal.toValue types (rounds + 1) id
          (.variant column (written negative cs) none)).toOption =
            value.map fun n => .number sort (some (if sort = .felt then
              (Felt.ofInt (signed negative n)).val else signed negative n)) := by
  refine ⟨?_, fun name variants => ?_, fun types rounds id column sort d hsort hd hshape => ?_⟩
  · rw [Felt.parse, h.trim, h.literal?]
    cases value <;> rfl
  · rw [Literal.tag, h.decimal?]
    cases (valueIn? 10 cs).map (signed negative) with
    | none => rfl
    | some n =>
      dsimp only [Option.bind_some]
      split <;> rfl
  · rw [Literal.toValue, hd]
    cases sort with
    | builtin => exact absurd rfl hsort
    | _ =>
      simp only [bind, Except.bind, hshape, NumberSort.shape, Literal.felt, Felt.parse, h.trim,
        Literal.integer, h.literal?]
      cases value <;> rfl

theorem zero_ten_is_eight_and_tag_ten :
    (Felt.parse "010").toOption = some (Felt.ofInt 8) ∧
      (Literal.tag "E" 11 "010").toOption = some 10 ∧
      (Literal.toValue ⟨[(0, { (default : Descriptor) with shape := .uint })]⟩ 1 0
        (.variant 1 "010" none)).toOption = some (.number .uint (some 8)) :=
  have h := leading_zero_is_octal_except_in_tags
    (.decimal (show ['0', '1', '0'] ⊆ figures.take 10 by decide)) false
  ⟨h.1, h.2.1 "E" 11, h.2.2 _ 0 0 1 .uint _ (by decide) rfl rfl⟩

end Sierra
