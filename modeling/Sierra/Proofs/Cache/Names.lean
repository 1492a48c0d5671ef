import Mathlib.Data.List.TakeWhile
import Sierra.Cache.Name
import Sierra.Options

/-!
# Keys that share a file

The name of a cached file is a plain key itself, so two keys share a file if one is that name and
the other was rewritten. Options share a fingerprint if their costs read the same.
-/

namespace Sierra.Cache

open List

variable {key key' : String}

lemma of_mem_digestMark {c : Char} (hc : c ∈ (digestMark key).toList) :
    isNameChar c ∧ c ≠ '-' := by
  have hdigit : ∀ n < 16, isNameChar (Bytes.hexDigit n) ∧ Bytes.hexDigit n ≠ '-' := by decide
  simp only [digestMark, Bytes.hex, String.toList_ofList, mem_flatMap, mem_cons, not_mem_nil,
    or_false] at hc
  obtain ⟨b, -, rfl | rfl⟩ := hc
  · exact hdigit _ (Nat.div_lt_of_lt_mul b.toNat_lt)
  · exact hdigit _ (Nat.mod_lt _ (by decide))

def stem (key : String) : List Char :=
  (key.toList.map fun c => if isNameChar c then c else '_').dropWhile (· = '.')

lemma toList_fileName (h : isPlainKey key.toList = false) :
    (fileName key).toList = stem key ++ '-' :: (digestMark key).toList := by
  simp [fileName, h, stem]

lemma toList_digestMark (h : isPlainKey key.toList = false) :
    (digestMark key).toList = ((fileName key).toList.reverse.takeWhile (· ≠ '-')).reverse := by
  rw [toList_fileName h, reverse_append, reverse_cons, append_assoc, takeWhile_append_of_pos]
  · simp
  · simpa using fun c hc => (of_mem_digestMark hc).2

lemma isPlainKey_fileName (key : String) : isPlainKey (fileName key).toList := by
  cases h : isPlainKey key.toList with
  | true => rwa [fileName, if_pos h]
  | false =>
    have hhead : (stem key).head? ≠ some '.' := by
      intro hdot
      have hnot := head?_dropWhile_not (· = '.')
        (key.toList.map fun c => if isNameChar c then c else '_')
      rw [← stem, hdot] at hnot
      simp at hnot
    have hstem : ∀ c ∈ stem key, isNameChar c := by
      intro c hc
      obtain ⟨c, -, rfl⟩ := mem_map.1 ((dropWhile_sublist _).subset hc)
      split
      · assumption
      · rfl
    rw [toList_fileName h, isPlainKey, Bool.and_eq_true, Bool.and_eq_true, all_eq_true,
      forall_mem_append, forall_mem_cons]
    refine ⟨⟨by simp, ?_⟩, hstem, by decide, fun c hc => (of_mem_digestMark hc).1⟩
    cases hs : stem key with
    | nil => simp
    | cons c rest => simpa [hs] using hhead

lemma fileName_of_plain (h : isPlainKey key.toList) : fileName key = key := if_pos h

/-- What a file is called is a plain key. Keys that are told apart by their digests share a file
only if one of them is the name of the other's file. -/
theorem shared_file_is_named_by_a_key (hdigest : digestMark key = digestMark key' → key = key') :
    isPlainKey (fileName key).toList = true ∧ (fileName key = fileName key' ↔
      key = key' ∨ key' = fileName key ∨ key = fileName key') := by
  refine ⟨isPlainKey_fileName key, fun hsame => ?_, ?_⟩
  · cases h : isPlainKey key.toList with
    | true =>
      rw [fileName_of_plain h] at hsame
      cases h' : isPlainKey key'.toList with
      | true => exact .inl (hsame.trans (fileName_of_plain h'))
      | false => exact .inr (.inr hsame)
    | false =>
      cases h' : isPlainKey key'.toList with
      | true => exact .inr (.inl (hsame.trans (fileName_of_plain h')).symm)
      | false =>
        refine .inl (hdigest (String.toList_inj.1 ?_))
        rw [toList_digestMark h, toList_digestMark h', hsame]
  · rintro (rfl | rfl | rfl)
    · rfl
    · exact (fileName_of_plain (isPlainKey_fileName key)).symm
    · exact fileName_of_plain (isPlainKey_fileName key')

theorem rewritten_key_shares_its_file : isPlainKey (fileName "a/b").toList = true ∧
    fileName "a/b" = fileName "a_b-c14cddc033f6" := by
  have hdigest : digestMark "a/b" = digestMark "a_b-c14cddc033f6" → "a/b" = "a_b-c14cddc033f6" := by
    decide +kernel
  refine (shared_file_is_named_by_a_key hdigest).imp_right fun hiff => hiff.2 ?_
  exact .inr (.inl (by decide +kernel))

/-! ## Fingerprints -/

def start (level : OptLevel) (disabled dynamic : Bool) : String :=
  s!"O{level.index};gas={disabled},{dynamic}"

def overrides (g : GasOptions) : String :=
  String.join (g.costs.map fun (id, costs) =>
    ";" ++ id ++ "=" ++ String.join (costs.map Gas.Cost.text))

lemma start_inj {l l' : OptLevel} {b b' c c' : Bool}
    (h : (start l b c).toList <+: (start l' b' c').toList) : l = l' ∧ b = b' ∧ c = c' := by
  revert h
  cases l <;> cases l' <;> revert b b' c c' <;> decide +kernel

/-- A fingerprint tells the level and the flags. Of the costs it tells the text, which does not say
where overrides begin. -/
theorem fingerprint_tells_level_and_flags (o o' : CompileOptions) :
    (o.fingerprint = o'.fingerprint ↔ (o.level = o'.level ∧ o.gas.disabled = o'.gas.disabled ∧
      o.gas.dynamic = o'.gas.dynamic) ∧ overrides o.gas = overrides o'.gas) ∧
    ∃ g g' : GasOptions, overrides g = overrides g' ∧ g.table ≠ g'.table := by
  have hsplit (o : CompileOptions) : o.fingerprint.toList =
      (start o.level o.gas.disabled o.gas.dynamic).toList ++ (overrides o.gas).toList :=
    String.toList_append
  refine ⟨?_, { costs := [("A", [{}]), ("B", [{}])] }, { costs := [("A=\x7b\x7d;B", [{}])] },
    by decide +kernel, by decide +kernel⟩
  rw [← String.toList_inj, hsplit, hsplit, ← String.toList_inj]
  refine ⟨fun h => ?_, fun ⟨⟨hlevel, hdisabled, hdynamic⟩, hcosts⟩ => ?_⟩
  · have hsame : o.level = o'.level ∧ o.gas.disabled = o'.gas.disabled ∧
        o.gas.dynamic = o'.gas.dynamic := by
      obtain ⟨c, hc, -⟩ | ⟨c, hc, -⟩ := append_eq_append_iff.1 h
      · exact start_inj ⟨c, hc.symm⟩
      · exact (start_inj ⟨c, hc.symm⟩).imp Eq.symm (And.imp Eq.symm Eq.symm)
    rw [hsame.1, hsame.2.1, hsame.2.2] at h
    exact ⟨hsame, append_cancel_left h⟩
  · rw [hlevel, hdisabled, hdynamic, hcosts]

end Sierra.Cache
