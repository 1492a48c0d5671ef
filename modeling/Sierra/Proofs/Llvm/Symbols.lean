import Mathlib.Data.List.Nodup
import Sierra.Llvm.Emit
import Sierra.Proofs.Loops

/-!
# Global symbols

No two names have one symbol (`globalName_injective`), and nothing keeps a function from having the
name of a support function.
-/

namespace Sierra.Llvm

open List Except Bytes
open Ir

variable {messages : Array String} {context : Context}

def Unit.symbols (u : Unit) : List String :=
  (u.declarations.map (·.name) ++ u.definitions.map (·.name)).map globalName ++
    (List.range u.messages.length).map (s!"@.msg{·}")

/-! ## Names between quotes -/

def quotedByte (b : UInt8) : List Char :=
  String.toList <| if b = 0x22 || b = 0x5c || b < 0x20 || 0x7f ≤ b then escapedByte b
    else String.singleton (Char.ofNat b.toNat)

def unquote? : List Char → Option (Nat × List Char)
  | '\\' :: high :: low :: rest => (Text.digits? 16 [high, low]).map (·, rest)
  | '\\' :: _ | [] => none
  | c :: rest => some (c.toNat, rest)

lemma unquote?_append {cs : List Char} {n : Nat} (h : unquote? cs = some (n, []))
    (rest : List Char) : unquote? (cs ++ rest) = some (n, rest) := by
  fun_cases unquote? cs <;> simp_all [unquote?]

lemma unquote?_quotedByte (b : UInt8) (rest : List Char) :
    unquote? (quotedByte b ++ rest) = some (b.toNat, rest) := by
  have htable : ∀ n < 256, unquote? (quotedByte (UInt8.ofNat n)) = some (n, []) := by
    decide +kernel
  have hb := htable b.toNat b.toNat_lt
  rw [UInt8.ofNat_toNat] at hb
  exact unquote?_append hb rest

lemma eq_of_flatMap_quotedByte {as bs : Bytes}
    (h : as.flatMap quotedByte = bs.flatMap quotedByte) : as = bs := by
  induction as generalizing bs with
  | nil =>
    cases bs with
    | nil => rfl
    | cons b bs =>
      have hb := unquote?_quotedByte b (bs.flatMap quotedByte)
      rw [flatMap_cons] at h
      rw [← h] at hb
      cases hb
  | cons a as ih =>
    have ha := unquote?_quotedByte a (as.flatMap quotedByte)
    rw [flatMap_cons] at h
    rw [h] at ha
    cases bs with
    | nil => cases ha
    | cons b bs =>
      rw [flatMap_cons, unquote?_quotedByte, Option.some.injEq, Prod.mk.injEq] at ha
      rw [UInt8.toNat_inj.1 ha.1, ih ha.2.symm]

lemma ofString_eq (s : String) : ofString s = s.toList.flatMap String.utf8EncodeChar := by
  rw [ofString, String.toUTF8, ← String.utf8Encode_toList, utf8Encode]
  simp

lemma ofString_injective : Function.Injective ofString := fun _ _ h =>
  String.toByteArray_inj.1 (ByteArray.ext (Array.toList_inj.1 h))

lemma globalName_injective : Function.Injective globalName := by
  intro a b h
  -- a symbol that begins with a quote is not plain
  have hquote : ∀ {name rest}, "@" ++ name = "@\"" ++ rest ++ "\"" →
      isPlainName (ofString name) = false := by
    intro name rest hname
    rw [show "@\"" = "@" ++ "\"" from rfl, String.append_assoc, String.append_assoc,
      String.append_right_inj] at hname
    rw [hname, ofString_eq, String.toList_append]
    rfl
  unfold globalName at h
  dsimp only at h
  split at h <;> split at h
  · exact (String.append_right_inj "@").1 h
  · next ha _ =>
    cases (hquote h).symm.trans ha
  · next _ hb =>
    rw [hquote h.symm] at hb
    cases hb
  · rw [String.append_left_inj, String.append_right_inj, ← String.toList_inj, String.toList_join,
      String.toList_join, flatMap_map, flatMap_map] at h
    have hbytes := eq_of_flatMap_quotedByte h
    exact ofString_injective hbytes

/-! ## Names of messages -/

lemma isPlain_of_isDigit {c : Char} (h : c.isDigit) :
    (String.utf8EncodeChar c).all (isPlain · false) := by
  have hdigits : ∀ n < 58, 48 ≤ n →
      (String.utf8EncodeChar (Char.ofNat n)).all (isPlain · false) := by decide
  have hc : '0' ≤ c ∧ c ≤ '9' := by simpa [Char.isDigit, Char.le_def] using h
  rw [← c.ofNat_toNat]
  exact hdigits _ (Nat.lt_succ_of_le hc.2) hc.1

lemma globalName_message (i : Nat) : globalName s!".msg{i}" = s!"@.msg{i}" := by
  have hdigits : ((toString i).toList.flatMap String.utf8EncodeChar).all (isPlain · false) := by
    rw [all_flatMap, all_eq_true]
    intro c hc
    rw [show toString i = i.repr from rfl, Nat.toList_repr] at hc
    exact isPlain_of_isDigit (Nat.isDigit_of_mem_toDigits (by decide) (by decide) hc)
  have hplain : isPlainName (ofString s!".msg{i}") := by
    rw [ofString_eq, String.toList_append]
    exact hdigits
  unfold globalName
  rw [if_pos hplain]
  rfl

/-! ## The names of a module -/

lemma name_of_emitFunc {f : Func} {r : Definition × Array String}
    (h : emitFunc context messages f = .ok r) : r.1.name = f.name := by
  obtain ⟨_, -, h⟩ := except_bind_eq_ok.1 h
  dsimp only at h
  split at h
  · obtain ⟨_, -, h⟩ := except_bind_eq_ok.1 h
    split at h
    · cases h
    · obtain ⟨_, -, h⟩ := except_bind_eq_ok.1 h
      exact ok.inj h ▸ rfl
  · cases h

lemma names_of_emitFuncs {fs : List Func} {r : List Definition × Array String}
    (h : emitFuncs context messages fs = .ok r) : r.1.map (·.name) = fs.map (·.name) := by
  fun_induction emitFuncs context messages fs generalizing r with
  | case1 => exact ok.inj h ▸ rfl
  | case2 => cases h
  | case3 _ f rest _ _ hf ih =>
    obtain ⟨_, hrest, h⟩ := except_bind_eq_ok.1 h
    cases h
    rw [map_cons, map_cons, name_of_emitFunc hf, ih hrest]

/-- A module is written without a symbol that stands twice exactly when the names of support
functions, of host functions, of functions and of messages are all different. -/
theorem symbols_nodup_iff {m : Module} {u : Unit} (h : emitModule m = .ok u) :
    u.symbols.Nodup ↔ (supportDeclarations.map (·.name) ++ m.runtime.map (·.name) ++
      m.funcs.map (·.name) ++ (List.range u.messages.length).map (s!".msg{·}")).Nodup := by
  have hmessages : ((List.range u.messages.length).map (s!".msg{·}")).map globalName =
      (List.range u.messages.length).map (s!"@.msg{·}") := by
    rw [List.map_map]
    exact List.map_congr_left fun i _ => globalName_message i
  rw [Unit.symbols, ← hmessages, ← List.map_append, List.nodup_map_iff globalName_injective]
  obtain ⟨funcs, -, h⟩ := except_bind_eq_ok.1 h
  obtain ⟨hosts, -, h⟩ := except_bind_eq_ok.1 h
  obtain ⟨r, hr, h⟩ := except_bind_eq_ok.1 h
  cases h
  rw [← names_of_emitFuncs hr, List.map_append, List.map_map]
  rfl

def idle (name : String) : Func :=
  { name := name, blocks := #[{ id := 0, term := .ret [] }] }

theorem symbols_nodup_idle :
    ∃ u, emitModule ⟨"m", [idle "a\"b"], []⟩ = .ok u ∧ u.symbols.Nodup :=
  ⟨_, rfl, (symbols_nodup_iff (m := ⟨"m", [idle "a\"b"], []⟩) rfl).2 (by decide +kernel)⟩

theorem symbols_not_nodup_idle :
    ∃ u, emitModule ⟨"m", [idle "rt_alloc"], []⟩ = .ok u ∧ ¬ u.symbols.Nodup :=
  ⟨_, rfl, by decide +kernel⟩

end Sierra.Llvm
