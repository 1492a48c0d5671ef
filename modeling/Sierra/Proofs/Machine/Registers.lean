import Sierra.Machine.Run
import Sierra.Proofs.Ir.Checked

/-!
# Registers

A value that has a register is read back as written, all others stay, and writing the same images
over two register files keeps them equal wherever they were.
-/

namespace Sierra.Machine

open List Option
open Ir

variable {regs regs' : Array Image} {images : List Image} {vs : List ValueId}

/-! ## One register -/

@[simp] lemma size_setReg (regs : Array Image) (v : ValueId) (image : Image) :
    (setReg regs v image).size = regs.size := Array.size_setIfInBounds

lemma reg_setReg_self {v : Int} (image : Image)
    (hv : HasMark regs.size v) : reg (setReg regs v image) v = image := by
  rw [reg, setReg, Array.getElem?_setIfInBounds, if_pos rfl, if_pos hv.2, getD_some]

lemma reg_setReg_of_ne {v w : Int} (image : Image) (hv : 0 ≤ v)
    (hw : 0 ≤ w) (hne : w ≠ v) : reg (setReg regs v image) w = reg regs w := by
  rw [reg, reg, setReg, Array.getElem?_setIfInBounds, if_neg (by omega)]

lemma reg_setReg_congr (hsize : regs.size = regs'.size) (v : ValueId)
    (image : Image) {w : ValueId} (h : w = v ∨ reg regs w = reg regs' w) :
    reg (setReg regs v image) w = reg (setReg regs' v image) w := by
  rw [reg, reg, setReg, setReg, Array.getElem?_setIfInBounds, Array.getElem?_setIfInBounds, hsize]
  by_cases heq : v.toNat = w.toNat
  · rw [if_pos heq, if_pos heq]
  · rw [if_neg heq, if_neg heq]
    rcases h with rfl | h
    · exact absurd rfl heq
    · exact h

/-! ## Several registers -/

@[simp] lemma assign?_nil (regs : Array Image) (images : List Image) :
    assign? regs [] images = some regs := by
  simp [assign?]

@[simp] lemma assign?_cons (regs : Array Image) (v : ValueId) (vs : List ValueId) (image : Image)
    (images : List Image) :
    assign? regs (v :: vs) (image :: images) = assign? (setReg regs v image) vs images := by
  simp [assign?]

lemma exists_assign? (hlen : vs.length ≤ images.length) (regs : Array Image) :
    ∃ regs', assign? regs vs images = some regs' := by
  fun_induction assign? regs vs images with
  | case1 regs => exact ⟨regs, rfl⟩
  | case2 => simp at hlen
  | case3 _ _ _ _ _ ih => exact ih (by simpa using hlen)

lemma assign?_eq_none (hlen : images.length < vs.length) : assign? regs vs images = none := by
  fun_induction assign? regs vs images with
  | case1 => simp at hlen
  | case2 => rfl
  | case3 _ _ _ _ _ ih => exact ih (by simpa using hlen)

section

variable (h : assign? regs vs images = some regs')

include h

lemma length_le_of_assign? : vs.length ≤ images.length := by
  refine Nat.le_of_not_lt fun hlt => ?_
  rw [assign?_eq_none hlt] at h
  cases h

lemma exists_reassign? (regs : Array Image) : ∃ regs', assign? regs vs images = some regs' :=
  exists_assign? (length_le_of_assign? h) regs

lemma size_assign? : regs'.size = regs.size := by
  fun_induction assign? regs vs images with
  | case1 => rw [some.inj h]
  | case2 => cases h
  | case3 _ _ _ _ _ ih => rw [ih h, size_setReg]

lemma reg_assign?_of_not_mem (hvs : ∀ v ∈ vs, (0 : Int) ≤ v) {w : Int} (hw : 0 ≤ w)
    (hnot : w ∉ vs) : reg regs' w = reg regs w := by
  fun_induction assign? regs vs images with
  | case1 => rw [some.inj h]
  | case2 => cases h
  | case3 regs v vs image images ih =>
    rw [mem_cons, not_or] at hnot
    rw [ih h (fun u hu => hvs u (mem_cons_of_mem _ hu)) hnot.2]
    exact reg_setReg_of_ne image (hvs v mem_cons_self) hw hnot.1

lemma reg_assign?_getElem (hnodup : vs.Nodup) (hvs : ∀ v ∈ vs, HasMark regs.size v) {i : Nat}
    {v : ValueId} (hv : vs[i]? = some v) : images[i]? = some (reg regs' v) := by
  fun_induction assign? regs vs images generalizing i with
  | case1 => simp at hv
  | case2 => cases h
  | case3 regs u vs image images ih =>
    rw [nodup_cons] at hnodup
    cases i with
    | zero =>
      rw [getElem?_cons_zero, some.injEq] at hv
      subst hv
      rw [getElem?_cons_zero]
      have hu := hvs u mem_cons_self
      have hkeep := reg_assign?_of_not_mem h
        (fun w hw => (hvs w (mem_cons_of_mem _ hw)).1) hu.1 hnodup.1
      rw [hkeep, reg_setReg_self image hu]
    | succ i =>
      refine ih h hnodup.2 ?_ hv
      intro w hw
      rw [size_setReg]
      exact hvs w (mem_cons_of_mem _ hw)

lemma map_reg_assign? (hnodup : vs.Nodup) (hvs : ∀ v ∈ vs, HasMark regs.size v)
    (hlength : images.length = vs.length) : vs.map (reg regs') = images := by
  refine ext_getElem? fun i => ?_
  rw [getElem?_map]
  cases hv : vs[i]? with
  | none =>
    rw [map_none, eq_comm, getElem?_eq_none_iff, hlength]
    exact getElem?_eq_none_iff.1 hv
  | some v => rw [map_some, reg_assign?_getElem h hnodup hvs hv]

end

lemma reg_assign?_congr {next next' : Array Image} (hsize : regs.size = regs'.size)
    (h : assign? regs vs images = some next) (h' : assign? regs' vs images = some next')
    {w : ValueId} (hw : w ∈ vs ∨ reg regs w = reg regs' w) : reg next w = reg next' w := by
  fun_induction assign? regs vs images generalizing regs' with
  | case1 =>
    rw [assign?_nil, some.injEq] at h'
    rw [← some.inj h, ← h']
    rcases hw with hw | hw
    · cases hw
    · exact hw
  | case2 => cases h
  | case3 regs v vs image images ih =>
    refine ih (by simpa using hsize) h h' ?_
    rcases hw with hw | hw
    · rcases mem_cons.1 hw with rfl | hw
      · exact .inr (reg_setReg_congr hsize w image (.inl rfl))
      · exact .inl hw
    · exact .inr (reg_setReg_congr hsize v image (.inr hw))

end Sierra.Machine
