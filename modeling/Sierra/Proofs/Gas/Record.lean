import Sierra.Proofs.Gas.Balance
import Sierra.Proofs.Gas.Price

/-!
# What the analysis keeps

Of functions that share a statement the last leaves its amounts, and every function has left an
amount wherever it pays (`Recorded`).
-/

namespace Sierra.Gas

open Analysis Option List
open Flow (Node Edge Explored)

/-! ## Keeping amounts -/

section

variable {α : Type} {values : Array (Option α)} {entries : List (Int × α)}
  (hentries : ∀ entry ∈ entries, 0 ≤ entry.1 ∧ entry.1.toNat < values.size)

lemma size_keep (values : Array (Option α)) (entries : List (Int × α)) :
    (keep values entries).size = values.size :=
  foldlRecOn entries _ (motive := (Array.size · = values.size)) rfl
    fun _ hsize _ _ => Array.size_modify.trans hsize

include hentries

lemma valueAt_keep (index : Int) : valueAt (keep values entries) index =
    (entries.reverse.lookup index).or (valueAt values index) := by
  induction entries using reverseRecOn with
  | nil => rfl
  | append_singleton entries entry ih =>
    obtain ⟨hpos, hlt⟩ := hentries entry (by simp)
    have hstep : keep values (entries ++ [entry]) =
        (keep values entries).modify entry.1.toNat fun _ => some entry.2 := foldl_append
    rw [hstep, valueAt_modify hpos (by rwa [size_keep]), ih fun other hother =>
      hentries other (mem_append_left _ hother), reverse_append]
    show _ = (lookup index ((entry.1, entry.2) :: entries.reverse)).or _
    rw [lookup_cons]
    by_cases heq : entry.1 = index
    · simp [heq]
    · have hne : (index == entry.1) = false := beq_eq_false_iff_ne.2 (Ne.symm heq)
      simp [heq, hne]

omit hentries

lemma valueAt_replicate (size : Nat) (index : Int) :
    valueAt (Array.replicate size (none : Option α)) index = none := by
  unfold valueAt
  simp only [Array.getElem?_replicate]
  split
  · rfl
  · split <;> rfl

lemma keep_flatMap {β : Type} {family : List β} {entries : β → List (Int × α)} {size : Nat}
    (hentries : ∀ x ∈ family, ∀ entry ∈ entries x, 0 ≤ entry.1 ∧ entry.1.toNat < size) :
    (∀ index amount, valueAt (keep (Array.replicate size none) (family.flatMap entries)) index =
        some amount → ∃ x ∈ family, (index, amount) ∈ entries x) ∧
      ∀ x ∈ family, ∀ entry ∈ entries x, (valueAt (keep (Array.replicate size none)
        (family.flatMap entries)) entry.1).isSome := by
  have hval : ∀ index, valueAt (keep (Array.replicate size none) (family.flatMap entries)) index =
      (family.flatMap entries).reverse.lookup index := by
    intro index
    rw [valueAt_keep, valueAt_replicate, or_none]
    intro entry hentry
    obtain ⟨x, hx, hentry⟩ := mem_flatMap.1 hentry
    simpa using hentries x hx entry hentry
  simp only [hval]
  refine ⟨fun index amount h => mem_flatMap.1 (mem_reverse.1 (mem_of_lookup h)), ?_⟩
  intro x hx entry hentry
  rw [isSome_iff_ne_none]
  intro hnone
  have hmem := mem_reverse.2 (mem_flatMap.2 ⟨x, hx, hentry⟩)
  exact absurd (lookup_eq_none_iff.1 hnone _ hmem) (by simp)

end

/-- The amounts kept are those of the functions looked at. -/
structure Recorded (size : Nat) (a : Analysis) (family : List (Flow × Amounts)) : Prop where
  injectedSize : a.injected.size = size
  chargesSize : a.charges.size = size
  injected : ∀ (index : Int) (amount : Nat), Analysis.valueAt a.injected index = some amount →
    ∃ x ∈ family, (index, amount) ∈ x.2.injected
  charges : ∀ (index : Int) (amount : Nat), Analysis.valueAt a.charges index = some amount →
    ∃ x ∈ family, (index, amount) ∈ x.2.charges
  injectedAll : ∀ x ∈ family, ∀ entry ∈ x.2.injected,
    (Analysis.valueAt a.injected entry.1).isSome = true
  chargesAll : ∀ x ∈ family, ∀ entry ∈ x.2.charges,
    (Analysis.valueAt a.charges entry.1).isSome = true

variable {s : Settled} {size : Nat} {a : Analysis} {p : Prices} {g : Flow}
  {family : List (Flow × Amounts)}

lemma Amounts.Fits.entries_range {a : Amounts} (h : a.Fits p g) (hg : g.Explored s) :
    (∀ entry ∈ a.injected, 0 ≤ entry.1 ∧ entry.1.toNat < s.program.statements.size) ∧
      ∀ entry ∈ a.charges, 0 ≤ entry.1 ∧ entry.1.toNat < s.program.statements.size := by
  rw [← hg.size]
  constructor
  · rintro ⟨index, amount⟩ hentry
    obtain ⟨n, hn, rfl, -⟩ := (h.mem_injected_iff hg).1 hentry
    exact hg.index_nonneg hn
  · rintro ⟨index, amount⟩ hentry
    obtain ⟨n, hn, rfl, -⟩ := (h.mem_charges_iff hg).1 hentry
    exact hg.index_nonneg hn

section

variable (hfam : ∀ x ∈ family, x.2.Fits p x.1 ∧ x.1.Explored s)
include hfam

lemma recorded_of_kept (hinj : a.injected = keep (Array.replicate s.program.statements.size none)
      (family.flatMap (·.2.injected)))
    (hcharges : a.charges = keep (Array.replicate s.program.statements.size none)
      (family.flatMap (·.2.charges))) : Recorded s.program.statements.size a family := by
  have hrange := fun x hx => (hfam x hx).1.entries_range (hfam x hx).2
  obtain ⟨hfrom, hall⟩ := keep_flatMap fun x hx => (hrange x hx).1
  obtain ⟨hfrom', hall'⟩ := keep_flatMap fun x hx => (hrange x hx).2
  rw [← hinj] at hfrom hall
  rw [← hcharges] at hfrom' hall'
  exact ⟨by simp [hinj, size_keep], by simp [hcharges, size_keep], hfrom, hfrom', hall, hall'⟩

def Analysis.tariff (a : Analysis) : Tariff where
  injected := a.injectedAt
  charge := a.chargeAt

/-- Every amount is one that some function has worked out for the statement. -/
structure Tariff.Drawn (t : Tariff) (family : List (Flow × Amounts)) : Prop where
  injected : ∀ (index : Int) (amount : Nat), t.injected index = some amount →
    ∃ x ∈ family, ∃ n ∈ x.1.order, n.index = index ∧
      Amounts.isCut x.2.cut (x.2.view.place index) = true ∧ (amount : Int) = x.2.needAt index
  free : ∀ x ∈ family, ∀ n ∈ x.1.order, t.injected n.index = none →
    Amounts.isCut x.2.cut (x.2.view.place n.index) = false
  charge : ∀ x ∈ family, ∀ n ∈ x.1.order, isCheckpoint n = true → ∀ e : Edge,
    n.edges[0]? = some e → ∃ y ∈ family, ∃ m ∈ y.1.order, m.index = n.index ∧
      (t.charge n.index : Int) = y.2.dueFor e.target

lemma Recorded.drawn (h : Recorded size a family) : a.tariff.Drawn family := by
  refine ⟨fun index amount hamt => ?_, fun x hx n hn hnone => ?_, fun x hx n hn hpoint e he => ?_⟩
  · obtain ⟨x, hx, hmem⟩ := h.injected index amount hamt
    obtain ⟨hfits, hseen⟩ := hfam x hx
    exact ⟨x, hx, (hfits.mem_injected_iff hseen).1 hmem⟩
  · obtain ⟨hfits, hseen⟩ := hfam x hx
    rw [Bool.eq_false_iff]
    intro hcut
    have hmem := (hfits.mem_injected_iff hseen).2 ⟨n, hn, rfl, hcut,
      Int.toNat_of_nonneg (hfits.needAt_nonneg hseen hn)⟩
    have hsome := h.injectedAll x hx _ hmem
    rw [show valueAt a.injected n.index = none from hnone] at hsome
    cases hsome
  · obtain ⟨hfits, hseen⟩ := hfam x hx
    have hdue := hfits.dueFor_target_nonneg hseen hn he
    have hmem := (hfits.mem_charges_iff hseen).2
      ⟨n, hn, rfl, hpoint, e, he, Int.toNat_of_nonneg hdue⟩
    obtain ⟨amount, hamt⟩ := isSome_iff_exists.1 (h.chargesAll x hx _ hmem)
    -- the charge that stands may be that of another function with the statement
    obtain ⟨y, hy, hmem'⟩ := h.charges _ _ hamt
    obtain ⟨hfits', hseen'⟩ := hfam y hy
    obtain ⟨n', hn', hidx, -, e', he', hval⟩ := (hfits'.mem_charges_iff hseen').1 hmem'
    obtain ⟨-, -, hedges⟩ := hseen'.agree hseen hn' hn hidx
    rw [hedges, he] at he'
    cases he'
    refine ⟨y, hy, n', hn', hidx, ?_⟩
    show (((valueAt a.charges n.index).getD 0 : Nat) : Int) = y.2.dueFor e.target
    rw [hamt, getD_some, hval]

lemma Recorded.backed (h : Recorded size a family) : a.tariff.Backed family := by
  have hdrawn := h.drawn hfam
  refine ⟨fun index amount hamt => ?_, hdrawn.free, fun x hx n hn hpoint e he => ?_⟩
  · obtain ⟨x, hx, n, hn, hidx, -, hneed⟩ := hdrawn.injected index amount hamt
    exact ⟨x, hx, n, hn, hidx, le_of_eq hneed.symm⟩
  · obtain ⟨y, hy, m, hm, hidx, hcharge⟩ := hdrawn.charge x hx n hn hpoint e he
    obtain ⟨-, -, hedges⟩ := (hfam y hy).2.agree (hfam x hx).2 hm hn hidx
    obtain ⟨target, htarget, hto⟩ :=
      (hfam y hy).2.exists_target hm (hedges ▸ mem_of_getElem? he)
    exact ⟨y, hy, target, htarget, hto, le_of_eq hcharge.symm⟩

end

end Sierra.Gas
