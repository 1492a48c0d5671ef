import Sierra.Decl.Lookup
import Sierra.Proofs.Layout
import Sierra.Proofs.Value.Tables

/-!
# Layouts and registers on demand

Settled types have their layouts and registers stored with them. What is found on demand is the
same, whatever was asked before (`findLayout_spec`, `findRegister_spec`): types are declared with
earlier ones only, so no plan comes back to its type and no wrapped type is nested deeper than there
are types.
-/

namespace Sierra.Types

open List Layout

variable {t : Types} {id : TypeId} {info : TypeInfo} {k : Lookup} {plan : Nat → Plan}

/-! ## Plans -/

lemma gives_askAll (f : List Layout → Layout) {members : List (TypeId × TypeInfo)}
    (h : ∀ m ∈ members, Gives plan (plan m.1.number) m.2.layout) (known : List Layout) :
    Gives plan (.askAll known (fun ls => .answer (f ls)) (members.map (·.1)))
      (f (known.reverse ++ members.map (·.2.layout))) := by
  induction members generalizing known with
  | nil =>
    rw [map_nil, map_nil, append_nil]
    exact .answer _
  | cons m members ih =>
    have hrest := ih (fun m' hm' => h m' (mem_cons_of_mem _ hm')) (m.2.layout :: known)
    rw [reverse_cons, append_assoc] at hrest
    exact .ask (h m mem_cons_self) hrest

lemma Sound.gives_plan (hsound : t.Sound) :
    ∀ x ∈ t.entries, Gives t.planAt x.2.plan x.2.layout := by
  refine hsound.induction fun before id info after hsplit hbuilt hpre => ?_
  have hknown : ∀ {inner info}, (⟨t.declared, before⟩ : Types).info? inner = some info →
      Gives t.planAt (t.planAt inner.number) info.layout := by
    intro inner info hinfo
    obtain ⟨id', hmem, hnum⟩ := mem_of_info? hinfo
    have hsome : t.info? ⟨inner.number, ""⟩ = some info :=
      hsound.info?_eq (by rw [hsplit]; exact mem_append_left _ hmem) hnum
    rw [planAt, hsome]
    exact hpre _ hmem
  cases hbuilt with
  | nonZero hinfo | snapshot hinfo | array hinfo => exact .ask (hknown hinfo) (.answer _)
  | struct hmembers => exact gives_askAll _ (fun m hm => hknown (hmembers m hm)) []
  | enum hmembers => exact gives_askAll _ (fun m hm => hknown (hmembers m hm)) []
  | felt hkind | uint hkind | pointer hkind => rcases hkind with rfl | rfl <;> exact .answer _
  | counter hkind => rcases hkind with rfl | rfl | rfl | rfl <;> exact .answer _
  | point hkind => rcases hkind with ⟨rfl, -⟩ | ⟨rfl, -⟩ <;> exact .answer _
  | sint | bounded | uninitialized => exact .answer _

lemma mem_of_needs_planAt (m n : Nat) (h : Needs t.planAt m n) :
    m ∈ t.entries.map (·.1.number) := by
  unfold Needs at h
  rw [planAt] at h
  cases hinfo : t.info? ⟨m, ""⟩ with
  | none =>
    rw [hinfo] at h
    cases h
  | some info =>
    obtain ⟨id', hmem, rfl⟩ := mem_of_info? hinfo
    exact mem_map_of_mem hmem

/-! ## What is found -/

/-- All that has been found agrees with what is stored with the types. -/
structure Knows (t : Types) (k : Lookup) : Prop where
  layouts : Valid t.planAt k.layouts
  registers : ∀ (id : TypeId) info r, t.info? id = some info → k.registers[id.number]? = some r →
    r = info.register

/-- An answer agrees with the register that is stored, and there is one if the depth is enough. -/
structure RegisterIs (t : Types) (info : TypeInfo) (enough : Prop)
    (answer : Except Failure Ir.Ty × Lookup) : Prop where
  knows : t.Knows answer.2
  eq : ∀ r, answer.1 = .ok r → r = info.register
  ok : enough → answer.1 = .ok info.register

lemma Knows.registerIs (hk : t.Knows k) {enough : Prop} :
    t.RegisterIs info enough (.ok info.register, k) :=
  ⟨hk, fun _ hr => (Except.ok.inj hr).symm, fun _ => rfl⟩

section

variable (hsound : t.Sound)
include hsound

lemma Sound.findLayout_spec (hk : t.Knows k) (id : TypeId) :
    t.Knows (t.findLayout id k).2 ∧
      ∀ info, t.info? id = some info → (t.findLayout id k).1 = .ok info.layout := by
  obtain ⟨-, hright, hvalid⟩ := @right_layoutOf t.planAt k.layouts id _ mem_of_needs_planAt 0
    (t.entries.length + 1) [] (by simp) nodup_nil (by simp) hk.layouts
  refine ⟨⟨hvalid, hk.registers⟩, fun info hinfo => ?_⟩
  obtain ⟨id', hmem, hnum⟩ := mem_of_info? hinfo
  have hsome : t.info? ⟨id.number, ""⟩ = some info := hsound.info?_eq hmem hnum
  rw [planAt, hsome] at hright
  exact (hsound.gives_plan _ hmem).only hright

lemma Sound.ownRegister_spec (hk : t.Knows k) (hinfo : t.info? id = some info)
    {inside : Lookup → Except Failure Ir.Ty × Lookup} {depth : Nat}
    (hinside : ∀ inner, t.info? info.inner = some inner →
      t.RegisterIs inner (t.rankOf info.inner.number < depth) (inside k)) :
    t.RegisterIs info (t.rankOf id.number < depth + 1) (t.ownRegister id info inside k) := by
  obtain ⟨id', hmem, hnum⟩ := mem_of_info? hinfo
  obtain ⟨before, after, hsplit⟩ := append_of_mem hmem
  have hbuilt := hsound.built before id' info after hsplit
  have hrank : t.rankOf id.number = before.length := hnum ▸ hsound.rankOf_eq hsplit
  have hwrapped : ∀ {inner}, (⟨t.declared, before⟩ : Types).info? info.inner = some inner →
      inner.register = info.register →
      t.RegisterIs info (t.rankOf id.number < depth + 1) (inside k) := by
    intro inner hinner hsame
    obtain ⟨id'', hmem', hnumber'⟩ := mem_of_info? hinner
    have hlt : t.rankOf info.inner.number < before.length :=
      rankOf_lt hsplit (hnumber' ▸ mem_map_of_mem hmem')
    obtain ⟨hknows, heq, hok⟩ := hinside inner
      (hsound.info?_eq (by rw [hsplit]; exact mem_append_left _ hmem') hnumber')
    rw [hsame] at heq hok
    exact ⟨hknows, heq, fun hdepth => hok (by omega)⟩
  have hparts : info.register = .ofLayout info.layout →
      t.RegisterIs info (t.rankOf id.number < depth + 1)
        ((t.findLayout id k).1.map Ir.Ty.ofLayout, (t.findLayout id k).2) := by
    intro hregister
    obtain ⟨hknows, hlayout⟩ := hsound.findLayout_spec hk id
    rw [hlayout info hinfo, Except.map, ← hregister]
    exact hknows.registerIs
  cases hbuilt with
  | nonZero hinner | snapshot hinner => exact hwrapped hinner rfl
  | array | struct | enum => exact hparts rfl
  | felt hkind | uint hkind | pointer hkind => rcases hkind with rfl | rfl <;> exact hk.registerIs
  | counter hkind => rcases hkind with rfl | rfl | rfl | rfl <;> exact hk.registerIs
  | point hkind => rcases hkind with ⟨rfl, -⟩ | ⟨rfl, -⟩ <;> exact hk.registerIs
  | sint | bounded | uninitialized => exact hk.registerIs

lemma Sound.findRegister_spec (depth : Nat) (hk : t.Knows k) (hinfo : t.info? id = some info) :
    t.RegisterIs info (t.rankOf id.number < depth) (t.findRegister depth id k) := by
  induction depth generalizing id info k with
  | zero =>
    unfold findRegister
    split
    · next known hknown =>
      rw [hk.registers id info known hinfo hknown]
      exact hk.registerIs
    · exact ⟨hk, by simp, by simp⟩
  | succ depth ih =>
    unfold findRegister
    split
    · next known hknown =>
      rw [hk.registers id info known hinfo hknown]
      exact hk.registerIs
    · have hown := hsound.ownRegister_spec hk hinfo fun inner hinner => ih hk hinner
      rw [hinfo]
      dsimp only
      generalize t.ownRegister id info _ k = found at hown
      obtain ⟨_ | r, k'⟩ := found
      · exact hown
      · refine ⟨⟨hown.knows.layouts, fun id' info' r' hinfo' hr' => ?_⟩, hown.eq, hown.ok⟩
        rw [Std.HashMap.getElem?_insert] at hr'
        split at hr'
        · next hsame =>
          rw [← info?_congr hsame, hinfo] at hinfo'
          cases hinfo'
          cases hr'
          exact hown.eq r rfl
        · exact hown.knows.registers id' info' r' hinfo' hr'

lemma Sound.knows_after (queries : List Query) : t.Knows (queries.foldl t.after {}) := by
  have hempty : t.Knows {} := ⟨by simp [Valid], by simp⟩
  refine foldlRecOn (motive := t.Knows) queries _ hempty fun k hk query _ => ?_
  cases query with
  | layout id => exact (hsound.findLayout_spec hk id).1
  | register id =>
    cases hinfo : t.info? id with
    | some info => exact (hsound.findRegister_spec _ hk hinfo).knows
    | none =>
      show t.Knows (t.findRegister _ id k).2
      unfold findRegister
      split
      · exact hk
      · rw [hinfo]
        exact hk

/-- Whatever was asked before, a type has the layout and the register that are stored with it. -/
lemma Sound.found_after (queries : List Query) (hinfo : t.info? id = some info) :
    (t.findLayout id (queries.foldl t.after {})).1 = .ok info.layout ∧
      (t.findRegister (t.entries.length + 1) id (queries.foldl t.after {})).1 =
        .ok info.register := by
  have hk := hsound.knows_after queries
  have hrank : t.rankOf id.number ≤ t.entries.length := by
    rw [← length_map (f := fun x : TypeId × TypeInfo => x.1.number)]
    exact idxOf_le_length
  exact ⟨(hsound.findLayout_spec hk id).2 info hinfo,
    (hsound.findRegister_spec _ hk hinfo).ok (Nat.lt_succ_of_le hrank)⟩

end

end Sierra.Types
