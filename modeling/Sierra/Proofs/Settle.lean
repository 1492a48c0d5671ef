import Sierra.Proofs.Lookup
import Sierra.Proofs.Value.RoundTrip

/-!
# Settled programs are complete

What a settled program refers to is there (`Resolved`) and in order (`Ordered`). Of the types from
which one declared with itself is reached (`Behind`), the one with the lowest number is blamed.
-/

namespace Sierra.Settled

open List Except
open Relation (ReflTransGen TransGen)

variable {decls : List Declaration} {p : Program} {s : Settled} {t : Types} {id : TypeId}
  {d e : Declaration}

def Mentions (decls : List Declaration) (d e : Declaration) : Prop :=
  d ∈ decls ∧ e ∈ decls ∧ ∃ id, .type id ∈ d.args ∧ e.id.number = id.number

/-- One declared with itself, through others or not, is reached from the type. -/
def Behind (decls : List Declaration) (d : Declaration) : Prop :=
  ∃ c, ReflTransGen (Mentions decls) d c ∧ TransGen (Mentions decls) c c

/-- Every declared type is there once, after those it is declared with. -/
structure Ordered (decls : List Declaration) (order : List TypeId) : Prop where
  distinct : Distinct order
  mem : ∀ id, id ∈ order ↔ id ∈ decls.map (·.id)
  after : ∀ d e, Mentions decls d e → [e.id, d.id] <+ order

/-- No declaration is repeated, and all that a program refers to is there. -/
structure Resolved (p : Program) : Prop where
  types : Distinct (p.types.map (·.id))
  libfuncs : Distinct (p.libfuncs.map (·.id))
  funcs : Distinct (p.funcs.map (·.id))
  closed : Closed p.types
  signatures : ∀ f ∈ p.funcs, ∀ id ∈ f.paramTypes ++ f.retTypes, Declares p.types id
  entries : ∀ f ∈ p.funcs, (p.statement? f.entry).isSome = true
  calls : ∀ call, .invoke call ∈ p.statements → Declares p.libfuncs call.libfunc

/-! ## Types in order -/

section

variable (hdistinct : Distinct (decls.map (·.id)))

include hdistinct

lemma getElem?_placeOf (hd : d ∈ decls) : decls[placeOf decls (.type d.id)]? = some d := by
  have hlt := placeOf_lt.2 ⟨d, hd, rfl⟩
  have hsame := beq_iff_eq.1 (findIdx_getElem (w := hlt))
  rw [Distinct, map_map] at hdistinct
  rw [getElem?_eq_getElem hlt]
  exact congrArg some (inj_on_of_nodup_map hdistinct (getElem_mem hlt) hd hsame)

lemma precedes_of_mentions (h : Mentions decls d e) :
    (graphOf decls).Precedes (placeOf decls (.type e.id)) (placeOf decls (.type d.id)) := by
  obtain ⟨hd, he, id, hid, hnum⟩ := h
  refine Graph.mem_next_ofRows.2 ⟨placeOf_lt.2 ⟨e, he, rfl⟩, d, getElem?_placeOf hdistinct hd,
    .type id, hid, rfl, ?_⟩
  simp [placeOf, Ident.same, hnum]

/-- The types left over are those from which a type declared with itself is reached. -/
lemma mem_leftOver : d ∈ leftOver decls ↔ Behind decls d := by
  simp only [mem_filterMap, Graph.mem_cycles_iff Graph.bounded_ofRows]
  constructor
  · rintro ⟨i, ⟨c, hcycle, hway⟩, hi⟩
    have hmentions : ∀ v u, (graphOf decls).Precedes u v →
        Mentions decls ((decls[v]?).getD d) ((decls[u]?).getD d) := by
      intro v u h
      obtain ⟨hu, x, hx, y, hy, htype, rfl⟩ := Graph.mem_next_ofRows.1 h
      cases y with
      | type id =>
        rw [hx, getElem?_eq_getElem hu]
        exact ⟨mem_of_getElem? hx, getElem_mem hu, id, hy, beq_iff_eq.1 (findIdx_getElem (w := hu))⟩
      | _ => cases htype
    have hway : ReflTransGen (Mentions decls) ((decls[i]?).getD d) _ := hway.swap.lift _ hmentions
    rw [hi] at hway
    exact ⟨_, hway, hcycle.swap.lift _ hmentions⟩
  · rintro ⟨c, hway, hcycle⟩
    have hd : d ∈ decls := by
      obtain ⟨e, he, -⟩ := TransGen.head'_iff.1 (hcycle.trans_right hway)
      exact he.1
    have hprec := fun d e => @precedes_of_mentions decls e d hdistinct
    exact ⟨_, ⟨_, hcycle.swap.lift _ hprec, hway.swap.lift _ hprec⟩, getElem?_placeOf hdistinct hd⟩

end

lemma ordered_settleTypes (h : settleTypes decls = .ok t) : Ordered decls t.order := by
  obtain ⟨hdistinct, -, hacyc, -, horder⟩ := settleTypes_eq_ok h
  have hget := fun {d} => @getElem?_placeOf decls d hdistinct
  refine ⟨?_, fun id => ?_, fun d e hmentions => ?_⟩
  · rw [Distinct, Types.order, map_map]
    exact (sound_settleTypes h).distinct
  · simp only [horder, mem_map, mem_filterMap]
    constructor
    · rintro ⟨d, ⟨i, -, hi⟩, rfl⟩
      exact ⟨d, mem_of_getElem? hi, rfl⟩
    · rintro ⟨d, hd, rfl⟩
      have hplaced := ((Graph.order_ofRows hacyc).2.1 _).2 (placeOf_lt.2 ⟨d, hd, rfl⟩)
      exact ⟨d, ⟨_, hplaced, hget hd⟩, rfl⟩
  · obtain ⟨-, hall, hfirst⟩ := Graph.layers_order Graph.bounded_ofRows hacyc
    have hlt := placeOf_lt.2 ⟨d, hmentions.1, rfl⟩
    obtain ⟨before, after, hsplit⟩ := append_of_mem ((hall _).2 ((Graph.size_ofRows ..).symm ▸ hlt))
    have hpre := hfirst before _ after hsplit _ (precedes_of_mentions hdistinct hmentions)
    have hsub : [placeOf decls (.type e.id)] ++ [placeOf decls (.type d.id)] <+
        (graphOf decls).layers.order := by
      rw [hsplit]
      exact (singleton_sublist.2 hpre).append (singleton_sublist.2 mem_cons_self)
    rw [horder]
    simpa [hget hmentions.1, hget hmentions.2.1] using (hsub.filterMap (decls[·]?)).map (·.id)

lemma settleTypes_eq_error (hdistinct : Distinct (decls.map (·.id))) (hclosed : Closed decls)
    (hcycle : TransGen (Mentions decls) d d) :
    ∃ d, settleTypes decls = .error (.decl (.cyclicType d.id.text) none) ∧ Behind decls d ∧
      ∀ e, Behind decls e → d.id.number ≤ e.id.number := by
  have hleft := (mem_leftOver hdistinct).2 ⟨d, .refl, hcycle⟩
  simp only [← mem_leftOver hdistinct]
  obtain ⟨hnil, -⟩ | ⟨e, he, hlowest, hle⟩ := @lowest_cases (leftOver decls)
  · exact absurd hnil (ne_nil_of_mem hleft)
  · refine ⟨e, ?_, he, hle⟩
    rw [settleTypes, (requireDistinct_eq_ok (u := ())).2 hdistinct,
      typeGraph_eq_ok.2 ⟨hclosed, rfl⟩]
    simp [bind, Except.bind, hlowest]

/-! ## References -/

lemma isSome_info?_iff (h : settleTypes decls = .ok t) :
    (t.info? id).isSome ↔ Declares decls id := by
  have hmem := (ordered_settleTypes h).mem
  simp only [Types.order, mem_map] at hmem
  simp only [Types.info?, Option.isSome_map, find?_isSome, Ident.same, beq_iff_eq, Declares]
  constructor
  · rintro ⟨entry, hentry, hnum⟩
    obtain ⟨d, hd, hsame⟩ := (hmem entry.1).1 ⟨entry, hentry, rfl⟩
    exact ⟨d, hd, hsame ▸ hnum⟩
  · rintro ⟨d, hd, hnum⟩
    obtain ⟨entry, hentry, hsame⟩ := (hmem d.id).2 ⟨d, hd, rfl⟩
    exact ⟨entry, hentry, hsame ▸ hnum⟩

lemma resolved_of_ofProgram (h : ofProgram p = .ok s) : Resolved p := by
  obtain ⟨rfl, hfuncs, htypes, hlibs, hall, hcheck⟩ := ofProgram_eq_ok h
  obtain ⟨hdistinct, hclosed, -⟩ := settleTypes_eq_ok htypes
  obtain ⟨_, hfunctions, hstatements⟩ := except_bind_eq_ok.1 hcheck
  have hids : s.program.libfuncs.map (·.id) = s.libfuncs.map (·.1) := by
    refine forall₂_eq_eq_eq ▸ (forall₂_map_left_iff.2 (forall₂_map_right_iff.2 ?_))
    exact hall.imp fun _ _ happlied => happlied.1.symm
  refine ⟨hdistinct, hids ▸ hlibs, hfuncs, hclosed, fun f hf id hid => ?_, fun f hf => ?_,
    fun call hcall => ?_⟩
  · obtain ⟨_, hsig, -⟩ := except_bind_eq_ok.1 (forM_eq_ok hfunctions f hf)
    obtain ⟨info, hinfo, -⟩ := except_bind_eq_ok.1 (forM_eq_ok hsig id hid)
    exact (isSome_info?_iff htypes).1 (by rw [GenericType.info?_of_info hinfo]; rfl)
  · obtain ⟨_, -, hentry⟩ := except_bind_eq_ok.1 (forM_eq_ok hfunctions f hf)
    split at hentry
    · cases hentry
    · next hsome => simpa [← Option.isSome_iff_ne_none] using hsome
  · have hlib := forM_eq_ok hstatements _ (Array.mem_toList_iff.2 hcall)
    obtain ⟨lib, hlib, -⟩ := except_bind_eq_ok.1 hlib
    obtain ⟨d, hd, hnum, -⟩ := libfunc_of_ofProgram h hlib
    exact ⟨d, hd, hnum⟩

/-- A settled program has all that it refers to, and each type, after those it is declared with, has
a layout and a register: those stored with it are found on demand, whatever was asked before. A
program with a type declared with itself is not settled, and this is what is reported if the numbers
are distinct and the types declared. -/
theorem settled_programs_are_complete (p : Program) :
    (∀ s, ofProgram p = .ok s → Resolved p ∧ Ordered p.types s.types.order ∧
      ∀ id (queries : List Query), Declares p.types id →
        let known := queries.foldl s.types.after {}
        ∃ layout register, s.types.layout id = .ok layout ∧ s.types.register id = .ok register ∧
          (s.types.findLayout id known).1 = .ok layout ∧
          (s.types.findRegister (s.types.entries.length + 1) id known).1 = .ok register) ∧
    ∀ d, TransGen (Mentions p.types) d d → (∃ cause, ofProgram p = .error cause) ∧
      (Distinct (p.types.map (·.id)) → Distinct (p.funcs.map (·.id)) → Closed p.types →
        ∃ text, ofProgram p = .error (.decl (.cyclicType text) none)) := by
  refine ⟨fun s h => ?_, fun d hcycle => ⟨?_, fun htypes hfuncs hclosed => ?_⟩⟩
  · obtain ⟨-, -, htypes, -⟩ := ofProgram_eq_ok h
    refine ⟨resolved_of_ofProgram h, ordered_settleTypes htypes, fun id queries hid => ?_⟩
    obtain ⟨info, hinfo⟩ := Option.isSome_iff_exists.1 ((isSome_info?_iff htypes).2 hid)
    rw [Types.layout, Types.register, Types.info, hinfo]
    exact ⟨_, _, rfl, rfl, (sound_settleTypes htypes).found_after queries hinfo⟩
  · cases hok : ofProgram p with
    | error cause => exact ⟨cause, rfl⟩
    | ok s =>
      obtain ⟨hdistinct, -, hacyclic, -⟩ := settleTypes_eq_ok (ofProgram_eq_ok hok).2.2.1
      have hleft := (mem_leftOver hdistinct).2 ⟨d, .refl, hcycle⟩
      exact absurd (leftOver_eq_nil.2 hacyclic) (ne_nil_of_mem hleft)
  · obtain ⟨d, hd, -⟩ := settleTypes_eq_error htypes hclosed hcycle
    exact ⟨_, by rw [ofProgram, (requireDistinct_eq_ok (u := ())).2 hfuncs, hd]; rfl⟩

def selfBoxed : Program where
  types := [{ id := ⟨0, ""⟩, generic := "Box", args := [.type ⟨0, ""⟩] }]

theorem nested_is_settled_and_self_boxed_is_not :
    (∃ s, ofProgram Value.nested = .ok s ∧ Resolved Value.nested ∧
      Ordered Value.nested.types s.types.order) ∧
    ∃ text, ofProgram selfBoxed = .error (.decl (.cyclicType text) none) := by
  have hsettled : (ofProgram Value.nested).isOk = true := by decide +kernel
  constructor
  · cases hok : ofProgram Value.nested with
    | error cause =>
      rw [hok] at hsettled
      cases hsettled
    | ok s =>
      obtain ⟨hresolved, hordered, -⟩ := (settled_programs_are_complete Value.nested).1 s hok
      exact ⟨s, rfl, hresolved, hordered⟩
  · have hmentions : Mentions selfBoxed.types _ _ :=
      ⟨mem_cons_self, mem_cons_self, ⟨0, ""⟩, mem_cons_self, rfl⟩
    refine ((settled_programs_are_complete selfBoxed).2 _ (.single hmentions)).2 (by decide)
      (by decide) fun d hd id hid => ?_
    obtain rfl := mem_singleton.1 hd
    obtain rfl := GenericArg.type.inj (mem_singleton.1 hid)
    exact ⟨_, hd, rfl⟩

/-- Of the types from which a type declared with itself is reached, the one with the lowest number
is reported, whether or not it is declared with itself. -/
theorem lowest_type_behind_cycles_is_reported (htypes : Distinct (p.types.map (·.id)))
    (hfuncs : Distinct (p.funcs.map (·.id))) (hclosed : Closed p.types)
    (hcycle : TransGen (Mentions p.types) d d) :
    ∃ d, ofProgram p = .error (.decl (.cyclicType d.id.text) none) ∧ Behind p.types d ∧
      ∀ e, Behind p.types e → d.id.number ≤ e.id.number := by
  obtain ⟨d, hd, hlowest⟩ := settleTypes_eq_error htypes hclosed hcycle
  exact ⟨d, by rw [ofProgram, (requireDistinct_eq_ok (u := ())).2 hfuncs, hd]; rfl, hlowest⟩

def boxOfSelfBoxed : Program where
  types := [{ id := ⟨0, "A"⟩, generic := "Box", args := [.type ⟨1, "B"⟩] },
    { id := ⟨1, "B"⟩, generic := "Box", args := [.type ⟨1, "B"⟩] }]

theorem box_of_self_boxed_is_reported : ∃ d,
    ofProgram boxOfSelfBoxed = .error (.decl (.cyclicType d.id.text) none) ∧
      Behind boxOfSelfBoxed.types d ∧
      ∀ e, Behind boxOfSelfBoxed.types e → d.id.number ≤ e.id.number := by
  have hinner : ∀ d ∈ boxOfSelfBoxed.types, ∀ id, .type id ∈ d.args → id = ⟨1, "B"⟩ := by
    simp [boxOfSelfBoxed]
  refine lowest_type_behind_cycles_is_reported (by decide) (by decide) (fun d hd id hid => ?_)
    (.single ⟨mem_of_getElem? (i := 1) rfl, mem_of_getElem? (i := 1) rfl, _, mem_cons_self, rfl⟩)
  rw [hinner d hd id hid]
  exact ⟨_, mem_of_getElem? (i := 1) rfl, rfl⟩

end Sierra.Settled
