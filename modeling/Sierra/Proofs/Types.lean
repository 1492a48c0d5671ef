import Sierra.Decl.Settle
import Sierra.Proofs.Graph
import Sierra.Proofs.Loops

/-!
# Settled types

A generic builds a type in one of a few ways (`TypeInfo.Built`). The types of a program are built
so, each after those it is built from, and no two have the same number (`Types.Sound`).
-/

namespace Sierra

open List Except
open GenericType

variable {decls : List Declaration} {p : Program} {s : Settled} {generic : String} {id : TypeId}
  {info : TypeInfo} {kind : TypeKind} {t types t' : Types} {d : Declaration}

/-- The ways in which a type is built. -/
inductive TypeInfo.Built (t : Types) : TypeInfo → Prop
  | felt {kind : TypeKind} {generic : String} {hi : Int}
      (hkind : kind = .felt252 ∨ kind = .address) : Built t (integerInfo kind generic 252 0 hi)
  | uint {kind : TypeKind} {generic : String} {bits : Nat}
      (hkind : kind = .uint ∨ kind = .bytes31) (hpos : 0 < bits) (hbits : bits ≤ 256) :
      Built t (integerInfo kind generic bits 0 (pow2 bits - 1))
  | sint {generic : String} {bits : Nat} (hpos : 0 < bits) (hbits : bits ≤ 256) :
      Built t (integerInfo .sint generic bits (-pow2 (bits - 1)) (pow2 (bits - 1) - 1))
  | bounded {lo hi : Int} (hle : lo ≤ hi) :
      Built t (integerInfo .boundedInt "bounded_int" (boundedBits lo hi) lo hi)
  | counter {kind : TypeKind} {generic : String} {free : Bool}
      (hkind : kind = .builtin ∨ kind = .gasBuiltin ∨ kind = .builtinCosts ∨ kind = .system) :
      Built t { kind := kind, generic := generic, bits := 64, storable := true, droppable := free
                duplicatable := free, layout := Layout.int 64, register := .int 64 }
  | point {kind : TypeKind} {generic : String} {layout : Layout}
      (hkind : kind = .ecPoint ∧ layout = ecPointLayout ∨
        kind = .secpPoint ∧ layout = secpPointLayout) :
      Built t { kind := kind, generic := generic, storable := true, droppable := true
                duplicatable := true, layout := layout, register := .ofLayout layout }
  | nonZero {inner : TypeId} {info : TypeInfo} (hinner : t.info? inner = some info) :
      Built t { info with kind := .nonZero, generic := "NonZero", inner := inner }
  | snapshot {inner : TypeId} {info : TypeInfo} (hinner : t.info? inner = some info)
      (hkind : info.kind ≠ .snapshot) :
      Built t { info with kind := .snapshot, generic := "Snapshot", inner := inner
                          droppable := true, duplicatable := true }
  | pointer {kind : TypeKind} {generic : String} {inner : TypeId} {info : TypeInfo}
      (hkind : kind = .box ∨ kind = .nullable) (hinner : t.info? inner = some info) :
      Built t { kind := kind, generic := generic, inner := inner, storable := true
                droppable := info.droppable, duplicatable := info.duplicatable
                layout := Layout.pointer, register := .ptr }
  | array {inner : TypeId} {info : TypeInfo} (hinner : t.info? inner = some info)
      (hsized : info.zeroSized = false) :
      Built t { kind := .array, generic := "Array", inner := inner, storable := true
                droppable := info.droppable, needsClone := true
                layout := Layout.arrayDescriptor, register := .ofLayout Layout.arrayDescriptor }
  | uninitialized {inner : TypeId} :
      Built t { kind := .uninitialized, generic := "Uninitialized", inner := inner
                droppable := true, zeroSized := true, layout := Layout.unit
                register := .blob 0 1 }
  | struct {name : UserTypeId} {members : List (TypeId × TypeInfo)}
      (hmembers : ∀ m ∈ members, t.info? m.1 = some m.2) :
      Built t { aggregate .struct "Struct" name members
                  (Layout.struct (members.map (·.2.layout))) with
                zeroSized := members.all (·.2.zeroSized) }
  | enum {name : UserTypeId} {members : List (TypeId × TypeInfo)}
      (hmembers : ∀ m ∈ members, t.info? m.1 = some m.2) (hne : members ≠ []) :
      Built t (aggregate .enum "Enum" name members (Layout.enum (members.map (·.2.layout))))

namespace GenericType

variable {s : Scope} {args : List GenericArg} {info : TypeInfo}

lemma info?_of_info (h : t.info id = .ok info) : t.info? id = some info := by
  unfold Types.info at h
  split at h
  · next i hi => rw [hi, ok.inj h]
  · cases h

lemma onlyType_eq_ok {inner : TypeId} (h : s.onlyType args = .ok (inner, info)) :
    s.types.info? inner = some info := by
  obtain ⟨_, -, h⟩ := except_bind_eq_ok.1 h
  obtain ⟨id, -, h⟩ := except_bind_eq_ok.1 h
  obtain ⟨i, hi, h⟩ := except_bind_eq_ok.1 h
  cases h
  exact info?_of_info hi

def Builds (g : GenericType) : Prop :=
  ∀ s args info, g s args = .ok info → info.Built s.types

lemma builds_of_read {α : Type} {read : Scope → List GenericArg → Except Failure α}
    {make : α → TypeInfo} (h : ∀ s args a, read s args = .ok a → (make a).Built s.types) :
    Builds fun s args => do return make (← read s args) := by
  intro s args info hok
  obtain ⟨a, ha, hok⟩ := except_bind_eq_ok.1 hok
  rw [← ok.inj hok]
  exact h s args a ha

lemma builds_integer {bits : Nat} {lo hi : Int}
    (h : ∀ t, (integerInfo kind generic bits lo hi).Built t) :
    Builds (integer kind generic bits lo hi) :=
  builds_of_read fun _ _ _ _ => h _

lemma builds_boundedInt : Builds boundedInt := by
  intro s args info hok
  obtain ⟨_, -, hok⟩ := except_bind_eq_ok.1 hok
  obtain ⟨lo, -, hok⟩ := except_bind_eq_ok.1 hok
  obtain ⟨hi, -, hok⟩ := except_bind_eq_ok.1 hok
  split at hok
  · cases hok
  · next hle =>
    rw [← ok.inj hok]
    exact .bounded (not_lt.1 hle)

lemma builds_counter
    (hkind : kind = .builtin ∨ kind = .gasBuiltin ∨ kind = .builtinCosts ∨ kind = .system) :
    Builds (counter kind generic) :=
  builds_of_read fun _ _ _ _ => .counter hkind

lemma builds_point {layout : Layout} (hkind : kind = .ecPoint ∧ layout = ecPointLayout ∨
      kind = .secpPoint ∧ layout = secpPointLayout) : Builds (point kind generic layout) :=
  builds_of_read fun _ _ _ _ => .point hkind

lemma builds_nonZero : Builds nonZero := builds_of_read fun _ _ _ h => .nonZero (onlyType_eq_ok h)

lemma builds_pointer (hkind : kind = .box ∨ kind = .nullable) : Builds (pointer kind generic) :=
  builds_of_read fun _ _ _ h => .pointer hkind (onlyType_eq_ok h)

lemma builds_array : Builds array := by
  intro s args info hok
  obtain ⟨⟨inner, i⟩, hi, hok⟩ := except_bind_eq_ok.1 hok
  dsimp only at hok
  split at hok
  · cases hok
  · next hsized =>
    rw [← ok.inj hok]
    exact .array (onlyType_eq_ok hi) (Bool.eq_false_iff.2 hsized)

lemma builds_snapshot : Builds snapshot := by
  intro s args info hok
  obtain ⟨⟨inner, i⟩, hi, hok⟩ := except_bind_eq_ok.1 hok
  dsimp only at hok
  split at hok
  · cases hok
  · next hkind =>
    rw [← ok.inj hok]
    exact .snapshot (onlyType_eq_ok hi) hkind

lemma builds_uninitialized : Builds uninitialized := builds_of_read fun _ _ _ _ => .uninitialized

lemma members_eq_ok {name : UserTypeId} {ms : List (TypeId × TypeInfo)}
    (h : members s args = .ok (name, ms)) : ∀ m ∈ ms, s.types.info? m.1 = some m.2 := by
  unfold members at h
  split at h
  · obtain ⟨found, hfound, h⟩ := except_bind_eq_ok.1 h
    cases h
    intro m hm
    obtain ⟨_, -, hok⟩ := (forall₂_mem (forall₂_of_mapM hfound)).2 m hm
    obtain ⟨id, -, hok⟩ := except_bind_eq_ok.1 hok
    obtain ⟨info, hinfo, hok⟩ := except_bind_eq_ok.1 hok
    rw [← ok.inj hok]
    exact info?_of_info hinfo
  · cases h

lemma builds_struct : Builds struct := builds_of_read fun _ _ _ h => .struct (members_eq_ok h)

lemma builds_enum : Builds enum := by
  intro s args info hok
  obtain ⟨⟨name, ms⟩, hms, hok⟩ := except_bind_eq_ok.1 hok
  dsimp only at hok
  split at hok
  · cases hok
  · next hne =>
    rw [← ok.inj hok]
    exact .enum (members_eq_ok hms) (by simpa using hne)

lemma builds_of_mem_catalog {entry : String × GenericType} (h : entry ∈ catalog) :
    Builds entry.2 := by
  unfold catalog at h
  simp only [mem_append, mem_map, mem_cons, not_mem_nil, or_false] at h
  have hwidths : ∀ w ∈ widths, 0 < w ∧ w ≤ 256 := by decide
  rcases h with ((((rfl | ⟨w, hw, rfl⟩) | ⟨w, hw, rfl⟩) | h) | ⟨b, -, rfl⟩) | h
  · exact builds_integer fun t => .felt (.inl rfl)
  · exact builds_integer fun t => .uint (.inl rfl) (hwidths w hw).1 (hwidths w hw).2
  · exact builds_integer fun t => .sint (hwidths w hw).1 (hwidths w hw).2
  · rcases h with rfl | rfl | rfl | rfl | rfl | rfl | rfl | rfl | rfl | rfl | rfl | rfl | rfl | rfl
    · exact builds_boundedInt
    · exact builds_integer fun t => .uint (.inr rfl) (by decide) (by decide)
    · exact builds_integer fun t => .felt (.inr rfl)
    · exact builds_integer fun t => .felt (.inr rfl)
    · exact builds_integer fun t => .felt (.inr rfl)
    · exact builds_integer fun t => .felt (.inr rfl)
    · exact builds_nonZero
    · exact builds_pointer (.inl rfl)
    · exact builds_pointer (.inr rfl)
    · exact builds_array
    · exact builds_snapshot
    · exact builds_uninitialized
    · exact builds_struct
    · exact builds_enum
  · exact builds_counter (.inl rfl)
  · rcases h with rfl | rfl | rfl | rfl | rfl | rfl
    · exact builds_counter (.inr (.inl rfl))
    · exact builds_counter (.inr (.inr (.inl rfl)))
    · exact builds_counter (.inr (.inr (.inr rfl)))
    · exact builds_point (.inl ⟨rfl, rfl⟩)
    · exact builds_point (.inr ⟨rfl, rfl⟩)
    · exact builds_point (.inr ⟨rfl, rfl⟩)

end GenericType

/-! ## The types of a program -/

/-- Each type is built from those before it, no two with the same number. -/
structure Types.Sound (t : Types) : Prop where
  built : ∀ before id info after, t.entries = before ++ (id, info) :: after →
    info.Built ⟨t.declared, before⟩
  distinct : (t.entries.map (·.1.number)).Nodup

namespace Types

lemma mem_of_info? (h : t.info? id = some info) :
    ∃ id', (id', info) ∈ t.entries ∧ id'.number = id.number := by
  obtain ⟨⟨id', i⟩, hfound, rfl⟩ := Option.map_eq_some_iff.1 h
  exact ⟨id', mem_of_find?_eq_some hfound, by simpa [Ident.same] using find?_some hfound⟩

lemma info?_congr {a b : TypeId} (h : a.same b) : types.info? a = types.info? b := by
  have hnum : a.number = b.number := by simpa [Ident.same] using h
  simp [info?, Ident.same, hnum]

lemma Sound.register_gas (hsound : t.Sound)
    (h : t.info? id = some info) (hkind : info.kind = .gasBuiltin) : info.register = .int 64 := by
  obtain ⟨id', hmem, -⟩ := mem_of_info? h
  obtain ⟨before, after, hsplit⟩ := append_of_mem hmem
  cases hsound.built before id' info after hsplit with
  | counter => rfl
  | felt hfelt => rcases hfelt with rfl | rfl <;> cases hkind
  | uint huint => rcases huint with rfl | rfl <;> cases hkind
  | point hpoint => rcases hpoint with ⟨rfl, -⟩ | ⟨rfl, -⟩ <;> cases hkind
  | pointer hptr => rcases hptr with rfl | rfl <;> cases hkind
  | _ => exact absurd hkind (by simp [integerInfo, aggregate])

def AllBuilt (t : Types) : Prop :=
  ∀ before id info after, t.entries = before ++ (id, info) :: after → info.Built ⟨t.declared, before⟩

lemma AllBuilt.settle (hinfo : info.Built t) (hbuilt : t.AllBuilt) :
    (t.settle id info).AllBuilt := by
  intro before id' info' after hsplit
  rcases eq_nil_or_concat after with rfl | ⟨after, last, rfl⟩
  · obtain ⟨rfl, hlast⟩ := append_inj' hsplit rfl
    obtain ⟨-, rfl⟩ := Prod.mk.inj (singleton_inj.1 hlast)
    exact hinfo
  · rw [concat_eq_append, ← cons_append, ← append_assoc] at hsplit
    exact hbuilt before id' info' after (append_inj' hsplit rfl).1

end Types

namespace Settled

abbrev Distinct (ids : List Ident) : Prop := (ids.map (·.number)).Nodup

lemma firstRepeated_eq_none {seen ids : List Ident} : firstRepeated seen ids = none ↔
    Distinct ids ∧ ∀ id ∈ ids, ∀ other ∈ seen, id.number ≠ other.number := by
  induction ids generalizing seen with
  | nil => simp [firstRepeated, Distinct]
  | cons id ids ih =>
    rw [firstRepeated]
    split
    · next hold =>
      obtain ⟨other, hother, hsame⟩ := any_eq_true.1 hold
      exact iff_of_false (by simp) fun h => h.2 id mem_cons_self other hother (beq_iff_eq.1 hsame)
    · next hnew =>
      simp [Ident.same] at hnew ⊢
      grind

lemma requireDistinct_eq_ok {ids : List Ident} {fault : String → DeclFault} {u : Unit} :
    requireDistinct ids fault = .ok u ↔ Distinct ids := by
  have hnone := @firstRepeated_eq_none [] ids
  unfold requireDistinct
  cases h : firstRepeated [] ids <;> simp_all

/-! ## The graph of the types -/

def Declares (decls : List Declaration) (id : Ident) : Prop := ∃ d ∈ decls, d.id.number = id.number

/-- All types that types are declared with are declared. -/
def Closed (decls : List Declaration) : Prop :=
  ∀ d ∈ decls, ∀ id, .type id ∈ d.args → Declares decls id

def isOther : GenericArg → Bool
  | .type _ => false
  | _ => true

def placeOf (decls : List Declaration) : GenericArg → Nat
  | .type id => decls.findIdx fun d => d.id.same id
  | _ => 0

lemma placeOf_lt : placeOf decls (.type id) < decls.length ↔ Declares decls id := by
  simp [placeOf, Declares, Ident.same]

lemma positionOf_eq_ok {i : Nat} : positionOf decls id = .ok i ↔
    Declares decls id ∧ placeOf decls (.type id) = i := by
  rw [← placeOf_lt, placeOf, positionOf]
  cases h : decls.findIdx? fun d => d.id.same id with
  | none => simp [findIdx?_eq_none_iff_findIdx_eq.1 h]
  | some j => simp [findIdx?_eq_some_iff_findIdx_eq.1 h]

abbrev graphOf (decls : List Declaration) : Graph := .ofRows decls (·.args) isOther (placeOf decls)

lemma typeGraph_eq_ok {g : Graph} : typeGraph decls = .ok g ↔ Closed decls ∧ g = graphOf decls := by
  rw [typeGraph, foldlM_eq_ok_iff (P := fun x => ∀ id, .type id ∈ x.1.args → Declares decls id)
    (f := fun graph x => x.1.args.foldl (fun graph y =>
      if isOther y then graph else graph.insertEdge (placeOf decls y) x.2) graph)]
  · refine and_congr_left fun _ => ⟨fun h d hd => ?_,
      fun h x hx => h x.1 (fst_mem_of_mem_zipIdx hx)⟩
    obtain ⟨i, hi⟩ := mem_iff_getElem?.1 hd
    exact h (d, i) (mem_zipIdx_iff_getElem?.2 hi)
  · intro graph x graph'
    rw [foldlM_eq_ok_iff (P := fun arg => ∀ id, arg = .type id → Declares decls id)
      (f := fun graph y => if isOther y then graph else graph.insertEdge (placeOf decls y) x.2)]
    · exact and_congr_left fun _ => ⟨fun h id hid => h _ hid id rfl,
        fun h arg harg id hid => h id (hid ▸ harg)⟩
    · intro graph arg graph'
      cases arg with
      | type id =>
        rw [except_bind_eq_ok]
        simp only [positionOf_eq_ok, isOther, pure, Except.pure]
        simp [eq_comm]
      | _ => simp [isOther, eq_comm]

lemma lowest_cases : decls = [] ∧ lowest decls = none ∨
    ∃ d ∈ decls, lowest decls = some d ∧ ∀ e ∈ decls, d.id.number ≤ e.id.number := by
  cases decls with
  | nil => exact .inl ⟨rfl, rfl⟩
  | cons first decls =>
    right
    show ∃ d ∈ first :: decls, decls.foldl _ (some first) = some d ∧ _
    induction decls generalizing first with
    | nil => simp
    | cons d decls ih =>
      obtain ⟨e, he, hlowest, hle⟩ := ih (if d.id.number < first.id.number then d else first)
      refine ⟨e, ?_, ?_, ?_⟩ <;> grind

/-- The types left over, of which the one with the lowest number is blamed. -/
abbrev leftOver (decls : List Declaration) : List Declaration :=
  (graphOf decls).layers.cycles.filterMap (decls[·]?)

lemma leftOver_eq_nil : leftOver decls = [] ↔ (graphOf decls).layers.cyclic = false := by
  rw [Graph.Layers.cyclic, Bool.not_eq_false', List.isEmpty_iff]
  refine ⟨fun h => eq_nil_iff_forall_not_mem.2 fun i hi => ?_, fun h => by rw [leftOver, h]; rfl⟩
  have hlt := ((Graph.mem_cycles Graph.bounded_ofRows).1 hi).1
  rw [Graph.size_ofRows] at hlt
  exact ne_nil_of_mem (mem_filterMap.2 ⟨i, hi, getElem?_eq_getElem hlt⟩) h

/-! ## Types in order -/

lemma settleType_eq_ok (h : settleType t d = .ok t') :
    ∃ info, t' = t.settle d.id info ∧ info.Built t := by
  unfold settleType at h
  split at h
  · cases h
  · next name generic hfound =>
    split at h
    · next info hinfo =>
      refine ⟨info, (ok.inj h).symm, ?_⟩
      exact builds_of_mem_catalog (mem_of_find?_eq_some hfound) _ _ _ hinfo
    · cases h

lemma foldlM_settleType (h : decls.foldlM settleType t = .ok t') (hbuilt : t.AllBuilt) :
    t'.AllBuilt ∧ t'.entries.map (·.1) = t.entries.map (·.1) ++ decls.map (·.id) := by
  induction decls generalizing t with
  | nil =>
    cases h
    exact ⟨hbuilt, by simp⟩
  | cons d decls ih =>
    obtain ⟨next, hnext, hrest⟩ := foldlM_cons_ok h
    obtain ⟨info, rfl, hinfo⟩ := settleType_eq_ok hnext
    obtain ⟨hall, hids⟩ := ih hrest (hbuilt.settle hinfo)
    exact ⟨hall, by rw [hids]; simp [Types.settle]⟩

lemma settleTypes_eq_ok (h : settleTypes decls = .ok t) : Distinct (decls.map (·.id)) ∧
    Closed decls ∧ (graphOf decls).layers.cyclic = false ∧ t.AllBuilt ∧
    t.order = ((graphOf decls).layers.order.filterMap (decls[·]?)).map (·.id) := by
  obtain ⟨_, hdist, h⟩ := except_bind_eq_ok.1 h
  obtain ⟨g, hg, h⟩ := except_bind_eq_ok.1 h
  obtain ⟨hclosed, rfl⟩ := typeGraph_eq_ok.1 hg
  dsimp only at h
  split at h
  · cases h
  · next hnone =>
    obtain ⟨hnil, -⟩ := (@lowest_cases (leftOver decls)).resolve_right fun ⟨_, _, hd, _⟩ => by
      cases hnone.symm.trans hd
    obtain ⟨hbuilt, horder⟩ := foldlM_settleType h (by simp [Types.AllBuilt])
    exact ⟨requireDistinct_eq_ok.1 hdist, hclosed, leftOver_eq_nil.1 hnil, hbuilt, horder⟩

lemma sound_settleTypes (h : settleTypes decls = .ok t) : t.Sound := by
  obtain ⟨hdist, -, -, hbuilt, horder⟩ := settleTypes_eq_ok h
  refine ⟨hbuilt, ?_⟩
  rw [Distinct, map_map] at hdist
  have hentries : t.entries.map (·.1.number) =
      (graphOf decls).layers.order.filterMap fun i => (decls.map (·.id.number))[i]? := by
    simpa [Types.order, map_filterMap, Function.comp_def] using congrArg (map (·.number)) horder
  rw [hentries]
  refine (Graph.nodup_order Graph.bounded_ofRows).filterMap fun i j number hi hj => ?_
  obtain ⟨hlt, -⟩ := List.getElem?_eq_some_iff.1 hi
  exact (getElem?_inj hlt hdist).1 (hi.trans hj.symm)

/-! ## Library functions -/

/-- What an entry of the catalog makes of a declaration. -/
def Applies (p : Program) (types : Types) (d : Declaration) (entry : LibfuncId × Libfunc) : Prop :=
  entry.1 = d.id ∧ ∃ generic,
    (Libfunc.catalog.find? fun e => e.1 == d.generic).map (·.2) = some generic ∧
    generic { declaring := d.id.text, types := types, funcs := p.funcs } d.args = .ok entry.2

lemma applyLibfunc_eq_ok {known next : List (LibfuncId × Libfunc)}
    (h : applyLibfunc p types known d = .ok next) : (∀ e ∈ known, e.1.number ≠ d.id.number) ∧
    ∃ entry, Applies p types d entry ∧ next = known ++ [entry] := by
  unfold applyLibfunc at h
  split at h
  · cases h
  next hnew =>
  split at h
  · cases h
  next name generic hfind =>
  split at h
  · next lib hlib =>
    exact ⟨fun e he hsame => hnew (any_eq_true.2 ⟨e, he, beq_iff_eq.2 hsame⟩), _,
      ⟨rfl, generic, by rw [hfind]; rfl, hlib⟩, (ok.inj h).symm⟩
  · cases h

lemma foldlM_applyLibfunc {known last : List (LibfuncId × Libfunc)}
    (h : decls.foldlM (applyLibfunc p types) known = .ok last)
    (hknown : Distinct (known.map (·.1))) : Distinct (last.map (·.1)) ∧
    ∃ new, last = known ++ new ∧ Forall₂ (Applies p types) decls new := by
  induction decls generalizing known with
  | nil =>
    cases h
    exact ⟨hknown, [], by simp, .nil⟩
  | cons d decls ih =>
    obtain ⟨next, hnext, hrest⟩ := foldlM_cons_ok h
    obtain ⟨hnew, entry, hentry, rfl⟩ := applyLibfunc_eq_ok hnext
    obtain ⟨hdist, new, rfl, hall⟩ := ih hrest (by
      rw [Distinct, map_append, map_append, nodup_append']
      exact ⟨hknown, by simp, by simpa [eq_comm, hentry.1] using hnew⟩)
    exact ⟨hdist, entry :: new, by simp, .cons hentry hall⟩

lemma ofProgram_eq_ok (h : ofProgram p = .ok s) :
    s.program = p ∧ Distinct (p.funcs.map (·.id)) ∧ settleTypes p.types = .ok s.types ∧
      Distinct (s.libfuncs.map (·.1)) ∧ Forall₂ (Applies p s.types) p.libfuncs s.libfuncs ∧
      checkReferences s = .ok () := by
  obtain ⟨_, hdist, h⟩ := except_bind_eq_ok.1 h
  obtain ⟨types, htype, h⟩ := except_bind_eq_ok.1 h
  obtain ⟨libfuncs, hlibfuncs, h⟩ := except_bind_eq_ok.1 h
  obtain ⟨_, hcheck, h⟩ := except_bind_eq_ok.1 h
  obtain ⟨hlibs, _, rfl, hall⟩ := foldlM_applyLibfunc hlibfuncs (by simp [Distinct])
  rw [← ok.inj h]
  exact ⟨rfl, requireDistinct_eq_ok.1 hdist, htype, hlibs, hall, hcheck⟩

lemma sound_ofProgram (h : ofProgram p = .ok s) : s.types.Sound :=
  sound_settleTypes (ofProgram_eq_ok h).2.2.1

lemma libfunc_of_ofProgram (h : ofProgram p = .ok s)
    {id : LibfuncId} {lib : Libfunc} (hlib : s.libfunc id = .ok lib) :
    ∃ d ∈ p.libfuncs, d.id.number = id.number ∧ Applies p s.types d (d.id, lib) := by
  unfold libfunc at hlib
  split at hlib
  · next entry hfind =>
    cases hlib
    obtain ⟨-, -, -, -, hall, -⟩ := ofProgram_eq_ok h
    obtain ⟨d, hd, rfl, hmade⟩ := (forall₂_mem hall).2 _ (mem_of_find?_eq_some hfind)
    have hsame := find?_some hfind
    exact ⟨d, hd, beq_iff_eq.1 hsame, rfl, hmade⟩
  · cases hlib

end Settled

end Sierra
