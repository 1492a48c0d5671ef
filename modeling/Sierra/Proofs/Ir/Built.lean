import Sierra.Proofs.Ir.Scope

/-!
# Code as it is written

Writers keep more than the rules ask: every operation gets the results that its code produces, with
its type, and every value is used where its definition is in scope.
-/

namespace Sierra.Ir

variable {op : Op} {f : Func}

def Code.hasOneResult : Code → Bool
  | .store | .memcpy | .call | .runtimeCall | .invalid => false
  | _ => true

/-- A comparison gives a truth value, memory operations give addresses, choices and insertions give
the type of an operand; all others give the type they ask for. -/
def producedType (f : Func) (op : Op) : Ty :=
  match op.code with
  | .icmp => .int 1
  | .select => argType f op 1
  | .insert => argType f op 0
  | .alloc | .realloc | .ptradd => .ptr
  | _ => op.type

/-- An operation has the results that its code produces, with its type. -/
structure Op.Built (f : Func) (op : Op) : Prop where
  one : op.code.hasOneResult = true → ∃ v, op.results = [v] ∧ f.typeOf v = op.type
  type : op.code.hasOneResult = true → op.type = producedType f op
  none : op.code = .store ∨ op.code = .memcpy → op.results = []

lemma Op.built_iff :
    op.Built f ↔ (op.code.hasOneResult →
        op.results.map f.typeOf = [op.type] ∧ op.type = producedType f op) ∧
      (op.code = .store ∨ op.code = .memcpy → op.results = []) := by
  constructor
  · intro h
    exact ⟨fun hone => ⟨List.map_eq_singleton_iff.2 (h.one hone), h.type hone⟩, h.none⟩
  · rintro ⟨hone, hnone⟩
    exact ⟨fun h => List.map_eq_singleton_iff.1 (hone h).1, fun h => (hone h).2, hnone⟩

instance (f : Func) (op : Op) : Decidable (op.Built f) := decidable_of_iff' _ Op.built_iff

def Func.Built (f : Func) : Prop := ∀ b ∈ f.blocks, ∀ op ∈ b.ops, op.Built f

instance (f : Func) : Decidable f.Built :=
  inferInstanceAs (Decidable (∀ b ∈ f.blocks, ∀ op ∈ b.ops, op.Built f))

lemma Op.Built.typeOf_result (h : op.Built f) (hone : op.code.hasOneResult) {v : ValueId}
    (hv : v ∈ op.results) : f.typeOf v = op.type := by
  obtain ⟨u, hres, htype⟩ := h.one hone
  rw [hres, List.mem_singleton] at hv
  rw [hv, htype]

lemma Op.Built.congr {f' : Func} {op' : Op} (h : op.Built f) (hcode : op.code = op'.code)
    (htype : op.type = op'.type) (hres : op.results = op'.results)
    (hargs : ∀ i, argType f op i = argType f' op' i)
    (hvals : ∀ v, f.typeOf v = f'.typeOf v) : op'.Built f' := by
  have hmade : producedType f op = producedType f' op' := by
    simp only [producedType, hcode, htype, hargs]
  refine ⟨?_, ?_, ?_⟩
  · intro hone
    obtain ⟨v, hv, hvt⟩ := h.one (by rw [hcode]; exact hone)
    exact ⟨v, by rw [← hres, hv], by rw [← hvals, hvt, htype]⟩
  · intro hone
    rw [← htype, ← hmade]
    exact h.type (by rw [hcode]; exact hone)
  · intro hnone
    rw [← hres]
    exact h.none (by rw [hcode]; exact hnone)

/-- Accepted code, built as writers build it, with every use dominated. -/
structure Func.Valid (m : Module) (f : Func) : Prop where
  checked : f.Checked m
  dominated : f.Dominated
  built : f.Built

end Sierra.Ir
