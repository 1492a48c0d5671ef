import Mathlib.Algebra.GroupWithZero.Nat
import Mathlib.Algebra.Order.BigOperators.Group.Finset
import Sierra.Gas.Analysis
import Sierra.Proofs.Graph

/-!
# What the searches find

The search for loops closes one, the search through the calls comes back to a function. Each finds
a cycle only where there is one, and the second finds one wherever there is.
-/

namespace Sierra

open List Relation

namespace Gas

open scoped BigOperators

variable {next : Array (List Nat)} {u v : Nat}

/-! ## Steps that are left -/

/-- The sum of a cost over the nodes not looked at. -/
def leftOver (size : Nat) (cost : Nat → Nat) (left : Nat → Bool) : Nat :=
  ∑ v ∈ Finset.range size, if left v then cost v else 0

lemma leftOver_add_le {size : Nat} {cost : Nat → Nat} {left left' : Nat → Bool} (hu : left u)
    (hcost : size ≤ u → cost u = 0) (hleft : ∀ v, left' v ↔ left v ∧ v ≠ u) :
    leftOver size cost left' + cost u ≤ leftOver size cost left := by
  have hother : ∀ v, v ≠ u → left' v = left v := fun v hv => by
    rw [Bool.eq_iff_iff, hleft, and_iff_left hv]
  unfold leftOver
  by_cases hlt : u < size
  · have hmem := Finset.mem_range.2 hlt
    rw [← Finset.add_sum_erase _ _ hmem, ← Finset.add_sum_erase _ (fun v => ite _ _ _) hmem,
      Finset.sum_congr rfl fun v hv => by rw [hother v (Finset.ne_of_mem_erase hv)]]
    simp [hleft, hu, add_comm]
  · rw [hcost (Nat.le_of_not_lt hlt), Nat.add_zero]
    refine le_of_eq (Finset.sum_congr rfl fun v hv => ?_)
    rw [hother v fun heq => hlt (heq ▸ Finset.mem_range.1 hv)]

lemma leftOver_le (size : Nat) (cost : Nat → Nat) (left : Nat → Bool) :
    leftOver size cost left ≤ ∑ v ∈ Finset.range size, cost v :=
  Finset.sum_le_sum fun v _ => by split <;> simp

lemma foldl_length_eq (rows : Array (List Nat)) :
    rows.foldl (fun sum row => sum + row.length) 0 =
      ∑ v ∈ Finset.range rows.size, ((rows[v]?).getD []).length := by
  have hall : ∀ (rows : List (List Nat)) (k : Nat), rows.foldl (fun sum row => sum + row.length) k =
        k + ∑ v ∈ Finset.range rows.length, ((rows[v]?).getD []).length := by
    intro rows
    induction rows with
    | nil => simp
    | cons row rows ih =>
      intro k
      rw [foldl_cons, ih, length_cons, Finset.sum_range_succ']
      simp [add_assoc, add_comm]
  rw [← Array.foldl_toList, hall]
  simp

/-! ## The search for loops -/

/-- The nodes that a search goes to from a node. -/
abbrev Leads (next : Array (List Nat)) (u v : Nat) : Prop := v ∈ (next[u]?).getD []

namespace Search

variable {below : List (Nat × List Nat)} {s : Search} {rest : List Nat}

def unseen (next : Array (List Nat)) (s : Search) : Nat :=
  leftOver next.size (fun v => ((next[v]?).getD []).length + 1) fun v => s.markOf v == .unseen

/-- The open nodes are those on the stack, each reached from those below. -/
structure Sane (next : Array (List Nat)) (stack : List (Nat × List Nat)) (s : Search) : Prop where
  size : s.marks.size = next.size
  opened : ∀ v, s.markOf v = .open → v ∈ stack.map (·.1)
  rest : ∀ x ∈ stack, ∀ u ∈ x.2, Leads next x.1 u
  below : stack.Pairwise fun x y => TransGen (Leads next) y.1 x.1

lemma lt_size_of_markOf (h : s.markOf v ≠ .done) : v < s.marks.size := by
  by_contra hout
  exact h (by rw [markOf, Array.getElem?_eq_none (Nat.le_of_not_lt hout)]; rfl)

lemma markOf_mark (s : Search) (u v : Nat) (m : Mark) :
    (s.mark u m).markOf v = if u = v ∧ v < s.marks.size then m else s.markOf v := by
  rw [markOf, markOf, mark, Array.getElem?_modify]
  by_cases heq : u = v
  · by_cases hlt : v < s.marks.size <;> simp [heq, hlt]
  · simp [heq]

lemma unseen_mark_add_le (hsize : s.marks.size = next.size) (hu : s.markOf u = .unseen) :
    unseen next (s.mark u .open) + (((next[u]?).getD []).length + 1) ≤ unseen next s := by
  have hlt := lt_size_of_markOf (by rw [hu]; decide : s.markOf u ≠ .done)
  refine leftOver_add_le (by simp [hu]) (fun hout => absurd hlt (by omega)) fun v => ?_
  rw [markOf_mark]
  by_cases heq : u = v
  · simp [← heq, hlt]
  · simp [heq, Ne.symm heq]

lemma Sane.pop (h : Sane next ((v, []) :: below) s) : Sane next below (s.mark v .done) := by
  refine ⟨by simpa [mark] using h.size, fun w hw => ?_,
    fun x hx => h.rest x (mem_cons_of_mem _ hx), (pairwise_cons.1 h.below).2⟩
  rw [markOf_mark] at hw
  split at hw
  · cases hw
  · next hother =>
    refine (mem_cons.1 (h.opened w hw)).resolve_left fun heq => hother ⟨heq.symm, ?_⟩
    exact lt_size_of_markOf (by rw [hw]; decide)

lemma Sane.skip (h : Sane next ((v, u :: rest) :: below) s) : Sane next ((v, rest) :: below) s := by
  refine ⟨h.size, h.opened, fun x hx => ?_, pairwise_cons.2 (pairwise_cons.1 h.below)⟩
  rcases mem_cons.1 hx with rfl | hx
  · exact fun w hw => h.rest _ mem_cons_self w (mem_cons_of_mem _ hw)
  · exact h.rest x (mem_cons_of_mem _ hx)

lemma Sane.push (h : Sane next stack s) (hu : ∀ x ∈ stack, TransGen (Leads next) x.1 u) :
    Sane next ((u, (next[u]?).getD []) :: stack) (s.mark u .open) := by
  refine ⟨by simpa [mark] using h.size, fun w hw => ?_, fun x hx => ?_,
    pairwise_cons.2 ⟨hu, h.below⟩⟩
  · rw [markOf_mark] at hw
    split at hw
    · next heq => simp [heq.1]
    · exact mem_cons_of_mem _ (h.opened w hw)
  · rcases mem_cons.1 hx with rfl | hx
    · exact fun w hw => hw
    · exact h.rest x hx

lemma Sane.transGen (h : Sane next ((v, u :: rest) :: below) s) :
    ∀ w ∈ v :: below.map (·.1), TransGen (Leads next) w u := by
  have hlead : Leads next v u := h.rest _ mem_cons_self u mem_cons_self
  intro w hw
  rcases mem_cons.1 hw with rfl | hw
  · exact .single hlead
  · obtain ⟨x, hx, rfl⟩ := mem_map.1 hw
    exact ((pairwise_cons.1 h.below).1 x hx).tail hlead

/-- An edge into a node where no loop closes. -/
abbrev Free (next : Array (List Nat)) (cut : Array Bool) (u w : Nat) : Prop :=
  Leads next u w ∧ Amounts.isCut cut w = false

/-- Where a node leads is left to look at, closes a loop, is done, or stands above it. -/
def Looked (next : Array (List Nat)) (s : Search) : Option Nat → List (Nat × List Nat) → Prop
  | _, [] => True
  | above, (v, rest) :: below =>
    (∀ w, Leads next v w →
      w ∈ rest ∨ Amounts.isCut s.cut w = true ∨ s.markOf w = .done ∨ above = some w) ∧
      Looked next s (some v) below

lemma Looked.mono {s' : Search} {above above' : Option Nat} (h : Looked next s above stack)
    (hcut : ∀ w, Amounts.isCut s.cut w → Amounts.isCut s'.cut w)
    (hdone : ∀ w, s.markOf w = .done → s'.markOf w = .done)
    (habove : ∀ w, above = some w → above' = some w ∨ s'.markOf w = .done) :
    Looked next s' above' stack := by
  induction stack generalizing above above' with
  | nil => trivial
  | cons x below ih =>
    refine ⟨fun w hw => ?_, ih h.2 fun w hw => .inl hw⟩
    rcases h.1 w hw with hrest | hclosed | hmark | hnext
    · exact .inl hrest
    · exact .inr (.inl (hcut w hclosed))
    · exact .inr (.inr (.inl (hdone w hmark)))
    · exact .inr (.inr (habove w hnext).symm)

/-- Loops close on cycles only, and from a done node every way without closed loops ends. -/
structure Sound (next : Array (List Nat)) (stack : List (Nat × List Nat)) (s : Search) : Prop where
  sane : Sane next stack s
  size : s.cut.size = next.size
  closed : ∀ v, Amounts.isCut s.cut v = true → TransGen (Leads next) v v
  looked : Looked next s none stack
  ends : ∀ v, s.markOf v = .done → Acc (fun w u => Free next s.cut u w) v

lemma Sound.pop (h : Sound next ((v, []) :: below) s) : Sound next below (s.mark v .done) := by
  have hv : (s.mark v .done).markOf v = .done := by
    by_contra hnot
    have hlt := lt_size_of_markOf hnot
    rw [markOf_mark, if_pos ⟨rfl, by simpa [mark] using hlt⟩] at hnot
    exact hnot rfl
  refine ⟨h.sane.pop, h.size, h.closed, h.looked.2.mono (fun _ hw => hw) (fun w hw => ?_)
    (fun w hw => .inr (Option.some.inj hw ▸ hv)), fun w hw => ?_⟩
  · rw [markOf_mark, hw, ite_self]
  · rw [markOf_mark] at hw
    split at hw
    · next heq =>
      obtain rfl := heq.1
      -- all that the node leads to has been looked at
      refine .intro _ fun u hu => h.ends u ?_
      simpa [show Amounts.isCut s.cut u = false from hu.2] using h.looked.1 u hu.1
    · exact h.ends w hw

lemma Sound.skip (h : Sound next ((v, u :: rest) :: below) s)
    (hu : Amounts.isCut s.cut u ∨ s.markOf u = .done) :
    Sound next ((v, rest) :: below) s := by
  refine ⟨h.sane.skip, h.size, h.closed, ⟨fun w hw => ?_, h.looked.2⟩, h.ends⟩
  rcases h.looked.1 w hw with hmem | hother
  · rcases mem_cons.1 hmem with rfl | hmem
    · exact .inr (hu.imp_right .inl)
    · exact .inl hmem
  · exact .inr hother

lemma Sound.close (h : Sound next ((v, u :: rest) :: below) s) (hu : s.markOf u = .open) :
    Sound next ((v, u :: rest) :: below) (s.close u) ∧ Amounts.isCut (s.close u).cut u := by
  have hlt : u < s.cut.size := by
    rw [h.size, ← h.sane.size]
    exact lt_size_of_markOf (by rw [hu]; decide)
  have hcut : ∀ w, Amounts.isCut (s.close u).cut w ↔
      u = w ∨ Amounts.isCut s.cut w := by
    intro w
    rw [Amounts.isCut, Amounts.isCut, Search.close, Array.getElem?_modify]
    by_cases heq : u = w
    · simp [← heq, hlt]
    · simp [heq]
  refine ⟨⟨⟨h.sane.size, h.sane.opened, h.sane.rest, h.sane.below⟩, ?_, fun w hw => ?_,
    h.looked.mono (fun w hw => (hcut w).2 (.inr hw)) (fun _ hw => hw) (fun _ hw => .inl hw),
    fun w hw => ?_⟩, (hcut u).2 (.inl rfl)⟩
  · rw [Search.close, Array.size_modify, h.size]
  · rcases (hcut w).1 hw with rfl | hw
    · -- the node is on the stack, so that it leads to itself
      exact h.sane.transGen u (h.sane.opened u hu)
    · exact h.closed w hw
  · refine Subrelation.accessible (fun {x y} hxy => ⟨hxy.1, ?_⟩) (h.ends w hw)
    rw [← Bool.not_eq_true]
    exact fun hx => Bool.false_ne_true (hxy.2.symm.trans ((hcut x).2 (.inr hx)))

lemma Sound.push {stack' : List (Nat × List Nat)} (h : Sound next stack' s)
    (hu : s.markOf u = .unseen)
    (hsane : Sane next ((u, (next[u]?).getD []) :: stack) (s.mark u .open))
    (hlooked : Looked next s (some u) stack) :
    Sound next ((u, (next[u]?).getD []) :: stack) (s.mark u .open) := by
  refine ⟨hsane, h.size, h.closed, ⟨fun w hw => .inl hw, hlooked.mono (fun _ hw => hw)
    (fun w hw => ?_) fun _ hw => .inl hw⟩, fun w hw => ?_⟩
  · rw [markOf_mark, if_neg fun heq => by simp [heq.1, hw] at hu, hw]
  · rw [markOf_mark] at hw
    split at hw
    · cases hw
    · exact h.ends w hw

lemma sound_run {fuel : Nat} (h : Sound next stack s)
    (hfuel : (stack.map fun x => x.2.length + 1).sum + unseen next s < fuel) :
    Sound next [] (run next fuel stack s) ∧
      ∀ v, s.markOf v ≠ .unseen → (run next fuel stack s).markOf v ≠ .unseen := by
  have hmark : ∀ {s : Search} {u v m}, m ≠ .unseen → s.markOf v ≠ .unseen →
      (s.mark u m).markOf v ≠ .unseen := by
    intro s u v m hm hv
    rw [markOf_mark]
    split
    · exact hm
    · exact hv
  fun_induction run next fuel stack s with
  | case1 => omega
  | case2 => exact ⟨h, fun _ hv => hv⟩
  | case3 fuel v below s ih =>
    have hle : unseen next (s.mark v .done) ≤ unseen next s := by
      unfold unseen leftOver
      refine Finset.sum_le_sum fun w _ => ?_
      by_cases hw : v = w ∧ w < s.marks.size <;> simp [markOf_mark, hw]
    simp only [map_cons, sum_cons, length_nil] at hfuel
    obtain ⟨hsound, hseen⟩ := ih h.pop (by omega)
    exact ⟨hsound, fun w hw => hseen w (hmark (by decide) hw)⟩
  | case4 fuel v u rest below s hu ih =>
    have hle := unseen_mark_add_le h.sane.size hu
    simp only [map_cons, sum_cons, length_cons] at hfuel ih
    have hlooked : Looked next s (some u) ((v, rest) :: below) := by
      refine ⟨fun w hw => ?_, h.looked.2⟩
      have := h.looked.1 w hw
      grind
    obtain ⟨hsound, hseen⟩ := ih (h.push hu (h.sane.skip.push fun x hx =>
      h.sane.transGen x.1 (mem_map.2 ⟨x, hx, rfl⟩)) hlooked) (by omega)
    exact ⟨hsound, fun w hw => hseen w (hmark (by decide) hw)⟩
  | case5 fuel v u rest below s hu ih =>
    simp only [map_cons, sum_cons, length_cons] at hfuel ih
    obtain ⟨hclosed, hcut⟩ := h.close hu
    have hsame : unseen next (s.close u) = unseen next s := rfl
    exact ih (hclosed.skip (.inl hcut)) (by omega)
  | case6 fuel v u rest below s hu ih =>
    simp only [map_cons, sum_cons, length_cons] at hfuel ih
    exact ih (h.skip (.inr hu)) (by omega)

lemma sound_fromRoots (roots : List Nat) (h : Sound next [] s) :
    Sound next [] (roots.foldl (fromRoot next) s) ∧ ∀ v, s.markOf v ≠ .unseen ∨ v ∈ roots →
      (roots.foldl (fromRoot next) s).markOf v ≠ .unseen := by
  induction roots generalizing s with
  | nil => exact ⟨h, by simp⟩
  | cons root roots ih =>
    have hstep : Sound next [] (fromRoot next s root) ∧ ∀ v, s.markOf v ≠ .unseen ∨ v = root →
        (fromRoot next s root).markOf v ≠ .unseen := by
      unfold fromRoot
      split
      · next hroot =>
        have hle := unseen_mark_add_le h.sane.size hroot
        have hall : unseen next s < bound next := by
          refine Nat.lt_succ_of_le ((leftOver_le _ _ _).trans (Nat.le_of_eq ?_))
          rw [Finset.sum_add_distrib, foldl_length_eq]
          simp [add_comm]
        obtain ⟨hsound, hseen⟩ := @sound_run _ _ _ (bound next)
          (h.push hroot (h.sane.push (by simp)) trivial)
          (by simp only [map_cons, map_nil, sum_cons, sum_nil]; omega)
        refine ⟨hsound, fun v hv => hseen v ?_⟩
        rw [markOf_mark]
        split
        · decide
        · next hout =>
          refine hv.resolve_right fun heq => hout ⟨heq.symm, ?_⟩
          exact heq ▸ lt_size_of_markOf (by rw [hroot]; decide)
      · next hroot => exact ⟨h, fun v hv => hv.elim id fun heq => heq ▸ hroot⟩
    obtain ⟨hsound, hseen⟩ := ih hstep.1
    refine ⟨hsound, fun v hv => hseen v ?_⟩
    rw [mem_cons, ← or_assoc] at hv
    exact hv.imp_left (hstep.2 v)

end Search

lemma loopHeads_spec (next : Array (List Nat)) (root : Nat) :
    (loopHeads next root).size = next.size ∧
      (∀ v, Amounts.isCut (loopHeads next root) v → TransGen (Leads next) v v) ∧
      ∀ v, ¬ TransGen (Search.Free next (loopHeads next root)) v v := by
  have hstart : Search.Sound next []
      ⟨Array.replicate next.size .unseen, Array.replicate next.size false⟩ := by
    refine ⟨⟨by simp, fun v hv => ?_, by simp, .nil⟩, by simp, fun v hv => ?_, trivial, fun v hv => ?_⟩
    · rw [Search.markOf, Array.getElem?_replicate] at hv
      split at hv <;> cases hv
    · rw [Amounts.isCut, Array.getElem?_replicate] at hv
      split at hv <;> cases hv
    · refine .intro _ fun w hw => absurd hw.1 ?_
      rw [Search.markOf, Array.getElem?_replicate] at hv
      split at hv
      · cases hv
      · next hlt => simp [Leads, Array.getElem?_eq_none (Nat.le_of_not_lt hlt)]
  obtain ⟨hsound, hseen⟩ := Search.sound_fromRoots (root :: range next.size) hstart
  refine ⟨hsound.size, hsound.closed, fun v hv => ?_⟩
  have hends : ∀ v, Acc (fun w u => Search.Free next (loopHeads next root) u w) v := by
    refine fun v => hsound.ends v ?_
    by_cases hlt : v < next.size
    · have hunseen := hseen v (.inr (mem_cons_of_mem _ (mem_range.2 hlt)))
      have hopen := hsound.sane.opened v
      revert hunseen hopen
      cases Search.markOf _ v <;> simp
    · by_contra hnot
      exact hlt (hsound.sane.size ▸ Search.lt_size_of_markOf hnot)
  exact (WellFounded.intro hends).transGen.irrefl.irrefl v hv.swap

/-! ## The search through the calls -/

variable {calls : Array (List Nat)} {goal : Nat}

lemma length_getD_le (calls : Array (List Nat)) (f : Nat) :
    ((calls[f]?).getD []).length ≤ calls.foldl (fun sum callees => sum + callees.length) 0 := by
  rw [foldl_length_eq]
  by_cases hf : f < calls.size
  · exact Finset.single_le_sum (f := fun v => ((calls[v]?).getD []).length) (fun _ _ => Nat.zero_le _)
      (Finset.mem_range.2 hf)
  · simp [Array.getElem?_eq_none (Nat.le_of_not_lt hf)]

/-- The search is exact as long as the functions already expanded lead back to the stack. -/
lemma reachesFrom_iff {fuel : Nat} {stack seen : List Nat} (hgoal : goal ∉ seen)
    (hseen : Graph.Closes (Leads calls) (· ∈ seen) (· ∈ stack))
    (hfuel : stack.length + leftOver calls.size (fun v => ((calls[v]?).getD []).length)
      (fun v => !seen.contains v) < fuel) :
    reachesFrom calls goal fuel stack seen ↔
      ∃ f ∈ stack, ReflTransGen (Leads calls) f goal := by
  fun_induction reachesFrom calls goal fuel stack seen with
  | case1 => omega
  | case2 => simp
  | case3 fuel stack seen => exact ⟨fun _ => ⟨goal, mem_cons_self, .refl⟩, fun _ => rfl⟩
  | case4 fuel f stack seen hne hold ih =>
    have hf : f ∈ seen := by simpa using hold
    obtain ⟨hskip, hfinds⟩ := hseen.skip (fun _ => mem_cons) hf
    rw [ih hgoal hskip (by rw [length_cons] at hfuel; omega)]
    simpa [Graph.Finds, hgoal] using (hfinds goal).symm
  | case5 fuel f stack seen hne hnew ih =>
    have hf : f ∉ seen := by simpa using hnew
    have hgoal' : goal ∉ f :: seen := by simp [hgoal, Ne.symm hne]
    obtain ⟨hmore, hfinds⟩ := hseen.expand (fun _ => mem_cons)
      (fun _ => mem_cons.trans or_comm) fun _ => mem_append
    rw [ih hgoal' hmore]
    · simpa [Graph.Finds, hgoal, hgoal'] using (hfinds goal).symm
    · have hle : leftOver calls.size (fun v => ((calls[v]?).getD []).length)
          (fun v => !(f :: seen).contains v) + ((calls[f]?).getD []).length ≤
          leftOver calls.size (fun v => ((calls[v]?).getD []).length) fun v => !seen.contains v :=
        leftOver_add_le (by simpa using hf) (fun hout => by simp [Array.getElem?_eq_none hout])
          fun v => by simp [and_comm]
      rw [length_cons] at hfuel
      rw [length_append]
      omega

lemma isRecursive_iff {f : Nat} : isRecursive calls f ↔ TransGen (Leads calls) f f := by
  unfold isRecursive
  rw [reachesFrom_iff (by simp) (by simp [Graph.Closes]), TransGen.head'_iff]
  have hlen := length_getD_le calls f
  have hleft := leftOver_le calls.size (fun v => ((calls[v]?).getD []).length)
    fun v => !([] : List Nat).contains v
  rw [← foldl_length_eq] at hleft
  omega

end Gas

end Sierra
