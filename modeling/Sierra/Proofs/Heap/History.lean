import Sierra.Proofs.Heap

/-!
# Histories of a heap

A request is answered, refused without a trace, or overruns the address space (`Overruns`). Along a
history blocks lie one behind the other, and every byte is the one put there last (`contents`).
-/

namespace Sierra.Heap

open List Bytes

variable {m : Nat → UInt8}

inductive Request
  | alloc (size : Nat)
  | realloc (pointer oldSize newSize : Nat)
  | read (pointer count : Nat)
  | write (pointer : Nat) (bytes : Bytes)
  | copy (target source count : Nat)

inductive Answer
  | address (pointer : Nat)
  | bytes (bytes : Bytes)
  | done

variable {α β : Type} {a : Answer} {bytes : Bytes} {h h' : Heap} {r : Request}
  {limit p q size oldSize newSize target source count : Nat}

def Request.perform : Request → Action Answer
  | alloc size => .address <$> Heap.alloc size
  | realloc pointer oldSize newSize => .address <$> Heap.realloc pointer oldSize newSize
  | read pointer count => .bytes <$> Heap.read pointer count
  | write pointer bytes => (fun _ => .done) <$> Heap.write pointer bytes
  | copy target source count => (fun _ => .done) <$> Heap.copy target source count

/-! ## Requests that fail -/

/-- The end of the block wraps around, or lies beyond all the room there can be and yet within the
limit. -/
def Overruns (h : Heap) (size : Nat) : Prop :=
  size ≤ addressSpace - alignment ∧
    (addressSpace ≤ h.used + rounded size ∨ roomLimit < h.used + rounded size ∧
      h.used + rounded size ≤ h.limit ∧ h.used + rounded size < addressLimit)

/-- There is no answer to a request. An empty block that grows must not lie beyond the room set
aside. -/
def Request.Overruns (h : Heap) : Request → Prop
  | alloc size => h.Overruns size
  | realloc pointer oldSize newSize =>
    if pointer = 0 then h.Overruns newSize
    else oldSize < newSize ∧ h.accessFault? "realloc" pointer oldSize = none ∧
      (h.Overruns newSize ∨
        h.allocFault? newSize = none ∧ (h.extend newSize).room < pointer)
  | read _ _ | write _ _ | copy _ _ _ => False

/-- What every heap is that answered requests lead to. -/
structure Sound (h : Heap) : Prop where
  aligned : alignment ∣ h.used
  roomLimit : h.used ≤ roomLimit
  limit : h.used ≤ alignment ∨ h.used ≤ h.limit
  blank : ∀ x, h.used ≤ x → byteAt h.data x = 0

/-- How a request ends: for want of an answer, with one, or without a trace. -/
def Ends (overruns : Prop) (h : Heap) (result : EStateM.Result Failure Heap α) : Prop :=
  (overruns ∧ ∃ h', result = .error (.crash none) h') ∨
    ¬overruns ∧ ((∃ a h', result = .ok a h') ∨ ∃ fault, result = .error (.heap fault) h)

lemma Ends.map {overruns : Prop} {x : Action α} (f : α → β) (hx : Ends overruns h (x h)) :
    Ends overruns h ((f <$> x) h) := by
  show Ends overruns h (EStateM.map f x h)
  unfold EStateM.map
  rcases hx with ⟨hover, h', hx⟩ | ⟨hover, ⟨a, h', hx⟩ | ⟨fault, hx⟩⟩ <;> rw [hx]
  · exact .inl ⟨hover, h', rfl⟩
  · exact .inr ⟨hover, .inl ⟨_, h', rfl⟩⟩
  · exact .inr ⟨hover, .inr ⟨fault, rfl⟩⟩

lemma Ends.of_fault {x : Option Failure} {b : β} (hx : x = none ∨ ∃ fault, x = some (.heap fault)) :
    Ends False h (match x with | some fault => .error fault h | none => .ok b h') := by
  rcases hx with rfl | ⟨fault, rfl⟩
  · exact .inr ⟨id, .inl ⟨_, _, rfl⟩⟩
  · exact .inr ⟨id, .inr ⟨fault, rfl⟩⟩

lemma dvd_rounded (size : Nat) : alignment ∣ rounded size := Nat.dvd_mul_left _ _

lemma allocFault?_cases (hs : Sound h) (size : Nat) :
    h.Overruns size ∧ h.allocFault? size = some (.crash none) ∨
      ¬h.Overruns size ∧
        (h.allocFault? size = none ∨ ∃ fault, h.allocFault? size = some (.heap fault)) := by
  have hspace : addressSpace = 18446744073709551616 := rfl
  have hsigned : addressLimit = 9223372036854775808 := rfl
  have hroom : Heap.roomLimit = 281474976710656 := rfl
  have halign : alignment = 16 := rfl
  obtain ⟨haligned, hmost, hlim, -⟩ := hs
  have hlt := rounded_lt size
  have hdvd := dvd_rounded size
  -- sizes with no whole number of alignment units in the address space are told by rounding
  have hiff : rounded size < size ↔ addressSpace - alignment < size := by
    unfold rounded
    rw [hspace, halign]
    omega
  unfold allocFault? Overruns
  simp only [hspace, hsigned, hroom, halign] at *
  split
  · exact .inr ⟨by omega, .inr ⟨_, rfl⟩⟩
  split
  · exact .inr ⟨by omega, .inr ⟨_, rfl⟩⟩
  · split
    · exact .inr ⟨by omega, .inr ⟨_, rfl⟩⟩
    · split
      · exact .inl ⟨by omega, rfl⟩
      · exact .inr ⟨by omega, .inl rfl⟩

lemma alloc_ends (hs : Sound h) (size : Nat) : Ends (h.Overruns size) h (alloc size h) := by
  unfold alloc
  rcases allocFault?_cases hs size with ⟨hover, hfault⟩ | ⟨hover, hfault | ⟨fault, hfault⟩⟩ <;>
    rw [hfault]
  · exact .inl ⟨hover, _, rfl⟩
  · exact .inr ⟨hover, .inl ⟨_, _, rfl⟩⟩
  · exact .inr ⟨hover, .inr ⟨fault, rfl⟩⟩

lemma grow_ends (hs : Sound h) (hp : p ≠ 0) (hsize : oldSize < newSize) :
    Ends (Request.Overruns h (.realloc p oldSize newSize)) h (grow p oldSize newSize h) := by
  rw [Request.Overruns, if_neg hp]
  unfold grow
  rcases h.accessFault?_cases "realloc" p oldSize with haccess | ⟨fault, haccess⟩
  · rw [haccess]
    unfold alloc
    rcases allocFault?_cases hs newSize with ⟨hover, hfault⟩ | ⟨hover, hfault | ⟨fault, hfault⟩⟩ <;>
      rw [hfault]
    · exact .inl ⟨⟨hsize, rfl, .inl hover⟩, _, rfl⟩
    · dsimp only
      split
      · next hroom => exact .inl ⟨⟨hsize, rfl, .inr ⟨rfl, hroom⟩⟩, _, rfl⟩
      · next hroom => exact .inr ⟨fun h => h.2.2.elim hover fun h => hroom h.2, .inl ⟨_, _, rfl⟩⟩
    · exact .inr ⟨fun h => by simp [hover] at h, .inr ⟨fault, rfl⟩⟩
  · rw [haccess]
    exact .inr ⟨fun hover => by simp at hover, .inr ⟨fault, rfl⟩⟩

lemma realloc_ends (hs : Sound h) (p oldSize newSize : Nat) :
    Ends (Request.Overruns h (.realloc p oldSize newSize)) h (realloc p oldSize newSize h) := by
  unfold realloc
  split
  · next hp =>
    rw [Request.Overruns, if_pos hp]
    exact alloc_ends hs newSize
  · next hp =>
    split
    · next hsize =>
      rw [Request.Overruns, if_neg hp]
      exact .inr ⟨fun hover => Nat.not_lt.2 hsize hover.1, .inl ⟨_, _, rfl⟩⟩
    · next hsize => exact grow_ends hs hp (Nat.lt_of_not_le hsize)

lemma perform_ends (hs : Sound h) (r : Request) : Ends (r.Overruns h) h (r.perform h) := by
  cases r with
  | alloc size => exact (alloc_ends hs size).map _
  | realloc p oldSize newSize => exact (realloc_ends hs p oldSize newSize).map _
  | read p count => exact .map _ (.of_fault (h.accessFault?_cases "read" p count))
  | write p bytes => exact .map _ (.of_fault (h.accessFault?_cases "write" p bytes.length))
  | copy target source count =>
    exact .map _ (.of_fault (h.copyFault?_cases target source count))

/-! ## Requests that are answered -/

def part (m : Nat → UInt8) (p count : Nat) : Bytes := (range count).map fun i => m (p + i)

def put (m : Nat → UInt8) (p : Nat) (bytes : Bytes) (x : Nat) : UInt8 :=
  if p ≤ x then (bytes[x - p]?).getD (m x) else m x

/-- The address and size of the block handed out. -/
def Request.block? : Request → Answer → Option (Nat × Nat)
  | alloc size, .address p => some (p, size)
  | realloc q oldSize newSize, .address p =>
    if q = 0 ∨ oldSize < newSize then some (p, newSize) else none
  | _, _ => none

/-- Nothing is put by reading or by a block that stays in place. -/
def Request.puts (m : Nat → UInt8) : Request → Answer → Nat × Bytes
  | alloc size, .address p => (p, zeros size)
  | realloc q oldSize newSize, .address p =>
    if q = 0 then (p, zeros newSize)
    else if oldSize < newSize then (p, part m q oldSize ++ zeros (newSize - oldSize))
    else (p, [])
  | write p bytes, _ => (p, bytes)
  | copy target source count, _ => (target, part m source count)
  | _, _ => (0, [])

/-- A request hands out a block behind all others, or none, and puts bytes somewhere. -/
structure Steps (h h' : Heap) (block? : Option (Nat × Nat)) (target : Nat × Bytes) : Prop where
  sound : Sound h'
  used : h.used ≤ h'.used
  limit : h'.limit = h.limit
  fresh : ∀ b ∈ block?, b.1 = h.used ∧ b.1 + max b.2 1 ≤ h'.used ∧ h'.used ≤ h'.limit
  bytes : byteAt h'.data = put (byteAt h.data) target.1 target.2

lemma put_of_outside {x : Nat} (hx : x < p ∨ p + bytes.length ≤ x) : put m p bytes x = m x := by
  unfold put
  split
  · rw [getElem?_eq_none (by omega), Option.getD_none]
  · rfl

lemma put_zeros (hm : ∀ x, p ≤ x → m x = 0) (bytes : Bytes) (count : Nat) :
    put m p (bytes ++ zeros count) = put m p bytes := by
  funext x
  unfold put
  split
  · next hx =>
    rw [hm x hx, getElem?_append]
    split
    · rfl
    · next hlen =>
      rw [getElem?_eq_none (Nat.le_of_not_lt hlen), zeros, getElem?_replicate]
      split <;> rfl
  · rfl

lemma byteAt_poke (h : Heap) (p : Nat) (bytes : Bytes) :
    byteAt (h.poke p bytes).data = put (byteAt h.data) p bytes := by
  funext x
  by_cases hx : x < p ∨ p + bytes.length ≤ x
  · rw [put_of_outside hx]
    exact byteAt_storeFrom_of_outside hx
  · obtain ⟨i, rfl⟩ := Nat.exists_eq_add_of_le (show p ≤ x by omega)
    have hi : i < bytes.length := by omega
    rw [put, if_pos (Nat.le_add_right p i), Nat.add_sub_cancel_left, getElem?_eq_getElem hi]
    exact byteAt_storeFrom hi

lemma steps_poke (hs : Sound h) (bytes : Bytes)
    (hbytes : bytes.length = 0 ∨ p + bytes.length ≤ h.used) :
    Steps h (h.poke p bytes) none (p, bytes) := by
  refine ⟨⟨hs.aligned, hs.roomLimit, hs.limit, fun x hx => ?_⟩, Nat.le_refl _, rfl, by simp,
    h.byteAt_poke p bytes⟩
  rw [byteAt_poke, put_of_outside (show x < p ∨ p + bytes.length ≤ x from ?_)]
  · exact hs.blank x hx
  · have hused : h.used ≤ x := hx
    omega

lemma steps_extend (hs : Sound h) (hok : h.allocFault? size = none) (bytes : Bytes)
    (hbytes : bytes.length ≤ size) (count : Nat) :
    Steps h ((h.extend size).poke h.used bytes) (some (h.used, size))
      (h.used, bytes ++ zeros count) := by
  obtain ⟨hsize, hroom, hlim⟩ := allocFault?_eq_none hok
  have hmax : max size 1 ≤ rounded size := by
    have hspace : addressSpace = 18446744073709551616 := rfl
    have halign : alignment = 16 := rfl
    unfold rounded at hsize ⊢
    rw [hspace, halign] at hsize ⊢
    omega
  have hextend : Sound (h.extend size) :=
    ⟨Nat.dvd_add hs.aligned (dvd_rounded size), hroom, .inr hlim,
      fun x hx => hs.blank x (Nat.le_trans (Nat.le_add_right _ _) hx)⟩
  have hpoke := steps_poke (p := h.used) hextend bytes (.inr
    (Nat.add_le_add_left (Nat.le_trans hbytes hsize) h.used))
  refine ⟨hpoke.sound, Nat.le_add_right _ _, rfl, ?_, ?_⟩
  · rintro b ⟨⟩
    exact ⟨rfl, Nat.add_le_add_left hmax _, hlim⟩
  · rw [put_zeros fun x hx => hs.blank x hx]
    exact hpoke.bytes

lemma steps_of_alloc (hs : Sound h) (hok : Heap.alloc size h = .ok p h') :
    Steps h h' (some (p, size)) (p, zeros size) := by
  obtain ⟨hfault, rfl, rfl⟩ := alloc_eq_ok.1 hok
  exact steps_extend hs hfault [] (Nat.zero_le _) size

lemma grow_eq_ok (hok : grow q oldSize newSize h = .ok p h') :
    h.accessFault? "realloc" q oldSize = none ∧ h.allocFault? newSize = none ∧ p = h.used ∧
      h' = (h.extend newSize).move p q oldSize := by
  unfold grow at hok
  split at hok
  · cases hok
  next haccess =>
  split at hok
  · cases hok
  · next halloc =>
    obtain ⟨hfault, rfl, rfl⟩ := alloc_eq_ok.1 halloc
    split at hok
    · cases hok
    · cases hok
      exact ⟨haccess, hfault, rfl, rfl⟩

lemma map_eq_ok {x : Action α} {f : α → β} {b : β} :
    (f <$> x) h = .ok b h' ↔ ∃ a, x h = .ok a h' ∧ f a = b := by
  rw [map_eq_pure_bind, bind_eq_ok]
  simp

lemma steps_of_realloc (hs : Sound h) (hok : Heap.realloc q oldSize newSize h = .ok p h') :
    Steps h h' (Request.block? (.realloc q oldSize newSize) (.address p))
      (Request.puts (byteAt h.data) (.realloc q oldSize newSize) (.address p)) := by
  simp only [Request.block?, Request.puts]
  unfold Heap.realloc at hok
  by_cases hq : q = 0
  · rw [if_pos hq] at hok
    rw [if_pos (.inl hq), if_pos hq]
    exact steps_of_alloc hs hok
  · rw [if_neg hq] at hok ⊢
    by_cases hsize : newSize ≤ oldSize
    · rw [if_pos hsize] at hok
      obtain ⟨-, rfl⟩ := pure_eq_ok.1 hok
      rw [if_neg (by omega), if_neg (by omega)]
      exact steps_poke hs [] (.inl rfl)
    · rw [if_neg hsize] at hok
      rw [if_pos (by omega), if_pos (by omega)]
      obtain ⟨-, hfault, rfl, rfl⟩ := grow_eq_ok hok
      rw [move, peek_eq]
      exact steps_extend hs hfault _ (by simp; omega) _

lemma steps_of_perform (hs : Sound h) (hok : r.perform h = .ok a h') :
    Steps h h' (r.block? a) (r.puts (byteAt h.data) a) := by
  cases r with
  | alloc size =>
    obtain ⟨p, halloc, rfl⟩ := map_eq_ok.1 hok
    exact steps_of_alloc hs halloc
  | realloc q oldSize newSize =>
    obtain ⟨p, hrealloc, rfl⟩ := map_eq_ok.1 hok
    exact steps_of_realloc hs hrealloc
  | read p count =>
    obtain ⟨bytes, hread, rfl⟩ := map_eq_ok.1 hok
    obtain ⟨-, -, rfl⟩ := read_eq_ok.1 hread
    exact steps_poke (p := 0) hs [] (.inl rfl)
  | write p bytes =>
    obtain ⟨_, hwrite, rfl⟩ := map_eq_ok.1 hok
    obtain ⟨hfault, rfl⟩ := write_eq_ok.1 hwrite
    have hbounds := accessFault?_eq_none_iff.1 hfault
    exact steps_poke hs _ (by omega)
  | copy target source count =>
    obtain ⟨_, hcopy, rfl⟩ := map_eq_ok.1 hok
    unfold Heap.copy at hcopy
    split at hcopy
    · cases hcopy
    · next hfault =>
      cases hcopy
      have hbounds := accessFault?_eq_none_iff.1 (Option.or_eq_none_iff.1 hfault).2
      rw [move, peek_eq]
      exact steps_poke hs _ (by simp; omega)

/-! ## Histories -/

/-- The requests that a heap has answered, the last one first. -/
inductive History (limit : Nat) : List (Request × Answer) → Heap → Prop
  | start : History limit [] (new limit)
  | next {log : List (Request × Answer)} {h h' : Heap} {r : Request} {a : Answer}
    (hlog : History limit log h) (hok : r.perform h = .ok a h') : History limit ((r, a) :: log) h'

def contents : List (Request × Answer) → Nat → UInt8
  | [] => fun _ => 0
  | (r, a) :: log => put (contents log) (r.puts (contents log) a).1 (r.puts (contents log) a).2

variable {log : List (Request × Answer)}

structure Kept (limit : Nat) (log : List (Request × Answer)) (h : Heap) : Prop where
  sound : Sound h
  used : alignment ≤ h.used
  limit : h.limit = (new limit).limit
  blocks : ∀ r a, (r, a) ∈ log → ∀ b ∈ r.block? a, b.1 + max b.2 1 ≤ h.used
  bytes : byteAt h.data = contents log

lemma Kept.step (hkept : Kept limit log h) (hok : r.perform h = .ok a h') :
    Kept limit ((r, a) :: log) h' := by
  have hsteps := steps_of_perform hkept.sound hok
  refine ⟨hsteps.sound, Nat.le_trans hkept.used hsteps.used, hsteps.limit.trans hkept.limit,
    fun r' a' hmem b hb => ?_, ?_⟩
  · rcases mem_cons.1 hmem with heq | hmem
    · cases heq
      exact (hsteps.fresh b hb).2.1
    · exact Nat.le_trans (hkept.blocks r' a' hmem b hb) hsteps.used
  · rw [hsteps.bytes, hkept.bytes]
    rfl

lemma History.kept (hlog : History limit log h) : Kept limit log h := by
  induction hlog with
  | start =>
    exact ⟨⟨Nat.dvd_refl _, (by decide : 16 ≤ Heap.roomLimit), .inl (Nat.le_refl _), fun _ _ => rfl⟩,
      Nat.le_refl _, rfl, by simp, rfl⟩
  | next _ hok ih => exact ih.step hok

/-- Whatever a heap has answered before, a request is answered or refused without a trace, unless
there is no answer to it. -/
theorem requests_fail_cleanly (hlog : History limit log h) (r : Request) :
    (r.Overruns h ∧ ∃ h', r.perform h = .error (.crash none) h') ∨
      ¬r.Overruns h ∧
        ((∃ a h', r.perform h = .ok a h') ∨ ∃ fault, r.perform h = .error (.heap fault) h) :=
  perform_ends hlog.kept.sound r

theorem largest_request_is_lost : History 0 [] (new 0) ∧
    ∃ h', (Request.alloc (addressSpace - alignment)).perform (new 0) = .error (.crash none) h' := by
  refine ⟨.start, ?_⟩
  rcases requests_fail_cleanly .start (.alloc (addressSpace - alignment)) with hlost | ⟨hover, -⟩
  · exact hlost.2
  · exact absurd ⟨Nat.le_refl _, .inl (by decide)⟩ hover

/-- Blocks are aligned, lie one behind the other and within the limit, and every byte is the one put
there last: zero until then, and a block that grows takes its bytes along. -/
theorem blocks_are_isolated (hlog : History limit log h) (hok : r.perform h = .ok a h') :
    (∀ p size, r.block? a = some (p, size) →
      0 < p ∧ alignment ∣ p ∧ p + size ≤ h'.used ∧ h'.used ≤ (new limit).limit ∧
        ∀ r' a', (r', a') ∈ log → ∀ b ∈ r'.block? a', b.1 + max b.2 1 ≤ p) ∧
      (∀ p count, r = .read p count → a = .bytes (part (contents log) p count)) ∧
      byteAt h'.data = contents ((r, a) :: log) ∧
      (∀ q oldSize newSize p, r = .realloc q oldSize newSize → q ≠ 0 → oldSize < newSize →
        a = .address p →
        h'.peek p oldSize = h.peek q oldSize ∧ h'.peek q oldSize = h.peek q oldSize) ∧
      ∀ x, (x < (r.puts (contents log) a).1 ∨
        (r.puts (contents log) a).1 + (r.puts (contents log) a).2.length ≤ x) →
        byteAt h'.data x = byteAt h.data x := by
  have hkept := hlog.kept
  have hsteps := steps_of_perform hkept.sound hok
  rw [hkept.bytes] at hsteps
  refine ⟨fun p size hblock => ?_, ?_, (hkept.step hok).bytes, ?_, fun x hx => ?_⟩
  · obtain ⟨rfl, hused, hlimit⟩ := hsteps.fresh _ hblock
    have hpos : 0 < alignment := by decide
    have hstart := hkept.used
    refine ⟨by omega, hkept.sound.aligned, by omega, ?_, hkept.blocks⟩
    rwa [hsteps.limit, hkept.limit] at hlimit
  · rintro p count rfl
    obtain ⟨bytes, hread, rfl⟩ := map_eq_ok.1 hok
    rw [(read_eq_ok.1 hread).2.1, peek_eq, hkept.bytes]
    rfl
  · rintro q oldSize newSize p rfl hq hsize rfl
    obtain ⟨_, hrealloc, ⟨⟩⟩ := map_eq_ok.1 hok
    rw [realloc, if_neg hq, if_neg (Nat.not_le.2 hsize)] at hrealloc
    obtain ⟨haccess, -, rfl, rfl⟩ := grow_eq_ok hrealloc
    have hbounds := accessFault?_eq_none_iff.1 haccess
    have hpeek := (h.extend newSize).peek_poke h.used (h.peek q oldSize)
    rw [length_peek] at hpeek
    refine ⟨hpeek, peek_congr fun x hle hlt => byteAt_storeFrom_of_outside (.inl ?_)⟩
    omega
  · rw [hsteps.bytes, hkept.bytes]
    exact put_of_outside hx

theorem grown_byte_is_isolated :
    ∃ h h', History 100 [(.write 16 [7], .done), (.alloc 1, .address 16)] h ∧
      (Request.realloc 16 1 20).perform h = .ok (.address 32) h' ∧
        h'.peek 32 1 = h.peek 16 1 ∧ h'.peek 16 1 = h.peek 16 1 := by
  have hlog : History 100 [(.write 16 [7], .done), (.alloc 1, .address 16)]
      (((new 100).extend 1).poke 16 [7]) := .next (.next .start rfl) rfl
  have hok : (Request.realloc 16 1 20).perform (((new 100).extend 1).poke 16 [7]) =
      .ok (.address 32) (((((new 100).extend 1).poke 16 [7]).extend 20).move 32 16 1) := rfl
  exact ⟨_, _, hlog, hok, (blocks_are_isolated hlog hok).2.2.2.1 16 1 20 32 rfl (by decide)
    (by decide) rfl⟩

end Sierra.Heap
