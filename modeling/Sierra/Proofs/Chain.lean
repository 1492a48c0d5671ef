import Sierra.Host.Table
import Sierra.Proofs.Curve
import Sierra.Proofs.Loops

/-!
# What a chain keeps

A system call that succeeds leaves on the chain what it asked for, and any other leaves the chain
as it was (`Request.outcome`). So a chain is what the calls that succeeded make of an empty one.
-/

namespace Sierra

namespace Chain

variable {α : Type} {f : Frame} {post : α → Chain → Prop} {next : Call α}

/-- A step that is refused leaves the chain alone, and no step adds gas. -/
def Settles (post : α → Chain → Prop) (f : Frame) : EStateM.Result Refusal Frame α → Prop
  | .ok a f' => post a f'.chain ∧ f'.gas ≤ f.gas
  | .error _ f' => f'.chain = f.chain ∧ f'.gas ≤ f.gas

lemma settles_pay {gas : Nat} (cost : Nat) (hgas : gas ≤ f.gas)
    (h : ∀ left ≤ f.gas, Settles post f (next ⟨f.chain, left⟩)) :
    Settles post f ((pay cost >>= fun _ => next) ⟨f.chain, gas⟩) := by
  show Settles post f (EStateM.bind (pay cost) _ _)
  rw [EStateM.bind, pay_eq]
  by_cases hcost : gas < cost
  · rw [if_pos hcost]
    exact ⟨rfl, hgas⟩
  · rw [if_neg hcost]
    exact h _ (Nat.le_trans (Nat.sub_le ..) hgas)

lemma settles_charge (name : String) (h : ∀ left ≤ f.gas, Settles post f (next ⟨f.chain, left⟩)) :
    Settles post f ((charge name >>= fun _ => next) f) :=
  settles_pay _ (Nat.le_refl f.gas) h

lemma settles_checkDomain (domain : Nat) {left : Nat} (hleft : left ≤ f.gas)
    (h : Settles post f (next ⟨f.chain, left⟩)) :
    Settles post f ((checkDomain domain >>= fun _ => next) ⟨f.chain, left⟩) := by
  unfold checkDomain
  split
  · exact h
  · exact ⟨rfl, hleft⟩

end Chain

namespace Host

open Machine (World Image)

/-! ## Requests -/

/-- A system call in some world. -/
structure Request where
  call : Syscall
  gas : Image
  args : List Image
  world : World Host

namespace Request

def felt (r : Request) (i : Nat) : Felt := Felt.ofBytes (r.args.getD i [])

def felts (r : Request) (i : Nat) : List Felt :=
  match Value.readFelts (r.args.getD i []) r.world.heap with
  | .ok fs _ => fs
  | .error .. => []

def writes (r : Request) : List (Felt × Felt) :=
  match r.call with
  | .storageWrite => [(r.felt 1, r.felt 2)]
  | _ => []

def events (r : Request) : List ChainEvent :=
  match r.call with
  | .emitEvent => [⟨r.felts 0, r.felts 1⟩]
  | _ => []

def messages (r : Request) : List ChainMessage :=
  match r.call with
  | .sendMessage => [⟨r.felt 0, r.felts 1⟩]
  | _ => []

/-- The chain with what the call asks it to keep. -/
def apply (c : Chain) (r : Request) : Chain :=
  match r.call with
  | .storageWrite => c.store (r.felt 1) (r.felt 2)
  | .emitEvent => { c with events := c.events ++ [⟨r.felts 0, r.felts 1⟩] }
  | .sendMessage => { c with messages := c.messages ++ [⟨r.felt 0, r.felts 1⟩] }
  | _ => c

def on (r : Request) (c : Chain) : World Host :=
  { r.world with host := { r.world.host with chain := some c } }

def answer (r : Request) (c : Chain) : EStateM.Result Failure (World Host) (List Image) :=
  syscall r.call (r.gas :: r.args) (r.on c)

def succeeds (r : Request) (c : Chain) : Bool :=
  match r.answer c with
  | .ok (_ :: failed :: _) _ => failed == Image.ofBool false
  | _ => false

def after (r : Request) (c : Chain) : Chain :=
  match r.answer c with
  | .ok _ w | .error _ w => w.host.chain.getD c

/-- What a call that succeeds gives and leaves. -/
def Served (r : Request) (c : Chain) (images : List Image) (c' : Chain) : Prop :=
  c' = r.apply c ∧ match r.call with
    | .storageRead => images = [((c.stored? (r.felt 1)).getD Felt.zero).toBytes]
    | _ => True

end Request

/-! ## Reading arguments -/

/-- What leaves the world alone. -/
def Reads {ε σ α : Type} (x : EStateM ε σ α) : Prop :=
  ∀ w, (∃ a, x w = .ok a w) ∨ ∃ e, x w = .error e w

section Reads

variable {ε σ α β : Type} {x : EStateM ε σ α} {f : α → EStateM ε σ β} {args : List Image} {i : Nat}

lemma Reads.bind (hx : Reads x) (hf : ∀ a, Reads (f a)) : Reads (x >>= f) := by
  intro w
  rcases hx w with ⟨a, h⟩ | ⟨e, h⟩
  · rw [bind_of_ok h]
    exact hf a w
  · refine .inr ⟨e, ?_⟩
    show EStateM.bind x f w = _
    rw [EStateM.bind, h]

lemma reads_pure (a : α) : Reads (pure a : EStateM ε σ α) := fun _ => .inl ⟨a, rfl⟩

lemma reads_throw (e : ε) : Reads (throw e : EStateM ε σ α) := fun _ => .inr ⟨e, rfl⟩

lemma reads_span (size : Nat) (header : Bytes) (g : List Bytes → α) :
    Reads (onHeap do return g (← Value.readSpan size header)) := by
  have hread : Reads (do return g (← Value.readSpan size header) : Value.Passing α) := by
    refine .bind (.bind ?_ fun s => ?_) fun _ => reads_pure _
    · cases Value.Span.parse header with
      | ok s => exact reads_pure s
      | error e => exact reads_throw e
    split
    · exact reads_pure []
    refine .bind (fun h => ?_) fun _ => reads_pure _
    unfold Heap.read
    cases h.accessFault? "read" s.pointer (s.length * size) with
    | some fault => exact .inr ⟨fault, rfl⟩
    | none => exact .inl ⟨_, rfl⟩
  intro w
  unfold onHeap
  rcases hread w.heap with ⟨a, h⟩ | ⟨e, h⟩
  · exact .inl ⟨a, by rw [h]⟩
  · exact .inr ⟨e, by rw [h]⟩

lemma reads_arg : Reads (arg args i) := by
  unfold arg
  cases args[i]? with
  | some image => exact reads_pure image
  | none => exact reads_throw _

lemma reads_wideArg : Reads (wideArg args i) := by
  refine reads_arg.bind fun image => ?_
  split
  · exact reads_pure _
  · exact reads_throw _

lemma reads_pointArg : Reads (pointArg args i) := by
  refine reads_arg.bind fun image => ?_
  split
  · exact reads_pure _
  · exact reads_throw _

end Reads

/-! ## Serving -/

section Serving

variable {α : Type} {c : Chain} {gas : Nat} {post : List Image → Chain → Prop} {w : World Host}
  {r : Request}

def Settles (c : Chain) (gas : Nat) (post : List Image → Chain → Prop) :
    EStateM.Result Failure (World Host) (Except Refusal (List Image) × Nat) → Prop
  | .ok (.ok images, left) w => (∃ c', w.host.chain = some c' ∧ post images c') ∧ left ≤ gas
  | .ok (.error _, left) w => w.host.chain = some c ∧ left ≤ gas
  | .error _ w => w.host.chain = some c

lemma settles_reads {x : Action α} {f : α → Action (Except Refusal (List Image) × Nat)}
    (hx : Reads x) (hw : w.host.chain = some c)
    (hf : ∀ a, x w = .ok a w → Settles c gas post (f a w)) : Settles c gas post ((x >>= f) w) := by
  rcases hx w with ⟨a, h⟩ | ⟨e, h⟩
  · rw [bind_of_ok h]
    exact hf a h
  · show Settles c gas post (EStateM.bind x f w)
    rw [EStateM.bind, h]
    exact hw

lemma settles_arg {i : Nat} {f : Image → Action (Except Refusal (List Image) × Nat)}
    (h : Settles c gas post (f (r.args.getD i []) (r.on c))) :
    Settles c gas post ((arg r.args i >>= f) (r.on c)) := by
  refine settles_reads reads_arg rfl fun image harg => ?_
  unfold arg at harg
  cases hi : r.args[i]? with
  | none => simp [hi] at harg
  | some a =>
    simp only [hi, pure_eq_ok, and_true] at harg
    rwa [List.getD, hi, Option.getD_some, harg] at h

lemma settles_felts {i : Nat} {f : List Felt → Action (Except Refusal (List Image) × Nat)}
    (h : Settles c gas post (f (r.felts i) (r.on c))) :
    Settles c gas post ((arg r.args i >>= fun image => onHeap (Value.readFelts image) >>= f)
      (r.on c)) := by
  refine settles_arg (settles_reads (reads_span 32 _ _) rfl fun fs hfs => ?_)
  unfold onHeap at hfs
  unfold Request.felts at h
  cases hread : Value.readFelts (r.args.getD i []) r.world.heap with
  | ok a heap =>
    simp only [Request.on, hread] at hfs
    cases hfs
    rwa [hread] at h
  | error e heap => simp only [Request.on, hread, reduceCtorEq] at hfs

lemma settles_felt {i : Nat} {f : Felt → Action (Except Refusal (List Image) × Nat)}
    (h : Settles c gas post (f (r.felt i) (r.on c))) :
    Settles c gas post ((feltArg r.args i >>= f) (r.on c)) := by
  rw [feltArg, bind_assoc]
  simp only [pure_bind]
  exact settles_arg h

abbrev ask (c : Chain) (gas : Nat) (step : Chain.Call α) (answer : α → Action (List Image)) :
    Action (Except Refusal (List Image) × Nat) := do
  match ← onChain c gas step with
  | (.ok a, left) => return (.ok (← answer a), left)
  | (.error refusal, left) => return (.error refusal, left)

variable {step : Chain.Call α} {answer : α → Action (List Image)}

/-- The chain is called, and its answer is written. -/
lemma settles_ask {K : α → Chain → Prop} (hstep : Chain.Settles K ⟨c, gas⟩ (step ⟨c, gas⟩))
    (hanswer : ∀ a c' (w : World Host), K a c' → w.host.chain = some c' →
      match answer a w with
      | .ok images w' => w'.host.chain = some c' ∧ post images c'
      | .error _ w' => w'.host.chain = some c) :
    Settles c gas post (ask c gas step answer w) := by
  show Settles c gas post (EStateM.bind (onChain c gas step) _ w)
  unfold EStateM.bind onChain
  cases hs : step ⟨c, gas⟩ with
  | error refusal f =>
    rw [hs] at hstep
    exact ⟨congrArg some hstep.1, hstep.2⟩
  | ok a f =>
    rw [hs] at hstep
    specialize hanswer a f.chain { w with host := { w.host with chain := some f.chain } } hstep.1 rfl
    show Settles c gas post (EStateM.bind (answer a) _ _)
    unfold EStateM.bind
    split at hanswer
    · next h =>
      simp only [h]
      exact ⟨⟨_, hanswer⟩, hstep.2⟩
    · next h =>
      simp only [h]
      exact hanswer

lemma settles_plain
    (hstep : Chain.Settles (fun _ c' => ∀ images, post images c') ⟨c, gas⟩ (step ⟨c, gas⟩))
    (hanswer : ∀ a (w : World Host), ∃ images, answer a w = .ok images w) :
    Settles c gas post (ask c gas step answer w) := by
  refine settles_ask hstep fun a c' w hpost hw => ?_
  obtain ⟨images, h⟩ := hanswer a w
  rw [h]
  exact ⟨hw, hpost images⟩

namespace Request

lemma settles (r : Request) (gas : Nat) (hc : c.contracts = []) :
    Settles c gas (r.Served c) (serve c gas r.args r.call (r.on c)) := by
  obtain ⟨call, image, args, world⟩ := r
  cases call with
  | storageRead =>
    refine settles_reads reads_arg rfl fun domain _ => settles_felt ?_
    refine settles_ask (K := fun v c' => Served ⟨.storageRead, image, args, world⟩ c [v.toBytes] c')
      (Chain.settles_charge _ fun left hleft =>
        Chain.settles_checkDomain _ hleft ⟨⟨rfl, rfl⟩, hleft⟩) ?_
    exact fun v c' w h hw => ⟨hw, h⟩
  | storageWrite =>
    refine settles_reads reads_arg rfl fun domain _ => settles_felt (settles_felt ?_)
    exact settles_plain (Chain.settles_charge _ fun left hleft =>
      Chain.settles_checkDomain _ hleft ⟨fun _ => ⟨rfl, trivial⟩, hleft⟩) fun _ _ => ⟨_, rfl⟩
  | emitEvent =>
    refine settles_felts (settles_felts (settles_plain ?_ fun _ _ => ⟨_, rfl⟩))
    exact Chain.settles_charge _ fun left hleft => ⟨fun _ => ⟨rfl, trivial⟩, hleft⟩
  | sendMessage =>
    refine settles_felts (settles_felt (settles_plain ?_ fun _ _ => ⟨_, rfl⟩))
    exact Chain.settles_charge _ fun left hleft => ⟨fun _ => ⟨rfl, trivial⟩, hleft⟩
  | getBlockHash =>
    refine settles_reads reads_arg rfl fun number _ => ?_
    refine settles_plain (Chain.settles_charge _ fun left hleft => ?_) fun _ _ => ⟨_, rfl⟩
    rw [bind_of_ok (show (get : Chain.Call _) _ = .ok _ _ from rfl)]
    dsimp only
    cases c.blockHashes.lookup number.word64 with
    | some hash => exact ⟨fun _ => ⟨rfl, trivial⟩, hleft⟩
    | none => exact ⟨rfl, hleft⟩
  | getExecutionInfo =>
    refine settles_ask (K := fun _ c' => c' = c)
      (Chain.settles_charge _ fun left hleft => ⟨rfl, hleft⟩) ?_
    rintro info c' w rfl hw
    simp only [bind, EStateM.bind, onHeap]
    cases info.write w.heap with
    | ok p heap => exact ⟨hw, rfl, trivial⟩
    | error e heap => exact hw
  | callContract =>
    refine settles_felts (settles_felt (settles_felt ?_))
    refine settles_ask (K := fun _ _ => False) (Chain.settles_charge _ fun left hleft => ?_)
      fun _ _ _ h => h.elim
    rw [bind_of_ok (show (get : Chain.Call _) _ = .ok _ _ from rfl), hc]
    exact ⟨rfl, hleft⟩
  | keccak =>
    refine settles_reads reads_arg rfl fun image _ =>
      settles_reads (reads_span 8 _ _) rfl fun words _ => ?_
    refine settles_plain (Chain.settles_charge _ fun left hleft => Chain.settles_pay _ hleft
      fun left hleft => ?_) fun _ _ => ⟨_, rfl⟩
    cases Keccak.ofPaddedWords? words with
    | some halves => exact ⟨fun _ => ⟨rfl, trivial⟩, hleft⟩
    | none => exact ⟨rfl, hleft⟩
  | secpNew curve =>
    refine settles_reads reads_wideArg rfl fun x _ => settles_reads reads_wideArg rfl fun y _ => ?_
    refine settles_plain (Chain.settles_charge _ fun left hleft => ?_) ?_
    · dsimp only
      split
      · exact ⟨rfl, hleft⟩
      · exact ⟨fun _ => ⟨rfl, trivial⟩, hleft⟩
    · rintro (_ | p) w <;> exact ⟨_, rfl⟩
  | secpAdd curve =>
    refine settles_reads reads_pointArg rfl fun p _ => settles_reads reads_pointArg rfl fun q _ => ?_
    refine settles_plain (Chain.settles_charge _ fun left hleft => ?_) fun _ _ => ⟨_, rfl⟩
    cases curve with
    | k1 => exact ⟨fun _ => ⟨rfl, trivial⟩, hleft⟩
    | r1 =>
      dsimp only
      cases Curve.secp256r1.add? p q with
      | some sum => exact ⟨fun _ => ⟨rfl, trivial⟩, hleft⟩
      | none => exact ⟨rfl, hleft⟩
  | secpGetXY curve =>
    refine settles_reads reads_pointArg rfl fun p _ => settles_plain ?_ fun _ _ => ⟨_, rfl⟩
    exact Chain.settles_charge _ fun left hleft => ⟨fun _ => ⟨rfl, trivial⟩, hleft⟩

/-- What a request is told, and what it leaves. -/
def Outcome (r : Request) (c : Chain) :
    EStateM.Result Failure (World Host) (List Image) → Prop
  | .ok out w => ∃ left failed reason images c', out = left :: failed :: reason :: images ∧
      left.word64 ≤ r.gas.word64 ∧ w.host.chain = some c' ∧
      if failed == Image.ofBool false then r.Served c images c' else c' = c
  | .error _ w => w.host.chain = some c

lemma outcome (r : Request) (hc : c.contracts = []) : r.Outcome c (r.answer c) := by
  have hgas (n : Nat) : Image.word64 (Bytes.ofNat 8 n) ≤ n := by
    rw [Image.word64, List.take_of_length_le (by simp), Bytes.toNat_ofNat]
    exact Nat.mod_le ..
  have hsettles := r.settles r.gas.word64 hc
  show r.Outcome c (EStateM.bind (serve c r.gas.word64 r.args r.call) _ (r.on c))
  unfold EStateM.bind
  cases hs : serve c r.gas.word64 r.args r.call (r.on c) with
  | error e w =>
    rw [hs] at hsettles
    exact hsettles
  | ok served w =>
    rw [hs] at hsettles
    obtain ⟨(data | cause) | images, left⟩ := served
    · show r.Outcome c (EStateM.bind (onHeap (Value.writeFelts data)) _ w)
      unfold EStateM.bind onHeap
      cases Value.writeFelts data w.heap with
      | error e heap => exact hsettles.1
      | ok reason heap =>
        exact ⟨_, _, _, _, c, rfl, Nat.le_trans (hgas left) hsettles.2, hsettles.1, rfl⟩
    · exact hsettles.1
    · obtain ⟨⟨c', hw, hserved⟩, hleft⟩ := hsettles
      exact ⟨_, _, _, _, c', rfl, Nat.le_trans (hgas left) hleft, hw, hserved⟩

lemma after_eq (r : Request) (hc : c.contracts = []) :
    r.after c = if r.succeeds c then r.apply c else c := by
  have h := r.outcome hc
  unfold after succeeds
  cases ha : r.answer c with
  | error e w =>
    rw [ha] at h
    exact congrArg (·.getD c) h
  | ok out w =>
    rw [ha] at h
    obtain ⟨left, failed, reason, images, c', rfl, -, hw, hserved⟩ := h
    simp only [hw, Option.getD_some]
    by_cases hfailed : failed == Image.ofBool false
    · rw [if_pos hfailed] at hserved ⊢
      exact hserved.1
    · rw [if_neg hfailed] at hserved ⊢
      exact hserved

/-- A read that is paid for is answered. -/
lemma succeeds_read {domain address : Image} {rest : List Image} (hcall : r.call = .storageRead)
    (hargs : r.args = domain :: address :: rest) (hdomain : domain.word64 % pow2 32 = 0)
    (hgas : (c.costs.lookup "storage_read").getD 0 ≤ r.gas.word64) : r.succeeds c := by
  have hread (a : Felt) : ∃ v f, Chain.storageRead 0 a ⟨c, r.gas.word64⟩ = .ok v f := by
    show ∃ v f, EStateM.bind (Chain.pay _) _ _ = .ok v f
    rw [EStateM.bind, Chain.pay_eq, if_neg (Nat.not_lt.2 hgas)]
    exact ⟨_, _, rfl⟩
  obtain ⟨v, f, h⟩ := hread (Felt.ofBytes address)
  have hserve : serve c r.gas.word64 r.args r.call (r.on c) =
      .ok (.ok [v.toBytes], f.gas) (r.on f.chain) := by
    rw [hcall, hargs]
    show EStateM.bind (onChain c _ (Chain.storageRead (domain.word64 % pow2 32) _)) _ _ = _
    rw [hdomain, EStateM.bind, onChain, h]
    rfl
  have hanswer : r.answer c = EStateM.bind (serve c r.gas.word64 r.args r.call) _ (r.on c) := rfl
  rw [succeeds, hanswer, EStateM.bind, hserve]
  rfl

end Request

end Serving

/-! ## Sequences of requests -/

def after (c : Chain) (rs : List Request) : Chain := rs.foldl (fun c r => r.after c) c

/-- The requests that succeed, in order. -/
def successes (c : Chain) : List Request → List Request
  | [] => []
  | r :: rs => (if r.succeeds c then [r] else []) ++ successes (r.after c) rs

lemma stored?_store (c : Chain) (a b v : Felt) :
    (c.store a v).stored? b = if a = b then some v else c.stored? b := by
  unfold Chain.stored? Chain.store
  by_cases h : a = b
  · simp [h]
  · simp [h, find?_filter_ne Prod.fst, Ne.symm h]

/-- What requests leave, one after another: the last write to an address counts. -/
structure Keeps (c : Chain) (rs : List Request) (c' : Chain) : Prop where
  contracts : c'.contracts = c.contracts
  costs : c'.costs = c.costs
  events : c'.events = c.events ++ rs.flatMap Request.events
  messages : c'.messages = c.messages ++ rs.flatMap Request.messages
  stored : ∀ a, c'.stored? a =
    ((rs.flatMap Request.writes).reverse.lookup a).or (c.stored? a)

lemma Keeps.refl (c : Chain) : Keeps c [] c := ⟨rfl, rfl, by simp, by simp, by simp⟩

lemma Keeps.trans {c c₁ c₂ : Chain} {rs rs' : List Request} (h : Keeps c rs c₁)
    (h' : Keeps c₁ rs' c₂) : Keeps c (rs ++ rs') c₂ where
  contracts := h'.contracts.trans h.contracts
  costs := h'.costs.trans h.costs
  events := by simp [h'.events, h.events]
  messages := by simp [h'.messages, h.messages]
  stored a := by simp [h'.stored, h.stored, List.lookup_append, Option.or_assoc]

lemma keeps_apply (c : Chain) (r : Request) : Keeps c [r] (r.apply c) := by
  obtain ⟨call, gas, args, world⟩ := r
  cases call with
  | storageWrite =>
    refine ⟨rfl, rfl, (List.append_nil _).symm, (List.append_nil _).symm, fun a => ?_⟩
    rw [Request.apply, stored?_store]
    split
    · next h => simp [Request.writes, h]
    · next h => simp [Request.writes, beq_false_of_ne (Ne.symm h)]
  | _ =>
    constructor <;>
      simp [Request.apply, Request.events, Request.messages, Request.writes, Chain.stored?]

/-- Every request keeps the chain, or leaves what it asks for. -/
lemma keeps_after (rs : List Request) {c : Chain} (hc : c.contracts = []) :
    Keeps c (successes c rs) (after c rs) := by
  induction rs generalizing c with
  | nil => exact .refl c
  | cons r rs ih =>
    have hstep : Keeps c (if r.succeeds c then [r] else []) (r.after c) := by
      rw [r.after_eq hc]
      split
      · exact keeps_apply c r
      · exact .refl c
    exact hstep.trans (ih (hstep.contracts.trans hc))

theorem chain_keeps_what_succeeds (costs : List (String × Nat)) (info : ExecutionInfo)
    (blockHashes : List (Nat × Felt)) (rs : List Request) (r : Request) :
    let c := after { costs, info, blockHashes } rs
    let done := successes { costs, info, blockHashes } rs
    c.events = done.flatMap Request.events ∧ c.messages = done.flatMap Request.messages ∧
      (r.succeeds c = false → r.after c = c) ∧
      (∀ out w, r.answer c = .ok out w → (out.headD []).word64 ≤ r.gas.word64) ∧
      (∀ left reason images w, r.call = .storageRead →
        r.answer c = .ok (left :: Image.ofBool false :: reason :: images) w →
        images =
          [(((done.flatMap Request.writes).reverse.lookup (r.felt 1)).getD Felt.zero).toBytes]) ∧
      ∀ domain address rest, r.call = .storageRead → r.args = domain :: address :: rest →
        domain.word64 % pow2 32 = 0 →
        (costs.lookup "storage_read").getD 0 ≤ r.gas.word64 → r.succeeds c := by
  intro c done
  have hkeeps : Keeps _ done c := keeps_after rs rfl
  have houtcome := r.outcome hkeeps.contracts
  refine ⟨hkeeps.events, hkeeps.messages, fun hfails => ?_, fun out w h => ?_, ?_, ?_⟩
  · rw [r.after_eq hkeeps.contracts, hfails]
    rfl
  · rw [h] at houtcome
    obtain ⟨left, _, _, _, _, rfl, hleft, -⟩ := houtcome
    exact hleft
  · intro left reason images w hcall h
    rw [h] at houtcome
    obtain ⟨_, _, _, _, c', ⟨⟩, -, -, -, hread⟩ := houtcome
    rw [hcall, hkeeps.stored] at hread
    rw [hread, show Chain.stored? _ _ = none from rfl, Option.or_none]
  · intro domain address rest hcall hargs hdomain hgas
    exact Request.succeeds_read hcall hargs hdomain (by rwa [hkeeps.costs])

end Host

end Sierra
