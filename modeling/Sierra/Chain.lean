import Sierra.Curve
import Sierra.Hash.Keccak
import Sierra.Value.Record

/-!
# A chain in memory

Storage, events, messages, other contracts, block hashes and the facts of an execution. Every call
takes gas and answers, reverts with data, or fails for good.
-/

namespace Sierra

inductive Refusal where
  /-- The caller can handle the failure. -/
  | revert (data : List Felt)
  /-- The execution cannot go on. -/
  | abort (cause : Failure)
deriving Inhabited

namespace Refusal

def describe (data : List Felt) : String :=
  let one (f : Felt) : String :=
    match f.shortString? with
    | some text => if text = "" then f.hex else "'" ++ text ++ "'"
    | none => f.hex
  "[" ++ Text.join ", " (data.map one) ++ "]"

def because (reasons : List String) : Refusal :=
  .revert (reasons.map fun r => (Felt.ofShortString? r).getD Felt.zero)

def failure : Refusal → Failure
  | revert data => .plain ("syscall failed: " ++ describe data)
  | abort cause => cause

end Refusal

structure ChainEvent where
  keys : List Felt
  data : List Felt
deriving DecidableEq

structure ChainMessage where
  recipient : Felt
  payload : List Felt
deriving DecidableEq

/-- From the selector, the data and the gas to an answer and the gas left. -/
abbrev Contract := Felt → List Felt → Nat → Except Refusal (List Felt) × Nat

structure Chain where
  storage : List (Felt × Felt) := []
  events : List ChainEvent := []
  messages : List ChainMessage := []
  contracts : List (Felt × Contract) := []
  blockHashes : List (Nat × Felt) := []
  info : ExecutionInfo := {}
  /-- A call without an entry is free. -/
  costs : List (String × Nat) := []

namespace Contract

def charge (gas cost : Nat) : Except Refusal Nat :=
  if gas < cost then .error (.because ["Out of gas"]) else .ok (gas - cost)

def echo : Contract := fun selector data gas => (.ok (selector :: data), gas)

def reverting (reasons : List String) : Contract := fun _ _ gas => (.error (.because reasons), gas)

def aborting (text : String) : Contract := fun _ _ gas => (.error (.abort (.plain text)), gas)

def burning (amount : Nat) : Contract := fun _ _ gas =>
  match charge gas amount with
  | .ok left => (.ok [], left)
  | .error refusal => (.error refusal, gas)

def silent : Contract := fun _ _ gas => (.ok [], gas)

end Contract

namespace Chain

structure Frame where
  chain : Chain
  gas : Nat

abbrev Call := EStateM Refusal Frame

def pay (cost : Nat) : Call Unit := do
  match Contract.charge (← get).gas cost with
  | .ok left => modify fun f => { f with gas := left }
  | .error refusal => throw refusal

def charge (name : String) : Call Unit := do
  pay (((← get).chain.costs.lookup name).getD 0)

def update (change : Chain → Chain) : Call Unit :=
  modify fun f => { f with chain := change f.chain }

def stored? (c : Chain) (address : Felt) : Option Felt :=
  (c.storage.find? fun entry => entry.1 == address).map (·.2)

def store (c : Chain) (address value : Felt) : Chain :=
  { c with storage := (address, value) :: c.storage.filter fun entry => entry.1 != address }

def checkDomain (domain : Nat) : Call Unit :=
  if domain = 0 then pure () else throw (.because ["Unsupported address domain"])

/-- A place never written holds zero. -/
def storageRead (domain : Nat) (address : Felt) : Call Felt := do
  charge "storage_read"
  checkDomain domain
  return ((← get).chain.stored? address).getD Felt.zero

def storageWrite (domain : Nat) (address value : Felt) : Call Unit := do
  charge "storage_write"
  checkDomain domain
  update fun c => c.store address value

def emitEvent (keys data : List Felt) : Call Unit := do
  charge "emit_event"
  update fun c => { c with events := c.events ++ [⟨keys, data⟩] }

def sendMessage (recipient : Felt) (payload : List Felt) : Call Unit := do
  charge "send_message_to_l1"
  update fun c => { c with messages := c.messages ++ [⟨recipient, payload⟩] }

def getBlockHash (number : Nat) : Call Felt := do
  charge "get_block_hash"
  match (← get).chain.blockHashes.lookup number with
  | some hash => return hash
  | none => throw (.because ["Block number out of range"])

def getExecutionInfo : Call ExecutionInfo := do
  charge "get_execution_info"
  return (← get).chain.info

def callContract (address selector : Felt) (data : List Felt) : Call (List Felt) := do
  charge "call_contract"
  match (← get).chain.contracts.find? fun entry => entry.1 == address with
  | none => throw (.because ["CONTRACT_NOT_DEPLOYED"])
  | some (_, contract) =>
    let (answer, left) := contract selector data (← get).gas
    modify fun f => { f with gas := left }
    match answer with
    | .ok result => return result
    | .error refusal => throw refusal

def keccakRoundCost : Nat := 180000

def keccak (words : List Nat) : Call (Nat × Nat) := do
  charge "keccak"
  pay (words.length / 17 * keccakRoundCost)
  match Keccak.ofPaddedWords? words with
  | some halves => return halves
  | none => throw (.because ["Invalid input length"])

def secpNew (curve : Host.CurveName) (p : Point) : Call (Option Point) := do
  charge (curve.name ++ "_new")
  let c := Curve.ofName curve
  if !c.inField p then throw (.because ["Invalid argument"])
  return if p = Curve.infinity ∨ !c.contains p then none else some p

def secpAdd (curve : Host.CurveName) (p q : Point) : Call Point := do
  charge (curve.name ++ "_add")
  match curve with
  | .k1 => return Curve.secp256k1.addReduced p q
  | .r1 =>
    match Curve.secp256r1.add? p q with
    | some sum => return sum
    | none => throw (.abort (.crash none))

def secpGetXY (curve : Host.CurveName) (p : Point) : Call Point := do
  charge (curve.name ++ "_get_xy")
  return p

end Chain

end Sierra
