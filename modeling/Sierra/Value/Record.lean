import Sierra.Value.Image

/-!
# Records written by the host

Arrays of field elements, 256-bit numbers, points, and the record that tells a contract about its
execution, laid out as the types declare them.
-/

namespace Sierra

namespace Value

open Heap (alloc read write)

structure Span where
  pointer : Nat
  length : Nat
  capacity : Nat
deriving DecidableEq, Repr, Inhabited

namespace Span

def bytes (s : Span) : Bytes :=
  Bytes.ofNat 8 s.pointer ++ Bytes.ofNat 4 s.length ++ Bytes.ofNat 4 s.capacity

def parse (b : Bytes) : Except Failure Span :=
  if b.length < 16 then .error (.native s!"abi: array descriptor is {b.length} bytes")
  else
    .ok ⟨Bytes.toNat (b.take 8), Bytes.toNat (part b 8 4), Bytes.toNat (part b 12 4)⟩

end Span

def parseWide (b : Bytes) : Except Failure (Nat × Nat) :=
  if b.length < 32 then .error (.native s!"abi: u256 image is {b.length} bytes")
  else .ok (Bytes.toNat (b.take 16), Bytes.toNat (part b 16 16))

def wideBytes (n : Int) : Bytes :=
  Bytes.ofNat 16 (n.emod (pow2 128)).toNat ++ Bytes.ofNat 16 (n.fdiv (pow2 128)).natAbs

def halves (n : Int) : Int × Int := (n.emod (pow2 128), n.fdiv (pow2 128))

def parsePoint (b : Bytes) : Except Failure (Int × Int) :=
  if b.length < 64 then .error (.native s!"abi: secp point image is {b.length} bytes")
  else .ok (ofWideImage b, ofWideImage (b.drop 32))

def pointBytes (p : Int × Int) : Bytes := wideBytes p.1 ++ wideBytes p.2

def readSpan (size : Nat) (header : Bytes) : Passing (List Bytes) := do
  let s ← lift (Span.parse header)
  if s.length = 0 then return []
  return Bytes.pieces size (← read s.pointer (s.length * size))

def readFelts (header : Bytes) : Passing (List Felt) := do
  return (← readSpan 32 header).map Felt.ofBytes

def readWords (header : Bytes) : Passing (List Nat) := do
  return (← readSpan 8 header).map Bytes.toNat

/-! ## Fields -/

structure Field where
  layout : Layout
  image : Passing Bytes

def recordImage (fields : List Field) : Passing (Bytes × Layout) := do
  let l := Layout.struct (fields.map (·.layout))
  let image ← (fields.zip l.offsets).foldlM (fun image (f, offset) => do
    return place image offset (← f.image)) (Bytes.zeros l.size.toNat)
  return (image, l)

def writeRecord (fields : List Field) : Passing Nat := do
  let (image, l) ← recordImage fields
  let p ← alloc (max l.size 1).toNat
  write p image
  return p

def writeSpan (items : List (List Field)) : Passing Span := do
  if items.isEmpty then return ⟨0, 0, 0⟩
  let images ← items.mapM fun fields => do
    let (image, l) ← recordImage fields
    return Bytes.fit l.stride.toNat image
  let bytes := images.flatten
  let p ← alloc bytes.length
  write p bytes
  return ⟨p, items.length, items.length⟩

namespace Field

def felt (f : Felt) : Field := ⟨.int 252, pure f.toBytes⟩

def u32 (n : Nat) : Field := ⟨.int 32, pure (Bytes.ofNat 4 n)⟩

def u64 (n : Nat) : Field := ⟨.int 64, pure (Bytes.ofNat 8 n)⟩

def u128 (n : Option Int) : Field :=
  ⟨.int 128,
    match n with
    | none => pure (Bytes.zeros 16)
    | some n =>
      if n < 0 ∨ pow2 128 ≤ n then
        throw (.report .unexpectedValue s!"abi: {n} is not a u128" none)
      else pure (Bytes.ofNat 16 n.toNat)⟩

def box (fields : List Field) : Field :=
  ⟨.pointer, do return Bytes.ofNat 8 (← writeRecord fields)⟩

def span (items : List (List Field)) : Field :=
  ⟨.arrayDescriptor, do return (← writeSpan items).bytes⟩

def felts (fs : List Felt) : Field := span (fs.map fun f => [felt f])

end Field

def writeFelts (fs : List Felt) : Passing Bytes := do
  return (← writeSpan (fs.map fun f => [Field.felt f])).bytes

end Value

/-! ## Execution info -/

structure BlockInfo where
  number : Nat := 0
  timestamp : Nat := 0
  sequencer : Felt := Felt.zero
deriving Inhabited

structure ResourceBound where
  resource : Felt
  amount : Nat
  price : Option Int
deriving Inhabited

structure TxInfo where
  version : Felt := Felt.zero
  account : Felt := Felt.zero
  maxFee : Option Int := none
  signature : List Felt := []
  hash : Felt := Felt.zero
  chainId : Felt := Felt.zero
  nonce : Felt := Felt.zero
  bounds : List ResourceBound := []
  tip : Option Int := none
  paymaster : List Felt := []
  nonceMode : Nat := 0
  feeMode : Nat := 0
  deployment : List Felt := []
deriving Inhabited

structure ExecutionInfo where
  block : BlockInfo := {}
  tx : TxInfo := {}
  caller : Felt := Felt.zero
  contract : Felt := Felt.zero
  selector : Felt := Felt.zero
deriving Inhabited

namespace ExecutionInfo

open Value (Field Passing)

def blockFields (b : BlockInfo) : List Field :=
  [.u64 b.number, .u64 b.timestamp, .felt b.sequencer]

def txFields (t : TxInfo) : List Field :=
  [.felt t.version, .felt t.account, .u128 t.maxFee, .felts t.signature, .felt t.hash,
    .felt t.chainId, .felt t.nonce]

def extraFields (t : TxInfo) : List Field :=
  [.span (t.bounds.map fun b => [.felt b.resource, .u64 b.amount, .u128 b.price]), .u128 t.tip,
    .felts t.paymaster, .u32 t.nonceMode, .u32 t.feeMode, .felts t.deployment]

def writeWith (e : ExecutionInfo) (tx : List Field) : Passing Nat :=
  Value.writeRecord
    [.box (blockFields e.block), .box tx, .felt e.caller, .felt e.contract, .felt e.selector]

def writeFirst (e : ExecutionInfo) : Passing Nat := e.writeWith (txFields e.tx)

def write (e : ExecutionInfo) : Passing Nat := e.writeWith (txFields e.tx ++ extraFields e.tx)

end ExecutionInfo

end Sierra
