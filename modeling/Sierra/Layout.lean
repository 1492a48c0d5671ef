import Std.Data.HashMap
import Sierra.Failure

/-!
# Memory layouts

Sizes and offsets are signed 64-bit words that wrap, so a type that is too large may get a negative
size. A layout that depends on others is a `Plan`: an answer, or a question for one component
followed by the rest of the plan. The engine answers plans with a cache, and refuses a type that
would contain itself.
-/

namespace Sierra

structure Layout where
  size : Int
  align : Int
  offsets : List Int := []
  tagSize : Int := 0
  payloadOffset : Int := 0
  variants : Nat := 0
deriving DecidableEq, Repr, Inhabited

namespace Layout

/-- By the truncated remainder: the least multiple not below `n`, unless `n` is negative or the word
ends before it. An alignment of at most one leaves `n` alone. -/
def roundUp (n align : Int) : Int :=
  if align ≤ 1 then n
  else
    let rest := n.tmod align
    if rest = 0 then n else wrap64 (n + (align - rest))

def stride (l : Layout) : Int := roundUp l.size (max 1 l.align)

def unit : Layout := { size := 0, align := 1 }

/-- Aligned to its size up to 16. -/
def scalar (size : Int) : Layout :=
  if size ≤ 0 then unit else { size := size, align := min size 16 }

def intBytes (bits : Int) : Int :=
  if bits ≤ 0 then 0
  else if bits ≤ 8 then 1
  else if bits ≤ 16 then 2
  else if bits ≤ 32 then 4
  else if bits ≤ 64 then 8
  else if bits ≤ 128 then 16
  else 32

def int (bits : Int) : Layout := scalar (intBytes bits)

def pointerSize : Int := 8

def pointer : Layout := { size := pointerSize, align := pointerSize }

/-- The end and the alignment so far and the offsets, last first. -/
def placeMember (state : Int × Int × List Int) (member : Layout) : Int × Int × List Int :=
  let (size, align, offsets) := state
  let start := roundUp size (max 1 member.align)
  (wrap64 (start + member.size), max align (max 1 member.align), start :: offsets)

def struct (members : List Layout) : Layout :=
  let (size, align, offsets) := members.foldl placeMember (0, 1, [])
  { size := roundUp size align, align := align, offsets := offsets.reverse }

def arrayDescriptor : Layout := struct [pointer, int 32, int 32]

def tagBits (n : Int) : Nat := if n ≤ 1 then 0 else (n - 1).toNat.log2 + 1

def enum (variants : List Layout) : Layout :=
  if variants.isEmpty then unit
  else
    let payload := variants.foldl (fun size v => max size v.size) 0
    let payloadAlign := variants.foldl (fun align v => max align (max 1 v.align)) 1
    let tagSize := intBytes (tagBits variants.length)
    let payloadOffset := roundUp tagSize payloadAlign
    let align := max (max 1 tagSize) payloadAlign
    { size := roundUp (wrap64 (payloadOffset + payload)) align
      align := align
      tagSize := tagSize
      payloadOffset := payloadOffset
      variants := variants.length }

def offset (l : Layout) (index : Int) : Int :=
  if index < 0 then 0 else (l.offsets[index.toNat]?).getD 0

inductive Plan where
  | answer (layout : Layout)
  | fail (cause : Failure)
  | ask (id : TypeId) (next : Layout → Plan)

namespace Plan

/-- `known` are the layouts asked for so far, last first. -/
def askAll (known : List Layout) (next : List Layout → Plan) : List TypeId → Plan
  | [] => next known.reverse
  | id :: rest => .ask id fun layout => askAll (layout :: known) next rest

end Plan

abbrev Cache := Std.HashMap Nat (Except Failure Layout)

/-- A layout fault in the cause, or the cause under the name of the type. -/
def faultOf (id : TypeId) (cause : Failure) : Failure :=
  match layoutFault? cause with
  | some failure => failure
  | none =>
    match cause with
    | .crash text => .crash text
    | _ => .layout (.resolver id) (some cause)
where
  /-- Searched depth first. -/
  layoutFault? : Failure → Option Failure
    | .layout fault cause => some (.layout fault cause)
    | .decl _ (some cause) => layoutFault? cause
    | .report _ _ (some cause) => layoutFault? cause
    | .under _ (some cause) => layoutFault? cause
    | _ => none

/-- From the outermost type to `id`, closed by `id` again. -/
def cycleOf (stack : List TypeId) (id : TypeId) : List TypeId :=
  (stack.reverse.dropWhile fun open_ => !open_.same id) ++ [id]

def follow (look : TypeId → Cache → Except Failure Layout × Cache) :
    Plan → Cache → Except Failure Layout × Cache
  | .answer layout, cache => (.ok layout, cache)
  | .fail cause, cache => (.error cause, cache)
  | .ask id next, cache =>
    match look id cache with
    | (.ok layout, cache) => follow look (next layout) cache
    | (.error cause, cache) => (.error cause, cache)

/-- The types around it come innermost first. A resolver that knows finitely many types never
reaches the depth `fuel`. -/
def layoutOf (plan : TypeId → Plan) : (fuel : Nat) → (stack : List TypeId) → TypeId → Cache →
    Except Failure Layout × Cache
  | fuel, stack, id, cache =>
    match cache[id.number]? with
    | some known => (known, cache)
    | none =>
      if stack.any id.same then
        let fault := Failure.layout (.recursive (cycleOf stack id)) none
        (.error fault, cache.insert id.number (.error fault))
      else
        match fuel with
        | 0 => (.error (.layout (.unknownType id) none), cache)
        | fuel + 1 =>
          let (result, cache) := follow (layoutOf plan fuel (id :: stack)) (plan id) cache
          let result := match result with
            | .ok layout => .ok layout
            | .error cause => .error (faultOf id cause)
          (result, cache.insert id.number result)

end Layout

end Sierra
