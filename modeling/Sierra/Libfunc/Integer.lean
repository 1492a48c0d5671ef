import Sierra.Libfunc.Basic

/-!
# Integers and field elements

Fixed-width and bounded integers and field elements. Values are widened to signed words of 256 bits
where a result or a range does not fit.
-/

namespace Sierra.Libfunc

open Ir (ValueId Build)

/-! ## Field elements -/

def feltConst : GenericLibfunc := fun s args => do
  s.expectArgs args 1
  let v ← s.valueArg args 0
  let felt ← s.find "felt252"
  return simple "felt252_const" [] [felt] fun site => do
    site.leave 0 [← Build.const (.int 252) (Felt.ofInt v).val]

def feltBinary (generic : String) (op : Word.Modular) : GenericLibfunc := fun s args => do
  s.expectArgs args 0
  let felt ← s.find "felt252"
  return simple generic [felt, felt] [felt] fun site => do
    let modulus ← prime
    site.leave 0 [← Build.modular op (site.arg 0) (site.arg 1) modulus]

def feltDiv : GenericLibfunc := fun s args => do
  s.expectArgs args 0
  let felt ← s.find "felt252"
  let nz ← s.wrap "NonZero" felt
  return simple "felt252_div" [felt, nz] [felt] fun site => do
    site.leave 0 (← ask .feltDiv site.args)

def isZero (generic typeName : String) : GenericLibfunc := fun s args => do
  s.expectArgs args 0
  isZeroOf s generic (← s.find typeName)

/-! ## Fixed widths -/

def uintName (bits : Nat) : String := s!"u{bits}"

def sintName (bits : Nat) : String := s!"i{bits}"

def uintOverflowingAdd (name : String) : GenericLibfunc := fun s args => do
  s.expectArgs args 0
  let id ← s.find name
  let rc ← s.find "RangeCheck"
  return branching (name ++ "_overflowing_add") [rc, id, id] [[rc, id], [rc, id]] fun site => do
    let counter ← bump (site.arg 0)
    let sum ← Build.add (site.arg 1) (site.arg 2)
    let overflow ← Build.icmp .ult sum (site.arg 1)
    site.leaveIf overflow 1 [counter, sum] 0 [counter, sum]

def uintOverflowingSub (name : String) : GenericLibfunc := fun s args => do
  s.expectArgs args 0
  let id ← s.find name
  let rc ← s.find "RangeCheck"
  return branching (name ++ "_overflowing_sub") [rc, id, id] [[rc, id], [rc, id]] fun site => do
    let counter ← bump (site.arg 0)
    let difference ← Build.sub (site.arg 1) (site.arg 2)
    let overflow ← Build.icmp .ult (site.arg 1) (site.arg 2)
    site.leaveIf overflow 1 [counter, difference] 0 [counter, difference]

/-- No first, then yes. -/
def intEq (name : String) : GenericLibfunc := fun s args => do
  s.expectArgs args 0
  let id ← s.find name
  return branching (name ++ "_eq") [id, id] [[], []] fun site => do
    let equal ← Build.icmp .eq (site.arg 0) (site.arg 1)
    site.leaveIf equal 1 [] 0 []

/-- No first, then yes. -/
def uintCompare (name suffix : String) (pred : Word.Pred) : GenericLibfunc := fun s args => do
  s.expectArgs args 0
  let id ← s.find name
  let rc ← s.find "RangeCheck"
  return branching (name ++ suffix) [rc, id, id] [[rc], [rc]] fun site => do
    let counter ← bump (site.arg 0)
    let holds ← Build.icmp pred (site.arg 1) (site.arg 2)
    site.leaveIf holds 1 [counter] 0 [counter]

def uintSafeDivmod (name : String) : GenericLibfunc := fun s args => do
  s.expectArgs args 0
  let id ← s.find name
  let rc ← s.find "RangeCheck"
  let nz ← s.wrap "NonZero" id
  return simple (name ++ "_safe_divmod") [rc, id, nz] [rc, id, id] fun site => do
    let counter ← bump (site.arg 0)
    let q ← Build.binary .udiv (site.arg 1) (site.arg 2)
    let r ← Build.binary .urem (site.arg 1) (site.arg 2)
    site.leave 0 [counter, q, r]

/-- Of the widest integers a high and a low half, of others twice the width. -/
def uintWideMul (bits : Nat) : GenericLibfunc := fun s args => do
  s.expectArgs args 0
  let name := uintName bits
  let id ← s.find name
  if bits = 128 then
    return simple (name ++ "_wide_mul") [id, id] [id, id] fun site => do
      let x ← Build.zext (site.arg 0) (.int 256)
      let y ← Build.zext (site.arg 1) (.int 256)
      let product ← Build.mul x y
      let shift ← wide 128
      let upper ← Build.binary .lshr product shift
      let hi ← Build.trunc upper (.int 128)
      let lo ← Build.trunc product (.int 128)
      site.leave 0 [hi, lo]
  else
    let double ← s.find (uintName (bits * 2))
    return simple (name ++ "_wide_mul") [id, id] [double] fun site => do
      let x ← Build.zext (site.arg 0) (.int (bits * 2))
      let y ← Build.zext (site.arg 1) (.int (bits * 2))
      site.leave 0 [← Build.mul x y]

/-- Rounded down, in half the width but at least 8 bits. -/
def uintSqrt (bits : Nat) : GenericLibfunc := fun s args => do
  s.expectArgs args 0
  let name := uintName bits
  let id ← s.find name
  let rc ← s.find "RangeCheck"
  let rootBits := max (bits / 2) 8
  let root ← s.find (uintName rootBits)
  return simple (name ++ "_sqrt") [rc, id] [rc, root] fun site => do
    let counter ← bump (site.arg 0)
    let x ← Build.zext (site.arg 1) (.int 256)
    let r ← ask .intSqrt [x]
    site.leave 0 [counter, ← Build.trunc (r.headD (-1)) (.int rootBits)]

def intToFelt (name : String) : GenericLibfunc := fun s args => do
  s.expectArgs args 0
  let (id, info) ← s.findInfo name
  let felt ← s.find "felt252"
  return simple (name ++ "_to_felt252") [id] [felt] fun site => do
    site.leave 0 [← toFelt (site.arg 0) info]

def intTryFromFelt (name : String) : GenericLibfunc := fun s args => do
  s.expectArgs args 0
  let (id, info) ← s.findInfo name
  let rc ← s.find "RangeCheck"
  let felt ← s.find "felt252"
  return tryFromFelt (name ++ "_try_from_felt252") rc felt id info

/-- In range, below the range, above it, with the wrapped result. -/
def sintOverflowing (bits : Nat) (suffix : String) (op : Word.Binary) : GenericLibfunc :=
  fun s args => do
    s.expectArgs args 0
    let name := sintName bits
    let (id, info) ← s.findInfo name
    let rc ← s.find "RangeCheck"
    let outs := [rc, id]
    return branching (name ++ suffix) [rc, id, id] [outs, outs, outs] fun site => do
      let counter ← bump (site.arg 0)
      let x ← widen (site.arg 1) info
      let y ← widen (site.arg 2) info
      let r ← Build.binary op x y
      let lo ← wide info.least
      let under ← Build.icmp .slt r lo
      let hi ← wide info.greatest
      let beyond ← Build.icmp .sgt r hi
      let first ← Build.const (.int 8) 1
      let second ← Build.const (.int 8) 2
      let inside ← Build.const (.int 8) 0
      let upper ← Build.select beyond second inside
      let tag ← Build.select under first upper
      let wrapped ← Build.trunc r (.int bits)
      let values := [counter, wrapped]
      site.leaveBy tag [values, values, values]

/-- The second branch wraps. -/
def sintDiff (bits : Nat) : GenericLibfunc := fun s args => do
  s.expectArgs args 0
  let name := sintName bits
  let id ← s.find name
  let rc ← s.find "RangeCheck"
  let unsigned ← s.find (uintName bits)
  return branching (name ++ "_diff") [rc, id, id] [[rc, unsigned], [rc, unsigned]] fun site => do
    let counter ← bump (site.arg 0)
    let difference ← Build.sub (site.arg 1) (site.arg 2)
    let ge ← Build.icmp .sge (site.arg 1) (site.arg 2)
    site.leaveIf ge 0 [counter, difference] 1 [counter, difference]

def bitwise : GenericLibfunc := fun s args => do
  s.expectArgs args 0
  let builtin ← s.find "Bitwise"
  let u128 ← s.find "u128"
  return simple "bitwise" [builtin, u128, u128] [builtin, u128, u128, u128] fun site => do
    let counter ← bump (site.arg 0)
    let both ← Build.binary .and (site.arg 1) (site.arg 2)
    let one ← Build.binary .xor (site.arg 1) (site.arg 2)
    let any ← Build.binary .or (site.arg 1) (site.arg 2)
    site.leave 0 [counter, both, one, any]

/-- One integer when it fits, else a high and a low half. -/
def u128sFromFelt : GenericLibfunc := fun s args => do
  s.expectArgs args 0
  let rc ← s.find "RangeCheck"
  let felt ← s.find "felt252"
  let u128 ← s.find "u128"
  return branching "u128s_from_felt252" [rc, felt] [[rc, u128], [rc, u128, u128]] fun site => do
    let counter ← bump (site.arg 0)
    let shift ← Build.const (.int 252) 128
    let upper ← Build.binary .lshr (site.arg 1) shift
    let hi ← Build.trunc upper (.int 128)
    let lo ← Build.trunc (site.arg 1) (.int 128)
    let zero ← Build.const (.int 128) 0
    let fits ← Build.icmp .eq hi zero
    site.leaveIf fits 0 [counter, lo] 1 [counter, hi, lo]

/-! ## Conversions between integer types -/

def upcast : GenericLibfunc := fun s args => do
  let ((source, si), (target, ti)) ← s.twoTypes args
  requireInteger s source si
  requireInteger s target ti
  if si.least < ti.least || ti.greatest < si.greatest then
    s.invalid (source.text ++ " does not fit in " ++ target.text)
  else
    return simple "upcast" [source] [target] fun site => do
      if ti.kind = .felt252 then site.leave 0 [← toFelt (site.arg 0) si]
      else
        let w ← widen (site.arg 0) si
        site.leave 0 [← narrow w ti]

def downcast : GenericLibfunc := fun s args => do
  let ((source, si), (target, ti)) ← s.twoTypes args
  requireInteger s source si
  requireInteger s target ti
  let rc ← s.find "RangeCheck"
  return branching "downcast" [rc, source] [[rc, target], [rc]] fun site => do
    let counter ← bump (site.arg 0)
    let (v, ok) ←
      if si.kind = .felt252 then fromFelt (site.arg 1) ti
      else do
        let w ← widen (site.arg 1) si
        let v ← narrow w ti
        pure (v, ← inRange w ti)
    site.leaveIf ok 0 [counter, v] 1 [counter]

/-! ## Bounded integers -/

def requireRange (s : Scope) (id : TypeId) (info : TypeInfo) : Except Failure Unit := do
  requireInteger s id info
  if info.kind = .felt252 then
    .error (.rule .cast id.text "felt252 has no bounded range")

def rangedOperands (s : Scope) (args : List GenericArg) :
    Except Failure ((TypeId × TypeInfo) × (TypeId × TypeInfo)) := do
  let ((a, ai), (b, bi)) ← s.twoTypes args
  requireRange s a ai
  requireRange s b bi
  return ((a, ai), (b, bi))

def boundedArith (generic : String) (op : Word.Binary)
    (range : (a b : TypeInfo) → Int × Int) : GenericLibfunc := fun s args => do
  let ((a, ai), (b, bi)) ← rangedOperands s args
  let (lo, hi) := range ai bi
  let (out, oi) ← s.bounded lo hi
  return simple generic [a, b] [out] fun site => do
    let x ← widen (site.arg 0) ai
    let y ← widen (site.arg 1) bi
    let r ← Build.binary op x y
    site.leave 0 [← narrow r oi]

def sumRange (a b : TypeInfo) : Int × Int := (a.least + b.least, a.greatest + b.greatest)

def differenceRange (a b : TypeInfo) : Int × Int := (a.least - b.greatest, a.greatest - b.least)

def productRange (a b : TypeInfo) : Int × Int :=
  let p := a.least * b.least
  let ends := [a.least * b.greatest, a.greatest * b.least, a.greatest * b.greatest]
  (ends.foldl min p, ends.foldl max p)

def boundedDivRem : GenericLibfunc := fun s args => do
  let ((a, ai), (b, bi)) ← rangedOperands s args
  if ai.least < 0 || bi.least < 0 || bi.greatest == 0 then
    s.invalid "div_rem needs a non-negative dividend and a positive divisor range"
  else
    let leastDivisor := if bi.least = 0 then 1 else bi.least
    let (q, qi) ← s.bounded (ai.least.tdiv bi.greatest) (ai.greatest.tdiv leastDivisor)
    let (r, ri) ← s.bounded 0 (min ai.greatest (bi.greatest - 1))
    let rc ← s.find "RangeCheck"
    let nz ← s.wrap "NonZero" b
    return simple "bounded_int_div_rem" [rc, a, nz] [rc, q, r] fun site => do
      let x ← widen (site.arg 1) ai
      let y ← widen (site.arg 2) bi
      let counter ← bump (site.arg 0)
      let quotient ← Build.binary .udiv x y
      let quotient ← narrow quotient qi
      let remainder ← Build.binary .urem x y
      let remainder ← narrow remainder ri
      site.leave 0 [counter, quotient, remainder]

def boundedConstrain : GenericLibfunc := fun s args => do
  s.expectArgs args 2
  let id ← s.typeArg args 0
  let info ← s.types.info id
  requireInteger s id info
  let boundary ← s.valueArg args 1
  if boundary ≤ info.least || info.greatest < boundary then
    s.invalid s!"boundary {boundary} outside ({info.least}, {info.greatest}]"
  else
    let (below, bi) ← s.bounded info.least (boundary - 1)
    let (above, ai) ← s.bounded boundary info.greatest
    let rc ← s.find "RangeCheck"
    return branching "bounded_int_constrain" [rc, id] [[rc, below], [rc, above]] fun site => do
      let counter ← bump (site.arg 0)
      let w ← widen (site.arg 1) info
      let limit ← wide boundary
      let isBelow ← Build.icmp .slt w limit
      let lower ← narrow w bi
      let upper ← narrow w ai
      site.leaveIf isBelow 0 [counter, lower] 1 [counter, upper]

def boundedIsZero : GenericLibfunc := fun s args => do
  let (id, info) ← s.onlyType args
  requireInteger s id info
  let nz ← s.wrap "NonZero" id
  return branching "bounded_int_is_zero" [id] [[], [nz]] fun site => do
    let w ← widen (site.arg 0) info
    let zero ← wide 0
    let test ← Build.icmp .eq w zero
    site.leaveIf test 0 [] 1 site.args

def boundedWrapNonZero : GenericLibfunc := fun s args => do
  let (id, info) ← s.onlyType args
  requireInteger s id info
  if info.contains 0 then
    s.invalid s!"range [{info.least}, {info.greatest}] contains zero"
  else
    let nz ← s.wrap "NonZero" id
    return simple "bounded_int_wrap_non_zero" [id] [nz] forward

/-! ## The catalog -/

def uintCatalog (bits : Nat) : List (String × GenericLibfunc) :=
  let p := uintName bits
  [(p ++ "_const", constantOf (p ++ "_const") p), (p ++ "_overflowing_add", uintOverflowingAdd p),
    (p ++ "_overflowing_sub", uintOverflowingSub p), (p ++ "_eq", intEq p),
    (p ++ "_lt", uintCompare p "_lt" .ult), (p ++ "_le", uintCompare p "_le" .ule),
    (p ++ "_is_zero", isZero (p ++ "_is_zero") p), (p ++ "_safe_divmod", uintSafeDivmod p),
    (p ++ "_wide_mul", uintWideMul bits), (p ++ "_sqrt", uintSqrt bits),
    (p ++ "_to_felt252", intToFelt p), (p ++ "_try_from_felt252", intTryFromFelt p)]

def sintCatalog (bits : Nat) : List (String × GenericLibfunc) :=
  let p := sintName bits
  let addName := "_overflowing_add_impl"
  let subName := "_overflowing_sub_impl"
  [(p ++ "_const", constantOf (p ++ "_const") p),
    (p ++ addName, sintOverflowing bits addName .add),
    (p ++ subName, sintOverflowing bits subName .sub), (p ++ "_eq", intEq p),
    (p ++ "_is_zero", isZero (p ++ "_is_zero") p), (p ++ "_diff", sintDiff bits),
    (p ++ "_to_felt252", intToFelt p), (p ++ "_try_from_felt252", intTryFromFelt p)]

def integerCatalog : List (String × GenericLibfunc) :=
  [("felt252_const", feltConst), ("felt252_add", feltBinary "felt252_add" .addmod),
    ("felt252_sub", feltBinary "felt252_sub" .submod),
    ("felt252_mul", feltBinary "felt252_mul" .mulmod), ("felt252_div", feltDiv),
    ("felt252_is_zero", isZero "felt252_is_zero" "felt252")] ++
  GenericType.widths.flatMap uintCatalog ++ GenericType.widths.flatMap sintCatalog ++
  [("bitwise", bitwise), ("u128s_from_felt252", u128sFromFelt), ("upcast", upcast),
    ("downcast", downcast), ("bounded_int_add", boundedArith "bounded_int_add" .add sumRange),
    ("bounded_int_sub", boundedArith "bounded_int_sub" .sub differenceRange),
    ("bounded_int_mul", boundedArith "bounded_int_mul" .mul productRange),
    ("bounded_int_div_rem", boundedDivRem), ("bounded_int_constrain", boundedConstrain),
    ("bounded_int_is_zero", boundedIsZero), ("bounded_int_wrap_non_zero", boundedWrapNonZero)]

end Sierra.Libfunc
