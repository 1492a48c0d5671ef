import Sierra.Failure

/-!
# Costs

Gas is priced in plain gas and one token for each builtin. A table gives each branch of a library
function a cost and weighs the tokens. Amounts are signed 64-bit words that wrap.
-/

namespace Sierra.Gas

inductive Token where
  | const
  | pedersen
  | bitwise
  | ecOp
  | poseidon
  | addMod
  | mulMod
deriving DecidableEq, Repr, Inhabited

namespace Token

def all : List Token := [const, pedersen, bitwise, ecOp, poseidon, addMod, mulMod]

def name : Token → String
  | const => "const"
  | pedersen => "pedersen"
  | bitwise => "bitwise"
  | ecOp => "ec_op"
  | poseidon => "poseidon"
  | addMod => "add_mod"
  | mulMod => "mul_mod"

def ofName? (text : String) : Option Token := all.find? fun t => t.name == text

def nameOfNumber (n : Nat) : String := ((all[n]?).map name).getD s!"Token({n})"

end Token

structure Cost where
  const : Int := 0
  pedersen : Int := 0
  bitwise : Int := 0
  ecOp : Int := 0
  poseidon : Int := 0
  addMod : Int := 0
  mulMod : Int := 0
deriving DecidableEq, Repr, Inhabited

namespace Cost

def get (c : Cost) : Token → Int
  | .const => c.const
  | .pedersen => c.pedersen
  | .bitwise => c.bitwise
  | .ecOp => c.ecOp
  | .poseidon => c.poseidon
  | .addMod => c.addMod
  | .mulMod => c.mulMod

def set (c : Cost) (amount : Int) : Token → Cost
  | .const => { c with const := amount }
  | .pedersen => { c with pedersen := amount }
  | .bitwise => { c with bitwise := amount }
  | .ecOp => { c with ecOp := amount }
  | .poseidon => { c with poseidon := amount }
  | .addMod => { c with addMod := amount }
  | .mulMod => { c with mulMod := amount }

def toList (c : Cost) : List Int := Token.all.map c.get

def ofList (amounts : List Int) : Cost :=
  (Token.all.zip amounts).foldl (fun c entry => c.set entry.2 entry.1) {}

def gas (amount : Int) : Cost := { const := amount }

def add (a b : Cost) : Cost :=
  Token.all.foldl (fun c t => c.set (wrap64 (a.get t + b.get t)) t) {}

def isZero (c : Cost) : Bool := Token.all.all fun t => c.get t == 0

def total (c weights : Cost) : Int :=
  Token.all.foldl (fun sum t => wrap64 (sum + wrap64 (c.get t * weights.get t))) 0

def text (c : Cost) : String :=
  let parts := (Token.all.filter fun t => c.get t != 0).map fun t => s!"{t.name}={c.get t}"
  if parts.isEmpty then "\x7b\x7d" else "\x7b" ++ Text.join ", " parts ++ "\x7d"

end Cost

def defaultWeights : Cost :=
  { const := 1, pedersen := 4050, bitwise := 583, ecOp := 4085, poseidon := 491, addMod := 230,
    mulMod := 604 }

/-- In ascending order of generic names; one cost stands for every branch. -/
structure Table where
  weights : Cost := defaultWeights
  entries : List (String × List Cost) := []
deriving DecidableEq, Repr, Inhabited

namespace Table

def insert (id : String) (costs : List Cost) :
    List (String × List Cost) → List (String × List Cost)
  | [] => [(id, costs)]
  | (other, known) :: rest =>
    if id = other then (id, costs) :: rest
    else if id < other then (id, costs) :: (other, known) :: rest
    else (other, known) :: insert id costs rest

def set (t : Table) (id : String) (costs : List Cost) : Table :=
  { t with entries := insert id costs t.entries }

def find? (t : Table) (id : String) : Option (List Cost) :=
  (t.entries.find? fun entry => entry.1 == id).map (·.2)

def ids (t : Table) : List String := t.entries.map (·.1)

/-- An entry with another number of branches is refused, unless it has one cost. -/
def lookup (t : Table) (id : String) (branches : Int) : Except Failure (Option (List Cost)) :=
  match t.find? id with
  | none => .ok none
  | some [cost] =>
    if Bytes.canHold (56 * branches) then .ok (some (List.replicate branches.toNat cost))
    else .error (.crash none)
  | some costs =>
    if costs.length = branches then .ok (some costs)
    else
      .error (.plain (s!"{id} has {costs.length} cost branches, libfunc has {branches}"))

def entryFault? (id : String) (costs : List Cost) : Option String :=
  if costs.isEmpty then some s!"{id} has no cost branches"
  else
    costs.zipIdx.findSome? fun (cost, branch) =>
      (Token.all.find? fun t => cost.get t < 0).map fun t =>
        s!"{id} branch {branch}: negative {t.name} cost {cost.get t}"

def fault? (t : Table) : Option String :=
  (t.entries.findSome? fun (id, costs) => entryFault? id costs).or
    ((Token.all.find? fun token => t.weights.get token < 0).map fun token =>
      s!"negative weight for {token.name}")

def validate (t : Table) : Except Failure Unit :=
  match t.fault? with
  | some text => .error (.plain text)
  | none => .ok ()

end Table

/-! ## The default table -/

def stepsWith (steps checks : Int) : Cost := .gas (steps * 100 + checks * 70)

def steps (n : Int) : Cost := stepsWith n 0

def widths : List Nat := [8, 16, 32, 64, 128]

def freeNames : List String :=
  ["rename", "drop", "dup", "branch_align", "snapshot_take", "struct_construct",
    "struct_deconstruct", "struct_snapshot_deconstruct", "unwrap_non_zero", "enum_init",
    "disable_ap_tracking", "enable_ap_tracking", "alloc_local", "finalize_locals",
    "redeposit_gas", "null", "nullable_from_box", "upcast", "felt252_const", "felt252_add",
    "felt252_sub", "felt252_mul", "unbox", "get_available_gas", "array_len", "bounded_int_add",
    "bounded_int_sub", "bounded_int_mul", "bounded_int_wrap_non_zero",
    "storage_base_address_const", "contract_address_const", "contract_address_to_felt252",
    "storage_address_from_base", "bytes31_const", "bytes31_to_felt252", "ec_point_zero",
    "ec_point_unwrap"]

def syscallNames : List String :=
  ["storage_read_syscall", "storage_write_syscall", "emit_event_syscall",
    "get_block_hash_syscall", "get_execution_info_v2_syscall", "call_contract_syscall",
    "send_message_to_l1_syscall", "keccak_syscall", "secp256k1_new_syscall",
    "secp256k1_add_syscall", "secp256k1_get_xy_syscall", "secp256r1_new_syscall",
    "secp256r1_add_syscall", "secp256r1_get_xy_syscall"]

def controlCosts : List (String × List Cost) :=
  [("store_temp", [steps 1]), ("store_local", [steps 1]), ("jump", [steps 1]),
    ("function_call", [steps 2]), ("enum_match", [steps 1]), ("enum_snapshot_match", [steps 1]),
    ("match_nullable", [steps 1]), ("into_box", [steps 1]), ("felt252_is_zero", [steps 1]),
    ("felt252_div", [steps 5]), ("print", [steps 1]),
    ("withdraw_gas", [stepsWith 3 1, stepsWith 4 1]),
    ("withdraw_gas_all", [stepsWith 4 1, stepsWith 5 1]), ("get_builtin_costs", [steps 3])]

def unsignedCosts (width : Nat) : List (String × List Cost) :=
  let name (suffix : String) : String := s!"u{width}" ++ suffix
  [(name "_const", [Cost.gas 0]), (name "_overflowing_add", [stepsWith 3 1, stepsWith 4 1]),
    (name "_overflowing_sub", [stepsWith 3 1, stepsWith 4 1]), (name "_eq", [steps 1]),
    (name "_lt", [stepsWith 3 1]), (name "_le", [stepsWith 3 1]), (name "_is_zero", [steps 1]),
    (name "_safe_divmod", [stepsWith 7 3]), (name "_wide_mul", [Cost.gas 0]),
    (name "_sqrt", [stepsWith 9 4]), (name "_to_felt252", [Cost.gas 0]),
    (name "_try_from_felt252", [stepsWith 3 2, stepsWith 5 3])]

def signedCosts (width : Nat) : List (String × List Cost) :=
  let name (suffix : String) : String := s!"i{width}" ++ suffix
  let threeWays := [stepsWith 4 1, stepsWith 5 1, stepsWith 5 1]
  [(name "_const", [Cost.gas 0]), (name "_overflowing_add_impl", threeWays),
    (name "_overflowing_sub_impl", threeWays), (name "_eq", [steps 1]),
    (name "_is_zero", [steps 1]), (name "_diff", [stepsWith 3 1, stepsWith 4 1]),
    (name "_to_felt252", [Cost.gas 0]), (name "_try_from_felt252", [stepsWith 4 2, stepsWith 5 3])]

def otherCosts : List (String × List Cost) :=
  [("bitwise", [{ bitwise := 1 }]), ("u128s_from_felt252", [stepsWith 5 1, stepsWith 9 3]),
    ("bounded_int_div_rem", [stepsWith 7 3]),
    ("bounded_int_constrain", [stepsWith 3 1, stepsWith 3 1]),
    ("bounded_int_is_zero", [steps 1]), ("downcast", [stepsWith 3 1, stepsWith 4 1]),
    ("array_new", [steps 1]), ("array_append", [steps 2]),
    ("array_get", [stepsWith 3 1, stepsWith 3 1]), ("array_pop_front", [steps 2, steps 1]),
    ("array_pop_front_consume", [steps 2, steps 1]),
    ("array_snapshot_pop_front", [steps 2, steps 1]),
    ("array_snapshot_pop_back", [steps 2, steps 1]),
    ("array_slice", [stepsWith 4 2, stepsWith 4 2]),
    ("ec_point_try_new_nz", [steps 4, steps 4]), ("ec_point_from_x_nz", [steps 6, steps 6]),
    ("ec_point_is_zero", [steps 1]), ("ec_neg", [steps 1]),
    ("storage_base_address_from_felt252", [stepsWith 5 3]),
    ("contract_address_try_from_felt252", [stepsWith 3 1, stepsWith 4 1]),
    ("bytes31_try_from_felt252", [stepsWith 3 1, stepsWith 4 1])]

def defaultTable : Table :=
  let entries := freeNames.map (fun id => (id, [Cost.gas 0])) ++ controlCosts ++
    widths.flatMap unsignedCosts ++ widths.flatMap signedCosts ++ otherCosts ++
    syscallNames.map (fun id => (id, [steps 2, steps 2]))
  entries.foldl (fun t entry => t.set entry.1 entry.2) {}

end Sierra.Gas
