import Sierra.Ir.Module

/-!
# Host functions

The functions that code may ask of its host. A system call takes the gas first, and gives back the
gas left, a flag for failure and the reason before its own results.
-/

namespace Sierra.Host

open Ir

def arrayType : Ty := .blob 16 8

def u256Type : Ty := .blob 32 16

def secpPointType : Ty := .blob 64 16

inductive CurveName where
  | k1
  | r1
deriving DecidableEq, Repr, Inhabited

def CurveName.name : CurveName → String
  | k1 => "secp256k1"
  | r1 => "secp256r1"

inductive Syscall where
  | storageRead
  | storageWrite
  | emitEvent
  | getBlockHash
  | getExecutionInfo
  | callContract
  | sendMessage
  | keccak
  | secpNew (curve : CurveName)
  | secpAdd (curve : CurveName)
  | secpGetXY (curve : CurveName)
deriving DecidableEq, Repr, Inhabited

namespace Syscall

def all : List Syscall :=
  [storageRead, storageWrite, emitEvent, getBlockHash, getExecutionInfo, callContract,
    sendMessage, keccak, secpNew .k1, secpAdd .k1, secpGetXY .k1, secpNew .r1, secpAdd .r1,
    secpGetXY .r1]

def name : Syscall → String
  | storageRead => "storage_read"
  | storageWrite => "storage_write"
  | emitEvent => "emit_event"
  | getBlockHash => "get_block_hash"
  | getExecutionInfo => "get_execution_info_v2"
  | callContract => "call_contract"
  | sendMessage => "send_message_to_l1"
  | keccak => "keccak"
  | secpNew curve => curve.name ++ "_new"
  | secpAdd curve => curve.name ++ "_add"
  | secpGetXY curve => curve.name ++ "_get_xy"

def params : Syscall → List Ty
  | storageRead => [.int 32, .int 252]
  | storageWrite => [.int 32, .int 252, .int 252]
  | emitEvent => [arrayType, arrayType]
  | getBlockHash => [.int 64]
  | getExecutionInfo => []
  | callContract => [.int 252, .int 252, arrayType]
  | sendMessage => [.int 252, arrayType]
  | keccak => [arrayType]
  | secpNew _ => [u256Type, u256Type]
  | secpAdd _ => [secpPointType, secpPointType]
  | secpGetXY _ => [secpPointType]

def results : Syscall → List Ty
  | storageRead => [.int 252]
  | storageWrite => []
  | emitEvent => []
  | getBlockHash => [.int 252]
  | getExecutionInfo => [.ptr]
  | callContract => [arrayType]
  | sendMessage => []
  | keccak => [u256Type]
  | secpNew _ => [.int 1, secpPointType]
  | secpAdd _ => [secpPointType]
  | secpGetXY _ => [u256Type, u256Type]

end Syscall

inductive Service where
  | feltDiv
  | debugPrint
  | intSqrt
  | ecPointTryNew
  | ecPointFromX
  | syscall (call : Syscall)
deriving DecidableEq, Repr, Inhabited

namespace Service

def all : List Service :=
  [feltDiv, debugPrint, intSqrt, ecPointTryNew, ecPointFromX] ++ Syscall.all.map syscall

def name : Service → String
  | feltDiv => "felt252_div"
  | debugPrint => "debug_print"
  | intSqrt => "int_sqrt"
  | ecPointTryNew => "ec_point_try_new"
  | ecPointFromX => "ec_point_from_x"
  | syscall call => "syscall_" ++ call.name

def params : Service → List Ty
  | feltDiv => [.int 252, .int 252]
  | debugPrint => [arrayType]
  | intSqrt => [.int 256]
  | ecPointTryNew => [.int 252, .int 252]
  | ecPointFromX => [.int 252]
  | syscall call => .int 64 :: call.params

def results : Service → List Ty
  | feltDiv => [.int 252]
  | debugPrint => []
  | intSqrt => [.int 256]
  | ecPointTryNew => [.int 1]
  | ecPointFromX => [.int 1, .int 252]
  | syscall call => .int 64 :: .int 1 :: arrayType :: call.results

def declaration (s : Service) : RuntimeDecl :=
  { name := s.name, params := s.params, results := s.results }

def ofName? (text : String) : Option Service := all.find? fun s => s.name == text

def names : List String := (all.map name).mergeSort fun a b => decide (a ≤ b)

end Service

end Sierra.Host
