import Sierra.Program.Ident
import Sierra.Text.Numeral
import Sierra.Text.Search

/-!
# Failures

A `Failure` is a tree of causes: leaves are typed faults or plain texts, inner nodes add a note or a
kind. Its kind is looked for in the reports first, then in the typed faults, then in the text. A
`crash` is the loss of an answer; notes leave it unchanged.
-/

namespace Sierra

inductive Kind where
  | unknown
  | layout
  | target
  | missingParameter
  | unexpectedValue
  | missingSyscallHandler
  | programRegistry
  | integerConversion
  | parseAttribute
  | missingMetadata
  | sierraAssert
  | nativeAssert
  | compiler
  | editState
  | gasMetadata
  | backendCompile
  | link
  | constDataMismatch
  | integerLikeTypeExpected
  | missingBuiltinCostsSymbol
  | selectorNotFound
  | io
  | libraryLoad
  | serialization
  | unlisted (code : Nat)
deriving DecidableEq, Repr, Inhabited

namespace Kind

def listed : Array Kind :=
  #[unknown, layout, target, missingParameter, unexpectedValue, missingSyscallHandler,
    programRegistry, integerConversion, parseAttribute, missingMetadata, sierraAssert,
    nativeAssert, compiler, editState, gasMetadata, backendCompile, link, constDataMismatch,
    integerLikeTypeExpected, missingBuiltinCostsSymbol, selectorNotFound, io, libraryLoad,
    serialization]

def ofCode (code : Nat) : Kind := (listed[code]?).getD (unlisted code)

def name : Kind → String
  | unknown => "unknown"
  | layout => "layout"
  | target => "target"
  | missingParameter => "missing-parameter"
  | unexpectedValue => "unexpected-value"
  | missingSyscallHandler => "missing-syscall-handler"
  | programRegistry => "program-registry"
  | integerConversion => "integer-conversion"
  | parseAttribute => "parse-attribute"
  | missingMetadata => "missing-metadata"
  | sierraAssert => "sierra-assert"
  | nativeAssert => "native-assert"
  | compiler => "compiler"
  | editState => "edit-state"
  | gasMetadata => "gas-metadata"
  | backendCompile => "backend-compile"
  | link => "link"
  | constDataMismatch => "const-data-mismatch"
  | integerLikeTypeExpected => "integer-like-type-expected"
  | missingBuiltinCostsSymbol => "missing-builtin-costs-symbol"
  | selectorNotFound => "selector-not-found"
  | io => "io"
  | libraryLoad => "library-load"
  | serialization => "serialization"
  | unlisted code => s!"Kind({code})"

end Kind

inductive DeclFault where
  | undeclaredType (id : String)
  | undeclaredLibfunc (id : String)
  | undeclaredFunction (id : String)
  | duplicateType (id : String)
  | duplicateLibfunc (id : String)
  | duplicateFunction (id : String)
  | cyclicType (id : String)
  | missingBuilder (id : String)
  | invalidGenericArgs (id : String)
  | typeBuilder (id : String)
  | libfuncBuilder (id : String)
  | outOfRange (value lo hi : Option Int)
  | misuse
  | unlisted (code : Nat) (id : String)
deriving DecidableEq, Repr

inductive GasFault where
  | inconsistentApChange (function : String) (statement : Int) (detail : String)
  | missingCostEntry (detail : String)
  | malformedCycle (function : String) (statement : Int) (detail : String)
  | malformedCostTable (detail : String)
  | unlisted (code : Nat)
deriving DecidableEq, Repr

namespace DeclFault

def ofCode (code : Nat) (id : String) (value lo hi : Option Int) : DeclFault :=
  match code with
  | 1 => undeclaredType id
  | 2 => undeclaredLibfunc id
  | 3 => undeclaredFunction id
  | 4 => duplicateType id
  | 5 => duplicateLibfunc id
  | 6 => duplicateFunction id
  | 7 => cyclicType id
  | 8 => missingBuilder id
  | 9 => invalidGenericArgs id
  | 10 => typeBuilder id
  | 11 => libfuncBuilder id
  | 12 => outOfRange value lo hi
  | 13 => misuse
  | code => unlisted code id

end DeclFault

namespace GasFault

def ofCode (code : Nat) (function : String) (statement : Int) (detail : String) : GasFault :=
  match code with
  | 1 => inconsistentApChange function statement detail
  | 2 => missingCostEntry detail
  | 3 => malformedCycle function statement detail
  | 4 => malformedCostTable detail
  | code => unlisted code

def message : GasFault → String
  | inconsistentApChange function statement detail =>
    s!"inconsistent ap change at statement #{statement} in {function}: {detail}"
  | missingCostEntry detail => s!"missing cost entry for {detail}"
  | malformedCycle function statement detail =>
    s!"malformed cycle in {function} at statement #{statement}: {detail}"
  | malformedCostTable detail => s!"malformed cost table: {detail}"
  | unlisted code => s!"gas metadata error kind={code}"

end GasFault

inductive Invariant where
  | cast
  | range
  | badTypeInit
  | badTypeInfo
  | impossibleCircuit
  | unlisted (code : Nat)
deriving DecidableEq, Repr

namespace Invariant

def ofCode : Nat → Invariant
  | 1 => cast
  | 2 => range
  | 3 => badTypeInit
  | 4 => badTypeInfo
  | 5 => impossibleCircuit
  | code => unlisted code

def rule : Invariant → String
  | cast => "casts always happen between numerical types"
  | range => "range should always intersect"
  | badTypeInit => "type should never be initialized"
  | badTypeInfo => "expected type information was missing"
  | impossibleCircuit => "circuit cannot be evaluated"
  | unlisted code => s!"sierra assert kind={code}"

end Invariant

inductive FlowFault where
  | missingVariable (var : Nat)
  | variableOverride (var : Nat)
  | unconsumedVariable (var : Nat)
  | inconsistentState (detail : String)
  | typeMismatch (var : Nat) (detail : String)
  | unlisted (code : Nat)
deriving DecidableEq, Repr

namespace FlowFault

def ofCode (code var : Nat) (detail : String) : FlowFault :=
  match code with
  | 1 => missingVariable var
  | 2 => variableOverride var
  | 3 => unconsumedVariable var
  | 4 => inconsistentState detail
  | 5 => typeMismatch var detail
  | code => unlisted code

def message : FlowFault → String
  | missingVariable var => s!"variable [{var}] is not available"
  | variableOverride var => s!"variable [{var}] is already defined"
  | unconsumedVariable var => s!"variable [{var}] is not consumed before return"
  | inconsistentState detail => s!"inconsistent variable state at join: {detail}"
  | typeMismatch var detail => s!"variable [{var}] has the wrong type: {detail}"
  | unlisted code => s!"edit state error kind={code}"

end FlowFault

inductive LayoutFault where
  | recursive (cycle : List TypeId)
  | unknownType (id : TypeId)
  | resolver (id : TypeId)
deriving DecidableEq, Repr

structure HeapFault where
  operation : String
  pointer : Nat
  length : Nat
  reason : String
deriving DecidableEq, Repr

namespace HeapFault

def message (fault : HeapFault) : String :=
  s!"memory {fault.operation} at 0x{Text.hexNumeral fault.pointer} (+{fault.length}): " ++
    fault.reason

end HeapFault

inductive Failure where
  | plain (text : String)
  /-- The kind is fixed and the text is all there is to say. -/
  | typed (kind : Kind) (text : String)
  /-- The place is known for a foreign character. -/
  | syntaxError (kind : Kind) (place : Option (Nat × Nat))
  | file (text : String)
  | cancelled
  | truncated
  | decl (fault : DeclFault) (cause : Option Failure)
  | gas (fault : GasFault)
  | rule (fault : Invariant) (type detail : String)
  | flow (function : String) (statement : Int) (fault : FlowFault)
  | layout (fault : LayoutFault) (cause : Option Failure)
  | heap (fault : HeapFault)
  /-- On top of a public operation, perhaps with a note and a cause. -/
  | report (kind : Kind) (note : String) (cause : Option Failure)
  | under (note : String) (cause : Option Failure)
  | joined (parts : List Failure)
  | crash (text : Option String)
deriving Inhabited

namespace DeclFault

def message (fault : DeclFault) (cause : Option String) : String :=
  let why := cause.getD "<nil>"
  match fault with
  | undeclaredType id => s!"undeclared type {id}"
  | undeclaredLibfunc id => s!"undeclared libfunc {id}"
  | undeclaredFunction id => s!"undeclared function {id}"
  | duplicateType id => s!"type {id} declared more than once"
  | duplicateLibfunc id => s!"libfunc {id} declared more than once"
  | duplicateFunction id => s!"function {id} declared more than once"
  | cyclicType id => s!"type {id} is part of a declaration cycle"
  | missingBuilder id => s!"no builder registered for {id}"
  | invalidGenericArgs id =>
    match cause with
    | none => s!"invalid generic arguments for {id}"
    | some _ => s!"invalid generic arguments for {id}: {why}"
  | typeBuilder id => s!"error building type {id}: {why}"
  | libfuncBuilder id => s!"error building libfunc {id}: {why}"
  | outOfRange value lo hi =>
    s!"value {number value} is out of range [{number lo}, {number hi})"
  | misuse => s!"compiler misuse: {why}"
  | unlisted code id => s!"compiler error kind={code} id={id}"
where
  number : Option Int → String
    | none => "<nil>"
    | some n => toString n

end DeclFault

namespace LayoutFault

def message (fault : LayoutFault) (cause : Option String) : String :=
  match fault with
  | recursive cycle =>
    s!"recursive value type has infinite size (cycle: " ++
      Text.join " -> " (cycle.map Ident.text) ++ ")"
  | unknownType id => "no layout for unknown type " ++ id.text
  | resolver id => "layout of " ++ id.text ++ ": " ++ cause.getD "<nil>"

end LayoutFault

namespace Failure

abbrev native (text : String) : Failure := .typed .nativeAssert text

def message : Failure → String
  | plain text => text
  | typed _ text => text
  | syntaxError _ _ => "syntax error"
  | file text => text
  | cancelled => "context canceled"
  | truncated => "unexpected EOF"
  | decl fault none => fault.message none
  | decl fault (some cause) => fault.message (some cause.message)
  | gas fault => fault.message
  | rule fault type detail =>
    fault.rule ++ (if type = "" then "" else s!" ({type})") ++
      (if detail = "" then "" else s!": {detail}")
  | flow function statement fault => s!"{function} statement #{statement}: " ++ fault.message
  | layout fault none => fault.message none
  | layout fault (some cause) => fault.message (some cause.message)
  | heap fault => fault.message
  | report kind note none => if note = "" then kind.name else kind.name ++ ": " ++ note
  | report kind note (some cause) =>
    kind.name ++ ": " ++ (if note = "" then "" else note ++ ": ") ++ cause.message
  | under note none => note ++ ": %!w(<nil>)"
  | under note (some cause) => note ++ ": " ++ cause.message
  | joined parts => lines parts
  | crash text => text.getD ""
where
  lines : List Failure → String
    | [] => ""
    | [part] => part.message
    | part :: next :: rest => part.message ++ "\n" ++ lines (next :: rest)
termination_by structural failure => failure

/-- Searched depth first. -/
def report? : Failure → Option (Kind × String × Option Failure)
  | report kind note cause => some (kind, note, cause)
  | decl _ (some cause) => cause.report?
  | layout _ (some cause) => cause.report?
  | under _ (some cause) => cause.report?
  | joined parts => firstReport parts
  | _ => none
where
  firstReport : List Failure → Option (Kind × String × Option Failure)
    | [] => none
    | part :: rest => part.report?.or (firstReport rest)
termination_by structural failure => failure

/-- Searched depth first. -/
def typedKind? : Failure → Option Kind
  | typed kind _ => some kind
  | syntaxError kind _ => if kind = .unknown then none else some kind
  | decl _ _ => some .compiler
  | gas _ => some .gasMetadata
  | rule _ _ _ => some .sierraAssert
  | flow _ _ _ => some .editState
  | layout _ _ => some .layout
  | heap _ => some .nativeAssert
  | report _ _ (some cause) => cause.typedKind?
  | under _ (some cause) => cause.typedKind?
  | joined parts => firstKind parts
  | _ => none
where
  firstKind : List Failure → Option Kind
    | [] => none
    | part :: rest => part.typedKind?.or (firstKind rest)
termination_by structural failure => failure

def touchesFile : Failure → Bool
  | file _ => true
  | decl _ (some cause) => cause.touchesFile
  | layout _ (some cause) => cause.touchesFile
  | report _ _ (some cause) => cause.touchesFile
  | under _ (some cause) => cause.touchesFile
  | joined parts => anyFile parts
  | _ => false
where
  anyFile : List Failure → Bool
    | [] => false
    | part :: rest => part.touchesFile || anyFile rest
termination_by structural failure => failure

def classify (failure : Failure) : Kind :=
  match failure.typedKind? with
  | some kind => kind
  | none =>
    if failure.touchesFile then .io
    else if Text.contains failure.message "out of bounds" then .integerConversion
    else if Text.contains failure.message "msgpack" then .serialization
    else .unknown

def kind (failure : Failure) : Kind :=
  match failure.report? with
  | some (kind, _, _) => kind
  | none => failure.classify

/-- A failure that holds a report is kept. -/
def wrap (failure : Failure) : Failure :=
  match failure with
  | crash text => crash text
  | _ =>
    match failure.report? with
    | some _ => failure
    | none => report failure.classify "" (some failure)

/-- The report has the failure's own kind. -/
def wrapWith (note : String) (failure : Failure) : Failure :=
  match failure with
  | crash text => crash text
  | _ => report failure.kind note (some failure)

def reportAs (kind : Kind) (note : String) (failure : Failure) : Failure :=
  match failure with
  | crash text => crash text
  | _ => report kind note (some failure)

def noted (note : String) (failure : Failure) : Failure :=
  match failure with
  | crash text => crash text
  | _ => under note (some failure)

def isBare (kind : Kind) (target : Option (Kind × String × Option Failure)) : Bool :=
  match target with
  | some (k, note, none) => k = kind && note = ""
  | _ => false

/-- Whether some report has the kind that the bare `target` names. -/
def hasReport (target : Option (Kind × String × Option Failure)) : Failure → Bool
  | report kind _ none => isBare kind target
  | report kind _ (some cause) => isBare kind target || hasReport target cause
  | decl _ (some cause) => hasReport target cause
  | layout _ (some cause) => hasReport target cause
  | under _ (some cause) => hasReport target cause
  | joined parts => anyReport target parts
  | _ => false
where
  anyReport (target : Option (Kind × String × Option Failure)) : List Failure → Bool
    | [] => false
    | part :: rest => hasReport target part || anyReport target rest
termination_by structural failure => failure

def isLike (failure target : Failure) : Bool := hasReport target.report? failure

def isCancelled : Failure → Bool
  | cancelled => true
  | decl _ (some cause) => cause.isCancelled
  | report _ _ (some cause) => cause.isCancelled
  | under _ (some cause) => cause.isCancelled
  | joined parts => anyCancelled parts
  | _ => false
where
  anyCancelled : List Failure → Bool
    | [] => false
    | part :: rest => part.isCancelled || anyCancelled rest
termination_by structural failure => failure

def isTruncated : Failure → Bool
  | truncated => true
  | decl _ (some cause) => cause.isTruncated
  | report _ _ (some cause) => cause.isTruncated
  | under _ (some cause) => cause.isTruncated
  | joined parts => anyTruncated parts
  | _ => false
where
  anyTruncated : List Failure → Bool
    | [] => false
    | part :: rest => part.isTruncated || anyTruncated rest
termination_by structural failure => failure

def declFault? : Failure → Option DeclFault
  | decl fault _ => some fault
  | layout _ (some cause) => cause.declFault?
  | report _ _ (some cause) => cause.declFault?
  | under _ (some cause) => cause.declFault?
  | joined parts => firstDecl parts
  | _ => none
where
  firstDecl : List Failure → Option DeclFault
    | [] => none
    | part :: rest => part.declFault?.or (firstDecl rest)
termination_by structural failure => failure

def missingParameter (typeName : String) : Failure :=
  report .missingParameter s!"missing parameter of type {typeName}" none

end Failure

end Sierra
