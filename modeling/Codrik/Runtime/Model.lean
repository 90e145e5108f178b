import Mathlib.Algebra.GroupWithZero.Nat
import Mathlib.Algebra.Ring.Int.Defs
import Mathlib.Data.Prod.Lex
import Mathlib.Data.String.Basic
import Mathlib.Order.Basic
import Mathlib.Order.Lattice

/-! Identifiers, clock readings and state names of the runtime store (`runtime/model.rs`). -/

namespace Codrik.Runtime

-----------------------------------------------------------------------------------------
-- Identifiers
-----------------------------------------------------------------------------------------

/-- The entities that `id_type!` and `uuid_id_type!` declare an identifier type for. -/
inductive IdKind
  | event | workItem | run | attempt | outbox | gatewayDelivery
  | request | cancel | bundle | delivery | artifact
deriving DecidableEq, Repr

/-- A UUID-valued identifier. The canonical text of a UUID has a fixed length and lowercase
digits, so comparing texts and comparing the numbers they denote is the same.
-/
structure Id (kind : IdKind) where
  number : Nat
deriving DecidableEq, Repr

instance {kind : IdKind} : LawfulBEq (Id kind) := inferInstance

instance {kind : IdKind} : LinearOrder (Id kind) :=
  LinearOrder.lift' Id.number (fun a b same => by cases a; cases b; simpa using same)

abbrev EventId := Id .event
abbrev WorkItemId := Id .workItem
abbrev RunId := Id .run
abbrev AttemptId := Id .attempt
abbrev OutboxId := Id .outbox
abbrev GatewayDeliveryId := Id .gatewayDelivery
abbrev RequestId := Id .request
abbrev CancelId := Id .cancel
abbrev BundleId := Id .bundle
abbrev DeliveryId := Id .delivery
abbrev ArtifactId := Id .artifact

/-- Actor ids are names chosen by the operator, not UUIDs. -/
structure ActorId where
  name : String
deriving DecidableEq, Repr

instance : LinearOrder ActorId :=
  LinearOrder.lift' ActorId.name (fun a b same => by cases a; cases b; simpa using same)

-----------------------------------------------------------------------------------------
-- Limits and time
-----------------------------------------------------------------------------------------

def maxFinalChunkBytes : Nat := 192 * 1024
def maxManifestBytes : Nat := 256 * 1024
def maxBundleBytes : Nat := 16 * 1024 * 1024
def maxBundleDeliveries : Nat := 1024

/-- Milliseconds since the Unix epoch. -/
abbrev Timestamp := Int

/-- `i64::saturating_add` on clock readings. -/
def Timestamp.plusMillis (at' : Timestamp) (millis : Int) : Timestamp :=
  max (-9223372036854775808) (min 9223372036854775807 (at' + millis))

-----------------------------------------------------------------------------------------
-- Enumerations
-----------------------------------------------------------------------------------------

inductive Audience
  | actorPrivate
  | conversationScoped (address : String)
  | shareable
deriving DecidableEq, Repr

inductive EventKind
  | userMessage | cancelRequested | externalCompletion
deriving DecidableEq, Repr

/-- The dispatch priority of the `CASE kind` in the selection queries. -/
def EventKind.rank : EventKind → Nat
  | .cancelRequested => 0
  | .userMessage => 1
  | .externalCompletion => 2

inductive ExecutionPolicy
  | actorTools | skillsOnly
deriving DecidableEq, Repr

def ExecutionPolicy.intersect : ExecutionPolicy → ExecutionPolicy → ExecutionPolicy
  | .actorTools, .actorTools => .actorTools
  | _, _ => .skillsOnly

def ExecutionPolicy.allows (policy : ExecutionPolicy) (name : String) : Bool :=
  policy = .actorTools || name = "skills_list" || name = "skills_read"

inductive EventState
  | pending | processing | completed | cancelled | failedTerminal | blocked
deriving DecidableEq, Repr

inductive WorkItemKind
  | interactive | external
deriving DecidableEq, Repr

inductive WorkItemState
  | ready | waiting | completed | cancelled | failedTerminal
  | blockedUnknownOutcome | blockedMalformed | waitingForDecision
deriving DecidableEq, Repr

inductive RunState
  | active | completed | cancelled | failedTerminal
deriving DecidableEq, Repr

inductive AttemptState
  | prepared | running | succeeded | failedKnown
  | outcomeUnknown | cancelledKnown | waitingForDecision
deriving DecidableEq, Repr

inductive LocalRequestState
  | active | completed | cancelled | failedTerminal
deriving DecidableEq, Repr

inductive BundleState
  | pending | delivering | delivered | failedRetryable | failedTerminal
deriving DecidableEq, Repr

-----------------------------------------------------------------------------------------
-- Text conventions of the source language
-----------------------------------------------------------------------------------------

/-- `char::is_whitespace`: the Unicode White_Space property. -/
def isWhitespace (c : Char) : Bool :=
  c.toNat ∈ [0x9, 0xA, 0xB, 0xC, 0xD, 0x20, 0x85, 0xA0, 0x1680, 0x2000, 0x2001, 0x2002,
    0x2003, 0x2004, 0x2005, 0x2006, 0x2007, 0x2008, 0x2009, 0x200A, 0x2028, 0x2029, 0x202F,
    0x205F, 0x3000]

/-- `text.trim().is_empty()` -/
def isBlank (text : String) : Bool := text.toList.all isWhitespace

/-- `text.trim()` -/
def trim (text : String) : String :=
  String.ofList ((text.toList.dropWhile isWhitespace).reverse.dropWhile isWhitespace).reverse

end Codrik.Runtime
