import PaymentNode.Transfer.Lifecycle

/-!
# Semantics — what the operations of a transfer's calls do, and the rules of proof for them

The calls of one transfer hold its locks from first to last, so they run one after another; each can stop
between any two of its operations.  A read or a write may fail, a failed write may still have been made, and
every question has any answer.  `TransferCore` is what decides whether bytes were sent and whether a hold is
charged, with a log of what became durable or left the machine, newest first.
-/

namespace PaymentNode

open TransferProg Discipline

inductive TransferEvent
  | stored (record : OperationRecord)
  | fenced (hash : Hex)
  | sent (raw : Hex)
  /-- The ledger holds the reservation as released before effect. -/
  | released
  /-- An observe-only resume met a signature without a dispatch fence. -/
  | observedUnfenced
  /-- The catch of a dispatch goes on from a Base USDC record that the store has moved past. -/
  | leftBehind
deriving DecidableEq, Repr

structure TransferCore where
  record : Option OperationRecord
  fence : Option Hex
  usage : Option AssetUsageState
  log : List TransferEvent
deriving DecidableEq

namespace TransferCore

variable (c : TransferCore)

def stores (next : OperationRecord) : TransferCore :=
  { c with record := some next, log := .stored next :: c.log }

def fences (hash : Hex) : TransferCore :=
  { c with fence := some hash, log := .fenced hash :: c.log }

def reserves : TransferCore := { c with usage := some .reserved }

def moves (target : AssetUsageState) : TransferCore :=
  { c with
    usage := some target
    log := if target = .failedBeforeEffect then .released :: c.log else c.log }

def allowsMove (target : AssetUsageState) : Bool :=
  c.usage.any fun current => target ∈ allowedTransitions current

def marks (e : TransferEvent) : TransferCore := { c with log := e :: c.log }

/-- The catch of a dispatch of `operation` begins. -/
def catches (operation : OperationRecord) : TransferCore :=
  if operation.evm.isNone ∧ c.record ≠ some operation then c.marks .leftBehind else c

end TransferCore

/-- The core, and the files of the public effect journal. -/
structure TransferShared where
  core : TransferCore
  preparedClaim : Bool
  signing : Bool
  signed : Option Hex
  noPrivate : Option OperationRecord
deriving DecidableEq

def TransferShared.fresh : TransferShared := ⟨⟨none, none, none, []⟩, false, false, none, none⟩

/-- A read fails or answers what is there. -/
def reads {α : Type} (answer : Result α) (value : α) (s t : TransferShared) : Prop :=
  t = s ∧ ∀ a, answer = .ok a → a = value

/-- A write that answers was made; one that fails may have been. -/
def writes {α : Type} (answer : Result α) (allowed : Prop) (s next t : TransferShared) : Prop :=
  (t = s ∧ ∀ a, answer ≠ .ok a) ∨ (allowed ∧ t = next)

def transferExec (_ : Unit) (s : TransferShared) : (o : TransferOp) → o.Answer → TransferShared → Prop
  | .find, answer, t =>
    reads answer s.core.record s t ∧
      ∀ r, (answer : Result (Option OperationRecord)) = .ok (some r) → validateOperation r = .ok ()
  | .writeOperation next, answer, t =>
    writes (α := Unit) answer (validateEvmOperationWrite next s.core.record = .ok ()) s
      { s with core := s.core.stores next } t
  | .readUsage, answer, t => reads answer s.core.usage s t
  | .moveUsage target, answer, t =>
    writes (α := Unit) answer (s.core.allowsMove target) s { s with core := s.core.moves target } t
  | .reserveUsage, answer, t =>
    writes (α := String) answer (s.core.usage = none ∨ s.core.usage = some .reserved) s
      { s with core := s.core.reserves } t
  | .hasPrepared, answer, t => reads answer s.preparedClaim s t
  | .hasSigning, answer, t => reads answer s.signing s t
  | .readSigned, answer, t => reads answer s.signed s t
  | .readNoPrivate, answer, t => reads answer s.noPrivate s t
  | .readFence, answer, t => reads answer s.core.fence s t
  | .writePrepared, answer, t =>
    writes (α := Unit) answer (s.preparedClaim = false) s { s with preparedClaim := true } t
  | .writeSigning, answer, t =>
    writes (α := Unit) answer (s.signing = false) s { s with signing := true } t
  | .writeSigned hash, answer, t =>
    writes (α := Unit) answer (s.signed = none) s { s with signed := some hash } t
  | .writeNoPrivate attempt, answer, t =>
    writes (α := Unit) answer (s.noPrivate = none) s { s with noPrivate := some attempt } t
  | .writeFence hash, answer, t =>
    writes (α := Unit) answer (s.core.fence = none) s { s with core := s.core.fences hash } t
  | .submitRaw raw, _, t => t = { s with core := s.core.marks (.sent raw) }
  | .observesUnfenced, _, t => t = { s with core := s.core.marks .observedUnfenced }
  | .catches operation, _, t => t = { s with core := s.core.catches operation }
  | .writeReceipt _, _, t | .now, _, t | .ask _, _, t => t = s

/-- A process dies with its memory; what is durable stays. -/
def transferSystem : System TransferOp TransferOp.Answer TransferShared Unit where
  exec := transferExec
  crash := fun _ s t => t = s
  env := fun _ _ => False

/-- A record as prepare freezes it. -/
structure OperationRecord.Fresh (r : OperationRecord) : Prop where
  state : r.state = .awaitingApproval
  terminal : r.terminal = false
  earlier : r.earlier = []
  transactionHash : r.transactionHash = none
  rawTransactionHash : r.rawTransactionHash = none
  lastSubmissionAt : r.lastSubmissionAt = none
  allowlistLease : r.allowlistLease = none

/-- The calls on one transfer. -/
inductive TransferCall (keccak : Keccak) : TransferProg Unit → Prop
  | prepare (operation : OperationRecord) :
      operation.Fresh → TransferCall keccak (LocalDirect.prepareOperation operation)
  | approve : TransferCall keccak (LocalDirect.approve keccak)
  | resume (observeOnly : Bool) : TransferCall keccak (LocalDirect.resume keccak observeOnly)
  | settle : TransferCall keccak (LocalDirect.settleDispatched keccak)
  | abandon : TransferCall keccak LocalDirect.abandonLocal
  | retire : TransferCall keccak LocalDirect.retireExpired

/-- Any calls, one after another, each running to its end or dying anywhere. -/
def TransferStep (keccak : Keccak) :=
  System.Step transferSystem fun (_ : Unit) prog => TransferCall keccak prog

end PaymentNode
