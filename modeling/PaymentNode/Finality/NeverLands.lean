import PaymentNode.Basic
import PaymentNode.Lib.Chain
import PaymentNode.Lib.Prog

/-!
# NeverLands — the finalized proof that a signed effect can never be included

`checkNeverLands` reads one public endpoint in up to three batches.  Each batch is one POST, so one node answers
every call in it, from its own view of the chain; two batches may meet two nodes.  `evmEndpoint` is every such
endpoint: a node may lag, hold another unfinalized tip, and index the transactions of its canonical blocks from
some height on.
-/

namespace PaymentNode

/-- Bytes as lower-case hexadecimal, which `evmRpcHex` answers. -/
abbrev RpcHex := String

/-- A transaction as a lookup or a block answers it; its block is null while it is pending. -/
structure RpcTransaction where
  hash : RpcHex
  blockHash : Option RpcHex
  blockNumber : Option ℕ
deriving DecidableEq, Repr

inductive FinalizedReadCall
  | chainId
  | transactionCount (account : RpcHex)
  | transactionReceipt (hash : RpcHex)
  | transactionByHash (hash : RpcHex)
  | blockTransactionCountByHash (hash : RpcHex)
  | blockTransactionCountByNumber (number : ℕ)
  | transactionByBlockHashAndIndex (hash : RpcHex) (index : ℕ)
  | transactionByBlockNumberAndIndex (number : ℕ) (index : ℕ)
deriving DecidableEq, Repr

def FinalizedReadCall.Answer : FinalizedReadCall → Type
  | chainId | transactionCount _ => ℕ
  | transactionReceipt _ | transactionByHash _ | transactionByBlockHashAndIndex _ _
  | transactionByBlockNumberAndIndex _ _ => Option RpcTransaction
  | blockTransactionCountByHash _ | blockTransactionCountByNumber _ => Option ℕ

/-- The answers of one node. -/
abbrev FinalizedReads := (call : FinalizedReadCall) → call.Answer

/-- One batch, that fails or is answered. -/
abbrev FinalizedProg (α : Type) :=
  Prog (List FinalizedReadCall) (fun _ => Result FinalizedReads) ApnError α

namespace Finalized

def lift {α : Type} : Result α → FinalizedProg α
  | .ok a => .ret a
  | .error e => .fail e

def batch (calls : List FinalizedReadCall) : FinalizedProg FinalizedReads :=
  (Prog.perform calls).bind lift

end Finalized

/-- A block of the signing chain read before the effect first left. -/
structure EraBlock where
  hash : RpcHex
  number : Option ℕ
deriving DecidableEq, Repr

structure SignedEffectFacts where
  chainId : ℕ
  account : RpcHex
  nonce : ℕ
  transactionHash : RpcHex
  before : Option EraBlock
deriving DecidableEq, Repr

structure NeverLandsAnswer where
  finalizedNonce : ℕ
  receiptFound : Bool
  transactionKnown : Bool
deriving DecidableEq, Repr

inductive NeverLandsProof
  | proven (finalizedNonce : ℕ)
  | notProven (answer : NeverLandsAnswer)
deriving DecidableEq, Repr

namespace Finalized

def rpcProtocol {α : Type} (message : String) : Result α := .error ⟨.other, message⟩

def assertChain (value chainId : ℕ) : Result Unit :=
  if value ≠ chainId then
    .error ⟨.other, "The finalized-read RPC does not serve the operation's signing chain."⟩
  else .ok ()

/-- A lookup by hash answers null or that hash's own record. -/
def ownLookup (value : Option RpcTransaction) (transactionHash : RpcHex) :
    Result (Option RpcTransaction) :=
  match value with
  | none => .ok none
  | some found =>
    if found.hash ≠ transactionHash then
      rpcProtocol "The RPC answered another transaction than the one asked for."
    else .ok (some found)

def ownReads (effect : SignedEffectFacts) : List FinalizedReadCall :=
  [.transactionCount effect.account, .transactionReceipt effect.transactionHash,
    .transactionByHash effect.transactionHash]

def ownAnswer (effect : SignedEffectFacts) (reads : FinalizedReads) : Result NeverLandsAnswer := do
  let receipt ← ownLookup (reads (.transactionReceipt effect.transactionHash)) effect.transactionHash
  let transaction ← ownLookup (reads (.transactionByHash effect.transactionHash)) effect.transactionHash
  return ⟨reads (.transactionCount effect.account), receipt.isSome, transaction.isSome⟩

/-- The nonce is past the effect's, and the node knows neither it nor a receipt of it. -/
def NeverLandsAnswer.unknown (answer : NeverLandsAnswer) (effect : SignedEffectFacts) : Bool :=
  effect.nonce < answer.finalizedNonce && !answer.receiptFound && !answer.transactionKnown

def eraCount (era : EraBlock) : FinalizedReadCall :=
  match era.number with
  | none => .blockTransactionCountByHash era.hash
  | some number => .blockTransactionCountByNumber number

def eraFirst (era : EraBlock) : FinalizedReadCall :=
  match era.number with
  | none => .transactionByBlockHashAndIndex era.hash 0
  | some number => .transactionByBlockNumberAndIndex number 0

/-- The era block's transaction count and its first transaction, from block data. -/
def eraReads (era : EraBlock) : List FinalizedReadCall := [eraCount era, eraFirst era]

def readCount (era : EraBlock) (reads : FinalizedReads) : Option ℕ :=
  match era.number with
  | none => reads (.blockTransactionCountByHash era.hash)
  | some number => reads (.blockTransactionCountByNumber number)

def readFirst (era : EraBlock) (reads : FinalizedReads) : Option RpcTransaction :=
  match era.number with
  | none => reads (.transactionByBlockHashAndIndex era.hash 0)
  | some number => reads (.transactionByBlockNumberAndIndex number 0)

def anotherBlock {α : Type} : Result α :=
  rpcProtocol "The RPC answered a transaction of another block than the one asked for."

/-- The hash of the era block's first transaction, or none where the node does not hold that block. -/
def probeOf (era : EraBlock) (reads : FinalizedReads) : Result (Option RpcHex) :=
  match readCount era reads, readFirst era reads with
  | none, _ | some 0, _ | _, none => .ok none
  | some _, some transaction =>
    match transaction.blockHash with
    | none => rpcProtocol "RPC hex data is invalid."
    | some blockHash =>
      match era.number with
      | none => if blockHash ≠ era.hash then anotherBlock else .ok (some transaction.hash)
      | some number =>
        if transaction.blockNumber ≠ some number then anotherBlock
        -- Another block of that number: the era block is not canonical on this node.
        else if blockHash ≠ era.hash then .ok none else .ok (some transaction.hash)

/-- The node's transaction index holds the era block. -/
def indexed (found : Option RpcTransaction) (era : EraBlock) : Bool :=
  match found with
  | none => false
  | some transaction =>
    transaction.blockHash = some era.hash &&
      (era.number.isNone || transaction.blockNumber = era.number)

def checkNeverLands (effect : SignedEffectFacts) : FinalizedProg NeverLandsProof := do
  let reads ← batch (.chainId :: ownReads effect)
  lift (assertChain (reads .chainId) effect.chainId)
  let first ← lift (ownAnswer effect reads)
  match effect.before with
  | none => return .notProven first
  | some era =>
    if !NeverLandsAnswer.unknown first effect then return .notProven first
    else
      let block ← batch (eraReads era)
      let probe ← lift (probeOf era block)
      match probe with
      | none => return .notProven first
      | some probe =>
        let deciding ← batch (ownReads effect ++ [.transactionByHash probe])
        let last ← lift (ownAnswer effect deciding)
        let probed ← lift (ownLookup (deciding (.transactionByHash probe)) probe)
        if NeverLandsAnswer.unknown last effect && indexed probed era then
          return .proven last.finalizedNonce
        else return .notProven last

end Finalized

/-! ## Every endpoint -/

structure EvmTransaction where
  account : RpcHex
  nonce : ℕ
  payload : String
deriving DecidableEq, Repr

abbrev EvmBlock := Chain.Block EvmTransaction

/-- A network: how it names a transaction, and a block, which is the chain that ends in it. -/
structure EvmNetwork where
  chainId : ℕ
  transactionHash : EvmTransaction → RpcHex
  blockHash : List EvmBlock → RpcHex

/-- An account's nonce advances only by including its transaction of that nonce. -/
def LawfulChain (c : List EvmBlock) : Prop :=
  ∀ account, Chain.Sequential EvmTransaction.account EvmTransaction.nonce account (Chain.included c)

/-- The chain finalized so far. -/
structure EvmWorld where
  finalized : List EvmBlock

/-- One node: its canonical chain, the part of it that it takes as finalized, the blocks it holds, the
transactions it knows as pending, and the height its transaction index reaches down to. -/
structure EvmNode where
  view : List EvmBlock
  finalized : List EvmBlock
  held : List EvmBlock → Prop
  pool : RpcHex → Prop
  indexFrom : ℕ

/-- A node at a moment: it may lag, and hold any unfinalized tip. -/
structure EvmNode.On (node : EvmNode) (w : EvmWorld) : Prop where
  lawful : LawfulChain node.view
  finalized_view : node.finalized <:+ node.view
  finalized_world : node.finalized <:+ w.finalized

/-- The block of a number on the node's canonical chain. -/
def EvmNode.canonical (node : EvmNode) (number : ℕ) : List EvmBlock :=
  if number < node.view.length then node.view.drop (node.view.length - (number + 1)) else []

section Endpoint

variable (network : EvmNetwork)

namespace EvmNode

/-- `d` is a block of the node's view that its index covers, and the transaction `hash` is in it. -/
def Indexes (node : EvmNode) (hash : RpcHex) (d : List EvmBlock) : Prop :=
  d <:+ node.view ∧ node.indexFrom ≤ Chain.height d ∧
    ∃ b below, d = b :: below ∧ ∃ t ∈ b.transactions, network.transactionHash t = hash

/-- The lookup answers where `hash` is in the index. -/
def Locates (node : EvmNode) (hash : RpcHex) (r : RpcTransaction) : Prop :=
  ∃ d, node.Indexes network hash d ∧
    r = ⟨hash, some (network.blockHash d), some (Chain.height d)⟩

end EvmNode

def blockCount (d : List EvmBlock) : Option ℕ := d.head?.map fun b => b.transactions.length

def blockTransaction (d : List EvmBlock) (index : ℕ) : Option RpcTransaction :=
  d.head?.bind fun b => b.transactions[index]?.map fun t =>
    ⟨network.transactionHash t, some (network.blockHash d), some (Chain.height d)⟩

/-- What a node answers, from its own view. -/
def EvmNode.Truthful (node : EvmNode) : (call : FinalizedReadCall) → call.Answer → Prop
  | .chainId, (value : ℕ) => value = network.chainId
  | .transactionCount account, (value : ℕ) =>
    value = Chain.spent EvmTransaction.account account (Chain.included node.finalized)
  | .transactionReceipt hash, (found : Option RpcTransaction) =>
    match found with
    | none => ∀ d, ¬ node.Indexes network hash d
    | some r => node.Locates network hash r
  | .transactionByHash hash, (found : Option RpcTransaction) =>
    match found with
    | none => ∀ d, ¬ node.Indexes network hash d
    | some r => node.Locates network hash r ∨ (node.pool hash ∧ r = ⟨hash, none, none⟩)
  | .blockTransactionCountByHash hash, (count : Option ℕ) =>
    ∀ n, count = some n → ∃ d, node.held d ∧ network.blockHash d = hash ∧ blockCount d = some n
  | .transactionByBlockHashAndIndex hash index, (found : Option RpcTransaction) =>
    ∀ r, found = some r →
      ∃ d, node.held d ∧ network.blockHash d = hash ∧ blockTransaction network d index = some r
  | .blockTransactionCountByNumber number, (count : Option ℕ) =>
    count = blockCount (node.canonical number)
  | .transactionByBlockNumberAndIndex number index, (found : Option RpcTransaction) =>
    found = blockTransaction network (node.canonical number) index

/-- Every batch fails or is answered by one node, whichever; in between the finalized chain grows. -/
def evmEndpoint :
    System (List FinalizedReadCall) (fun _ => Result FinalizedReads) EvmWorld Unit where
  exec := fun _ w calls answer w' => w' = w ∧ ∀ reads, answer = .ok reads →
    ∃ node : EvmNode, node.On w ∧ ∀ call ∈ calls, node.Truthful network call (reads call)
  crash := fun _ w w' => w' = w
  env := fun w w' => w.finalized <:+ w'.finalized

end Endpoint

/-! ## The proof of non-inclusion -/

/-- Every transaction that hashes to the effect's is of its account and nonce. -/
def SignedEffectFacts.Signed (network : EvmNetwork) (effect : SignedEffectFacts) : Prop :=
  ∀ t, network.transactionHash t = effect.transactionHash →
    t.account = effect.account ∧ t.nonce = effect.nonce

def Includes (network : EvmNetwork) (c : List EvmBlock) (hash : RpcHex) : Prop :=
  ∃ t ∈ Chain.included c, network.transactionHash t = hash

/-- The effect is in no block at or below its era block, on any chain that holds the era block. -/
def SignedEffectFacts.PostdatesEra (network : EvmNetwork) (effect : SignedEffectFacts) : Prop :=
  ∀ era, effect.before = some era → ∀ c, LawfulChain c → ∀ d, d <:+ c →
    network.blockHash d = era.hash → ¬ Includes network d effect.transactionHash

/-- The effect is not in the finalized chain, nor in any later extension of it. -/
def NeverIncluded (network : EvmNetwork) (effect : SignedEffectFacts) (w : EvmWorld) : Prop :=
  ∀ c, LawfulChain c → w.finalized <:+ c → ¬ Includes network c effect.transactionHash

section Sound

open Discipline

namespace Finalized

variable {network : EvmNetwork} {effect : SignedEffectFacts} {node : EvmNode} {w : EvmWorld}
  {era : EraBlock} {probe : RpcHex}

theorem ownLookup_ok {value found : Option RpcTransaction} {hash : RpcHex}
    (h : ownLookup value hash = .ok found) : found = value := by
  unfold ownLookup at h
  cases value with
  | none => exact (Except.ok.inj h).symm
  | some r =>
    dsimp only at h
    split at h
    · cases h
    · exact (Except.ok.inj h).symm

theorem ownAnswer_ok {reads : FinalizedReads} {answer : NeverLandsAnswer}
    (h : ownAnswer effect reads = .ok answer) :
    answer = ⟨reads (.transactionCount effect.account),
      (reads (.transactionReceipt effect.transactionHash) : Option RpcTransaction).isSome,
      (reads (.transactionByHash effect.transactionHash) : Option RpcTransaction).isSome⟩ := by
  rcases bind_ok.mp h with ⟨receipt, hreceipt, hrest⟩
  rcases bind_ok.mp hrest with ⟨transaction, htransaction, hanswer⟩
  rw [← Except.ok.inj hanswer, ownLookup_ok hreceipt, ownLookup_ok htransaction]

-- A chain that includes the effect includes it at or below every block whose account nonce is past it.
theorem included_of_nonce_past (hsigned : effect.Signed network) {c d : List EvmBlock}
    (hlawful : LawfulChain c) (hd : d <:+ c)
    (hpast : effect.nonce < Chain.spent EvmTransaction.account effect.account (Chain.included d))
    (h : Includes network c effect.transactionHash) : Includes network d effect.transactionHash := by
  rcases h with ⟨t, ht, hhash⟩
  rcases hsigned t hhash with ⟨haccount, hnonce⟩
  refine ⟨t, ?_, hhash⟩
  apply (hlawful effect.account).mem_of_nonce_lt (Chain.included_suffix hd) ht haccount
  rw [hnonce]
  exact hpast

-- A node that answers the probe as included in the era block indexes every block above it.
theorem indexes_of_included {d : List EvmBlock} {hash : RpcHex} (hd : d <:+ node.view)
    (hfrom : node.indexFrom ≤ Chain.height d) {c : List EvmBlock} (hc : c <:+ node.view)
    (hbelow : ¬ Includes network d hash) (h : Includes network c hash) :
    ∃ d', node.Indexes network hash d' := by
  rcases h with ⟨t, ht, hhash⟩
  rcases Chain.exists_block ht with ⟨b, below, hsuffix, hmem⟩
  refine ⟨b :: below, hsuffix.trans hc, ?_, b, below, rfl, t, hmem, hhash⟩
  -- The block of the effect is above the era block, which does not hold it.
  have habove : ¬ (b :: below).length ≤ d.length := by
    intro hle
    have hin := Chain.suffix_of_length_le (hsuffix.trans hc) hd hle
    apply hbelow
    exact ⟨t, Chain.mem_included_of_suffix hin (by simp [hmem]), hhash⟩
  unfold Chain.height at hfrom ⊢
  omega

theorem unknown_iff {count : ℕ} {receipt transaction : Option RpcTransaction} :
    NeverLandsAnswer.unknown ⟨count, receipt.isSome, transaction.isSome⟩ effect = true ↔
      effect.nonce < count ∧ receipt = none ∧ transaction = none := by
  cases receipt <;> cases transaction <;> simp [NeverLandsAnswer.unknown]

theorem not_indexes_of_null {hash : RpcHex} {found : Option RpcTransaction}
    (h : node.Truthful network (.transactionByHash hash) found) (hnull : found = none) :
    ∀ d, ¬ node.Indexes network hash d := by
  rw [hnull] at h
  exact h

-- A lookup answered as included in the era block names a block of the node's view that its index covers.
theorem located_of_indexed {found : Option RpcTransaction}
    (h : node.Truthful network (.transactionByHash probe) found) (hindexed : indexed found era = true) :
    ∃ d, d <:+ node.view ∧ node.indexFrom ≤ Chain.height d ∧ network.blockHash d = era.hash := by
  cases found with
  | none => cases hindexed
  | some r =>
    unfold indexed at hindexed
    simp only [Bool.and_eq_true, decide_eq_true_eq] at hindexed
    have hlocated : node.Locates network probe r ∨ (node.pool probe ∧ r = ⟨probe, none, none⟩) := h
    rcases hlocated with ⟨d, hd, rfl⟩ | ⟨_, rfl⟩
    · exact ⟨d, hd.1, hd.2.1, Option.some.inj hindexed.1⟩
    · cases hindexed.1

-- The deciding answer: one node whose nonce is past, that knows nothing of the effect, and whose index holds
-- the era block.
theorem neverIncluded_of_answers (hsigned : effect.Signed network)
    (hpostdates : effect.PostdatesEra network) (hera : effect.before = some era) (hnode : node.On w)
    {reads : FinalizedReads}
    (htruthful : ∀ call ∈ ownReads effect ++ [.transactionByHash probe],
      node.Truthful network call (reads call))
    {last : NeverLandsAnswer} (hlast : ownAnswer effect reads = .ok last)
    (hunknown : NeverLandsAnswer.unknown last effect = true)
    (hindexed : indexed (reads (.transactionByHash probe)) era = true) :
    NeverIncluded network effect w := by
  have hcount : (reads (.transactionCount effect.account) : ℕ) =
      Chain.spent EvmTransaction.account effect.account (Chain.included node.finalized) :=
    htruthful (.transactionCount effect.account) (by simp [ownReads])
  have hlookup := htruthful (.transactionByHash effect.transactionHash) (by simp [ownReads])
  have hprobe := htruthful (.transactionByHash probe) (by simp)
  rw [ownAnswer_ok hlast] at hunknown
  rcases unknown_iff.mp hunknown with ⟨hcounted, _, hnull⟩
  have hpast := lt_of_lt_of_eq hcounted hcount
  rcases located_of_indexed hprobe hindexed with ⟨d, hd, hfrom, hhash⟩
  have hbelow := hpostdates era hera node.view hnode.lawful d hd hhash
  intro c hlawful hc hincludes
  have hfinalized : Includes network node.finalized effect.transactionHash :=
    included_of_nonce_past hsigned hlawful (hnode.finalized_world.trans hc) hpast hincludes
  rcases indexes_of_included hd hfrom hnode.finalized_view hbelow hfinalized with ⟨d', hd'⟩
  exact not_indexes_of_null hlookup hnull d' hd'

/-- The finalized chain only grows. -/
def finalityDiscipline : Discipline EvmWorld Unit :=
  ⟨fun _ => True, fun _ w w' => w.finalized <:+ w'.finalized⟩

theorem neverIncluded_stable :
    finalityDiscipline.Stable () (NeverIncluded network effect) := by
  intro w w' hgrows h c hlawful hc
  exact h c hlawful (hgrows.2.2.trans hc)

/-- What a batch is answered: one node's truth, at that moment. -/
def Answered (network : EvmNetwork) (calls : List FinalizedReadCall) (reads : FinalizedReads)
    (w : EvmWorld) : Prop :=
  ∃ node : EvmNode, node.On w ∧ ∀ call ∈ calls, node.Truthful network call (reads call)

abbrev Anywhere (_ : EvmWorld) : Prop := True

/-- A specification of a program of batches. -/
abbrev Proves {α : Type} (network : EvmNetwork) (x : FinalizedProg α) (Q : α → EvmWorld → Prop) : Prop :=
  finalityDiscipline.Spec (evmEndpoint network) () Anywhere x Q fun _ _ => True

theorem proves_batch {α : Type} {calls : List FinalizedReadCall} {f : FinalizedReads → FinalizedProg α}
    {Q : α → EvmWorld → Prop}
    (hf : ∀ reads, finalityDiscipline.Spec (evmEndpoint network) ()
      (Answered network calls reads) (f reads) Q fun _ _ => True) :
    Proves network ((batch calls).bind f) Q := by
  unfold batch
  apply Spec.bind (M := fun reads w => Answered network calls reads w)
  · apply Spec.op (M := fun answer w => ∀ reads, answer = .ok reads → Answered network calls reads w)
    · exact fun _ _ _ h => h
    · rintro w answer w' _ _ ⟨rfl, hanswer⟩
      exact ⟨⟨trivial, fun q hq => absurd rfl hq⟩, hanswer⟩
    · intro answer
      cases answer with
      | ok reads => exact Spec.ret fun _ _ h => h reads rfl
      | error e => exact Spec.fail fun _ _ _ => trivial
  · exact hf

theorem spec_liftRead {α β : Type} {P : EvmWorld → Prop} {r : Result α} {f : α → FinalizedProg β}
    {Q : β → EvmWorld → Prop}
    (hf : ∀ a, r = .ok a → finalityDiscipline.Spec (evmEndpoint network) () P (f a) Q fun _ _ => True) :
    finalityDiscipline.Spec (evmEndpoint network) () P ((Finalized.lift r).bind f) Q
      fun _ _ => True := by
  cases r with
  | ok a => exact hf a rfl
  | error e => exact Spec.fail fun _ _ _ => trivial

/-- What a proof promises of the world it was made in. -/
def Sound (network : EvmNetwork) (effect : SignedEffectFacts) (proof : NeverLandsProof) (w : EvmWorld) :
    Prop :=
  ∀ nonce, proof = .proven nonce → NeverIncluded network effect w

theorem sound_notProven {P : EvmWorld → Prop} {answer : NeverLandsAnswer} :
    finalityDiscipline.Spec (evmEndpoint network) () P
      (Prog.ret (.notProven answer) : FinalizedProg NeverLandsProof) (Sound network effect)
      fun _ _ => True :=
  Spec.ret fun _ _ _ _ h => by cases h

theorem proves_checkNeverLands (hsigned : effect.Signed network)
    (hpostdates : effect.PostdatesEra network) :
    Proves network (checkNeverLands effect) (Sound network effect) := by
  apply proves_batch
  intro reads
  apply spec_liftRead
  intro _ _
  apply spec_liftRead
  intro first _
  cases hera : effect.before with
  | none => exact sound_notProven
  | some era =>
    dsimp only
    split
    · exact sound_notProven
    · apply Spec.pre (N := Anywhere) _ fun _ _ _ => trivial
      apply proves_batch
      intro block
      apply spec_liftRead
      intro probe _
      cases probe with
      | none => exact sound_notProven
      | some probe =>
        apply Spec.pre (N := Anywhere) _ fun _ _ _ => trivial
        apply proves_batch
        intro deciding
        apply spec_liftRead
        intro last hlast
        apply spec_liftRead
        intro probed hprobed
        split
        · rename_i hproven
          rw [Bool.and_eq_true, ownLookup_ok hprobed] at hproven
          apply Spec.ret
          rintro w _ ⟨node, hnode, htruthful⟩ nonce _
          exact neverIncluded_of_answers hsigned hpostdates hera hnode htruthful hlast hproven.1
            hproven.2
        · exact sound_notProven

end Finalized

open Finalized

/-- **A never-lands proof is sound**: whichever nodes answer its batches, and whatever is finalized while it
runs, a proven effect is not in the finalized chain and in no later extension of it. -/
theorem never_lands_sound (hsigned : effect.Signed network) (hpostdates : effect.PostdatesEra network)
    {w w' : EvmWorld} {nonce : ℕ}
    (hends : System.Ends (evmEndpoint network) () (checkNeverLands effect) w
      (.ok (.proven nonce)) w') : NeverIncluded network effect w' := by
  have hspec := proves_checkNeverLands hsigned hpostdates
  have hkept := hspec.ends (fun _ _ h => ⟨trivial, h⟩) trivial trivial hends
  rcases hkept with ⟨w'', hsound, hgrown⟩
  exact neverIncluded_stable.star hgrown (hsound nonce rfl)

end Sound

/-! ## One proof -/

namespace NeverLandsRun

open System Finalized

def eraBlock : EvmBlock := ⟨0, [⟨"0xb0b", 0, "of the era"⟩], 0⟩

/-- Another transaction of the account spent the nonce. -/
def spender : EvmBlock := ⟨1, [⟨"0xa11ce", 0, "another"⟩], 0⟩

def network : EvmNetwork where
  chainId := 1
  transactionHash := fun t => if t = ⟨"0xa11ce", 0, "effect"⟩ then "0xeffect" else "0xother"
  blockHash := fun d => if d = [eraBlock] then "0xera" else "0xlater"

def effect : SignedEffectFacts := ⟨1, "0xa11ce", 0, "0xeffect", some ⟨"0xera", some 0⟩⟩

def world : EvmWorld := ⟨[spender, eraBlock]⟩

/-- A node that has everything. -/
def node : EvmNode := ⟨world.finalized, world.finalized, fun _ => False, fun _ => False, 0⟩

def reads : FinalizedReads
  | .chainId | .transactionCount _ => (1 : ℕ)
  | .transactionReceipt _ => (none : Option RpcTransaction)
  | .transactionByHash hash =>
    if hash = "0xeffect" then (none : Option RpcTransaction) else some ⟨hash, some "0xera", some 0⟩
  | .blockTransactionCountByHash _ | .blockTransactionCountByNumber _ => (some 1 : Option ℕ)
  | .transactionByBlockHashAndIndex _ _ | .transactionByBlockNumberAndIndex _ _ =>
    (some ⟨"0xother", some "0xera", some 0⟩ : Option RpcTransaction)

theorem lawful : LawfulChain world.finalized := by
  intro account
  refine ⟨?_, ?_, trivial⟩
  · rintro rfl
    decide
  · rintro rfl
    decide

theorem node_on : node.On world := ⟨lawful, List.suffix_refl _, List.suffix_refl _⟩

theorem not_indexes_effect (d : List EvmBlock) : ¬ node.Indexes network "0xeffect" d := by
  rintro ⟨hd, _, b, below, rfl, t, ht, hhash⟩
  have hin : t ∈ Chain.included world.finalized :=
    Chain.mem_included_of_suffix hd (by simp [ht])
  have hnone : ∀ t ∈ Chain.included world.finalized, network.transactionHash t ≠ "0xeffect" := by
    decide
  exact hnone t hin hhash

theorem locates_probe : node.Locates network "0xother" ⟨"0xother", some "0xera", some 0⟩ :=
  ⟨[eraBlock], ⟨⟨[spender], rfl⟩, le_refl _, eraBlock, [], rfl, _, List.mem_cons_self, rfl⟩, rfl⟩

theorem answered_own (call : FinalizedReadCall) (h : call ∈ .chainId :: ownReads effect) :
    node.Truthful network call (reads call) := by
  simp only [ownReads, List.mem_cons, List.not_mem_nil, or_false] at h
  rcases h with rfl | rfl | rfl | rfl
  · rfl
  · show 1 = Chain.spent EvmTransaction.account "0xa11ce" (Chain.included world.finalized)
    decide
  · exact not_indexes_effect
  · exact not_indexes_effect

theorem answered_era (call : FinalizedReadCall) (h : call ∈ eraReads ⟨"0xera", some 0⟩) :
    node.Truthful network call (reads call) := by
  simp only [eraReads, eraCount, eraFirst, List.mem_cons, List.not_mem_nil, or_false] at h
  rcases h with rfl | rfl
  · rfl
  · rfl

theorem answered_deciding (call : FinalizedReadCall)
    (h : call ∈ ownReads effect ++ [.transactionByHash "0xother"]) :
    node.Truthful network call (reads call) := by
  rcases List.mem_append.mp h with hown | hprobe
  · exact answered_own call (List.mem_cons_of_mem _ hown)
  · cases List.mem_singleton.mp hprobe
    exact Or.inl locates_probe

theorem ends_proven :
    Ends (evmEndpoint network) () (checkNeverLands effect) world (.ok (.proven 1)) world := by
  have hexec : ∀ calls, (∀ call ∈ calls, node.Truthful network call (reads call)) →
      (evmEndpoint network).exec () world calls (.ok reads) world := by
    intro calls hcalls
    refine ⟨rfl, ?_⟩
    intro reads' heq
    cases heq
    exact ⟨node, node_on, hcalls⟩
  apply Ends.op (hexec _ answered_own)
  apply Ends.op (hexec _ answered_era)
  apply Ends.op (hexec _ answered_deciding)
  exact Ends.ret _ _

theorem effect_signed : effect.Signed network := by
  intro t ht
  by_cases heq : t = ⟨"0xa11ce", 0, "effect"⟩
  · rw [heq]
    exact ⟨rfl, rfl⟩
  · have hother : network.transactionHash t = "0xother" := if_neg heq
    rw [hother] at ht
    exact absurd ht (by decide)

theorem effect_postdates : effect.PostdatesEra network := by
  rintro era hera _ _ d _ hhash
  cases hera
  by_cases heq : d = [eraBlock]
  · rw [heq]
    unfold Includes
    decide
  · have hlater : network.blockHash d = "0xlater" := if_neg heq
    rw [hlater] at hhash
    exact absurd hhash (by decide)

theorem never_lands_sound_of_spent :
    Ends (evmEndpoint network) () (checkNeverLands effect) world (.ok (.proven 1)) world ∧
      NeverIncluded network effect world :=
  ⟨ends_proven, never_lands_sound effect_signed effect_postdates ends_proven⟩

end NeverLandsRun
end PaymentNode
