import PaymentNode.Rail.Operation
import PaymentNode.Lib.Runs

/-!
# ChainPolicy — the direct rails' own daily principal cap

A chain policy caps what one account may send of one asset on a UTC day.  The cap is checked once, when an
approval reserves, against `chainUsage`: the principal of every operation without an outcome and of those
completed on the day.  An operation the owner abandoned has an outcome and is not completed, so the check
leaves it out although its transfer may have landed.

`Exposed` is what a day may still have to answer for.  Every transition lowers it or keeps it and an
admission adds its amount to what it was checked against (`exposure_step`), provided that nothing was
abandoned on the day of the check.  `AbandonedRun` is the run in which something was.
-/

namespace PaymentNode.ChainCap

structure ChainAccount where
  profileHash : String
  rail : ChainRail
  address : String
deriving DecidableEq, Repr

structure ChainPolicy where
  account : ChainAccount
  /-- The identifier of the policy's asset. -/
  asset : String
  maximumPerTransferAtomic : ℕ
  dailyLimitAtomic : ℕ
  maximumNativeFeeAtomic : ℕ
  policyHash : String
deriving DecidableEq, Repr

/-- The fee fields of a final evidence. -/
structure RailFeeProof where
  networkFeePayer : String
  actualNetworkFeeAtomic : ℕ
  actualRecipientRentAtomic : ℕ
deriving DecidableEq, Repr

/-- A rail operation: what was prepared, and its journal. -/
structure RailTransfer where
  operationId : String
  account : ChainAccount
  asset : String
  amountAtomic : ℕ
  maximumNativeDebitAtomic : ℕ
  rentPayer : Option String
  policyHash : String
  journal : RailOperationRecord
  evidence : Option RailFeeProof
deriving DecidableEq, Repr

namespace RailTransfer

def state (op : RailTransfer) : RailState := op.journal.state

def terminal (op : RailTransfer) : Bool := op.journal.terminal

def updatedAt (op : RailTransfer) : ℤ := op.journal.latest.at'

end RailTransfer

/-- The UTC day of an instant in milliseconds. -/
def dayOf (ms : ℤ) : ℤ := ms / dayMs

theorem dayOf_mono {a b : ℤ} (h : a ≤ b) : dayOf a ≤ dayOf b := by
  unfold dayOf dayMs
  omega

abbrev Operations := KeyedStore RailTransfer.operationId

def maxUint64 : ℕ := 18446744073709551615

def atomicPositive (value : ℕ) : Result ℕ :=
  if value = 0 ∨ maxUint64 < value then corrupt "The chain policy, asset or atomic value is invalid."
  else .ok value

def validateChainPolicy (policy : ChainPolicy) : Result Unit := do
  let maximum ← atomicPositive policy.maximumPerTransferAtomic
  let daily ← atomicPositive policy.dailyLimitAtomic
  if daily < maximum then corrupt "The chain policy, asset or atomic value is invalid."
  else do
    let _ ← atomicPositive policy.maximumNativeFeeAtomic
    .ok ()

/-- The operations a usage counts: those of the policy's profile and rail, but for one. -/
def counted (policy : ChainPolicy) (excluding : Option String) (op : RailTransfer) : Bool :=
  excluding ≠ some op.operationId && op.account.profileHash = policy.account.profileHash &&
    op.account.rail = policy.account.rail

def principalUsage (policy : ChainPolicy) (now : ℤ) (excluding : Option String) (op : RailTransfer) : ℕ :=
  if ¬ counted policy excluding op ∨ op.asset ≠ policy.asset then 0
  else if ¬ op.terminal then op.amountAtomic
  else if dayOf op.updatedAt = dayOf now ∧ op.state = .completed then op.amountAtomic
  else 0

/-- The fee and the rent of a final evidence that the account itself paid. -/
def nativeFeeOf (op : RailTransfer) : ℕ :=
  match op.evidence with
  | none => 0
  | some proof =>
    (if proof.networkFeePayer = op.account.address then proof.actualNetworkFeeAtomic else 0) +
      if op.rentPayer = some op.account.address then proof.actualRecipientRentAtomic else 0

def nativeFeeUsage (policy : ChainPolicy) (now : ℤ) (excluding : Option String) (op : RailTransfer) : ℕ :=
  if ¬ counted policy excluding op then 0
  else if ¬ op.terminal then op.maximumNativeDebitAtomic
  else if dayOf op.updatedAt = dayOf now then nativeFeeOf op
  else 0

structure ChainUsage where
  principalAtomic : ℕ
  nativeFeeAtomic : ℕ
deriving DecidableEq, Repr

/-- Nonterminal reservations remain charged even across a UTC-day boundary. -/
def chainUsage (policy : ChainPolicy) (operations : Operations) (now : ℤ) (excluding : Option String) :
    ChainUsage :=
  ⟨operations.total (principalUsage policy now excluding), operations.total (nativeFeeUsage policy now excluding)⟩

def assertChainPrincipal (policy : ChainPolicy) (amount : ℕ) (operations : Operations) (now : ℤ)
    (excluding : Option String) : Result Unit := do
  validateChainPolicy policy
  let value ← atomicPositive amount
  if policy.maximumPerTransferAtomic < value then
    blocked "The chain asset policy or spending limit does not authorize this transfer."
  else
    let usage := chainUsage policy operations now excluding
    if policy.dailyLimitAtomic < usage.principalAtomic + value then
      blocked "The chain asset policy or spending limit does not authorize this transfer."
    else .ok ()

/-- The stored policies, each under its own account and asset. -/
structure ChainPolicies where
  load : ChainAccount → String → Option ChainPolicy
  own : ∀ account asset policy, load account asset = some policy → policy.account = account ∧ policy.asset = asset

/-- The chain policy's part of `reserveUsage`. -/
def reservePrincipal (policies : ChainPolicies) (op : RailTransfer) (operations : Operations) (now : ℤ) :
    Result Unit :=
  match policies.load op.account op.asset with
  | none => .error ⟨.other, "This mainnet asset is denied until foreground policy admission."⟩
  | some policy =>
    if policy.policyHash ≠ op.policyHash then
      .error ⟨.profileDrift, "The chain policy changed after preparation."⟩
    else assertChainPrincipal policy op.amountAtomic operations now (some op.operationId)

/-- The operations of a profile, and a time no later call reads before. -/
structure RailSystem where
  clock : ℤ
  operations : Operations

inductive RailLabel
  | prepare (op : RailTransfer)
  /-- An approval: the cap is checked at one reading of the clock, the first transition is written at the next. -/
  | approve (operationId : String) (checkedAt : ℤ) (input : RailTransitionInput)
  /-- Any other transition, with the evidence's fees where it has one. -/
  | advance (operationId : String) (input : RailTransitionInput) (evidence : Option RailFeeProof)

/-- A new operation is frozen and waits for its approval. -/
def RailTransfer.isNew (op : RailTransfer) : Bool :=
  op.state = .awaitingApproval && op.journal.earlier = []

/-- The states an approval enters. -/
def entersSigning : RailState → Bool
  | .signingStarted | .submitting => true
  | _ => false

def stepRail (policies : ChainPolicies) (s : RailSystem) : RailLabel → Option RailSystem
  | .prepare op =>
    if op.isNew ∧ s.clock ≤ op.updatedAt ∧ s.operations.find? op.operationId = none then
      some ⟨op.updatedAt, s.operations.put op⟩
    else none
  | .approve operationId checkedAt input =>
    match s.operations.find? operationId with
    | none => none
    | some op =>
      if op.state = .awaitingApproval ∧ entersSigning input.state ∧ s.clock ≤ checkedAt ∧ checkedAt ≤ input.at' then
        match reservePrincipal policies op s.operations checkedAt, transitionRail op.journal input with
        | .ok _, .ok journal => some ⟨input.at', s.operations.put { op with journal := journal }⟩
        | _, _ => none
      else none
  | .advance operationId input evidence =>
    match s.operations.find? operationId with
    | none => none
    | some op =>
      if (op.state = .awaitingApproval → ¬ entersSigning input.state) ∧ s.clock ≤ input.at' then
        match transitionRail op.journal input with
        | .ok journal =>
          some ⟨input.at', s.operations.put { op with journal := journal, evidence := evidence }⟩
        | .error _ => none
      else none

abbrev RailRun (policies : ChainPolicies) : RailSystem → List RailLabel → RailSystem → Prop :=
  Runs.Run fun s label t => stepRail policies s label = some t

/-- The states of an operation that was sent and is not proven to be without effect. -/
def possiblySpent : RailState → Bool
  | .submitting | .submittedPending | .unknownFinality | .completed | .abandonedUnknown => true
  | .awaitingApproval | .signingStarted | .signedNotSubmitted | .failedBeforeEffect | .failedConfirmedRevert => false

/-- The principal of one account and asset that may have been spent, by the day of its last transition. -/
def spentOn (account : ChainAccount) (asset : String) (day : ℤ) (op : RailTransfer) : ℕ :=
  if op.account = account ∧ op.asset = asset ∧ possiblySpent op.state ∧ dayOf op.updatedAt = day then
    op.amountAtomic
  else 0

section Exposure

/-- What an operation may still have to answer for on a day: an admitted one without an outcome counts on
every day from its last transition on, one that completed or was abandoned on its own day. -/
def exposedOn (account : ChainAccount) (asset : String) (day : ℤ) (op : RailTransfer) : ℕ :=
  if op.account ≠ account ∨ op.asset ≠ asset ∨ op.state = .awaitingApproval then 0
  else if op.state = .completed ∨ op.state = .abandonedUnknown then
    if dayOf op.updatedAt = day then op.amountAtomic else 0
  else if op.terminal then 0
  else if dayOf op.updatedAt ≤ day then op.amountAtomic
  else 0

variable {policies : ChainPolicies} {account : ChainAccount} {asset : String} {policy : ChainPolicy} {day : ℤ}

theorem spentOn_le_exposedOn (op : RailTransfer) : spentOn account asset day op ≤ exposedOn account asset day op := by
  unfold spentOn exposedOn RailTransfer.terminal RailOperationRecord.terminal
  by_cases h : op.account = account ∧ op.asset = asset ∧ possiblySpent op.state ∧ dayOf op.updatedAt = day
  · rcases h with ⟨haccount, hasset, hspent, hday⟩
    change _ ≤ if _ then 0 else if _ then _ else if op.state.isTerminal then 0 else _
    revert hspent
    cases op.state <;> simp [possiblySpent, RailState.isTerminal, haccount, hasset, hday]
  · rw [if_neg h]
    exact Nat.zero_le _

-- What an operation adds to a day does not grow along an edge out of a state past its approval.
theorem exposedOn_transition {op next : RailTransfer} (haccount : next.account = op.account)
    (hasset : next.asset = op.asset) (hamount : next.amountAtomic = op.amountAtomic)
    (hedge : next.state ∈ op.state.edges) (hpast : op.state = .awaitingApproval → next.state = .failedBeforeEffect)
    (hlater : op.updatedAt ≤ next.updatedAt) :
    exposedOn account asset day next ≤ exposedOn account asset day op := by
  have hday := dayOf_mono hlater
  unfold exposedOn RailTransfer.terminal RailOperationRecord.terminal
  rw [haccount, hasset, hamount]
  change (if _ then 0 else if _ then _ else if next.state.isTerminal then 0 else _) ≤
    if _ then 0 else if _ then _ else if op.state.isTerminal then 0 else _
  by_cases hown : op.account = account ∧ op.asset = asset
  · revert hedge hpast
    cases op.state <;> cases next.state <;> simp [RailState.edges, RailState.isTerminal, hown]
    all_goals split <;> split <;> omega
  · have hother : ¬ op.account = account ∨ ¬ op.asset = asset := by
      by_contra hboth
      rw [not_or, not_not, not_not] at hboth
      exact hown hboth
    rw [if_pos (by tauto)]
    exact Nat.zero_le _

variable {op : RailTransfer}

-- An admitted operation that waited until now adds nothing to earlier days.
theorem exposedOn_entered (hentered : entersSigning op.state) :
    exposedOn account asset day op ≤ if dayOf op.updatedAt ≤ day then op.amountAtomic else 0 := by
  unfold exposedOn RailTransfer.terminal RailOperationRecord.terminal
  change (if _ then 0 else if _ then _ else if op.state.isTerminal then 0 else _) ≤ _
  revert hentered
  cases op.state <;> simp [entersSigning, RailState.isTerminal]
  all_goals split <;> simp

-- Every other operation a day from the check on is exposed to is in the usage of the check, unless it was
-- abandoned on that very day.
theorem exposedOn_le_usage {checkedAt : ℤ} {excluding : String}
    (hother : op.operationId ≠ excluding) (hday : dayOf checkedAt ≤ day) (hpast : op.updatedAt ≤ checkedAt)
    (hclear : op.account = policy.account → op.asset = policy.asset → op.state = .abandonedUnknown →
      dayOf op.updatedAt ≠ dayOf checkedAt) :
    exposedOn policy.account policy.asset day op ≤ principalUsage policy checkedAt (some excluding) op := by
  by_cases hown : op.account = policy.account ∧ op.asset = policy.asset
  · have hupdated := dayOf_mono hpast
    have hcounted : counted policy (some excluding) op = true := by
      have hne : ¬ some excluding = some op.operationId := fun h => hother (Option.some.inj h).symm
      simp [counted, hown.1, Ne.symm hother]
    have habandoned := hclear hown.1 hown.2
    unfold exposedOn principalUsage RailTransfer.terminal RailOperationRecord.terminal
    change (if _ then 0 else if _ then _ else if op.state.isTerminal then 0 else _) ≤
      if _ then 0 else if ¬ op.state.isTerminal then _ else _
    revert habandoned
    cases op.state <;> simp [RailState.isTerminal, hown, hcounted]
    all_goals try (split <;> omega)
    · -- completed: on a day from the check on, the day is that of the check
      by_cases hsame : dayOf op.updatedAt = day
      · rw [if_pos hsame, if_pos (by omega)]
      · rw [if_neg hsame]
        exact Nat.zero_le _
    · intro hnever hsame
      omega
  · have hnot : op.account ≠ policy.account ∨ op.asset ≠ policy.asset := by
      by_contra hboth
      rw [not_or, not_not, not_not] at hboth
      exact hown hboth
    unfold exposedOn
    rw [if_pos (by tauto)]
    exact Nat.zero_le _

end Exposure

section Cap

variable {policies : ChainPolicies} {account : ChainAccount} {asset : String} {policy : ChainPolicy}

/-- Another operation of the same account and asset that was abandoned on the day of a reading of the clock. -/
def abandonedBeside (op other : RailTransfer) (checkedAt : ℤ) : Bool :=
  other.account = op.account && other.asset = op.asset && other.state = .abandonedUnknown &&
    dayOf other.updatedAt = dayOf checkedAt

/-- Whether an approval is checked on a day on which nothing of its account and asset was abandoned. -/
def checksClearDay (s : RailSystem) : RailLabel → Bool
  | .approve operationId checkedAt _ =>
    (s.operations.find? operationId).all fun op =>
      s.operations.rows.all fun other => !abandonedBeside op other checkedAt
  | _ => true

/-- The steps of the runs in which every approval is checked on such a day. -/
def stepClear (policies : ChainPolicies) (s : RailSystem) (label : RailLabel) : Option RailSystem :=
  if checksClearDay s label then stepRail policies s label else none

/-- Nothing is dated ahead, and no day is exposed past the policy's limit. -/
structure Capped (policy : ChainPolicy) (s : RailSystem) : Prop where
  past : ∀ op ∈ s.operations.rows, op.updatedAt ≤ s.clock
  bounded : ∀ day, s.operations.total (exposedOn policy.account policy.asset day) ≤ policy.dailyLimitAtomic

theorem transitionRail_at {operation next : RailOperationRecord} {input : RailTransitionInput}
    (h : transitionRail operation input = .ok next) : next.latest.at' = input.at' := by
  unfold transitionRail at h
  rcases corrupt_guard.mp h with ⟨_, hnext⟩
  cases hnext
  rfl

theorem assertChainPrincipal_ok {amount : ℕ} {operations : Operations} {now : ℤ} {excluding : Option String}
    (h : assertChainPrincipal policy amount operations now excluding = .ok ()) :
    (chainUsage policy operations now excluding).principalAtomic + amount ≤ policy.dailyLimitAtomic := by
  rcases bind_ok.mp h with ⟨_, _, h⟩
  rcases bind_ok.mp h with ⟨value, hvalue, h⟩
  have hsame : value = amount := by
    rcases corrupt_guard.mp hvalue with ⟨_, hvalue⟩
    exact (Except.ok.inj hvalue).symm
  rw [hsame] at h
  rcases blocked_guard.mp h with ⟨_, h⟩
  rcases blocked_guard.mp h with ⟨hlimit, _⟩
  omega

-- Writing an operation keeps every operation dated behind the clock.
theorem past_put {operations : Operations} {clock at' : ℤ} (hpast : ∀ op ∈ operations.rows, op.updatedAt ≤ clock)
    (hlater : clock ≤ at') {op : RailTransfer} (hop : op.updatedAt = at') :
    ∀ other ∈ (operations.put op).rows, other.updatedAt ≤ at' := by
  intro other hother
  rcases KeyedStore.mem_put.mp hother with rfl | ⟨hrest, _⟩
  · omega
  · have := hpast other hrest
    omega

theorem capped_prepare {s : RailSystem} (h : Capped policy s) {op : RailTransfer} (hnew : op.isNew)
    (hlater : s.clock ≤ op.updatedAt) (hfresh : s.operations.find? op.operationId = none) :
    Capped policy ⟨op.updatedAt, s.operations.put op⟩ := by
  refine ⟨past_put h.past hlater rfl, fun day => ?_⟩
  have hput := KeyedStore.total_put_of_none (f := exposedOn policy.account policy.asset day) hfresh
  have hstate : op.state = .awaitingApproval := by
    simp only [RailTransfer.isNew, Bool.and_eq_true, decide_eq_true_eq] at hnew
    exact hnew.1
  have hzero : exposedOn policy.account policy.asset day op = 0 := by simp [exposedOn, hstate]
  have hbound := h.bounded day
  change (s.operations.put op).total _ ≤ _
  omega

theorem capped_advance {s : RailSystem} (h : Capped policy s) {operationId : String} {op next : RailTransfer}
    (hfind : s.operations.find? operationId = some op) (hid : next.operationId = op.operationId)
    (haccount : next.account = op.account) (hasset : next.asset = op.asset)
    (hamount : next.amountAtomic = op.amountAtomic) (hedge : next.state ∈ op.state.edges)
    (hpast : op.state = .awaitingApproval → next.state = .failedBeforeEffect) (hlater : s.clock ≤ next.updatedAt) :
    Capped policy ⟨next.updatedAt, s.operations.put next⟩ := by
  refine ⟨past_put h.past hlater rfl, fun day => ?_⟩
  have hkey := KeyedStore.key_of_find? hfind
  have hfound : s.operations.find? next.operationId = some op := by rw [hid, hkey, hfind]
  have hput := KeyedStore.total_put_of_some (f := exposedOn policy.account policy.asset day) hfound
  have hdated := h.past op (KeyedStore.mem_of_find? hfind)
  have hle : exposedOn policy.account policy.asset day next ≤ exposedOn policy.account policy.asset day op :=
    exposedOn_transition haccount hasset hamount hedge hpast (by omega)
  have hbound := h.bounded day
  change (s.operations.put next).total _ ≤ _
  omega

-- An admission is checked against all that later days are exposed to, and earlier days do not see it.
theorem capped_approve {s : RailSystem} (h : Capped policy s) {operationId : String} {op next : RailTransfer}
    {checkedAt : ℤ} (hfind : s.operations.find? operationId = some op) (hid : next.operationId = op.operationId)
    (haccount : next.account = op.account) (hasset : next.asset = op.asset)
    (hamount : next.amountAtomic = op.amountAtomic) (hwaiting : op.state = .awaitingApproval)
    (hentered : entersSigning next.state) (hclock : s.clock ≤ checkedAt) (hlater : checkedAt ≤ next.updatedAt)
    (hclear : ∀ other ∈ s.operations.rows, other.account = op.account → other.asset = op.asset →
      other.state = .abandonedUnknown → dayOf other.updatedAt ≠ dayOf checkedAt)
    (hcheck : op.account = policy.account → op.asset = policy.asset →
      assertChainPrincipal policy op.amountAtomic s.operations checkedAt (some op.operationId) = .ok ()) :
    Capped policy ⟨next.updatedAt, s.operations.put next⟩ := by
  refine ⟨past_put h.past (le_trans hclock hlater) rfl, fun day => ?_⟩
  have hkey := KeyedStore.key_of_find? hfind
  have hfound : s.operations.find? next.operationId = some op := by rw [hid, hkey, hfind]
  have hput := KeyedStore.total_put_of_some (f := exposedOn policy.account policy.asset day) hfound
  have hbefore : exposedOn policy.account policy.asset day op = 0 := by simp [exposedOn, hwaiting]
  have hnext : exposedOn policy.account policy.asset day next ≤ _ := exposedOn_entered hentered
  have hbound := h.bounded day
  change (s.operations.put next).total _ ≤ _
  by_cases hown : op.account = policy.account ∧ op.asset = policy.asset
  · by_cases hday : dayOf next.updatedAt ≤ day
    · have hchecked := assertChainPrincipal_ok (hcheck hown.1 hown.2)
      have hfrom : dayOf checkedAt ≤ day := le_trans (dayOf_mono hlater) hday
      have husage : s.operations.total (exposedOn policy.account policy.asset day) ≤
          (chainUsage policy s.operations checkedAt (some op.operationId)).principalAtomic := by
        apply KeyedStore.total_mono
        intro other hother
        by_cases hsame : other.operationId = op.operationId
        · have hthis : other = op := by
            have := KeyedStore.find?_of_mem hother
            rw [hsame, hkey, hfind] at this
            exact (Option.some.inj this).symm
          rw [hthis, hbefore]
          exact Nat.zero_le _
        · have hdated := h.past other hother
          apply exposedOn_le_usage hsame hfrom (by omega)
          intro hacc hass
          exact hclear other hother (hacc.trans hown.1.symm) (hass.trans hown.2.symm)
      rw [if_pos hday] at hnext
      omega
    · rw [if_neg hday] at hnext
      omega
  · -- an operation of another account or asset is no exposure of this policy's
    have hother : exposedOn policy.account policy.asset day next = 0 := by
      unfold exposedOn
      rw [if_pos]
      rw [haccount, hasset]
      tauto
    omega

theorem capped_step (hpolicy : policies.load account asset = some policy) {s t : RailSystem} {label : RailLabel}
    (h : Capped policy s) (hstep : stepClear policies s label = some t) : Capped policy t := by
  have hown := policies.own account asset policy hpolicy
  rw [stepClear, Option.ite_none_right_eq_some] at hstep
  rcases hstep with ⟨hclear, hstep⟩
  cases label with
  | prepare op =>
    simp only [stepRail, Option.ite_none_right_eq_some, Option.some.injEq] at hstep
    rcases hstep with ⟨⟨hnew, hlater, hfresh⟩, rfl⟩
    exact capped_prepare h hnew hlater hfresh
  | approve operationId checkedAt input =>
    simp only [stepRail] at hstep
    cases hfind : s.operations.find? operationId with
    | none => simp [hfind] at hstep
    | some op =>
      simp only [hfind, Option.ite_none_right_eq_some] at hstep
      rcases hstep with ⟨⟨hwaiting, hentered, hclock, hlater⟩, hstep⟩
      cases hreserve : reservePrincipal policies op s.operations checkedAt with
      | error e => simp [hreserve] at hstep
      | ok _ =>
        cases hmove : transitionRail op.journal input with
        | error e => simp [hreserve, hmove] at hstep
        | ok journal =>
          simp only [hreserve, hmove, Option.some.injEq] at hstep
          subst hstep
          have hat := transitionRail_at hmove
          have hstate : journal.state = input.state := (transitionRail_ok hmove).1
          rw [← hat]
          let next : RailTransfer := { op with journal := journal }
          have hid : next.operationId = op.operationId := rfl
          refine capped_approve h hfind hid rfl rfl rfl hwaiting ?_ hclock ?_ ?_ ?_
          · change entersSigning journal.state
            rw [hstate]
            exact hentered
          · change checkedAt ≤ journal.latest.at'
            rw [hat]
            exact hlater
          · intro other hother haccount hasset habandoned hday
            simp only [checksClearDay, hfind, Option.all_some, List.all_eq_true, Bool.not_eq_true'] at hclear
            have := hclear other hother
            simp [abandonedBeside, haccount, hasset, habandoned, hday] at this
          · intro haccount hasset
            unfold reservePrincipal at hreserve
            rw [haccount, hasset, hown.1, hown.2, hpolicy] at hreserve
            dsimp only at hreserve
            split at hreserve
            · cases hreserve
            · exact hreserve
  | advance operationId input evidence =>
    simp only [stepRail] at hstep
    cases hfind : s.operations.find? operationId with
    | none => simp [hfind] at hstep
    | some op =>
      simp only [hfind, Option.ite_none_right_eq_some] at hstep
      rcases hstep with ⟨⟨hwaiting, hlater⟩, hstep⟩
      cases hmove : transitionRail op.journal input with
      | error e => simp [hmove] at hstep
      | ok journal =>
        simp only [hmove, Option.some.injEq] at hstep
        subst hstep
        have hat := transitionRail_at hmove
        rcases transitionRail_ok hmove with ⟨hstate, _, hedge⟩
        rw [← hat]
        let next : RailTransfer := { op with journal := journal, evidence := evidence }
        have hid : next.operationId = op.operationId := rfl
        refine capped_advance h hfind hid rfl rfl rfl hedge ?_ ?_
        · intro hawaiting
          have hnot := hwaiting hawaiting
          rw [← hstate] at hnot
          change journal.state = _
          change journal.state ∈ RailState.edges op.state at hedge
          rw [hawaiting] at hedge
          revert hedge hnot
          cases journal.state <;> simp [RailState.edges, entersSigning]
        · change s.clock ≤ journal.latest.at'
          rw [hat]
          exact hlater

/-- In every run whose approvals are checked on days on which nothing of their account and asset was
abandoned, no UTC day's possibly spent principal passes the limit. -/
theorem spent_day_le_dailyLimit (hpolicy : policies.load account asset = some policy) {clock : ℤ}
    {labels : List RailLabel} {s : RailSystem}
    (hrun : Runs.Run (fun s label t => stepClear policies s label = some t) ⟨clock, KeyedStore.empty⟩ labels s)
    (day : ℤ) : s.operations.total (spentOn account asset day) ≤ policy.dailyLimitAtomic := by
  have hcapped : Capped policy s := by
    apply hrun.invariant
    · exact ⟨by simp [KeyedStore.empty], by simp⟩
    · intro s label t h hstep
      exact capped_step hpolicy h hstep
  have hown := policies.own account asset policy hpolicy
  calc s.operations.total (spentOn account asset day)
      ≤ s.operations.total (exposedOn account asset day) :=
        KeyedStore.total_mono fun op _ => spentOn_le_exposedOn op
    _ = s.operations.total (exposedOn policy.account policy.asset day) := by rw [hown.1, hown.2]
    _ ≤ policy.dailyLimitAtomic := hcapped.bounded day

end Cap

/-! ## An abandoned transfer and a second one on its day -/

namespace AbandonedRun

def account : ChainAccount := ⟨"profile", .tron, "TOwner"⟩

/-- Ten units a day, all of them at once if the owner likes. -/
def policy : ChainPolicy := ⟨account, "native:trx", 10, 10, 5, "policy"⟩

def policies : ChainPolicies where
  load := fun a asset => if a = account ∧ asset = "native:trx" then some policy else none
  own := by
    intro a asset p h
    rw [Option.ite_none_right_eq_some] at h
    rcases h with ⟨⟨rfl, rfl⟩, hp⟩
    cases hp
    exact ⟨rfl, rfl⟩

/-- A transfer of the whole limit, prepared at an instant. -/
def transfer (operationId : String) (preparedAt : ℤ) : RailTransfer where
  operationId := operationId
  account := account
  asset := "native:trx"
  amountAtomic := 10
  maximumNativeDebitAtomic := 2
  rentPayer := none
  policyHash := "policy"
  journal := ⟨.tron, .local', some "allowlist", none, none,
    ⟨.awaitingApproval, preparedAt, "prepared_and_frozen", none, none, none⟩, []⟩
  evidence := none

def started (at' : ℤ) : RailTransitionInput :=
  ⟨.signingStarted, at', "foreground_signing_started", none, none, none, none, some "lease"⟩

def moved (state : RailState) (at' : ℤ) : RailTransitionInput :=
  ⟨state, at', "moved", some "transaction", some "payload", none, none, none⟩

/-- One transfer, approved and sent; its outcome stays unknown and the owner abandons it. -/
def first : List RailLabel :=
  [.prepare (transfer "a" 0), .approve "a" 10000 (started 10000), .advance "a" (moved .signedNotSubmitted 11000) none,
    .advance "a" (moved .submitting 12000) none, .advance "a" (moved .unknownFinality 13000) none,
    .advance "a" (moved .abandonedUnknown 1200000) none]

/-- A second transfer of the whole limit, approved and sent on the same day. -/
def second : List RailLabel :=
  [.prepare (transfer "b" 1300000), .approve "b" 1310000 (started 1310000),
    .advance "b" (moved .signedNotSubmitted 1311000) none, .advance "b" (moved .submitting 1312000) none]

def start : RailSystem := ⟨0, KeyedStore.empty⟩

theorem both_spent : (Runs.play (stepRail policies) start (first ++ second)).map
    (fun s => s.operations.total (spentOn account "native:trx" 0)) = some 20 := by
  decide +kernel

theorem first_spent : (Runs.play (stepClear policies) start first).map
    (fun s => s.operations.total (spentOn account "native:trx" 0)) = some 10 := by
  decide +kernel

theorem policy_loaded : policies.load account "native:trx" = some policy := by
  decide

/-- The cap fails on the day of an abandonment: twice the limit is sent. -/
theorem spent_day_exceeds_dailyLimit :
    ¬ ∀ (policies : ChainPolicies) (account : ChainAccount) (asset : String) (policy : ChainPolicy)
      (labels : List RailLabel) (s : RailSystem), policies.load account asset = some policy →
      RailRun policies ⟨0, KeyedStore.empty⟩ labels s →
      ∀ day, s.operations.total (spentOn account asset day) ≤ policy.dailyLimitAtomic := by
  intro h
  rcases Option.map_eq_some_iff.mp both_spent with ⟨s, hplay, htotal⟩
  have hle := h policies account "native:trx" policy _ s policy_loaded (Runs.run_of_play hplay) 0
  rw [htotal] at hle
  exact absurd hle (by decide)

theorem spent_day_le_dailyLimit_first :
    ∃ s, Runs.play (stepClear policies) start first = some s ∧
      s.operations.total (spentOn account "native:trx" 0) = 10 ∧
      s.operations.total (spentOn account "native:trx" 0) ≤ policy.dailyLimitAtomic := by
  rcases Option.map_eq_some_iff.mp first_spent with ⟨s, hplay, htotal⟩
  exact ⟨s, hplay, htotal, spent_day_le_dailyLimit policy_loaded (Runs.run_of_play hplay) 0⟩

end AbandonedRun
end PaymentNode.ChainCap
