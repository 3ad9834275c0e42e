import PaymentNode.Policy.Inventory

/-!
# Overlay — what an owner writes and what of it is accepted

An overlay is the owner's list of admission rows under one profile, with a window and one account per
chain family.  `validateAllowlistAdmission` checks one row by itself; `overlayInput` checks the list:
every row resolves, no identity is admitted twice on one rail, and the accounts are those of exactly the
families that occur.
-/

namespace PaymentNode.Allowlist

section Text

def isLowerAlnum (c : Char) : Bool := ('a' ≤ c ∧ c ≤ 'z') ∨ c.isDigit

/-- `/^[a-z0-9][a-z0-9._-]{0,63}$/` -/
def isVersionName (s : String) : Bool :=
  match s.toList with
  | [] => false
  | c :: rest => isLowerAlnum c && rest.length ≤ 63 && rest.all fun d => isLowerAlnum d || "._-".toList.contains d

/-- `/^[A-Za-z0-9][A-Za-z0-9._:/@+-]{0,255}$/` -/
def isPin (s : String) : Bool :=
  match s.toList with
  | [] => false
  | c :: rest => c.isAlphanum && rest.length ≤ 255 && rest.all fun d => d.isAlphanum || "._:/@+-".toList.contains d

end Text

def isRecipientPinRail : AssetPolicyRail → Bool
  | .direct | .x402 | .bridge => true
  | .gasless | .swap => false

def zeroAddress : AssetPolicyChainFamily → String
  | .evm => zeroEvmAddress
  | .solana => "11111111111111111111111111111111"
  | .tron => "T9yD14Nj9j7xAB4dbGeiX9h8unkKHxuWwb"

/-- `/^0x[0-9a-fA-F]{40}$/` -/
def isEvmAddressText (s : String) : Bool :=
  match s.toList with
  | '0' :: 'x' :: rest =>
    rest.length = 40 && rest.all fun c => c.isDigit || ('a' ≤ c && c ≤ 'f') || ('A' ≤ c && c ≤ 'F')
  | _ => false

section

variable (libs : PolicyLibraries)

/-- The canonical spelling of one address and its family. -/
def canonicalRecipient (value : String) : Option (AssetPolicyChainFamily × String) :=
  let found (family : AssetPolicyChainFamily) (address : String) :=
    if address = zeroAddress family then none else some (family, address)
  if isEvmAddressText value then (libs.getAddress value).bind (found .evm)
  else
    match libs.tronAddress value with
    | some address => found .tron address
    | none => (libs.solanaAddress value).bind (found .solana)

/-- One owner-written pin list: 1 to 16 unique canonical non-zero addresses, of `family` where it is given. -/
def recipientPinList (value : List String) (family : Option AssetPolicyChainFamily) :
    Bool :=
  1 ≤ value.length && value.length ≤ 16 && value.Nodup &&
    value.all fun entry =>
      match canonicalRecipient libs entry with
      | none => false
      | some (found, address) => address = entry && family.all (found = ·)

def positiveAtomic (value : Option ℕ) : Result ℕ :=
  match value with
  | none => invalid "Atomic caps must be positive canonical uint256 values."
  | some amount =>
    if amount = 0 ∨ maxUint256 < amount then invalid "Atomic caps must be positive canonical uint256 values."
    else .ok amount

def mechanismPin (value : AllowlistAdmissionMechanismPin) : Result Mechanism :=
  match value with
  | .swap _ => invalid "Pinned mechanism metadata is invalid."
  | .pin pin =>
    if ¬ (isPin pin.provider ∧ isPin pin.reference) then invalid "Pinned mechanism metadata is invalid."
    else .ok pin

def swapMechanismPin (value : AllowlistAdmissionMechanismPin) :
    Result SwapAdmissionMechanism :=
  match value with
  | .pin _ => invalid "Pinned swap mechanism metadata is invalid."
  | .swap m =>
    if ¬ libs.validateSwapAdmissionMechanism m then invalid "Pinned swap mechanism metadata is invalid."
    else .ok m

def recipientPins (value : List String) (family : Option AssetPolicyChainFamily) :
    Result (List String) :=
  if ¬ recipientPinList libs value family then
    invalid "Recipients must be 1 to 16 unique canonical non-zero addresses of the admission's family."
  else .ok value

def maximumMechanismCap (alternatives : List BridgeAlternative) : ℕ :=
  alternatives.foldl (fun maximum option => max maximum option.maximumPerTransferAtomic) 0

/-- A checked optional field keeps its presence. -/
def checkOptional {α β : Type} (check : α → Result β) : Option α → Result (Option β)
  | none => .ok none
  | some value => (check value).map some

def bridgeAlternative (item : BridgeAlternative) : Result BridgeAlternative := do
  let pin ← mechanismPin (.pin item.toMechanism)
  let maximum ← positiveAtomic (some item.maximumPerTransferAtomic)
  let recipients ← checkOptional (recipientPins libs · none) item.recipients
  .ok ⟨⟨pin, maximum⟩, recipients⟩

def AdmissionMechanisms.count : AdmissionMechanisms → ℕ
  | .bridge alternatives => alternatives.length
  | .swap routes => routes.length

section

variable (value : AllowlistPolicyAdmissionInput)

def bridgeAlternatives
    (mechanisms : AdmissionMechanisms) : Result (List BridgeAlternative) :=
  if value.rail ≠ .bridge ∨ value.mechanism.isSome ∨ value.maximumPerTransferAtomic.isSome ∨
      mechanisms.count < 2 ∨ 16 < mechanisms.count then
    invalid "Bridge alternatives require two to sixteen exact pins and no legacy cap or pin."
  else
    match mechanisms with
    | .swap _ => invalid "Bridge mechanism alternative is invalid."
    | .bridge alternatives => do
      let checked ← alternatives.mapM (bridgeAlternative libs)
      if ¬ (checked.map (·.toMechanism)).Nodup then
        invalid "Bridge mechanism alternatives contain a duplicate pin."
      else .ok checked

/-- Swap rows may admit several routes under the row's own caps. -/
def swapAlternatives
    (mechanisms : AdmissionMechanisms) : Result AllowlistPolicyAdmissionInput :=
  if value.mechanism.isSome ∨ mechanisms.count < 2 ∨ 16 < mechanisms.count then
    invalid "Swap alternatives require two to sixteen admitted routes and no single pin."
  else
    match mechanisms with
    | .bridge _ => invalid "Pinned swap mechanism metadata is invalid."
    | .swap routes => do
      let mechanisms ← routes.mapM fun item => swapMechanismPin libs (.swap item)
      if ¬ (mechanisms.map libs.swapRouteDigest).Nodup then
        invalid "Swap alternatives contain a duplicate route."
      else
        let maximum ← positiveAtomic value.maximumPerTransferAtomic
        let daily ← positiveAtomic (some value.dailyLimitAtomic)
        if daily < maximum then invalid "Per-transfer cap cannot exceed daily cap."
        else if value.recipient.isSome then
          invalid "Recipient pins are available only for Ethereum/Base local or Base Coinbase gasless admissions."
        else if value.recipients.isSome then
          invalid "Recipient lists apply to direct, x402 and bridge admissions."
        else .ok { value with
          rail := .swap
          maximumPerTransferAtomic := some maximum
          dailyLimitAtomic := daily
          mechanism := none
          recipient := none
          recipients := none
          mechanisms := some (.swap mechanisms) }

/-- The provider of a pin that has one. -/
def AllowlistAdmissionMechanismPin.provider? : AllowlistAdmissionMechanismPin → Option String
  | .pin m => some m.provider
  | .swap _ => none

def coinbaseAgenticWallet : String := "coinbase-agentic-wallet"

/-- The gasless rail's one recipient. -/
def gaslessRecipient
    (mechanism : Option AllowlistAdmissionMechanismPin) (recipient : String) : Result String :=
  let provider := mechanism.bind AllowlistAdmissionMechanismPin.provider?
  if value.rail ≠ .gasless ∨ (value.chain ≠ "eip155:1" ∧ value.chain ≠ "eip155:8453") ∨
      ¬ (provider = some "local" ∨ (value.chain = "eip155:8453" ∧ provider = some coinbaseAgenticWallet)) then
    invalid "Recipient pins are available only for Ethereum/Base local or Base Coinbase gasless admissions."
  else if libs.getAddress recipient ≠ some recipient ∨ recipient = zeroEvmAddress then
    invalid "Gasless recipient must be one canonical nonzero EVM address."
  else .ok recipient

/-- The pin of a row, which the rail's own codec reads. -/
def railMechanism :
    Result (Option AllowlistAdmissionMechanismPin) :=
  match value.mechanism, value.rail with
  | none, _ => .ok none
  | some m, .swap => (swapMechanismPin libs m).map fun swap => some (.swap swap)
  | some m, _ => (mechanismPin m).map fun pin => some (.pin pin)

/-- The cap of a row, or the largest of its alternatives. -/
def railMaximum : Option (List BridgeAlternative) → Result ℕ
  | none => positiveAtomic value.maximumPerTransferAtomic
  | some mechanisms => .ok (maximumMechanismCap mechanisms)

/-- One owner-supplied admission row: exact identity, one rail, positive owner caps and the rail's pin. -/
def validateAllowlistAdmission :
    Result AllowlistPolicyAdmissionInput :=
  match value.rail, value.mechanisms with
  | .swap, some alternatives => swapAlternatives libs value alternatives
  | _, alternatives => do
    let mechanisms ← checkOptional (bridgeAlternatives libs value) alternatives
    let maximum ← railMaximum value mechanisms
    let daily ← positiveAtomic (some value.dailyLimitAtomic)
    if daily < maximum then invalid "Per-transfer cap cannot exceed daily cap."
    else
      let mechanism ← railMechanism libs value
      if value.rail ≠ .direct ∧ mechanism.isNone ∧ mechanisms.isNone then
        invalid "The selected rail requires a nonempty pinned provider mechanism."
      else if value.rail = .direct ∧ mechanism.isSome then
        invalid "Direct admission does not accept provider mechanism metadata."
      else
        let recipient ← checkOptional (gaslessRecipient libs value mechanism) value.recipient
        if value.rail = .gasless ∧ mechanism.bind (·.provider?) = some coinbaseAgenticWallet ∧
            (value.chain ≠ "eip155:8453" ∨ recipient.isNone) then
          invalid "Coinbase gasless admission requires Base and one exact recipient."
        else if value.recipients.isSome ∧ (¬ isRecipientPinRail value.rail ∨ mechanisms.isSome) then
          invalid "Recipient lists apply to direct, x402 and single-pin bridge admissions; put bridge alternative pins on each mechanism."
        else
          let family := if value.rail = .bridge then none else policyChainFamily value.chain
          let recipients ← checkOptional (recipientPins libs · family) value.recipients
          .ok { value with
            maximumPerTransferAtomic := if mechanisms.isNone then some maximum else none
            dailyLimitAtomic := daily
            mechanism := mechanism
            recipient := recipient
            recipients := recipients
            mechanisms := mechanisms.map .bridge }

end

/-- The owner's overlay, as the policy file and the profile give it. -/
structure AllowlistPolicyOverlayV2Input where
  overlayVersion : String
  profile : String
  accounts : AssetPolicyChainFamily → Option String
  datasetVersion : String
  datasetSha256 : String
  inventorySha256 : String
  effectiveAt : Instant
  expiresAt : Option Instant
  admissions : List AllowlistPolicyAdmissionInput

def canonicalAllowlistAccount (family : AssetPolicyChainFamily) (value : String) :
    Result String :=
  let account := match family with
    | .evm => if libs.getAddress value = some value ∧ value ≠ zeroEvmAddress then some value else none
    | .solana => libs.solanaAddress value
    | .tron => if libs.tronAddress value = some value then some value else none
  match account with
  | none => invalid "Owner account is not canonical for the selected family."
  | some account => .ok account

def chainFamilies : List AssetPolicyChainFamily := [.evm, .solana, .tron]

/-- The networks the swap mechanisms of a row are for; a pin of another shape has none. -/
def swapMechanismChains (row : AllowlistPolicyAdmissionInput) : List (Option String) :=
  match row.mechanism, row.mechanisms with
  | some (.swap m), _ => [some m.chain]
  | some (.pin _), _ => [none]
  | none, some (.swap routes) => routes.map fun route => some route.chain
  | none, some (.bridge alternatives) => alternatives.map fun _ => none
  | none, none => []

abbrev AdmissionIdentity := String × Asset × AssetPolicyRail

/-- The families that occur in rows which resolve, admit nothing twice and swap on their own network. -/
def admittedFamilies (libs : PolicyLibraries) (inventory : AllowlistInventory) :
    List AllowlistPolicyAdmissionInput → List AdmissionIdentity → Result (List AssetPolicyChainFamily)
  | [], _ => .ok []
  | row :: rest, identities => do
    let asset ← resolveDirectPolicyAsset libs row inventory
    if (asset.chain, asset.asset, row.rail) ∈ identities then
      invalid "Allowlist policy contains a duplicate admission row."
    else if row.rail = .swap ∧ (swapMechanismChains row = [] ∨
        ∃ chain ∈ swapMechanismChains row, chain ≠ some asset.chain) then
      invalid "A swap admission must pin a swap mechanism for its exact network."
    else
      let families ← admittedFamilies libs inventory rest ((asset.chain, asset.asset, row.rail) :: identities)
      .ok (asset.family :: families)

def checkAccounts (libs : PolicyLibraries) (accounts : AssetPolicyChainFamily → Option String) :
    List AssetPolicyChainFamily → Result Unit
  | [] => .ok ()
  | family :: rest =>
    match accounts family with
    | none => invalid "Owner account is not canonical for the selected family."
    | some account => do
      let _ ← canonicalAllowlistAccount libs family account
      checkAccounts libs accounts rest

def overlayInput (value : AllowlistPolicyOverlayV2Input)
    (inventory : AllowlistInventory) : Result AllowlistPolicyOverlayV2Input :=
  if ¬ isVersionName value.overlayVersion ∨ value.datasetVersion ≠ inventory.version ∨
      value.datasetSha256 ≠ inventory.sha256 ∨ value.inventorySha256 ≠ inventory.inventorySha256 ∨
      (value.expiresAt.any fun expiresAt => expiresAt ≤ value.effectiveAt) ∨
      value.admissions = [] ∨ 256 < value.admissions.length then
    invalid "Allowlist policy overlay metadata is invalid."
  else if ¬ isVersionName value.profile then invalid "Allowlist policy profile is invalid."
  else do
    let admissions ← value.admissions.mapM (validateAllowlistAdmission libs)
    let families ← admittedFamilies libs inventory admissions []
    let used := chainFamilies.filter fun family => family ∈ families
    if ∃ family ∈ chainFamilies, ¬ ((value.accounts family).isSome ↔ family ∈ used) then
      invalid "Owner accounts must name exactly one account for each admitted family."
    else
      checkAccounts libs value.accounts used
      .ok { value with admissions := admissions }

end

section Accepted

variable {libs : PolicyLibraries}

/-- What one accepted row says of itself. -/
structure SoundAdmission (row : AllowlistPolicyAdmissionInput) : Prop where
  capped : row.mechanisms.all (fun m => m matches .swap _) → ∃ maximum, row.maximumPerTransferAtomic = some maximum ∧
    0 < maximum ∧ maximum ≤ maxUint256 ∧ maximum ≤ row.dailyLimitAtomic
  bridged : ∀ alternatives, row.mechanisms = some (.bridge alternatives) → row.rail = .bridge ∧
    row.mechanism = none ∧ row.maximumPerTransferAtomic = none ∧ row.recipients = none ∧
    (alternatives.map (·.toMechanism)).Nodup ∧ ∀ option ∈ alternatives,
      0 < option.maximumPerTransferAtomic ∧ option.maximumPerTransferAtomic ≤ maxUint256
  routed : ∀ routes, row.mechanisms = some (.swap routes) → row.rail = .swap ∧ row.mechanism = none
  received : row.recipient.isSome → row.rail = .gasless
  pinned : row.recipients.isSome → isRecipientPinRail row.rail
  unpinned : row.rail = .direct → row.mechanism = none
  daily : row.dailyLimitAtomic ≤ maxUint256

theorem positiveAtomic_ok {value : Option ℕ} {amount : ℕ} (h : positiveAtomic value = .ok amount) :
    value = some amount ∧ 0 < amount ∧ amount ≤ maxUint256 := by
  cases value with
  | none => simp [positiveAtomic] at h
  | some a =>
    rcases invalid_guard.mp h with ⟨hbounds, ha⟩
    cases ha
    exact ⟨rfl, by omega, by omega⟩

theorem mechanismPin_ok {value : AllowlistAdmissionMechanismPin} {pin : Mechanism}
    (h : mechanismPin value = .ok pin) : value = .pin pin := by
  cases value with
  | swap m => simp [mechanismPin] at h
  | pin p =>
    rcases invalid_guard.mp h with ⟨_, hp⟩
    cases hp
    rfl

theorem swapMechanismPin_ok {value : AllowlistAdmissionMechanismPin} {m : SwapAdmissionMechanism}
    (h : swapMechanismPin libs value = .ok m) : value = .swap m := by
  cases value with
  | pin p => simp [swapMechanismPin] at h
  | swap s =>
    rcases invalid_guard.mp h with ⟨_, hs⟩
    cases hs
    rfl

theorem recipientPins_ok {value checked : List String} {family : Option AssetPolicyChainFamily}
    (h : recipientPins libs value family = .ok checked) : checked = value := by
  rcases invalid_guard.mp h with ⟨_, hv⟩
  cases hv
  rfl

-- A check that hands on what it was given does so under an option too.
theorem checkOptional_ok {α : Type} {check : α → Result α} (hcheck : ∀ a b, check a = .ok b → b = a)
    {value checked : Option α} (h : checkOptional check value = .ok checked) : checked = value := by
  cases value with
  | none => exact (Except.ok.inj h).symm
  | some a =>
    simp only [checkOptional] at h
    cases hc : check a with
    | error e => rw [hc] at h; cases h
    | ok b =>
      rw [hc] at h
      cases h
      rw [hcheck a b hc]

theorem mapM_ok {α : Type} {check : α → Result α} (hcheck : ∀ a b, check a = .ok b → b = a)
    {xs ys : List α} (h : xs.mapM check = .ok ys) : ys = xs ∧ ∀ x ∈ xs, check x = .ok x := by
  induction xs generalizing ys with
  | nil =>
    simp only [List.mapM_nil, pure, Except.pure] at h
    cases h
    exact ⟨rfl, by simp⟩
  | cons x xs ih =>
    rw [List.mapM_cons] at h
    rcases bind_ok.mp h with ⟨y, hy, h⟩
    rcases bind_ok.mp h with ⟨rest, hrest, h⟩
    cases h
    have hx := hcheck x y hy
    rcases ih hrest with ⟨hrest, hall⟩
    subst hx hrest
    exact ⟨rfl, by simpa using ⟨hy, hall⟩⟩

theorem bridgeAlternative_ok {item checked : BridgeAlternative} (h : bridgeAlternative libs item = .ok checked) :
    checked = item ∧ 0 < item.maximumPerTransferAtomic ∧ item.maximumPerTransferAtomic ≤ maxUint256 := by
  unfold bridgeAlternative at h
  rcases bind_ok.mp h with ⟨pin, hpin, h⟩
  rcases bind_ok.mp h with ⟨maximum, hmaximum, h⟩
  rcases bind_ok.mp h with ⟨recipients, hrecipients, h⟩
  have hpin := mechanismPin_ok hpin
  rcases positiveAtomic_ok hmaximum with ⟨hmax, hpos, hle⟩
  have hrecipients := checkOptional_ok (fun _ _ => recipientPins_ok) hrecipients
  injection hpin with hpin
  injection hmax with hmax
  cases h
  subst hpin hmax hrecipients
  exact ⟨rfl, hpos, hle⟩

variable {value : AllowlistPolicyAdmissionInput}

theorem bridgeAlternatives_ok {mechanisms : AdmissionMechanisms}
    {checked : List BridgeAlternative} (h : bridgeAlternatives libs value mechanisms = .ok checked) :
    mechanisms = .bridge checked ∧ value.rail = .bridge ∧ value.mechanism = none ∧
      value.maximumPerTransferAtomic = none ∧ (checked.map (·.toMechanism)).Nodup ∧
      ∀ option ∈ checked, 0 < option.maximumPerTransferAtomic ∧ option.maximumPerTransferAtomic ≤ maxUint256 := by
  rcases invalid_guard.mp h with ⟨hshape, h⟩
  simp only [not_or, ne_eq, not_not, Option.isSome_iff_ne_none] at hshape
  cases mechanisms with
  | swap routes => simp at h
  | bridge alternatives =>
    rcases bind_ok.mp h with ⟨found, hfound, h⟩
    rcases invalid_guard.mp h with ⟨hnodup, h⟩
    cases h
    rcases mapM_ok (fun _ _ hb => (bridgeAlternative_ok hb).1) hfound with ⟨hsame, hall⟩
    subst hsame
    exact ⟨rfl, hshape.1, hshape.2.1, hshape.2.2.1, not_not.mp hnodup, fun option hoption =>
      (bridgeAlternative_ok (hall option hoption)).2⟩

theorem swapAlternatives_ok {value row : AllowlistPolicyAdmissionInput} {mechanisms : AdmissionMechanisms}
    (hmechanisms : value.mechanisms = some mechanisms) (hrail : value.rail = .swap)
    (h : swapAlternatives libs value mechanisms = .ok row) : row = value ∧ SoundAdmission value := by
  rcases invalid_guard.mp h with ⟨hshape, h⟩
  simp only [not_or, Option.isSome_iff_ne_none, ne_eq, not_not] at hshape
  cases mechanisms with
  | bridge alternatives => simp at h
  | swap routes =>
    rcases bind_ok.mp h with ⟨checked, hchecked, h⟩
    rcases invalid_guard.mp h with ⟨_, h⟩
    rcases bind_ok.mp h with ⟨maximum, hmaximum, h⟩
    rcases bind_ok.mp h with ⟨daily, hdaily, h⟩
    rcases invalid_guard.mp h with ⟨horder, h⟩
    rcases invalid_guard.mp h with ⟨hrecipient, h⟩
    rcases invalid_guard.mp h with ⟨hrecipients, h⟩
    rcases positiveAtomic_ok hmaximum with ⟨hmax, hpos, hle⟩
    rcases positiveAtomic_ok hdaily with ⟨hday, _, hdle⟩
    have hroutes : checked = routes := by
      refine (mapM_ok (fun a b hb => ?_) hchecked).1
      exact (AllowlistAdmissionMechanismPin.swap.inj (swapMechanismPin_ok hb)).symm
    simp only [Option.isSome_iff_ne_none, ne_eq, not_not] at hrecipient hrecipients
    injection hday with hday
    refine ⟨?_, ?_⟩
    · rw [← Except.ok.inj h]
      cases value
      simp_all
    · rw [← hday] at horder hdle
      exact {
        capped := fun _ => ⟨maximum, hmax, hpos, hle, by omega⟩
        bridged := fun alternatives hbridge => by rw [hmechanisms] at hbridge; cases hbridge
        routed := fun _ _ => ⟨hrail, hshape.1⟩
        received := fun hsome => by rw [hrecipient] at hsome; cases hsome
        pinned := fun hsome => by rw [hrecipients] at hsome; cases hsome
        unpinned := fun hdirect => by rw [hrail] at hdirect; cases hdirect
        daily := hdle }

theorem railMechanism_ok {m : Option AllowlistAdmissionMechanismPin}
    (h : railMechanism libs value = .ok m) : m = value.mechanism := by
  unfold railMechanism at h
  split at h
  · rename_i hnone
    cases h
    exact hnone.symm
  · rename_i found hfound _
    rcases hs : swapMechanismPin libs found with e | swap
    · rw [hs] at h; cases h
    · rw [hs] at h
      cases h
      rw [hfound, swapMechanismPin_ok hs]
  · rename_i found hfound _
    rcases hp : mechanismPin found with e | pin
    · rw [hp] at h; cases h
    · rw [hp] at h
      cases h
      rw [hfound, mechanismPin_ok hp]

theorem gaslessRecipient_ok {m : Option AllowlistAdmissionMechanismPin}
    {recipient checked : String} (h : gaslessRecipient libs value m recipient = .ok checked) :
    checked = recipient ∧ value.rail = .gasless := by
  rcases invalid_guard.mp h with ⟨hrail, h⟩
  rcases invalid_guard.mp h with ⟨_, h⟩
  cases h
  refine ⟨rfl, ?_⟩
  by_cases hgasless : value.rail = .gasless
  · exact hgasless
  · exact absurd (Or.inl hgasless) hrail

-- An accepted row is the row the owner wrote, and sound.
theorem validateAllowlistAdmission_ok {value row : AllowlistPolicyAdmissionInput}
    (h : validateAllowlistAdmission libs value = .ok row) : row = value ∧ SoundAdmission value := by
  unfold validateAllowlistAdmission at h
  split at h
  · rename_i hrail hmechanisms
    exact swapAlternatives_ok hmechanisms hrail h
  rename_i hshape
  rcases bind_ok.mp h with ⟨mechanisms, hmechanisms, h⟩
  rcases bind_ok.mp h with ⟨maximum, hmaximum, h⟩
  rcases bind_ok.mp h with ⟨daily, hdaily, h⟩
  rcases invalid_guard.mp h with ⟨horder, h⟩
  rcases bind_ok.mp h with ⟨mechanism, hmechanism, h⟩
  rcases invalid_guard.mp h with ⟨_, h⟩
  rcases invalid_guard.mp h with ⟨hdirect, h⟩
  rcases bind_ok.mp h with ⟨recipient, hrecipient, h⟩
  rcases invalid_guard.mp h with ⟨_, h⟩
  rcases invalid_guard.mp h with ⟨hpinned, h⟩
  rcases bind_ok.mp h with ⟨recipients, hrecipients, h⟩
  cases h
  have hmechanism := railMechanism_ok hmechanism
  have hreceived : recipient = value.recipient :=
    checkOptional_ok (fun _ _ hr => (gaslessRecipient_ok hr).1) hrecipient
  have hrecipients := checkOptional_ok (fun _ _ => recipientPins_ok) hrecipients
  rcases positiveAtomic_ok hdaily with ⟨hday, _, hdle⟩
  injection hday with hday
  have hnoswap : ∀ routes, value.mechanisms ≠ some (.swap routes) := by
    intro routes hsome
    rw [hsome] at hmechanisms
    rcases hb : bridgeAlternatives libs value (.swap routes) with e | checked
    · simp [checkOptional, hb, Except.map] at hmechanisms
    · exact AdmissionMechanisms.noConfusion (bridgeAlternatives_ok hb).1
  have hpresent : mechanisms.map .bridge = value.mechanisms := by
    cases hvalue : value.mechanisms with
    | none =>
      rw [hvalue] at hmechanisms
      cases hmechanisms
      rfl
    | some given =>
      rw [hvalue] at hmechanisms
      rcases hb : bridgeAlternatives libs value given with e | checked
      · simp [checkOptional, hb, Except.map] at hmechanisms
      · simp only [checkOptional, hb, Except.map, Except.ok.injEq] at hmechanisms
        rw [← hmechanisms, (bridgeAlternatives_ok hb).1]
        rfl
  have hbridged : ∀ alternatives, value.mechanisms = some (.bridge alternatives) →
      bridgeAlternatives libs value (.bridge alternatives) = .ok alternatives := by
    intro alternatives hsome
    rw [hsome] at hmechanisms
    rcases hb : bridgeAlternatives libs value (.bridge alternatives) with e | checked
    · simp [checkOptional, hb, Except.map] at hmechanisms
    · rw [AdmissionMechanisms.bridge.inj (bridgeAlternatives_ok hb).1]
  have hmaximumOf : value.mechanisms = none →
      value.maximumPerTransferAtomic = some maximum ∧ 0 < maximum ∧ maximum ≤ maxUint256 := by
    intro hnone
    rw [hnone, Option.map_eq_none_iff] at hpresent
    rw [hpresent] at hmaximum
    exact positiveAtomic_ok hmaximum
  refine ⟨?_, ?_⟩
  · have hmax : (if mechanisms.isNone then some maximum else none) = value.maximumPerTransferAtomic := by
      cases hvalue : value.mechanisms with
      | none =>
        rw [hvalue, Option.map_eq_none_iff] at hpresent
        rw [hpresent, (hmaximumOf hvalue).1]
        rfl
      | some given =>
        cases given with
        | swap routes => exact absurd hvalue (hnoswap routes)
        | bridge alternatives =>
          rw [hvalue] at hpresent
          rcases Option.map_eq_some_iff.mp hpresent with ⟨found, hfound, _⟩
          rw [hfound, (bridgeAlternatives_ok (hbridged alternatives hvalue)).2.2.2.1]
          rfl
    rw [hmax, hmechanism, hreceived, hrecipients, hpresent, ← hday]
  · exact {
      capped := by
        intro hall
        cases hvalue : value.mechanisms with
        | none =>
          rcases hmaximumOf hvalue with ⟨hmax, hpos, hle⟩
          exact ⟨maximum, hmax, hpos, hle, by omega⟩
        | some given =>
          cases given with
          | swap routes => exact absurd hvalue (hnoswap routes)
          | bridge alternatives =>
            rw [hvalue] at hall
            cases hall
      bridged := fun alternatives hsome => by
        rcases bridgeAlternatives_ok (hbridged alternatives hsome) with ⟨_, hrail, hnone, hcap, hnodup, hbounds⟩
        refine ⟨hrail, hnone, hcap, ?_, hnodup, hbounds⟩
        rw [hsome] at hpresent
        rcases Option.map_eq_some_iff.mp hpresent with ⟨found, hfound, _⟩
        rw [hfound] at hpinned
        cases hr : value.recipients with
        | none => rfl
        | some list => simp [hr] at hpinned
      routed := fun routes hsome => absurd hsome (hnoswap routes)
      received := by
        intro hsome
        cases hr : value.recipient with
        | none => rw [hr] at hsome; cases hsome
        | some given =>
          rcases hg : gaslessRecipient libs value mechanism given with e | checked
          · simp [checkOptional, hr, hg, Except.map] at hrecipient
          · exact (gaslessRecipient_ok hg).2
      pinned := by
        intro hsome
        by_cases hrail : isRecipientPinRail value.rail
        · exact hrail
        · exact absurd ⟨hsome, Or.inl hrail⟩ hpinned
      unpinned := by
        intro hrail
        rw [← hmechanism]
        cases hm : mechanism with
        | none => rfl
        | some m => exact absurd ⟨hrail, by rw [hm]; rfl⟩ hdirect
      daily := by rw [hday]; exact hdle }

/-- What a row is told apart by. -/
def AllowlistPolicyAdmissionInput.identity (row : AllowlistPolicyAdmissionInput) :
    String × Option Asset × AssetPolicyRail := (row.chain, row.asset?, row.rail)

/-- The row resolves, and a swap is pinned on its own network. -/
def Placed (libs : PolicyLibraries) (inventory : AllowlistInventory) (row : AllowlistPolicyAdmissionInput) : Prop :=
  ∃ asset, resolveDirectPolicyAsset libs row inventory = .ok asset ∧
    (row.rail = .swap → swapMechanismChains row ≠ [] ∧ ∀ chain ∈ swapMechanismChains row, chain = some asset.chain)

variable {inventorySha256 : String}

theorem Placed.family {row : AllowlistPolicyAdmissionInput}
    (h : Placed libs (loadAllowlistInventory inventorySha256) row) :
    ∃ family, policyChainFamily row.chain = some family := by
  rcases h with ⟨asset, hresolved, _⟩
  rcases resolveDirectPolicyAsset_ok hresolved with ⟨hmem, hchain, _⟩
  exact ⟨asset.family, hchain ▸ policyAssets_family asset hmem⟩

-- The list is accepted where every row is placed and no identity is admitted twice, whatever the order.
theorem admittedFamilies_ok {rows : List AllowlistPolicyAdmissionInput} {identities : List AdmissionIdentity}
    {families : List AssetPolicyChainFamily} :
    admittedFamilies libs (loadAllowlistInventory inventorySha256) rows identities = .ok families ↔
      (∀ row ∈ rows, Placed libs (loadAllowlistInventory inventorySha256) row) ∧
        (rows.map (·.identity)).Nodup ∧
        (∀ row ∈ rows, ∀ id ∈ identities, row.identity ≠ (id.1, some id.2.1, id.2.2)) ∧
        families.map some = rows.map fun row => policyChainFamily row.chain := by
  induction rows generalizing identities families with
  | nil =>
    have hnil : admittedFamilies libs (loadAllowlistInventory inventorySha256) [] identities = .ok [] := rfl
    rw [hnil]
    constructor
    · intro h
      cases h
      simp
    · rintro ⟨-, -, -, h⟩
      rw [List.map_nil, List.map_eq_nil_iff] at h
      rw [h]
  | cons row rest ih =>
    have hstep : ∀ asset, resolveDirectPolicyAsset libs row (loadAllowlistInventory inventorySha256) = .ok asset →
        row.identity = (asset.chain, some asset.asset, row.rail) ∧ policyChainFamily row.chain = some asset.family := by
      intro asset hresolved
      rcases resolveDirectPolicyAsset_ok hresolved with ⟨hmem, hchain, hasset⟩
      refine ⟨?_, hchain ▸ policyAssets_family asset hmem⟩
      rw [AllowlistPolicyAdmissionInput.identity, hchain, hasset]
    constructor
    · intro h
      rcases bind_ok.mp h with ⟨asset, hresolved, h⟩
      rcases invalid_guard.mp h with ⟨hfresh, h⟩
      rcases invalid_guard.mp h with ⟨hswap, h⟩
      rcases bind_ok.mp h with ⟨found, hfound, h⟩
      cases h
      rcases hstep asset hresolved with ⟨hidentity, hfamily⟩
      rcases ih.mp hfound with ⟨hplaced, hnodup, hapart, hfamilies⟩
      have hplace : Placed libs (loadAllowlistInventory inventorySha256) row := by
        refine ⟨asset, hresolved, fun hrail => ?_⟩
        rw [not_and] at hswap
        have hpinned := hswap hrail
        simp only [not_or, not_exists, not_and, ne_eq, not_not] at hpinned
        exact hpinned
      refine ⟨?_, ?_, ?_, ?_⟩
      · simpa using ⟨hplace, hplaced⟩
      · rw [List.map_cons, List.nodup_cons]
        refine ⟨?_, hnodup⟩
        intro hmem
        rcases List.mem_map.mp hmem with ⟨other, hother, hsame⟩
        exact hapart other hother _ (List.mem_cons_self ..) (by rw [hsame, hidentity])
      · intro other hother id hid
        rcases List.mem_cons.mp hother with rfl | hrest
        · intro hsame
          rw [hidentity] at hsame
          simp only [Prod.mk.injEq, Option.some.injEq] at hsame
          apply hfresh
          rw [hsame.1, hsame.2.1, hsame.2.2]
          exact hid
        · exact hapart other hrest id (List.mem_cons_of_mem _ hid)
      · rw [List.map_cons, List.map_cons, hfamilies, hfamily]
    · rintro ⟨hplaced, hnodup, hapart, hfamilies⟩
      rw [List.map_cons, List.nodup_cons] at hnodup
      rcases hplaced row (List.mem_cons_self ..) with ⟨asset, hresolved, hswap⟩
      rcases hstep asset hresolved with ⟨hidentity, hfamily⟩
      cases families with
      | nil => simp at hfamilies
      | cons family found =>
        rw [List.map_cons, List.map_cons, List.cons.injEq] at hfamilies
        have hhead : family = asset.family := Option.some.inj (hfamilies.1.trans hfamily)
        have hrest : admittedFamilies libs (loadAllowlistInventory inventorySha256) rest
            ((asset.chain, asset.asset, row.rail) :: identities) = .ok found := by
          refine ih.mpr ⟨fun other hother => hplaced other (List.mem_cons_of_mem _ hother), hnodup.2, ?_,
            hfamilies.2⟩
          intro other hother id hid
          rcases List.mem_cons.mp hid with rfl | hid
          · intro hsame
            apply hnodup.1
            rw [hidentity, ← hsame]
            exact List.mem_map_of_mem hother
          · exact hapart other (List.mem_cons_of_mem _ hother) id hid
        refine bind_ok.mpr ⟨asset, hresolved, ?_⟩
        rw [if_neg, if_neg]
        · rw [hrest, hhead]
          rfl
        · rintro ⟨hrail, hbad⟩
          rcases hswap hrail with ⟨hsome, hall⟩
          rcases hbad with hnone | ⟨chain, hchain, hne⟩
          · exact hsome hnone
          · exact hne (hall chain hchain)
        · intro hmem
          exact hapart row (List.mem_cons_self ..) _ hmem hidentity

theorem mapM_checked {α β : Type} {check : α → Result β} {xs : List α} {ys : List β} (h : xs.mapM check = .ok ys) :
    ∀ x ∈ xs, ∃ y, check x = .ok y := by
  induction xs generalizing ys with
  | nil => simp
  | cons x xs ih =>
    rw [List.mapM_cons] at h
    rcases bind_ok.mp h with ⟨y, hy, h⟩
    rcases bind_ok.mp h with ⟨rest, hrest, _⟩
    simpa using ⟨⟨y, hy⟩, ih hrest⟩

theorem mapM_of_all {α : Type} {check : α → Result α} {xs : List α} (h : ∀ x ∈ xs, check x = .ok x) :
    xs.mapM check = .ok xs := by
  induction xs with
  | nil => rfl
  | cons x xs ih =>
    rw [List.mapM_cons]
    apply bind_ok.mpr
    refine ⟨x, h x (List.mem_cons_self ..), ?_⟩
    apply bind_ok.mpr
    exact ⟨xs, ih fun y hy => h y (List.mem_cons_of_mem _ hy), rfl⟩

-- An accepted overlay is handed on as it was written.
theorem overlayInput_ok {raw value : AllowlistPolicyOverlayV2Input}
    (h : overlayInput libs raw (loadAllowlistInventory inventorySha256) = .ok value) :
    value = raw ∧ (∀ row ∈ raw.admissions, validateAllowlistAdmission libs row = .ok row) ∧
      (∀ row ∈ raw.admissions, Placed libs (loadAllowlistInventory inventorySha256) row) ∧
      (raw.admissions.map (·.identity)).Nodup := by
  rcases invalid_guard.mp h with ⟨_, h⟩
  rcases invalid_guard.mp h with ⟨_, h⟩
  rcases bind_ok.mp h with ⟨admissions, hadmissions, h⟩
  rcases bind_ok.mp h with ⟨families, hfamilies, h⟩
  rcases invalid_guard.mp h with ⟨_, h⟩
  rcases bind_ok.mp h with ⟨_, _, h⟩
  rcases mapM_ok (fun row checked hrow => (validateAllowlistAdmission_ok hrow).1) hadmissions with ⟨hsame, hall⟩
  subst hsame
  cases h
  rcases admittedFamilies_ok.mp hfamilies with ⟨hplaced, hnodup, _⟩
  exact ⟨rfl, hall, hplaced, hnodup⟩

theorem exists_families {rows : List AllowlistPolicyAdmissionInput}
    (h : ∀ row ∈ rows, Placed libs (loadAllowlistInventory inventorySha256) row) :
    ∃ families : List AssetPolicyChainFamily, families.map some = rows.map fun row => policyChainFamily row.chain := by
  induction rows with
  | nil => exact ⟨[], rfl⟩
  | cons row rest ih =>
    rcases ih fun other hother => h other (List.mem_cons_of_mem _ hother) with ⟨families, hfamilies⟩
    rcases (h row (List.mem_cons_self ..)).family with ⟨family, hfamily⟩
    exact ⟨family :: families, by rw [List.map_cons, List.map_cons, hfamilies, hfamily]⟩

-- The rows of an accepted overlay may come in any order.
theorem overlayInput_perm {raw value : AllowlistPolicyOverlayV2Input}
    {admissions : List AllowlistPolicyAdmissionInput} (hperm : raw.admissions.Perm admissions)
    (h : overlayInput libs raw (loadAllowlistInventory inventorySha256) = .ok value) :
    overlayInput libs { raw with admissions := admissions } (loadAllowlistInventory inventorySha256) =
      .ok { raw with admissions := admissions } := by
  rcases overlayInput_ok h with ⟨_, hvalid, hplaced, hnodup⟩
  have hplaced' : ∀ row ∈ admissions, Placed libs (loadAllowlistInventory inventorySha256) row :=
    fun row hrow => hplaced row (hperm.mem_iff.mpr hrow)
  rcases invalid_guard.mp h with ⟨hmetadata, h⟩
  rcases invalid_guard.mp h with ⟨hprofile, h⟩
  rcases bind_ok.mp h with ⟨checked, hchecked, h⟩
  rcases bind_ok.mp h with ⟨families, hfamilies, h⟩
  rcases invalid_guard.mp h with ⟨haccounts, h⟩
  rcases bind_ok.mp h with ⟨_, hcanonical, h⟩
  have hsame := (mapM_ok (fun row checked hrow => (validateAllowlistAdmission_ok hrow).1) hchecked).1
  subst hsame
  rcases exists_families hplaced' with ⟨families', hfamilies'⟩
  have hlist := (admittedFamilies_ok.mp hfamilies).2.2.2
  have hused : (chainFamilies.filter fun family => family ∈ families') =
      chainFamilies.filter fun family => family ∈ families := by
    apply List.filter_congr
    intro family _
    have hmem : some family ∈ families'.map some ↔ some family ∈ families.map some := by
      rw [hfamilies', hlist]
      exact (hperm.map _).mem_iff.symm
    simpa using hmem
  apply invalid_guard.mpr
  refine ⟨?_, ?_⟩
  · have hempty : admissions = [] ↔ raw.admissions = [] := by
      rw [← List.length_eq_zero_iff, ← List.length_eq_zero_iff, hperm.length_eq]
    simp only [hempty, ← hperm.length_eq]
    exact hmetadata
  apply invalid_guard.mpr
  refine ⟨hprofile, ?_⟩
  apply bind_ok.mpr
  refine ⟨admissions, mapM_of_all fun row hrow => hvalid row (hperm.mem_iff.mpr hrow), ?_⟩
  apply bind_ok.mpr
  refine ⟨families', admittedFamilies_ok.mpr ⟨hplaced', (hperm.map _).nodup_iff.mp hnodup, by simp, hfamilies'⟩, ?_⟩
  apply invalid_guard.mpr
  rw [hused]
  refine ⟨haccounts, ?_⟩
  apply bind_ok.mpr
  exact ⟨(), hcanonical, rfl⟩

end Accepted
end PaymentNode.Allowlist
