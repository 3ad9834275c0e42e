import PaymentNode.Policy.Compile

/-!
# Admits — the compiled policy admits exactly what the owner wrote

A spend is governed by the one admission row of its network, asset and rail.  `evaluateAssetPolicy` on the
compiled registry answers it iff that row would: inside the window, under the row's cap and its daily cap.
What the answer carries for that rail (pin, alternatives, recipients) is the row's.
-/

namespace PaymentNode.Allowlist

/-- The asset a spend means, in the spelling of its network's family. -/
def requestedIdentity (libs : PolicyLibraries) (input : AssetPolicyEvaluationInput) : Option Asset :=
  (policyChainFamily input.chain).bind fun family => (requestedAsset libs family input.asset).toOption

/-- The row is the owner's for this network, asset and rail. -/
def AllowlistPolicyAdmissionInput.Governs (libs : PolicyLibraries) (row : AllowlistPolicyAdmissionInput)
    (input : AssetPolicyEvaluationInput) : Prop :=
  row.chain = input.chain ∧ row.rail = input.rail ∧ row.asset?.isSome ∧ row.asset? = requestedIdentity libs input

/-- The per-transfer cap of a row: of the alternative the spend names, where the row has alternatives. -/
def AllowlistPolicyAdmissionInput.capFor (row : AllowlistPolicyAdmissionInput)
    (mechanism : Option Mechanism) : Option ℕ :=
  match row.alternatives with
  | some alternatives =>
    (mechanism.bind fun m => alternatives.find? fun option => option.toMechanism = m).map
      (·.maximumPerTransferAtomic)
  | none => row.maximumPerTransferAtomic

def AllowlistPolicyOverlayV2Input.InWindow (overlay : AllowlistPolicyOverlayV2Input)
    (input : AssetPolicyEvaluationInput) : Prop :=
  ∃ instant, input.asOf = some instant ∧ instant.day = input.asOfDate ∧ overlay.effectiveAt ≤ instant ∧
    ∀ expiresAt, overlay.expiresAt = some expiresAt → instant < expiresAt

/-- The row admits the spend under its own caps. -/
def AllowlistPolicyAdmissionInput.Allows (row : AllowlistPolicyAdmissionInput)
    (input : AssetPolicyEvaluationInput) : Prop :=
  0 < input.amountAtomic ∧ (∃ cap, row.capFor input.mechanism = some cap ∧ input.amountAtomic ≤ cap) ∧
    input.dailyUsageAtomic + input.amountAtomic ≤ row.dailyLimitAtomic

/-- What an admission reads for its rail is what the row says. -/
structure AssetPolicyAdmission.Carries (admission : AssetPolicyAdmission) (row : AllowlistPolicyAdmissionInput)
    (mechanism : Option Mechanism) : Prop where
  rail : admission.rail = row.rail
  caps : row.capFor mechanism = some admission.caps.maximumPerTransferAtomic ∧
    admission.caps.dailyLimitAtomic = row.dailyLimitAtomic
  pin : admission.row.mechanismPins row.rail = row.mechanism
  recipients : admission.row.recipients row.rail = row.recipients
  bridge : row.rail = .bridge → admission.row.bridgeOptions = row.alternatives
  swap : row.rail = .swap → admission.row.swapOptions = row.routes
  gasless : row.rail = .gasless → admission.row.gaslessRecipient = row.recipient

section Evaluation

variable {libs : PolicyLibraries} {hashes : PolicyHashes} {inventorySha256 : String}
  {raw : AllowlistPolicyOverlayV2Input} {overlay : AllowlistPolicyOverlayV2} {registry : AssetPolicyRegistry}
  {input : AssetPolicyEvaluationInput} {row : AllowlistPolicyAdmissionInput}

theorem SoundAdmission.cap_bound (h : SoundAdmission row) {mechanism : Option Mechanism} {cap : ℕ}
    (hcap : row.capFor mechanism = some cap) : cap ≤ maxUint256 := by
  unfold AllowlistPolicyAdmissionInput.capFor AllowlistPolicyAdmissionInput.alternatives at hcap
  cases hm : row.mechanisms with
  | none =>
    rcases h.capped (by simp [hm]) with ⟨maximum, hmax, _, hle, _⟩
    simp only [hm, hmax, Option.some.injEq] at hcap
    omega
  | some mechanisms =>
    cases mechanisms with
    | swap routes =>
      rcases h.capped (by simp [hm]) with ⟨maximum, hmax, _, hle, _⟩
      simp only [hm, hmax, Option.some.injEq] at hcap
      omega
    | bridge alternatives =>
      simp only [hm, Option.map_eq_some_iff, Option.bind_eq_some_iff] at hcap
      rcases hcap with ⟨option, ⟨m, _, hfind⟩, rfl⟩
      exact ((h.bridged alternatives hm).2.2.2.2.2 option (List.mem_of_find?_eq_some hfind)).2

-- A row without alternatives is merged under its own cap.
theorem SoundAdmission.caps_eq (h : SoundAdmission row) (hnone : row.alternatives = none) :
    row.maximumPerTransferAtomic = some row.caps.maximumPerTransferAtomic := by
  obtain ⟨maximum, hmax, _⟩ := h.capped (by
    unfold AllowlistPolicyAdmissionInput.alternatives at hnone
    cases hm : row.mechanisms with
    | none => rfl
    | some mechanisms =>
      cases mechanisms with
      | swap routes => rfl
      | bridge alternatives => simp [hm] at hnone)
  simp [AllowlistPolicyAdmissionInput.caps, hmax]

variable {merged : AssetPolicyRow}

theorem selectMechanism_compiled (h : SoundAdmission row) (hrail : input.rail = row.rail)
    (hbridge : row.rail = .bridge → merged.bridgeOptions = row.alternatives)
    {selected : Option AssetMechanismOption} :
    selectMechanism merged.plain input = .ok selected →
      row.capFor input.mechanism =
        some ((selected.map (·.maximumPerTransferAtomic)).getD row.caps.maximumPerTransferAtomic) := by
  intro hselect
  by_cases hother : row.rail = .bridge
  · cases halternatives : row.alternatives with
    | none =>
      have hoptions : merged.plain.bridgeOptions = none := by
        simp [AssetPolicyRow.plain, hbridge hother, halternatives]
      simp only [selectMechanism, hrail, hother, hoptions] at hselect
      cases hselect
      simp [AllowlistPolicyAdmissionInput.capFor, halternatives, h.caps_eq halternatives]
    | some alternatives =>
      have hoptions : merged.plain.bridgeOptions =
          some (alternatives.map BridgeAlternative.toAssetMechanismOption) := by
        simp [AssetPolicyRow.plain, hbridge hother, halternatives]
      cases hm : input.mechanism with
      | none => simp [selectMechanism, hrail, hother, hoptions, hm] at hselect
      | some mechanism =>
        have hfind : (alternatives.map BridgeAlternative.toAssetMechanismOption).find?
            (fun option => option.toMechanism = mechanism) =
            (alternatives.find? fun option => option.toMechanism = mechanism).map
              BridgeAlternative.toAssetMechanismOption := by
          rw [List.find?_map]
          rfl
        simp only [selectMechanism, hrail, hother, hoptions, hm, hfind] at hselect
        cases hfound : alternatives.find? fun option => option.toMechanism = mechanism with
        | none => simp [hfound] at hselect
        | some option =>
          simp only [hfound, Option.map_some] at hselect
          cases hselect
          simp [AllowlistPolicyAdmissionInput.capFor, halternatives, hfound]
  · have hnone : selectMechanism merged.plain input = .ok none := by
      unfold selectMechanism
      split
      · rename_i hr _
        exact absurd (hrail.symm.trans hr) hother
      · rfl
    rw [hnone] at hselect
    cases hselect
    simp [AllowlistPolicyAdmissionInput.capFor, h.alternatives hother, h.caps_eq (h.alternatives hother)]

-- Where the row has a cap for the spend, its alternative is found.
theorem exists_selected (hrail : input.rail = row.rail)
    (hbridge : row.rail = .bridge → merged.bridgeOptions = row.alternatives) {cap : ℕ}
    (hcap : row.capFor input.mechanism = some cap) : ∃ selected, selectMechanism merged.plain input = .ok selected := by
  unfold selectMechanism
  split
  · rename_i options hbridged hoptions
    have halternatives : row.alternatives.map (fun list => list.map BridgeAlternative.toAssetMechanismOption) =
        some options := by
      rw [← hbridge (hrail.symm.trans hbridged)]
      exact hoptions
    rcases Option.map_eq_some_iff.mp halternatives with ⟨alternatives, hsome, rfl⟩
    simp only [AllowlistPolicyAdmissionInput.capFor, hsome, Option.map_eq_some_iff, Option.bind_eq_some_iff] at hcap
    rcases hcap with ⟨option, ⟨mechanism, hm, hfind⟩, _⟩
    have hfound : (alternatives.map BridgeAlternative.toAssetMechanismOption).find?
        (fun option => option.toMechanism = mechanism) = some option.toAssetMechanismOption := by
      rw [List.find?_map]
      exact Option.map_eq_some_iff.mpr ⟨option, hfind, rfl⟩
    simp only [hm, hfound]
    exact ⟨_, rfl⟩
  · exact ⟨none, rfl⟩

/-- The admission of a spend under the caps of its row. -/
def admissionOn (registry : AssetPolicyRegistry) (input : AssetPolicyEvaluationInput) (caps : AssetAtomicCaps) :
    PaymentNode.AssetPolicyAdmission where
  policyDigest := registry.policyDigest
  registryVersion := registry.registryVersion
  chain := input.chain
  asset := input.asset
  rail := input.rail
  caps := caps
  amountAtomic := input.amountAtomic
  dailyUsageAtomic := input.dailyUsageAtomic
  dailyRemainingAtomic := caps.dailyLimitAtomic - input.dailyUsageAtomic - input.amountAtomic

theorem evaluateRow_compiled (hv2 : registry.schemaVersion = .v2) (h : SoundAdmission row)
    (hrail : input.rail = row.rail) (hrails : merged.rails row.rail = true)
    (hcaps : merged.railCaps row.rail = some row.caps)
    (hbridge : row.rail = .bridge → merged.bridgeOptions = row.alternatives)
    {admission : PaymentNode.AssetPolicyAdmission} :
    evaluateRow registry.plain input merged.plain = .ok admission ↔
      row.Allows input ∧ ∃ cap, row.capFor input.mechanism = some cap ∧
        admission = admissionOn registry input ⟨cap, row.dailyLimitAtomic⟩ := by
  have hcapsFor : registry.plain.capsFor merged.plain input.rail = some row.caps := by
    simp [AssetPolicyRegistry.plain, PaymentNode.AssetPolicyRegistry.capsFor, hv2, AssetPolicyRow.plain, hrail, hcaps]
  have hadmitted : merged.plain.rails input.rail = true := by
    simp [AssetPolicyRow.plain, hrail, hrails]
  have hdaily : row.caps.dailyLimitAtomic = row.dailyLimitAtomic := rfl
  unfold evaluateRow
  rw [if_neg (by simp [hadmitted]), hcapsFor]
  constructor
  · intro hok
    rcases invalid_guard.mp hok with ⟨hamount, hok⟩
    rcases invalid_guard.mp hok with ⟨husage, hok⟩
    rcases bind_ok.mp hok with ⟨selected, hselected, hok⟩
    have hcap := selectMechanism_compiled h hrail hbridge hselected
    rcases blocked_guard.mp hok with ⟨hmaximum, hok⟩
    rcases blocked_guard.mp hok with ⟨hlimit, hok⟩
    cases hok
    refine ⟨⟨by omega, ⟨_, hcap, by omega⟩, by omega⟩, _, hcap, rfl⟩
  · rintro ⟨⟨hpos, ⟨cap, hcap, hle⟩, hlimit⟩, cap', hcap', rfl⟩
    rw [hcap, Option.some.injEq] at hcap'
    subst hcap'
    have hbound := h.cap_bound hcap
    have hdle := h.daily
    rcases exists_selected hrail hbridge hcap with ⟨selected, hselected⟩
    have hselect := selectMechanism_compiled h hrail hbridge hselected
    rw [hcap, Option.some.injEq] at hselect
    apply invalid_guard.mpr
    refine ⟨by omega, ?_⟩
    apply invalid_guard.mpr
    refine ⟨by omega, ?_⟩
    apply bind_ok.mpr
    refine ⟨selected, hselected, ?_⟩
    rw [← hselect]
    apply blocked_guard.mpr
    refine ⟨by omega, ?_⟩
    apply blocked_guard.mpr
    refine ⟨by omega, ?_⟩
    rfl

end Evaluation

section Compiled

variable {libs : PolicyLibraries} {hashes : PolicyHashes} {inventorySha256 : String}
  {raw : AllowlistPolicyOverlayV2Input} {overlay : AllowlistPolicyOverlayV2} {registry : AssetPolicyRegistry}
  {input : AssetPolicyEvaluationInput} {admitted : List AdmittedAsset}

-- A list and its permutations pass a check alike.
theorem mapM_perm {α β : Type} {f : α → Result β} {xs ys : List α} (hperm : xs.Perm ys) {found : List β}
    (h : xs.mapM f = .ok found) : ∃ found', ys.mapM f = .ok found' ∧ found.Perm found' := by
  have hcons : ∀ (x : α) (zs : List α) (all : List β), (x :: zs).mapM f = .ok all ↔
      ∃ y rest, f x = .ok y ∧ zs.mapM f = .ok rest ∧ all = y :: rest := by
    intro x zs all
    rw [List.mapM_cons]
    constructor
    · intro hok
      rcases bind_ok.mp hok with ⟨y, hy, hok⟩
      rcases bind_ok.mp hok with ⟨rest, hrest, hok⟩
      cases hok
      exact ⟨y, rest, hy, hrest, rfl⟩
    · rintro ⟨y, rest, hy, hrest, rfl⟩
      exact bind_ok.mpr ⟨y, hy, bind_ok.mpr ⟨rest, hrest, rfl⟩⟩
  induction hperm generalizing found with
  | nil => exact ⟨found, h, List.Perm.refl _⟩
  | cons x _ ih =>
    rcases (hcons ..).mp h with ⟨y, rest, hy, hrest, rfl⟩
    rcases ih hrest with ⟨rest', hrest', hperm⟩
    exact ⟨y :: rest', (hcons ..).mpr ⟨y, rest', hy, hrest', rfl⟩, hperm.cons y⟩
  | swap x x' zs =>
    rcases (hcons ..).mp h with ⟨y', _, hy', htail, rfl⟩
    rcases (hcons ..).mp htail with ⟨y, rest, hy, hrest, rfl⟩
    exact ⟨y :: y' :: rest, (hcons ..).mpr ⟨y, _, hy, (hcons ..).mpr ⟨y', rest, hy', hrest, rfl⟩, rfl⟩,
      List.Perm.swap y y' rest⟩
  | trans _ _ ih ih' =>
    rcases ih h with ⟨middle, hmiddle, hperm⟩
    rcases ih' hmiddle with ⟨found', hfound', hperm'⟩
    exact ⟨found', hfound', hperm.trans hperm'⟩

theorem admittedAssets_ok {rows : List AllowlistPolicyAdmissionInput}
    (h : admittedAssets libs (loadAllowlistInventory inventorySha256) rows = .ok admitted) :
    admitted.map Prod.snd = rows ∧ ∀ a ∈ admitted,
      resolveDirectPolicyAsset libs a.2 (loadAllowlistInventory inventorySha256) = .ok a.1 := by
  induction rows generalizing admitted with
  | nil =>
    cases h
    exact ⟨rfl, by simp⟩
  | cons row rest ih =>
    rw [admittedAssets, List.mapM_cons] at h
    rcases bind_ok.mp h with ⟨pair, hpair, h⟩
    rcases bind_ok.mp hpair with ⟨asset, hasset, hpair⟩
    cases hpair
    rcases bind_ok.mp h with ⟨found, hfound, h⟩
    cases h
    rcases ih hfound with ⟨hrows, hall⟩
    exact ⟨by rw [List.map_cons, hrows], List.forall_mem_cons.mpr ⟨hasset, hall⟩⟩

-- What the compiler has when it seals: the rows as the owner wrote them, with their assets.
theorem compileAllowlistPolicyOverlayV2_ok
    (h : compileAllowlistPolicyOverlayV2 libs hashes (loadAllowlistInventory inventorySha256) raw =
      .ok (overlay, registry)) :
    overlay.toAllowlistPolicyOverlayV2Input = raw ∧
      ∃ admitted, admittedAssets libs (loadAllowlistInventory inventorySha256) raw.admissions = .ok admitted ∧
        Accepted admitted ∧ admitted.map Prod.snd = raw.admissions ∧
        validateAssetPolicyRegistry libs hashes registry = .ok registry ∧
        registry.schemaVersion = .v2 ∧ registry.effectiveDate = raw.effectiveAt.day ∧
        registry.effectiveAt = some raw.effectiveAt ∧ registry.expiresAt = raw.expiresAt ∧
        registry.chains = registryChains admitted := by
  rcases bind_ok.mp h with ⟨value, hvalue, hcompile⟩
  rcases overlayInput_ok hvalue with ⟨hsame, hvalid, _, hnodup⟩
  subst hsame
  rcases bind_ok.mp hcompile with ⟨admitted, hadmitted, hseal⟩
  rcases bind_ok.mp hseal with ⟨sealed, hsealed, hpair⟩
  cases hpair
  rcases admittedAssets_ok hadmitted with ⟨hrows, hresolved⟩
  have hmem : ∀ a ∈ admitted, a.2 ∈ value.admissions := by
    intro a ha
    have := List.mem_map_of_mem (f := Prod.snd) ha
    rw [hrows] at this
    exact this
  have haccepted : Accepted admitted := by
    constructor
    · intro a ha
      exact (validateAllowlistAdmission_ok (hvalid a.2 (hmem a ha))).2
    · intro a ha
      rcases resolveDirectPolicyAsset_ok (hresolved a ha) with ⟨_, hchain, hasset⟩
      rw [AllowlistPolicyAdmissionInput.identity, hchain, hasset]
    · intro a ha
      exact (resolveDirectPolicyAsset_ok (hresolved a ha)).1
    · have hidentities : admitted.map (·.2.identity) = value.admissions.map (·.identity) := by
        rw [← hrows, List.map_map]
        rfl
      rw [hidentities]
      exact hnodup
  rcases bind_ok.mp hsealed with ⟨digest, _, hsealed⟩
  have hvalidated := hsealed
  rcases bind_ok.mp hsealed with ⟨_, _, hsealed⟩
  rcases invalid_guard.mp hsealed with ⟨_, hsealed⟩
  cases hsealed
  exact ⟨rfl, admitted, hadmitted, haccepted, hrows, hvalidated, rfl, rfl, rfl, rfl, rfl⟩

variable {a : AdmittedAsset}

theorem compiledRow_fields (h : Accepted admitted) (ha : a ∈ admitted) :
    admissionOf (ofKey admitted a.1.key) a.2.rail = some a.2 := by
  rw [admissionOf, Grouping.find?_eq_some_iff h.rails_nodup]
  exact ⟨mem_ofKey.mpr ⟨a.1, ha, rfl⟩, rfl⟩

-- The registry's own check leaves one row an identity and one network a name.
theorem registry_distinct (h : validateAssetPolicyRegistry libs hashes registry = .ok registry) :
    (registry.chains.map AssetPolicyChain.chain).Nodup ∧
      ∀ chain ∈ registry.chains, (chain.assets.map AssetPolicyRow.asset).Nodup ∧
        ∀ row ∈ chain.assets, validateIdentity libs chain.family row.asset = .ok () := by
  rcases bind_ok.mp h with ⟨_, hbody, _⟩
  rcases invalid_guard.mp hbody with ⟨_, hbody⟩
  rcases invalid_guard.mp hbody with ⟨_, hbody⟩
  rcases invalid_guard.mp hbody with ⟨_, hbody⟩
  rcases invalid_guard.mp hbody with ⟨_, hbody⟩
  rcases bind_ok.mp hbody with ⟨_, hchains, hbody⟩
  rcases invalid_guard.mp hbody with ⟨hnodup, _⟩
  refine ⟨not_not.mp hnodup, fun chain hchain => ?_⟩
  rcases mapM_checked hchains chain hchain with ⟨_, hvalid⟩
  rcases invalid_guard.mp hvalid with ⟨_, hvalid⟩
  rcases bind_ok.mp hvalid with ⟨_, hassets, hvalid⟩
  rcases invalid_guard.mp hvalid with ⟨hdistinct, _⟩
  refine ⟨not_not.mp hdistinct, fun row hrow => ?_⟩
  rcases mapM_checked hassets row hrow with ⟨_, hvalid⟩
  rcases bind_ok.mp hvalid with ⟨_, hasset, _⟩
  rcases invalid_guard.mp hasset with ⟨_, hasset⟩
  rcases bind_ok.mp hasset with ⟨_, hidentity, _⟩
  exact hidentity

theorem evaluateWindow_compiled (hdate : registry.effectiveDate = raw.effectiveAt.day)
    (heffective : registry.effectiveAt = some raw.effectiveAt) (hexpires : registry.expiresAt = raw.expiresAt) :
    evaluateWindow registry.plain input = .ok () ↔ raw.InWindow input := by
  have hnotnone : ¬ (registry.plain.effectiveAt.isNone ∧ registry.plain.expiresAt.isNone) := by
    simp [AssetPolicyRegistry.plain, heffective]
  unfold evaluateWindow AllowlistPolicyOverlayV2Input.InWindow
  rw [blocked_guard, if_neg hnotnone]
  simp only [AssetPolicyRegistry.plain, hdate, heffective, hexpires, Option.any_some, decide_eq_true_eq]
  cases hasOf : input.asOf with
  | none => simp
  | some instant =>
    simp only [invalid_guard, blocked_guard, not_not, not_lt, Option.some.injEq, exists_eq_left', and_true]
    constructor
    · rintro ⟨_, hday, hstart, hend⟩
      refine ⟨hday, hstart, fun expiresAt hsome => ?_⟩
      simpa [hsome] using hend
    · rintro ⟨hday, hstart, hend⟩
      refine ⟨?_, hday, hstart, ?_⟩
      · rw [← hday]
        exact Instant.day_mono hstart
      · cases hexp : raw.expiresAt with
        | none => simp
        | some expiresAt => simpa using hend expiresAt hexp

theorem Accepted.governs_iff (h : Accepted admitted) (ha : a ∈ admitted) :
    a.2.Governs libs input ↔
      a.1.chain = input.chain ∧ a.2.rail = input.rail ∧ requestedIdentity libs input = some a.1.asset := by
  have hnamed := h.named a ha
  simp only [AllowlistPolicyAdmissionInput.identity, Prod.mk.injEq, and_true] at hnamed
  rw [AllowlistPolicyAdmissionInput.Governs, hnamed.1, hnamed.2]
  simp [eq_comm]

-- The compiled row of an asset holds, on the rail of each of its admission rows, that row's fields.
theorem compiledRow_carries (h : Accepted admitted) (ha : a ∈ admitted) :
    (compiledRow admitted a.1).rails a.2.rail = true ∧
      (compiledRow admitted a.1).railCaps a.2.rail = some a.2.caps ∧
      (compiledRow admitted a.1).pins a.2.rail = a.2.mechanism ∧
      (compiledRow admitted a.1).recipients a.2.rail = a.2.recipients ∧
      (a.2.rail = .bridge → (compiledRow admitted a.1).bridgeOptions = a.2.alternatives) ∧
      (a.2.rail = .swap → (compiledRow admitted a.1).swapOptions = a.2.routes) ∧
      (a.2.rail = .gasless → (compiledRow admitted a.1).gaslessRecipient = a.2.recipient) := by
  have hfound := compiledRow_fields h ha
  unfold compiledRow MergedRow.of
  refine ⟨by simp [hfound], by simp [hfound], by simp [hfound], by simp [hfound], ?_, ?_, ?_⟩
  all_goals
    intro hrail
    rw [hrail] at hfound
    simp [hfound]

-- An admission answers for the one row that governs the spend.
theorem evaluate_compiled (h : Accepted admitted)
    (hvalid : validateAssetPolicyRegistry libs hashes registry = .ok registry) (hv2 : registry.schemaVersion = .v2)
    (hdate : registry.effectiveDate = raw.effectiveAt.day) (heffective : registry.effectiveAt = some raw.effectiveAt)
    (hexpires : registry.expiresAt = raw.expiresAt) (hchains : registry.chains = registryChains admitted)
    {admission : AssetPolicyAdmission} :
    evaluateAssetPolicy libs hashes registry input = .ok admission ↔
      raw.InWindow input ∧ ∃ a ∈ admitted, a.2.Governs libs input ∧ a.2.Allows input ∧
        ∃ cap, a.2.capFor input.mechanism = some cap ∧
          admission = ⟨admissionOn registry input ⟨cap, a.2.dailyLimitAtomic⟩, registry.effectiveDate, a.1.family,
            (compiledRow admitted a.1).registryRow⟩ := by
  rcases registry_distinct hvalid with ⟨hdistinct, hassets⟩
  have hfamily : ∀ chain ∈ registry.chains, policyChainFamily chain.chain = some chain.family := by
    intro chain hchain
    rw [hchains] at hchain
    rcases (mem_registryChains h hchain).1 with ⟨a, ha, hsame, hfamily⟩
    rw [← hsame, hfamily]
    exact policyAssets_family _ (h.listed a ha)
  constructor
  · intro hok
    rcases bind_ok.mp hok with ⟨checked, hchecked, hok⟩
    rw [hvalid, Except.ok.injEq] at hchecked
    subst hchecked
    rcases bind_ok.mp hok with ⟨_, hwindow, hok⟩
    refine ⟨(evaluateWindow_compiled hdate heffective hexpires).mp hwindow, ?_⟩
    split at hok
    · simp at hok
    rename_i chain hfind
    rw [Grouping.find?_eq_some_iff hdistinct] at hfind
    rcases hfind with ⟨hchain, hname⟩
    rcases bind_ok.mp hok with ⟨asset, hasset, hok⟩
    split at hok
    · simp at hok
    rename_i row hrow
    rw [Grouping.find?_eq_some_iff (hassets chain hchain).1] at hrow
    rcases hrow with ⟨hrow, hidentity⟩
    rcases bind_ok.mp hok with ⟨base, hbase, hok⟩
    cases hok
    rcases ((mem_registryChains h (hchains ▸ hchain)).2 row).mp hrow with ⟨a, ha, hsame, rfl⟩
    -- the rail is admitted, so some row of this asset is of this rail
    have hrail : (compiledRow admitted a.1).rails input.rail = true := by
      have := (blocked_guard.mp hbase).1
      simpa [MergedRow.registryRow, AssetPolicyRow.plain] using this
    rcases Option.isSome_iff_exists.mp hrail with ⟨found, hfound⟩
    rw [admissionOf, Grouping.find?_eq_some_iff h.rails_nodup, mem_ofKey] at hfound
    rcases hfound with ⟨⟨owner, howner, hkey⟩, hfoundRail⟩
    have hsameAsset : owner = a.1 := h.asset_unique howner ha hkey
    subst hsameAsset
    have hcarried := compiledRow_carries h howner
    have hiff : ∀ {base}, evaluateRow registry.plain input (compiledRow admitted a.1).registryRow.plain = .ok base ↔ _ :=
      evaluateRow_compiled hv2 (h.sound _ howner) hfoundRail.symm hcarried.1 hcarried.2.1 hcarried.2.2.2.2.1
    have hbase := hiff.mp hbase
    rcases hbase with ⟨hallows, cap, hcap, rfl⟩
    refine ⟨_, howner, (h.governs_iff howner).mpr ⟨hsame.trans hname, hfoundRail, ?_⟩, hallows, cap, hcap, ?_⟩
    · have hasset' : asset = a.1.asset := hidentity.symm
      rw [requestedIdentity, ← hname, hfamily chain hchain, Option.bind_some, hasset, hasset']
      rfl
    · rcases (mem_registryChains h (hchains ▸ hchain)).1 with ⟨b, hb, hchain', hfamily'⟩
      rw [hfamily', (policyAssets_network _ (h.listed b hb) _ (h.listed _ ha) (hchain'.trans hsame.symm)).1]
  · rintro ⟨hwindow, a, ha, hgoverns, hallows, cap, hcap, rfl⟩
    rcases (h.governs_iff ha).mp hgoverns with ⟨hchain, hrail, hrequested⟩
    rcases exists_registryChain h ha with ⟨chain, hmem, hname⟩
    rw [← hchains] at hmem
    have hrow := ((mem_registryChains h (hchains ▸ hmem)).2 (compiledRow admitted a.1).registryRow).mpr
      ⟨a, ha, hname.symm, rfl⟩
    have hcarried := compiledRow_carries h ha
    apply bind_ok.mpr
    refine ⟨registry, hvalid, ?_⟩
    apply bind_ok.mpr
    refine ⟨(), (evaluateWindow_compiled hdate heffective hexpires).mpr hwindow, ?_⟩
    rw [(Grouping.find?_eq_some_iff hdistinct).mpr ⟨hmem, hname.trans hchain⟩]
    have hasset : requestedAsset libs chain.family input.asset = .ok a.1.asset := by
      rw [requestedIdentity, ← hchain, ← hname, hfamily chain hmem, Option.bind_some] at hrequested
      cases hr : requestedAsset libs chain.family input.asset with
      | error e => rw [hr] at hrequested; cases hrequested
      | ok asset => rw [hr] at hrequested; cases hrequested; rfl
    apply bind_ok.mpr
    refine ⟨a.1.asset, hasset, ?_⟩
    have hfind : chain.assets.find? (fun r => r.asset = a.1.asset) = some (compiledRow admitted a.1).registryRow :=
      (Grouping.find?_eq_some_iff (hassets chain hmem).1).mpr ⟨hrow, rfl⟩
    rw [hfind]
    apply bind_ok.mpr
    have hiff : ∀ {base}, evaluateRow registry.plain input (compiledRow admitted a.1).registryRow.plain = .ok base ↔ _ :=
      evaluateRow_compiled hv2 (h.sound a ha) hrail.symm hcarried.1 hcarried.2.1 hcarried.2.2.2.2.1
    refine ⟨_, hiff.mpr ⟨hallows, cap, hcap, rfl⟩, ?_⟩
    rcases (mem_registryChains h (hchains ▸ hmem)).1 with ⟨b, hb, hchain', hfamily'⟩
    rw [hfamily', (policyAssets_network _ (h.listed b hb) _ (h.listed a ha) (hchain'.trans hname)).1]

-- A spend that spells its asset as the row does is governed by it.
theorem governs_of_spelling (h : Accepted admitted)
    (hvalid : validateAssetPolicyRegistry libs hashes registry = .ok registry)
    (hchains : registry.chains = registryChains admitted) (ha : a ∈ admitted)
    (hchain : a.2.chain = input.chain) (hrail : a.2.rail = input.rail) (hasset : a.2.asset? = some input.asset) :
    a.2.Governs libs input := by
  have hnamed := h.named a ha
  simp only [AllowlistPolicyAdmissionInput.identity, Prod.mk.injEq, and_true] at hnamed
  have hsame : a.1.asset = input.asset := Option.some.inj (hnamed.2.symm.trans hasset)
  rw [h.governs_iff ha]
  refine ⟨hnamed.1.symm.trans hchain, hrail, ?_⟩
  rcases exists_registryChain h ha with ⟨chain, hmem, hname⟩
  rcases mem_registryChains h hmem with ⟨⟨b, hb, hchain', hfamily'⟩, hrows⟩
  have hfamily : policyChainFamily input.chain = some chain.family := by
    rw [← hchain, hnamed.1, ← hname, ← hchain', hfamily']
    exact policyAssets_family _ (h.listed b hb)
  have hrow := (hrows (compiledRow admitted a.1).registryRow).mpr ⟨a, ha, hname.symm, rfl⟩
  have hidentity : validateIdentity libs chain.family a.1.asset = .ok () :=
    ((registry_distinct hvalid).2 chain (hchains ▸ hmem)).2 _ hrow
  rw [requestedIdentity, hfamily, Option.bind_some, ← hsame]
  cases hkind : a.1.asset with
  | native => rfl
  | token identifier =>
    rw [hkind] at hidentity
    rcases bind_ok.mp hidentity with ⟨canonical, hcanonical, hguard⟩
    have hspelled := (invalid_guard.mp hguard).1
    rw [ne_eq, not_not] at hspelled
    rw [requestedAsset, hcanonical, hspelled]
    rfl

end Compiled

/-- The compiled policy admits a spend iff the owner's row for it does, answers with that row's own pin,
alternatives and recipients, and does not depend on the order the rows were written in. -/
theorem compiled_policy_admits_exactly {libs : PolicyLibraries} {hashes : PolicyHashes} {inventorySha256 : String}
    {raw : AllowlistPolicyOverlayV2Input} {overlay : AllowlistPolicyOverlayV2} {registry : AssetPolicyRegistry}
    (h : compileAllowlistPolicyOverlayV2 libs hashes (loadAllowlistInventory inventorySha256) raw =
      .ok (overlay, registry)) :
    (∀ input, (∃ admission, evaluateAssetPolicy libs hashes registry input = .ok admission) ↔
      overlay.InWindow input ∧ ∃ row ∈ overlay.admissions, row.Governs libs input ∧ row.Allows input) ∧
    (∀ input admission, evaluateAssetPolicy libs hashes registry input = .ok admission →
      ∀ row ∈ overlay.admissions, row.Governs libs input → admission.Carries row input.mechanism) ∧
    (∀ row ∈ overlay.admissions, ∀ input, row.chain = input.chain → row.rail = input.rail →
      row.asset? = some input.asset → row.Governs libs input) ∧
    (∀ admissions, overlay.admissions.Perm admissions → ∃ overlay' : AllowlistPolicyOverlayV2,
      compileAllowlistPolicyOverlayV2 libs hashes (loadAllowlistInventory inventorySha256)
        { raw with admissions := admissions } = .ok (overlay', registry) ∧ overlay'.admissions = admissions) := by
  rcases compileAllowlistPolicyOverlayV2_ok h with
    ⟨hraw, admitted, hadmitted, haccepted, hrows, hvalid, hv2, hdate, heffective, hexpires, hchains⟩
  have hevaluate := fun input admission =>
    (evaluate_compiled haccepted hvalid hv2 hdate heffective hexpires hchains :
      evaluateAssetPolicy libs hashes registry input = .ok admission ↔ _)
  have howner : ∀ row ∈ raw.admissions, ∃ asset, (asset, row) ∈ admitted := by
    intro row hrow
    rw [← hrows, List.mem_map] at hrow
    rcases hrow with ⟨⟨asset, row⟩, hmem, rfl⟩
    exact ⟨asset, hmem⟩
  have hlisted : ∀ a ∈ admitted, a.2 ∈ raw.admissions := by
    intro a ha
    rw [← hrows]
    exact List.mem_map_of_mem ha
  rw [hraw]
  refine ⟨fun input => ⟨?_, ?_⟩, ?_, ?_, ?_⟩
  · rintro ⟨admission, hok⟩
    rcases (hevaluate input admission).mp hok with ⟨hwindow, a, ha, hgoverns, hallows, _⟩
    exact ⟨hwindow, a.2, hlisted a ha, hgoverns, hallows⟩
  · rintro ⟨hwindow, row, hrow, hgoverns, hallows⟩
    rcases howner row hrow with ⟨asset, hmem⟩
    rcases hallows.2.1 with ⟨cap, hcap, _⟩
    exact ⟨_, (hevaluate input _).mpr ⟨hwindow, (asset, row), hmem, hgoverns, hallows, cap, hcap, rfl⟩⟩
  · intro input admission hok row hrow hgoverns
    rcases howner row hrow with ⟨asset, hmem⟩
    rcases (hevaluate input admission).mp hok with ⟨_, a, ha, hother, _, cap, hcap, rfl⟩
    -- two rows that govern one spend are one row
    rcases (haccepted.governs_iff ha).mp hother with ⟨hchain, hrail, hasset⟩
    rcases (haccepted.governs_iff hmem).mp hgoverns with ⟨hchain', hrail', hasset'⟩
    have hidentity : a.2.identity = (asset, row).2.identity := by
      rw [hasset] at hasset'
      rw [haccepted.named a ha, haccepted.named _ hmem, hchain, hchain', hrail, hrail', hasset']
    have hsame : a = (asset, row) := List.inj_on_of_nodup_map haccepted.distinct ha hmem hidentity
    subst hsame
    have hcarried := compiledRow_carries haccepted ha
    exact ⟨hrail.symm, ⟨hcap, rfl⟩, hcarried.2.2.1, hcarried.2.2.2.1, hcarried.2.2.2.2.1, hcarried.2.2.2.2.2.1,
      hcarried.2.2.2.2.2.2⟩
  · intro row hrow input hchain hrail hasset
    rcases howner row hrow with ⟨asset, hmem⟩
    exact governs_of_spelling haccepted hvalid hchains hmem hchain hrail hasset
  · intro admissions hperm
    rcases bind_ok.mp h with ⟨value, hvalue, hcompile⟩
    rcases mapM_perm hperm hadmitted with ⟨admitted', hadmitted', hpermuted⟩
    rcases bind_ok.mp hcompile with ⟨found, hfound, hseal⟩
    have hvalueRaw : value = raw := (overlayInput_ok hvalue).1
    subst hvalueRaw
    have hsame : found = admitted := Except.ok.inj (hfound.symm.trans hadmitted)
    subst hsame
    rcases bind_ok.mp hseal with ⟨sealed, hsealed, hpair⟩
    cases hpair
    rw [registryChains_perm haccepted hpermuted] at hsealed
    refine ⟨_, bind_ok.mpr ⟨_, overlayInput_perm hperm hvalue, bind_ok.mpr ⟨admitted', hadmitted',
      bind_ok.mpr ⟨_, hsealed, rfl⟩⟩⟩, rfl⟩

section Sample

def baseUsdc : String := "0x833589fCD6eDb6E08f4c7C32D4f71b54bdA02913"

def sampleOwner : String := "0x0b2C639c533813f4Aa9D7837CAf62653d097Ff85"

/-- The libraries on the addresses the sample names. -/
def sampleLibraries : PolicyLibraries where
  getAddress := fun value => if value = baseUsdc ∨ value = sampleOwner then some value else none
  solanaAddress := fun _ => none
  tronAddress := fun _ => none
  validateSwapAdmissionMechanism := fun _ => false
  swapRouteDigest := fun m => m.routerProgramIdentity
  uniswapWbtcRouteDigest := ""

def sampleHashes : PolicyHashes where
  policyDigest := fun _ => "0000000000000000000000000000000000000000000000000000000000000000"
  overlayDigest := fun _ => ""
  profileHash := fun profile => profile

/-- USDC on Base, sent directly to one recipient, or bridged by either of two mechanisms. -/
def sampleOverlay : AllowlistPolicyOverlayV2Input where
  overlayVersion := "v1"
  profile := "main"
  accounts := fun family => if family = .evm then some sampleOwner else none
  datasetVersion := (loadAllowlistInventory "").version
  datasetSha256 := (loadAllowlistInventory "").sha256
  inventorySha256 := ""
  effectiveAt := .epoch
  expiresAt := none
  admissions := [
    { chain := "eip155:8453", kind := .token, identifier := some baseUsdc, rail := .bridge,
      maximumPerTransferAtomic := none, dailyLimitAtomic := 50, mechanism := none, recipient := none,
      recipients := none,
      mechanisms := some (.bridge [⟨⟨⟨"lifi", "across-v4"⟩, 20⟩, none⟩, ⟨⟨⟨"circle", "v2"⟩, 30⟩, none⟩]) },
    { chain := "eip155:8453", kind := .token, identifier := some baseUsdc, rail := .direct,
      maximumPerTransferAtomic := some 10, dailyLimitAtomic := 40, mechanism := none, recipient := none,
      recipients := some [sampleOwner], mechanisms := none }]

def sampleCompilation : Result (AllowlistPolicyOverlayV2 × AssetPolicyRegistry) :=
  compileAllowlistPolicyOverlayV2 sampleLibraries sampleHashes (loadAllowlistInventory "") sampleOverlay

theorem sampleCompilation_ok : sampleCompilation.toOption.isSome = true := by
  decide +kernel

def sampleSpend (mechanism : Mechanism) : AssetPolicyEvaluationInput where
  chain := "eip155:8453"
  asset := .token baseUsdc
  rail := .bridge
  mechanism := some mechanism
  amountAtomic := 25
  dailyUsageAtomic := 10
  asOfDate := 0
  asOf := some .epoch

/-- 25 fits the second alternative and not the first, although both are of one row. -/
theorem compiled_policy_admits_exactly_sample :
    ∃ overlay registry, sampleCompilation = .ok (overlay, registry) ∧
      (∃ admission, evaluateAssetPolicy sampleLibraries sampleHashes registry (sampleSpend ⟨"circle", "v2"⟩) =
        .ok admission) ∧
      ¬ ∃ admission, evaluateAssetPolicy sampleLibraries sampleHashes registry
        (sampleSpend ⟨"lifi", "across-v4"⟩) = .ok admission := by
  have hsome := sampleCompilation_ok
  cases hcompiled : sampleCompilation with
  | error e => rw [hcompiled] at hsome; cases hsome
  | ok pair =>
    rcases pair with ⟨overlay, registry⟩
    have hraw : overlay.toAllowlistPolicyOverlayV2Input = sampleOverlay :=
      (compileAllowlistPolicyOverlayV2_ok hcompiled).1
    rcases compiled_policy_admits_exactly hcompiled with ⟨hadmits, _⟩
    rw [hraw] at hadmits
    refine ⟨overlay, registry, rfl, ?_, ?_⟩
    · rw [hadmits]
      refine ⟨⟨.epoch, rfl, by decide, le_refl _, by simp [sampleOverlay]⟩, _, List.mem_cons_self .., ?_, ?_⟩
      · exact ⟨rfl, rfl, rfl, by decide +kernel⟩
      · exact ⟨by decide, ⟨30, by decide +kernel, by decide⟩, by decide⟩
    · rw [hadmits]
      rintro ⟨-, row, hrow, hgoverns, hallows⟩
      rcases hallows.2.1 with ⟨cap, hcap, hle⟩
      simp only [sampleOverlay, List.mem_cons, List.not_mem_nil, or_false] at hrow
      rcases hrow with rfl | rfl
      · have hsmall : (some 20 : Option ℕ) = some cap := by
          rw [← hcap]
          decide +kernel
        cases hsmall
        exact absurd hle (by decide)
      · exact absurd hgoverns.2.1 (by decide)

end Sample
end PaymentNode.Allowlist
