import PaymentNode.Policy.Registry
import PaymentNode.Lib.Grouping
import Mathlib.Data.String.Basic

/-!
# Compile — many admission rows become one registry

Rows of one asset are merged into one registry row whose caps, pins and recipient lists are kept by rail;
the merged rows are grouped by network, both levels are sorted, and the result is sealed.

`MergedRow.of` says what a merged row holds: for each rail the fields of the one admission row of that rail.
`foldl_merge` shows that merging builds it, so a field of one rail is never another's, and `registryChains_perm`
that sorting forgets the order of the rows.
-/

namespace PaymentNode.Allowlist

structure MergedRow where
  asset : CandidateAsset
  rails : AssetPolicyRail → Bool
  railCaps : AssetPolicyRail → Option AssetAtomicCaps
  pins : AssetPolicyRail → Option AllowlistAdmissionMechanismPin
  gaslessRecipient : Option String
  recipients : AssetPolicyRail → Option (List String)
  bridgeOptions : Option (List BridgeAlternative)
  swapOptions : Option (List SwapAdmissionMechanism)

def MergedRow.fresh (asset : CandidateAsset) : MergedRow where
  asset := asset
  rails := fun _ => false
  railCaps := fun _ => none
  pins := fun _ => none
  gaslessRecipient := none
  recipients := fun _ => none
  bridgeOptions := none
  swapOptions := none

/-- The bridge alternatives of a row; a row whose cap is its own has none. -/
def AllowlistPolicyAdmissionInput.alternatives (row : AllowlistPolicyAdmissionInput) :
    Option (List BridgeAlternative) :=
  match row.mechanisms with
  | some (.bridge alternatives) => some alternatives
  | _ => none

def AllowlistPolicyAdmissionInput.routes (row : AllowlistPolicyAdmissionInput) :
    Option (List SwapAdmissionMechanism) :=
  match row.mechanisms with
  | some (.swap routes) => some routes
  | _ => none

/-- The cap pair of a row on its rail: its own cap, or the largest of its alternatives. -/
def AllowlistPolicyAdmissionInput.caps (row : AllowlistPolicyAdmissionInput) : AssetAtomicCaps :=
  ⟨row.maximumPerTransferAtomic.getD (maximumMechanismCap (row.alternatives.getD [])), row.dailyLimitAtomic⟩

def MergedRow.merge (row : MergedRow) (admission : AllowlistPolicyAdmissionInput) : MergedRow where
  asset := row.asset
  rails := Function.update row.rails admission.rail true
  railCaps := Function.update row.railCaps admission.rail (some admission.caps)
  pins := if admission.mechanism.isSome then Function.update row.pins admission.rail admission.mechanism else row.pins
  gaslessRecipient := if admission.recipient.isSome then admission.recipient else row.gaslessRecipient
  recipients :=
    if admission.recipients.isSome ∧ isRecipientPinRail admission.rail then
      Function.update row.recipients admission.rail admission.recipients
    else row.recipients
  swapOptions :=
    if admission.mechanisms.isSome ∧ admission.rail = .swap then admission.routes else row.swapOptions
  bridgeOptions :=
    if admission.mechanisms.isSome ∧ admission.rail ≠ .swap then admission.alternatives else row.bridgeOptions

def MergedRow.registryRow (row : MergedRow) : AssetPolicyRow where
  asset := row.asset.asset
  symbol := row.asset.symbol
  decimals := row.asset.decimals
  rails := row.rails
  caps := none
  railCaps := row.railCaps
  mechanismPins := row.pins
  bridgeOptions := row.bridgeOptions
  swapOptions := row.swapOptions
  gaslessRecipient := row.gaslessRecipient
  recipients := row.recipients

abbrev AdmittedAsset := CandidateAsset × AllowlistPolicyAdmissionInput

def admittedAssets (libs : PolicyLibraries) (inventory : AllowlistInventory)
    (admissions : List AllowlistPolicyAdmissionInput) : Result (List AdmittedAsset) :=
  admissions.mapM fun admission => do
    let asset ← resolveDirectPolicyAsset libs admission inventory
    .ok (asset, admission)

abbrev AssetKey := String × Asset

def CandidateAsset.key (asset : CandidateAsset) : AssetKey := (asset.chain, asset.asset)

/-- `merged`, by network and identity. -/
def mergedRows (admitted : List AdmittedAsset) : List (AssetKey × MergedRow) :=
  Grouping.group (fun a : AdmittedAsset => a.1.key) (fun a => .fresh a.1) (fun row a => row.merge a.2) [] admitted

def freshChain (row : MergedRow) : AssetPolicyChain :=
  ⟨row.asset.chain, row.asset.family, row.asset.networkName, []⟩

def addRow (chain : AssetPolicyChain) (row : MergedRow) : AssetPolicyChain :=
  { chain with assets := chain.assets ++ [row.registryRow] }

/-- `chains`, by network. -/
def mergedChains (rows : List MergedRow) : List (String × AssetPolicyChain) :=
  Grouping.group (fun row : MergedRow => row.asset.chain) freshChain addRow [] rows

def assetSortKey : Asset → String
  | .native => "native:"
  | .token identifier => "token:" ++ identifier

def sortedAssets (chain : AssetPolicyChain) : AssetPolicyChain :=
  { chain with assets := Grouping.sortBy (fun row : AssetPolicyRow => assetSortKey row.asset) chain.assets }

def registryChains (admitted : List AdmittedAsset) : List AssetPolicyChain :=
  (Grouping.sortBy AssetPolicyChain.chain ((mergedChains ((mergedRows admitted).map Prod.snd)).map Prod.snd)).map
    sortedAssets

structure AllowlistPolicyOverlayV2 extends AllowlistPolicyOverlayV2Input where
  profileHash : String
  overlayDigest : String

def compileAllowlistPolicyOverlayV2 (libs : PolicyLibraries) (hashes : PolicyHashes)
    (inventory : AllowlistInventory) (raw : AllowlistPolicyOverlayV2Input) :
    Result (AllowlistPolicyOverlayV2 × AssetPolicyRegistry) := do
  let value ← overlayInput libs raw inventory
  let overlay : AllowlistPolicyOverlayV2 :=
    ⟨value, hashes.profileHash value.profile, hashes.overlayDigest value⟩
  let admitted ← admittedAssets libs inventory overlay.admissions
  let registry ← sealAssetPolicyRegistry libs hashes {
    schemaVersion := .v2
    registryVersion := overlay.overlayVersion
    publishedAt := overlay.effectiveAt
    effectiveDate := overlay.effectiveAt.day
    effectiveAt := some overlay.effectiveAt
    expiresAt := overlay.expiresAt
    chains := registryChains admitted }
  .ok (overlay, registry)

section Merging

/-- The merged row of an asset under one admission row a rail. -/
def MergedRow.of (asset : CandidateAsset) (admission : AssetPolicyRail → Option AllowlistPolicyAdmissionInput) :
    MergedRow where
  asset := asset
  rails := fun rail => (admission rail).isSome
  railCaps := fun rail => (admission rail).map (·.caps)
  pins := fun rail => (admission rail).bind (·.mechanism)
  gaslessRecipient := (admission .gasless).bind (·.recipient)
  recipients := fun rail => (admission rail).bind (·.recipients)
  bridgeOptions := (admission .bridge).bind (·.alternatives)
  swapOptions := (admission .swap).bind (·.routes)

/-- The admission row of a rail. -/
def admissionOf (admissions : List AllowlistPolicyAdmissionInput) (rail : AssetPolicyRail) :
    Option AllowlistPolicyAdmissionInput :=
  admissions.find? fun a => a.rail = rail

variable {asset : CandidateAsset} {admission : AssetPolicyRail → Option AllowlistPolicyAdmissionInput}
  {row : AllowlistPolicyAdmissionInput}

theorem SoundAdmission.alternatives (h : SoundAdmission row) (hrail : row.rail ≠ .bridge) :
    row.alternatives = none := by
  unfold AllowlistPolicyAdmissionInput.alternatives
  split
  · rename_i alternatives hsome
    exact absurd (h.bridged alternatives hsome).1 hrail
  · rfl

-- A row adds its own rail to a merged row that has none of it, and nothing else.
theorem MergedRow.of_merge (h : SoundAdmission row) (hfree : admission row.rail = none) :
    (MergedRow.of asset admission).merge row = MergedRow.of asset (Function.update admission row.rail (some row)) := by
  have hpins : (if row.mechanism.isSome then
      Function.update (fun rail => (admission rail).bind (·.mechanism)) row.rail row.mechanism
      else fun rail => (admission rail).bind (·.mechanism)) =
      fun rail => (Function.update admission row.rail (some row) rail).bind (·.mechanism) := by
    funext rail
    by_cases hrail : rail = row.rail
    · subst hrail
      cases hm : row.mechanism with
      | none => simp [hm, hfree]
      | some m => simp [hm]
    · by_cases hm : row.mechanism.isSome <;> simp [hm, Function.update_of_ne hrail]
  have hrecipients : (if row.recipients.isSome ∧ isRecipientPinRail row.rail then
      Function.update (fun rail => (admission rail).bind (·.recipients)) row.rail row.recipients
      else fun rail => (admission rail).bind (·.recipients)) =
      fun rail => (Function.update admission row.rail (some row) rail).bind (·.recipients) := by
    funext rail
    by_cases hrail : rail = row.rail
    · subst hrail
      by_cases hr : row.recipients.isSome
      · simp [hr, h.pinned hr]
      · simp [Option.not_isSome_iff_eq_none.mp hr, hfree]
    · split <;> simp [Function.update_of_ne hrail]
  have hrails : Function.update (fun rail => (admission rail).isSome) row.rail true =
      fun rail => (Function.update admission row.rail (some row) rail).isSome := by
    funext rail
    by_cases hrail : rail = row.rail
    · subst hrail
      simp
    · simp [Function.update_of_ne hrail]
  have hcaps : Function.update (fun rail => (admission rail).map (·.caps)) row.rail (some row.caps) =
      fun rail => (Function.update admission row.rail (some row) rail).map (·.caps) := by
    funext rail
    by_cases hrail : rail = row.rail
    · subst hrail
      simp
    · simp [Function.update_of_ne hrail]
  have hgasless : (if row.recipient.isSome then row.recipient else (admission .gasless).bind (·.recipient)) =
      (Function.update admission row.rail (some row) .gasless).bind (·.recipient) := by
    by_cases hrail : row.rail = .gasless
    · rw [hrail] at hfree ⊢
      cases hr : row.recipient <;> simp [hr, hfree]
    · have hnone : row.recipient = none := by
        by_contra hsome
        exact hrail (h.received (Option.isSome_iff_ne_none.mpr hsome))
      simp [hnone, Function.update_of_ne (Ne.symm hrail)]
  have hswap : (if row.mechanisms.isSome ∧ row.rail = .swap then row.routes
      else (admission .swap).bind (·.routes)) =
      (Function.update admission row.rail (some row) .swap).bind (·.routes) := by
    by_cases hrail : row.rail = .swap
    · rw [hrail] at hfree ⊢
      cases hm : row.mechanisms <;> simp [hfree, hm, AllowlistPolicyAdmissionInput.routes]
    · simp [hrail, Function.update_of_ne (Ne.symm hrail)]
  have hbridge : (if row.mechanisms.isSome ∧ row.rail ≠ .swap then row.alternatives
      else (admission .bridge).bind (·.alternatives)) =
      (Function.update admission row.rail (some row) .bridge).bind (·.alternatives) := by
    by_cases hrail : row.rail = .bridge
    · rw [hrail] at hfree ⊢
      cases hm : row.mechanisms <;> simp [hfree, hm, AllowlistPolicyAdmissionInput.alternatives]
    · rw [Function.update_of_ne (Ne.symm hrail)]
      split
      · rename_i hsome
        -- a row with mechanisms on neither rail would break its own check
        cases hm : row.mechanisms with
        | none => simp [hm] at hsome
        | some mechanisms =>
          cases mechanisms with
          | bridge alternatives => exact absurd (h.bridged alternatives hm).1 hrail
          | swap routes => exact absurd (h.routed routes hm).1 hsome.2
      · rfl
  unfold MergedRow.merge MergedRow.of
  simp only [MergedRow.mk.injEq, true_and]
  exact ⟨hrails, hcaps, hpins, hgasless, hrecipients, hbridge, hswap⟩

-- Merging the rows of one asset gives each rail its own row.
theorem foldl_merge {rows : List AllowlistPolicyAdmissionInput} (hsound : ∀ row ∈ rows, SoundAdmission row)
    (hrails : (rows.map (·.rail)).Nodup) (hfree : ∀ row ∈ rows, admission row.rail = none) :
    rows.foldl MergedRow.merge (MergedRow.of asset admission) =
      MergedRow.of asset fun rail => (admissionOf rows rail).or (admission rail) := by
  induction rows generalizing admission with
  | nil => rfl
  | cons row rest ih =>
    rw [List.map_cons, List.nodup_cons] at hrails
    have hapart : ∀ other ∈ rest, other.rail ≠ row.rail := by
      intro other hother hsame
      exact hrails.1 (hsame ▸ List.mem_map_of_mem hother)
    rw [List.foldl_cons, MergedRow.of_merge (hsound row (List.mem_cons_self ..)) (hfree row (List.mem_cons_self ..))]
    rw [ih (fun other hother => hsound other (List.mem_cons_of_mem _ hother)) hrails.2]
    · congr 1
      funext rail
      by_cases hrail : row.rail = rail
      · subst hrail
        have hnone : admissionOf rest row.rail = none := by
          rw [admissionOf, List.find?_eq_none]
          intro other hother
          simpa using hapart other hother
        have hown : admissionOf (row :: rest) row.rail = some row := by simp [admissionOf]
        simp [hnone, hown]
      · simp [admissionOf, hrail, Function.update_of_ne (Ne.symm hrail)]
    · intro other hother
      rw [Function.update_of_ne (hapart other hother)]
      exact hfree other (List.mem_cons_of_mem _ hother)

end Merging

section Grouped

/-- What the compiler knows of the rows it merges: each is sound and names a listed asset, and no two are of
one asset and rail. -/
structure Accepted (admitted : List AdmittedAsset) : Prop where
  sound : ∀ a ∈ admitted, SoundAdmission a.2
  named : ∀ a ∈ admitted, a.2.identity = (a.1.chain, some a.1.asset, a.2.rail)
  listed : ∀ a ∈ admitted, a.1 ∈ policyAssets
  distinct : (admitted.map (·.2.identity)).Nodup

/-- The admission rows of one asset. -/
def ofKey (admitted : List AdmittedAsset) (key : AssetKey) : List AllowlistPolicyAdmissionInput :=
  (admitted.filter fun a => a.1.key = key).map Prod.snd

/-- The registry row the compiler makes of one asset. -/
def compiledRow (admitted : List AdmittedAsset) (asset : CandidateAsset) : MergedRow :=
  MergedRow.of asset (admissionOf (ofKey admitted asset.key))

variable {admitted admitted' : List AdmittedAsset} {key : AssetKey}

theorem mem_ofKey {row : AllowlistPolicyAdmissionInput} :
    row ∈ ofKey admitted key ↔ ∃ asset, (asset, row) ∈ admitted ∧ asset.key = key := by
  simp only [ofKey, List.mem_map, List.mem_filter, decide_eq_true_eq]
  constructor
  · rintro ⟨⟨asset, row⟩, ⟨hmem, hkey⟩, rfl⟩
    exact ⟨asset, hmem, hkey⟩
  · rintro ⟨asset, hmem, hkey⟩
    exact ⟨(asset, row), ⟨hmem, hkey⟩, rfl⟩

theorem Accepted.asset_unique (h : Accepted admitted) {a b : AdmittedAsset} (ha : a ∈ admitted) (hb : b ∈ admitted)
    (hkey : a.1.key = b.1.key) : a.1 = b.1 := by
  rw [CandidateAsset.key, CandidateAsset.key, Prod.mk.injEq] at hkey
  exact policyAssets_unique _ (h.listed a ha) _ (h.listed b hb) hkey.1 hkey.2

theorem Accepted.rails_nodup (h : Accepted admitted) : ((ofKey admitted key).map (·.rail)).Nodup := by
  have hidentity : ∀ a ∈ admitted.filter fun a => a.1.key = key,
      a.2.identity = (key.1, some key.2, a.2.rail) := by
    intro a ha
    rw [List.mem_filter, decide_eq_true_eq] at ha
    rw [h.named a ha.1, ← ha.2, CandidateAsset.key]
  have hnodup : ((admitted.filter fun a => a.1.key = key).map (·.2.identity)).Nodup :=
    h.distinct.sublist (List.Sublist.map _ List.filter_sublist)
  rw [List.map_congr_left hidentity] at hnodup
  rw [ofKey, List.map_map]
  refine List.Nodup.of_map (fun rail => (key.1, some key.2, rail)) ?_
  rw [List.map_map]
  exact hnodup

theorem nodup_mergedRows : ((mergedRows admitted).map Prod.fst).Nodup :=
  Grouping.nodup_group (by simp)

-- The merged rows are those of the assets the rows name.
theorem get_mergedRows (h : Accepted admitted) {row : MergedRow} :
    Grouping.get key (mergedRows admitted) = some row ↔
      ∃ a ∈ admitted, a.1.key = key ∧ row = compiledRow admitted a.1 := by
  rw [mergedRows, Grouping.get_group]
  change List.foldl _ none _ = _ ↔ _
  cases hfilter : admitted.filter fun a => a.1.key = key with
  | nil =>
    rw [List.filter_eq_nil_iff] at hfilter
    simp only [List.foldl_nil, reduceCtorEq, false_iff, not_exists, not_and]
    intro a ha hkey
    exact absurd hkey (by simpa using hfilter a ha)
  | cons a rest =>
    have hmem : a ∈ admitted ∧ a.1.key = key := by
      have := hfilter ▸ List.mem_cons_self (a := a) (l := rest)
      simpa using List.mem_filter.mp this
    have hrows : (a :: rest).map Prod.snd = ofKey admitted a.1.key := by
      rw [ofKey, hmem.2, hfilter]
    have hfold : (a :: rest).foldl (fun row (b : AdmittedAsset) => row.merge b.2) (MergedRow.fresh a.1) =
        compiledRow admitted a.1 := by
      have hmap : ((a :: rest).map Prod.snd).foldl MergedRow.merge (MergedRow.fresh a.1) = _ := List.foldl_map
      rw [← hmap, hrows]
      have hsound : ∀ row ∈ ofKey admitted a.1.key, SoundAdmission row := by
        intro row hrow
        rcases mem_ofKey.mp hrow with ⟨asset, hadmitted, _⟩
        exact h.sound _ hadmitted
      have hmerge : (ofKey admitted a.1.key).foldl MergedRow.merge (MergedRow.of a.1 fun _ => none) = _ :=
        foldl_merge hsound h.rails_nodup (fun _ _ => rfl)
      simp only [Option.or_none] at hmerge
      exact hmerge
    rw [Grouping.foldl_act_cons, hfold, Option.some.injEq]
    constructor
    · intro hrow
      exact ⟨a, hmem.1, hmem.2, hrow.symm⟩
    · rintro ⟨b, hb, hkey, rfl⟩
      rw [h.asset_unique hmem.1 hb (hmem.2.trans hkey.symm)]

theorem mem_mergedRows (h : Accepted admitted) {row : MergedRow} :
    row ∈ (mergedRows admitted).map Prod.snd ↔ ∃ a ∈ admitted, row = compiledRow admitted a.1 := by
  rw [List.mem_map]
  constructor
  · rintro ⟨⟨key, row⟩, hmem, rfl⟩
    rcases (get_mergedRows h).mp ((Grouping.mem_iff_get nodup_mergedRows).mp hmem) with ⟨a, ha, _, hrow⟩
    exact ⟨a, ha, hrow⟩
  · rintro ⟨a, ha, rfl⟩
    exact ⟨(a.1.key, _), (Grouping.mem_iff_get nodup_mergedRows).mpr ((get_mergedRows h).mpr ⟨a, ha, rfl, rfl⟩), rfl⟩

theorem foldl_addRow {rows : List MergedRow} {chain : AssetPolicyChain} :
    rows.foldl addRow chain = { chain with assets := chain.assets ++ rows.map MergedRow.registryRow } := by
  induction rows generalizing chain with
  | nil => simp
  | cons row rest ih =>
    rw [List.foldl_cons, ih]
    simp [addRow]

/-- The registry rows of one network, in the order they were merged. -/
def chainRows (rows : List MergedRow) (chain : String) : List AssetPolicyRow :=
  (rows.filter fun row => row.asset.chain = chain).map MergedRow.registryRow

theorem get_mergedChains {rows : List MergedRow} (hlisted : ∀ row ∈ rows, row.asset ∈ policyAssets)
    {chain : String} {c : AssetPolicyChain} :
    Grouping.get chain (mergedChains rows) = some c ↔
      ∃ row ∈ rows, row.asset.chain = chain ∧
        c = ⟨chain, row.asset.family, row.asset.networkName, chainRows rows chain⟩ := by
  rw [mergedChains, Grouping.get_group]
  change List.foldl _ none _ = _ ↔ _
  cases hfilter : rows.filter fun row => row.asset.chain = chain with
  | nil =>
    rw [List.filter_eq_nil_iff] at hfilter
    simp only [List.foldl_nil, reduceCtorEq, false_iff, not_exists, not_and]
    intro row hrow hchain
    exact absurd hchain (by simpa using hfilter row hrow)
  | cons row rest =>
    have hmem : row ∈ rows ∧ row.asset.chain = chain := by
      have := hfilter ▸ List.mem_cons_self (a := row) (l := rest)
      simpa using List.mem_filter.mp this
    have hfold : (row :: rest).foldl addRow (freshChain row) =
        ⟨chain, row.asset.family, row.asset.networkName, chainRows rows chain⟩ := by
      rw [foldl_addRow, freshChain, chainRows, hfilter, hmem.2]
      rfl
    rw [Grouping.foldl_act_cons, hfold, Option.some.injEq]
    constructor
    · intro hc
      exact ⟨row, hmem.1, hmem.2, hc.symm⟩
    · rintro ⟨other, hother, hchain, rfl⟩
      have hsame := policyAssets_network _ (hlisted row hmem.1) _ (hlisted other hother) (hmem.2.trans hchain.symm)
      rw [hsame.1, hsame.2]

theorem nodup_mergedChains {rows : List MergedRow} : ((mergedChains rows).map Prod.fst).Nodup :=
  Grouping.nodup_group (by simp)

theorem Accepted.rows_listed (h : Accepted admitted) :
    ∀ row ∈ (mergedRows admitted).map Prod.snd, row.asset ∈ policyAssets := by
  intro row hrow
  rcases (mem_mergedRows h).mp hrow with ⟨a, ha, rfl⟩
  exact h.listed a ha

theorem mem_chainRows (h : Accepted admitted) {chain : String} {row : AssetPolicyRow} :
    row ∈ chainRows ((mergedRows admitted).map Prod.snd) chain ↔
      ∃ a ∈ admitted, a.1.chain = chain ∧ row = (compiledRow admitted a.1).registryRow := by
  simp only [chainRows, List.mem_map, List.mem_filter, decide_eq_true_eq]
  constructor
  · rintro ⟨merged, ⟨hmem, hchain⟩, rfl⟩
    rcases (mem_mergedRows h).mp (List.mem_map.mpr hmem) with ⟨a, ha, rfl⟩
    exact ⟨a, ha, hchain, rfl⟩
  · rintro ⟨a, ha, hchain, rfl⟩
    exact ⟨_, ⟨List.mem_map.mp ((mem_mergedRows h).mpr ⟨a, ha, rfl⟩), hchain⟩, rfl⟩

-- A network of the registry is that of some row, under its family, and holds one row for each of its assets.
theorem mem_registryChains (h : Accepted admitted) {chain : AssetPolicyChain}
    (hmem : chain ∈ registryChains admitted) :
    (∃ a ∈ admitted, a.1.chain = chain.chain ∧ chain.family = a.1.family) ∧
      ∀ row, row ∈ chain.assets ↔
        ∃ a ∈ admitted, a.1.chain = chain.chain ∧ row = (compiledRow admitted a.1).registryRow := by
  rw [registryChains, List.mem_map] at hmem
  rcases hmem with ⟨c, hc, rfl⟩
  rw [Grouping.mem_sortBy, List.mem_map] at hc
  rcases hc with ⟨⟨name, c⟩, hentry, rfl⟩
  rw [Grouping.mem_iff_get nodup_mergedChains, get_mergedChains h.rows_listed] at hentry
  rcases hentry with ⟨merged, hmerged, hchain, rfl⟩
  rcases (mem_mergedRows h).mp hmerged with ⟨a, ha, rfl⟩
  refine ⟨⟨a, ha, hchain, rfl⟩, fun row => ?_⟩
  show row ∈ Grouping.sortBy _ (chainRows _ name) ↔ _
  rw [Grouping.mem_sortBy, mem_chainRows h]
  rfl

theorem exists_registryChain (h : Accepted admitted) {a : AdmittedAsset} (ha : a ∈ admitted) :
    ∃ chain ∈ registryChains admitted, chain.chain = a.1.chain := by
  have hrow := (mem_mergedRows h).mpr ⟨a, ha, rfl⟩
  have hget := (get_mergedChains h.rows_listed).mpr ⟨_, hrow, rfl, rfl⟩
  have hentry := (Grouping.mem_iff_get nodup_mergedChains).mpr hget
  refine ⟨_, List.mem_map_of_mem (Grouping.mem_sortBy.mpr (List.mem_map_of_mem hentry)), rfl⟩

section Order

theorem Accepted.perm (h : Accepted admitted) (hperm : admitted.Perm admitted') : Accepted admitted' where
  sound := fun a ha => h.sound a (hperm.mem_iff.mpr ha)
  named := fun a ha => h.named a (hperm.mem_iff.mpr ha)
  listed := fun a ha => h.listed a (hperm.mem_iff.mpr ha)
  distinct := (hperm.map _).nodup_iff.mp h.distinct

theorem compiledRow_perm (h : Accepted admitted) (hperm : admitted.Perm admitted') (asset : CandidateAsset) :
    compiledRow admitted asset = compiledRow admitted' asset := by
  have hrows : (ofKey admitted asset.key).Perm (ofKey admitted' asset.key) := (hperm.filter _).map _
  rw [compiledRow, compiledRow]
  congr 1
  funext rail
  apply Option.ext
  intro row
  rw [admissionOf, admissionOf, Grouping.find?_eq_some_iff h.rails_nodup,
    Grouping.find?_eq_some_iff (h.perm hperm).rails_nodup, hrows.mem_iff]

theorem mergedRows_perm (h : Accepted admitted) (hperm : admitted.Perm admitted') :
    (mergedRows admitted).Perm (mergedRows admitted') := by
  apply Grouping.perm_of_get nodup_mergedRows nodup_mergedRows
  intro key
  apply Option.ext
  intro row
  rw [get_mergedRows h, get_mergedRows (h.perm hperm)]
  simp only [compiledRow_perm h hperm, hperm.mem_iff]

theorem assetSortKey_injective {a b : Asset} (h : assetSortKey a = assetSortKey b) : a = b := by
  have hlist : (assetSortKey a).toList = (assetSortKey b).toList := by rw [h]
  cases a with
  | native =>
    cases b with
    | native => rfl
    | token identifier => simp [assetSortKey] at hlist
  | token identifier =>
    cases b with
    | native => simp [assetSortKey] at hlist
    | token identifier' =>
      simp only [assetSortKey, String.toList_append, List.append_cancel_left_eq, String.toList_inj] at hlist
      rw [hlist]

-- Two rows of one network are told apart by their sort keys.
theorem chainRows_unique (h : Accepted admitted) {chain : String} :
    ∀ row ∈ chainRows ((mergedRows admitted).map Prod.snd) chain,
      ∀ row' ∈ chainRows ((mergedRows admitted).map Prod.snd) chain,
        assetSortKey row.asset = assetSortKey row'.asset → row = row' := by
  intro row hrow row' hrow' hkey
  rcases (mem_chainRows h).mp hrow with ⟨a, ha, hchain, rfl⟩
  rcases (mem_chainRows h).mp hrow' with ⟨b, hb, hchain', rfl⟩
  have hasset : a.1.asset = b.1.asset := assetSortKey_injective hkey
  rw [policyAssets_unique _ (h.listed a ha) _ (h.listed b hb) (hchain.trans hchain'.symm) hasset]

theorem sortedAssets_perm (h : Accepted admitted) (hperm : admitted.Perm admitted') (chain : String) :
    (Grouping.get chain (mergedChains ((mergedRows admitted).map Prod.snd))).map sortedAssets =
      (Grouping.get chain (mergedChains ((mergedRows admitted').map Prod.snd))).map sortedAssets := by
  have h' := h.perm hperm
  have hrows := (mergedRows_perm h hperm).map Prod.snd
  have hsorted : ∀ c c', Grouping.get chain (mergedChains ((mergedRows admitted).map Prod.snd)) = some c →
      Grouping.get chain (mergedChains ((mergedRows admitted').map Prod.snd)) = some c' →
      sortedAssets c = sortedAssets c' := by
    intro c c' hc hc'
    rcases (get_mergedChains h.rows_listed).mp hc with ⟨row, hrow, hchain, rfl⟩
    rcases (get_mergedChains h'.rows_listed).mp hc' with ⟨row', hrow', hchain', rfl⟩
    have hsame := policyAssets_network _ (h.rows_listed row hrow) _ (h'.rows_listed row' hrow')
      (hchain.trans hchain'.symm)
    have hchains : (chainRows ((mergedRows admitted).map Prod.snd) chain).Perm
        (chainRows ((mergedRows admitted').map Prod.snd) chain) := (hrows.filter _).map _
    have hassets := Grouping.sortBy_eq_of_perm hchains (chainRows_unique h)
    simp only [sortedAssets, AssetPolicyChain.mk.injEq, true_and]
    exact ⟨hsame.1, hsame.2, hassets⟩
  have hnone : Grouping.get chain (mergedChains ((mergedRows admitted).map Prod.snd)) = none ↔
      Grouping.get chain (mergedChains ((mergedRows admitted').map Prod.snd)) = none := by
    simp only [Option.eq_none_iff_forall_ne_some, ne_eq, get_mergedChains h.rows_listed,
      get_mergedChains h'.rows_listed, not_exists, not_and]
    constructor
    · intro hempty c row hrow hchain _
      exact hempty _ row (hrows.mem_iff.mpr hrow) hchain rfl
    · intro hempty c row hrow hchain _
      exact hempty _ row (hrows.mem_iff.mp hrow) hchain rfl
  cases hc : Grouping.get chain (mergedChains ((mergedRows admitted).map Prod.snd)) with
  | none => rw [hnone.mp hc]
  | some c =>
    cases hc' : Grouping.get chain (mergedChains ((mergedRows admitted').map Prod.snd)) with
    | none => rw [hnone.mpr hc'] at hc; cases hc
    | some c' => rw [Option.map_some, Option.map_some, hsorted c c' hc hc']

-- The registry of a list of rows does not depend on their order.
theorem registryChains_perm (h : Accepted admitted) (hperm : admitted.Perm admitted') :
    registryChains admitted = registryChains admitted' := by
  have hmap : ∀ chains : List AssetPolicyChain, (Grouping.sortBy AssetPolicyChain.chain chains).map sortedAssets =
      Grouping.sortBy AssetPolicyChain.chain (chains.map sortedAssets) := by
    intro chains
    exact List.map_insertionSort _ _ sortedAssets chains fun _ _ _ _ => Iff.rfl
  rw [registryChains, registryChains, hmap, hmap]
  have hentries : ∀ rows : List MergedRow, ((mergedChains rows).map Prod.snd).map sortedAssets =
      ((mergedChains rows).map fun entry => (entry.1, sortedAssets entry.2)).map Prod.snd := by
    intro rows
    rw [List.map_map, List.map_map]
    rfl
  have hkeys : ∀ rows : List MergedRow,
      (((mergedChains rows).map fun entry => (entry.1, sortedAssets entry.2)).map Prod.fst).Nodup := by
    intro rows
    rw [List.map_map]
    exact nodup_mergedChains
  rw [hentries, hentries]
  apply Grouping.sortBy_eq_of_perm
  · apply List.Perm.map
    apply Grouping.perm_of_get (hkeys _) (hkeys _)
    intro chain
    rw [Grouping.get_map, Grouping.get_map, sortedAssets_perm h hperm]
  · -- an entry stands under its own network
    have hname : ∀ entry ∈ mergedChains ((mergedRows admitted).map Prod.snd), entry.2.chain = entry.1 := by
      rintro ⟨name, c⟩ hentry
      rw [Grouping.mem_iff_get nodup_mergedChains, get_mergedChains h.rows_listed] at hentry
      rcases hentry with ⟨_, _, _, rfl⟩
      rfl
    intro c hc c' hc' hchain
    rw [List.map_map, List.mem_map] at hc hc'
    rcases hc with ⟨entry, hentry, rfl⟩
    rcases hc' with ⟨entry', hentry', rfl⟩
    have hsame : entry.1 = entry'.1 := by
      rw [← hname entry hentry, ← hname entry' hentry']
      exact hchain
    rw [List.inj_on_of_nodup_map nodup_mergedChains hentry hentry' hsame]

end Order
end Grouped
end PaymentNode.Allowlist
