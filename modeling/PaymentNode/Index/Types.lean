import Mathlib.Data.String.Basic
import Mathlib.Data.List.Sort
import PaymentNode.Basic

/-!
# Types — claims, index entries, and what a family's adapter reads in a record

An entry is what the operation index keeps of one operation: who it is, where its record lies and which
accounts it claims.  `normalizeClaims` and `collidingClaims` are the exclusive/shared rule.  An adapter is a
family's reader: it says whether a record file is valid, whose it is, what it claims and whether it is over;
what a record contains besides is its own business (`Doc`).
-/

namespace PaymentNode

/-- A 64-digit hexadecimal hash. -/
abbrev StateHash := String

abbrev OperationId := StateHash

/-! ## Claims -/

/-- An exclusive claim conflicts with any claim on its key; shared claims coexist with shared claims. -/
structure OperationClaim where
  key : String
  shared : Bool
deriving DecidableEq, Repr

def profileClaim (profileHash : StateHash) : OperationClaim := ⟨"profile:" ++ profileHash, false⟩

def unreadableProfileClaim (profileHash : StateHash) : OperationClaim :=
  ⟨"unreadable:" ++ profileHash, false⟩

def unreadableFamilyClaim (family : String) : OperationClaim := ⟨"unreadable-family:" ++ family, false⟩

def unreadableProviderClaim : OperationClaim := ⟨"unreadable-provider", false⟩

/-- One claim joins those under distinct keys; an exclusive one wins over a shared one. -/
def mergeClaim (byKey : List OperationClaim) (claim : OperationClaim) : List OperationClaim :=
  if byKey.any fun c => c.key = claim.key then
    byKey.map fun c => if c.key = claim.key then ⟨c.key, c.shared && claim.shared⟩ else c
  else byKey ++ [claim]

/-- Deduplicated and sorted by key. -/
def normalizeClaims (claims : List OperationClaim) : List OperationClaim :=
  (claims.foldl mergeClaim []).insertionSort fun left right => left.key ≤ right.key

/-- The held claims that collide with the wanted ones. -/
def collidingClaims (held wanted : List OperationClaim) : List OperationClaim :=
  held.filter fun claim =>
    (wanted.reverse.find? fun other => other.key = claim.key).any fun other =>
      !(claim.shared && other.shared)

/-- `claims` takes `claim`'s key at least as strictly. -/
def Covers (claims : List OperationClaim) (claim : OperationClaim) : Prop :=
  ∃ c ∈ claims, c.key = claim.key ∧ (c.shared → claim.shared)

theorem covers_mergeClaim_self (byKey : List OperationClaim) (claim : OperationClaim) :
    Covers (mergeClaim byKey claim) claim := by
  unfold mergeClaim
  split
  · rename_i hany
    rcases List.any_eq_true.mp hany with ⟨c, hc, hkey⟩
    simp only [decide_eq_true_eq] at hkey
    refine ⟨⟨c.key, c.shared && claim.shared⟩, ?_, hkey, ?_⟩
    · exact List.mem_map.mpr ⟨c, hc, by rw [if_pos hkey]⟩
    · intro h
      exact (Bool.and_eq_true_iff.mp h).2
  · exact ⟨claim, by simp, rfl, id⟩

variable {byKey : List OperationClaim}

theorem Covers.mergeClaim {c : OperationClaim} (h : Covers byKey c)
    (claim : OperationClaim) : Covers (mergeClaim byKey claim) c := by
  rcases h with ⟨d, hd, hkey, hshared⟩
  unfold PaymentNode.mergeClaim
  split
  · by_cases hsame : d.key = claim.key
    · refine ⟨⟨d.key, d.shared && claim.shared⟩, ?_, hkey, ?_⟩
      · exact List.mem_map.mpr ⟨d, hd, by rw [if_pos hsame]⟩
      · intro h
        exact hshared (Bool.and_eq_true_iff.mp h).1
    · refine ⟨d, ?_, hkey, hshared⟩
      exact List.mem_map.mpr ⟨d, hd, by rw [if_neg hsame]⟩
  · exact ⟨d, by simp [hd], hkey, hshared⟩

theorem covers_foldl_mergeClaim {claims byKey : List OperationClaim} {c : OperationClaim}
    (h : c ∈ claims ∨ Covers byKey c) : Covers (claims.foldl mergeClaim byKey) c := by
  induction claims generalizing byKey with
  | nil =>
    rcases h with h | h
    · cases h
    · exact h
  | cons claim claims ih =>
    apply ih
    rcases h with h | h
    · rcases List.mem_cons.mp h with rfl | h
      · exact Or.inr (covers_mergeClaim_self byKey c)
      · exact Or.inl h
    · exact Or.inr (h.mergeClaim claim)

-- Normalizing weakens no claim.
theorem covers_normalizeClaims {claims : List OperationClaim} {c : OperationClaim}
    (h : c ∈ claims) : Covers (normalizeClaims claims) c := by
  rcases @covers_foldl_mergeClaim claims [] c (Or.inl h) with ⟨d, hd, hkey, hshared⟩
  exact ⟨d, (List.mem_insertionSort _).mpr hd, hkey, hshared⟩

theorem keys_mergeClaim_nodup (claim : OperationClaim) (h : (byKey.map OperationClaim.key).Nodup) :
    ((mergeClaim byKey claim).map OperationClaim.key).Nodup := by
  unfold mergeClaim
  split
  · have hkeys : ∀ c : OperationClaim,
        (if c.key = claim.key then (⟨c.key, c.shared && claim.shared⟩ : OperationClaim) else c).key =
          c.key := by
      intro c
      split <;> rfl
    rw [List.map_map]
    simpa only [Function.comp_def, hkeys] using h
  · rename_i hany
    simp only [List.any_eq_true, decide_eq_true_eq, not_exists, not_and] at hany
    rw [List.map_append, List.nodup_append]
    refine ⟨h, by simp, ?_⟩
    intro k hk k' hk' heq
    rcases List.mem_map.mp hk with ⟨c, hc, rfl⟩
    simp only [List.map_cons, List.map_nil, List.mem_singleton] at hk'
    exact hany c hc (heq.trans hk')

theorem keys_normalizeClaims_nodup (claims : List OperationClaim) :
    ((normalizeClaims claims).map OperationClaim.key).Nodup := by
  have hfold : ∀ claims byKey : List OperationClaim, (byKey.map OperationClaim.key).Nodup →
      ((claims.foldl mergeClaim byKey).map OperationClaim.key).Nodup := by
    intro claims
    induction claims with
    | nil => exact fun _ h => h
    | cons claim claims ih => exact fun byKey h => ih _ (keys_mergeClaim_nodup claim h)
  have hperm := (List.perm_insertionSort (fun left right : OperationClaim => left.key ≤ right.key)
    (claims.foldl mergeClaim [])).map OperationClaim.key
  exact hperm.nodup_iff.mpr (hfold claims [] List.nodup_nil)

-- A held claim that covers `a` collides with wanted claims that cover `b`, where `a` and `b` conflict.
theorem collidingClaims_ne_nil {held wanted : List OperationClaim} {a b : OperationClaim}
    (ha : Covers held a) (hb : Covers wanted b) (hnodup : (wanted.map OperationClaim.key).Nodup)
    (hkey : a.key = b.key) (hconflict : ¬ (a.shared ∧ b.shared)) :
    collidingClaims held wanted ≠ [] := by
  rcases ha with ⟨c, hc, hcKey, hcShared⟩
  rcases hb with ⟨d, hd, hdKey, hdShared⟩
  have hsame : d.key = c.key := by rw [hdKey, hcKey, hkey]
  have hfound : (wanted.reverse.find? fun other => other.key = c.key) = some d := by
    have hsome : (wanted.reverse.find? fun other => other.key = c.key).isSome := by
      rw [List.find?_isSome]
      exact ⟨d, List.mem_reverse.mpr hd, by simpa using hsame⟩
    rcases Option.isSome_iff_exists.mp hsome with ⟨e, he⟩
    have heKey : e.key = c.key := by simpa using List.find?_some he
    have heMem : e ∈ wanted := List.mem_reverse.mp (List.mem_of_find?_eq_some he)
    rw [he, List.inj_on_of_nodup_map hnodup heMem hd (heKey.trans hsame.symm)]
  intro hnil
  have hnot := List.filter_eq_nil_iff.mp hnil c hc
  rw [hfound] at hnot
  simp only [Option.any_some, Bool.not_eq_true', Bool.and_eq_false_iff, not_or, Bool.not_eq_false]
    at hnot
  exact hconflict ⟨hcShared hnot.1, hdShared hnot.2⟩

theorem covers_of_mem_mergeClaim {claim c : OperationClaim}
    (h : c ∈ mergeClaim byKey claim) : Covers (claim :: byKey) c := by
  unfold mergeClaim at h
  split at h
  · rcases List.mem_map.mp h with ⟨d, hd, rfl⟩
    split
    · rename_i hkey
      cases hshared : d.shared with
      | false => exact ⟨d, by simp [hd], rfl, by simp [hshared]⟩
      | true => exact ⟨claim, by simp, hkey.symm, by simp⟩
    · exact ⟨d, by simp [hd], rfl, id⟩
  · exact ⟨c, by simpa [or_comm] using h, rfl, id⟩

-- Normalizing invents no claim and strengthens none.
theorem covers_of_mem_normalizeClaims {claims : List OperationClaim} {c : OperationClaim}
    (h : c ∈ normalizeClaims claims) : Covers claims c := by
  have hfold : ∀ claims byKey : List OperationClaim, c ∈ claims.foldl mergeClaim byKey →
      Covers (byKey ++ claims) c := by
    intro claims
    induction claims with
    | nil => exact fun byKey h => ⟨c, by simpa using h, rfl, id⟩
    | cons claim claims ih =>
      intro byKey h
      rcases ih _ h with ⟨d, hd, hkey, hshared⟩
      rcases List.mem_append.mp hd with hd | hd
      · rcases covers_of_mem_mergeClaim hd with ⟨e, he, heKey, heShared⟩
        exact ⟨e, by simp at he ⊢; tauto, heKey.trans hkey, fun h => hshared (heShared h)⟩
      · exact ⟨d, by simp [hd], hkey, hshared⟩
  exact hfold claims [] ((List.mem_insertionSort _).mp h)

/-- **Normalized claims collide exactly where two of the claims they stand for conflict.** -/
theorem collidingClaims_normalized_iff {held wanted : List OperationClaim} :
    collidingClaims (normalizeClaims held) (normalizeClaims wanted) ≠ [] ↔
      ∃ a ∈ held, ∃ b ∈ wanted, a.key = b.key ∧ ¬ (a.shared ∧ b.shared) := by
  constructor
  · intro hne
    rcases List.exists_mem_of_ne_nil _ hne with ⟨c, hc⟩
    rcases List.mem_filter.mp hc with ⟨hc, hany⟩
    rcases (Option.any_eq_true _ _).mp hany with ⟨d, hfound, hboth⟩
    have hdKey : d.key = c.key := by simpa using List.find?_some hfound
    have hd := List.mem_reverse.mp (List.mem_of_find?_eq_some hfound)
    rcases covers_of_mem_normalizeClaims hc with ⟨a, ha, haKey, haShared⟩
    rcases covers_of_mem_normalizeClaims hd with ⟨b, hb, hbKey, hbShared⟩
    refine ⟨a, ha, b, hb, by rw [haKey, hbKey, hdKey], ?_⟩
    rintro ⟨hsharedA, hsharedB⟩
    simp [haShared hsharedA, hbShared hsharedB] at hboth
  · rintro ⟨a, ha, b, hb, hkey, hconflict⟩
    exact collidingClaims_ne_nil (covers_normalizeClaims ha) (covers_normalizeClaims hb)
      (keys_normalizeClaims_nodup wanted) hkey hconflict

/-! ## Entries -/

inductive OperationIndexState
  | admitted
  | active
  | terminal
  | unreadable
  | released
deriving DecidableEq, Repr

inductive UnreadableReason
  | recordInvalid
  | recordNotJson
  | duplicateOperationId
deriving DecidableEq, Repr

/-- `<directory>/<operationId>.json`, or `<directory>/<profileHash>/<operationId>.json`. -/
structure RecordPath where
  directory : String
  profileHash : Option StateHash
  operationId : OperationId
deriving DecidableEq, Repr

structure OperationIndexEntry where
  operationId : OperationId
  family : String
  profileHash : Option StateHash
  idempotencyHash : Option StateHash
  requestHash : Option StateHash
  recordPath : RecordPath
  claims : List OperationClaim
  state : OperationIndexState
  /-- The lease of an `admit` without a record yet. -/
  admittedAt : Option ℤ
  unreadableReason : Option UnreadableReason
deriving DecidableEq, Repr

/-- A canonical entry: its claims are normalized. -/
def entryOf (entry : OperationIndexEntry) : OperationIndexEntry :=
  { entry with claims := normalizeClaims entry.claims }

structure PrepareIdentity where
  family : String
  profileHash : StateHash
  operationId : OperationId
  /-- `none` for a family whose operation id is itself derived from its profile and key. -/
  idempotencyHash : Option StateHash
  requestHash : Option StateHash
deriving DecidableEq, Repr

inductive WantedTag
  | nativeBesideSettledCircle (account : String)
  | circleSourceAfterBurn
  | metamaskGaslessBesideDispatched
  | metamaskGaslessRevoke
deriving DecidableEq, Repr

structure WantedClaims where
  family : Option String
  profileHash : Option StateHash
  claims : List OperationClaim
  /-- Held by an admission besides `claims` but never wanted. -/
  holds : List OperationClaim
  /-- Wanted besides `claims` but never held. -/
  waits : List OperationClaim
  tag : Option WantedTag
  /-- The caller's own operation, whose claims never block itself. -/
  except' : Option OperationId
deriving DecidableEq, Repr

/-! ## Adapters -/

structure OperationStore where
  directory : String
  perProfile : Bool
deriving DecidableEq, Repr

structure RecordIdentity where
  profileHash : StateHash
  operationId : OperationId
  idempotencyHash : Option StateHash
  requestHash : Option StateHash
deriving DecidableEq, Repr

/-- What an unreadable record's raw JSON still names. -/
structure SalvagedRecord where
  profileHashes : List StateHash
  idempotencyHash : Option StateHash
  claims : Option (List OperationClaim)
deriving DecidableEq, Repr

structure OperationFamilyAdapter (Doc : Type) where
  family : String
  stores : List OperationStore
  /-- The family's reader accepts the file. -/
  valid : Doc → Bool
  identity : Doc → RecordIdentity
  /-- `none` when the record's accounts cannot be read. -/
  claims : Doc → Option (List OperationClaim)
  holdsProfile : Doc → Bool
  /-- `none` when the record's lifecycle cannot be decided. -/
  terminal : Doc → Option Bool
  state : Doc → String
  admits : Doc → WantedClaims → OperationClaim → Bool
  salvage : Doc → SalvagedRecord
  unknownClaims : List OperationClaim

/-- Every family the index covers, in the order the guard reports blockers. -/
structure OperationRegistry (Doc : Type) where
  adapters : List (OperationFamilyAdapter Doc)
  /-- The file is JSON at all. -/
  isJson : Doc → Bool

namespace OperationRegistry

variable {Doc : Type}

def get (registry : OperationRegistry Doc) (family : String) : Option (OperationFamilyAdapter Doc) :=
  registry.adapters.find? fun adapter => adapter.family = family

def keys (registry : OperationRegistry Doc) : List String := registry.adapters.map (·.family)

end OperationRegistry

section Derive

variable {Doc : Type}

/-- A readable record is the record its name says it is. -/
def namesRecord (adapter : OperationFamilyAdapter Doc) (name : RecordPath) (doc : Doc) : Bool :=
  (adapter.identity doc).operationId = name.operationId &&
    name.profileHash.all fun profileHash => (adapter.identity doc).profileHash = profileHash

def derivedClaims (adapter : OperationFamilyAdapter Doc) (doc : Doc) : List OperationClaim :=
  let profileHash := (adapter.identity doc).profileHash
  let held := adapter.claims doc
  let profile :=
    if held.isNone ∨ adapter.holdsProfile doc then [profileClaim profileHash] else []
  if adapter.terminal doc = some true then []
  else
    normalizeClaims (profile ++ held.getD (unreadableProfileClaim profileHash :: adapter.unknownClaims))

/-- The entry a readable record yields. -/
def recordEntry (adapter : OperationFamilyAdapter Doc) (name : RecordPath) (doc : Doc) :
    OperationIndexEntry :=
  let identity := adapter.identity doc
  entryOf
    { operationId := name.operationId
      family := adapter.family
      profileHash := some identity.profileHash
      idempotencyHash := identity.idempotencyHash
      requestHash := identity.requestHash
      recordPath := name
      claims := derivedClaims adapter doc
      state :=
        match adapter.terminal doc with
        | some true => .terminal
        | some false => .active
        | none => .unreadable
      admittedAt := none
      unreadableReason := if (adapter.terminal doc).isNone then some .recordInvalid else none }

/-- The entry of an unreadable record: the claims its raw JSON still names, or a quarantine. -/
def quarantineEntry (registry : OperationRegistry Doc) (adapter : OperationFamilyAdapter Doc)
    (name : RecordPath) (reason : UnreadableReason) (raw : Doc) : OperationIndexEntry :=
  let salvaged := if registry.isJson raw then some (adapter.salvage raw) else none
  let profiles := match name.profileHash with
    | some profileHash => [profileHash]
    | none => (salvaged.map SalvagedRecord.profileHashes).getD []
  let claims := (salvaged.bind SalvagedRecord.claims).getD
    (profiles.map profileClaim ++
      (if 0 < profiles.length then profiles.map unreadableProfileClaim
        else [unreadableFamilyClaim adapter.family]) ++ adapter.unknownClaims)
  entryOf
    { operationId := name.operationId
      family := adapter.family
      profileHash := profiles.head?
      idempotencyHash := salvaged.bind SalvagedRecord.idempotencyHash
      requestHash := none
      recordPath := name
      claims := normalizeClaims claims
      state := .unreadable
      admittedAt := none
      unreadableReason := some (if registry.isJson raw then reason else .recordNotJson) }

end Derive
end PaymentNode
