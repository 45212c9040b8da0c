import EasyTier.Acl.Rules
import EasyTier.Data.AssocMap
import EasyTier.Data.BitBuffer
import Mathlib.Algebra.Ring.Int.Defs

/-! # The credential manager

Credentials are kept in four tables: those of the credential file, those managed by the
configuration, a replacement of the managed ones that is reserved but not installed yet, and those
of attached peers. Changes of the first table are written to storage before they take effect.

Every operation holds the lock of the tables for its whole length and is one function here. Base64,
X25519, the parser of address ranges and the text of a random identifier belong to other libraries
and are parameters. What an operation reads from its surroundings (the clock, random draws,
whether a write succeeds) is an argument.
-/

namespace EasyTier.Peers

open Data Acl

abbrev Uuid := BitVec 128

/-- The 32 bytes of an X25519 key. -/
abbrev KeyBytes := { bytes : Bytes // bytes.length = 32 }

/-- The library functions the manager calls. -/
structure CredentialLibrary where
  encodeBase64 : Bytes → Text
  decodeBase64 : Text → Option Bytes
  publicKey : KeyBytes → KeyBytes
  isIpCidr : Text → Bool
  renderUuid : Uuid → Text

/-- What the operations fail with; `CredentialError.message` has the texts. -/
inductive CredentialError where
  | invalidAllowedProxyCidr (cidr : Text)
  | invalidStoredCredential (credentialId cidr : Text)
  | invalidManagedProxyCidr (credentialId cidr : Text)
  | storageUnavailable (reason : Text)
  | storeFailed (reason : Text)
  | managedByConfiguration (credentialId : Text)
  | emptyCredentialId
  | expiryNotInFuture
  | secretNotBase64
  | secretNot32Bytes
  | managedSecretNotBase64 (credentialId : Text)
  | managedSecretNot32Bytes (credentialId : Text)
  | secretUsedByAnotherId
  | publicKeyRegistered
  | secretAssignedTwice
  | duplicateManagedId (credentialId : Text)
  | ownedByCredentialFile (credentialId : Text)
  | replacementPending
  deriving DecidableEq, Repr

def CredentialError.message : CredentialError → Text
  | .invalidAllowedProxyCidr cidr => "invalid allowed_proxy_cidr: ".toList ++ cidr
  | .invalidStoredCredential credentialId cidr =>
    "invalid stored credential ".toList ++ credentialId ++
      ": invalid allowed_proxy_cidr: ".toList ++ cidr
  | .invalidManagedProxyCidr credentialId cidr =>
    "invalid allowed_proxy_cidr for ".toList ++ credentialId ++ ": ".toList ++ cidr
  | .storageUnavailable reason => "credential storage is unavailable: ".toList ++ reason
  | .storeFailed reason => "failed to store credentials: ".toList ++ reason
  | .managedByConfiguration credentialId =>
    "credential_id ".toList ++ credentialId ++ " is managed by configuration".toList
  | .emptyCredentialId => "credential_id must not be empty".toList
  | .expiryNotInFuture => "expiry_unix must be in the future".toList
  | .secretNotBase64 => "credential_secret must be base64".toList
  | .secretNot32Bytes => "credential_secret must contain 32 bytes".toList
  | .managedSecretNotBase64 credentialId =>
    "credential_secret for ".toList ++ credentialId ++ " must be base64".toList
  | .managedSecretNot32Bytes credentialId =>
    "credential_secret for ".toList ++ credentialId ++ " must contain 32 bytes".toList
  | .secretUsedByAnotherId => "credential_secret is already used by another credential_id".toList
  | .publicKeyRegistered => "credential public key is already registered".toList
  | .secretAssignedTwice => "credential_secret is assigned to multiple credential IDs".toList
  | .duplicateManagedId credentialId =>
    "duplicate managed credential_id: ".toList ++ credentialId
  | .ownedByCredentialFile credentialId =>
    "credential_id ".toList ++ credentialId ++ " is already owned by the credential file".toList
  | .replacementPending => "managed credential replacement is already pending".toList

/-! ## Grants and entries -/

structure CredentialGrant where
  groups : List Text
  allowRelay : Bool
  allowedProxyCidrs : List Text
  reusable : Bool
  deriving DecidableEq, Repr

namespace CredentialGrant

variable (library : CredentialLibrary)

/-- One round of the loop of `normalize`. -/
def normalizeCidr (cidr : Text) : Except Text Text :=
  if library.isIpCidr (trim cidr) then .ok (trim cidr) else .error (trim cidr)

/-- `normalize`: every address range trimmed, or the first one that is not one. -/
def normalize (grant : CredentialGrant) : Except Text CredentialGrant :=
  (grant.allowedProxyCidrs.mapM (normalizeCidr library)).map fun cidrs =>
    { grant with allowedProxyCidrs := cidrs }

def new (groups : List Text) (allowRelay : Bool) (allowedProxyCidrs : List Text)
    (reusable : Bool) : Except Text CredentialGrant :=
  normalize library
    { groups := groups, allowRelay := allowRelay, allowedProxyCidrs := allowedProxyCidrs
      reusable := reusable }

def forAttachedPeer (groups : List Text) : CredentialGrant :=
  { groups := groups, allowRelay := false, allowedProxyCidrs := [], reusable := false }

/-- A grant that normalisation leaves as it is. -/
def Normal (grant : CredentialGrant) : Prop := grant.normalize library = .ok grant

variable {library}

theorem normalizeCidr_normalized {cidr normalized : Text}
    (done : normalizeCidr library cidr = .ok normalized) :
    normalizeCidr library normalized = .ok normalized := by
  unfold normalizeCidr at done
  split at done
  · rename_i parses
    cases done
    rw [normalizeCidr, trim_trim, if_pos parses]
  · cases done

theorem mapM_normalizeCidr_normalized {cidrs normalized : List Text}
    (done : cidrs.mapM (normalizeCidr library) = .ok normalized) :
    normalized.mapM (normalizeCidr library) = .ok normalized := by
  induction cidrs generalizing normalized with
  | nil =>
    cases done
    rfl
  | cons cidr cidrs ih =>
    rw [List.mapM_cons] at done
    cases first : normalizeCidr library cidr with
    | error => rw [first] at done; cases done
    | ok head =>
      cases rest : cidrs.mapM (normalizeCidr library) with
      | error => rw [first, rest] at done; cases done
      | ok tail =>
        rw [first, rest] at done
        cases done
        rw [List.mapM_cons, normalizeCidr_normalized first, ih rest]
        rfl

/-- What normalisation returns is normal. -/
theorem normal_of_normalize {grant normalized : CredentialGrant}
    (done : grant.normalize library = .ok normalized) : normalized.Normal library := by
  unfold normalize at done
  cases mapped : grant.allowedProxyCidrs.mapM (normalizeCidr library) with
  | error => rw [mapped] at done; cases done
  | ok cidrs =>
    rw [mapped] at done
    cases done
    rw [Normal, normalize, mapM_normalizeCidr_normalized mapped]
    rfl

end CredentialGrant

/-- A credential as it is kept under its id. -/
structure CredentialEntry where
  pubkey : Text
  secret : Text
  grant : CredentialGrant
  expiryUnix : Int
  createdAtUnix : Int
  deriving DecidableEq, Repr

def CredentialEntry.isActiveAt (entry : CredentialEntry) (now : Int) : Bool :=
  decide (now < entry.expiryUnix)

structure ManagedCredentialConfig where
  credentialId : Text
  credentialSecret : Text
  groups : List Text
  allowRelay : Bool
  allowedProxyCidrs : List Text
  expiryUnix : Int
  reusable : Bool
  deriving DecidableEq, Repr

/-- The private key in a base64 text, with the two ways to reject one. -/
def decodeSecret (library : CredentialLibrary) (notBase64 not32Bytes : CredentialError)
    (secret : Text) : Except CredentialError KeyBytes :=
  match library.decodeBase64 (trim secret) with
  | none => .error notBase64
  | some bytes => if long : bytes.length = 32 then .ok ⟨bytes, long⟩ else .error not32Bytes

/-- The entry of a private key. -/
def CredentialEntry.ofSecret (library : CredentialLibrary) (secret : KeyBytes)
    (grant : CredentialGrant) (expiryUnix createdAtUnix : Int) : CredentialEntry :=
  { pubkey := library.encodeBase64 (library.publicKey secret)
    secret := library.encodeBase64 secret
    grant := grant
    expiryUnix := expiryUnix
    createdAtUnix := createdAtUnix }

def CredentialEntry.fromManaged (library : CredentialLibrary) (config : ManagedCredentialConfig) :
    Except CredentialError CredentialEntry := do
  let credentialId := trim config.credentialId
  let secret ← decodeSecret library (.managedSecretNotBase64 credentialId)
    (.managedSecretNot32Bytes credentialId) config.credentialSecret
  let grant ← (CredentialGrant.new library config.groups config.allowRelay
    config.allowedProxyCidrs config.reusable).mapError (.invalidManagedProxyCidr credentialId)
  return .ofSecret library secret grant config.expiryUnix 0

/-! ## The tables and the storage -/

abbrev Entries := AList fun _ : Text => CredentialEntry

/-- The tables of credentials, by where they come from. -/
structure CredentialState where
  base : Entries := ∅
  managed : Entries := ∅
  pendingManaged : Option Entries := none
  ephemeral : AList fun _ : Uuid => CredentialEntry := ∅

/-- What the storage holds: text that cannot be read or parsed, nothing yet, or a snapshot. -/
inductive Stored where
  | unreadable (error : Text)
  | absent
  | snapshot (entries : Entries)

/-- The tables and the storage behind them. -/
structure CredentialManager where
  state : CredentialState
  storage : Option Stored
  storageLoadError : Option Text

/-- The entry with its grant normalised; an entry whose grant cannot be is left as it is. -/
def CredentialEntry.normalized (library : CredentialLibrary) (entry : CredentialEntry) :
    CredentialEntry :=
  match entry.grant.normalize library with
  | .ok grant => { entry with grant := grant }
  | .error _ => entry

theorem CredentialEntry.normalized_pubkey (library : CredentialLibrary) (entry : CredentialEntry) :
    (entry.normalized library).pubkey = entry.pubkey := by
  unfold normalized
  split <;> rfl

/-- Why a stored entry is refused, if it is. -/
def storedEntryError (library : CredentialLibrary) (credentialId : Text)
    (entry : CredentialEntry) : Option CredentialError :=
  match entry.grant.normalize library with
  | .ok _ => none
  | .error cidr => some (.invalidStoredCredential credentialId cidr)

/-- `normalize_loaded_entries`: the first entry that cannot be normalised refuses all of them. -/
def normalizeLoadedEntries (library : CredentialLibrary) (entries : Entries) :
    Except CredentialError Entries :=
  match entries.entries.findSome? fun entry => storedEntryError library entry.1 entry.2 with
  | some error => .error error
  | none => .ok (mapValues (CredentialEntry.normalized library) entries)

/-- The first part of `from_storage`: what loading gives, or the text of the error. -/
def Stored.load (library : CredentialLibrary) : Stored → Except Text Entries
  | .unreadable error => .error error
  | .absent => .ok ∅
  | .snapshot entries => (normalizeLoadedEntries library entries).mapError (·.message)

namespace CredentialManager

def fromStorage (library : CredentialLibrary) (stored : Stored) : CredentialManager :=
  match stored.load library with
  | .ok base => { state := { base := base }, storage := some stored, storageLoadError := none }
  | .error error => { state := {}, storage := some stored, storageLoadError := some error }

/-- `ensure_storage_available`. -/
def ensureStorageAvailable (manager : CredentialManager) : Except CredentialError Unit :=
  match manager.storageLoadError with
  | some error => .error (.storageUnavailable error)
  | none => .ok ()

/-- `store_base`, with the outcome of the write if there is one, and the assignment of the stored
table that follows it in every caller. -/
def storeBase (manager : CredentialManager) (base : Entries) (storeError : Option Text) :
    Except Text CredentialManager :=
  match manager.ensureStorageAvailable, manager.storage, storeError with
  | .error error, _, _ => .error error.message
  | .ok _, none, _ => .ok { manager with state.base := base }
  | .ok _, some _, some error => .error error
  | .ok _, some _, none =>
    .ok { manager with state.base := base, storage := some (.snapshot base) }

end CredentialManager

namespace CredentialState

def managedContainsId (state : CredentialState) (credentialId : Text) : Bool :=
  (state.managed.lookup credentialId).isSome ||
    (state.pendingManaged.any fun pending => (pending.lookup credentialId).isSome)

/-- `managed_entries`: the managed entries and then the reserved ones. -/
def managedEntries (state : CredentialState) : List (Sigma fun _ : Text => CredentialEntry) :=
  state.managed.entries ++ (state.pendingManaged.map (·.entries)).getD []

def managedValues (state : CredentialState) : List CredentialEntry :=
  state.managedEntries.map (·.2)

end CredentialState

/-- The values of a table. -/
def tableValues {Key : Type} (table : AList fun _ : Key => CredentialEntry) :
    List CredentialEntry :=
  table.entries.map (·.2)

/-- The test the operations make before they take a new public key. -/
def usesPubkey (entries : List CredentialEntry) (pubkey : Text) : Bool :=
  entries.any fun existing => existing.pubkey == pubkey

/-! ## Operations on the credential file -/

structure CredentialCreateOptions where
  groups : List Text
  allowRelay : Bool
  allowedProxyCidrs : List Text
  /-- Whole seconds of the duration. -/
  ttl : Nat
  credentialId : Option Text
  reusable : Bool
  deriving DecidableEq, Repr

structure CredentialUpsertOptions where
  credentialId : Text
  credentialSecret : Text
  groups : List Text
  allowRelay : Bool
  allowedProxyCidrs : List Text
  expiryUnix : Int
  reusable : Bool
  deriving DecidableEq, Repr

structure GeneratedCredential where
  credentialId : Text
  secret : Text
  expiryUnix : Int
  changed : Bool
  deriving DecidableEq, Repr

/-- What `generate_credential_with_options` reads from its surroundings: the clock at its start,
the identifiers it draws, the keys it draws with the clock at each draw, and the outcome of the
write. -/
structure GenerateDraws where
  now : Int
  ids : List Uuid
  keys : List (KeyBytes × Int)
  storeError : Option Text

/-- The value of a 64-bit signed integer. -/
def toI64 (value : Int) : Int := Int.bmod value (2 ^ 64)

/-- `build_entry`, for one drawn key. -/
def buildEntry (library : CredentialLibrary) (grant : CredentialGrant) (ttl : Nat)
    (draw : KeyBytes × Int) : CredentialEntry :=
  .ofSecret library draw.1 grant (toI64 (draw.2 + toI64 ttl)) draw.2

/-- The entries that have not expired. -/
def activeEntries (now : Int) (entries : Entries) : Entries :=
  retain (fun _ entry => entry.isActiveAt now) entries

/-- The identifier of the caller, trimmed, unless nothing is left of it. -/
def requestedId (credentialId : Option Text) : Option Text :=
  (credentialId.map trim).filter (· ≠ [])

namespace CredentialManager

variable (library : CredentialLibrary) (manager : CredentialManager)

/-- The part of `generate_credential_with_options` after the identifier is settled. There is no
result when every drawn key is in use: the loop goes on drawing. -/
def generateUnder (updated : Entries)
    (id : Text) (options : CredentialCreateOptions) (draws : GenerateDraws) :
    Option (Except CredentialError GeneratedCredential × CredentialManager) :=
  match CredentialGrant.new library options.groups options.allowRelay options.allowedProxyCidrs
      options.reusable with
  | .error cidr => some (.error (.invalidAllowedProxyCidr cidr), manager)
  | .ok grant =>
    let generated := draws.keys.map (buildEntry library grant options.ttl)
    let inUse (entry : CredentialEntry) : Bool :=
      usesPubkey (tableValues updated ++ manager.state.managedValues ++
        tableValues manager.state.ephemeral) entry.pubkey
    (generated.find? fun entry => !inUse entry).map fun entry =>
      match manager.storeBase (updated.insert id entry) draws.storeError with
      | .error error => (.error (.storeFailed error), manager)
      | .ok stored =>
        (.ok
          { credentialId := id
            secret := entry.secret
            expiryUnix := entry.expiryUnix
            changed := true }, stored)

/-- `generate_credential_with_options`. A caller that names a credential with a secret gets that
one back. -/
def generateCredentialWithOptions
    (options : CredentialCreateOptions) (draws : GenerateDraws) :
    Option (Except CredentialError GeneratedCredential × CredentialManager) :=
  match manager.ensureStorageAvailable with
  | .error error => some (.error error, manager)
  | .ok _ =>
    let updated := activeEntries draws.now manager.state.base
    match requestedId options.credentialId with
    | some id =>
      if manager.state.managedContainsId id then
        some (.error (.managedByConfiguration id), manager)
      else
        match (updated.lookup id).filter (·.secret ≠ []) with
        | some existing =>
          some (.ok
            { credentialId := id
              secret := existing.secret
              expiryUnix := existing.expiryUnix
              changed := false }, manager)
        | none => manager.generateUnder library updated id options draws
    | none =>
      let fresh (id : Text) : Bool :=
        (updated.lookup id).isNone && !manager.state.managedContainsId id
      ((draws.ids.map library.renderUuid).find? fresh).bind fun id =>
        manager.generateUnder library updated id options draws

def revokeCredential (credentialId : Text)
    (storeError : Option Text) : Except CredentialError Bool × CredentialManager :=
  match manager.ensureStorageAvailable with
  | .error error => (.error error, manager)
  | .ok _ =>
    if (manager.state.base.lookup credentialId).isNone then (.ok false, manager)
    else
      match manager.storeBase (manager.state.base.erase credentialId) storeError with
      | .error error => (.error (.storeFailed error), manager)
      | .ok stored => (.ok true, stored)

/-- The checks of `upsert_credential` that read only its options, in their order. -/
def upsertEntry (options : CredentialUpsertOptions)
    (now createdAt : Int) : Except CredentialError CredentialEntry := do
  if trim options.credentialId = [] then throw .emptyCredentialId
  if options.expiryUnix ≤ now then throw .expiryNotInFuture
  let secret ← decodeSecret library .secretNotBase64 .secretNot32Bytes options.credentialSecret
  let grant ← (CredentialGrant.new library options.groups options.allowRelay
    options.allowedProxyCidrs options.reusable).mapError .invalidAllowedProxyCidr
  return .ofSecret library secret grant options.expiryUnix createdAt

/-- An entry that the given one would not change; the time of creation does not count. -/
def sameCredential (existing entry : CredentialEntry) : Bool :=
  existing.secret == entry.secret && existing.pubkey == entry.pubkey &&
    existing.grant == entry.grant && existing.expiryUnix == entry.expiryUnix

/-- `upsert_credential`; the clock is read twice. -/
def upsertCredential
    (options : CredentialUpsertOptions) (now createdAt : Int) (storeError : Option Text) :
    Except CredentialError Bool × CredentialManager :=
  match upsertEntry library options now createdAt, manager.ensureStorageAvailable with
  | .error error, _ => (.error error, manager)
  | .ok _, .error error => (.error error, manager)
  | .ok entry, .ok _ =>
    let id := trim options.credentialId
    if manager.state.managedContainsId id then (.error (.managedByConfiguration id), manager)
    else if (manager.state.base.entries ++ manager.state.managedEntries).any fun existing =>
        existing.1 != id && existing.2.pubkey == entry.pubkey then
      (.error .secretUsedByAnotherId, manager)
    else if usesPubkey (tableValues manager.state.ephemeral) entry.pubkey then
      (.error .publicKeyRegistered, manager)
    else if (manager.state.base.lookup id).any fun existing => sameCredential existing entry then
      (.ok false, manager)
    else
      match manager.storeBase (manager.state.base.insert id entry) storeError with
      | .error error => (.error (.storeFailed error), manager)
      | .ok stored => (.ok true, stored)

/-- `remove_expired_credentials_at`: a write that fails is only logged. -/
def removeExpiredCredentials (now : Int)
    (storeError : Option Text) : Bool × CredentialManager :=
  let updated := activeEntries now manager.state.base
  if SameEntries updated manager.state.base then (false, manager)
  else
    match manager.storeBase updated storeError with
    | .error _ => (false, manager)
    | .ok stored => (true, stored)

/-! ## Operations on the credentials of attached peers -/

def registerEphemeralCredential
    (publicKey : KeyBytes) (groups : List Text) (now : Int) (drawn : Uuid) :
    Except CredentialError Uuid × CredentialManager :=
  let entry : CredentialEntry :=
    { pubkey := library.encodeBase64 publicKey
      secret := []
      grant := .forAttachedPeer groups
      expiryUnix := 2 ^ 63 - 1
      createdAtUnix := now }
  if usesPubkey (tableValues manager.state.base ++ manager.state.managedValues) entry.pubkey ||
      usesPubkey (tableValues manager.state.ephemeral) entry.pubkey then
    (.error .publicKeyRegistered, manager)
  else
    (.ok drawn, { manager with state.ephemeral := manager.state.ephemeral.insert drawn entry })

def updateEphemeralCredentialGroups (credentialId : Uuid)
    (groups : List Text) : Option Bool × CredentialManager :=
  match manager.state.ephemeral.lookup credentialId with
  | none => (none, manager)
  | some credential =>
    if credential.grant.groups = groups then (some false, manager)
    else
      (some true,
        { manager with
          state.ephemeral := manager.state.ephemeral.insert credentialId
            { credential with grant.groups := groups } })

def revokeEphemeralCredential (credentialId : Uuid) :
    Bool × CredentialManager :=
  ((manager.state.ephemeral.lookup credentialId).isSome,
    { manager with state.ephemeral := manager.state.ephemeral.erase credentialId })

/-! ## Operations on the managed credentials -/

/-- One round of the loop of `build_managed_entries`, over the entries built so far. -/
def buildManagedEntry (entries : Entries)
    (config : ManagedCredentialConfig) : Except CredentialError Entries := do
  let credentialId := trim config.credentialId
  if credentialId = [] then throw .emptyCredentialId
  let entry ← CredentialEntry.fromManaged library config
  -- The set of the keys seen so far holds the keys of the entries built so far.
  if usesPubkey (tableValues entries) entry.pubkey then throw .secretAssignedTwice
  if (entries.lookup credentialId).isSome then throw (.duplicateManagedId credentialId)
  return entries.insert credentialId entry

def buildManagedEntries
    (credentials : List ManagedCredentialConfig) : Except CredentialError Entries :=
  credentials.foldlM (buildManagedEntry library) ∅

def validateManagedConflicts (state : CredentialState) (replacement : Entries) :
    Except CredentialError Unit :=
  match replacement.keys.find? fun id => (state.base.lookup id).isSome with
  | some credentialId => .error (.ownedByCredentialFile credentialId)
  | none =>
    if (tableValues replacement).any fun entry =>
        usesPubkey (tableValues state.base ++ tableValues state.ephemeral) entry.pubkey then
      .error .publicKeyRegistered
    else .ok ()

def installInitialManagedCredentials
    (credentials : List ManagedCredentialConfig) :
    Except CredentialError Unit × CredentialManager :=
  match manager.ensureStorageAvailable, buildManagedEntries library credentials with
  | .error error, _ => (.error error, manager)
  | .ok _, .error error => (.error error, manager)
  | .ok _, .ok replacement =>
    match validateManagedConflicts manager.state replacement with
    | .error error => (.error error, manager)
    | .ok _ => (.ok (), { manager with state.managed := replacement })

/-- `validate_managed_credentials`: a replacement that changes something is reserved. The result
is the `changed` flag of the `ManagedCredentialReplacement` it returns. -/
def validateManagedCredentials
    (credentials : List ManagedCredentialConfig) :
    Except CredentialError Bool × CredentialManager :=
  match buildManagedEntries library credentials with
  | .error error => (.error error, manager)
  | .ok replacement =>
    if manager.state.pendingManaged.isSome then (.error .replacementPending, manager)
    else
      match validateManagedConflicts manager.state replacement with
      | .error error => (.error error, manager)
      | .ok _ =>
        if SameEntries manager.state.managed replacement then (.ok false, manager)
        else (.ok true, { manager with state.pendingManaged := some replacement })

/-- `install_managed_credentials` of a replacement with this `changed` flag. There is no result
when nothing is reserved any more: the `expect` of the source fails. -/
def installManagedCredentials (changed : Bool) :
    Option (Bool × CredentialManager) :=
  if !changed then some (false, manager)
  else
    manager.state.pendingManaged.map fun pending =>
      (true, { manager with state.managed := pending, state.pendingManaged := none })

/-- `ManagedCredentialReplacement::drop`, of a replacement that was not installed. -/
def dropReplacement (changed : Bool) : CredentialManager :=
  if changed then { manager with state.pendingManaged := none } else manager

/-! ## Trust -/

/-- `is_pubkey_trusted`. -/
def isPubkeyTrusted (now : Int)
    (pubkey : Bytes) : Bool :=
  let encoded := library.encodeBase64 pubkey
  ((tableValues manager.state.base ++ tableValues manager.state.managed).any fun entry =>
    entry.pubkey == encoded && entry.isActiveAt now) ||
    usesPubkey (tableValues manager.state.ephemeral) encoded

end CredentialManager

end EasyTier.Peers
