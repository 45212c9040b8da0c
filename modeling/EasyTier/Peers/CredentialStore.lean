import EasyTier.Data.Slots
import EasyTier.Peers.CredentialManager
import EasyTier.Semantics.System

/-! # What every run of the credential manager keeps

The four tables are one family of slots. Each operation checks another part of them, so what an
operation can do is said once, as one of a few effects on the tables and the storage, and the
invariants are read off the effects: public keys are distinct across the tables, the credential file
shares no identifier with the managed credentials, and the storage holds what the table of the
credential file was loaded from or last written as.
-/

namespace EasyTier.Peers

open Data Acl Semantics CredentialState CredentialGrant CredentialEntry

/-! ## Slots -/

/-- Where an entry is kept. -/
inductive CredentialSlot where
  | base (credentialId : Text)
  | managed (credentialId : Text)
  | pending (credentialId : Text)
  | ephemeral (credentialId : Uuid)
  deriving DecidableEq, Repr

/-- A reserved entry may carry the key of a managed one, which it will replace. -/
def CredentialSlot.Restates : CredentialSlot → CredentialSlot → Prop
  | .pending _, .managed _ => True
  | .managed _, .pending _ => True
  | _, _ => False

open CredentialSlot.Restates

theorem CredentialSlot.Restates.symm (first second : CredentialSlot)
    (restates : first.Restates second) : second.Restates first := by
  cases first <;> cases second <;> exact restates

variable {state : CredentialState} {entry : CredentialEntry} {credentialId : Text}
  {entries : Entries} {library : CredentialLibrary}

namespace CredentialState

def entryAt (state : CredentialState) : CredentialSlot → Option CredentialEntry
  | .base credentialId => state.base.lookup credentialId
  | .managed credentialId => state.managed.lookup credentialId
  | .pending credentialId => state.pendingManaged.bind (·.lookup credentialId)
  | .ephemeral credentialId => state.ephemeral.lookup credentialId

def keyAt (state : CredentialState) (slot : CredentialSlot) : Option Text :=
  (state.entryAt slot).map (·.pubkey)

theorem keyAt_eq_some_iff {slot : CredentialSlot} {key : Text} :
    state.keyAt slot = some key ↔ ∃ entry, state.entryAt slot = some entry ∧ entry.pubkey = key :=
  Option.map_eq_some_iff

/-- The credential file has no identifier in common with the managed or the reserved entries. -/
def DisjointIds (state : CredentialState) : Prop :=
  ∀ credentialId entry, state.base.lookup credentialId = some entry →
    state.managedContainsId credentialId = false

theorem managedContainsId_eq_false_iff : state.managedContainsId credentialId = false ↔
      state.entryAt (.managed credentialId) = none ∧
        state.entryAt (.pending credentialId) = none := by
  unfold managedContainsId entryAt
  cases state.pendingManaged <;> simp

theorem DisjointIds.free (disjoint : state.DisjointIds)
    (held : state.base.lookup credentialId = some entry) :
    state.entryAt (.managed credentialId) = none ∧ state.entryAt (.pending credentialId) = none :=
  managedContainsId_eq_false_iff.mp (disjoint credentialId entry held)

theorem keyAt_of_base_subset {kept : Entries}
    (subset : ∀ credentialId entry, kept.lookup credentialId = some entry →
      state.base.lookup credentialId = some entry) (slot : CredentialSlot) (key : Text)
    (held : { state with base := kept }.keyAt slot = some key) : state.keyAt slot = some key := by
  cases slot with
  | base credentialId =>
    obtain ⟨entry, stays, same⟩ := keyAt_eq_some_iff.mp held
    exact keyAt_eq_some_iff.mpr ⟨entry, subset credentialId entry stays, same⟩
  | managed | pending | ephemeral => exact held

end CredentialState

/-! ## What the tests of the operations say about the slots -/

theorem usesPubkey_eq_false_iff {entries : List CredentialEntry} {pubkey : Text} :
    usesPubkey entries pubkey = false ↔ ∀ entry ∈ entries, entry.pubkey ≠ pubkey := by
  simp [usesPubkey]

theorem mem_tableValues_iff {Key : Type} [DecidableEq Key]
    {table : AList fun _ : Key => CredentialEntry} :
    entry ∈ tableValues table ↔ ∃ credentialId, table.lookup credentialId = some entry := by
  constructor
  · intro listed
    obtain ⟨⟨credentialId, value⟩, stored, rfl⟩ := List.mem_map.mp listed
    exact ⟨credentialId, AList.mem_lookup_iff.mpr stored⟩
  · rintro ⟨credentialId, stored⟩
    exact List.mem_map.mpr ⟨⟨credentialId, entry⟩, AList.mem_lookup_iff.mp stored, rfl⟩

theorem CredentialState.mem_managedEntries_iff : ⟨credentialId, entry⟩ ∈ state.managedEntries ↔
      state.entryAt (.managed credentialId) = some entry ∨
        state.entryAt (.pending credentialId) = some entry := by
  unfold managedEntries entryAt
  cases state.pendingManaged with
  | none => simp [← AList.mem_lookup_iff]
  | some pending => simp [← AList.mem_lookup_iff]

theorem CredentialState.mem_managedValues_iff : entry ∈ state.managedValues ↔
      ∃ credentialId, state.entryAt (.managed credentialId) = some entry ∨
        state.entryAt (.pending credentialId) = some entry := by
  constructor
  · intro listed
    obtain ⟨⟨credentialId, value⟩, stored, rfl⟩ := List.mem_map.mp listed
    exact ⟨credentialId, mem_managedEntries_iff.mp stored⟩
  · rintro ⟨credentialId, stored⟩
    exact List.mem_map.mpr ⟨⟨credentialId, entry⟩, mem_managedEntries_iff.mpr stored, rfl⟩

/-- The entry of a slot is listed among the values of the tables. -/
theorem CredentialState.listed_of_entryAt {slot : CredentialSlot}
    (held : state.entryAt slot = some entry) :
    entry ∈ (tableValues state.base ++ state.managedValues) ++ tableValues state.ephemeral := by
  rw [List.mem_append, List.mem_append, mem_tableValues_iff, mem_managedValues_iff,
    mem_tableValues_iff]
  cases slot with
  | base credentialId => exact .inl (.inl ⟨credentialId, held⟩)
  | managed credentialId => exact .inl (.inr ⟨credentialId, .inl held⟩)
  | pending credentialId => exact .inl (.inr ⟨credentialId, .inr held⟩)
  | ephemeral credentialId => exact .inr ⟨credentialId, held⟩

/-! ## Effects -/

/-- No two entries of the table have the same public key. -/
def UniquePubkeys (entries : Entries) : Prop :=
  ∀ first second one other, entries.lookup first = some one →
    entries.lookup second = some other → one.pubkey = other.pubkey → first = second

/-- A table of managed entries that passed `build_managed_entries` and
`validate_managed_conflicts`. -/
structure ValidReplacement (state : CredentialState) (replacement : Entries) : Prop where
  distinct : UniquePubkeys replacement
  ids : ∀ credentialId entry, replacement.lookup credentialId = some entry →
    state.base.lookup credentialId = none
  base : ∀ credentialId entry owner, replacement.lookup credentialId = some entry →
    state.keyAt (.base owner) ≠ some entry.pubkey
  ephemeral : ∀ credentialId entry owner, replacement.lookup credentialId = some entry →
    state.keyAt (.ephemeral owner) ≠ some entry.pubkey

theorem ValidReplacement.lookup_eq_none {replacement : Entries}
    (valid : ValidReplacement state replacement)
    (held : state.base.lookup credentialId = some entry) :
    replacement.lookup credentialId = none := by
  cases owned : replacement.lookup credentialId with
  | none => rfl
  | some other => exact absurd ((valid.ids credentialId other owned).symm.trans held) (by simp)

/-- The table of the credential file has been written and taken over. -/
structure Committed (before : CredentialManager) (updated : Entries) (after : CredentialManager) :
    Prop where
  available : before.storageLoadError = none
  result : after =
    { before with
      state.base := updated, storage := before.storage.map fun _ => Stored.snapshot updated }

/-- The credential file and what is in storage are as they were. -/
structure SameFile (before after : CredentialManager) : Prop where
  base : after.state.base = before.state.base
  storage : after.storage = before.storage
  storageLoadError : after.storageLoadError = before.storageLoadError

/-- What an operation can do that leaves the reserved replacement alone. -/
inductive TableEffect (library : CredentialLibrary) :
    CredentialManager → CredentialManager → Prop
  | unchanged {manager : CredentialManager} : TableEffect library manager manager
  /-- Entries of the credential file are dropped. -/
  | shrink {before after : CredentialManager} {updated : Entries}
      (subset : ∀ credentialId entry, updated.lookup credentialId = some entry →
        before.state.base.lookup credentialId = some entry)
      (committed : Committed before updated after) : TableEffect library before after
  /-- Entries of the credential file may be dropped and one is written. -/
  | write {before after : CredentialManager} {kept : Entries} {credentialId : Text}
      {entry : CredentialEntry}
      (subset : ∀ credentialId entry, kept.lookup credentialId = some entry →
        before.state.base.lookup credentialId = some entry)
      (unmanaged : before.state.managedContainsId credentialId = false)
      (fresh : ∀ slot, slot ≠ .base credentialId →
        { before.state with base := kept }.keyAt slot ≠ some entry.pubkey)
      (normal : entry.grant.Normal library)
      (committed : Committed before (kept.insert credentialId entry) after) :
      TableEffect library before after
  | attach {before : CredentialManager} {credentialId : Uuid} {entry : CredentialEntry}
      (fresh : ∀ slot, before.state.keyAt slot ≠ some entry.pubkey) :
      TableEffect library before
        { before with state.ephemeral := before.state.ephemeral.insert credentialId entry }
  /-- Credentials of attached peers are dropped or get other groups. -/
  | regroup {before : CredentialManager} {table : AList fun _ : Uuid => CredentialEntry}
      (sameKeys : ∀ credentialId entry, table.lookup credentialId = some entry →
        before.state.keyAt (.ephemeral credentialId) = some entry.pubkey) :
      TableEffect library before { before with state.ephemeral := table }
  | replace {before : CredentialManager} {replacement : Entries}
      (valid : ValidReplacement before.state replacement) :
      TableEffect library before { before with state.managed := replacement }

/-- What an operation can do to the tables and the storage. -/
inductive CredentialEffect (library : CredentialLibrary) :
    CredentialManager → CredentialManager → Prop
  | table {before after : CredentialManager} (effect : TableEffect library before after) :
      CredentialEffect library before after
  | reserve {before : CredentialManager} {replacement : Entries}
      (valid : ValidReplacement before.state replacement) :
      CredentialEffect library before { before with state.pendingManaged := some replacement }
  | install {before : CredentialManager} {pending : Entries}
      (reserved : before.state.pendingManaged = some pending) :
      CredentialEffect library before
        { before with state.managed := pending, state.pendingManaged := none }
  | release {before : CredentialManager} :
      CredentialEffect library before { before with state.pendingManaged := none }

/-- A successful write takes the table over in memory and in storage. -/
theorem CredentialManager.committed_of_storeBase {manager stored : CredentialManager}
    {base : Entries} {storeError : Option Text}
    (written : manager.storeBase base storeError = .ok stored) : Committed manager base stored := by
  unfold storeBase ensureStorageAvailable at written
  split at written
  · cases written
  · rename_i available absent
    cases written
    refine ⟨?_, by rw [absent]; rfl⟩
    split at available
    · cases available
    assumption
  · cases written
  · rename_i available present
    cases written
    refine ⟨?_, by rw [present]; rfl⟩
    split at available
    · cases available
    assumption

namespace CredentialManager

variable {manager : CredentialManager} {now createdAt : Int} {draws : GenerateDraws}
  {storeError : Option Text} {groups : List Text} {credentials : List ManagedCredentialConfig}
  {changed : Bool}

theorem lookup_activeEntries
    (active : (activeEntries now entries).lookup credentialId = some entry) :
    entries.lookup credentialId = some entry :=
  (lookup_retain_iff.mp active).1

variable {after : CredentialManager}
  {performed : Except CredentialError GeneratedCredential × CredentialManager}
  {options : CredentialCreateOptions}

/-- An operation that fails has changed nothing. -/
def Failsafe {Result : Type} (manager : CredentialManager)
    (performed : Except CredentialError Result × CredentialManager) : Prop :=
  ∀ error, performed.1 = .error error → performed.2 = manager

/-- An operation has an effect on the tables, and none if it fails. -/
def Performs {Result : Type} (library : CredentialLibrary) (manager : CredentialManager)
    (performed : Except CredentialError Result × CredentialManager) : Prop :=
  TableEffect library manager performed.2 ∧ Failsafe manager performed

theorem Performs.same {Result : Type} {reply : Except CredentialError Result} :
    Performs library manager (reply, manager) :=
  ⟨.unchanged, fun _ _ => rfl⟩

theorem Performs.ok {Result : Type} {result : Result} (effect : TableEffect library manager after) :
    Performs library manager (.ok result, after) :=
  ⟨effect, fun _ failed => nomatch failed⟩

theorem generateUnder_performs {updated : Entries} {id : Text}
    (subset : ∀ credentialId entry, updated.lookup credentialId = some entry →
      manager.state.base.lookup credentialId = some entry)
    (unmanaged : manager.state.managedContainsId id = false)
    (done : manager.generateUnder library updated id options draws = some performed) :
    Performs library manager performed := by
  unfold generateUnder at done
  split at done
  · cases done
    exact .same
  rename_i grant granted
  obtain ⟨entry, found, replied⟩ := Option.map_eq_some_iff.mp done
  have unused := List.find?_some found
  obtain ⟨draw, -, built⟩ := List.mem_map.mp (List.mem_of_find?_eq_some found)
  rw [Bool.not_eq_true', usesPubkey_eq_false_iff] at unused
  split at replied
  · cases replied
    exact .same
  rename_i stored written
  cases replied
  refine .ok (.write subset unmanaged ?_ ?_ (committed_of_storeBase written))
  · intro slot elsewhere used
    obtain ⟨owner, held, same⟩ := keyAt_eq_some_iff.mp used
    exact unused owner (listed_of_entryAt held) same
  · rw [← built]
    exact normal_of_normalize granted

theorem generateCredentialWithOptions_performs
    (done : manager.generateCredentialWithOptions library options draws = some performed) :
    Performs library manager performed := by
  unfold generateCredentialWithOptions at done
  split at done
  · cases done
    exact .same
  dsimp only at done
  split at done
  · split at done
    · cases done
      exact .same
    rename_i unmanaged
    split at done
    · cases done
      exact .same
    · exact generateUnder_performs (fun _ _ => lookup_activeEntries)
        (Bool.eq_false_iff.mpr unmanaged) done
  · obtain ⟨id, found, generated⟩ := Option.bind_eq_some_iff.mp done
    have fresh := List.find?_some found
    rw [Bool.and_eq_true, Bool.not_eq_true'] at fresh
    exact generateUnder_performs (fun _ _ => lookup_activeEntries) fresh.2 generated

theorem revokeCredential_performs :
    Performs library manager (manager.revokeCredential credentialId storeError) := by
  unfold revokeCredential
  split
  · exact .same
  split
  · exact .same
  · split
    · exact .same
    · rename_i stored written
      refine .ok (.shrink (fun other entry kept => ?_) (committed_of_storeBase written))
      exact (lookup_erase_iff.mp kept).2

theorem removeExpiredCredentials_effect :
    TableEffect library manager (manager.removeExpiredCredentials now storeError).2 := by
  unfold removeExpiredCredentials
  dsimp only
  split
  · exact .unchanged
  · split
    · exact .unchanged
    · rename_i stored written
      exact .shrink (fun _ _ => lookup_activeEntries) (committed_of_storeBase written)

/-- The grant of an entry to write has been normalised. -/
theorem normal_of_upsertEntry {options : CredentialUpsertOptions}
    (built : upsertEntry library options now createdAt = .ok entry) :
    entry.grant.Normal library := by
  unfold upsertEntry at built
  simp only [bind, Except.bind, pure, Except.pure] at built
  split at built
  · cases built
  split at built
  · cases built
  split at built
  · cases built
  split at built
  · cases built
  rename_i grant granted
  cases built
  cases made : CredentialGrant.new library options.groups options.allowRelay
      options.allowedProxyCidrs options.reusable with
  | error => rw [made] at granted; cases granted
  | ok normalized =>
    rw [made] at granted
    cases granted
    exact normal_of_normalize made

theorem upsertCredential_performs {options : CredentialUpsertOptions} :
    Performs library manager
      (manager.upsertCredential library options now createdAt storeError) := by
  unfold upsertCredential
  split
  · exact .same
  · exact .same
  · rename_i entry _ built _
    dsimp only
    split
    · exact .same
    rename_i unmanaged
    split
    · exact .same
    rename_i unshared
    split
    · exact .same
    rename_i unattached
    split
    · exact .same
    split
    · exact .same
    rename_i stored written
    have unmanaged := Bool.eq_false_iff.mpr unmanaged
    refine .ok (.write (fun _ _ kept => kept) unmanaged ?_ (normal_of_upsertEntry built)
      (committed_of_storeBase written))
    rw [Bool.not_eq_true, List.any_eq_false] at unshared
    rw [Bool.not_eq_true, usesPubkey_eq_false_iff] at unattached
    rw [managedContainsId_eq_false_iff] at unmanaged
    -- An entry under the same identifier could only be the one of the credential file.
    have other : ∀ credentialId existing,
        ⟨credentialId, existing⟩ ∈
          manager.state.base.entries ++ manager.state.managedEntries →
        credentialId ≠ trim options.credentialId → existing.pubkey ≠ entry.pubkey := by
      intro credentialId existing listed differs same
      have shared := unshared ⟨credentialId, existing⟩ listed
      simp [differs, same] at shared
    intro slot elsewhere used
    obtain ⟨owner, held, same⟩ := keyAt_eq_some_iff.mp used
    cases slot with
    | base credentialId =>
      refine other credentialId owner
        (List.mem_append_left _ (AList.mem_lookup_iff.mp held)) ?_ same
      rintro rfl
      exact elsewhere rfl
    | managed credentialId =>
      refine other credentialId owner (List.mem_append_right _
        (mem_managedEntries_iff.mpr (.inl held))) ?_ same
      rintro rfl
      exact absurd (unmanaged.1.symm.trans held) (by simp)
    | pending credentialId =>
      refine other credentialId owner (List.mem_append_right _
        (mem_managedEntries_iff.mpr (.inr held))) ?_ same
      rintro rfl
      exact absurd (unmanaged.2.symm.trans held) (by simp)
    | ephemeral credentialId =>
      exact unattached owner (mem_tableValues_iff.mpr ⟨credentialId, held⟩) same

theorem registerEphemeralCredential_performs {publicKey : KeyBytes} {drawn : Uuid} :
    Performs library manager
      (manager.registerEphemeralCredential library publicKey groups now drawn) := by
  unfold registerEphemeralCredential
  dsimp only
  split
  · exact .same
  rename_i unused
  rw [Bool.not_eq_true, Bool.or_eq_false_iff, usesPubkey_eq_false_iff,
    usesPubkey_eq_false_iff] at unused
  refine .ok (.attach fun slot used => ?_)
  obtain ⟨owner, held, same⟩ := keyAt_eq_some_iff.mp used
  rcases List.mem_append.mp (listed_of_entryAt held) with listed | listed
  · exact unused.1 owner listed same
  · exact unused.2 owner listed same

theorem updateEphemeralCredentialGroups_effect {credentialId : Uuid} :
    TableEffect library manager
      (manager.updateEphemeralCredentialGroups credentialId groups).2 := by
  unfold updateEphemeralCredentialGroups
  split
  · exact .unchanged
  rename_i credential held
  split
  · exact .unchanged
  refine .regroup fun other entry stored => ?_
  rw [keyAt_eq_some_iff]
  rw [lookup_insert_eq] at stored
  split at stored
  case isTrue same =>
    cases stored
    exact ⟨credential, same ▸ held, rfl⟩
  case isFalse => exact ⟨entry, stored, rfl⟩

theorem revokeEphemeralCredential_effect {credentialId : Uuid} :
    TableEffect library manager (manager.revokeEphemeralCredential credentialId).2 := by
  refine .regroup fun other entry stored => ?_
  rw [keyAt_eq_some_iff]
  exact ⟨entry, (lookup_erase_iff.mp stored).2, rfl⟩

/-- The keys of the managed entries built so far are distinct. -/
theorem buildManagedEntry_distinct {built : Entries} {config : ManagedCredentialConfig}
    (distinct : UniquePubkeys entries)
    (done : buildManagedEntry library entries config = .ok built) : UniquePubkeys built := by
  unfold buildManagedEntry at done
  simp only [bind, Except.bind, pure, Except.pure] at done
  split at done
  · cases done
  split at done
  · cases done
  split at done
  · cases done
  rename_i unused
  split at done
  · cases done
  cases done
  rw [Bool.not_eq_true, usesPubkey_eq_false_iff] at unused
  intro first second one other here there same
  rw [lookup_insert_eq] at here there
  split at here <;> split at there
  · simp_all
  · cases here
    exact absurd same.symm (unused other (mem_tableValues_iff.mpr ⟨second, there⟩))
  · cases there
    exact absurd same (unused one (mem_tableValues_iff.mpr ⟨first, here⟩))
  · exact distinct first second one other here there same

section

variable {replacement : Entries} (built : buildManagedEntries library credentials = .ok replacement)
include built

theorem buildManagedEntries_distinct :
    UniquePubkeys replacement := by
  have distinct : UniquePubkeys ∅ := by
    intro first second one other here
    cases here
  unfold buildManagedEntries at built
  -- The loop keeps the keys of its table distinct, whatever table it starts from.
  generalize (∅ : Entries) = entries at built distinct
  induction credentials generalizing entries with
  | nil =>
    cases built
    exact distinct
  | cons config credentials ih =>
    rw [List.foldlM_cons] at built
    cases next : buildManagedEntry library entries config with
    | error => rw [next] at built; cases built
    | ok entries' =>
      rw [next] at built
      exact ih entries' built (buildManagedEntry_distinct distinct next)

theorem validReplacement_of_checks
    (checked : validateManagedConflicts manager.state replacement = .ok ()) :
    ValidReplacement manager.state replacement := by
  unfold validateManagedConflicts at checked
  split at checked
  · cases checked
  rename_i unowned
  split at checked
  · cases checked
  rename_i unused
  rw [List.find?_eq_none] at unowned
  rw [Bool.not_eq_true, List.any_eq_false] at unused
  have keys : ∀ credentialId entry, replacement.lookup credentialId = some entry →
      ∀ owner ∈ tableValues manager.state.base ++ tableValues manager.state.ephemeral,
        owner.pubkey ≠ entry.pubkey := by
    intro credentialId entry stored
    have unusedHere := unused entry (mem_tableValues_iff.mpr ⟨credentialId, stored⟩)
    rwa [Bool.not_eq_true, usesPubkey_eq_false_iff] at unusedHere
  refine ⟨buildManagedEntries_distinct built, ?_, ?_, ?_⟩
  · intro credentialId entry stored
    have listed : credentialId ∈ replacement.keys :=
      AList.mem_keys.mp (AList.lookup_isSome.mp (by rw [stored]; rfl))
    simpa using unowned credentialId listed
  · intro credentialId entry owner stored used
    obtain ⟨existing, held, same⟩ := keyAt_eq_some_iff.mp used
    exact keys credentialId entry stored existing
      (List.mem_append_left _ (mem_tableValues_iff.mpr ⟨owner, held⟩)) same
  · intro credentialId entry owner stored used
    obtain ⟨existing, held, same⟩ := keyAt_eq_some_iff.mp used
    exact keys credentialId entry stored existing
      (List.mem_append_right _ (mem_tableValues_iff.mpr ⟨owner, held⟩)) same

end

theorem installInitialManagedCredentials_performs :
    Performs library manager (manager.installInitialManagedCredentials library credentials) := by
  unfold installInitialManagedCredentials
  split
  · exact .same
  · exact .same
  · rename_i replacement _ built
    split
    · exact .same
    · rename_i checked
      exact .ok (.replace (validReplacement_of_checks built checked))

/-- A validation fails, finds that it changes nothing, or reserves a replacement while nothing else
is reserved. -/
theorem validateManagedCredentials_cases {result : Except CredentialError Bool}
    (validated : manager.validateManagedCredentials library credentials = (result, after)) :
    (after = manager ∧ ∀ changed, result = .ok changed → changed = false) ∨
      (result = .ok true ∧ manager.state.pendingManaged = none ∧
        ∃ replacement, ValidReplacement manager.state replacement ∧
          after = { manager with state.pendingManaged := some replacement }) := by
  unfold validateManagedCredentials at validated
  split at validated
  · cases validated
    exact .inl ⟨rfl, nofun⟩
  rename_i replacement built
  split at validated
  · cases validated
    exact .inl ⟨rfl, nofun⟩
  rename_i free
  split at validated
  · cases validated
    exact .inl ⟨rfl, nofun⟩
  rename_i checked
  split at validated
  · cases validated
    exact .inl ⟨rfl, fun _ same => (Except.ok.inj same).symm⟩
  · cases validated
    exact .inr ⟨rfl, by simpa using free, replacement,
      validReplacement_of_checks built checked, rfl⟩

theorem installManagedCredentials_effect {installed : Bool}
    (done : manager.installManagedCredentials changed = some (installed, after)) :
    CredentialEffect library manager after := by
  unfold installManagedCredentials at done
  split at done
  · cases done
    exact .table .unchanged
  · obtain ⟨pending, reserved, replied⟩ := Option.map_eq_some_iff.mp done
    cases replied
    exact .install reserved

theorem dropReplacement_effect :
    CredentialEffect library manager (manager.dropReplacement changed) := by
  unfold dropReplacement
  split
  · exact .release
  · exact .table .unchanged

end CredentialManager

/-! ## What the effects keep -/

/-- A valid replacement written to a table of its own keeps the keys distinct, when the only table
it was not compared with is exempt. -/
theorem ValidReplacement.distinctKeys {before after : CredentialState} {replacement : Entries}
    (valid : ValidReplacement before replacement) (slotOf : Text → CredentialSlot)
    (distinct : DistinctKeys CredentialSlot.Restates before.keyAt)
    (written : ∀ credentialId,
      after.entryAt (slotOf credentialId) = replacement.lookup credentialId)
    (outside : ∀ slot, (∀ credentialId, slot ≠ slotOf credentialId) →
      after.entryAt slot = before.entryAt slot)
    (exempt : slotOf = .managed ∨ slotOf = .pending) :
    DistinctKeys CredentialSlot.Restates after.keyAt := by
  refine distinct.rewrite symm (∃ credentialId, · = slotOf credentialId)
    ?_ ?_ ?_
  · intro slot key elsewhere held
    rwa [keyAt, outside slot (not_exists.mp elsewhere)] at held
  · rintro _ _ key ⟨first, rfl⟩ ⟨second, rfl⟩ here there
    obtain ⟨one, stored, rfl⟩ := keyAt_eq_some_iff.mp here
    obtain ⟨other, stored', same⟩ := keyAt_eq_some_iff.mp there
    rw [written] at stored stored'
    exact .inl (congrArg slotOf (valid.distinct first second one other stored stored' same.symm))
  · rintro _ slot key ⟨first, rfl⟩ elsewhere here there
    obtain ⟨one, stored, rfl⟩ := keyAt_eq_some_iff.mp here
    rw [written] at stored
    cases slot with
    | base owner => exact absurd there (valid.base first one owner stored)
    | ephemeral owner => exact absurd there (valid.ephemeral first one owner stored)
    | managed owner =>
      rcases exempt with rfl | rfl
      · exact absurd ⟨owner, rfl⟩ elsewhere
      · exact trivial
    | pending owner =>
      rcases exempt with rfl | rfl
      · exact trivial
      · exact absurd ⟨owner, rfl⟩ elsewhere

namespace TableEffect

variable {before after : CredentialManager}

section

variable (effect : TableEffect library before after)
include effect

theorem distinctKeys (distinct : DistinctKeys CredentialSlot.Restates before.state.keyAt) :
    DistinctKeys CredentialSlot.Restates after.state.keyAt := by
  cases effect with
  | unchanged => exact distinct
  | shrink subset committed =>
    obtain ⟨-, rfl⟩ := committed
    exact distinct.of_subset (keyAt_of_base_subset subset)
  | @write _ kept credentialId entry subset unmanaged fresh normal committed =>
    obtain ⟨-, rfl⟩ := committed
    -- First the entries that are dropped, then the one that is written.
    have remaining : DistinctKeys CredentialSlot.Restates
        { before.state with base := kept }.keyAt :=
      distinct.of_subset (keyAt_of_base_subset subset)
    refine remaining.write symm (.base credentialId) ?_ ?_
    · intro slot key elsewhere held
      cases slot with
      | base other =>
        have differs : other ≠ credentialId := by
          rintro rfl
          exact elsewhere rfl
        simpa only [keyAt, entryAt, AList.lookup_insert_ne differs] using held
      | managed | pending | ephemeral => exact held
    · intro slot key elsewhere held
      simp only [keyAt, entryAt, AList.lookup_insert, Option.map_some, Option.some.injEq] at held
      exact held ▸ fresh slot elsewhere
  | @attach credentialId entry fresh =>
    refine distinct.write symm (.ephemeral credentialId) ?_ ?_
    · intro slot key elsewhere held
      cases slot with
      | ephemeral other =>
        have differs : other ≠ credentialId := by
          rintro rfl
          exact elsewhere rfl
        simpa only [keyAt, entryAt, AList.lookup_insert_ne differs] using held
      | base | managed | pending => exact held
    · intro slot key _ held
      simp only [keyAt, entryAt, AList.lookup_insert, Option.map_some, Option.some.injEq] at held
      exact held ▸ fresh slot
  | regroup sameKeys =>
    refine distinct.of_subset fun slot key held => ?_
    cases slot with
    | ephemeral credentialId =>
      obtain ⟨entry, stored, rfl⟩ := keyAt_eq_some_iff.mp held
      exact sameKeys credentialId entry stored
    | base | managed | pending => exact held
  | replace valid =>
    refine valid.distinctKeys .managed distinct (fun _ => rfl) ?_ (.inl rfl)
    intro slot elsewhere
    cases slot with
    | managed credentialId => exact absurd rfl (elsewhere credentialId)
    | base | pending | ephemeral => rfl

theorem disjointIds (disjoint : before.state.DisjointIds) : after.state.DisjointIds := by
  intro credentialId entry held
  rw [managedContainsId_eq_false_iff]
  cases effect with
  | unchanged => exact disjoint.free held
  | shrink subset committed =>
    obtain ⟨-, rfl⟩ := committed
    exact disjoint.free (subset credentialId entry held)
  | @write _ remaining written value subset unmanaged fresh normal committed =>
    obtain ⟨-, rfl⟩ := committed
    rw [lookup_insert_eq] at held
    split at held
    case isTrue same =>
      rw [same]
      exact managedContainsId_eq_false_iff.mp unmanaged
    case isFalse => exact disjoint.free (subset credentialId entry held)
  | attach | regroup => exact disjoint.free held
  | replace valid => exact ⟨valid.lookup_eq_none held, (disjoint.free held).2⟩

theorem normalBase
    (normal : AllEntries (fun _ entry => entry.grant.Normal library) before.state.base) :
    AllEntries (fun _ entry => entry.grant.Normal library) after.state.base := by
  cases effect with
  | shrink subset committed =>
    obtain ⟨-, rfl⟩ := committed
    exact fun credentialId entry kept => normal credentialId entry (subset credentialId entry kept)
  | write subset _ _ written committed =>
    obtain ⟨-, rfl⟩ := committed
    exact AllEntries.insert
      (fun credentialId entry kept => normal credentialId entry (subset credentialId entry kept))
      written
  | unchanged | attach | regroup | replace => exact normal

/-- An operation leaves the credential file alone or ends with its table stored. -/
theorem stored : SameFile before after ∨ Committed before after.state.base after := by
  cases effect with
  | shrink _ committed | write _ _ _ _ committed =>
    obtain ⟨available, rfl⟩ := committed
    exact .inr ⟨available, rfl⟩
  | unchanged | attach | regroup | replace => exact .inl ⟨rfl, rfl, rfl⟩

theorem pendingManaged : after.state.pendingManaged = before.state.pendingManaged := by
  cases effect with
  | shrink _ committed | write _ _ _ _ committed => rw [committed.result]
  | unchanged | attach | regroup | replace => rfl

end

end TableEffect

namespace CredentialEffect

variable {before after : CredentialManager}

section

variable (effect : CredentialEffect library before after)
include effect

theorem distinctKeys (distinct : DistinctKeys CredentialSlot.Restates before.state.keyAt) :
    DistinctKeys CredentialSlot.Restates after.state.keyAt := by
  cases effect with
  | table effect => exact effect.distinctKeys distinct
  | reserve valid =>
    refine valid.distinctKeys .pending distinct (fun _ => rfl) ?_ (.inr rfl)
    intro slot elsewhere
    cases slot with
    | pending credentialId => exact absurd rfl (elsewhere credentialId)
    | base | managed | ephemeral => rfl
  | @install pending reserved =>
    -- What is managed now was reserved before.
    have was : ∀ credentialId key, (pending.lookup credentialId).map (·.pubkey) = some key →
        before.state.keyAt (.pending credentialId) = some key := by
      intro credentialId key held
      rw [keyAt, entryAt, reserved]
      exact held
    refine distinct.rewrite symm
      (fun slot => ∃ credentialId, slot = .managed credentialId ∨ slot = .pending credentialId)
      ?_ ?_ ?_
    · intro slot key elsewhere held
      cases slot with
      | managed credentialId => exact absurd ⟨credentialId, .inl rfl⟩ elsewhere
      | pending credentialId => exact absurd ⟨credentialId, .inr rfl⟩ elsewhere
      | base | ephemeral => exact held
    · rintro _ _ key ⟨first, rfl | rfl⟩ ⟨second, rfl | rfl⟩ here there
      · rcases distinct _ _ key (was first key here) (was second key there) with same | exempt
        · cases same
          exact .inl rfl
        · exact exempt.elim
      · cases there
      · cases here
      · cases here
    · rintro _ slot key ⟨first, rfl | rfl⟩ elsewhere here there
      · rcases distinct _ _ key (was first key here) there with same | exempt
        · exact absurd ⟨first, .inr same.symm⟩ elsewhere
        cases slot with
        | managed credentialId => exact absurd ⟨credentialId, .inl rfl⟩ elsewhere
        | base | pending | ephemeral => exact exempt.elim
      · cases here
  | release =>
    refine distinct.of_subset fun slot key held => ?_
    cases slot with
    | pending => cases held
    | base | managed | ephemeral => exact held

theorem disjointIds (disjoint : before.state.DisjointIds) : after.state.DisjointIds := by
  cases effect with
  | table effect => exact effect.disjointIds disjoint
  | reserve valid =>
    intro credentialId entry held
    exact managedContainsId_eq_false_iff.mpr ⟨(disjoint.free held).1, valid.lookup_eq_none held⟩
  | @install pending reserved =>
    intro credentialId entry held
    have free := disjoint.free held
    rw [entryAt, entryAt, reserved] at free
    exact managedContainsId_eq_false_iff.mpr ⟨free.2, rfl⟩
  | release =>
    intro credentialId entry held
    exact managedContainsId_eq_false_iff.mpr ⟨(disjoint.free held).1, rfl⟩

theorem normalBase
    (normal : AllEntries (fun _ entry => entry.grant.Normal library) before.state.base) :
    AllEntries (fun _ entry => entry.grant.Normal library) after.state.base := by
  cases effect with
  | table effect => exact effect.normalBase normal
  | reserve | install | release => exact normal

theorem stored : SameFile before after ∨ Committed before after.state.base after := by
  cases effect with
  | table effect => exact effect.stored
  | reserve | install | release => exact .inl ⟨rfl, rfl, rfl⟩

end

end CredentialEffect

/-! ## Restarts -/

/-- What the storage holds is what the manager started from or the table of the credential file as
it is now, and loading it again gives that table. -/
def Persisted (library : CredentialLibrary) (start : Stored) (manager : CredentialManager) : Prop :=
  ∃ stored, manager.storage = some stored ∧
    (stored = start ∨ stored = .snapshot manager.state.base) ∧
    (CredentialManager.fromStorage library stored).state.base = manager.state.base ∧
    (CredentialManager.fromStorage library stored).storageLoadError = manager.storageLoadError

/-- A table of normal entries is loaded as it was stored. -/
theorem normalizeLoadedEntries_of_normal
    (normal : AllEntries (fun _ entry => entry.grant.Normal library) entries) :
    normalizeLoadedEntries library entries = .ok entries := by
  have accepted : entries.entries.findSome? (fun entry =>
      storedEntryError library entry.1 entry.2) = none := by
    rw [List.findSome?_eq_none_iff]
    intro entry listed
    have isNormal : entry.2.grant.normalize library = .ok entry.2.grant :=
      normal entry.1 entry.2 (AList.mem_lookup_iff.mpr listed)
    simp only [storedEntryError, isNormal]
  have fixed : mapValues (normalized library) entries = entries := by
    refine mapValues_eq_self fun credentialId entry held => ?_
    have isNormal : entry.grant.normalize library = .ok entry.grant :=
      normal credentialId entry held
    simp only [normalized, isNormal]
  rw [normalizeLoadedEntries, accepted, fixed]

/-- What is loaded has normal grants. -/
theorem normal_of_normalizeLoadedEntries {loaded : Entries}
    (done : normalizeLoadedEntries library entries = .ok loaded) :
    AllEntries (fun _ entry => entry.grant.Normal library) loaded := by
  unfold normalizeLoadedEntries at done
  split at done
  · cases done
  rename_i accepted
  cases done
  intro credentialId entry held
  rw [lookup_mapValues] at held
  obtain ⟨stored, listed, rfl⟩ := Option.map_eq_some_iff.mp held
  have ok := List.findSome?_eq_none_iff.mp accepted _ (AList.mem_lookup_iff.mp listed)
  unfold storedEntryError at ok
  unfold normalized
  split at ok
  · rename_i grant granted
    simp only [granted]
    exact normal_of_normalize granted
  · cases ok

end EasyTier.Peers
