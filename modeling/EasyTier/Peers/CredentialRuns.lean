import EasyTier.Peers.CredentialStore
import Mathlib.Data.List.Perm.Basic

/-! # Runs of the credential manager

A run starts from what the storage holds and takes the operations in any order, with any clock,
any random draws and any outcome of the writes. A validated replacement is a token that is later
installed or dropped, once.
-/

namespace EasyTier.Peers

open Data Acl Semantics CredentialManager CredentialState

/-- The manager and the `changed` flags of the replacements neither installed nor dropped yet. -/
structure CredentialWorld where
  manager : CredentialManager
  replacements : List Bool

/-- The calls of a manager; a write to the storage may fail. -/
inductive CredentialEvent where
  | generate (options : CredentialCreateOptions) (draws : GenerateDraws)
  | upsert (options : CredentialUpsertOptions) (now createdAt : Int) (storeError : Option Text)
  | revoke (credentialId : Text) (storeError : Option Text)
  | removeExpired (now : Int) (storeError : Option Text)
  | registerEphemeral (publicKey : KeyBytes) (groups : List Text) (now : Int) (drawn : Uuid)
  | updateEphemeralGroups (credentialId : Uuid) (groups : List Text)
  | revokeEphemeral (credentialId : Uuid)
  | installInitialManaged (credentials : List ManagedCredentialConfig)
  | validateManaged (credentials : List ManagedCredentialConfig)
  /-- Install the replacement at an index of the outstanding ones. -/
  | installManaged (index : Nat)
  | dropReplacement (index : Nat)

/-- What an operation that succeeds returns. -/
inductive CredentialReply where
  | generated (credential : GeneratedCredential)
  | registered (credentialId : Uuid)
  | changed (changed : Bool)
  | updated (updated : Option Bool)
  | replacement (changed : Bool)
  | done
  deriving DecidableEq, Repr

namespace CredentialWorld

/-- The manager after an operation, with its reply. -/
def answer {Result : Type} (world : CredentialWorld) (reply : Result → CredentialReply)
    (performed : Except CredentialError Result × CredentialManager) :
    Except CredentialError CredentialReply × CredentialWorld :=
  (performed.1.map reply, { world with manager := performed.2 })

/-- The manager after a validation, which adds a replacement to the outstanding ones. -/
def hold (world : CredentialWorld) :
    Except CredentialError Bool × CredentialManager →
      Except CredentialError CredentialReply × CredentialWorld
  | (.error error, manager) => (.error error, { world with manager := manager })
  | (.ok changed, manager) =>
    (.ok (.replacement changed),
      { manager := manager, replacements := world.replacements ++ [changed] })

/-- One operation. There is no result while a loop has not drawn a free identifier or key, for a
replacement that does not exist, and where the installation of one would fail its `expect`. -/
def perform (library : CredentialLibrary) (world : CredentialWorld) :
    CredentialEvent → Option (Except CredentialError CredentialReply × CredentialWorld)
  | .generate options draws =>
    (world.manager.generateCredentialWithOptions library options draws).map
      (world.answer .generated)
  | .upsert options now createdAt storeError =>
    some (world.answer .changed
      (world.manager.upsertCredential library options now createdAt storeError))
  | .revoke credentialId storeError =>
    some (world.answer .changed (world.manager.revokeCredential credentialId storeError))
  | .removeExpired now storeError =>
    let (removed, manager) := world.manager.removeExpiredCredentials now storeError
    some (.ok (.changed removed), { world with manager := manager })
  | .registerEphemeral publicKey groups now drawn =>
    some (world.answer .registered
      (world.manager.registerEphemeralCredential library publicKey groups now drawn))
  | .updateEphemeralGroups credentialId groups =>
    let (updated, manager) := world.manager.updateEphemeralCredentialGroups credentialId groups
    some (.ok (.updated updated), { world with manager := manager })
  | .revokeEphemeral credentialId =>
    let (revoked, manager) := world.manager.revokeEphemeralCredential credentialId
    some (.ok (.changed revoked), { world with manager := manager })
  | .installInitialManaged credentials =>
    some (world.answer (fun _ => .done)
      (world.manager.installInitialManagedCredentials library credentials))
  | .validateManaged credentials =>
    some (world.hold (world.manager.validateManagedCredentials library credentials))
  | .installManaged index =>
    world.replacements[index]?.bind fun changed =>
      (world.manager.installManagedCredentials changed).map fun (installed, manager) =>
        (.ok (.changed installed),
          { manager := manager, replacements := world.replacements.eraseIdx index })
  | .dropReplacement index =>
    world.replacements[index]?.map fun changed =>
      (.ok .done,
        { manager := world.manager.dropReplacement changed
          replacements := world.replacements.eraseIdx index })

variable {library : CredentialLibrary} {world after : CredentialWorld} {event : CredentialEvent}
  {reply : Except CredentialError CredentialReply}

theorem answer_performs {Result : Type} {result : Result → CredentialReply}
    {performed : Except CredentialError Result × CredentialManager}
    (performs : CredentialManager.Performs library world.manager performed)
    (answered : world.answer result performed = (reply, after)) :
    TableEffect library world.manager after.manager ∧ after.replacements = world.replacements ∧
      ∀ error, reply = .error error → after.manager = world.manager := by
  obtain ⟨returned, manager⟩ := performed
  cases answered
  refine ⟨performs.1, rfl, fun error failed => ?_⟩
  cases returned with
  | ok => cases failed
  | error => exact performs.2 _ rfl

/-- An operation has an effect on the tables, or adds a replacement to the outstanding ones, or
takes one of them away. -/
theorem perform_cases (done : world.perform library event = some (reply, after)) :
    (TableEffect library world.manager after.manager ∧ after.replacements = world.replacements ∧
      ∀ error, reply = .error error → after.manager = world.manager) ∨
    (∃ changed, reply = .ok (.replacement changed) ∧
      after.replacements = world.replacements ++ [changed] ∧
      ∃ credentials, world.manager.validateManagedCredentials library credentials =
        (.ok changed, after.manager)) ∨
    ∃ index changed result, world.replacements[index]? = some changed ∧ reply = .ok result ∧
      after.replacements = world.replacements.eraseIdx index ∧
      ((∃ installed, world.manager.installManagedCredentials changed =
        some (installed, after.manager)) ∨
        after.manager = world.manager.dropReplacement changed) := by
  cases event with
  | generate options draws =>
    obtain ⟨performed, generated, answered⟩ := Option.map_eq_some_iff.mp done
    exact .inl (answer_performs (generateCredentialWithOptions_performs generated) answered)
  | upsert =>
    exact .inl (answer_performs upsertCredential_performs (Option.some.inj done))
  | revoke =>
    exact .inl (answer_performs revokeCredential_performs (Option.some.inj done))
  | removeExpired =>
    cases done
    exact .inl ⟨removeExpiredCredentials_effect, rfl, nofun⟩
  | registerEphemeral =>
    exact .inl (answer_performs registerEphemeralCredential_performs (Option.some.inj done))
  | updateEphemeralGroups =>
    cases done
    exact .inl ⟨updateEphemeralCredentialGroups_effect, rfl, nofun⟩
  | revokeEphemeral =>
    cases done
    exact .inl ⟨revokeEphemeralCredential_effect, rfl, nofun⟩
  | installInitialManaged =>
    exact .inl (answer_performs installInitialManagedCredentials_performs (Option.some.inj done))
  | validateManaged credentials =>
    have held := Option.some.inj done
    cases validated : world.manager.validateManagedCredentials library credentials with
    | mk result manager =>
      rw [validated] at held
      cases result with
      | error =>
        cases held
        rcases validateManagedCredentials_cases validated with
          ⟨rfl, -⟩ | ⟨impossible, -⟩
        · exact .inl ⟨.unchanged, rfl, fun _ _ => rfl⟩
        · cases impossible
      | ok changed =>
        cases held
        exact .inr (.inl ⟨changed, rfl, rfl, credentials, validated⟩)
  | installManaged index =>
    obtain ⟨changed, outstanding, installs⟩ := Option.bind_eq_some_iff.mp done
    obtain ⟨⟨installed, manager⟩, replaced, answered⟩ := Option.map_eq_some_iff.mp installs
    cases answered
    exact .inr (.inr ⟨index, changed, _, outstanding, rfl, rfl, .inl ⟨installed, replaced⟩⟩)
  | dropReplacement index =>
    obtain ⟨changed, outstanding, answered⟩ := Option.map_eq_some_iff.mp done
    cases answered
    exact .inr (.inr ⟨index, changed, _, outstanding, rfl, rfl, .inr rfl⟩)

/-- An operation is one of the effects. -/
theorem perform_effect (done : world.perform library event = some (reply, after)) :
    CredentialEffect library world.manager after.manager := by
  rcases perform_cases done with ⟨effect, -⟩ | ⟨changed, -, -, credentials, validated⟩ |
    ⟨index, changed, result, -, -, -, ⟨installed, replaced⟩ | dropped⟩
  · exact .table effect
  · rcases validateManagedCredentials_cases validated with
      ⟨same, -⟩ | ⟨-, -, replacement, valid, same⟩
    · rw [same]
      exact .table .unchanged
    · rw [same]
      exact .reserve valid
  · exact installManagedCredentials_effect replaced
  · rw [dropped]
    exact dropReplacement_effect

/-- An operation that fails leaves everything as it was. -/
theorem perform_failed {error : CredentialError}
    (failed : world.perform library event = some (.error error, after)) : after = world := by
  rcases perform_cases failed with ⟨-, replacements, unchanged⟩ | ⟨_, impossible, -⟩ |
    ⟨_, _, _, -, impossible, -⟩
  · cases world
    cases replacements
    cases unchanged error rfl
    rfl
  · cases impossible
  · cases impossible

/-! ## Outstanding replacements -/

/-- Something is reserved exactly while a replacement that changes something is outstanding. -/
def Reserves (world : CredentialWorld) : Prop :=
  world.replacements.count true = if world.manager.state.pendingManaged.isSome then 1 else 0

variable {index : Nat}

theorem Reserves.isSome (reserves : world.Reserves)
    (outstanding : world.replacements[index]? = some true) :
    world.manager.state.pendingManaged.isSome = true := by
  have listed : 0 < world.replacements.count true :=
    List.count_pos_iff.mpr (List.mem_of_getElem? outstanding)
  by_contra absent
  rw [Reserves, if_neg absent] at reserves
  omega

theorem count_eraseIdx {flags : List Bool} {flag : Bool} (listed : flags[index]? = some flag) :
    (flags.eraseIdx index).count true + (if flag then 1 else 0) = flags.count true := by
  obtain ⟨inside, rfl⟩ := List.getElem?_eq_some_iff.mp listed
  have moved : (flags[index] :: flags.eraseIdx index).Perm flags :=
    List.getElem_cons_eraseIdx_perm inside
  rw [← moved.count_eq true, List.count_cons]
  cases flags[index] <;> rfl

theorem Reserves.perform (reserves : world.Reserves)
    (done : world.perform library event = some (reply, after)) : after.Reserves := by
  rcases perform_cases done with ⟨effect, same, -⟩ | ⟨changed, -, held, credentials, validated⟩ |
    ⟨index, changed, result, outstanding, -, left, replaced⟩
  · rw [Reserves, effect.pendingManaged, same]
    exact reserves
  · unfold Reserves at reserves ⊢
    rw [held, List.count_append]
    rcases validateManagedCredentials_cases validated with
      ⟨same, unchanged⟩ | ⟨isChanged, free, replacement, -, same⟩
    · rw [unchanged changed rfl, same]
      exact reserves
    · cases isChanged
      rw [free] at reserves
      rw [same, reserves]
      rfl
  · obtain ⟨manager, replacements⟩ := after
    obtain rfl : replacements = _ := left
    have counted := count_eraseIdx outstanding
    have reserved := reserves
    unfold Reserves at reserved ⊢
    rcases replaced with ⟨installed, installs⟩ | dropped
    · cases changed with
      | false =>
        cases installs
        exact counted.trans reserved
      | true =>
        obtain ⟨pending, present, answered⟩ := Option.map_eq_some_iff.mp installs
        cases answered
        rw [present] at reserved
        exact Nat.succ.inj (counted.trans reserved)
    · obtain rfl : manager = _ := dropped
      cases changed with
      | false => exact counted.trans reserved
      | true =>
        rw [if_pos (reserves.isSome outstanding)] at reserved
        exact Nat.succ.inj (counted.trans reserved)

/-- The installation of an outstanding replacement does not fail its `expect`. -/
theorem Reserves.installs {changed : Bool} (reserves : world.Reserves)
    (outstanding : world.replacements[index]? = some changed) :
    (world.perform library (.installManaged index)).isSome = true := by
  cases changed with
  | false => simp [CredentialWorld.perform, outstanding, installManagedCredentials]
  | true =>
    have present := reserves.isSome outstanding
    simp [CredentialWorld.perform, outstanding, installManagedCredentials, present]

end CredentialWorld

/-! ## The system -/

/-- A manager that has loaded what the storage holds. -/
def CredentialWorld.start (library : CredentialLibrary) (stored : Stored) : CredentialWorld :=
  { manager := fromStorage library stored, replacements := [] }

def CredentialWorld.step (library : CredentialLibrary) (world : CredentialWorld)
    (event : CredentialEvent) : Option CredentialWorld :=
  (world.perform library event).map (·.2)

def credentialSystem (library : CredentialLibrary) (start : Stored) :
    System CredentialWorld CredentialEvent :=
  .ofStep (· = .start library start) (CredentialWorld.step library)

/-- The entries in storage, if there are any, have distinct public keys. -/
def Stored.DistinctPubkeys : Stored → Prop
  | .unreadable _ => True
  | .absent => True
  | .snapshot entries => UniquePubkeys entries

/-- What holds in every state of a run. -/
structure CredentialInvariant (library : CredentialLibrary) (start : Stored)
    (world : CredentialWorld) : Prop where
  distinct : DistinctKeys CredentialSlot.Restates world.manager.state.keyAt
  disjoint : world.manager.state.DisjointIds
  normal : AllEntries (fun _ entry => entry.grant.Normal library) world.manager.state.base
  persisted : Persisted library start world.manager
  reserves : world.Reserves

variable {base : Entries} {library : CredentialLibrary} {start : Stored}

/-- A loaded table is empty, or the stored one in its normal form. -/
theorem load_eq_ok (loaded : start.load library = .ok base) :
    (start = .absent ∧ base = ∅) ∨
      ∃ entries, start = .snapshot entries ∧ normalizeLoadedEntries library entries = .ok base := by
  cases start with
  | unreadable => cases loaded
  | absent =>
    cases loaded
    exact .inl ⟨rfl, rfl⟩
  | snapshot entries =>
    refine .inr ⟨entries, rfl, ?_⟩
    rw [Stored.load] at loaded
    cases normalized : normalizeLoadedEntries library entries with
    | error =>
      rw [normalized] at loaded
      cases loaded
    | ok result =>
      rw [normalized] at loaded
      cases loaded
      rfl

/-- Loading keeps the public keys. -/
theorem uniquePubkeys_of_load
    (unique : start.DistinctPubkeys) (loaded : start.load library = .ok base) :
    UniquePubkeys base := by
  rcases load_eq_ok loaded with ⟨-, rfl⟩ | ⟨entries, rfl, normalized⟩
  · intro first second one other here
    cases here
  · unfold normalizeLoadedEntries at normalized
    split at normalized
    · cases normalized
    cases normalized
    intro first second one other here there same
    rw [lookup_mapValues] at here there
    obtain ⟨stored, held, rfl⟩ := Option.map_eq_some_iff.mp here
    obtain ⟨stored', held', rfl⟩ := Option.map_eq_some_iff.mp there
    rw [CredentialEntry.normalized_pubkey, CredentialEntry.normalized_pubkey] at same
    exact unique first second stored stored' held held' same

theorem normal_of_load (loaded : start.load library = .ok base) :
    AllEntries (fun _ entry => entry.grant.Normal library) base := by
  rcases load_eq_ok loaded with ⟨-, rfl⟩ | ⟨entries, -, normalized⟩
  · exact AllEntries.empty
  · exact normal_of_normalizeLoadedEntries normalized

/-- A manager without other tables than the credential file. -/
theorem distinctKeys_of_base (unique : UniquePubkeys base) :
    DistinctKeys CredentialSlot.Restates { base := base : CredentialState }.keyAt := by
  intro first second key here there
  obtain ⟨one, held, rfl⟩ := keyAt_eq_some_iff.mp here
  obtain ⟨other, held', same⟩ := keyAt_eq_some_iff.mp there
  cases first with
  | base credentialId =>
    cases second with
    | base credentialId' =>
      exact .inl (congrArg _ (unique credentialId credentialId' one other held held' same.symm))
    | managed | pending | ephemeral => cases held'
  | managed | pending | ephemeral => cases held

namespace CredentialInvariant

variable {library : CredentialLibrary} {start : Stored} {world after : CredentialWorld}

theorem fromStorage (unique : start.DistinctPubkeys) :
    CredentialInvariant library start (.start library start) := by
  unfold CredentialWorld.start
  have persisted : Persisted library start (CredentialManager.fromStorage library start) := by
    refine ⟨start, ?_, .inl rfl, rfl, rfl⟩
    unfold CredentialManager.fromStorage
    split <;> rfl
  cases loaded : start.load library with
  | error error =>
    simp only [CredentialManager.fromStorage, loaded] at persisted ⊢
    refine ⟨distinctKeys_of_base ?_, ?_, AllEntries.empty, persisted, rfl⟩
    · intro first second one other here
      cases here
    · intro credentialId entry held
      cases held
  | ok base =>
    simp only [CredentialManager.fromStorage, loaded] at persisted ⊢
    exact ⟨distinctKeys_of_base (uniquePubkeys_of_load unique loaded), fun _ _ _ => rfl,
      normal_of_load loaded, persisted, rfl⟩

theorem perform (invariant : CredentialInvariant library start world) {event : CredentialEvent}
    {reply : Except CredentialError CredentialReply}
    (done : world.perform library event = some (reply, after)) :
    CredentialInvariant library start after := by
  have effect := CredentialWorld.perform_effect done
  have normal := effect.normalBase invariant.normal
  refine ⟨effect.distinctKeys invariant.distinct, effect.disjointIds invariant.disjoint, normal, ?_,
    invariant.reserves.perform done⟩
  obtain ⟨stored, present, origin, base, loadError⟩ := invariant.persisted
  rcases effect.stored with same | committed
  · exact ⟨stored, same.storage.trans present, by rwa [same.base], base.trans same.base.symm,
      loadError.trans same.storageLoadError.symm⟩
  · have written : after.manager.storage = some (.snapshot after.manager.state.base) := by
      rw [committed.result, present]
      rfl
    have available : after.manager.storageLoadError = none := by
      rw [committed.result]
      exact committed.available
    refine ⟨_, written, .inr rfl, ?_, ?_⟩ <;>
      simp [CredentialManager.fromStorage, Stored.load, Except.mapError,
        normalizeLoadedEntries_of_normal normal, available]

theorem of_reachable (unique : start.DistinctPubkeys)
    (reached : (credentialSystem library start).Reachable world) :
    CredentialInvariant library start world := by
  refine System.ReachableUnder.invariant ?_ ?_ reached
  · rintro _ rfl
    exact fromStorage unique
  · intro before event after invariant _ transition
    obtain ⟨⟨reply, _⟩, done, rfl⟩ := Option.map_eq_some_iff.mp transition
    exact invariant.perform done

end CredentialInvariant

/-- Every run from stored entries with distinct keys keeps the keys of all tables distinct and the
identifiers of the credential file apart from the managed ones. The storage always holds what the
credential file was loaded from or its table as it is now, an operation that changes one ends with
both the same, and one that fails changes nothing. -/
theorem credential_tables_consistent (library : CredentialLibrary) (start : Stored)
    (unique : start.DistinctPubkeys) (world : CredentialWorld)
    (reached : (credentialSystem library start).Reachable world) :
    DistinctKeys CredentialSlot.Restates world.manager.state.keyAt ∧
      world.manager.state.DisjointIds ∧
      Persisted library start world.manager ∧
      (∀ event reply after, world.perform library event = some (reply, after) →
        SameFile world.manager after.manager ∨
          after.manager.storage = some (.snapshot after.manager.state.base)) ∧
      ∀ event error after, world.perform library event = some (.error error, after) →
        after = world := by
  have invariant := CredentialInvariant.of_reachable unique reached
  refine ⟨invariant.distinct, invariant.disjoint, invariant.persisted, ?_, ?_⟩
  · intro event reply after done
    obtain ⟨stored, present, -⟩ := invariant.persisted
    rcases (CredentialWorld.perform_effect done).stored with same | committed
    · exact .inl same
    · refine .inr ?_
      rw [committed.result, present]
      rfl
  · intro event error after failed
    exact CredentialWorld.perform_failed failed

/-! ### Sample runs -/

/-- Encodings that keep every byte as one character. -/
def sampleLibrary : CredentialLibrary where
  encodeBase64 bytes := bytes.map fun byte => Char.ofNat byte.toNat
  decodeBase64 text := some (text.map fun c => BitVec.ofNat 8 c.toNat)
  publicKey secret := secret
  isIpCidr text := text ≠ []
  renderUuid _ := ['u']

def sampleSecret : Text := List.replicate 32 'k'

def sampleEntry (cidr : Text) : CredentialEntry :=
  { pubkey := ['p']
    secret := ['s']
    grant := { groups := [], allowRelay := false, allowedProxyCidrs := [cidr], reusable := true }
    expiryUnix := 100
    createdAtUnix := 0 }

def sampleStored (cidr : Text) : Stored :=
  .snapshot (AList.singleton ['a'] (sampleEntry cidr))

def sampleManaged (credentialId : Text) : ManagedCredentialConfig :=
  { credentialId := credentialId
    credentialSecret := sampleSecret
    groups := []
    allowRelay := false
    allowedProxyCidrs := []
    expiryUnix := 100
    reusable := true }

theorem sampleStored_distinct (cidr : Text) : (sampleStored cidr).DistinctPubkeys := by
  intro first second one other here there _
  rw [lookup_singleton_eq] at here there
  split at here
  · split at there
    · simp_all
    · cases there
  · cases here

/-- A run that generates a credential beside the stored one and then fails to revoke it. -/
theorem sample_run_consistent :
    ∃ world, (credentialSystem sampleLibrary (sampleStored ['c'])).Reachable world ∧
      world.manager.state.base.keys.length = 2 ∧
      (DistinctKeys CredentialSlot.Restates world.manager.state.keyAt ∧
        world.manager.state.DisjointIds ∧
        Persisted sampleLibrary (sampleStored ['c']) world.manager ∧
        (∀ event reply after, world.perform sampleLibrary event = some (reply, after) →
          SameFile world.manager after.manager ∨
            after.manager.storage = some (.snapshot after.manager.state.base)) ∧
        ∀ event error after, world.perform sampleLibrary event = some (.error error, after) →
          after = world) := by
  refine System.exists_reachable (.start sampleLibrary (sampleStored ['c']))
    [.generate
      { groups := [], allowRelay := false, allowedProxyCidrs := [], ttl := 10,
        credentialId := none, reusable := true }
      { now := 1, ids := [0], keys := [(⟨List.replicate 32 7, rfl⟩, 1)], storeError := none },
      .revoke ['u'] (some ['e'])]
    (fun world => world.manager.state.base.keys.length = 2) rfl (by decide +kernel)
    fun world reached _ kept => ⟨kept, ?_⟩
  exact credential_tables_consistent sampleLibrary _ (sampleStored_distinct _) world reached

/-- Two ways in which the tables are more than the plain description of them says. A stored entry
with blanks around an address range is loaded without them, so the table is not the one in storage.
And a managed key can be reserved under another identifier. -/
theorem loaded_table_differs_and_key_moves :
    (∃ world entries, (credentialSystem sampleLibrary (sampleStored [' ', 'c'])).Reachable world ∧
      (sampleStored [' ', 'c']).DistinctPubkeys ∧
      world.manager.storage = some (.snapshot entries) ∧
      ¬ SameEntries world.manager.state.base entries) ∧
    ∃ world key, (credentialSystem sampleLibrary .absent).Reachable world ∧
      world.manager.state.keyAt (.managed ['a']) = some key ∧
      world.manager.state.keyAt (.pending ['b']) = some key := by
  refine ⟨⟨_, _, .start rfl, sampleStored_distinct _, rfl, ?_⟩, ?_⟩
  · decide +kernel
  · obtain ⟨world, reached, reserved⟩ :
        ∃ world, (credentialSystem sampleLibrary .absent).Reachable world ∧ _ :=
      System.exists_reachable _
        [.installInitialManaged [sampleManaged ['a']], .validateManaged [sampleManaged ['b']]]
        (fun world => world.manager.state.keyAt (.managed ['a']) = some sampleSecret ∧
          world.manager.state.keyAt (.pending ['b']) = some sampleSecret) rfl (by decide +kernel)
        fun _ _ _ => id
    exact ⟨world, sampleSecret, reached, reserved⟩

/-- In every run, a validated replacement can be installed: the `expect` does not fail. -/
theorem replacement_installs (unique : start.DistinctPubkeys) {world : CredentialWorld}
    (reached : (credentialSystem library start).Reachable world) {index : Nat} {changed : Bool}
    (outstanding : world.replacements[index]? = some changed) :
    (world.perform library (.installManaged index)).isSome = true :=
  (CredentialInvariant.of_reachable unique reached).reserves.installs outstanding

theorem managed_installs :
    ∃ world, (credentialSystem sampleLibrary .absent).Reachable world ∧
      world.replacements[0]? = some true ∧
      (world.perform sampleLibrary (.installManaged 0)).isSome = true :=
  System.exists_reachable _ [.validateManaged [sampleManaged ['b']]]
    (·.replacements[0]? = some true) rfl (by decide +kernel) fun _ reached _ outstanding =>
    ⟨outstanding, replacement_installs (by trivial) reached outstanding⟩

end EasyTier.Peers
