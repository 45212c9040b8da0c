import EasyTier.Acl.Rules
import EasyTier.Data.Codec
import EasyTier.Peers.Handshake
import EasyTier.Route.RawInfos

/-! # Trust in the synced route database

Admins publish the credentials they have issued in their infos. Every node collects the published
keys, and refreshes what follows from them whenever infos or connections have changed: the groups of
the credential peers, the owners of credentials that only one peer may use, and the peers that have
to go. Which key a credential peer uses, its own info tells.

Of the fields that routing only carries along in the details of an info, the refresh reads some; how
these are laid out is a parameter. So are the message authentication codes and the access to the
bytes of an info.
-/

namespace EasyTier.Route

open Acl (IpAddr IpCidr)
open Data Semantics
open Peers (PeerIdentityType)

/-! ## The infos -/

structure TrustedCredentialPubkey where
  pubkey : Bytes
  groups : List String
  allowRelay : Bool
  expiryUnix : Int
  allowedProxyCidrs : List String
  reusable : Option Bool
  deriving DecidableEq

def TrustedCredentialPubkey.isReusable (credential : TrustedCredentialPubkey) : Bool :=
  credential.reusable.getD true

structure TrustedCredentialPubkeyProof where
  credential : Option TrustedCredentialPubkey
  credentialHmac : Bytes
  deriving DecidableEq

structure PeerGroupInfo where
  groupName : String
  groupProof : Bytes
  deriving DecidableEq

structure PeerGroupIdentity where
  groupName : String
  groupSecret : String
  deriving DecidableEq

/-- The details of an info; `others` are the fields that nobody here reads. -/
structure PeerDetails where
  isCredentialPeer : Bool
  noiseStaticPubkey : Bytes
  proxyCidrs : List String
  groups : List PeerGroupInfo
  trustedCredentialPubkeys : List TrustedCredentialPubkeyProof
  others : Bytes
  deriving DecidableEq

/-- How the details are laid out in bytes. -/
structure DetailsLayout where
  read : Bytes → PeerDetails
  write : PeerDetails → Bytes
  read_write : ∀ details, read (write details) = details

/-- A layout by parts, for runs that are executed. -/
def DetailsLayout.byParts : DetailsLayout :=
  let bytes : Codec Bytes := Codec.byte.list
  let credential : Codec TrustedCredentialPubkey :=
    (bytes.pair <| Codec.text.list.pair <| Codec.bool.pair <| Codec.int.pair <|
      Codec.text.list.pair Codec.bool.option).via
      (fun credential => (credential.pubkey, credential.groups, credential.allowRelay,
        credential.expiryUnix, credential.allowedProxyCidrs, credential.reusable))
      (fun (pubkey, groups, allowRelay, expiryUnix, allowedProxyCidrs, reusable) =>
        { pubkey, groups, allowRelay, expiryUnix, allowedProxyCidrs, reusable }) fun _ => rfl
  let proof : Codec TrustedCredentialPubkeyProof :=
    (credential.option.pair bytes).via (fun proof => (proof.credential, proof.credentialHmac))
      (fun (credential, credentialHmac) => { credential, credentialHmac }) fun _ => rfl
  let group : Codec PeerGroupInfo :=
    (Codec.text.pair bytes).via (fun group => (group.groupName, group.groupProof))
      (fun (groupName, groupProof) => { groupName, groupProof }) fun _ => rfl
  let details : Codec PeerDetails :=
    (Codec.bool.pair <| bytes.pair <| Codec.text.list.pair <| group.list.pair <|
      proof.list.pair bytes).via
      (fun details => (details.isCredentialPeer, details.noiseStaticPubkey, details.proxyCidrs,
        details.groups, details.trustedCredentialPubkeys, details.others))
      (fun (isCredentialPeer, noiseStaticPubkey, proxyCidrs, groups, trustedCredentialPubkeys,
          others) =>
        { isCredentialPeer, noiseStaticPubkey, proxyCidrs, groups, trustedCredentialPubkeys,
          others })
      fun _ => rfl
  { read := fun bytes => (details.decode bytes).getD
      { isCredentialPeer := false
        noiseStaticPubkey := []
        proxyCidrs := []
        groups := []
        trustedCredentialPubkeys := []
        others := [] }
    write := details.write
    read_write := fun value => by rw [details.decode_write, Option.getD_some] }

/-- The codes, the fields of the raw bytes, and the parser of networks. -/
structure TrustLibrary where
  verifyGroup : PeerGroupInfo → String → PeerId → Bool
  verifyCredentialHmac : TrustedCredentialPubkeyProof → String → Bool
  verifyCredentialHmacWithBytes : TrustedCredentialPubkeyProof → Bytes → String → Bool
  rawCredentialBytes : Bytes → Nat → Option Bytes
  patchCredentialRoutePeerInfo : Bytes → List String → Option Bytes
  parseCidr : String → Option IpCidr

/-- What does not change on a node. -/
structure TrustConfig where
  myPeerId : PeerId
  myPeerRouteId : Nat
  networkSecret : Option String
  easytierVersion : Bytes
  layout : DetailsLayout
  library : TrustLibrary

/-! ## Networks -/

/-- The bits of the addresses of a family that a network leaves open. -/
def hostBits : IpCidr → Nat
  | .v4 _ length => 32 - length.val
  | .v6 _ length => 128 - length.val

def firstAddress : IpCidr → Nat
  | .v4 address length => address.toNat / 2 ^ (32 - length.val) * 2 ^ (32 - length.val)
  | .v6 address length => address.toNat / 2 ^ (128 - length.val) * 2 ^ (128 - length.val)

def lastAddress (cidr : IpCidr) : Nat := firstAddress cidr + (2 ^ hostBits cidr - 1)

/-- `cidr_is_subset`. -/
def cidrIsSubset (child parent : IpCidr) : Bool :=
  match child, parent with
  | .v4 _ _, .v4 _ _ | .v6 _ _, .v6 _ _ =>
    decide (firstAddress parent ≤ firstAddress child) &&
      decide (lastAddress child ≤ lastAddress parent)
  | _, _ => false

/-! ## The state -/

/-- The groups of a peer, each with its proof; a group granted without one has an empty proof. -/
abbrev GroupMap := AList fun _ : String => Bytes

/-- The database with what follows from it, and the groups declared by the node's configuration. -/
structure TrustState where
  synced : SyncedRouteInfo
  groupTrustMap : AList fun _ : PeerId => GroupMap
  trustedCredentialPubkeys : AList fun _ : Bytes => TrustedCredentialPubkey
  nonReusableCredentialOwners : AList fun _ : Bytes => PeerId
  suppressed : List PeerId
  declarations : List PeerGroupIdentity

def TrustState.start : TrustState where
  synced := .empty
  groupTrustMap := ∅
  trustedCredentialPubkeys := ∅
  nonReusableCredentialOwners := ∅
  suppressed := []
  declarations := []

namespace TrustConfig

variable (config : TrustConfig)

def details (info : RoutePeerInfo) : PeerDetails := config.layout.read info.details

/-- The details of a peer nobody described yet. -/
def defaultDetails : Bytes :=
  config.layout.write
    { isCredentialPeer := false
      noiseStaticPubkey := []
      proxyCidrs := []
      groups := []
      trustedCredentialPubkeys := []
      others := config.easytierVersion }

def isCredentialPeerInfo (info : RoutePeerInfo) : Bool := (config.details info).isCredentialPeer

def isAdminPeer (info : RoutePeerInfo) : Bool :=
  info.version != 0 && !config.isCredentialPeerInfo info

/-- The key an info claims. -/
def claimedKey (info : RoutePeerInfo) : Bytes := (config.details info).noiseStaticPubkey

/-- `cidr_is_subset_str`. -/
def cidrIsSubsetStr (child parent : String) : Bool :=
  match config.library.parseCidr child, config.library.parseCidr parent with
  | some child, some parent => cidrIsSubset child parent
  | _, _ => false

/-! ## Trusted credentials -/

/-- `credential_proof_is_valid`. -/
def credentialProofIsValid (raw : Option Bytes) (index : Nat)
    (proof : TrustedCredentialPubkeyProof) : Bool :=
  match config.networkSecret with
  | none => true
  | some secret =>
    match raw with
    | none => config.library.verifyCredentialHmac proof secret
    | some raw =>
      match config.library.rawCredentialBytes raw index with
      | some bytes => config.library.verifyCredentialHmacWithBytes proof bytes secret
      | none => false

/-- The credentials an info publishes with a valid proof that have not expired. -/
def publishedCredentials (raw : Option Bytes) (info : RoutePeerInfo) (nowUnix : Int) :
    List TrustedCredentialPubkey :=
  (config.details info).trustedCredentialPubkeys.zipIdx.filterMap fun (proof, index) =>
    if config.credentialProofIsValid raw index proof then
      proof.credential.filter fun credential => decide (nowUnix < credential.expiryUnix)
    else none

/-- The infos of the admins in the order they came, each with its bytes. -/
def adminInfos (synced : SyncedRouteInfo) : List (Option Bytes × RoutePeerInfo) :=
  (synced.peerInfos.entries.reverse.filter fun entry => config.isAdminPeer entry.2).map
    fun entry => (synced.rawPeerInfos.lookup entry.1, entry.2)

/-- Insert a credential unless its key is there. -/
def addTrusted (trusted : AList fun _ : Bytes => TrustedCredentialPubkey)
    (credential : TrustedCredentialPubkey) : AList fun _ : Bytes => TrustedCredentialPubkey :=
  if credential.pubkey ∈ trusted then trusted else trusted.insert credential.pubkey credential

/-- The first result of `collect_trusted_credentials`. -/
def collectTrustedCredentials (synced : SyncedRouteInfo) (nowUnix : Int) :
    AList fun _ : Bytes => TrustedCredentialPubkey :=
  ((config.adminInfos synced).flatMap fun (raw, info) =>
    config.publishedCredentials raw info nowUnix).foldl addTrusted ∅

/-! ## Owners of credentials for one peer -/

/-- The peer is active and claims a trusted key that only one peer may use. -/
def isCandidate (trusted : AList fun _ : Bytes => TrustedCredentialPubkey) (active : PeerId → Bool)
    (peerId : PeerId) (info : RoutePeerInfo) : Bool :=
  !(config.claimedKey info).isEmpty &&
    ((trusted.lookup (config.claimedKey info)).any fun credential => !credential.isReusable) &&
    active peerId

/-- The candidates of each key. -/
def collectCandidates (synced : SyncedRouteInfo)
    (trusted : AList fun _ : Bytes => TrustedCredentialPubkey) (active : PeerId → Bool) :
    AList fun _ : Bytes => List PeerId :=
  synced.peerInfos.entries.reverse.foldl
    (fun candidates entry =>
      if config.isCandidate trusted active entry.1 entry.2 then
        candidates.insert (config.claimedKey entry.2)
          (entry.1 :: (candidates.lookup (config.claimedKey entry.2)).getD [])
      else candidates) ∅

/-- `collect_non_reusable_credential_owners`: the least candidate of each key is its owner, the
others are duplicates. -/
def collectNonReusableCredentialOwners (synced : SyncedRouteInfo)
    (trusted : AList fun _ : Bytes => TrustedCredentialPubkey) (active : PeerId → Bool) :
    List (Bytes × PeerId) × List PeerId :=
  let candidates := (config.collectCandidates synced trusted active).entries
  (candidates.filterMap fun entry => entry.2.min?.map fun owner => (entry.1, owner),
    candidates.flatMap fun entry =>
      match entry.2.min? with
      | none => []
      | some owner => entry.2.filter (· ≠ owner))

/-! ## Groups -/

/-- `verify_groups`: the groups whose proofs verify under the declared secrets, and those of an
admin if the node has no secret of its own. -/
def verifyGroups (declarations : List PeerGroupIdentity) (info : RoutePeerInfo) : GroupMap :=
  let groups := (config.details info).groups
  let proven := groups.foldl
    (fun trusted group =>
      match declarations.reverse.find? fun declared => declared.groupName == group.groupName with
      | none => trusted
      | some declared =>
        if config.library.verifyGroup group declared.groupSecret info.peerId then
          trusted.insert group.groupName group.groupProof
        else trusted) ∅
  if config.networkSecret.isNone && config.isAdminPeer info then
    groups.foldl (fun trusted group =>
      if group.groupName ∈ trusted then trusted else trusted.insert group.groupName []) proven
  else proven

end TrustConfig

/-- The stored infos in the order they came. -/
def storedInfos (synced : SyncedRouteInfo) : List RoutePeerInfo :=
  synced.peerInfos.entries.reverse.map fun entry => entry.2

/-- `set_peer_groups_locked`. -/
def setPeerGroups (map : AList fun _ : PeerId => GroupMap) (peerId : PeerId) (groups : GroupMap) :
    AList fun _ : PeerId => GroupMap :=
  if groups.entries.isEmpty then map.erase peerId else map.insert peerId groups

/-- `get_proof_groups_locked`. -/
def getProofGroups (map : AList fun _ : PeerId => GroupMap) (peerId : PeerId) : GroupMap :=
  ((map.lookup peerId).map (retain fun _ proof => !proof.isEmpty)).getD ∅

namespace TrustState

variable (config : TrustConfig) (state : TrustState)

/-- `verify_and_update_group_trusts`. -/
def verifyAndUpdateGroupTrusts (infos : List RoutePeerInfo) : TrustState :=
  { state with
    groupTrustMap := infos.foldl
      (fun map info => setPeerGroups map info.peerId (config.verifyGroups state.declarations info))
      state.groupTrustMap }

/-- `verify_and_update_current_group_trusts`: for the stored infos of the received ones. -/
def verifyAndUpdateCurrentGroupTrusts (received : List RoutePeerInfo) :
    TrustState :=
  state.verifyAndUpdateGroupTrusts config
    ((received.map (·.peerId)).dedup.filterMap state.synced.peerInfos.lookup)

/-- `update_my_group_trusts`. -/
def updateMyGroupTrusts (groups : List PeerGroupInfo) : TrustState :=
  { state with
    groupTrustMap := setPeerGroups state.groupTrustMap config.myPeerId
      (groups.foldl (fun map group => map.insert group.groupName group.groupProof) ∅) }

/-- One round of `update_credential_groups`. -/
def grantCredentialGroups (trusted : AList fun _ : Bytes => TrustedCredentialPubkey)
    (map : AList fun _ : PeerId => GroupMap) (info : RoutePeerInfo) :
    AList fun _ : PeerId => GroupMap :=
  if (config.claimedKey info).isEmpty then map
  else
    match trusted.lookup (config.claimedKey info) with
    | none => map
    | some credential =>
      setPeerGroups map info.peerId
        (credential.groups.foldl (fun groups group =>
          if group ∈ groups then groups else groups.insert group [])
          (getProofGroups map info.peerId))

/-! ## The refresh -/

/-- `collect_revoked_credential_peers`. -/
def collectRevokedCredentialPeers (synced : SyncedRouteInfo)
    (previous trusted : AList fun _ : Bytes => TrustedCredentialPubkey) : List PeerId :=
  synced.peerInfos.entries.reverse.filterMap fun entry =>
    let key := config.claimedKey entry.2
    if !key.isEmpty && entry.2.version != 0 && decide (key ∈ previous) && !decide (key ∈ trusted)
    then some entry.1 else none

/-- `remove_peers`, which does nothing without peers. -/
def removePeers (peerIds : List PeerId) : TrustState :=
  if peerIds.isEmpty then state
  else
    { state with
      synced := state.synced.removePeers peerIds
      groupTrustMap := eraseAll state.groupTrustMap peerIds }

/-- The time as the refresh reads it, in seconds. -/
def unixTime (now : Nat) : Int := (now / 10 ^ 9 : Nat)

/-- The credentials that a refresh finds trusted. -/
def trustedAt (now : Nat) : AList fun _ : Bytes => TrustedCredentialPubkey :=
  config.collectTrustedCredentials state.synced (unixTime now)

/-- The owners and the duplicates that a refresh finds; the own peer is always active. -/
def ownersAt (now : Nat) (active : PeerId → Bool) :
    List (Bytes × PeerId) × List PeerId :=
  config.collectNonReusableCredentialOwners state.synced (state.trustedAt config now)
    fun peerId => peerId == config.myPeerId || active peerId

/-- The duplicates, without the own peer, which is protected. -/
def suppressedAt (now : Nat) (active : PeerId → Bool) : List PeerId :=
  (collectPeers (state.ownersAt config now active).2).filter (· ≠ config.myPeerId)

/-- The peers whose credential is not trusted any more, without the own peer. -/
def untrustedAt (now : Nat) : List PeerId :=
  (collectRevokedCredentialPeers config state.synced state.trustedCredentialPubkeys
    (state.trustedAt config now)).filter (· ≠ config.myPeerId)

/-- `verify_and_update_credential_trusts_with_active_peers_protecting`, with the own peer protected
as its callers have it. `active` says which peers the route table reaches. -/
def refreshCredentialTrusts (now : Nat) (active : PeerId → Bool) : TrustState :=
  let owners := (state.ownersAt config now active).1
  let suppressed := state.suppressedAt config now active
  let refreshed : TrustState :=
    { state with
      synced := state.synced.incVersion (state.suppressed != suppressed)
      groupTrustMap := (storedInfos state.synced).foldl
        (grantCredentialGroups config (state.trustedAt config now)) state.groupTrustMap
      trustedCredentialPubkeys := state.trustedAt config now
      nonReusableCredentialOwners := owners.foldl (fun map owner => map.insert owner.1 owner.2)
        (retain (fun key _ => owners.any (·.1 == key)) state.nonReusableCredentialOwners)
      suppressed := suppressed }
  refreshed.removePeers (state.untrustedAt config now)

end TrustState

/-! ## Requests of a neighbour -/

/-- What the interface knows of the neighbour that sends a request. -/
structure Neighbour where
  peerId : PeerId
  identityType : Option PeerIdentityType
  publicKey : Option Bytes

def Neighbour.isCredential (neighbour : Neighbour) : Bool :=
  neighbour.identityType == some .credential

/-- The parts of a request; infos come with the bytes they were decoded from. -/
structure RouteSync where
  peerInfos : Option (List RoutePeerInfo × List Bytes)
  connInfo : Option ConnInfo
  foreignNetwork : Option (List ForeignNetworkInfo)

inductive SyncError where
  | stopped
  | route (error : RouteError)
  deriving DecidableEq

/-- An info as it is stored for a credential peer: with the networks its credential allows, and
marked. -/
def TrustConfig.restrictInfo (config : TrustConfig) (credential : TrustedCredentialPubkey)
    (info : RoutePeerInfo) : RoutePeerInfo :=
  let details := config.details info
  { info with
    details := config.layout.write { details with
      isCredentialPeer := true
      proxyCidrs := details.proxyCidrs.filter fun cidr =>
        credential.allowedProxyCidrs.any fun allowed => config.cidrIsSubsetStr cidr allowed } }

/-- `extract_credential_peer_info`: the first info about the sender, if its bytes can be patched. -/
def TrustConfig.extractCredentialPeerInfo (config : TrustConfig) (fromPeerId : PeerId)
    (credential : TrustedCredentialPubkey) :
    List RoutePeerInfo → List Bytes → Except RouteError (Option (RoutePeerInfo × Bytes))
  | [], _ => .ok none
  | info :: infos, raws =>
    if info.peerId = fromPeerId then
      match raws with
      | [] => .error .indexOutOfBounds
      | raw :: _ =>
        let info := config.restrictInfo credential info
        .ok ((config.library.patchCredentialRoutePeerInfo raw (config.details info).proxyCidrs).map
          fun raw => (info, raw))
    else config.extractCredentialPeerInfo fromPeerId credential infos raws.tail

/-- The infos of a request that are taken: all, or the own one of a credential peer. -/
def TrustConfig.acceptedInfos (config : TrustConfig) (neighbour : Neighbour)
    (credential : Option TrustedCredentialPubkey) (request : RouteSync) :
    Except RouteError (List RoutePeerInfo × List Bytes) :=
  match request.peerInfos, credential with
  | none, _ => .ok ([], [])
  | some infos, none => .ok infos
  | some (infos, raws), some credential =>
    (config.extractCredentialPeerInfo neighbour.peerId credential infos raws).map fun
      | none => ([], [])
      | some (info, raw) => ([info], [raw])

namespace TrustState

variable (config : TrustConfig) (state : TrustState)

/-- The credential of a neighbour that is authenticated by one. -/
def credentialInfo (neighbour : Neighbour) : Option TrustedCredentialPubkey :=
  if neighbour.isCredential then
    neighbour.publicKey.bind fun key =>
      if key.isEmpty then none else state.trustedCredentialPubkeys.lookup key
  else none

/-- The connections of a request, taken from a credential peer only if it may relay. -/
def storeConnInfo (credential : Option TrustedCredentialPubkey)
    (request : RouteSync) (now : Nat) (changed : Bool) : Except RouteError Bool × TrustState :=
  match request.connInfo with
  | none => (.ok changed, state)
  | some connInfo =>
    if credential.all (·.allowRelay) then
      match state.synced.updateConnInfo config.defaultDetails connInfo now with
      | (.error error, synced) => (.error error, { state with synced := synced })
      | (.ok (), synced) => (.ok true, { state with synced := synced })
    else (.ok changed, state)

/-- `do_sync_route_info` up to the refresh; the result says whether there is one. -/
def storeRequest (neighbour : Neighbour)
    (credential : Option TrustedCredentialPubkey) (request : RouteSync) (now : Nat) :
    Except RouteError Bool × TrustState :=
  match config.acceptedInfos neighbour credential request with
  | .error error => (.error error, state)
  | .ok (infos, raws) =>
    if infos.isEmpty then state.storeConnInfo config credential request now false
    else
      match state.synced.updatePeerInfos config.myPeerId config.myPeerRouteId neighbour.peerId infos
          raws now with
      | (.error error, synced) => (.error error, { state with synced := synced })
      | (.ok (), synced) =>
        ({ state with synced := synced }.verifyAndUpdateCurrentGroupTrusts config
          infos).storeConnInfo config credential request now true

/-- The foreign networks of a request, which are ignored from a credential peer. -/
def storeForeignNetwork (neighbour : Neighbour) (request : RouteSync)
    (now : Nat) : TrustState :=
  match request.foreignNetwork with
  | some infos =>
    if neighbour.isCredential then state
    else { state with synced := (state.synced.updateForeignNetwork infos now).1 }
  | none => state

/-- `do_sync_route_info`; `admitted` says that the session takes the request. -/
def doSyncRouteInfo (neighbour : Neighbour) (admitted : Bool)
    (request : RouteSync) (now : Nat) (active : PeerId → Bool) :
    Except SyncError Unit × TrustState :=
  let credential := state.credentialInfo neighbour
  if neighbour.isCredential && credential.isNone then (.error .stopped, state)
  else if !admitted then (.error .stopped, state)
  else
    match state.storeRequest config neighbour credential request now with
    | (.error error, state) => (.error (.route error), state)
    | (.ok changed, state) =>
      let refreshed := if changed then state.refreshCredentialTrusts config now active else state
      (.ok (), refreshed.storeForeignNetwork neighbour request now)

/-! ## Runs -/

/-- `update_my_peer_info` for the content the own info has by now. -/
def updateMyPeerInfo (new : RoutePeerInfo) (now : Nat) : TrustState :=
  let new := { new with peerId := config.myPeerId, peerRouteId := config.myPeerRouteId }
  let old := state.synced.peerInfos.lookup config.myPeerId
  let (synced, inserted) := state.synced.updateMyPeerInfo config.myPeerId new now
  let updated : TrustState := { state with synced := synced }
  if inserted && old.all (fun old => (config.details old).groups ≠ (config.details new).groups) then
    updated.updateMyGroupTrusts config (config.details new).groups
  else updated

/-- `update_my_conn_info`. -/
def updateMyConnInfo (connectedPeers : List PeerId) (now : Nat) : TrustState :=
  let filled := state.synced.fillEmptyPeerInfo config.defaultDetails connectedPeers now
  let changed := (filled.connMap.lookup config.myPeerId).all (·.connectedPeers ≠ connectedPeers)
  { state with
    synced := (filled.updateMyConnInfo config.myPeerId connectedPeers now).incVersion changed }

/-- `verify_and_update_all_current_group_trusts` for new declarations. -/
def verifyAllGroupTrusts (declarations : List PeerGroupIdentity) :
    TrustState :=
  { state with declarations := declarations }.verifyAndUpdateGroupTrusts config
    (storedInfos state.synced)

/-- What changes the trust of a node in its peers. -/
inductive TrustEvent where
  | sync (neighbour : Neighbour) (admitted : Bool) (request : RouteSync) (now : Nat)
      (active : PeerId → Bool)
  | refresh (now : Nat) (active : PeerId → Bool)
  | updateMyPeerInfo (new : RoutePeerInfo) (now : Nat)
  | updateMyConnInfo (connectedPeers : List PeerId) (now : Nat)
  /-- The declared groups change; a refresh follows as an event of its own. -/
  | declareGroups (declarations : List PeerGroupIdentity)
  /-- Peers that have not been heard of for long are removed. -/
  | removePeers (peerIds : List PeerId)
  /-- The own foreign networks change, or old ones go. -/
  | setForeignNetwork
      (foreignNetwork : AList fun _ : ForeignNetworkRouteInfoKey => ForeignNetworkRouteInfoEntry)

def perform : TrustEvent → TrustState
  | .sync neighbour admitted request now active =>
    (state.doSyncRouteInfo config neighbour admitted request now active).2
  | .refresh now active => state.refreshCredentialTrusts config now active
  | .updateMyPeerInfo new now => state.updateMyPeerInfo config new now
  | .updateMyConnInfo connectedPeers now => state.updateMyConnInfo config connectedPeers now
  | .declareGroups declarations => state.verifyAllGroupTrusts config declarations
  | .removePeers peerIds => state.removePeers peerIds
  | .setForeignNetwork foreignNetwork =>
    { state with synced := { state.synced with foreignNetwork := foreignNetwork } }

end TrustState

/-- All runs of a node: syncs of any neighbours, refreshes and changes of its own. -/
def trustSystem (config : TrustConfig) : System TrustState TrustState.TrustEvent :=
  .ofStep (· = .start) fun state event => some (state.perform config event)

/-! ## A node for runs that are executed -/

/-- Codes that repeat the secret. -/
def TrustLibrary.sample : TrustLibrary where
  verifyGroup group secret _ :=
    group.groupProof == secret.toList.map fun c => BitVec.ofNat 8 c.toNat
  verifyCredentialHmac proof secret :=
    proof.credentialHmac == secret.toList.map fun c => BitVec.ofNat 8 c.toNat
  verifyCredentialHmacWithBytes proof _ secret :=
    proof.credentialHmac == secret.toList.map fun c => BitVec.ofNat 8 c.toNat
  rawCredentialBytes raw _ := some raw
  patchCredentialRoutePeerInfo raw _ := some raw
  parseCidr
    | "10.0.0.0/8" => some (.v4 0x0A000000#32 8)
    | "10.1.0.0/16" => some (.v4 0x0A010000#32 16)
    | _ => none

def TrustConfig.sample : TrustConfig where
  myPeerId := 1
  myPeerRouteId := 1
  networkSecret := some "s"
  easytierVersion := []
  layout := .byParts
  library := .sample

namespace TrustState

/-- A credential as an admin of the sample node's network publishes it. -/
def sampleProof (key : Byte) (groups : List String) (reusable : Bool) :
    TrustedCredentialPubkeyProof where
  credential := some
    { pubkey := [key]
      groups := groups
      allowRelay := false
      expiryUnix := 1000
      allowedProxyCidrs := ["10.0.0.0/8"]
      reusable := some reusable }
  credentialHmac := [115#8]

/-- An info with the details. -/
def sampleInfo (peerId : PeerId) (version : Nat) (details : PeerDetails) : RoutePeerInfo where
  peerId := peerId
  peerRouteId := 0
  version := version
  avoidRelayData := false
  details := TrustConfig.sample.layout.write details
  lastUpdate := 0

def sampleAdmin (peerId : PeerId) (version : Nat) (proofs : List TrustedCredentialPubkeyProof) :
    RoutePeerInfo :=
  sampleInfo peerId version
    { isCredentialPeer := false
      noiseStaticPubkey := []
      proxyCidrs := []
      groups := []
      trustedCredentialPubkeys := proofs
      others := [] }

def sampleCredentialPeer (peerId : PeerId) (version : Nat) (key : Byte) : RoutePeerInfo :=
  sampleInfo peerId version
    { isCredentialPeer := true
      noiseStaticPubkey := [key]
      proxyCidrs := ["10.1.0.0/16"]
      groups := []
      trustedCredentialPubkeys := []
      others := [] }

/-- A request with infos only, sent by an admin. -/
def sampleSync (admin : PeerId) (infos : List RoutePeerInfo) : TrustEvent :=
  .sync { peerId := admin, identityType := some .admin, publicKey := none } true
    { peerInfos := some (infos, infos.map (·.details)), connInfo := none, foreignNetwork := none } 0
    fun _ => true

end TrustState

end EasyTier.Route
