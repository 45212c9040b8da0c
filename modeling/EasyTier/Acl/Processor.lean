import EasyTier.Acl.Rules
import EasyTier.Data.AssocMap
import EasyTier.Foundation.TokenBucket

/-! # The processor of access control rules

A processor holds compiled rules and three tables: tracked connections, token buckets of rate
limited rules, and a cache of decisions. Where the source panics there is no result. Packet and
rule counters are left out, since no decision reads them.
-/

namespace EasyTier.Acl

open Data Foundation

/-- A moment: the monotonic clock in nanoseconds, and Unix time in seconds. -/
structure Moment where
  instant : Nat
  unixSeconds : Nat
  deriving DecidableEq, Repr

/-! ## Tables -/

structure RateLimitKey where
  chainType : ChainType
  rulePriority : Nat
  deriving DecidableEq, Repr

structure RateLimitValue where
  tokenBucket : TokenBucket
  lastUpdate : Nat
  deriving DecidableEq

inductive RuleId where
  | priority (priority : Nat)
  | stateful (priority : Nat)
  | default
  deriving DecidableEq, Repr

inductive AclLogContext where
  | statefulMatch (srcIp dstIp : IpAddr)
  | ruleMatch (srcIp dstIp : IpAddr) (action : Action)
  | defaultDrop
  | defaultAllow
  | unsupportedChainType
  | rateLimitDrop
  deriving DecidableEq, Repr

structure AclResult where
  action : Action
  matchedRule : Option RuleId
  shouldLog : Bool
  logContext : Option AclLogContext
  deriving DecidableEq, Repr

structure AclCacheKey where
  chainType : ChainType
  protocol : Protocol
  srcIp : IpAddr
  dstIp : IpAddr
  srcPort : Nat
  dstPort : Nat
  srcGroups : List Text
  dstGroups : List Text
  deriving DecidableEq, Repr

/-- `from_packet_info`: an absent port counts as port zero. -/
def AclCacheKey.fromPacketInfo (packet : PacketInfo) (chainType : ChainType) : AclCacheKey where
  chainType := chainType
  protocol := packet.protocol
  srcIp := packet.srcIp
  dstIp := packet.dstIp
  srcPort := packet.srcPort.getD 0
  dstPort := packet.dstPort.getD 0
  srcGroups := packet.srcGroups
  dstGroups := packet.dstGroups

/-- The ends of a tracked connection, which the source prints into one text. -/
structure ConnTrackKey where
  srcIp : IpAddr
  srcPort : Nat
  dstIp : IpAddr
  dstPort : Nat
  deriving DecidableEq, Repr

def connTrackKey (packet : PacketInfo) : ConnTrackKey where
  srcIp := packet.srcIp
  srcPort := packet.srcPort.getD 0
  dstIp := packet.dstIp
  dstPort := packet.dstPort.getD 0

inductive ConnState where
  | new | established
  deriving DecidableEq, Repr

structure ConnTrackEntry where
  ends : ConnTrackKey
  protocol : Protocol
  state : ConnState
  createdAt : Nat
  lastSeen : Nat
  packetCount : Nat
  byteCount : Nat
  deriving DecidableEq, Repr

structure AclCacheEntry where
  matchedRule : RuleId
  lastAccess : Nat
  connTrackKey : Option ConnTrackKey
  rateLimitKeys : List RateLimitKey
  aclResult : Option AclResult
  deriving DecidableEq, Repr

abbrev RateLimiters := AList fun _ : RateLimitKey => RateLimitValue
abbrev ConnTrack := AList fun _ : ConnTrackKey => ConnTrackEntry
abbrev RuleCache := AList fun _ : AclCacheKey => AclCacheEntry

/-- `check_rate_limit`: a missing bucket is made where that is allowed, and a panic elsewhere. -/
def checkRateLimit (limiters : RateLimiters) (key : RateLimitKey) (rate burst : Nat)
    (allowCreate : Bool) (now : Nat) : Option (Bool × RateLimiters) :=
  if rate = 0 then some (true, limiters)
  else
    let bucket := match limiters.lookup key with
      | some value => some value.tokenBucket
      | none => if allowCreate then some (TokenBucket.new burst rate now) else none
    bucket.bind fun bucket =>
      (bucket.tryConsume 1 now).map fun (passed, bucket) =>
        (passed, limiters.insert key ⟨bucket, now⟩)

/-- `check_connection_state`. -/
def checkConnectionState (tracked : ConnTrack) (key : ConnTrackKey) (packet : PacketInfo)
    (unixSeconds : Nat) : ConnTrack :=
  tracked.insert key <|
    match tracked.lookup key with
    | some entry =>
      { entry with
        lastSeen := unixSeconds
        packetCount := entry.packetCount + 1
        byteCount := entry.byteCount + packet.packetSize
        state := .established }
    | none =>
      { ends := connTrackKey packet
        protocol := packet.protocol
        state := .new
        createdAt := unixSeconds
        lastSeen := unixSeconds
        packetCount := 1
        byteCount := packet.packetSize }

/-- `cleanup_expired_connections`; the 64-bit difference wraps when the clock was set back. -/
def cleanupExpiredConnections (tracked : ConnTrack) (timeoutSecs unixSeconds : Nat) : ConnTrack :=
  retain (fun _ entry => decide ((unixSeconds + 2 ^ 64 - entry.lastSeen) % 2 ^ 64 ≤ timeoutSecs))
    tracked

/-! ## The cache -/

def cacheMaxSize : Nat := 1024

/-- The moment up to which an entry has to have been used: fifteen seconds ago, or now if the clock
does not reach back that far. -/
def expiredTimepoint (now : Nat) : Nat :=
  let age := 15 * nanosPerSecond
  if age ≤ now then now - age else now

/-- `cleanup_cache`: entries unused for fifteen seconds go, and then the oldest ones while there are
too many. The map lists its entries in no particular order, here the one given. -/
def cleanupCache (cache : RuleCache) (maxSize : Nat) (order : List AclCacheKey) (now : Nat) :
    RuleCache :=
  let cache := retain (fun _ entry => decide (expiredTimepoint now < entry.lastAccess)) cache
  if cache.entries.length ≤ maxSize then cache
  else
    let listed := order.filterMap fun key =>
      (cache.lookup key).map fun entry => (key, entry.lastAccess)
    let oldestFirst := listed.insertionSort fun left right => left.2 ≤ right.2
    let toRemove := cache.entries.length - maxSize + maxSize / 5
    (oldestFirst.take toRemove).foldl (fun cache entry => cache.erase entry.1) cache

/-- `cache_result`. -/
def cacheResult (cache : RuleCache) (key : AclCacheKey) (entry : AclCacheEntry)
    (order : List AclCacheKey) (now : Nat) : RuleCache :=
  let cache := cache.insert key entry
  if cacheMaxSize * 2 < cache.entries.length then cleanupCache cache cacheMaxSize order now
  else cache

/-! ## The processor -/

/-- The rules, the default actions and what decisions leave behind. -/
structure AclProcessor where
  rules : RuleVectors
  defaultInboundAction : Action
  defaultOutboundAction : Action
  defaultForwardAction : Action
  connTrack : ConnTrack
  rateLimiters : RateLimiters
  ruleCache : RuleCache
  deriving DecidableEq

variable (processor : AclProcessor)

namespace AclProcessor

/-- `new_with_shared_state`: the cache always starts empty. -/
def newWithSharedState (fromStr : Text → Option IpCidr) (acl : AclConfig) (connTrack : ConnTrack)
    (rateLimiters : RateLimiters) : AclProcessor where
  rules := buildRules fromStr acl
  defaultInboundAction := (buildDefaultActions acl).1
  defaultOutboundAction := (buildDefaultActions acl).2.1
  defaultForwardAction := (buildDefaultActions acl).2.2
  connTrack := connTrack
  rateLimiters := rateLimiters
  ruleCache := ∅

/-- `AclProcessor::new`. -/
def new (fromStr : Text → Option IpCidr) (acl : AclConfig) : AclProcessor :=
  newWithSharedState fromStr acl ∅ ∅

/-- The default action for a chain type. -/
def defaultAction : ChainType → Action
  | .inbound => processor.defaultInboundAction
  | .outbound => processor.defaultOutboundAction
  | .forward => processor.defaultForwardAction
  | .unspecifiedChain => .allow

/-- The rate limits of a cached decision, in turn: whether all of them let the packet pass. -/
def checkRateLimits (now : Nat) : RateLimiters → List RateLimitKey → Option (Bool × RateLimiters)
  | limiters, [] => some (true, limiters)
  | limiters, key :: keys =>
    match checkRateLimit limiters key 1 1 false now with
    | some (true, limiters) => checkRateLimits now limiters keys
    | other => other

/-- `process_packet_with_cache_entry`. -/
def processPacketWithCacheEntry (moment : Moment) (packet : PacketInfo)
    (entry : AclCacheEntry) : Option (AclResult × AclProcessor) :=
  match checkRateLimits moment.instant processor.rateLimiters entry.rateLimitKeys with
  | none => none
  | some (false, limiters) =>
    some (⟨.drop, some entry.matchedRule, false, some .rateLimitDrop⟩,
      { processor with rateLimiters := limiters })
  | some (true, limiters) =>
    let tracked := match entry.connTrackKey with
      | some key => checkConnectionState processor.connTrack key packet moment.unixSeconds
      | none => processor.connTrack
    entry.aclResult.map fun result =>
      (result, { processor with rateLimiters := limiters, connTrack := tracked })

/-- A matching rule's cache entry, without its result: a stateful rule that allows is one of its
own. -/
def ruleEntry (rule : FastLookupRule) (chainType : ChainType) (packet : PacketInfo) (now : Nat) :
    AclCacheEntry :=
  let rateLimitKeys := if 0 < rule.rateLimit then [⟨chainType, rule.priority⟩] else []
  if rule.stateful && rule.action == .allow then
    { matchedRule := .stateful rule.priority
      lastAccess := now
      connTrackKey := some (connTrackKey packet)
      rateLimitKeys := rateLimitKeys
      aclResult := some ⟨.allow, some (.stateful rule.priority), false,
        some (.statefulMatch packet.srcIp packet.dstIp)⟩ }
  else
    { matchedRule := .priority rule.priority
      lastAccess := now
      connTrackKey := none
      rateLimitKeys := rateLimitKeys
      aclResult := some ⟨rule.action, some (.priority rule.priority), false,
        some (.ruleMatch packet.srcIp packet.dstIp rule.action)⟩ }

/-- The cache entry where no rule matches. -/
def defaultEntry (action : Action) (now : Nat) : AclCacheEntry where
  matchedRule := .default
  lastAccess := now
  connTrackKey := none
  rateLimitKeys := []
  aclResult := some ⟨action, some .default, false,
    some (if action = .drop then .defaultDrop else .defaultAllow)⟩

/-- Cache a decision and return it. -/
def conclude (key : AclCacheKey) (entry : AclCacheEntry)
    (order : List AclCacheKey) (now : Nat) : Option (AclResult × AclProcessor) :=
  entry.aclResult.map fun result =>
    (result, { processor with ruleCache := cacheResult processor.ruleCache key entry order now })

/-- What a matching rule makes of a packet: the packet may exceed the rule's rate, which is not
cached, and a stateful rule tracks the connection. -/
def applyRule (moment : Moment) (order : List AclCacheKey)
    (packet : PacketInfo) (chainType : ChainType) (rule : FastLookupRule) :
    Option (AclResult × AclProcessor) :=
  match checkRateLimit processor.rateLimiters ⟨chainType, rule.priority⟩ rule.rateLimit
      rule.burstLimit true moment.instant with
  | none => none
  | some (false, limiters) =>
    some (⟨.drop, some (.priority rule.priority), false, some .rateLimitDrop⟩,
      { processor with rateLimiters := limiters })
  | some (true, limiters) =>
    let entry := ruleEntry rule chainType packet moment.instant
    let tracked := match entry.connTrackKey with
      | some key => checkConnectionState processor.connTrack key packet moment.unixSeconds
      | none => processor.connTrack
    conclude { processor with rateLimiters := limiters, connTrack := tracked }
      (.fromPacketInfo packet chainType) entry order moment.instant

/-- `process_packet`: the cached decision, or that of the first enabled rule that matches, or the
default. -/
def processPacket (moment : Moment) (order : List AclCacheKey)
    (packet : PacketInfo) (chainType : ChainType) : Option (AclResult × AclProcessor) :=
  let key := AclCacheKey.fromPacketInfo packet chainType
  match processor.ruleCache.lookup key with
  | some cached =>
    let cached := { cached with lastAccess := moment.instant }
    processPacketWithCacheEntry
      { processor with ruleCache := processor.ruleCache.insert key cached } moment packet cached
  | none =>
    match processor.rules.ofType chainType with
    | none => some (⟨.drop, some .default, false, some .unsupportedChainType⟩, processor)
    | some rules =>
      match rules.find? fun rule => rule.enabled && ruleMatches rule packet with
      | some rule => processor.applyRule moment order packet chainType rule
      | none =>
        processor.conclude key (defaultEntry (processor.defaultAction chainType) moment.instant)
          order moment.instant

/-- The periodic task over the cache and the buckets, every twenty seconds. -/
def cleanupCaches (order : List AclCacheKey) (now : Nat) :
    AclProcessor :=
  { processor with
    ruleCache := cleanupCache processor.ruleCache cacheMaxSize order now
    rateLimiters := retain
      (fun _ value => decide (now - value.lastUpdate < 20 * nanosPerSecond))
      processor.rateLimiters }

/-- The periodic task over tracked connections. -/
def cleanupConnections (unixSeconds : Nat) : AclProcessor :=
  { processor with connTrack := cleanupExpiredConnections processor.connTrack 60 unixSeconds }

end AclProcessor

end EasyTier.Acl
