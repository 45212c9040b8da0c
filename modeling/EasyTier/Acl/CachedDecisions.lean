import EasyTier.Acl.Processor
import EasyTier.Semantics.System

/-! # Decisions do not depend on the cache

Without rate limits, a decision of a processor with any history is the decision of a processor that
was just made. The cache key forgets whether a packet has ports, and packets of one protocol agree
in that.
-/

namespace EasyTier.Acl

open Data Semantics AclCacheKey

/-- Ports are present exactly in TCP and UDP packets, as in every packet info read from a packet. -/
def PacketInfo.PortsByProtocol (packet : PacketInfo) : Prop :=
  (packet.srcPort.isSome ↔ packet.protocol = .tcp ∨ packet.protocol = .udp) ∧
    (packet.dstPort.isSome ↔ packet.protocol = .tcp ∨ packet.protocol = .udp)

instance (packet : PacketInfo) : Decidable packet.PortsByProtocol :=
  inferInstanceAs (Decidable (_ ∧ _))

/-- No rule limits its rate. -/
def AclConfig.Unlimited (acl : AclConfig) : Prop :=
  ∀ chain ∈ acl.chains, ∀ rule ∈ chain.rules, rule.rateLimit = 0

instance (acl : AclConfig) : Decidable acl.Unlimited :=
  inferInstanceAs (Decidable (∀ chain ∈ acl.chains, ∀ rule ∈ chain.rules, rule.rateLimit = 0))

/-- How a result names the rule it comes from. -/
def FastLookupRule.id (rule : FastLookupRule) : RuleId :=
  if rule.stateful && rule.action == .allow then .stateful rule.priority
  else .priority rule.priority

/-- What a result decides: the action, and the rule it comes from. -/
def AclResult.decision (result : AclResult) : Action × Option RuleId :=
  (result.action, result.matchedRule)

/-- The decision of the first enabled rule that matches, else the default one. -/
def AclProcessor.firstMatch (processor : AclProcessor) (packet : PacketInfo)
    (chainType : ChainType) : Action × Option RuleId :=
  match processor.rules.ofType chainType with
  | none => (.drop, some .default)
  | some rules =>
    match rules.find? fun rule => rule.enabled && ruleMatches rule packet with
    | some rule => (rule.action, some rule.id)
    | none => (processor.defaultAction chainType, some .default)

open AclProcessor

namespace AclProcessor

section

variable (rule : FastLookupRule) (chainType : ChainType) (packet : PacketInfo) (now : Nat)

theorem ruleEntry_rateLimitKeys :
    (ruleEntry rule chainType packet now).rateLimitKeys =
      if 0 < rule.rateLimit then [⟨chainType, rule.priority⟩] else [] := by
  unfold ruleEntry
  cases rule.stateful && rule.action == .allow <;> rfl

theorem ruleEntry_decision :
    (ruleEntry rule chainType packet now).aclResult.map AclResult.decision =
      some (rule.action, some rule.id) := by
  unfold ruleEntry FastLookupRule.id
  dsimp only
  split
  case isTrue stateful =>
    have allows : rule.action = .allow := by simp_all
    rw [allows]
    rfl
  case isFalse => rfl

end

end AclProcessor

/-! ## What a key says about a packet -/

/-- Equal protocols and equal port numbers, an absent port counting as zero, are equal ports. -/
theorem port_eq_of_getD_eq {left right : Option Nat} (present : left.isSome ↔ right.isSome)
    (same : left.getD 0 = right.getD 0) : left = right := by
  cases left <;> cases right <;> simp_all

/-- Packets under one key are matched by the same rules. -/
theorem ruleMatches_eq_of_key_eq {left right : PacketInfo} {leftType rightType : ChainType}
    (leftPorts : left.PortsByProtocol) (rightPorts : right.PortsByProtocol)
    (same : fromPacketInfo left leftType =
      fromPacketInfo right rightType) (rule : FastLookupRule) :
    ruleMatches rule left = ruleMatches rule right := by
  obtain ⟨-, protocol, srcIp, dstIp, srcPort, dstPort, srcGroups, dstGroups⟩ :=
    mk.inj same
  have sourcePort : left.srcPort = right.srcPort := by
    refine port_eq_of_getD_eq ?_ srcPort
    rw [leftPorts.1, rightPorts.1, protocol]
  have destinationPort : left.dstPort = right.dstPort := by
    refine port_eq_of_getD_eq ?_ dstPort
    rw [leftPorts.2, rightPorts.2, protocol]
  unfold ruleMatches
  rw [protocol, srcIp, dstIp, sourcePort, destinationPort, srcGroups, dstGroups]

/-! ## Caches that only hold decisions -/

/-- The entry holds what the processor decides for every packet under the key, and checks no rate
limit. -/
structure Remembers (processor : AclProcessor) (key : AclCacheKey) (entry : AclCacheEntry) :
    Prop where
  unlimited : entry.rateLimitKeys = []
  decided : ∀ (packet : PacketInfo) (chainType : ChainType), packet.PortsByProtocol →
    fromPacketInfo packet chainType = key →
    entry.aclResult.map AclResult.decision = some (processor.firstMatch packet chainType)

variable {entry : AclCacheEntry} (connTrack : ConnTrack) (rateLimiters : RateLimiters)

/-- An entry for one packet under a key is an entry for all of them. -/
theorem Remembers.of_packet {processor : AclProcessor} {packet : PacketInfo}
    {chainType : ChainType} (ports : packet.PortsByProtocol)
    (unlimited : entry.rateLimitKeys = [])
    (decided : entry.aclResult.map AclResult.decision =
      some (processor.firstMatch packet chainType)) :
    Remembers processor (.fromPacketInfo packet chainType) entry where
  unlimited := unlimited
  decided other otherType otherPorts same := by
    have sameType : otherType = chainType := congrArg AclCacheKey.chainType same
    simp only [decided, AclProcessor.firstMatch, sameType,
      ruleMatches_eq_of_key_eq otherPorts ports same]

theorem Remembers.touch {processor : AclProcessor} {key : AclCacheKey}
    (remembers : Remembers processor key entry) (now : Nat) :
    Remembers processor key { entry with lastAccess := now } :=
  ⟨remembers.unlimited, remembers.decided⟩

section

variable {holds : AclCacheKey → AclCacheEntry → Prop} {cache : RuleCache}
    (entries : AllEntries holds cache)
include entries

theorem allEntries_cleanupCache (maxSize : Nat) (order : List AclCacheKey) (now : Nat) :
    AllEntries holds (cleanupCache cache maxSize order now) := by
  unfold cleanupCache
  dsimp only
  split
  · exact entries.retain _
  · exact (entries.retain _).foldl_erase _ _

theorem allEntries_cacheResult {key : AclCacheKey}
    (stored : holds key entry) (order : List AclCacheKey) (now : Nat) :
    AllEntries holds (cacheResult cache key entry order now) := by
  unfold cacheResult
  dsimp only
  split
  · exact allEntries_cleanupCache (entries.insert stored) _ _ _
  · exact entries.insert stored

end

/-! ## One packet -/

/-- A processor with the rules and defaults of a fresh one, whose cache holds decisions of it. -/
structure Agrees (fresh processor : AclProcessor) : Prop where
  rules : processor.rules = fresh.rules
  defaults : processor.defaultAction = fresh.defaultAction
  cached : AllEntries (Remembers fresh) processor.ruleCache

/-- The rules of a processor limit no rate. -/
def AclProcessor.Unlimited (processor : AclProcessor) : Prop :=
  ∀ chainType rules, processor.rules.ofType chainType = some rules →
    ∀ rule ∈ rules, rule.rateLimit = 0

namespace Agrees

variable {fresh processor : AclProcessor}

/-- What a packet does: it is decided as by the fresh processor, and the cache stays one of
decisions. -/
def Decides (fresh : AclProcessor) (packet : PacketInfo) (chainType : ChainType)
    (outcome : Option (AclResult × AclProcessor)) : Prop :=
  ∃ result after, outcome = some (result, after) ∧
    result.decision = fresh.firstMatch packet chainType ∧ Agrees fresh after

variable (agrees : Agrees fresh processor)
include agrees

theorem withTables :
    Agrees fresh { processor with connTrack := connTrack, rateLimiters := rateLimiters } :=
  ⟨agrees.rules, agrees.defaults, agrees.cached⟩

theorem withCache {cache : RuleCache} (cached : AllEntries (Remembers fresh) cache) :
    Agrees fresh { processor with ruleCache := cache } :=
  ⟨agrees.rules, agrees.defaults, cached⟩

variable {packet : PacketInfo} {chainType : ChainType}

theorem processPacketWithCacheEntry (ports : packet.PortsByProtocol)
    (remembers : Remembers fresh (.fromPacketInfo packet chainType) entry) (moment : Moment) :
    Decides fresh packet chainType
      (processor.processPacketWithCacheEntry moment packet entry) := by
  have decided := remembers.decided packet chainType ports rfl
  obtain ⟨result, stored, decision⟩ := Option.map_eq_some_iff.mp decided
  simp only [AclProcessor.processPacketWithCacheEntry, remembers.unlimited,
    checkRateLimits, stored, Option.map_some]
  exact ⟨result, _, rfl, decision, agrees.withTables _ _⟩

theorem conclude
    (remembers : Remembers fresh (.fromPacketInfo packet chainType) entry)
    (ports : packet.PortsByProtocol) (order : List AclCacheKey) (now : Nat) :
    Decides fresh packet chainType
      (processor.conclude (.fromPacketInfo packet chainType) entry order now) := by
  have decided := remembers.decided packet chainType ports rfl
  obtain ⟨result, stored, decision⟩ := Option.map_eq_some_iff.mp decided
  rw [AclProcessor.conclude, stored]
  exact ⟨result, _, rfl, decision,
    agrees.withCache (allEntries_cacheResult agrees.cached remembers order now)⟩

theorem applyRule
    {rule : FastLookupRule} (unlimited : rule.rateLimit = 0) (ports : packet.PortsByProtocol)
    (first : fresh.firstMatch packet chainType = (rule.action, some rule.id))
    (moment : Moment) (order : List AclCacheKey) :
    Decides fresh packet chainType
      (processor.applyRule moment order packet chainType rule) := by
  have remembers : Remembers fresh (.fromPacketInfo packet chainType)
      (AclProcessor.ruleEntry rule chainType packet moment.instant) := by
    refine .of_packet ports ?_ ?_
    · rw [AclProcessor.ruleEntry_rateLimitKeys, unlimited]
      rfl
    · rw [AclProcessor.ruleEntry_decision, first]
  rw [AclProcessor.applyRule, checkRateLimit, if_pos unlimited]
  exact (agrees.withTables _ _).conclude remembers ports order _

/-- Every packet is decided as by the fresh processor. -/
theorem processPacket (unlimited : fresh.Unlimited)
    (ports : packet.PortsByProtocol) (chainType : ChainType)
    (moment : Moment) (order : List AclCacheKey) :
    Decides fresh packet chainType (processor.processPacket moment order packet chainType) := by
  unfold AclProcessor.processPacket
  dsimp only
  split
  case h_1 cached stored =>
    have remembers := (agrees.cached _ _ stored).touch moment.instant
    exact (agrees.withCache (agrees.cached.insert remembers)).processPacketWithCacheEntry ports
      remembers moment
  case h_2 =>
    rw [agrees.rules, agrees.defaults]
    split
    case h_1 unsupported =>
      refine ⟨_, _, rfl, ?_, agrees⟩
      rw [firstMatch, unsupported]
      rfl
    case h_2 rules supported =>
      split
      case h_1 rule found =>
        refine agrees.applyRule ?_ ports ?_ moment order
        · exact unlimited chainType rules supported rule (List.mem_of_find?_eq_some found)
        · simp only [firstMatch, supported, found]
      case h_2 unmatched =>
        refine agrees.conclude (.of_packet ports rfl ?_) ports order _
        simp only [firstMatch, supported, unmatched]
        rfl

omit agrees

end Agrees

/-! ## Histories -/

/-- A packet, or a round of one of the cleanups. -/
inductive AclEvent where
  | process (moment : Moment) (order : List AclCacheKey) (packet : PacketInfo)
    (chainType : ChainType)
  | cleanupCaches (order : List AclCacheKey) (now : Nat)
  | cleanupConnections (unixSeconds : Nat)

/-- The packets of a history are packet infos read from packets. -/
def AclEvent.PortsByProtocol : AclEvent → Prop
  | .process _ _ packet _ => packet.PortsByProtocol
  | .cleanupCaches _ _ => True
  | .cleanupConnections _ => True

instance (event : AclEvent) : Decidable event.PortsByProtocol := by
  unfold AclEvent.PortsByProtocol
  cases_type AclEvent <;> infer_instance

def AclProcessor.step (processor : AclProcessor) : AclEvent → Option AclProcessor
  | .process moment order packet chainType =>
    (processor.processPacket moment order packet chainType).map Prod.snd
  | .cleanupCaches order now => some (processor.cleanupCaches order now)
  | .cleanupConnections unixSeconds => some (processor.cleanupConnections unixSeconds)

/-- Histories of a processor for a configuration, made with any tables taken over from the processor
before it. -/
def aclSystem (fromStr : Text → Option IpCidr) (acl : AclConfig) : System AclProcessor AclEvent :=
  .ofStep (fun processor => ∃ connTrack rateLimiters,
    processor = .newWithSharedState fromStr acl connTrack rateLimiters) AclProcessor.step

theorem Agrees.step {fresh before after : AclProcessor} (agrees : Agrees fresh before)
    (unlimited : fresh.Unlimited) {event : AclEvent} (ports : event.PortsByProtocol)
    (transition : before.step event = some after) : Agrees fresh after := by
  cases event with
  | process moment order packet chainType =>
    obtain ⟨result, next, processed, -, agreesNext⟩ :=
      agrees.processPacket unlimited ports chainType moment order
    rw [AclProcessor.step, processed] at transition
    cases transition
    exact agreesNext
  | cleanupCaches order now =>
    cases transition
    exact ⟨agrees.rules, agrees.defaults, allEntries_cleanupCache agrees.cached _ _ _⟩
  | cleanupConnections unixSeconds =>
    cases transition
    exact agrees.withTables _ _

variable {fromStr : Text → Option IpCidr} {acl : AclConfig}

theorem agrees_newWithSharedState :
    Agrees (.new fromStr acl) (.newWithSharedState fromStr acl connTrack rateLimiters) where
  rules := rfl
  defaults := by
    funext chainType
    cases chainType <;> rfl
  cached := .empty

theorem mem_sortedRules {chain : Chain} {rule : FastLookupRule} :
    rule ∈ chain.sortedRules fromStr ↔
      ∃ source ∈ chain.rules, source.enabled ∧ convertToFastLookupRule fromStr source = rule := by
  rw [Chain.sortedRules, (List.perm_insertionSort _ _).mem_iff]
  simp [and_assoc]

theorem AclConfig.Unlimited.processor (unlimited : acl.Unlimited) :
    (new fromStr acl).Unlimited := by
  intro chainType rules found rule member
  have supported : chainType.Supported := by
    rintro rfl
    cases found
  have listed : rules = (acl.enabledChains chainType).flatMap (Chain.sortedRules fromStr) :=
    Option.some.inj (found.symm.trans (buildRules_ofType fromStr acl supported))
  rw [listed, List.mem_flatMap] at member
  obtain ⟨chain, contributes, member⟩ := member
  obtain ⟨source, ofChain, -, rfl⟩ := mem_sortedRules.mp member
  exact unlimited chain (List.mem_of_mem_filter contributes) source ofChain

theorem agrees_of_reachable (unlimited : acl.Unlimited) {processor : AclProcessor}
    (reached : (aclSystem fromStr acl).ReachableUnder (fun _ event => event.PortsByProtocol)
      processor) : Agrees (.new fromStr acl) processor := by
  refine reached.invariant ?_ ?_
  · rintro state ⟨connTrack, rateLimiters, rfl⟩
    exact agrees_newWithSharedState connTrack rateLimiters
  · intro before event after agrees ports transition
    exact agrees.step unlimited.processor ports transition

/-- After any history, a packet gets the decision of a fresh processor, and that is the decision of
the first enabled rule that matches it, or else the default. -/
theorem decision_independent_of_history (unlimited : acl.Unlimited) {processor : AclProcessor}
    (reached : (aclSystem fromStr acl).ReachableUnder (fun _ event => event.PortsByProtocol)
      processor)
    {packet : PacketInfo} (ports : packet.PortsByProtocol) (chainType : ChainType)
    (moment freshMoment : Moment) (order freshOrder : List AclCacheKey) :
    ∃ result after fresh freshAfter,
      processor.processPacket moment order packet chainType = some (result, after) ∧
      (new fromStr acl).processPacket freshMoment freshOrder packet chainType =
        some (fresh, freshAfter) ∧
      result.action = fresh.action ∧ result.matchedRule = fresh.matchedRule ∧
      fresh.decision = (new fromStr acl).firstMatch packet chainType := by
  obtain ⟨result, after, processed, decision, -⟩ :=
    (agrees_of_reachable unlimited reached).processPacket unlimited.processor ports chainType
      moment order
  obtain ⟨fresh, freshAfter, freshProcessed, freshDecision, -⟩ :=
    (agrees_newWithSharedState ∅ ∅ : Agrees (.new fromStr acl) _).processPacket
      unlimited.processor ports chainType freshMoment freshOrder
  obtain ⟨action, matchedRule⟩ := Prod.mk.inj (decision.trans freshDecision.symm)
  exact ⟨result, after, fresh, freshAfter, processed, freshProcessed, action, matchedRule,
    freshDecision⟩

/-! ## A cached decision -/

/-- Web traffic is let in and tracked, everything else is dropped. -/
def webAcl : AclConfig where
  aclV1 := some {
    chains := [{
      chainType := .inbound
      rules := [{
        priority := 10, protocol := .tcp, ports := [['8', '0']], action := .allow,
        stateful := true }]
      defaultAction := .drop }] }

def webPacket : PacketInfo where
  srcIp := .v4 0x0a000001
  dstIp := .v4 0x0a000002
  srcPort := some 40000
  dstPort := some 80
  protocol := .tcp
  packetSize := 60
  srcGroups := []
  dstGroups := []

/-- The second packet of a connection is decided from the cache, as the first one was. -/
theorem cached_web_decision :
    ∃ processor,
      (aclSystem (fun _ => none) webAcl).ReachableUnder (fun _ event => event.PortsByProtocol)
        processor ∧
      (processor.ruleCache.lookup (.fromPacketInfo webPacket .inbound)).isSome ∧
      ∃ result after fresh freshAfter,
        processor.processPacket ⟨9, 0⟩ [] webPacket .inbound = some (result, after) ∧
        (new (fun _ => none) webAcl).processPacket ⟨9, 0⟩ [] webPacket .inbound =
          some (fresh, freshAfter) ∧
        result.action = fresh.action ∧ result.matchedRule = fresh.matchedRule ∧
        fresh.decision = (new (fun _ => none) webAcl).firstMatch webPacket .inbound := by
  refine System.exists_reachableUnder (.new (fun _ => none) webAcl)
    [.process ⟨1, 0⟩ [] webPacket .inbound, .cleanupConnections 0]
    (fun processor => (processor.ruleCache.lookup (.fromPacketInfo webPacket .inbound)).isSome)
    ⟨∅, ∅, rfl⟩ (by decide +kernel) fun processor reached cached => ⟨cached, ?_⟩
  exact decision_independent_of_history (by decide) reached (by decide) .inbound ⟨9, 0⟩ ⟨9, 0⟩ [] []

end EasyTier.Acl
