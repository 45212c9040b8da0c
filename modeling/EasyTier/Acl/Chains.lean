import EasyTier.Acl.CachedDecisions

/-! # How chains of one type combine

Each chain is sorted on its own and the chains are tried in their listed order, so a rule of high
priority in a later chain comes after every rule of an earlier one. Default actions are looked up
among all chains, the disabled ones included.
-/

namespace EasyTier.Acl

open Data AclProcessor FastLookupRule AclConfig

/-! ## Decisions without a cache -/

section Cold

variable (fromStr : Text → Option IpCidr) (acl : AclConfig) (connTrack : ConnTrack)
  (rateLimiters : RateLimiters) (packet : PacketInfo) (chainType : ChainType) (moment : Moment)
  (order : List AclCacheKey)

/-- The decision of a rule, once its rate limit was looked at. -/
def FastLookupRule.decide (rule : FastLookupRule) (rateLimiters : RateLimiters)
    (chainType : ChainType) (now : Nat) : Option (Action × Option RuleId) :=
  (checkRateLimit rateLimiters ⟨chainType, rule.priority⟩ rule.rateLimit rule.burstLimit true
    now).map fun checked =>
      if checked.1 then (rule.action, some rule.id) else (.drop, some (.priority rule.priority))

theorem AclProcessor.applyRule_decision (processor : AclProcessor) (rule : FastLookupRule) :
    (processor.applyRule moment order packet chainType rule).map (·.1.decision) =
      rule.decide processor.rateLimiters chainType moment.instant := by
  unfold applyRule FastLookupRule.decide
  split
  case h_1 missing => rw [missing]; rfl
  case h_2 limited => rw [limited]; rfl
  case h_3 passed =>
    rw [passed]
    simp only [conclude, Option.map_map, Option.map_some, if_true]
    exact ruleEntry_decision rule chainType packet moment.instant

/-- What a processor with an empty cache decides. -/
theorem cold_decision :
    ((newWithSharedState fromStr acl connTrack rateLimiters).processPacket moment order
        packet chainType).map (·.1.decision) =
      match (buildRules fromStr acl).ofType chainType with
      | none => some (.drop, some .default)
      | some rules =>
        match rules.find? fun rule => rule.enabled && ruleMatches rule packet with
        | some rule => rule.decide rateLimiters chainType moment.instant
        | none => some (defaultActionOf acl chainType, some .default) := by
  unfold processPacket
  cases found : (buildRules fromStr acl).ofType chainType with
  | none =>
    have unsupported : (newWithSharedState fromStr acl connTrack rateLimiters).rules.ofType
        chainType = none := found
    rw [unsupported]
    rfl
  | some rules =>
    have supported : (newWithSharedState fromStr acl connTrack rateLimiters).rules.ofType
        chainType = some rules := found
    rw [supported]
    dsimp only
    cases rules.find? fun rule => rule.enabled && ruleMatches rule packet with
    | some rule => exact applyRule_decision packet chainType moment order _ rule
    | none =>
      have defaults : (newWithSharedState fromStr acl connTrack
          rateLimiters).defaultAction chainType = defaultActionOf acl chainType := by
        cases chainType with
        | unspecifiedChain => cases found
        | inbound | outbound | forward => rfl
      rw [defaults]
      rfl

/-- A rule whose bucket is not made yet decides by its action. -/
theorem FastLookupRule.decide_empty (rule : FastLookupRule) (now : Nat) :
    rule.decide ∅ chainType now = some (rule.action, some rule.id) := by
  unfold decide checkRateLimit
  split
  · rfl
  · obtain ⟨after, granted⟩ :=
      Foundation.TokenBucket.tryConsume_new rule.burstLimit rule.rateLimit now
    simp [granted]

end Cold

/-! ## Priorities -/

section Priorities

variable (fromStr : Text → Option IpCidr)

/-- The enabled rules of a chain that match a packet. -/
def Chain.candidates (chain : Chain) (packet : PacketInfo) : List Rule :=
  chain.rules.filter fun rule =>
    rule.enabled && ruleMatches (convertToFastLookupRule fromStr rule) packet

/-- The enabled rules that match a packet, of all enabled chains of a type. -/
def AclConfig.candidates (acl : AclConfig) (chainType : ChainType) (packet : PacketInfo) :
    List Rule :=
  (acl.enabledChains chainType).flatMap (·.candidates fromStr packet)

open AclConfig

/-- A result comes from a rule of highest priority, and from a default only without rules. -/
def AclResult.RespectsPriority (candidates : List Rule) (result : AclResult) : Prop :=
  (result.matchedRule = some .default → candidates = []) ∧
    (candidates ≠ [] → ∃ rule ∈ candidates,
      (∀ other ∈ candidates, other.priority ≤ rule.priority) ∧ result.action = rule.action ∧
        result.matchedRule = some (convertToFastLookupRule fromStr rule).id)

/-- The first chain with a matching rule has one of highest priority among those of all chains. -/
def AclConfig.LeadsWithTop (acl : AclConfig) (chainType : ChainType) (packet : PacketInfo) : Prop :=
  ∀ chain, (acl.enabledChains chainType).find? (fun chain => chain.candidates fromStr packet ≠ []) =
    some chain → ∃ rule ∈ chain.candidates fromStr packet,
      ∀ other ∈ acl.candidates fromStr chainType packet, other.priority ≤ rule.priority

/-- The first match in a sorted list comes before every other match. -/
theorem rel_of_find?_eq_some {Item : Type*} {before : Item → Item → Prop} {items : List Item}
    (sorted : items.Pairwise before) (reflexive : ∀ item, before item item) {test : Item → Bool}
    {first other : Item} (found : items.find? test = some first) (member : other ∈ items)
    (passes : test other = true) : before first other := by
  obtain ⟨-, skipped, rest, rfl, failed⟩ := List.find?_eq_some_iff_append.mp found
  rcases List.mem_append.mp member with earlier | later
  · have fails := failed other earlier
    simp [passes] at fails
  · have ordered := (List.pairwise_append.mp sorted).2.1
    rcases List.mem_cons.mp later with rfl | later
    · exact reflexive other
    · exact (List.pairwise_cons.mp ordered).1 other later

variable {fromStr} {chain : Chain} {packet : PacketInfo} {chainType : ChainType} {acl : AclConfig}

theorem mem_candidates {rule : Rule} :
    rule ∈ chain.candidates fromStr packet ↔ rule ∈ chain.rules ∧ rule.enabled = true ∧
      ruleMatches (convertToFastLookupRule fromStr rule) packet = true := by
  simp [Chain.candidates]

/-- In one chain the first match is a candidate of highest priority. -/
theorem Chain.top_of_find? {first : FastLookupRule}
    (found : (chain.sortedRules fromStr).find?
      (fun rule => rule.enabled && ruleMatches rule packet) = some first) :
    ∃ rule ∈ chain.candidates fromStr packet, convertToFastLookupRule fromStr rule = first ∧
      ∀ other ∈ chain.candidates fromStr packet, other.priority ≤ rule.priority := by
  obtain ⟨rule, listed, enabled, rfl⟩ := mem_sortedRules.mp (List.mem_of_find?_eq_some found)
  have passes := List.find?_some found
  rw [Bool.and_eq_true] at passes
  refine ⟨rule, mem_candidates.mpr ⟨listed, enabled, passes.2⟩, rfl, ?_⟩
  intro other candidate
  obtain ⟨otherListed, otherEnabled, otherMatches⟩ := mem_candidates.mp candidate
  have sorted : (chain.sortedRules fromStr).Pairwise
      (fun left right => right.priority ≤ left.priority) :=
    List.pairwise_insertionSort _ _
  have compared := rel_of_find?_eq_some sorted (fun _ => Nat.le_refl _) found
    (mem_sortedRules.mpr ⟨other, otherListed, otherEnabled, rfl⟩)
    (Bool.and_eq_true_iff.mpr ⟨otherEnabled, otherMatches⟩)
  exact compared

/-- Without a first match a chain has no candidates. -/
theorem Chain.find?_eq_none_iff :
    (chain.sortedRules fromStr).find? (fun rule => rule.enabled && ruleMatches rule packet) = none ↔
      chain.candidates fromStr packet = [] := by
  rw [List.find?_eq_none, List.eq_nil_iff_forall_not_mem]
  constructor
  · intro unmatched rule candidate
    obtain ⟨listed, enabled, passes⟩ := mem_candidates.mp candidate
    refine unmatched _ (mem_sortedRules.mpr ⟨rule, listed, enabled, rfl⟩) ?_
    exact Bool.and_eq_true_iff.mpr ⟨enabled, passes⟩
  · rintro empty fast member passes
    obtain ⟨rule, listed, enabled, rfl⟩ := mem_sortedRules.mp member
    exact empty rule (mem_candidates.mpr ⟨listed, enabled, (Bool.and_eq_true_iff.mp passes).2⟩)

/-- The first match among the rules of a type is the one of the first chain with candidates. -/
theorem AclConfig.find?_rules (acl : AclConfig) (chainType : ChainType) (packet : PacketInfo) :
    ((acl.enabledChains chainType).flatMap (Chain.sortedRules fromStr)).find?
        (fun rule => rule.enabled && ruleMatches rule packet) =
      ((acl.enabledChains chainType).find? fun chain => chain.candidates fromStr packet ≠ []).bind
        fun chain => (chain.sortedRules fromStr).find?
          fun rule => rule.enabled && ruleMatches rule packet := by
  rw [List.find?_flatMap]
  induction acl.enabledChains chainType with
  | nil => rfl
  | cons chain chains ih =>
    rw [List.findSome?_cons, List.find?_cons]
    cases found : (chain.sortedRules fromStr).find?
        fun rule => rule.enabled && ruleMatches rule packet with
    | none =>
      have empty := Chain.find?_eq_none_iff.mp found
      simp only [empty, ne_eq, not_true_eq_false, decide_false]
      exact ih
    | some first =>
      have candidates : chain.candidates fromStr packet ≠ [] := by
        intro empty
        rw [Chain.find?_eq_none_iff.mpr empty] at found
        cases found
      simp only [candidates, ne_eq, not_false_eq_true, decide_true, Option.bind_some, found]

theorem AclConfig.candidates_eq_nil_iff : acl.candidates fromStr chainType packet = [] ↔
      (acl.enabledChains chainType).find? (fun chain => chain.candidates fromStr packet ≠ []) =
        none := by
  simp [candidates, List.find?_eq_none, List.flatMap_eq_nil_iff]

theorem AclConfig.find?_rules_eq_none_iff :
    ((acl.enabledChains chainType).flatMap (Chain.sortedRules fromStr)).find?
        (fun rule => rule.enabled && ruleMatches rule packet) = none ↔
      acl.candidates fromStr chainType packet = [] := by
  rw [List.find?_flatMap, List.findSome?_eq_none_iff, candidates, List.flatMap_eq_nil_iff]
  simp only [Chain.find?_eq_none_iff]

/-- Rules of one name have one priority. -/
theorem FastLookupRule.priority_eq_of_id_eq {left right : FastLookupRule}
    (same : left.id = right.id) : left.priority = right.priority := by
  unfold id at same
  split at same <;> split at same <;> simp_all

/-- A fresh processor decides by a rule of highest priority in the first chain with candidates. -/
theorem fresh_decision_of_leading (supported : chainType.Supported)
    (leading : (acl.enabledChains chainType).find?
      (fun chain => chain.candidates fromStr packet ≠ []) = some chain)
    (moment : Moment) (order : List AclCacheKey) :
    ∃ result after rule,
      (new fromStr acl).processPacket moment order packet chainType =
        some (result, after) ∧
      rule ∈ chain.candidates fromStr packet ∧
      (∀ other ∈ chain.candidates fromStr packet, other.priority ≤ rule.priority) ∧
      result.action = rule.action ∧
      result.matchedRule = some (convertToFastLookupRule fromStr rule).id := by
  have decided := cold_decision fromStr acl ∅ ∅ packet chainType moment order
  rw [buildRules_ofType fromStr acl supported] at decided
  dsimp only at decided
  rw [find?_rules, leading, Option.bind_some] at decided
  have candidates : chain.candidates fromStr packet ≠ [] := by
    simpa using List.find?_some leading
  cases found : (chain.sortedRules fromStr).find?
      fun rule => rule.enabled && ruleMatches rule packet with
  | none => exact absurd (Chain.find?_eq_none_iff.mp found) candidates
  | some first =>
    obtain ⟨rule, candidate, rfl, top⟩ := Chain.top_of_find? found
    simp only [found, decide_empty] at decided
    obtain ⟨⟨result, after⟩, processed, decision⟩ := Option.map_eq_some_iff.mp decided
    obtain ⟨action, matchedRule⟩ := Prod.mk.inj decision
    exact ⟨result, after, rule, processed, candidate, top, action, matchedRule⟩

/-- A fresh processor decides by default where no chain has candidates. -/
theorem fresh_decision_of_no_candidates (supported : chainType.Supported)
    (empty : acl.candidates fromStr chainType packet = []) (moment : Moment)
    (order : List AclCacheKey) :
    ∃ result after, (new fromStr acl).processPacket moment order packet chainType =
      some (result, after) := by
  have decided := cold_decision fromStr acl ∅ ∅ packet chainType moment order
  rw [buildRules_ofType fromStr acl supported] at decided
  dsimp only at decided
  rw [find?_rules, candidates_eq_nil_iff.mp empty] at decided
  obtain ⟨⟨result, after⟩, processed, -⟩ := Option.map_eq_some_iff.mp decided
  exact ⟨result, after, processed⟩

theorem FastLookupRule.id_ne_default (rule : FastLookupRule) : rule.id ≠ .default := by
  unfold id
  split <;> simp

/-- On a fresh processor the decision comes from a rule of highest priority exactly if the first
chain with a matching rule has such a rule. -/
theorem respects_priority_iff (acl : AclConfig) {chainType : ChainType}
    (supported : chainType.Supported) (packet : PacketInfo) (moment : Moment)
    (order : List AclCacheKey) :
    (∃ result after, (new fromStr acl).processPacket moment order packet chainType =
        some (result, after) ∧
      result.RespectsPriority fromStr (acl.candidates fromStr chainType packet)) ↔
      acl.LeadsWithTop fromStr chainType packet := by
  cases leading : (acl.enabledChains chainType).find?
      fun chain => chain.candidates fromStr packet ≠ [] with
  | none =>
    have empty := candidates_eq_nil_iff.mpr leading
    obtain ⟨result, after, processed⟩ :=
      fresh_decision_of_no_candidates supported empty moment order
    refine iff_of_true ⟨result, after, processed, fun _ => empty, fun some => absurd empty some⟩ ?_
    intro chain found
    rw [leading] at found
    cases found
  | some chain =>
    obtain ⟨result, after, best, processed, candidate, top, action, matchedRule⟩ :=
      fresh_decision_of_leading supported leading moment order
    have member : best ∈ acl.candidates fromStr chainType packet :=
      List.mem_flatMap.mpr ⟨chain, List.mem_of_find?_eq_some leading, candidate⟩
    constructor
    · rintro ⟨other, otherAfter, otherProcessed, -, highest⟩ found foundLeading
      obtain rfl : chain = found := Option.some.inj (leading.symm.trans foundLeading)
      obtain ⟨rfl, -⟩ := Prod.mk.inj (Option.some.inj (processed.symm.trans otherProcessed))
      obtain ⟨rule, -, highestPriority, -, named⟩ := highest (List.ne_nil_of_mem member)
      have samePriority : best.priority = rule.priority :=
        priority_eq_of_id_eq (Option.some.inj (matchedRule.symm.trans named))
      exact ⟨best, candidate, fun other listed => samePriority ▸ highestPriority other listed⟩
    · intro leads
      obtain ⟨rule, ruleCandidate, highest⟩ := leads chain leading
      refine ⟨result, after, processed, ?_, fun _ => ⟨best, member, ?_, action, matchedRule⟩⟩
      · intro isDefault
        rw [matchedRule] at isDefault
        exact absurd (Option.some.inj isDefault) (id_ne_default _)
      · intro other listed
        exact (highest other listed).trans (top rule ruleCandidate)

def allowingChain : Chain where
  chainType := .inbound
  rules := [{ priority := 1, action := .allow }]
  defaultAction := .allow

def droppingChain : Chain where
  chainType := .inbound
  rules := [{ priority := 100, action := .drop }]
  defaultAction := .allow

/-- A rule of low priority in the first chain, one of high priority in the second. -/
def outrankedAcl : AclConfig where
  aclV1 := some { chains := [allowingChain, droppingChain] }

/-- The rule of priority 1 decides although one of priority 100 matches. -/
theorem later_chain_outranked :
    ¬ ∃ result after,
      (new (fun _ => none) outrankedAcl).processPacket ⟨0, 0⟩ [] webPacket .inbound =
        some (result, after) ∧
      result.RespectsPriority (fun _ => none)
        (outrankedAcl.candidates (fun _ => none) .inbound webPacket) := by
  rintro ⟨result, after, processed, -, highest⟩
  have decided : ((new (fun _ => none) outrankedAcl).processPacket ⟨0, 0⟩ []
      webPacket .inbound).map (·.1.decision) = some (.allow, some (.priority 1)) := by
    decide +kernel
  rw [processed] at decided
  obtain ⟨-, matchedRule⟩ := Prod.mk.inj (Option.some.inj decided)
  obtain ⟨rule, -, top, -, named⟩ := highest (by decide +kernel)
  have outranks := top { priority := 100, action := .drop } (by decide +kernel)
  have samePriority : (convertToFastLookupRule (fun _ => none) rule).id = .priority 1 :=
    Option.some.inj (named.symm.trans matchedRule)
  have low : rule.priority = 1 := by
    unfold FastLookupRule.id at samePriority
    split at samePriority <;> simp_all [convertToFastLookupRule]
  rw [low] at outranks
  exact absurd outranks (by decide)

/-- The same chains in the other order. -/
def reorderedAcl : AclConfig where
  aclV1 := some { chains := [droppingChain, allowingChain] }

/-- With the chains in the other order the rule of priority 100 decides. -/
theorem reordered_chains_respect_priority :
    ∃ result after,
      (new (fun _ => none) reorderedAcl).processPacket ⟨0, 0⟩ [] webPacket .inbound =
        some (result, after) ∧
      result.RespectsPriority (fun _ => none)
        (reorderedAcl.candidates (fun _ => none) .inbound webPacket) := by
  refine (respects_priority_iff reorderedAcl (by decide) webPacket ⟨0, 0⟩ []).mpr ?_
  intro chain leading
  obtain rfl : chain = droppingChain :=
    Option.some.inj (leading.symm.trans (by decide +kernel))
  exact ⟨{ priority := 100, action := .drop }, by decide +kernel, by decide +kernel⟩

end Priorities

/-! ## Disabled chains -/

section DisabledChains

variable (fromStr : Text → Option IpCidr) (acl : AclConfig) (chainType : ChainType)

/-- A configuration without its disabled chains. -/
def AclConfig.withoutDisabled (acl : AclConfig) : AclConfig where
  aclV1 := acl.aclV1.map fun v1 => { v1 with chains := v1.chains.filter (·.enabled) }

theorem AclConfig.withoutDisabled_chains :
    acl.withoutDisabled.chains = acl.chains.filter (·.enabled) := by
  unfold withoutDisabled chains
  cases acl.aclV1 <;> rfl

theorem AclConfig.withoutDisabled_enabledChains :
    acl.withoutDisabled.enabledChains chainType = acl.enabledChains chainType := by
  rw [enabledChains, withoutDisabled_chains, List.filter_filter, enabledChains]
  congr 1
  funext chain
  cases chain.enabled <;> simp

/-- The rules of a configuration are those of its enabled chains. -/
theorem buildRules_withoutDisabled :
    (buildRules fromStr acl.withoutDisabled).ofType chainType =
      (buildRules fromStr acl).ofType chainType := by
  by_cases supported : chainType.Supported
  · rw [buildRules_ofType fromStr _ supported, buildRules_ofType fromStr _ supported,
      withoutDisabled_enabledChains]
  · obtain rfl : chainType = .unspecifiedChain := not_not.mp supported
    rfl

/-- The default action of the first enabled chain of a type. -/
def enabledDefaultActionOf (acl : AclConfig) (chainType : ChainType) : Action :=
  ((acl.enabledChains chainType).head?.map (·.defaultAction)).getD .allow

theorem defaultActionOf_withoutDisabled :
    defaultActionOf acl.withoutDisabled chainType = enabledDefaultActionOf acl chainType := by
  rw [defaultActionOf, withoutDisabled_chains, enabledDefaultActionOf,
    enabledChains, List.find?_filter, List.head?_filter]
  simp only [Bool.decide_and, Bool.decide_eq_true]

/-- Deleting the disabled chains leaves a decision as it is exactly if a rule decides, or the first
chain of the type has the default action of the first enabled one. -/
theorem disabled_chains_have_no_effect_iff (acl : AclConfig) (connTrack : ConnTrack)
    (rateLimiters : RateLimiters) (packet : PacketInfo) (chainType : ChainType) (moment : Moment)
    (order : List AclCacheKey) :
    ((newWithSharedState fromStr acl.withoutDisabled connTrack
          rateLimiters).processPacket moment order packet chainType).map (·.1.decision) =
        ((newWithSharedState fromStr acl connTrack rateLimiters).processPacket moment
          order packet chainType).map (·.1.decision) ↔
      ¬ chainType.Supported ∨ acl.candidates fromStr chainType packet ≠ [] ∨
        defaultActionOf acl chainType = enabledDefaultActionOf acl chainType := by
  rw [cold_decision, cold_decision, buildRules_withoutDisabled, defaultActionOf_withoutDisabled]
  by_cases supported : chainType.Supported
  · rw [buildRules_ofType fromStr acl supported]
    dsimp only
    cases found : ((acl.enabledChains chainType).flatMap (Chain.sortedRules fromStr)).find?
        fun rule => rule.enabled && ruleMatches rule packet with
    | some rule =>
      have candidates : acl.candidates fromStr chainType packet ≠ [] := by
        intro empty
        rw [find?_rules_eq_none_iff.mpr empty] at found
        cases found
      exact iff_of_true rfl (.inr (.inl candidates))
    | none =>
      have empty := find?_rules_eq_none_iff.mp found
      simp [supported, empty, eq_comm]
  · obtain rfl : chainType = .unspecifiedChain := not_not.mp supported
    simp [RuleVectors.ofType, supported]

/-- A disabled chain that drops by default, and nothing else. -/
def lockedAcl : AclConfig where
  aclV1 := some { chains := [{ chainType := .inbound, enabled := false, defaultAction := .drop }] }

/-- A disabled chain drops a packet that is allowed without it. -/
theorem disabled_chain_drops :
    ((new (fun _ => none) lockedAcl).processPacket ⟨0, 0⟩ [] webPacket .inbound).map
        (·.1.decision) = some (.drop, some .default) ∧
      ((new (fun _ => none) lockedAcl.withoutDisabled).processPacket ⟨0, 0⟩ []
        webPacket .inbound).map (·.1.decision) = some (.allow, some .default) := by
  decide +kernel

end DisabledChains

end EasyTier.Acl
