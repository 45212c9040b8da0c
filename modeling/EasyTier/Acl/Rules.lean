import Mathlib.Algebra.Ring.Nat
import Mathlib.Data.List.DropRight
import Mathlib.Data.List.Sort

/-! # Access control rules

A configuration is a list of chains of rules. It is compiled once: the criteria of each rule are
parsed, each enabled chain is sorted by priority, and the chains of one type are put one after the
other. Texts are lists of characters; addresses and ports are numbers.
-/

namespace EasyTier.Acl

abbrev Text := List Char

inductive Protocol where
  | unspecified | tcp | udp | icmp | icmpv6 | any
  deriving DecidableEq, Repr

inductive Action where
  | noop | allow | drop
  deriving DecidableEq, Repr

inductive ChainType where
  | unspecifiedChain | inbound | outbound | forward
  deriving DecidableEq, Repr

/-- The chain types a processor has rules for. -/
def ChainType.Supported (chainType : ChainType) : Prop := chainType ≠ .unspecifiedChain

instance (chainType : ChainType) : Decidable chainType.Supported :=
  inferInstanceAs (Decidable (chainType ≠ .unspecifiedChain))

inductive IpAddr where
  | v4 (address : BitVec 32)
  | v6 (address : BitVec 128)
  deriving DecidableEq, Repr

/-- A network: an address and how many of its leading bits count. -/
inductive IpCidr where
  | v4 (address : BitVec 32) (length : Fin 33)
  | v6 (address : BitVec 128) (length : Fin 129)
  deriving DecidableEq, Repr

/-- A network contains the addresses of its family that share its leading bits. -/
def IpCidr.contains : IpCidr → IpAddr → Bool
  | .v4 network length, .v4 address =>
    network >>> (32 - length.val) == address >>> (32 - length.val)
  | .v6 network length, .v6 address =>
    network >>> (128 - length.val) == address >>> (128 - length.val)
  | _, _ => false

/-! ## Configuration -/

structure Rule where
  priority : Nat
  enabled : Bool := true
  protocol : Protocol := .any
  ports : List Text := []
  sourceIps : List Text := []
  destinationIps : List Text := []
  sourcePorts : List Text := []
  action : Action
  rateLimit : Nat := 0
  burstLimit : Nat := 0
  stateful : Bool := false
  sourceGroups : List Text := []
  destinationGroups : List Text := []
  deriving DecidableEq, Repr

structure Chain where
  chainType : ChainType
  enabled : Bool := true
  rules : List Rule := []
  defaultAction : Action
  deriving DecidableEq, Repr

structure AclV1 where
  chains : List Chain
  deriving DecidableEq, Repr

/-- The configuration message `Acl`. -/
structure AclConfig where
  aclV1 : Option AclV1
  deriving DecidableEq, Repr

/-- The chains of a configuration, none when there is no first-version part. -/
def AclConfig.chains (acl : AclConfig) : List Chain := (acl.aclV1.map (·.chains)).getD []

/-! ## Parsing of port ranges -/

/-- The characters `str::trim` removes: Unicode white space. -/
def isWhitespace (c : Char) : Bool :=
  let code := c.toNat
  (9 ≤ code && code ≤ 13) || code == 0x20 || code == 0x85 || code == 0xa0 || code == 0x1680 ||
    (0x2000 ≤ code && code ≤ 0x200a) || code == 0x2028 || code == 0x2029 || code == 0x202f ||
    code == 0x205f || code == 0x3000

/-- `str::trim`. -/
def trim (text : Text) : Text :=
  ((text.dropWhile isWhitespace).reverse.dropWhile isWhitespace).reverse

/-- Trimmed text has nothing left to trim. -/
theorem trim_trim (text : Text) : trim (trim text) = trim text := by
  have start : (trim text).dropWhile isWhitespace = trim text := by
    rw [List.dropWhile_eq_self_iff]
    intro nonempty
    have kept := List.rdropWhile_prefix isWhitespace (l := text.dropWhile isWhitespace)
    have first := kept.getElem nonempty
    have longer : 0 < (text.dropWhile isWhitespace).length := nonempty.trans_le kept.length_le
    change ¬ isWhitespace ((List.rdropWhile isWhitespace (text.dropWhile isWhitespace))[0]) = true
    rw [first]
    exact List.dropWhile_get_zero_not isWhitespace text longer
  conv_lhs => rw [trim, start]
  exact List.rdropWhile_idempotent isWhitespace (text.dropWhile isWhitespace)

/-- `str::split_once`: the parts around the first separator. -/
def splitOnce (separator : Char) : Text → Option (Text × Text)
  | [] => none
  | c :: rest =>
    if c = separator then some ([], rest)
    else (splitOnce separator rest).map fun parts => (c :: parts.1, parts.2)

/-- The value of a decimal digit. -/
def toDigit (c : Char) : Option Nat :=
  if 48 ≤ c.toNat ∧ c.toNat ≤ 57 then some (c.toNat - 48) else none

/-- Decimal digits read after a value, which has to stay within 16 bits. -/
def parseDigits : Nat → Text → Option Nat
  | value, [] => some value
  | value, c :: rest =>
    match toDigit c with
    | some digit =>
      if value * 10 + digit < 65536 then parseDigits (value * 10 + digit) rest else none
    | none => none

/-- `str::parse::<u16>`: at least one digit, after an optional plus sign. -/
def parseU16 : Text → Option Nat
  | [] => none
  | c :: rest =>
    if c = '+' then if rest = [] then none else parseDigits 0 rest
    else parseDigits 0 (c :: rest)

/-- `parse_port_range`: a range `start-end`, or a single port. -/
def parsePortRange (text : Text) : Option (Nat × Nat) :=
  match splitOnce '-' text with
  | some (first, last) =>
    match parseU16 (trim first), parseU16 (trim last) with
    | some first, some last => some (first, last)
    | _, _ => none
  | none => (parseU16 (trim text)).map fun port => (port, port)

/-! ## Compiled rules -/

structure FastLookupRule where
  priority : Nat
  protocol : Protocol
  srcIpRanges : List IpCidr
  dstIpRanges : List IpCidr
  srcPortRanges : List (Nat × Nat)
  dstPortRanges : List (Nat × Nat)
  sourceGroups : List Text
  destinationGroups : List Text
  action : Action
  enabled : Bool
  stateful : Bool
  rateLimit : Nat
  burstLimit : Nat
  deriving DecidableEq, Repr

/-- What a packet shows of itself to the rules. -/
structure PacketInfo where
  srcIp : IpAddr
  dstIp : IpAddr
  srcPort : Option Nat
  dstPort : Option Nat
  protocol : Protocol
  packetSize : Nat
  srcGroups : List Text
  dstGroups : List Text
  deriving DecidableEq, Repr

/-- An address check: no range at all admits every address. -/
def ipMatches (ranges : List IpCidr) (ip : IpAddr) : Bool :=
  ranges.isEmpty || ranges.any (·.contains ip)

/-- A port check: it is made only for packets that have a port. -/
def portMatches (ranges : List (Nat × Nat)) : Option Nat → Bool
  | some port =>
    ranges.isEmpty || ranges.any fun range => decide (range.1 ≤ port) && decide (port ≤ range.2)
  | none => true

/-- A group check: one of the packet's groups has to be listed. -/
def groupMatches (listed present : List Text) : Bool :=
  listed.isEmpty || present.any (listed.contains ·)

/-- `rule_matches`. -/
def ruleMatches (rule : FastLookupRule) (packet : PacketInfo) : Bool :=
  (rule.protocol == .any || rule.protocol == packet.protocol) &&
    ipMatches rule.srcIpRanges packet.srcIp && ipMatches rule.dstIpRanges packet.dstIp &&
    portMatches rule.srcPortRanges packet.srcPort &&
      portMatches rule.dstPortRanges packet.dstPort &&
    groupMatches rule.sourceGroups packet.srcGroups &&
    groupMatches rule.destinationGroups packet.dstGroups

section Compile

-- The parser of networks, `IpCidr::from_str`, which belongs to a library.
variable (fromStr : Text → Option IpCidr)

/-- `convert_to_fast_lookup_rule`: criteria that do not parse are dropped. -/
def convertToFastLookupRule (rule : Rule) : FastLookupRule where
  priority := rule.priority
  protocol := rule.protocol
  srcIpRanges := rule.sourceIps.filterMap fromStr
  dstIpRanges := rule.destinationIps.filterMap fromStr
  srcPortRanges := rule.sourcePorts.filterMap parsePortRange
  dstPortRanges := rule.ports.filterMap parsePortRange
  sourceGroups := rule.sourceGroups
  destinationGroups := rule.destinationGroups
  action := rule.action
  enabled := rule.enabled
  stateful := rule.stateful
  rateLimit := rule.rateLimit
  burstLimit := rule.burstLimit

/-- The rules of one chain as they are tried: the enabled ones, highest priority first, and rules of
one priority in their listed order. -/
def Chain.sortedRules (chain : Chain) : List FastLookupRule :=
  ((chain.rules.filter (·.enabled)).map (convertToFastLookupRule fromStr)).insertionSort
    fun left right => right.priority ≤ left.priority

/-- The three rule vectors of a processor. -/
structure RuleVectors where
  inbound : List FastLookupRule := []
  outbound : List FastLookupRule := []
  forward : List FastLookupRule := []
  deriving DecidableEq, Repr

/-- Chains of one type are put one after the other. -/
def RuleVectors.addChain (vectors : RuleVectors) (chain : Chain) : RuleVectors :=
  if chain.enabled then
    match chain.chainType with
    | .inbound => { vectors with inbound := vectors.inbound ++ chain.sortedRules fromStr }
    | .outbound => { vectors with outbound := vectors.outbound ++ chain.sortedRules fromStr }
    | .forward => { vectors with forward := vectors.forward ++ chain.sortedRules fromStr }
    | .unspecifiedChain => vectors
  else vectors

/-- `build_rules`. -/
def buildRules (acl : AclConfig) : RuleVectors := acl.chains.foldl (RuleVectors.addChain fromStr) {}

/-- The rules tried for one chain type, if the type is supported. -/
def RuleVectors.ofType (vectors : RuleVectors) : ChainType → Option (List FastLookupRule)
  | .inbound => some vectors.inbound
  | .outbound => some vectors.outbound
  | .forward => some vectors.forward
  | .unspecifiedChain => none

/-- The chains that contribute rules to a type. -/
def AclConfig.enabledChains (acl : AclConfig) (chainType : ChainType) : List Chain :=
  acl.chains.filter fun chain => chain.enabled && chain.chainType == chainType

variable (vectors : RuleVectors)

/-- An enabled chain adds its rules at the end of those of its type. -/
theorem RuleVectors.ofType_addChain (chain : Chain) (chainType : ChainType) :
    (vectors.addChain fromStr chain).ofType chainType = (vectors.ofType chainType).map
      (· ++ if chain.enabled && chain.chainType == chainType then chain.sortedRules fromStr
        else []) := by
  unfold addChain
  cases chain.enabled with
  | false => simp
  | true => cases chain.chainType <;> cases chainType <;> simp [ofType]

/-- The chains add their rules one after the other. -/
theorem RuleVectors.ofType_foldl (chains : List Chain) (chainType : ChainType) :
    (chains.foldl (addChain fromStr) vectors).ofType chainType = (vectors.ofType chainType).map
      (· ++ (chains.filter fun chain => chain.enabled && chain.chainType == chainType).flatMap
        (Chain.sortedRules fromStr)) := by
  induction chains generalizing vectors with
  | nil => simp
  | cons chain chains ih =>
    rw [List.foldl_cons, ih, ofType_addChain, Option.map_map]
    congr 1
    funext rules
    cases contributes : chain.enabled && chain.chainType == chainType <;> simp [contributes]

/-- The rules of a type are those of its enabled chains, chain after chain. -/
theorem buildRules_ofType (acl : AclConfig) {chainType : ChainType}
    (supported : chainType.Supported) :
    (buildRules fromStr acl).ofType chainType =
      some ((acl.enabledChains chainType).flatMap (Chain.sortedRules fromStr)) := by
  rw [buildRules, RuleVectors.ofType_foldl]
  cases chainType with
  | unspecifiedChain => exact absurd rfl supported
  | inbound | outbound | forward => rfl

end Compile

/-- The default action of one type: that of the first chain of the type, whether it is enabled or
not. -/
def defaultActionOf (acl : AclConfig) (chainType : ChainType) : Action :=
  ((acl.chains.find? (·.chainType == chainType)).map (·.defaultAction)).getD .allow

/-- `build_default_actions`, for inbound, outbound and forwarded packets. -/
def buildDefaultActions (acl : AclConfig) : Action × Action × Action :=
  (defaultActionOf acl .inbound, defaultActionOf acl .outbound, defaultActionOf acl .forward)

end EasyTier.Acl
