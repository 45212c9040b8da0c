import EasyTier.Acl.Fragments

/-! # Replacing rules under traffic

A reload clears the records of what was let out, replaces the processor and turns the filter on,
each in a step of its own. A packet is decided by the rules in force and recorded, or looked up,
later.
-/

namespace EasyTier.Acl

open Data Packet Semantics

/-- A reload that has cleared the records, by what it does next. -/
inductive Reload where
  | installing (acl : AclConfig)
  | switching (enabled : Bool)
  deriving DecidableEq

/-- A packet that was decided, and which rules decided it. -/
structure DecidedPacket where
  rules : Nat
  isIn : Bool
  chainType : ChainType
  info : PacketInfo
  action : Action
  deriving DecidableEq

namespace DecidedPacket

def letOut (packet : DecidedPacket) : Bool :=
  packet.action != .drop && packet.chainType == .outbound

/-- `process_packet_with_acl` behind the decision: whether the packet passes, and the records. -/
def finish (packet : DecidedPacket) (records : AList fun _ : OutboundAllowRecord => Nat)
    (now : Nat) :
    Bool × AList fun _ : OutboundAllowRecord => Nat :=
  if packet.action ≠ .drop then
    (true, if packet.chainType = .outbound then
      records.insert (.newFromOutboundPacket packet.info) now else records)
  else
    let record := OutboundAllowRecord.newFromInboundPacket packet.info
    if packet.isIn && (records.lookup record).isSome then (true, records.insert record now)
    else (false, records)

/-- Records are written of packets that are let out, and refreshed. -/
theorem allEntries_finish {packet : DecidedPacket}
    {records : AList fun _ : OutboundAllowRecord => Nat}
    {holds : OutboundAllowRecord → Prop}
    (entries : AllEntries (fun record _ => holds record) records)
    (recorded : packet.letOut = true → holds (.newFromOutboundPacket packet.info)) (now : Nat) :
    AllEntries (fun record _ => holds record) (packet.finish records now).2 := by
  unfold finish
  split
  · rename_i allowed
    split
    · rename_i outbound
      exact entries.insert (recorded (by simp [letOut, allowed, outbound]))
    · exact entries
  dsimp only
  split
  · rename_i found
    rw [Bool.and_eq_true] at found
    obtain ⟨since, stored⟩ := Option.isSome_iff_exists.mp found.2
    exact entries.insert (entries _ since stored)
  · exact entries

end DecidedPacket

/-- The filter with the reloads and packets that are on their way, how often the rules were
replaced, and all packets decided so far. -/
structure ReloadState where
  filter : AclFilter
  reloads : List Reload
  rules : Nat
  waiting : List DecidedPacket
  decided : List DecidedPacket

/-- The steps of reloads, of packets and of the cleanup. -/
inductive ReloadEvent where
  | reload (acl : Option AclConfig)
  | advance (index : Nat)
  | decide (context : FilterContext) (moment : Moment) (order : List AclCacheKey)
    (packet : ZCPacket)
  | finish (index now : Nat)
  | clean (now : Nat)

namespace ReloadState

variable (fromStr : Text → Option IpCidr) (state : ReloadState)

/-- The next step of `reload_rules`. -/
def advance (index : Nat) : Reload → ReloadState
  | .installing acl =>
    let current := state.filter.aclProcessor
    { state with
      filter := { state.filter with
        aclProcessor := .newWithSharedState fromStr acl current.connTrack current.rateLimiters }
      reloads := state.reloads.set index (.switching true)
      rules := state.rules + 1 }
  | .switching enabled =>
    { state with filter := { state.filter with aclEnabled := enabled }
                 reloads := state.reloads.eraseIdx index }

/-- `process_packet_with_acl` up to the decision. -/
def decide (context : FilterContext) (moment : Moment) (order : List AclCacheKey)
    (packet : ZCPacket) :
    Option ReloadState :=
  if !state.filter.aclEnabled || !packet.header.hasType .data then some state
  else
    match extractPacketInfo context.peerGroups packet with
    | none => some state
    | some info =>
      let chainType := AclFilter.classifyChainType context info
      (state.filter.aclProcessor.processPacket moment order info chainType).map
        fun (result, processor) =>
          let packet := ⟨state.rules, context.isIn, chainType, info, result.action⟩
          { state with
            filter := { state.filter with aclProcessor := processor }
            waiting := state.waiting ++ [packet]
            decided := state.decided ++ [packet] }

def step : ReloadEvent → Option ReloadState
  | .reload acl => some
    { state with filter := { state.filter with outboundAllowRecords := ∅ }
                 reloads := state.reloads ++ [acl.elim (.switching false) .installing] }
  | .advance index => state.reloads[index]?.map (state.advance fromStr index)
  | .decide context moment order packet => state.decide context moment order packet
  | .finish index now => state.waiting[index]?.map fun packet =>
    { state with
      filter := { state.filter with
        outboundAllowRecords := (packet.finish state.filter.outboundAllowRecords now).2 }
      waiting := state.waiting.eraseIdx index }
  | .clean now => some { state with
    filter.outboundAllowRecords :=
      retain (fun _ since => now - since < 30 * Foundation.nanosPerSecond)
        state.filter.outboundAllowRecords }

/-- Alone, the steps of a reload are `reload_rules`. -/
theorem run_reload (filter : AclFilter) (rules : Nat) (acl : AclConfig) :
    System.run? (step fromStr) ⟨filter, [], rules, [], []⟩
        [.reload (some acl), .advance 0, .advance 0] =
      some ⟨filter.reloadRules fromStr (some acl), [], rules + 1, [], []⟩ :=
  rfl

/-- What is recorded was let out by the rules in force, and no reload is about to replace them. -/
def Timely : ReloadEvent → Bool
  | .finish index _ => state.waiting[index]?.all fun packet => !packet.letOut ||
      packet.rules == state.rules && state.reloads.all fun reload => !(reload matches .installing _)
  | _ => true

/-- The answer to a packet that the rules in force have let out. -/
def Answers (record : OutboundAllowRecord) : Prop :=
  ∃ packet ∈ state.decided, packet.letOut = true ∧ packet.rules = state.rules ∧
    OutboundAllowRecord.newFromOutboundPacket packet.info = record

/-- Records answer packets of the rules in force, and there are none while these are replaced. -/
structure Current : Prop where
  known : ∀ packet ∈ state.waiting, packet ∈ state.decided
  answers : AllEntries
    (fun record _ => state.Answers record ∧ ∀ acl, .installing acl ∉ state.reloads)
    state.filter.outboundAllowRecords

variable {fromStr state}

theorem Current.advance (current : state.Current) {index : Nat} {reload : Reload}
    (found : state.reloads[index]? = some reload) :
    (state.advance fromStr index reload).Current := by
  refine ⟨by cases reload <;> exact current.known, fun record since stored => ?_⟩
  obtain ⟨answers, stable⟩ := current.answers record since (by cases reload <;> exact stored)
  cases reload with
  | installing acl => exact absurd (List.mem_of_getElem? found) (stable acl)
  | switching enabled =>
    exact ⟨answers, fun acl member => stable acl (List.mem_of_mem_eraseIdx member)⟩

theorem Current.decide (current : state.Current) {context : FilterContext} {moment : Moment}
    {order : List AclCacheKey} {packet : ZCPacket} {after : ReloadState}
    (decides : state.decide context moment order packet = some after) : after.Current := by
  unfold ReloadState.decide at decides
  split at decides
  · cases decides
    exact current
  split at decides
  · cases decides
    exact current
  obtain ⟨_, _, rfl⟩ := Option.map_eq_some_iff.mp decides
  refine ⟨fun packet member => ?_, fun record since stored => ?_⟩
  · rcases List.mem_append.mp member with old | new
    · exact List.mem_append_left _ (current.known packet old)
    · exact List.mem_append_right _ new
  · obtain ⟨⟨out, member, answers⟩, stable⟩ := current.answers record since stored
    exact ⟨⟨out, List.mem_append_left _ member, answers⟩, stable⟩

theorem Current.step (current : state.Current) {event : ReloadEvent} (timely : state.Timely event)
    {after : ReloadState} (stepped : state.step fromStr event = some after) : after.Current := by
  cases event with
  | reload acl =>
    cases stepped
    exact ⟨current.known, AllEntries.empty⟩
  | advance index =>
    obtain ⟨reload, found, rfl⟩ := Option.map_eq_some_iff.mp stepped
    exact current.advance found
  | decide context moment order packet => exact current.decide stepped
  | finish index now =>
    obtain ⟨packet, found, rfl⟩ := Option.map_eq_some_iff.mp stepped
    refine ⟨fun other member => current.known other (List.mem_of_mem_eraseIdx member),
      DecidedPacket.allEntries_finish current.answers (fun letOut => ?_) now⟩
    simp only [Timely, found, Option.all_some, letOut, Bool.not_true, Bool.false_or,
      Bool.and_eq_true, beq_iff_eq, List.all_eq_true] at timely
    refine ⟨⟨packet, current.known packet (List.mem_of_getElem? found), letOut, timely.1, rfl⟩,
      fun acl member => ?_⟩
    simpa using timely.2 _ member
  | clean now =>
    cases stepped
    exact ⟨current.known, current.answers.retain _⟩

end ReloadState

/-- A new filter. -/
def ReloadState.new (fromStr : Text → Option IpCidr) : ReloadState := ⟨.new fromStr, [], 0, [], []⟩

def reloadSystem (fromStr : Text → Option IpCidr) : System ReloadState ReloadEvent :=
  .ofStep (· = .new fromStr) (ReloadState.step fromStr)

/-- If records are written in time, a packet that was dropped by the rules and passes nevertheless
answers one that the rules in force have let out. -/
theorem exempt_packet_answers_current_rules {fromStr : Text → Option IpCidr} {state : ReloadState}
    (reached : (reloadSystem fromStr).ReachableUnder (·.Timely ·) state)
    {packet : DecidedPacket} (dropped : packet.action = .drop) {now : Nat}
    (passes : (packet.finish state.filter.outboundAllowRecords now).1 = true) :
    state.Answers (.newFromInboundPacket packet.info) := by
  have current : state.Current := by
    refine System.ReachableUnder.invariant ?_ ?_ reached
    · rintro start rfl
      exact ⟨nofun, AllEntries.empty⟩
    · exact fun _ _ _ current timely stepped => current.step timely stepped
  unfold DecidedPacket.finish at passes
  rw [if_neg (not_not.mpr dropped)] at passes
  dsimp only at passes
  split at passes
  · rename_i found
    rw [Bool.and_eq_true] at found
    obtain ⟨since, stored⟩ := Option.isSome_iff_exists.mp found.2
    exact (current.answers _ since stored).1
  · cases passes

/-- Packets of these chains are dropped, others pass. -/
def droppingAcl (chainTypes : List ChainType) : AclConfig where
  aclV1 := some { chains := chainTypes.map ({ chainType := ·, defaultAction := .drop }) }

/-- An echo request of the node, or the answer. -/
def echo (isIn : Bool) : ReloadEvent :=
  .decide { inboundContext with isIn := isIn } ⟨0, 0⟩ [] ⟨dataHeader,
    [0x45, 0, 0, 20, 0, 0, 0, 0, 64, 1, 0, 0] ++
      if isIn then addresses else addresses.drop 4 ++ addresses.take 4⟩

/-- Rules that let requests out are installed, and a request is decided. -/
def requestEvents : List ReloadEvent :=
  [.reload (some (droppingAcl [.inbound])), .advance 0, .advance 0, echo false]

theorem echo_answer_exempt :
    ∃ state, (reloadSystem fun _ => none).ReachableUnder (·.Timely ·) state ∧
      ∃ packet ∈ state.waiting, packet.action = .drop ∧
        state.Answers (.newFromInboundPacket packet.info) := by
  refine System.exists_reachableUnder (.new _) (requestEvents ++ [.finish 0 0, echo true])
    (fun state => ∃ packet ∈ state.waiting, packet.action = .drop ∧
      (packet.finish state.filter.outboundAllowRecords 0).1 = true)
    rfl (by decide +kernel) fun state reached seen => ?_
  obtain ⟨packet, waits, dropped, passes⟩ := seen
  exact ⟨packet, waits, dropped, exempt_packet_answers_current_rules reached dropped passes⟩

/-- The request is recorded when rules are in force that drop it. They drop the answer as well,
which passes. -/
theorem late_record_exempts :
    ∃ state, (reloadSystem fun _ => none).Reachable state ∧ state.reloads = [] ∧
      (∃ packet ∈ state.waiting, packet.action = .drop ∧ packet.rules = state.rules ∧
        (packet.finish state.filter.outboundAllowRecords 0).1 = true) ∧
      ∀ other ∈ state.decided, other.letOut = true → other.rules ≠ state.rules :=
  System.exists_reachable (.new _) (requestEvents ++
      [.reload (some (droppingAcl [.inbound, .outbound])), .advance 0, .advance 0, .finish 0 0,
        echo true])
    _ rfl (by decide +kernel) fun _ _ _ seen => seen

end EasyTier.Acl
