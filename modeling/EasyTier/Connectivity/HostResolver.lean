import EasyTier.Acl.Rules

/-! # Hosts of STUN servers

The configured hosts are resolved one after the other. A host may stand for a TXT record that names
further hosts, which are resolved in its place.
-/

namespace EasyTier.Connectivity

open Acl

abbrev SocketAddr := IpAddr × Nat

/-- How addresses are read, and the records of the name service; a lookup may fail. -/
structure Names where
  parseSocketAddr : Text → Option SocketAddr
  parseIp : Text → Option IpAddr
  parsePort : Text → Option Nat
  resolve : Text → Option (List IpAddr)
  resolveTxt : Text → Option Text

def isIpv6 (addr : IpAddr) : Bool := addr matches .v6 _

def splitWhitespace (text : Text) : List Text := (text.splitOnP isWhitespace).filter (· ≠ [])

/-- The name behind `txt:`. -/
def domainName? (endpoint : Text) : Option Text := "txt:".toList.isPrefixOf? endpoint

/-- The text before and behind the last `:`. -/
def rsplitOnce (text : Text) : Option (Text × Text) :=
  match text.reverse.span (· ≠ ':') with
  | (behind, _ :: before) => some (before.reverse, behind.reverse)
  | (_, []) => none

namespace Names

variable (names : Names)

/-- `get_txt_record`; of a failed lookup nothing is spliced in. -/
def getTxtRecord (domainName : Text) : List Text :=
  (names.resolveTxt domainName).elim [] splitWhitespace

def explicitSocketAddr (endpoint : Text) : Option SocketAddr :=
  names.parseSocketAddr endpoint <|> (names.parseIp endpoint).map (·, 3478)

def hostAndPort (endpoint : Text) : Option (Text × Nat) :=
  match rsplitOnce endpoint with
  | some (host, port) =>
    if host ≠ [] then (names.parsePort port).map (host, ·) else some (endpoint, 3478)
  | none => some (endpoint, 3478)

end Names

/-- The resolver, with the random choices it has yet to make. -/
structure HostResolverIter where
  hostnames : List Text
  ips : List SocketAddr
  maxIpPerDomain : Nat
  useIpv6 : Bool
  shuffles : Nat → List SocketAddr → List SocketAddr

namespace HostResolverIter

variable (names : Names) (iter : HostResolverIter)

/-- One pass of the loop in `next`, and what `next` returns if it does. -/
def pass : Option (Option SocketAddr) × HostResolverIter :=
  match iter.ips.getLast?, iter.hostnames with
  | some addr, _ => (some (some addr), { iter with ips := iter.ips.dropLast })
  | none, [] => (some none, iter)
  | none, endpoint :: rest =>
    let iter := { iter with hostnames := rest }
    match domainName? endpoint with
    | some domainName => (none, { iter with hostnames := names.getTxtRecord domainName ++ rest })
    | none =>
      match names.explicitSocketAddr endpoint with
      | some addr => (if isIpv6 addr.1 == iter.useIpv6 then some (some addr) else none, iter)
      | none =>
        match (names.hostAndPort endpoint).bind fun host =>
          (names.resolve host.1).map (·, host.2) with
        | none => (none, iter)
        | some (ips, port) =>
          let addrs := (ips.filter fun ip => isIpv6 ip == iter.useIpv6).map (·, port)
          (none, { iter with
            ips := (iter.shuffles 0 addrs).take iter.maxIpPerDomain
            shuffles := fun later => iter.shuffles (later + 1) })

/-- What calls of `next` return before they return `None`, if so many passes get there. -/
def drain : Nat → HostResolverIter → Option (List SocketAddr)
  | 0, _ => none
  | fuel + 1, iter =>
    match iter.pass names with
    | (some none, _) => some []
    | (some (some addr), after) => (drain fuel after).map (addr :: ·)
    | (none, after) => drain fuel after

end HostResolverIter

/-- Following the TXT records from a host comes to an end. -/
inductive Names.Resolvable (names : Names) : Text → Prop
  | host {endpoint : Text} (plain : domainName? endpoint = none) : names.Resolvable endpoint
  | txt {endpoint domainName : Text} (named : domainName? endpoint = some domainName)
      (further : ∀ host ∈ names.getTxtRecord domainName, names.Resolvable host) :
      names.Resolvable endpoint

namespace HostResolverIter

variable {names : Names} {hostnames : List Text}

/-- A pass finds that nothing is left, hands out an address, or takes a host off the list. -/
theorem pass_cases (names : Names) (iter : HostResolverIter) :
    ((iter.pass names).1 = some none ∧ iter.hostnames = []) ∨ ((iter.pass names).1 ≠ some none ∧
      (((iter.pass names).2.hostnames = iter.hostnames ∧
        (iter.pass names).2.ips.length < iter.ips.length) ∨
      ∃ endpoint rest, iter.hostnames = endpoint :: rest ∧
        (iter.pass names).2.hostnames =
          (domainName? endpoint).elim [] names.getTxtRecord ++ rest)) := by
  unfold pass
  split
  · rename_i addr found
    have some : iter.ips ≠ [] := by
      rintro none
      simp [none] at found
    refine .inr ⟨by simp, .inl ⟨rfl, ?_⟩⟩
    have positive := List.length_pos_iff.mpr some
    rw [List.length_dropLast]
    omega
  · exact .inl ⟨rfl, ‹_›⟩
  · rename_i endpoint rest _ listed
    dsimp only
    split
    · exact .inr ⟨by simp, .inr ⟨endpoint, rest, listed, by simp [*]⟩⟩
    · split
      · exact .inr ⟨by split <;> simp, .inr ⟨endpoint, rest, listed, by simp [*]⟩⟩
      · split <;> exact .inr ⟨by simp, .inr ⟨endpoint, rest, listed, by simp [*]⟩⟩

theorem isSome_drain_succ (names : Names) (iter : HostResolverIter) (fuel : Nat) :
    (iter.drain names (fuel + 1)).isSome = true ↔
      (iter.pass names).1 = some none ∨ ((iter.pass names).2.drain names fuel).isSome = true := by
  rw [drain]
  split
  · simp [*]
  · simp [*]
  · simp [*]

theorem resolvable_of_drain {fuel : Nat} {iter : HostResolverIter}
    (drained : (iter.drain names fuel).isSome = true) :
    ∀ host ∈ iter.hostnames, names.Resolvable host := by
  induction fuel generalizing iter with
  | zero => cases drained
  | succ fuel ih =>
    rw [isSome_drain_succ] at drained
    rcases pass_cases names iter with ⟨_, empty⟩ | ⟨goesOn, same | ⟨endpoint, rest, listed, later⟩⟩
    · simp [empty]
    · exact same.1 ▸ ih (drained.resolve_left goesOn)
    · have resolved := ih (drained.resolve_left goesOn)
      rw [later] at resolved
      rw [listed]
      refine List.forall_mem_cons.mpr ⟨?_, fun host member =>
        resolved host (List.mem_append_right _ member)⟩
      cases named : domainName? endpoint with
      | none => exact .host named
      | some domainName =>
        rw [named] at resolved
        exact .txt named fun host member => resolved host (List.mem_append_left _ member)

/-- With these hosts the end is reached, whatever addresses are left to hand out. -/
def Drains (names : Names) (hostnames : List Text) : Prop :=
  ∀ iter : HostResolverIter, iter.hostnames = hostnames →
    ∃ fuel, (iter.drain names fuel).isSome = true

theorem drains_of_later (later : ∀ endpoint rest, hostnames = endpoint :: rest →
    Drains names ((domainName? endpoint).elim [] names.getTxtRecord ++ rest)) :
    Drains names hostnames := by
  intro iter listed
  induction length : iter.ips.length using Nat.strong_induction_on generalizing iter with
  | _ length ih =>
    rcases pass_cases names iter with ⟨ends, _⟩ | ⟨_, same | ⟨endpoint, rest, taken, isLater⟩⟩
    · exact ⟨1, (isSome_drain_succ names iter 0).mpr (.inl ends)⟩
    · obtain ⟨fuel, drained⟩ := ih _ (length ▸ same.2) _ (same.1.trans listed) rfl
      exact ⟨fuel + 1, (isSome_drain_succ names iter fuel).mpr (.inr drained)⟩
    · obtain ⟨fuel, drained⟩ := later endpoint rest (listed.symm.trans taken) _ isLater
      exact ⟨fuel + 1, (isSome_drain_succ names iter fuel).mpr (.inr drained)⟩

theorem drains_append {hosts rest : List Text} (later : Drains names rest)
    (each : ∀ host ∈ hosts, ∀ rest, Drains names rest → Drains names (host :: rest)) :
    Drains names (hosts ++ rest) := by
  induction hosts with
  | nil => exact later
  | cons host hosts ih =>
    rw [List.forall_mem_cons] at each
    exact each.1 _ (ih each.2)

theorem drains_cons {endpoint : Text} (resolvable : names.Resolvable endpoint) :
    ∀ rest, Drains names rest → Drains names (endpoint :: rest) := by
  induction resolvable with
  | host plain =>
    intro rest later
    refine drains_of_later fun _ _ same => ?_
    cases same
    rwa [plain]
  | txt named _ ih =>
    intro rest later
    refine drains_of_later fun _ _ same => ?_
    cases same
    rw [named]
    exact drains_append later ih

/-- Calls of `next` come to an end exactly if the TXT records do. -/
theorem drains_iff_resolvable (names : Names) (hostnames : List Text) (maxIpPerDomain : Nat)
    (useIpv6 : Bool) (shuffles : Nat → List SocketAddr → List SocketAddr) :
    (∃ fuel addrs,
        drain names fuel ⟨hostnames, [], maxIpPerDomain, useIpv6, shuffles⟩ = some addrs) ↔
      ∀ host ∈ hostnames, names.Resolvable host := by
  simp only [← Option.isSome_iff_exists]
  constructor
  · rintro ⟨fuel, drained⟩
    exact resolvable_of_drain drained
  · intro resolvable
    have none : Drains names [] := drains_of_later nofun
    have drains := drains_append none fun host member => drains_cons (resolvable host member)
    exact drains _ (List.append_nil _).symm

/-- A TXT record that names itself. -/
theorem circular_record_never_drained :
    ∃ names : Names, ∀ fuel,
      drain names fuel ⟨["txt:a".toList], [], 1, false, fun _ => id⟩ = none := by
  refine ⟨⟨fun _ => none, fun _ => none, fun _ => none, fun _ => none,
    fun _ => some "txt:a".toList⟩, fun fuel => ?_⟩
  induction fuel with
  | zero => rfl
  | succ fuel ih => exact ih

end HostResolverIter

end EasyTier.Connectivity
