import EasyTier.Gateway.FragmentRoundTrip
import EasyTier.Semantics.System

/-! # Reassembling whatever arrives

The sums of the reassembler have sixteen bits. None of them overflows as long as no fragment that
is measured or compared ends behind these numbers; what is returned is then what the fragments
carried.
-/

namespace EasyTier.Gateway

open Data Packet Semantics IpReassembler

namespace IpFragment

/-- The sum of offset and length does not overflow. -/
def Ends (fragment : IpFragment) : Prop := fragment.offset + fragment.data.length < 2 ^ 16

instance (fragment : IpFragment) : Decidable fragment.Ends := inferInstanceAs (Decidable (_ < _))

/-- The fragment has the byte for the place. -/
def Carries (fragment : IpFragment) (place : Nat) (byte : BitVec 8) : Prop :=
  fragment.offset ≤ place ∧ fragment.data[place - fragment.offset]? = some byte

end IpFragment

open IpFragment

namespace IpPacket

/-- No sum of the loop over the stored fragments overflows; the loop ends at an overlap. -/
def ComparesSafely (fragment : IpFragment) : List IpFragment → Prop
  | [] => True
  | existing :: others => existing.Ends ∧ fragment.Ends ∧
      (existing.overlaps fragment = false → ComparesSafely fragment others)

/-- No sum of the loop of `assemble` overflows; the loop ends at a gap. -/
def JoinsSafely : Nat → List IpFragment → Prop
  | _, [] => True
  | offset, fragment :: others => fragment.offset = offset →
      offset + fragment.data.length < 2 ^ 16 ∧ JoinsSafely (offset + fragment.data.length) others

/-- No sum overflows while the fragment is taken. -/
def TakesSafely (known : IpPacket) (packet : Ipv4Packet) : Prop :=
  (isLastFragment packet = true → (ofPacket packet).Ends) ∧
    ComparesSafely (.ofPacket packet) known.fragments ∧
    ((known.take packet).totalLength.isSome = true →
      JoinsSafely 0 (sorted (known.take packet).fragments))

/-- Where the fragment is measured or compared, it and the stored ones end in time. -/
def Admits (known : IpPacket) (packet : Ipv4Packet) : Prop :=
  isLastFragment packet = true ∨ known.fragments ≠ [] ∨ known.totalLength.isSome = true →
    ∀ fragment ∈ ofPacket packet :: known.fragments, fragment.Ends

instance (known : IpPacket) (packet : Ipv4Packet) : Decidable (known.Admits packet) :=
  inferInstanceAs (Decidable (_ → _))

variable {known : IpPacket} {packet : Ipv4Packet} {fragment : IpFragment}
  {fragments : List IpFragment}

theorem mem_take (member : fragment ∈ (known.take packet).fragments) :
    fragment ∈ ofPacket packet :: known.fragments := by
  dsimp only [take] at member
  split at member
  · exact List.mem_cons_of_mem _ member
  · simpa [or_comm] using member

theorem Admits.take (admits : known.Admits packet)
    (measured : (known.take packet).totalLength.isSome = true) :
    ∀ fragment ∈ (known.take packet).fragments, fragment.Ends := by
  intro fragment member
  refine admits ?_ fragment (mem_take member)
  dsimp only [IpPacket.take] at measured
  split at measured
  · exact .inl ‹_›
  · exact .inr (.inr measured)

theorem comparesSafely_of_ends (ends : ∀ other ∈ fragment :: fragments, other.Ends) :
    ComparesSafely fragment fragments := by
  induction fragments with
  | nil => trivial
  | cons existing others ih =>
    refine ⟨ends existing (by simp), ends fragment (by simp), fun _ => ih fun other member => ?_⟩
    exact ends other (by grind)

theorem joinsSafely_of_ends {offset : Nat} (ends : ∀ other ∈ fragments, other.Ends) :
    JoinsSafely offset fragments := by
  induction fragments generalizing offset with
  | nil => trivial
  | cons fragment others ih =>
    rintro rfl
    exact ⟨ends fragment List.mem_cons_self,
      ih fun other member => ends other (List.mem_cons_of_mem _ member)⟩

theorem Admits.takesSafely (admits : known.Admits packet) : known.TakesSafely packet := by
  refine ⟨fun last => admits (.inl last) _ List.mem_cons_self, ?_, fun measured => ?_⟩
  · cases stored : known.fragments with
    | nil => trivial
    | cons existing others =>
      rw [← stored]
      exact comparesSafely_of_ends (admits (.inr (.inl (by simp [stored]))))
  · exact joinsSafely_of_ends fun fragment member =>
      admits.take measured fragment ((sorted_perm _).mem_iff.mp member)

theorem join_carried {offset stop : Nat} {joined data : Bytes}
    (ends : ∀ fragment ∈ fragments, fragment.Ends) (start : joined.length = offset)
    (joins : join offset joined fragments = some (stop, data)) :
    data.length = stop ∧ ∀ place byte, data[place]? = some byte →
      joined[place]? = some byte ∨ ∃ fragment ∈ fragments, fragment.Carries place byte := by
  induction fragments generalizing offset joined with
  | nil =>
    cases joins
    exact ⟨start, fun place byte => .inl⟩
  | cons fragment others ih =>
    unfold join at joins
    split at joins
    · cases joins
    rename_i here
    have inTime : fragment.offset + fragment.data.length < 2 ^ 16 :=
      ends fragment List.mem_cons_self
    obtain ⟨length, carried⟩ := ih (fun other later => ends other (List.mem_cons_of_mem _ later))
      (by rw [List.length_append, start, ← not_not.mp here, Nat.mod_eq_of_lt inTime]) joins
    refine ⟨length, fun place byte found => ?_⟩
    rcases carried place byte found with before | ⟨other, later, carries⟩
    · rw [List.getElem?_append] at before
      split at before
      · exact .inl before
      · refine .inr ⟨fragment, List.mem_cons_self, ?_, ?_⟩ <;> grind
    · exact .inr ⟨other, List.mem_cons_of_mem _ later, carries⟩

/-- What is assembled has the known length, and every byte from a fragment at its place. -/
theorem assemble_carried {data : Bytes} {kept : IpPacket}
    (done : known.assemble = (some data, kept))
    (ends : known.totalLength.isSome = true → ∀ fragment ∈ known.fragments, fragment.Ends) :
    known.totalLength = some data.length ∧ ∀ place byte, data[place]? = some byte →
      ∃ fragment ∈ known.fragments, fragment.Carries place byte := by
  have same := sorted_perm known.fragments
  unfold assemble at done
  split at done
  · cases done
  rename_i total measured
  obtain ⟨⟨stop, joined⟩, joins, ended⟩ := Option.bind_eq_some_iff.mp (Prod.mk.inj done).1
  obtain ⟨rfl, ⟨⟩⟩ := Option.ite_none_right_eq_some.mp ended
  obtain ⟨length, carried⟩ := join_carried
    (fun fragment member => ends (by simp [measured]) fragment (same.mem_iff.mp member))
    List.length_nil joins
  refine ⟨by rw [measured, length], fun place byte found => ?_⟩
  rcases carried place byte found with nothing | ⟨fragment, member, carries⟩
  · cases nothing
  exact ⟨fragment, same.mem_iff.mp member, carries⟩

end IpPacket

/-! ## Runs -/

/-- The reassembler and the packets it was given. -/
structure ReassemblerState where
  reassembler : IpReassembler
  received : List Ipv4Packet

namespace ReassemblerState

def known (state : ReassemblerState) (packet : Ipv4Packet) : IpPacket :=
  state.reassembler.gathered packet.key

def addFragment (state : ReassemblerState) (packet : Ipv4Packet) (now : Nat) : ReassemblerState :=
  ⟨(state.reassembler.addFragment packet now).2, packet :: state.received⟩

/-- The packet was received under the key as a last fragment that ends there. -/
def ToldLength (received : List Ipv4Packet) (key : IpReassemblerKey) (total : Nat) : Prop :=
  ∃ packet ∈ received, packet.key = key ∧ isLastFragment packet = true ∧
    total = (ofPacket packet).offset + (ofPacket packet).data.length

/-- What is known under a key was received under it. -/
structure Traced (received : List Ipv4Packet) (key : IpReassemblerKey) (known : IpPacket) :
    Prop where
  fragments : ∀ fragment ∈ known.fragments, ∃ packet ∈ received, packet.key = key ∧
    ofPacket packet = fragment
  length : ∀ total, known.totalLength = some total → ToldLength received key total

theorem Traced.new (received : List Ipv4Packet) (key : IpReassemblerKey) :
    Traced received key .new := by
  constructor <;> simp [IpPacket.new]

variable {received : List Ipv4Packet} {known : IpPacket}

theorem Traced.later {key : IpReassemblerKey}
    (traced : Traced received key known) (packet : Ipv4Packet) :
    Traced (packet :: received) key known where
  fragments fragment stored := by
    obtain ⟨other, member, rest⟩ := traced.fragments fragment stored
    exact ⟨other, List.mem_cons_of_mem _ member, rest⟩
  length total measured := by
    obtain ⟨other, member, rest⟩ := traced.length total measured
    exact ⟨other, List.mem_cons_of_mem _ member, rest⟩

theorem Traced.take {packet : Ipv4Packet}
    (traced : Traced received packet.key known) (admits : known.Admits packet) :
    Traced (packet :: received) packet.key (known.take packet) where
  fragments fragment member := by
    rcases List.mem_cons.mp (IpPacket.mem_take member) with rfl | older
    · exact ⟨packet, List.mem_cons_self, rfl, rfl⟩
    · exact (traced.later packet).fragments fragment older
  length total measured := by
    dsimp only [IpPacket.take] at measured
    split at measured
    · rename_i last
      refine ⟨packet, List.mem_cons_self, rfl, last, ?_⟩
      rw [← Option.some.inj measured, Nat.add_comm]
      exact Nat.mod_eq_of_lt (admits (.inl last) _ List.mem_cons_self)
    · exact (traced.later packet).length total measured

/-- Assembling only sorts the fragments. -/
theorem Traced.assemble {key : IpReassemblerKey}
    (traced : Traced received key known) : Traced received key known.assemble.2 := by
  unfold IpPacket.assemble
  split
  · exact traced
  · exact ⟨fun fragment member => traced.fragments fragment ((sorted_perm _).mem_iff.mp member),
      traced.length⟩

end ReassemblerState

/-- Fragments of any packets arrive in any order. -/
def reassemblySystem (timeout : Nat) : System ReassemblerState (Ipv4Packet × Nat) :=
  .ofStep (· = ⟨.new timeout, []⟩) fun state arrival => some (state.addFragment arrival.1 arrival.2)

theorem ReassemblerState.traced_addFragment {state : ReassemblerState} {packet : Ipv4Packet}
    (traced : ∀ key, Traced state.received key (state.reassembler.gathered key))
    (admits : (state.known packet).Admits packet) (now : Nat) (key : IpReassemblerKey) :
    Traced (state.addFragment packet now).received key
      ((state.addFragment packet now).reassembler.gathered key) := by
  dsimp only [addFragment]
  by_cases own : packet.key = key
  · subst own
    have taken := ((traced packet.key).take admits).assemble
    rw [addFragment_eq_take]
    rcases given : ((state.reassembler.gathered packet.key).take packet).assemble with ⟨_ | _, _⟩
    · rw [given] at taken
      simp only [gathered, AList.lookup_insert]
      exact taken
    · simp only [gathered, AList.lookup_erase]
      exact .new _ _
  · rw [gathered_addFragment_of_ne own]
    exact (traced key).later packet

/-- In every run of admitted fragments, no sum overflows when an admitted fragment is taken; data
that are returned have every byte from a fragment that was kept, at its place, and their length from
a last fragment. -/
theorem admitted_fragments_reassembled {timeout : Nat} {state : ReassemblerState}
    (reached : (reassemblySystem timeout).ReachableUnder
      (fun state arrival => (state.known arrival.1).Admits arrival.1) state)
    (packet : Ipv4Packet) (now : Nat) (admits : (state.known packet).Admits packet) :
    (state.known packet).TakesSafely packet ∧
      ∀ data, (state.reassembler.addFragment packet now).1 = some data →
        (∀ place byte, data[place]? = some byte →
          ∃ carrier ∈ packet :: state.received, carrier.key = packet.key ∧
            .ofPacket carrier ∈ ((state.known packet).take packet).fragments ∧
            (ofPacket carrier).Carries place byte) ∧
        ReassemblerState.ToldLength (packet :: state.received) packet.key data.length := by
  have traced : ∀ key, ReassemblerState.Traced state.received key
      (state.reassembler.gathered key) := by
    refine System.ReachableUnder.invariant (motive := fun state : ReassemblerState => ∀ key,
      ReassemblerState.Traced state.received key (state.reassembler.gathered key)) ?_ ?_ reached
    · rintro _ rfl key
      exact .new _ _
    · rintro before arrival _ traced admits ⟨⟩
      exact ReassemblerState.traced_addFragment traced admits arrival.2
  refine ⟨admits.takesSafely, fun data done => ?_⟩
  rw [addFragment_eq_take] at done
  split at done
  · rename_i given
    cases done
    have taken := (traced packet.key).take admits
    obtain ⟨length, carried⟩ := IpPacket.assemble_carried given admits.take
    refine ⟨fun place byte found => ?_, taken.length _ length⟩
    obtain ⟨fragment, member, carries⟩ := carried place byte found
    obtain ⟨carrier, received, own, rfl⟩ := taken.fragments fragment member
    exact ⟨carrier, received, own, member, carries⟩
  · cases done

theorem sample_fragments_reassembled :
    ∃ state, (reassemblySystem 10).ReachableUnder
        (fun state arrival => (state.known arrival.1).Admits arrival.1) state ∧
      (state.known sampleFirst).TakesSafely sampleFirst ∧
      ReassemblerState.ToldLength (sampleFirst :: state.received) sampleFirst.key 12 := by
  refine System.exists_reachableUnder ⟨.new 10, []⟩ [(sampleSecond, 0)]
    (fun state => (state.known sampleFirst).Admits sampleFirst ∧
      (state.reassembler.addFragment sampleFirst 1).1 = some [0, 1, 2, 3, 4, 5, 6, 7, 8, 9, 10, 11])
    rfl (by decide +kernel) ?_
  rintro state reached ⟨admits, done⟩
  obtain ⟨safe, returned⟩ := admitted_fragments_reassembled reached sampleFirst 1 admits
  exact ⟨safe, (returned _ done).2⟩

/-- A last fragment at the greatest offset, whose end is no number of sixteen bits. -/
theorem last_offset_overflows :
    ∃ packet : Ipv4Packet, Ipv4.fragOffset packet.bytes = 65528 ∧
      ¬ IpPacket.new.TakesSafely packet :=
  ⟨⟨(sampleArgs.header 65528 8 1).emit ++ [0, 1, 2, 3, 4, 5, 6, 7], by decide +kernel⟩,
    by decide +kernel, fun safe => absurd (safe.1 (by decide +kernel)) (by decide +kernel)⟩

end EasyTier.Gateway
