import EasyTier.Gateway.IpReassembler

/-! # Gathering the pieces of a payload

A payload is cut into pieces. What a reassembler holds is described by the set of pieces it has
seen: their fragments, once each, and the length if the last piece is among them. Whatever order
they came in, assembling succeeds when the set is complete and not before.
-/

namespace EasyTier.Gateway

open Data Packet IpPacket

/-- A payload cut into pieces that the reassembler can count with sixteen bits. -/
structure Cut (payload : Bytes) (pieces : List (Nat × Nat)) : Prop where
  tiles : Tiles 0 pieces payload.length
  positive : ∀ piece ∈ pieces, 0 < piece.2
  nonempty : 0 < payload.length
  bounded : payload.length < 2 ^ 16

/-- The fragment that carries a piece. -/
def fragmentOf (payload : Bytes) (piece : Nat × Nat) : IpFragment := ⟨piece.1, slice payload piece⟩

@[simp] theorem offset_fragmentOf (payload : Bytes) (piece : Nat × Nat) :
    (fragmentOf payload piece).offset = piece.1 := rfl

@[simp] theorem data_fragmentOf (payload : Bytes) (piece : Nat × Nat) :
    (fragmentOf payload piece).data = slice payload piece := rfl

/-- The packet holds the fragments of the pieces seen, and the length if the last piece is one. -/
structure Gathers (payload : Bytes) (pieces : List (Nat × Nat)) (seen : Nat × Nat → Prop)
    (packet : IpPacket) : Prop where
  nodup : packet.fragments.Nodup
  mem_iff : ∀ fragment, fragment ∈ packet.fragments ↔
    ∃ piece ∈ pieces, seen piece ∧ fragmentOf payload piece = fragment
  total_iff : ∀ length, packet.totalLength = some length ↔
    length = payload.length ∧ ∃ piece ∈ pieces, seen piece ∧ piece.1 + piece.2 = payload.length

section Gather

variable {payload : Bytes} {pieces : List (Nat × Nat)} {seen : Nat × Nat → Prop}
  {packet : IpPacket} {piece : Nat × Nat}

theorem length_slice_of_le (inside : piece.1 + piece.2 ≤ payload.length) :
    (slice payload piece).length = piece.2 := by
  rw [slice, List.length_take, List.length_drop]
  omega

namespace Cut

theorem length_slice (cut : Cut payload pieces) (member : piece ∈ pieces) :
    (slice payload piece).length = piece.2 := length_slice_of_le (cut.tiles.bounds member).2

theorem stop_fragmentOf (cut : Cut payload pieces) (member : piece ∈ pieces) :
    (fragmentOf payload piece).stop = piece.1 + piece.2 := by
  have inside := (cut.tiles.bounds member).2
  have bounded := cut.bounded
  simp only [IpFragment.stop, offset_fragmentOf, data_fragmentOf, cut.length_slice member]
  omega

/-- Fragments of a payload overlap only if they are the same. -/
theorem overlaps_iff (cut : Cut payload pieces) {first second : Nat × Nat}
    (firstIn : first ∈ pieces) (secondIn : second ∈ pieces) :
    (fragmentOf payload first).overlaps (fragmentOf payload second) = true ↔ first = second := by
  have firstLong := cut.positive first firstIn
  have secondLong := cut.positive second secondIn
  simp only [IpFragment.overlaps, Bool.or_eq_true, Bool.and_eq_true, decide_eq_true_eq]
  rw [cut.stop_fragmentOf firstIn, cut.stop_fragmentOf secondIn, offset_fragmentOf,
    offset_fragmentOf]
  constructor
  · intro overlap
    rcases cut.tiles.eq_or_apart firstIn secondIn with same | before | after
    · exact same
    · omega
    · omega
  · rintro rfl
    omega

end Cut

/-- A fragment overlaps what has been gathered if its piece has been seen. -/
theorem any_overlaps_iff (cut : Cut payload pieces) (gathers : Gathers payload pieces seen packet)
    (member : piece ∈ pieces) :
    (packet.fragments.any fun existing => existing.overlaps (fragmentOf payload piece)) = true ↔
      seen piece := by
  rw [List.any_eq_true]
  constructor
  · rintro ⟨fragment, stored, overlap⟩
    obtain ⟨other, otherIn, otherSeen, rfl⟩ := (gathers.mem_iff fragment).mp stored
    exact (cut.overlaps_iff otherIn member).mp overlap ▸ otherSeen
  · intro pieceSeen
    refine ⟨fragmentOf payload piece, (gathers.mem_iff _).mpr ⟨piece, member, pieceSeen, rfl⟩, ?_⟩
    exact (cut.overlaps_iff member member).mpr rfl

namespace Gathers

theorem new : Gathers payload pieces (fun _ => False) new where
  nodup := List.nodup_nil
  mem_iff fragment := by simp [IpPacket.new]
  total_iff length := by simp [IpPacket.new]

/-- Seeing the same pieces is gathering the same. -/
theorem congr (gathers : Gathers payload pieces seen packet) {others : Nat × Nat → Prop}
    (same : ∀ piece ∈ pieces, seen piece ↔ others piece) :
    Gathers payload pieces others packet := by
  have swap {holds : Nat × Nat → Prop} :
      (∃ piece ∈ pieces, seen piece ∧ holds piece) ↔ ∃ piece ∈ pieces, others piece ∧ holds piece :=
    exists_congr fun piece => and_congr_right fun member => and_congr_left' (same piece member)
  exact ⟨gathers.nodup, fun fragment => (gathers.mem_iff fragment).trans swap,
    fun length => (gathers.total_iff length).trans (and_congr_right' swap)⟩

/-- Taking the fragment of a piece, and the length with the last one, is seeing the piece. -/
theorem take (cut : Cut payload pieces) (gathers : Gathers payload pieces seen packet)
    (member : piece ∈ pieces) {measured : IpPacket}
    (measures : measured = if piece.1 + piece.2 = payload.length then
      packet.setTotalLength payload.length else packet) :
    Gathers payload pieces (fun other => other = piece ∨ seen other)
      (measured.addFragment (fragmentOf payload piece)) := by
  have total_iff : ∀ length, measured.totalLength = some length ↔ length = payload.length ∧
      ∃ other ∈ pieces, (other = piece ∨ seen other) ∧ other.1 + other.2 = payload.length := by
    intro length
    subst measures
    split
    case isTrue ends =>
      refine ⟨fun known => ?_, fun known => known.1 ▸ rfl⟩
      exact ⟨(Option.some.inj known).symm, piece, member, .inl rfl, ends⟩
    case isFalse further =>
      rw [gathers.total_iff]
      refine and_congr_right fun _ => exists_congr fun other => and_congr_right fun _ =>
        and_congr_left fun ends => ⟨.inr, ?_⟩
      rintro (rfl | otherSeen)
      · exact absurd ends further
      · exact otherSeen
  have kept : measured.fragments = packet.fragments := by
    subst measures
    split <;> rfl
  rw [addFragment, kept]
  split
  case isTrue there =>
    have pieceSeen := (any_overlaps_iff cut gathers member).mp there
    refine ⟨kept ▸ gathers.nodup, fun fragment => kept ▸ (gathers.mem_iff fragment).trans ?_,
      total_iff⟩
    refine exists_congr fun other => and_congr_right fun _ => and_congr_left fun _ => ⟨.inr, ?_⟩
    rintro (rfl | otherSeen)
    · exact pieceSeen
    · exact otherSeen
  case isFalse absent =>
    refine ⟨?_, fun fragment => ?_, total_iff⟩
    · refine List.nodup_append.mpr ⟨gathers.nodup, List.nodup_singleton _, ?_⟩
      rintro existing stored fragment isNew rfl
      rw [List.mem_singleton.mp isNew] at stored
      exact absent (List.any_eq_true.mpr ⟨_, stored, (cut.overlaps_iff member member).mpr rfl⟩)
    · rw [List.mem_append, gathers.mem_iff, List.mem_singleton]
      constructor
      · rintro (⟨other, otherIn, otherSeen, carries⟩ | rfl)
        · exact ⟨other, otherIn, .inr otherSeen, carries⟩
        · exact ⟨piece, member, .inl rfl, rfl⟩
      · rintro ⟨other, otherIn, rfl | otherSeen, carries⟩
        · exact .inr carries.symm
        · exact .inl ⟨other, otherIn, otherSeen, carries⟩

end Gathers

/-! ## Assembling what has been gathered -/

variable {start stop : Nat}

/-- One step of joining, with the fragment of the next piece. -/
theorem join_cons {length : Nat} (inside : start + length ≤ payload.length)
    (bounded : payload.length < 2 ^ 16) (joined : Bytes) (rest : List IpFragment) :
    join start joined (fragmentOf payload (start, length) :: rest) =
      join (start + length) (joined ++ slice payload (start, length)) rest := by
  have ends : (start + (slice payload (start, length)).length) % 2 ^ 16 = start + length := by
    rw [length_slice_of_le inside]
    exact Nat.mod_eq_of_lt (by omega)
  rw [join, offset_fragmentOf, if_neg (not_not.mpr rfl), data_fragmentOf, ends]

theorem join_all (tiles : Tiles start pieces stop)
    (inside : stop ≤ payload.length) (bounded : payload.length < 2 ^ 16) (joined : Bytes) :
    join start joined (pieces.map (fragmentOf payload)) =
      some (stop, joined ++ pieces.flatMap (slice payload)) := by
  induction tiles generalizing joined with
  | nil => simp [join]
  | @cons start length stop pieces after ih =>
    have reached := after.le
    rw [List.map_cons, join_cons (by omega) bounded, ih inside, List.flatMap_cons,
      List.append_assoc]

/-- Fragments that all start elsewhere cannot be joined. -/
theorem join_gap {joined payload : Bytes} {fragments : List IpFragment}
    (gap : ∀ fragment ∈ fragments, fragment.offset ≠ start)
    (joins : join start joined fragments = some (stop, payload)) : start = stop := by
  cases fragments with
  | nil =>
    rw [join, Option.some.injEq, Prod.mk.injEq] at joins
    exact joins.1
  | cons fragment rest =>
    rw [join, if_pos (gap fragment List.mem_cons_self)] at joins
    cases joins

/-- Fragments of some tiles lead to the end only if they are fragments of all of them. -/
theorem all_of_join (tiles : Tiles start pieces stop)
    (positive : ∀ piece ∈ pieces, 0 < piece.2) (inside : stop ≤ payload.length)
    (bounded : payload.length < 2 ^ 16) {kept : Nat × Nat → Bool} {joined result : Bytes}
    (joins : join start joined ((pieces.filter kept).map (fragmentOf payload)) =
      some (stop, result)) :
    ∀ piece ∈ pieces, kept piece = true := by
  induction tiles generalizing joined with
  | nil => simp
  | @cons start length stop pieces after ih =>
    have reached := after.le
    have long : 0 < length := positive (start, length) List.mem_cons_self
    cases keeps : kept (start, length) with
    | false =>
      -- The fragments that are there start behind the missing one.
      rw [List.filter_cons_of_neg (by simp [keeps])] at joins
      have stuck := join_gap (fun fragment member => ?_) joins
      · omega
      · obtain ⟨piece, kept, rfl⟩ := List.mem_map.mp member
        have behind := (after.bounds (List.mem_filter.mp kept).1).1
        rw [offset_fragmentOf]
        omega
    | true =>
      rw [List.filter_cons_of_pos keeps, List.map_cons, join_cons (by omega) bounded] at joins
      have later := ih (fun piece member => positive piece (List.mem_cons_of_mem _ member)) inside
        joins
      exact List.forall_mem_cons.mpr ⟨keeps, later⟩

theorem sorted_perm (fragments : List IpFragment) : (sorted fragments).Perm fragments :=
  List.perm_insertionSort _ _

section

variable [DecidablePred seen] (cut : Cut payload pieces)
    (gathers : Gathers payload pieces seen packet)
include cut gathers

/-- Sorted, the fragments gathered are those of the pieces seen, in the order of the pieces. -/
theorem Gathers.sorted_eq :
    sorted packet.fragments =
      (pieces.filter fun piece => seen piece).map (fragmentOf payload) := by
  have ascending : ((pieces.filter fun piece => seen piece).map (fragmentOf payload)).Pairwise
      (fun first second => first.offset < second.offset) := by
    rw [List.pairwise_map]
    refine (cut.tiles.pairwise.filter _).imp_of_mem ?_
    intro first second firstIn _ before
    have long := cut.positive first (List.mem_filter.mp firstIn).1
    rw [offset_fragmentOf, offset_fragmentOf]
    omega
  have same : (sorted packet.fragments).Perm
      ((pieces.filter fun piece => seen piece).map (fragmentOf payload)) := by
    refine (sorted_perm _).trans ?_
    refine (List.perm_ext_iff_of_nodup gathers.nodup ?_).mpr fun fragment => ?_
    · exact ascending.imp fun before => by rintro rfl; exact Nat.lt_irrefl _ before
    · rw [gathers.mem_iff, List.mem_map]
      simp only [List.mem_filter, decide_eq_true_eq, and_assoc]
  refine List.Perm.eq_of_pairwise ?_ (List.pairwise_insertionSort _ _)
    (ascending.imp fun before => Nat.le_of_lt before) same
  intro first second firstIn secondIn before after
  obtain ⟨firstPiece, firstKept, rfl⟩ := List.mem_map.mp (same.mem_iff.mp firstIn)
  obtain ⟨secondPiece, secondKept, rfl⟩ := List.mem_map.mp secondIn
  have firstMember := (List.mem_filter.mp firstKept).1
  have secondMember := (List.mem_filter.mp secondKept).1
  have firstLong := cut.positive firstPiece firstMember
  have secondLong := cut.positive secondPiece secondMember
  rw [offset_fragmentOf, offset_fragmentOf] at before after
  rcases cut.tiles.eq_or_apart firstMember secondMember with equal | apart
  · rw [equal]
  · omega

/-- The payload is assembled when all pieces have been seen and not before. -/
theorem Gathers.assemble :
    packet.assemble.1 = if ∀ piece ∈ pieces, seen piece then some payload else none := by
  obtain ⟨last, lastIn, ends⟩ := cut.tiles.exists_last cut.nonempty
  have inside := Nat.le_refl payload.length
  rw [IpPacket.assemble]
  split
  case h_1 unknown =>
    rw [if_neg]
    intro all
    have known := (gathers.total_iff payload.length).mpr ⟨rfl, last, lastIn, all last lastIn, ends⟩
    rw [unknown] at known
    cases known
  case h_2 totalLength known =>
    obtain ⟨rfl, _⟩ := (gathers.total_iff totalLength).mp known
    rw [gathers.sorted_eq cut]
    by_cases all : ∀ piece ∈ pieces, seen piece
    · have kept : (pieces.filter fun piece => seen piece) = pieces :=
        List.filter_eq_self.mpr fun piece member => decide_eq_true (all piece member)
      have whole : pieces.flatMap (slice payload) = payload := by
        rw [cut.tiles.flatMap_slice, List.drop_zero, Nat.sub_zero, List.take_length]
      rw [if_pos all, kept, join_all cut.tiles inside cut.bounded, List.nil_append, whole]
      exact if_pos rfl
    · rw [if_neg all]
      cases joins : IpPacket.join 0 [] ((pieces.filter fun piece => seen piece).map
          (fragmentOf payload)) with
      | none => rfl
      | some reached =>
        refine if_neg fun arrived => all ?_
        obtain ⟨offset, joined⟩ := reached
        obtain rfl : offset = payload.length := arrived
        intro piece member
        exact of_decide_eq_true
          (all_of_join cut.tiles cut.positive inside cut.bounded joins piece member)

end

theorem Gathers.assembled (gathers : Gathers payload pieces seen packet) :
    Gathers payload pieces seen packet.assemble.2 := by
  rw [IpPacket.assemble]
  split
  · exact gathers
  · have same := sorted_perm packet.fragments
    exact ⟨same.nodup_iff.mpr gathers.nodup,
      fun fragment => same.mem_iff.trans (gathers.mem_iff fragment), gathers.total_iff⟩

end Gather

end EasyTier.Gateway
