import EasyTier.Route.RoutePeerWire
import Mathlib.Data.List.Flatten

/-! # Patching the route record of a credential peer

The proxy CIDRs of a record are replaced and its feature flags get the credential flag; whatever
else the record holds stays as it is, byte for byte and in order.
-/

namespace EasyTier.Route.RoutePeerWire

open Data Data.WireFormat

/-- A field that patching leaves alone. -/
def Untouched (field : WireField) : Prop :=
  field.tag ≠ routePeerInfoProxyCidrsTag ∧ field.tag ≠ routePeerInfoFeatureFlagTag

instance (field : WireField) : Decidable (Untouched field) :=
  inferInstanceAs (Decidable (_ ∧ _))

/-- The feature flags with the credential flag in place of what stood for it. -/
def patchedFlags (flags : List WireField) : List WireField :=
  flags.filter (·.tag ≠ featureFlagIsCredentialPeerTag) ++
    [varintField featureFlagIsCredentialPeerTag 1]

/-- The fields of a patched record. -/
def patchedFields (fields flags : List WireField) (proxyCidrs : List Bytes) : List WireField :=
  fields.filter Untouched ++ proxyCidrs.map (lengthDelimitedField routePeerInfoProxyCidrsTag) ++
    [lengthDelimitedField routePeerInfoFeatureFlagTag (encodeFields (patchedFlags flags))]

/-- The fields of a record and of its feature flags, as patching needs them. -/
structure Patchable (fields flags : List WireField) (proxyCidrs : List Bytes) : Prop where
  wellFormed : ∀ field ∈ fields, field.WellFormed
  wellFormedFlags : ∀ flag ∈ flags, flag.WellFormed
  merged : mergedPayload routePeerInfoFeatureFlagTag fields = encodeFields flags
  delimited : ∀ field ∈ fields, ¬ Untouched field → field.wireType = .lengthDelimited
  varint : ∀ flag ∈ flags, flag.tag = featureFlagIsCredentialPeerTag → flag.wireType = .varint
  shortCidrs : ∀ cidr ∈ proxyCidrs, cidr.length < 2 ^ 64
  shortFlags : (encodeFields (patchedFlags flags)).length < 2 ^ 64

namespace Patchable

variable {fields flags : List WireField} {proxyCidrs : List Bytes}

section

variable (patchable : Patchable fields flags proxyCidrs)
include patchable

theorem patchedFlags_wellFormed : ∀ flag ∈ patchedFlags flags, flag.WellFormed := by
  intro flag inside
  rcases List.mem_append.mp inside with kept | added
  · exact patchable.wellFormedFlags flag (List.mem_of_mem_filter kept)
  · rw [List.mem_singleton.mp added]
    exact varintField_wellFormed (by decide) (by decide) (by decide)

theorem cidr_wellFormed :
    ∀ field ∈ proxyCidrs.map (lengthDelimitedField routePeerInfoProxyCidrsTag),
      field.WellFormed := by
  intro field inside
  obtain ⟨cidr, isCidr, rfl⟩ := List.mem_map.mp inside
  exact lengthDelimitedField_wellFormed (by decide) (by decide) (patchable.shortCidrs cidr isCidr)

theorem patchedFields_wellFormed :
    ∀ field ∈ patchedFields fields flags proxyCidrs, field.WellFormed := by
  intro field inside
  rcases List.mem_append.mp inside with others | flag
  · rcases List.mem_append.mp others with kept | cidr
    · exact patchable.wellFormed field (List.mem_of_mem_filter kept)
    · exact patchable.cidr_wellFormed field cidr
  · rw [List.mem_singleton.mp flag]
    exact lengthDelimitedField_wellFormed (by decide) (by decide) patchable.shortFlags

theorem delimited_of_tag {tag : Nat}
    (isTag : tag = routePeerInfoProxyCidrsTag ∨ tag = routePeerInfoFeatureFlagTag) :
    ∀ field ∈ fields, field.tag = tag → field.wireType = .lengthDelimited := by
  intro field inside same
  refine patchable.delimited field inside fun untouched => ?_
  rcases isTag with rfl | rfl
  · exact untouched.1 same
  · exact untouched.2 same

end

end Patchable

/-- The fields once the CIDRs are replaced. -/
def withCidrs (fields : List WireField) (proxyCidrs : List Bytes) : List WireField :=
  fields.filter (·.tag ≠ routePeerInfoProxyCidrsTag) ++
    proxyCidrs.map (lengthDelimitedField routePeerInfoProxyCidrsTag)

/-- No CIDR is a feature flag. -/
theorem filter_cidrs (proxyCidrs : List Bytes) :
    (proxyCidrs.map (lengthDelimitedField routePeerInfoProxyCidrsTag)).filter
      (·.tag = routePeerInfoFeatureFlagTag) = [] := by
  rw [List.filter_eq_nil_iff]
  intro field inside
  obtain ⟨cidr, -, rfl⟩ := List.mem_map.mp inside
  exact Bool.false_ne_true

theorem filter_withCidrs (fields : List WireField) (proxyCidrs : List Bytes) :
    (withCidrs fields proxyCidrs).filter (·.tag ≠ routePeerInfoFeatureFlagTag) =
      fields.filter Untouched ++
        proxyCidrs.map (lengthDelimitedField routePeerInfoProxyCidrsTag) := by
  rw [withCidrs, List.filter_append, List.filter_filter]
  congr 1
  · refine List.filter_congr fun field _ => ?_
    simp [Untouched, and_comm]
  · rw [List.filter_eq_self]
    intro field inside
    obtain ⟨cidr, -, rfl⟩ := List.mem_map.mp inside
    rfl

theorem mergedPayload_withCidrs (fields : List WireField) (proxyCidrs : List Bytes) :
    mergedPayload routePeerInfoFeatureFlagTag (withCidrs fields proxyCidrs) =
      mergedPayload routePeerInfoFeatureFlagTag fields := by
  rw [mergedPayload, withCidrs, List.filter_append, filter_cidrs, List.append_nil,
    List.filter_filter, mergedPayload]
  congr 1
  refine List.filter_congr fun field _ => ?_
  by_cases isFlag : field.tag = routePeerInfoFeatureFlagTag
  · simp [isFlag, routePeerInfoFeatureFlagTag, routePeerInfoProxyCidrsTag]
  · simp [isFlag]

namespace Patchable

variable {fields flags : List WireField} {proxyCidrs : List Bytes}

/-- The patched bytes are those of the patched fields. -/
theorem patch_eq_ok (patchable : Patchable fields flags proxyCidrs) :
    patchCredentialRoutePeerInfo (encodeFields fields) proxyCidrs =
      .ok (encodeFields (patchedFields fields flags proxyCidrs)) := by
  have wellFormed : ∀ field ∈ withCidrs fields proxyCidrs, field.WellFormed := by
    intro field inside
    rcases List.mem_append.mp inside with kept | cidr
    · exact patchable.wellFormed field (List.mem_of_mem_filter kept)
    · exact patchable.cidr_wellFormed field cidr
  have delimited : ∀ field ∈ withCidrs fields proxyCidrs,
      field.tag = routePeerInfoFeatureFlagTag → field.wireType = .lengthDelimited := by
    intro field inside isFlag
    rcases List.mem_append.mp inside with kept | cidr
    · exact patchable.delimited_of_tag (.inr rfl) field (List.mem_of_mem_filter kept) isFlag
    · obtain ⟨payload, -, rfl⟩ := List.mem_map.mp cidr
      rfl
  have route : replaceFields (encodeFields fields) routePeerInfoProxyCidrsTag .lengthDelimited
      (encodeFields (proxyCidrs.map (lengthDelimitedField routePeerInfoProxyCidrsTag))) =
      .ok (encodeFields (withCidrs fields proxyCidrs)) :=
    replaceFields_eq_ok patchable.wellFormed (patchable.delimited_of_tag (.inl rfl)) _
  have merged : mergedLengthDelimitedField (encodeFields (withCidrs fields proxyCidrs))
      routePeerInfoFeatureFlagTag = .ok (encodeFields flags) := by
    rw [mergedLengthDelimitedField_eq_ok wellFormed delimited, mergedPayload_withCidrs,
      patchable.merged]
  have flagged : replaceFields (encodeFields flags) featureFlagIsCredentialPeerTag .varint
      (appendVarintField [] featureFlagIsCredentialPeerTag 1) =
      .ok (encodeFields (patchedFlags flags)) :=
    replaceFields_eq_ok patchable.wellFormedFlags patchable.varint
      [varintField featureFlagIsCredentialPeerTag 1]
  have patched : replaceFields (encodeFields (withCidrs fields proxyCidrs))
      routePeerInfoFeatureFlagTag .lengthDelimited
      (appendLengthDelimitedField [] routePeerInfoFeatureFlagTag
        (encodeFields (patchedFlags flags))) =
      .ok (encodeFields (patchedFields fields flags proxyCidrs)) := by
    have replaced := replaceFields_eq_ok wellFormed delimited
    rw [filter_withCidrs] at replaced
    rw [patchedFields, ← replaced]
    simp [encodeFields, lengthDelimitedField, appendLengthDelimitedField]
  unfold patchCredentialRoutePeerInfo
  rw [foldl_appendLengthDelimitedField, List.nil_append]
  dsimp only
  rw [route]
  dsimp only [bind, Except.bind]
  rw [merged]
  dsimp only
  rw [flagged]
  exact patched

end Patchable

/-! ## The patched record -/

section Patched

variable (fields flags : List WireField) (proxyCidrs : List Bytes)

theorem patchedFlags_patchedFlags : patchedFlags (patchedFlags flags) = patchedFlags flags := by
  rw [patchedFlags, patchedFlags, List.filter_append, List.filter_filter]
  simp [varintField]

/-- A part of a filtered list of which nothing or everything stays. -/
theorem filter_patchedFields (keeps : WireField → Bool) :
    (patchedFields fields flags proxyCidrs).filter keeps =
      fields.filter (fun field => decide (Untouched field) && keeps field) ++
        (proxyCidrs.map (lengthDelimitedField routePeerInfoProxyCidrsTag)).filter keeps ++
        [lengthDelimitedField routePeerInfoFeatureFlagTag
          (encodeFields (patchedFlags flags))].filter keeps := by
  rw [patchedFields, List.filter_append, List.filter_append, List.filter_filter]
  simp only [Bool.and_comm]

theorem filter_untouched {tag : Nat}
    (replaced : tag = routePeerInfoProxyCidrsTag ∨ tag = routePeerInfoFeatureFlagTag) :
    fields.filter (fun field => decide (Untouched field) && decide (field.tag = tag)) = [] := by
  rw [List.filter_eq_nil_iff]
  intro field _ kept
  rw [Bool.and_eq_true, decide_eq_true_eq, decide_eq_true_eq] at kept
  exact replaced.elim (fun cidrs => kept.1.1 (kept.2.trans cidrs))
    fun flag => kept.1.2 (kept.2.trans flag)

theorem untouched_patchedFields :
    (patchedFields fields flags proxyCidrs).filter Untouched = fields.filter Untouched := by
  rw [filter_patchedFields]
  simp [List.filter_map, Function.comp_def, Untouched, lengthDelimitedField, -Bool.decide_and]

theorem cidrs_patchedFields :
    (patchedFields fields flags proxyCidrs).filter (·.tag = routePeerInfoProxyCidrsTag) =
      proxyCidrs.map (lengthDelimitedField routePeerInfoProxyCidrsTag) := by
  rw [filter_patchedFields, filter_untouched _ (.inl rfl)]
  simp [List.filter_map, Function.comp_def, lengthDelimitedField, routePeerInfoProxyCidrsTag,
    routePeerInfoFeatureFlagTag]

theorem flags_patchedFields :
    (patchedFields fields flags proxyCidrs).filter (·.tag = routePeerInfoFeatureFlagTag) =
      [lengthDelimitedField routePeerInfoFeatureFlagTag (encodeFields (patchedFlags flags))] := by
  rw [filter_patchedFields, filter_cidrs, filter_untouched _ (.inr rfl)]
  simp [lengthDelimitedField]

end Patched

variable {fields flags : List WireField} {proxyCidrs : List Bytes}

/-- A patched record can be patched again. -/
theorem Patchable.patched (patchable : Patchable fields flags proxyCidrs) :
    Patchable (patchedFields fields flags proxyCidrs) (patchedFlags flags) proxyCidrs where
  wellFormed := patchable.patchedFields_wellFormed
  wellFormedFlags := patchable.patchedFlags_wellFormed
  merged := by
    rw [mergedPayload, flags_patchedFields]
    simp [lengthDelimitedField]
  delimited := by
    intro field inside touched
    rcases List.mem_append.mp inside with others | flag
    · rcases List.mem_append.mp others with kept | cidr
      · exact absurd (of_decide_eq_true (List.mem_filter.mp kept).2) touched
      obtain ⟨payload, -, rfl⟩ := List.mem_map.mp cidr
      rfl
    · rw [List.mem_singleton.mp flag]
      rfl
  varint := by
    intro flag inside isFlag
    rcases List.mem_append.mp inside with kept | added
    · exact absurd isFlag (of_decide_eq_true (List.mem_filter.mp kept).2)
    rw [List.mem_singleton.mp added]
    rfl
  shortCidrs := patchable.shortCidrs
  shortFlags := by
    rw [patchedFlags_patchedFlags]
    exact patchable.shortFlags

theorem patchedFields_patchedFields (fields flags : List WireField) (proxyCidrs : List Bytes) :
    patchedFields (patchedFields fields flags proxyCidrs) (patchedFlags flags) proxyCidrs =
      patchedFields fields flags proxyCidrs := by
  rw [patchedFields, untouched_patchedFields, patchedFlags_patchedFlags, ← patchedFields]

/-- The payloads of fields are no longer than the fields. -/
theorem length_mergedPayload_le {fields : List WireField}
    (wellFormed : ∀ field ∈ fields, field.WellFormed) (tag : Nat) :
    (mergedPayload tag fields).length ≤ (encodeFields fields).length := by
  induction fields with
  | nil => exact Nat.le_refl 0
  | cons field fields ih =>
    obtain ⟨isField, areFields⟩ := List.forall_mem_cons.mp wellFormed
    have shorter := ih areFields
    have here : (field.lengthDelimited.getD []).length ≤ field.encoded.length := by
      have kept := isField.payload
      split at kept
      · obtain ⟨payload, found, bound⟩ := kept
        rw [found]
        exact bound
      · rw [kept]
        exact Nat.zero_le _
    unfold mergedPayload encodeFields at *
    rw [List.flatMap_cons, List.length_append, List.filter_cons]
    split
    · rw [List.flatMap_cons, List.length_append]
      omega
    · omega

/-- Patching replaces the proxy CIDRs and sets the credential flag among the merged feature flags,
leaves every other field and flag as it is, and does nothing more when repeated. A slice or string
has fewer than 2^63 bytes. -/
theorem credential_patch_edits_its_fields {raw : Bytes} {fields flags : List WireField}
    (proxyCidrs : List Bytes) (short : raw.length < 2 ^ 63)
    (shortCidrs : ∀ cidr ∈ proxyCidrs, cidr.length < 2 ^ 63) (parsed : parseFields raw = .ok fields)
    (delimited : ∀ field ∈ fields, field.tag = routePeerInfoProxyCidrsTag ∨
      field.tag = routePeerInfoFeatureFlagTag → field.wireType = .lengthDelimited)
    (parsedFlags : parseFields (mergedPayload routePeerInfoFeatureFlagTag fields) = .ok flags)
    (varint : ∀ flag ∈ flags, flag.tag = featureFlagIsCredentialPeerTag → flag.wireType = .varint) :
    ∃ patched newFields featureFlag,
      patchCredentialRoutePeerInfo raw proxyCidrs = .ok patched ∧
      parseFields patched = .ok newFields ∧
      newFields.filter Untouched = fields.filter Untouched ∧
      (newFields.filter (·.tag = routePeerInfoProxyCidrsTag)).map (·.lengthDelimited) =
        proxyCidrs.map some ∧
      (newFields.filter (·.tag = routePeerInfoFeatureFlagTag)).map (·.lengthDelimited) =
        [some featureFlag] ∧
      parseFields featureFlag = .ok (flags.filter (·.tag ≠ featureFlagIsCredentialPeerTag) ++
        [varintField featureFlagIsCredentialPeerTag 1]) ∧
      patchCredentialRoutePeerInfo patched proxyCidrs = .ok patched := by
  obtain ⟨isRaw, wellFormed⟩ := parseFields_eq_ok_iff.mp parsed
  obtain ⟨areFlags, wellFormedFlags⟩ := parseFields_eq_ok_iff.mp parsedFlags
  have patchable : Patchable fields flags proxyCidrs := {
    wellFormed := wellFormed
    wellFormedFlags := wellFormedFlags
    merged := areFlags
    delimited := fun field inside touched => delimited field inside (by
      rwa [Untouched, ← not_or, not_not] at touched)
    varint := varint
    shortCidrs := fun cidr inside => Nat.lt_trans (shortCidrs cidr inside) (by decide)
    shortFlags := by
      have payload := length_mergedPayload_le wellFormed routePeerInfoFeatureFlagTag
      have kept : (encodeFields (flags.filter (·.tag ≠ featureFlagIsCredentialPeerTag))).length ≤
          (encodeFields flags).length := (List.filter_sublist.flatMap _).length_le
      have added : (encodeFields [varintField featureFlagIsCredentialPeerTag 1]).length = 2 := by
        decide
      rw [patchedFlags, encodeFields_append, List.length_append, added]
      rw [areFlags] at payload
      have whole : raw.length = (encodeFields fields).length := congrArg List.length isRaw
      have sameFlags : (flags.flatMap (·.encoded)).length = (encodeFields flags).length := rfl
      omega }
  have again := patchable.patched.patch_eq_ok
  rw [patchedFields_patchedFields] at again
  refine ⟨encodeFields (patchedFields fields flags proxyCidrs),
    patchedFields fields flags proxyCidrs, encodeFields (patchedFlags flags), ?_,
    parseFields_encodeFields patchable.patchedFields_wellFormed,
    untouched_patchedFields fields flags proxyCidrs, ?_, ?_,
    parseFields_encodeFields patchable.patchedFlags_wellFormed, again⟩
  · rw [isRaw]
    exact patchable.patch_eq_ok
  · rw [cidrs_patchedFields, List.map_map]
    rfl
  · rw [flags_patchedFields]
    rfl

/-- A record with an id, a CIDR, an unknown group and feature flags in two parts. -/
private def sampleFields : List WireField :=
  [⟨1, .varint, [0x08#8, 0x07#8], none⟩,
    ⟨11, .lengthDelimited, [0x5a#8, 0x02#8, 0x08#8, 0x01#8], some [0x08#8, 0x01#8]⟩,
    ⟨5, .lengthDelimited, [0x2a#8, 0x01#8, 0x61#8], some [0x61#8]⟩,
    ⟨13, .startGroup, [0x6b#8, 0x08#8, 0x05#8, 0x6c#8], none⟩,
    ⟨11, .lengthDelimited, [0x5a#8, 0x02#8, 0x40#8, 0x00#8], some [0x40#8, 0x00#8]⟩]

theorem sample_record_patched :
    ∃ patched, patchCredentialRoutePeerInfo (encodeFields sampleFields) [[0x62#8], []] =
        .ok patched ∧
      patchCredentialRoutePeerInfo patched [[0x62#8], []] = .ok patched := by
  obtain ⟨patched, newFields, featureFlag, done, -, -, -, -, -, again⟩ :=
    credential_patch_edits_its_fields [[0x62#8], []] (by decide) (by decide)
      (show parseFields (encodeFields sampleFields) = .ok sampleFields from rfl) (by decide)
      (show parseFields (mergedPayload routePeerInfoFeatureFlagTag sampleFields) =
        .ok [⟨1, .varint, [0x08#8, 0x01#8], none⟩, ⟨8, .varint, [0x40#8, 0x00#8], none⟩] from rfl)
      (by decide)
  exact ⟨patched, done, again⟩

end EasyTier.Route.RoutePeerWire
