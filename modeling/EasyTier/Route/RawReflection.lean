import EasyTier.Route.RoutePeerWire

/-! # Route records reflected in their bytes

A sync request carries its peer infos as they came in, spliced behind the rest of the request. The
receiver decodes the request and takes the bytes of the infos out of it by hand; both see the same
infos, in the same order, however the fields of the request are arranged.
-/

namespace EasyTier.Route.RoutePeerWire

open Data Data.WireFormat Data.WireFormat.Reader

/-! ## Encoding -/

/-- The connection info of a request, by its encoding. -/
inductive EncodedConnInfo where
  | connBitmap (message : Bytes)
  | connPeerList (message : Bytes)
  deriving DecidableEq

/-- The request; the messages inside it other than the peer infos stand for their encodings. -/
structure SyncRouteInfoRequest (Info : Type) where
  myPeerId : UInt32
  mySessionId : UInt64
  isInitiator : Bool
  peerInfos : Option (List Info)
  connInfo : Option EncodedConnInfo
  foreignNetworkInfos : Option Bytes

/-- A number field, left out if it has its default. -/
def numberField (tag value : Nat) : List WireField :=
  if value = 0 then [] else [varintField tag value]

def EncodedConnInfo.field : EncodedConnInfo → WireField
  | connBitmap message => lengthDelimitedField 5 message
  | connPeerList message => lengthDelimitedField 7 message

variable {Info : Type} (request : SyncRouteInfoRequest Info) {fields : List WireField} {tag : Nat}
  {payloads : List Bytes} {field : WireField} {Message : Type} {wireType : WireType}
  {message : Message}

/-- The fields of a request without peer infos, in the order of their tags. -/
def SyncRouteInfoRequest.otherFields : List WireField :=
  numberField 1 request.myPeerId.toNat ++ numberField 2 request.mySessionId.toNat ++
    numberField 3 request.isInitiator.toNat ++
      (request.connInfo.map EncodedConnInfo.field).toList ++
    (request.foreignNetworkInfos.map (lengthDelimitedField 6)).toList

/-- `encode_sync_route_request`. -/
def encodeSyncRouteRequest (rawPeerInfos : List Bytes) :
    Except WireError Bytes :=
  let decodedCount := (request.peerInfos.map List.length).getD 0
  if decodedCount ≠ rawPeerInfos.length then .error .peerInfoCountMismatch
  else
    let output := encodeFields request.otherFields
    if request.peerInfos.isSome then
      let peerInfos := rawPeerInfos.foldl
        (fun peerInfos info => appendLengthDelimitedField peerInfos routePeerInfosItemTag info) []
      .ok (appendLengthDelimitedField output syncRoutePeerInfosTag peerInfos)
    else .ok output

/-! ## Extraction -/

/-- The loop of `extract_route_peer_infos`. -/
def extractFrom : List Bytes → Except WireError (List Bytes)
  | [] => .ok []
  | peerInfos :: others =>
    (lengthDelimitedFields peerInfos routePeerInfosItemTag).bind fun infos =>
      (extractFrom others).map (infos ++ ·)

/-- `extract_route_peer_infos`. -/
def extractRoutePeerInfos (request : Bytes) : Except WireError (List Bytes) :=
  (lengthDelimitedFields request syncRoutePeerInfosTag).bind extractFrom

/-- The fields of an encoded request. -/
def requestFields (rawPeerInfos : List Bytes) :
    List WireField :=
  request.otherFields ++ [lengthDelimitedField syncRoutePeerInfosTag
    (encodeFields (rawPeerInfos.map (lengthDelimitedField routePeerInfosItemTag)))]

theorem encodeSyncRouteRequest_eq_ok {request : SyncRouteInfoRequest Info}
    {rawPeerInfos : List Bytes} {items : List Info} (present : request.peerInfos = some items)
    (counted : items.length = rawPeerInfos.length) :
    encodeSyncRouteRequest request rawPeerInfos =
      .ok (encodeFields (requestFields request rawPeerInfos)) := by
  unfold encodeSyncRouteRequest
  rw [present]
  dsimp only [Option.map_some, Option.getD_some, Option.isSome_some]
  rw [if_neg (not_not.mpr counted), if_pos rfl, foldl_appendLengthDelimitedField, List.nil_append,
    requestFields, encodeFields_append]
  simp [encodeFields, appendLengthDelimitedField, lengthDelimitedField]

/-- The payload of a field is part of the bytes of the fields. -/
theorem length_payload_le {payload : Bytes} (inside : lengthDelimitedField tag payload ∈ fields) :
    payload.length ≤ (encodeFields fields).length := by
  have part : (lengthDelimitedField tag payload).encoded.length ≤ (encodeFields fields).length :=
    (List.sublist_flatten_of_mem (List.mem_map_of_mem inside)).length_le
  simp only [lengthDelimitedField, List.length_append] at part
  omega

theorem mem_numberField {value : Nat} (inside : field ∈ numberField tag value) :
    field = varintField tag value := by
  unfold numberField at inside
  split at inside
  · exact absurd inside List.not_mem_nil
  exact List.mem_singleton.mp inside

/-- The fields before the peer infos are numbers with tags below theirs or messages with tags
above. -/
theorem mem_otherFields {request : SyncRouteInfoRequest Info}
    (inside : field ∈ request.otherFields) :
    (∃ tag value, field = varintField tag value ∧ 0 < tag ∧ tag < 4 ∧ value < 2 ^ 64) ∨
      ∃ tag payload, field = lengthDelimitedField tag payload ∧ 4 < tag ∧ tag < 8 := by
  simp only [SyncRouteInfoRequest.otherFields, List.mem_append, Option.mem_toList,
    Option.map_eq_some_iff] at inside
  rcases inside with (((peerId | sessionId) | initiator) | ⟨connInfo, -, rfl⟩) | ⟨message, -, rfl⟩
  · have bound := request.myPeerId.toNat_lt
    exact .inl ⟨1, _, mem_numberField peerId, by omega, by omega, by omega⟩
  · exact .inl ⟨2, _, mem_numberField sessionId, by omega, by omega, request.mySessionId.toNat_lt⟩
  · have bound := request.isInitiator.toNat_le
    exact .inl ⟨3, _, mem_numberField initiator, by omega, by omega, by omega⟩
  · cases connInfo with
    | connBitmap message => exact .inr ⟨5, message, rfl, by omega, by omega⟩
    | connPeerList message => exact .inr ⟨7, message, rfl, by omega, by omega⟩
  · exact .inr ⟨6, message, rfl, by omega, by omega⟩

theorem otherFields_wellFormed {request : SyncRouteInfoRequest Info}
    (short : (encodeFields request.otherFields).length < 2 ^ 64)
    (inside : field ∈ request.otherFields) :
    field.WellFormed ∧ field.tag ≠ syncRoutePeerInfosTag := by
  rcases mem_otherFields inside with ⟨tag, value, rfl, positive, small, fits⟩ |
    ⟨tag, payload, rfl, large, small⟩
  · exact ⟨varintField_wellFormed positive (by omega) fits, Nat.ne_of_lt small⟩
  · have bound := length_payload_le inside
    exact ⟨lengthDelimitedField_wellFormed (by omega) (by omega) (by omega), Nat.ne_of_gt large⟩

/-- The payloads of fields that were written one after the other. -/
theorem lengthDelimitedFields_written (positive : 0 < tag) (small : tag < 2 ^ 29)
    (short : ∀ payload ∈ payloads, payload.length < 2 ^ 64) :
    lengthDelimitedFields (encodeFields (payloads.map (lengthDelimitedField tag))) tag =
      .ok payloads := by
  rw [lengthDelimitedFields_eq_ok]
  · congr 1
    rw [List.filter_eq_self.mpr fun field inside => ?_, List.map_map]
    · exact List.map_id payloads
    · obtain ⟨payload, -, rfl⟩ := List.mem_map.mp inside
      exact decide_eq_true rfl
  · intro field inside
    obtain ⟨payload, isPayload, rfl⟩ := List.mem_map.mp inside
    exact lengthDelimitedField_wellFormed positive small (short payload isPayload)
  · intro field inside _
    obtain ⟨payload, -, rfl⟩ := List.mem_map.mp inside
    rfl

/-- What was put into a request is taken out of it. -/
theorem extract_requestFields (rawPeerInfos : List Bytes)
    (short : (encodeFields (requestFields request rawPeerInfos)).length < 2 ^ 63) :
    extractRoutePeerInfos (encodeFields (requestFields request rawPeerInfos)) =
      .ok rawPeerInfos := by
  have whole := short
  rw [requestFields, encodeFields_append, List.length_append] at whole
  have infosShort : (encodeFields (rawPeerInfos.map
      (lengthDelimitedField routePeerInfosItemTag))).length < 2 ^ 64 := by
    have bound := length_payload_le (List.mem_singleton_self (lengthDelimitedField
      syncRoutePeerInfosTag (encodeFields (rawPeerInfos.map
        (lengthDelimitedField routePeerInfosItemTag)))))
    omega
  have found : lengthDelimitedFields (encodeFields (requestFields request rawPeerInfos))
      syncRoutePeerInfosTag =
      .ok [encodeFields (rawPeerInfos.map (lengthDelimitedField routePeerInfosItemTag))] := by
    rw [lengthDelimitedFields_eq_ok]
    · rw [requestFields, List.filter_append, List.filter_eq_nil_iff.mpr fun field inside => ?_]
      · rfl
      · simpa using (otherFields_wellFormed (by omega) inside).2
    · intro field inside
      rcases List.mem_append.mp inside with other | infos
      · exact (otherFields_wellFormed (by omega) other).1
      · rw [List.mem_singleton.mp infos]
        exact lengthDelimitedField_wellFormed (by decide) (by decide) infosShort
    · intro field inside isInfos
      rcases List.mem_append.mp inside with other | infos
      · exact absurd isInfos (otherFields_wellFormed (by omega) other).2
      rw [List.mem_singleton.mp infos]
      rfl
  have items : lengthDelimitedFields (encodeFields (rawPeerInfos.map
      (lengthDelimitedField routePeerInfosItemTag))) routePeerInfosItemTag = .ok rawPeerInfos := by
    refine lengthDelimitedFields_written (by decide) (by decide) fun raw inside => ?_
    have bound := length_payload_le (List.mem_map_of_mem (f := lengthDelimitedField
      routePeerInfosItemTag) inside)
    omega
  rw [extractRoutePeerInfos, found]
  dsimp only [Except.bind]
  rw [extractFrom, items]
  simp [Except.bind, extractFrom, Except.map]

/-! ## Decoding

Prost decodes a message field by field: a known field of the expected wire type is merged into what
the message holds by now, an unknown one is skipped.
-/

/-- The fields of a message, merged one after the other; `fuel` bounds their number. -/
def mergeFields {Message : Type}
    (mergeField : Message → Nat → WireType → Reader DecodeError Message) :
    Nat → Message → Bytes → Except DecodeError Message
  | _, message, [] => .ok message
  -- not reached: every field takes a byte
  | 0, _, _ :: _ => .error .bufferUnderflow
  | fuel + 1, message, byte :: input =>
    (decodeKey.andThen (fun (tag, wireType) => mergeField message tag wireType)
      (byte :: input)).bind fun (message, rest) => mergeFields mergeField fuel message rest

/-- Fail unless the wire type is the expected one. -/
def expecting {Message : Type} (expected wireType : WireType) (read : Reader DecodeError Message) :
    Reader DecodeError Message :=
  if wireType = expected then read else give (.error .unexpectedWireType)

/-- A message inside another, decoded from its payload. -/
def mergeMessage {Message : Type} (decode : Bytes → Except DecodeError Message) :
    Reader DecodeError Message :=
  decodeVarint.andThen fun length =>
    (take .bufferUnderflow length).andThen fun payload => give (decode payload)

/-- How the messages inside a request are decoded: its peer infos, and those of other tags, of which
it only matters here whether they can be. -/
structure MessageDecoder (Info : Type) where
  info : Bytes → Except DecodeError Info
  other : Nat → Bytes → Except DecodeError Unit

/-- `RoutePeerInfos::merge_field`, one level into the request. -/
def mergePeerInfosField (decoder : MessageDecoder Info) (items : List Info) (tag : Nat)
    (wireType : WireType) : Reader DecodeError (List Info) :=
  if tag = 1 then
    expecting .lengthDelimited wireType
      ((mergeMessage decoder.info).andThen fun info => give (.ok (items ++ [info])))
  else (skipField (recursionLimit - 1) wireType tag).andThen fun _ => give (.ok items)

/-- `SyncRouteInfoRequest::merge_field`, for what it does to the peer infos. -/
def mergeRequestField (decoder : MessageDecoder Info) (peerInfos : Option (List Info)) (tag : Nat)
    (wireType : WireType) : Reader DecodeError (Option (List Info)) :=
  if tag = 4 then
    expecting .lengthDelimited wireType
      ((mergeMessage fun payload => mergeFields (mergePeerInfosField decoder) payload.length
        (peerInfos.getD []) payload).andThen fun items => give (.ok (some items)))
  else if tag = 1 ∨ tag = 2 ∨ tag = 3 then
    expecting .varint wireType (decodeVarint.andThen fun _ => give (.ok peerInfos))
  else if tag = 5 ∨ tag = 6 ∨ tag = 7 then
    expecting .lengthDelimited wireType
      ((mergeMessage (decoder.other tag)).andThen fun _ => give (.ok peerInfos))
  else (skipField recursionLimit wireType tag).andThen fun _ => give (.ok peerInfos)

/-- The peer infos of `SyncRouteInfoRequest::decode`. -/
def decodePeerInfos (decoder : MessageDecoder Info) (request : Bytes) :
    Except DecodeError (Option (List Info)) :=
  mergeFields (mergeRequestField decoder) request.length none request

theorem expecting_eq_ok {expected : WireType}
    {read : Reader DecodeError Message} {input rest : Bytes} :
    expecting expected wireType read input = .ok (message, rest) ↔
      wireType = expected ∧ read input = .ok (message, rest) := by
  unfold expecting
  split
  · rename_i same
    exact (and_iff_right same).symm
  · rename_i other
    constructor
    · rintro ⟨⟩
    · exact fun both => absurd both.1 other

theorem give_eq_ok {Error Value : Type} {result : Except Error Value} {input rest : Bytes}
    {value : Value} :
    give result input = .ok (value, rest) ↔ result = .ok value ∧ input = rest := by
  cases result <;> simp [give, Except.map]

/-- A value that is read is passed on at once. -/
theorem andThen_give_eq_ok {Error Value Result : Type} {reader : Reader Error Value}
    {make : Value → Result} {input rest : Bytes} {result : Result} :
    reader.andThen (fun value => give (.ok (make value))) input = .ok (result, rest) ↔
      ∃ value, reader input = .ok (value, rest) ∧ make value = result := by
  simp [andThen_eq_ok, give_eq_ok]

/-- A message inside another is the payload of a length-delimited value. -/
theorem mergeMessage_eq_ok {decode : Bytes → Except DecodeError Message}
    {input rest : Bytes}
    (done : mergeMessage decode input = .ok (message, rest)) (tag : Nat) :
    ∃ payload, readValue tag .lengthDelimited input = .ok (some payload, rest) ∧
      decode payload = .ok message := by
  obtain ⟨length, middle, lengthRead, ended⟩ := andThen_eq_ok.mp done
  obtain ⟨payload, last, taken, given⟩ := andThen_eq_ok.mp ended
  obtain ⟨decoded, rfl⟩ := give_eq_ok.mp given
  refine ⟨payload, ?_, decoded⟩
  rw [readValue, if_pos rfl, andThen_eq_ok]
  refine ⟨length, middle, ?_, ?_⟩
  · rw [decoding, lengthRead]
    rfl
  · rw [andThen_eq_ok]
    exact ⟨payload, last, take_eq_ok_iff.mpr (take_eq_ok_iff.mp taken), rfl⟩

/-- A skipped value is one `parse_fields` takes. -/
theorem readValue_of_skipField {input rest : Bytes}
    (done : skipField recursionLimit wireType tag input = .ok ((), rest)) :
    ∃ payload, readValue tag wireType input = .ok (payload, rest) := by
  by_cases delimited : wireType = .lengthDelimited
  · subst delimited
    obtain ⟨length, middle, lengthRead, ended⟩ := andThen_eq_ok.mp done
    obtain ⟨payload, last, taken, given⟩ := andThen_eq_ok.mp ended
    have merged : mergeMessage (fun payload => .ok payload) input = .ok (payload, last) :=
      andThen_eq_ok.mpr ⟨length, middle, lengthRead,
        andThen_eq_ok.mpr ⟨payload, last, taken, rfl⟩⟩
    obtain ⟨-, rfl⟩ := give_eq_ok.mp given
    obtain ⟨kept, read, -⟩ := mergeMessage_eq_ok merged tag
    exact ⟨some kept, read⟩
  · refine ⟨none, ?_⟩
    rw [readValue, if_neg delimited, andThen_eq_ok]
    refine ⟨(), rest, ?_, rfl⟩
    rw [decoding, done]
    rfl

/-- Merging that takes the values `parse_fields` takes sees the fields it sees. -/
theorem mergeFields_parse {mergeField : Message → Nat → WireType → Reader DecodeError Message}
    (Merged : Message → List WireField → Message → Prop)
    (nothing : ∀ message, Merged message [] message)
    (field : ∀ {message tag wireType input next rest fields final},
      mergeField message tag wireType input = .ok (next, rest) → Merged next fields final →
      ∃ payload, readValue tag wireType input = .ok (payload, rest) ∧
        ∀ encoded, Merged message (⟨tag, wireType, encoded, payload⟩ :: fields) final)
    {fuel : Nat} {final : Message} {bytes : Bytes}
    (done : mergeFields mergeField fuel message bytes = .ok final) :
    ∃ fields, bytes = encodeFields fields ∧ (∀ field ∈ fields, field.WellFormed) ∧
      Merged message fields final := by
  induction fuel generalizing message bytes with
  | zero =>
    cases bytes with
    | nil =>
      cases done
      exact ⟨[], rfl, fun field inside => absurd inside List.not_mem_nil, nothing _⟩
    | cons byte bytes => cases done
  | succ fuel ih =>
    cases bytes with
    | nil =>
      cases done
      exact ⟨[], rfl, fun field inside => absurd inside List.not_mem_nil, nothing _⟩
    | cons byte bytes =>
      rw [mergeFields] at done
      cases first : decodeKey.andThen (fun (tag, wireType) => mergeField message tag wireType)
          (byte :: bytes) with
      | error error =>
        rw [first] at done
        cases done
      | ok result =>
        obtain ⟨next, rest⟩ := result
        rw [first] at done
        obtain ⟨⟨tag, wireType⟩, middle, keyRead, merged⟩ := andThen_eq_ok.mp first
        obtain ⟨fields, rfl, wellFormed, later⟩ := ih done
        obtain ⟨payload, valueRead, whole⟩ := field merged later
        have read : readField (byte :: bytes) =
            .ok (((tag, wireType), payload), encodeFields fields) := by
          rw [readField, andThen_eq_ok]
          refine ⟨(tag, wireType), middle, ?_, ?_⟩
          · rw [decoding, keyRead]
            rfl
          · rw [andThen_eq_ok]
            exact ⟨payload, _, valueRead, rfl⟩
        have parsed : parseField (byte :: bytes) = .ok (⟨tag, wireType,
            (byte :: bytes).take ((byte :: bytes).length - (encodeFields fields).length), payload⟩,
            encodeFields fields) := by
          rw [parseField, read]
          rfl
        obtain ⟨split, isField⟩ := parseField_eq_ok parsed
        exact ⟨_ :: fields, split, List.forall_mem_cons.mpr ⟨isField, wellFormed⟩, whole _⟩

/-! ## Agreement -/

theorem payloadsOf_of_map (kept : fields.map (·.lengthDelimited) = payloads.map some) (tag : Nat) :
    payloadsOf tag fields = .ok payloads := by
  induction fields generalizing payloads with
  | nil =>
    cases payloads with
    | nil => rfl
    | cons payload payloads => cases kept
  | cons field fields ih =>
    cases payloads with
    | nil => cases kept
    | cons payload payloads =>
      obtain ⟨isPayload, others⟩ := List.cons.inj kept
      dsimp only at isPayload
      rw [payloadsOf, isPayload]
      rw [ih others]
      rfl

theorem lengthDelimitedFields_of_map (wellFormed : ∀ field ∈ fields, field.WellFormed)
    (kept : (fields.filter (·.tag = tag)).map (·.lengthDelimited) = payloads.map some) :
    lengthDelimitedFields (encodeFields fields) tag = .ok payloads := by
  rw [lengthDelimitedFields, parseFields_encodeFields wellFormed]
  exact payloadsOf_of_map kept tag

/-- Infos were decoded from bytes, one from each and in order. -/
def DecodedFrom (decoder : MessageDecoder Info) (raws : List Bytes) (infos : List Info) : Prop :=
  raws.map decoder.info = infos.map .ok

/-- The items of some peer infos are those of the item fields. -/
theorem decoded_items {decoder : MessageDecoder Info} {fuel : Nat} {items final : List Info}
    {bytes : Bytes}
    (done : mergeFields (mergePeerInfosField decoder) fuel items bytes = .ok final) :
    ∃ raws added, lengthDelimitedFields bytes routePeerInfosItemTag = .ok raws ∧
      final = items ++ added ∧ DecodedFrom decoder raws added := by
  obtain ⟨fields, rfl, wellFormed, raws, added, kept, rfl, decoded⟩ :=
    mergeFields_parse (fun items fields final => ∃ raws added,
      (fields.filter (·.tag = routePeerInfosItemTag)).map (·.lengthDelimited) = raws.map some ∧
        final = items ++ added ∧ DecodedFrom decoder raws added)
      (fun items => ⟨[], [], rfl, (List.append_nil items).symm, rfl⟩)
      (by
        intro items tag wireType input next rest fields final merged later
        obtain ⟨raws, added, kept, rfl, decoded⟩ := later
        unfold mergePeerInfosField at merged
        split at merged
        · rename_i isItem
          subst isItem
          obtain ⟨rfl, expected⟩ := expecting_eq_ok.mp merged
          obtain ⟨info, read, rfl⟩ := andThen_give_eq_ok.mp expected
          obtain ⟨payload, valueRead, isInfo⟩ := mergeMessage_eq_ok read 1
          refine ⟨some payload, valueRead, fun encoded => ⟨payload :: raws, info :: added, ?_,
            by simp, ?_⟩⟩
          · rw [List.filter_cons_of_pos (by rfl), List.map_cons, kept]
            rfl
          · rw [DecodedFrom, List.map_cons, isInfo, decoded]
            rfl
        · rename_i isOther
          change ¬ tag = routePeerInfosItemTag at isOther
          obtain ⟨_, skipped, rfl⟩ := andThen_give_eq_ok.mp merged
          obtain ⟨payload, valueRead⟩ := readValue_of_skipField (skipField_mono skipped)
          refine ⟨payload, valueRead, fun encoded => ⟨raws, added, ?_, rfl, decoded⟩⟩
          rw [List.filter_cons_of_neg (by simpa using isOther), kept]) done
  exact ⟨raws, added, lengthDelimitedFields_of_map wellFormed kept, rfl, decoded⟩

/-- A field of a request other than the peer infos leaves these as they are, and `parse_fields`
takes it. -/
theorem mergeRequestField_other {decoder : MessageDecoder Info}
    {peerInfos next : Option (List Info)}
    {input rest : Bytes} (other : tag ≠ syncRoutePeerInfosTag)
    (merged : mergeRequestField decoder peerInfos tag wireType input = .ok (next, rest)) :
    next = peerInfos ∧ ∃ payload, readValue tag wireType input = .ok (payload, rest) := by
  unfold mergeRequestField at merged
  rw [if_neg (show ¬ tag = 4 from other)] at merged
  split at merged
  · obtain ⟨rfl, expected⟩ := expecting_eq_ok.mp merged
    obtain ⟨number, read, rfl⟩ := andThen_give_eq_ok.mp expected
    exact ⟨rfl, readValue_of_skipField (andThen_give_eq_ok.mpr ⟨number, read, rfl⟩)⟩
  · split at merged
    · obtain ⟨rfl, expected⟩ := expecting_eq_ok.mp merged
      obtain ⟨_, read, rfl⟩ := andThen_give_eq_ok.mp expected
      obtain ⟨payload, valueRead, -⟩ := mergeMessage_eq_ok read tag
      exact ⟨rfl, some payload, valueRead⟩
    · obtain ⟨_, skipped, rfl⟩ := andThen_give_eq_ok.mp merged
      exact ⟨rfl, readValue_of_skipField skipped⟩

/-- The peer infos of a request are those of its peer infos fields, one after the other. -/
theorem decoded_request {decoder : MessageDecoder Info} {request : Bytes}
    {peerInfos : Option (List Info)} (done : decodePeerInfos decoder request = .ok peerInfos) :
    ∃ raws, extractRoutePeerInfos request = .ok raws ∧
      DecodedFrom decoder raws (peerInfos.getD []) := by
  obtain ⟨fields, rfl, wellFormed, payloads, raws, added, kept, extracted, final, decoded⟩ :=
    mergeFields_parse (fun before fields after => ∃ payloads raws added,
      (fields.filter (·.tag = syncRoutePeerInfosTag)).map (·.lengthDelimited) = payloads.map some ∧
        extractFrom payloads = .ok raws ∧ after.getD [] = before.getD [] ++ added ∧
        DecodedFrom decoder raws added)
      (fun before => ⟨[], [], [], rfl, rfl, (List.append_nil _).symm, rfl⟩)
      (by
        intro before tag wireType input next rest fields after merged later
        obtain ⟨payloads, raws, added, kept, extracted, final, decoded⟩ := later
        by_cases isInfos : tag = syncRoutePeerInfosTag
        · subst isInfos
          obtain ⟨rfl, expected⟩ := expecting_eq_ok.mp merged
          obtain ⟨items, read, rfl⟩ := andThen_give_eq_ok.mp expected
          obtain ⟨payload, valueRead, isItems⟩ := mergeMessage_eq_ok read syncRoutePeerInfosTag
          obtain ⟨first, firstAdded, found, rfl, firstDecoded⟩ := decoded_items isItems
          refine ⟨some payload, valueRead, fun encoded => ⟨payload :: payloads, first ++ raws,
            firstAdded ++ added, ?_, ?_, ?_, ?_⟩⟩
          · rw [List.filter_cons_of_pos (by rfl), List.map_cons, kept]
            rfl
          · rw [extractFrom, found, extracted]
            rfl
          · rw [final, Option.getD_some, List.append_assoc]
          · rw [DecodedFrom, List.map_append, firstDecoded, decoded, List.map_append]
        · obtain ⟨rfl, payload, valueRead⟩ := mergeRequestField_other isInfos merged
          refine ⟨payload, valueRead, fun encoded => ⟨payloads, raws, added, ?_, extracted, final,
            decoded⟩⟩
          rw [List.filter_cons_of_neg (by simpa using isInfos), kept]) done
  refine ⟨raws, ?_, ?_⟩
  · rw [extractRoutePeerInfos, lengthDelimitedFields_of_map wellFormed kept]
    exact extracted
  · rw [final]
    exact decoded

/-! ## Hops -/

/-- The infos are sent on from hop to hop, each hop in a request of its own. -/
def relay (hops : List (SyncRouteInfoRequest Info)) (raws : List Bytes) :
    Except WireError (List Bytes) :=
  hops.foldlM (fun raws request => (encodeSyncRouteRequest request raws).bind extractRoutePeerInfos)
    raws

/-- A request with as many peer infos as there are raw ones, and whose bytes fit into memory. -/
def Carries (raws : List Bytes) : Prop :=
  (∃ infos, request.peerInfos = some infos ∧ infos.length = raws.length) ∧
    ∀ bytes, encodeSyncRouteRequest request raws = .ok bytes → bytes.length < 2 ^ 63

theorem Carries.extracted {request : SyncRouteInfoRequest Info} {raws : List Bytes}
    (carries : Carries request raws) :
    ∃ bytes, encodeSyncRouteRequest request raws = .ok bytes ∧
      extractRoutePeerInfos bytes = .ok raws := by
  obtain ⟨⟨infos, present, counted⟩, short⟩ := carries
  have encoded := encodeSyncRouteRequest_eq_ok present counted
  exact ⟨_, encoded, extract_requestFields request raws (short _ encoded)⟩

theorem relay_eq {hops : List (SyncRouteInfoRequest Info)} {raws : List Bytes}
    (carry : ∀ request ∈ hops, Carries request raws) : relay hops raws = .ok raws := by
  induction hops with
  | nil => rfl
  | cons request hops ih =>
    obtain ⟨bytes, encoded, extracted⟩ := (carry request List.mem_cons_self).extracted
    have first : (encodeSyncRouteRequest request raws).bind extractRoutePeerInfos = .ok raws := by
      rw [encoded]
      exact extracted
    rw [relay, List.foldlM_cons, first]
    exact ih fun other later => carry other (List.mem_cons_of_mem _ later)

/-- Route records are reflected byte for byte: what is put into a request is taken out of it, what
is taken out of any bytes are the records their decoding finds, in its order, and hops change
nothing. -/
theorem raw_records_reflected (Info : Type) :
    (∀ (request : SyncRouteInfoRequest Info) raws, Carries request raws →
      ∃ bytes, encodeSyncRouteRequest request raws = .ok bytes ∧
        extractRoutePeerInfos bytes = .ok raws) ∧
    (∀ (decoder : MessageDecoder Info) request peerInfos,
      decodePeerInfos decoder request = .ok peerInfos →
      ∃ raws, extractRoutePeerInfos request = .ok raws ∧
        raws.length = (peerInfos.getD []).length ∧
        raws.map decoder.info = (peerInfos.getD []).map .ok) ∧
    ∀ (hops : List (SyncRouteInfoRequest Info)) raws,
      (∀ request ∈ hops, Carries request raws) → relay hops raws = .ok raws := by
  refine ⟨fun request raws carries => carries.extracted, fun decoder request peerInfos done => ?_,
    fun hops raws => relay_eq⟩
  obtain ⟨raws, extracted, decoded⟩ := decoded_request done
  exact ⟨raws, extracted, by simpa using congrArg List.length decoded, decoded⟩

end EasyTier.Route.RoutePeerWire
