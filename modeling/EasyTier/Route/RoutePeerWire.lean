import EasyTier.Data.WireFormat

/-! # Editing encoded route records

Peer infos are passed on in the bytes they came in. `parse_fields` cuts a message into its fields
and loses nothing: the fields' bytes, one after the other, are the message. So fields can be taken
out of a message and put into it without disturbing the others.
-/

namespace EasyTier.Route.RoutePeerWire

open Data Data.WireFormat Data.WireFormat.Reader

def syncRoutePeerInfosTag : Nat := 4
def routePeerInfosItemTag : Nat := 1
def routePeerInfoProxyCidrsTag : Nat := 5
def routePeerInfoFeatureFlagTag : Nat := 11
def featureFlagIsCredentialPeerTag : Nat := 8

inductive WireError where
  | decode (error : DecodeError)
  | wrongWireType (tag : Nat) (actual expected : WireType)
  | truncatedLengthDelimited
  | peerInfoCountMismatch
  deriving DecidableEq, Repr

structure WireField where
  tag : Nat
  wireType : WireType
  encoded : Bytes
  lengthDelimited : Option Bytes
  deriving DecidableEq, Repr

/-! ## Parsing -/

/-- A reader of the wire format, its errors passed on. -/
def decoding {Value : Type} (read : Reader DecodeError Value) : Reader WireError Value :=
  fun input => (read input).mapError .decode

/-- The value of a field after its key; only the bytes of length-delimited values are kept. -/
def readValue (tag : Nat) (wireType : WireType) : Reader WireError (Option Bytes) :=
  if wireType = .lengthDelimited then
    (decoding decodeVarint).andThen fun length =>
      (take .truncatedLengthDelimited length).andThen fun payload => give (.ok (some payload))
  else
    (decoding (skipField recursionLimit wireType tag)).andThen fun _ => give (.ok none)

def readField : Reader WireError ((Nat × WireType) × Option Bytes) :=
  (decoding decodeKey).andThen fun (tag, wireType) =>
    (readValue tag wireType).andThen fun payload => give (.ok ((tag, wireType), payload))

/-- One turn of the loop of `parse_fields`. -/
def parseField : Reader WireError WireField := fun input =>
  (readField input).map fun (parts, rest) =>
    ({ tag := parts.1.1
       wireType := parts.1.2
       encoded := input.take (input.length - rest.length)
       lengthDelimited := parts.2 }, rest)

def parseFieldsFrom : Nat → Bytes → Except WireError (List WireField)
  | _, [] => .ok []
  -- not reached: every field takes a byte
  | 0, _ :: _ => .ok []
  | fuel + 1, byte :: input =>
    (parseField (byte :: input)).bind fun (field, rest) =>
      (parseFieldsFrom fuel rest).map (field :: ·)

/-- `parse_fields`. -/
def parseFields (message : Bytes) : Except WireError (List WireField) :=
  parseFieldsFrom message.length message

theorem decoding_local {Value : Type} {read : Reader DecodeError Value} (reads : Local read) :
    Local (decoding read) := by
  intro input value rest done
  unfold decoding at done
  cases begun : read input with
  | error error =>
    rw [begun] at done
    cases done
  | ok result =>
    rw [begun] at done
    cases done
    obtain ⟨taken, rfl, again⟩ := reads begun
    refine ⟨taken, rfl, fun other => ?_⟩
    rw [decoding, again]
    rfl

theorem decoding_reads {Value : Type} {read : Reader DecodeError Value} {taken : Bytes}
    {value : Value} (reads : Reads read taken value) : Reads (decoding read) taken value := by
  intro rest
  rw [decoding, reads]
  rfl

theorem readValue_local (tag : Nat) (wireType : WireType) : Local (readValue tag wireType) := by
  unfold readValue
  split
  · exact (decoding_local decodeVarint_local).andThen fun _ =>
      (Local.take _ _).andThen fun _ => Local.give _
  · exact (decoding_local (skipField_local _ _ _)).andThen fun _ => Local.give _

theorem readField_local : Local readField :=
  (decoding_local decodeKey_local).andThen fun _ =>
    (readValue_local _ _).andThen fun _ => Local.give _

/-- A field that is read from its own bytes, whatever follows them. -/
def WireField.WellFormed (field : WireField) : Prop := Reads parseField field.encoded field

variable {tag : Nat} {field : WireField} {fields : List WireField}

/-- Bytes of a field, and its parts, make the field that is parsed from them. -/
theorem parseField_reads {taken : Bytes} {wireType : WireType} {payload : Option Bytes}
    (reads : Reads readField taken ((tag, wireType), payload)) :
    Reads parseField taken ⟨tag, wireType, taken, payload⟩ := by
  intro rest
  rw [parseField, reads]
  simp [Except.map]

theorem parseField_eq_ok {input rest : Bytes} (done : parseField input = .ok (field, rest)) :
    input = field.encoded ++ rest ∧ field.WellFormed := by
  unfold parseField at done
  cases begun : readField input with
  | error error =>
    rw [begun] at done
    cases done
  | ok result =>
    rw [begun] at done
    obtain ⟨⟨⟨tag, wireType⟩, payload⟩, after⟩ := result
    obtain ⟨taken, rfl, reads⟩ := readField_local begun
    cases done
    have front : (taken ++ rest).take ((taken ++ rest).length - rest.length) = taken := by simp
    rw [front]
    refine ⟨rfl, ?_⟩
    exact parseField_reads reads

theorem WireField.WellFormed.length_pos (wellFormed : field.WellFormed) :
    0 < field.encoded.length := by
  cases front : field.encoded with
  | nil =>
    have read := wellFormed []
    rw [front] at read
    cases read
  | cons byte rest => exact Nat.succ_pos _

theorem parseFieldsFrom_wellFormed (wellFormed : field.WellFormed) (fuel : Nat) (rest : Bytes) :
    parseFieldsFrom (fuel + 1) (field.encoded ++ rest) =
      (parseFieldsFrom fuel rest).map (field :: ·) := by
  have read := wellFormed rest
  have positive := wellFormed.length_pos
  cases whole : field.encoded ++ rest with
  | nil =>
    rw [(List.append_eq_nil_iff.mp whole).1] at positive
    exact absurd positive (Nat.lt_irrefl 0)
  | cons byte input =>
    rw [whole] at read
    rw [parseFieldsFrom, read]
    rfl

theorem parseFieldsFrom_nil_iff {fuel : Nat} :
    parseFieldsFrom fuel [] = .ok fields ↔
      [] = fields.flatMap (·.encoded) ∧ ∀ field ∈ fields, field.WellFormed := by
  have none : parseFieldsFrom fuel [] = .ok [] := by cases fuel <;> rfl
  rw [none]
  constructor
  · rintro ⟨⟩
    exact ⟨rfl, fun field inside => absurd inside List.not_mem_nil⟩
  · rintro ⟨empty, wellFormed⟩
    cases fields with
    | nil => rfl
    | cons field fields =>
      have positive := (wellFormed field (List.mem_cons_self ..)).length_pos
      have noBytes : field.encoded = [] := (List.append_eq_nil_iff.mp empty.symm).1
      rw [noBytes] at positive
      exact absurd positive (Nat.lt_irrefl 0)

theorem parseFieldsFrom_eq_ok_iff {message : Bytes} {fuel : Nat} (enough : message.length ≤ fuel) :
    parseFieldsFrom fuel message = .ok fields ↔
      message = fields.flatMap (·.encoded) ∧ ∀ field ∈ fields, field.WellFormed := by
  induction fuel generalizing message fields with
  | zero =>
    obtain rfl : message = [] := List.eq_nil_of_length_eq_zero (Nat.le_zero.mp enough)
    exact parseFieldsFrom_nil_iff
  | succ fuel ih =>
    cases message with
    | nil => exact parseFieldsFrom_nil_iff
    | cons byte input =>
      constructor
      · intro done
        rw [parseFieldsFrom] at done
        cases first : parseField (byte :: input) with
        | error error =>
          rw [first] at done
          cases done
        | ok result =>
          obtain ⟨field, rest⟩ := result
          obtain ⟨whole, wellFormed⟩ := parseField_eq_ok first
          have positive := wellFormed.length_pos
          have shorter : rest.length ≤ fuel := by
            have lengths := congrArg List.length whole
            simp only [List.length_append] at lengths
            omega
          rw [first] at done
          cases others : parseFieldsFrom fuel rest with
          | error error => simp [Except.bind, Except.map, others] at done
          | ok later =>
            obtain ⟨isRest, allWellFormed⟩ := (ih shorter).mp others
            simp only [Except.bind, others, Except.map, Except.ok.injEq] at done
            subst done
            rw [whole, List.flatMap_cons, ← isRest]
            exact ⟨rfl, List.forall_mem_cons.mpr ⟨wellFormed, allWellFormed⟩⟩
      · rintro ⟨whole, wellFormed⟩
        cases fields with
        | nil => cases whole
        | cons field fields =>
          obtain ⟨isField, areFields⟩ := List.forall_mem_cons.mp wellFormed
          have positive := isField.length_pos
          have shorter : (fields.flatMap (·.encoded)).length ≤ fuel := by
            have lengths := congrArg List.length whole
            rw [List.flatMap_cons, List.length_append] at lengths
            omega
          rw [whole, List.flatMap_cons, parseFieldsFrom_wellFormed isField,
            (ih shorter).mpr ⟨rfl, areFields⟩]
          rfl

/-- A message is the bytes of its fields, and bytes of fields make a message with those fields. -/
theorem parseFields_eq_ok_iff {message : Bytes} :
    parseFields message = .ok fields ↔
      message = fields.flatMap (·.encoded) ∧ ∀ field ∈ fields, field.WellFormed :=
  parseFieldsFrom_eq_ok_iff (Nat.le_refl _)

/-! ## Editing -/

/-- The payloads of fields, which all have to be length-delimited. -/
def payloadsOf (tag : Nat) : List WireField → Except WireError (List Bytes)
  | [] => .ok []
  | field :: fields =>
    match field.lengthDelimited with
    | none => .error (.wrongWireType tag field.wireType .lengthDelimited)
    | some payload => (payloadsOf tag fields).map (payload :: ·)

/-- `length_delimited_fields`. -/
def lengthDelimitedFields (message : Bytes) (tag : Nat) : Except WireError (List Bytes) :=
  (parseFields message).bind fun fields => payloadsOf tag (fields.filter (·.tag = tag))

/-- The loop of `replace_fields`. -/
def keepFields (tag : Nat) (expected : WireType) : List WireField → Except WireError Bytes
  | [] => .ok []
  | field :: fields =>
    if field.tag ≠ tag then (keepFields tag expected fields).map (field.encoded ++ ·)
    else if field.wireType ≠ expected then
      .error (.wrongWireType tag field.wireType expected)
    else keepFields tag expected fields

/-- `replace_fields`. -/
def replaceFields (message : Bytes) (tag : Nat) (expected : WireType) (replacement : Bytes) :
    Except WireError Bytes :=
  (parseFields message).bind fun fields => (keepFields tag expected fields).map (· ++ replacement)

/-- `append_length_delimited_field`. -/
def appendLengthDelimitedField (output : Bytes) (tag : Nat) (payload : Bytes) : Bytes :=
  output ++ encodeKey tag .lengthDelimited ++ encodeVarint payload.length ++ payload

/-- `append_varint_field`. -/
def appendVarintField (output : Bytes) (tag value : Nat) : Bytes :=
  output ++ encodeKey tag .varint ++ encodeVarint value

/-- `merged_length_delimited_field`. -/
def mergedLengthDelimitedField (message : Bytes) (tag : Nat) : Except WireError Bytes :=
  (lengthDelimitedFields message tag).map List.flatten

/-- `patch_credential_route_peer_info`, for the bytes of the strings. -/
def patchCredentialRoutePeerInfo (raw : Bytes) (proxyCidrs : List Bytes) :
    Except WireError Bytes := do
  let proxyCidrFields := proxyCidrs.foldl
    (fun output cidr => appendLengthDelimitedField output routePeerInfoProxyCidrsTag cidr) []
  let routeInfo ← replaceFields raw routePeerInfoProxyCidrsTag .lengthDelimited proxyCidrFields
  let featureFlag ← mergedLengthDelimitedField routeInfo routePeerInfoFeatureFlagTag
  let credentialFlag := appendVarintField [] featureFlagIsCredentialPeerTag 1
  let featureFlag ←
    replaceFields featureFlag featureFlagIsCredentialPeerTag .varint credentialFlag
  let featureFlagField := appendLengthDelimitedField [] routePeerInfoFeatureFlagTag featureFlag
  replaceFields routeInfo routePeerInfoFeatureFlagTag .lengthDelimited featureFlagField

/-! ## What editing does to the fields -/

/-- A field as `append_length_delimited_field` writes it. -/
def lengthDelimitedField (tag : Nat) (payload : Bytes) : WireField where
  tag := tag
  wireType := .lengthDelimited
  encoded := encodeKey tag .lengthDelimited ++ encodeVarint payload.length ++ payload
  lengthDelimited := some payload

/-- A field as `append_varint_field` writes it. -/
def varintField (tag value : Nat) : WireField where
  tag := tag
  wireType := .varint
  encoded := encodeKey tag .varint ++ encodeVarint value
  lengthDelimited := none

theorem lengthDelimitedField_wellFormed (positive : 0 < tag) (small : tag < 2 ^ 29)
    {payload : Bytes} (short : payload.length < 2 ^ 64) :
    (lengthDelimitedField tag payload).WellFormed := by
  have value : Reads (readValue tag .lengthDelimited) (encodeVarint payload.length ++ payload)
      (some payload) := by
    unfold readValue
    rw [if_pos rfl]
    refine (decoding_reads (encodeVarint_reads short)).andThen fun rest => ?_
    rw [andThen_eq_ok]
    exact ⟨payload, rest, Reads.take _ payload rest, rfl⟩
  have whole : Reads readField (lengthDelimitedField tag payload).encoded
      ((tag, .lengthDelimited), some payload) := by
    rw [lengthDelimitedField, List.append_assoc]
    refine (decoding_reads (encodeKey_reads positive small .lengthDelimited)).andThen fun rest => ?_
    rw [andThen_eq_ok]
    exact ⟨some payload, rest, value rest, rfl⟩
  exact parseField_reads whole

theorem varintField_wellFormed (positive : 0 < tag) (small : tag < 2 ^ 29)
    {value : Nat} (fits : value < 2 ^ 64) : (varintField tag value).WellFormed := by
  have skipped : Reads (skipField recursionLimit .varint tag) (encodeVarint value) () := by
    intro rest
    rw [recursionLimit, skipField, andThen_eq_ok]
    exact ⟨value, rest, encodeVarint_reads fits rest, rfl⟩
  have readsValue : Reads (readValue tag .varint) (encodeVarint value) none := by
    unfold readValue
    rw [if_neg (by decide)]
    intro rest
    rw [andThen_eq_ok]
    exact ⟨(), rest, decoding_reads skipped rest, rfl⟩
  have whole : Reads readField (varintField tag value).encoded ((tag, .varint), none) := by
    refine (decoding_reads (encodeKey_reads positive small .varint)).andThen fun rest => ?_
    rw [andThen_eq_ok]
    exact ⟨none, rest, readsValue rest, rfl⟩
  exact parseField_reads whole

/-- The payload of a value is kept exactly if the value is length-delimited, and is the end of its
bytes. -/
theorem readValue_payload {wireType : WireType} {input rest : Bytes}
    {payload : Option Bytes} (done : readValue tag wireType input = .ok (payload, rest)) :
    if wireType = .lengthDelimited then
      ∃ front bytes, payload = some bytes ∧ input = front ++ (bytes ++ rest)
    else payload = none := by
  unfold readValue at done
  split at done
  · rename_i delimited
    rw [if_pos delimited]
    obtain ⟨length, middle, lengthRead, ended⟩ := andThen_eq_ok.mp done
    obtain ⟨bytes, last, taken, given⟩ := andThen_eq_ok.mp ended
    cases given
    obtain ⟨front, rfl, -⟩ := decoding_local decodeVarint_local lengthRead
    exact ⟨front, bytes, rfl, by rw [(take_eq_ok_iff.mp taken).2]⟩
  · rename_i other
    rw [if_neg other]
    obtain ⟨_, last, skipped, given⟩ := andThen_eq_ok.mp done
    cases given
    rfl

theorem WireField.WellFormed.payload (wellFormed : field.WellFormed) :
    if field.wireType = .lengthDelimited then
      ∃ payload, field.lengthDelimited = some payload ∧
        payload.length ≤ field.encoded.length
    else field.lengthDelimited = none := by
  have read := wellFormed []
  rw [List.append_nil, parseField] at read
  cases begun : readField field.encoded with
  | error error =>
    rw [begun] at read
    cases read
  | ok result =>
    obtain ⟨⟨⟨tag, wireType⟩, payload⟩, rest⟩ := result
    rw [begun] at read
    simp only [Except.map, Except.ok.injEq, Prod.mk.injEq] at read
    obtain ⟨isField, rfl⟩ := read
    obtain ⟨_, afterKey, keyRead, ended⟩ := andThen_eq_ok.mp begun
    obtain ⟨_, last, valueRead, given⟩ := andThen_eq_ok.mp ended
    cases given
    have kept := readValue_payload valueRead
    rw [← isField]
    split at kept
    · rename_i delimited
      rw [if_pos delimited]
      obtain ⟨front, bytes, isPayload, whole⟩ := kept
      obtain ⟨key, all, -⟩ := decoding_local decodeKey_local keyRead
      refine ⟨bytes, isPayload, ?_⟩
      rw [List.length_take, all, whole]
      simp
      omega
    · rename_i other
      rw [if_neg other]
      exact kept

/-! ## Messages as lists of fields -/

/-- The bytes of fields. -/
def encodeFields (fields : List WireField) : Bytes := fields.flatMap (·.encoded)

theorem encodeFields_append (fields more : List WireField) :
    encodeFields (fields ++ more) = encodeFields fields ++ encodeFields more :=
  List.flatMap_append

section

variable (wellFormed : ∀ field ∈ fields, field.WellFormed)
include wellFormed

theorem parseFields_encodeFields :
    parseFields (encodeFields fields) = .ok fields :=
  parseFields_eq_ok_iff.mpr ⟨rfl, wellFormed⟩

theorem payloadsOf_eq_ok
    (delimited : ∀ field ∈ fields, field.wireType = .lengthDelimited) (tag : Nat) :
    payloadsOf tag fields = .ok (fields.map fun field => field.lengthDelimited.getD []) := by
  induction fields with
  | nil => rfl
  | cons field fields ih =>
    obtain ⟨isField, areFields⟩ := List.forall_mem_cons.mp wellFormed
    obtain ⟨isDelimited, areDelimited⟩ := List.forall_mem_cons.mp delimited
    have kept := isField.payload
    rw [if_pos isDelimited] at kept
    obtain ⟨payload, found, -⟩ := kept
    rw [payloadsOf, found]
    rw [ih areFields areDelimited]
    simp [Except.map, found]

omit wellFormed in
theorem keepFields_eq_ok {expected : WireType}
    (typed : ∀ field ∈ fields, field.tag = tag → field.wireType = expected) :
    keepFields tag expected fields = .ok (encodeFields (fields.filter (·.tag ≠ tag))) := by
  induction fields with
  | nil => rfl
  | cons field fields ih =>
    obtain ⟨isTyped, areTyped⟩ := List.forall_mem_cons.mp typed
    rw [keepFields, ih areTyped]
    by_cases same : field.tag = tag
    · rw [if_neg (not_not.mpr same), if_neg (not_not.mpr (isTyped same)),
        List.filter_cons_of_neg (by simpa using same)]
    · rw [if_pos same, List.filter_cons_of_pos (by simpa using same)]
      rfl

/-- Fields of a tag are taken out and others are put at the end. -/
theorem replaceFields_eq_ok {expected : WireType}
    (typed : ∀ field ∈ fields, field.tag = tag → field.wireType = expected)
    (replacement : List WireField) :
    replaceFields (encodeFields fields) tag expected (encodeFields replacement) =
      .ok (encodeFields (fields.filter (·.tag ≠ tag) ++ replacement)) := by
  rw [replaceFields, parseFields_encodeFields wellFormed]
  dsimp only [Except.bind]
  rw [keepFields_eq_ok typed, encodeFields_append]
  rfl

end

/-- The payloads of the fields of a tag, one after the other. -/
def mergedPayload (tag : Nat) (fields : List WireField) : Bytes :=
  (fields.filter (·.tag = tag)).flatMap fun field => field.lengthDelimited.getD []

section

variable (wellFormed : ∀ field ∈ fields, field.WellFormed)
    (delimited : ∀ field ∈ fields, field.tag = tag → field.wireType = .lengthDelimited)
include wellFormed delimited

theorem lengthDelimitedFields_eq_ok :
    lengthDelimitedFields (encodeFields fields) tag =
      .ok ((fields.filter (·.tag = tag)).map fun field => field.lengthDelimited.getD []) := by
  rw [lengthDelimitedFields, parseFields_encodeFields wellFormed]
  refine payloadsOf_eq_ok (fun field kept => ?_) (fun field kept => ?_) tag
  · exact wellFormed field (List.mem_of_mem_filter kept)
  · exact delimited field (List.mem_of_mem_filter kept) (by simpa using List.of_mem_filter kept)

theorem mergedLengthDelimitedField_eq_ok :
    mergedLengthDelimitedField (encodeFields fields) tag = .ok (mergedPayload tag fields) := by
  rw [mergedLengthDelimitedField, lengthDelimitedFields_eq_ok wellFormed delimited]
  simp [Except.map, mergedPayload, List.flatMap_def]

end

theorem foldl_appendLengthDelimitedField (tag : Nat) (payloads : List Bytes) (start : Bytes) :
    payloads.foldl (fun output payload => appendLengthDelimitedField output tag payload) start =
      start ++ encodeFields (payloads.map (lengthDelimitedField tag)) := by
  induction payloads generalizing start with
  | nil => exact (List.append_nil start).symm
  | cons payload payloads ih =>
    rw [List.foldl_cons, ih]
    simp [appendLengthDelimitedField, encodeFields, lengthDelimitedField]

end EasyTier.Route.RoutePeerWire
