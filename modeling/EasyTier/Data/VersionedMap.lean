import Mathlib.Algebra.Ring.Nat
import Mathlib.Data.List.AList
import Mathlib.Order.Bounds.Defs

/-! # Maps that keep the newest version of every entry

An entry is taken if its key is new or its version is larger than the stored one. What a map ends
with depends on the entries it was offered, not on their order or how often they came. Maps are
association lists, in which an insertion moves its key to the front.
-/

namespace EasyTier.Data.VersionedMap

universe u v w

variable {Key : Type u} {Entry : Type v} {Content : Type w} [DecidableEq Key]

/-- The newer of a stored entry, if there is one, and an offered one; the stored one wins ties. -/
def newer (version : Entry → Nat) (stored : Option Entry) (offered : Entry) : Option Entry :=
  if stored.all (version · < version offered) then some offered else stored

/-- Offer an entry to the map. -/
def offer (version : Entry → Nat) (map : AList fun _ : Key => Entry) (key : Key) (entry : Entry) :
    AList fun _ : Key => Entry :=
  if (map.lookup key).all (version · < version entry) then map.insert key entry else map

/-- Offer entries one after the other. -/
def offers (version : Entry → Nat) (map : AList fun _ : Key => Entry)
    (entries : List (Key × Entry)) : AList fun _ : Key => Entry :=
  entries.foldl (fun map offered => offer version map offered.1 offered.2) map

variable {version : Entry → Nat}

section

variable (map : AList fun _ : Key => Entry)

theorem lookup_offer (key other : Key) (entry : Entry) :
    (offer version map key entry).lookup other =
      if other = key then newer version (map.lookup key) entry else map.lookup other := by
  unfold offer newer
  by_cases same : other = key
  · subst same
    rw [if_pos rfl]
    split
    · exact AList.lookup_insert map
    · rfl
  · split
    · exact AList.lookup_insert_ne same
    · rfl

theorem offers_append (first second : List (Key × Entry)) :
    offers version map (first ++ second) = offers version (offers version map first) second :=
  List.foldl_append

end

/-- What is stored never gets older. -/
theorem newer_keeps {stored : Option Entry} {old : Entry} (found : stored = some old)
    (offered : Entry) :
    ∃ kept, newer version stored offered = some kept ∧ version old ≤ version kept := by
  subst found
  unfold newer
  split
  · rename_i larger
    exact ⟨offered, rfl, Nat.le_of_lt (by simpa using larger)⟩
  · exact ⟨old, rfl, Nat.le_refl _⟩

theorem newer_covers (stored : Option Entry) (offered : Entry) :
    ∃ kept, newer version stored offered = some kept ∧ version offered ≤ version kept := by
  unfold newer
  split
  · exact ⟨offered, rfl, Nat.le_refl _⟩
  · rename_i notLarger
    cases stored with
    | none => exact absurd rfl notLarger
    | some old => exact ⟨old, rfl, by simpa using notLarger⟩

variable {key : Key} {map : AList fun _ : Key => Entry} {entries : List (Key × Entry)}

/-- Offers never make an entry older. -/
theorem lookup_offers_keeps {old : Entry}
    (found : map.lookup key = some old) (entries : List (Key × Entry)) :
    ∃ kept, (offers version map entries).lookup key = some kept ∧ version old ≤ version kept := by
  induction entries generalizing map old with
  | nil => exact ⟨old, found, Nat.le_refl _⟩
  | cons offered entries ih =>
    have step : ∃ kept, (offer version map offered.1 offered.2).lookup key = some kept ∧
        version old ≤ version kept := by
      rw [lookup_offer]
      split
      · rename_i same
        rw [same] at found
        exact newer_keeps found offered.2
      · exact ⟨old, found, Nat.le_refl _⟩
    obtain ⟨middle, stored, older⟩ := step
    obtain ⟨kept, last, newest⟩ := ih stored
    exact ⟨kept, last, Nat.le_trans older newest⟩

/-- The entry a key ends with is at least as new as every entry offered for it. -/
theorem lookup_offers_covers {entry : Entry} (offered : (key, entry) ∈ entries) :
    ∃ kept, (offers version map entries).lookup key = some kept ∧ version entry ≤ version kept := by
  induction entries generalizing map with
  | nil => cases offered
  | cons first entries ih =>
    rcases List.mem_cons.mp offered with rfl | later
    · have step : ∃ kept, (offer version map key entry).lookup key = some kept ∧
          version entry ≤ version kept := by
        rw [lookup_offer, if_pos rfl]
        exact newer_covers _ entry
      obtain ⟨middle, stored, older⟩ := step
      obtain ⟨kept, last, newest⟩ := lookup_offers_keeps stored entries
      exact ⟨kept, last, Nat.le_trans older newest⟩
    · exact ih later

/-- The entry a key ends with was there, or was offered and beat what was there. -/
theorem lookup_offers_origin
    {kept : Entry} (last : (offers version map entries).lookup key = some kept) :
    map.lookup key = some kept ∨
      (key, kept) ∈ entries ∧ ∀ old, map.lookup key = some old → version old < version kept := by
  induction entries generalizing map with
  | nil => exact .inl last
  | cons first entries ih =>
    rcases ih last with stored | ⟨later, beats⟩
    · rw [lookup_offer] at stored
      split at stored
      · rename_i same
        unfold newer at stored
        split at stored
        · rename_i larger
          cases stored
          refine .inr ⟨by simp [same], fun old found => ?_⟩
          rw [same] at found
          simpa [found] using larger
        · rw [same]
          exact .inl stored
      · exact .inl stored
    · refine .inr ⟨List.mem_cons_of_mem _ later, fun old found => ?_⟩
      obtain ⟨middle, stored, older⟩ := lookup_offers_keeps found [first]
      exact Nat.lt_of_le_of_lt older (beats middle stored)

/-- The entries offered for a key, up to what their content leaves out. -/
def Offered (content : Entry → Content) (entries : List (Key × Entry)) (key : Key)
    (value : Content) : Prop :=
  ∃ entry, (key, entry) ∈ entries ∧ content entry = value

section Convergence

variable {content : Entry → Content}
  {first second : List (Key × Entry)}

section

variable (versions : ∀ a b, content a = content b → version a = version b)
    (same : ∀ value, Offered content first key value ↔ Offered content second key value)
    (determined : ∀ a b, (key, a) ∈ first → (key, b) ∈ second → version a = version b →
      content a = content b)
include versions same determined

/-- What one order ends with, another order of the same offers ends with too. -/
theorem lookup_offers_transfer {kept : Entry}
    (last : (offers version map first).lookup key = some kept) :
    ∃ other, (offers version map second).lookup key = some other ∧
      content other = content kept := by
  rcases lookup_offers_origin last with stored | ⟨offered, beats⟩
  · obtain ⟨other, ends, older⟩ := lookup_offers_keeps stored second
    refine ⟨other, ends, ?_⟩
    rcases lookup_offers_origin ends with again | ⟨there, larger⟩
    · rw [stored, Option.some.injEq] at again
      rw [again]
    · -- the larger version was offered in the first order as well
      obtain ⟨twin, here, alike⟩ := (same _).mpr ⟨other, there, rfl⟩
      obtain ⟨top, isLast, bound⟩ : ∃ top, (offers version map first).lookup key = some top ∧
          version twin ≤ version top := lookup_offers_covers here
      rw [last, Option.some.injEq] at isLast
      subst isLast
      have := larger kept stored
      have := versions _ _ alike
      omega
  · obtain ⟨twin, there, alike⟩ := (same _).mp ⟨kept, offered, rfl⟩
    obtain ⟨other, ends, covers⟩ := lookup_offers_covers there
    refine ⟨other, ends, ?_⟩
    rw [versions _ _ alike] at covers
    rcases lookup_offers_origin ends with stored | ⟨there, _⟩
    · exact absurd (beats other stored) (Nat.not_lt.mpr covers)
    obtain ⟨back, here, alike⟩ := (same _).mpr ⟨other, there, rfl⟩
    obtain ⟨top, isLast, bound⟩ := lookup_offers_covers here
    rw [last, Option.some.injEq] at isLast
    subst isLast
    rw [versions _ _ alike] at bound
    exact (determined kept other offered there (Nat.le_antisymm covers bound)).symm

/-- Two orders of the same offers, with any repetitions, end with the same content. -/
theorem lookup_offers_converge :
    ((offers version map first).lookup key).map content =
      ((offers version map second).lookup key).map content := by
  apply Option.ext
  intro value
  simp only [Option.map_eq_some_iff]
  constructor
  · rintro ⟨kept, last, rfl⟩
    exact lookup_offers_transfer versions same determined last
  · rintro ⟨kept, last, rfl⟩
    refine lookup_offers_transfer versions (fun value => (same value).symm) ?_ last
    intro a b there here equal
    exact (determined b a here there equal.symm).symm

end

end Convergence

/-! ## Messages that offer entries -/

section Messages

variable {Message : Type*} {content : Entry → Content}
  {items : Message → List (Key × Entry)} {stamp : Nat → Entry → Entry}
  {messages : List (Message × Nat)}

/-- Content leaves the time out and keeps the version. -/
structure Stamping (version : Entry → Nat) (content : Entry → Content)
    (stamp : Nat → Entry → Entry) : Prop where
  unstamped : ∀ now entry, content (stamp now entry) = content entry
  versions : ∀ a b, content a = content b → version a = version b

/-- The entries that messages offer, each stamped with the time its message came. -/
def stamped (items : Message → List (Key × Entry)) (stamp : Nat → Entry → Entry)
    (messages : List (Message × Nat)) : List (Key × Entry) :=
  messages.flatMap fun (message, now) => (items message).map (Prod.map id (stamp now))

section

variable (stamping : Stamping version content stamp)
include stamping

omit [DecidableEq Key] in
theorem offered_stamped
    {key : Key} {value : Content} :
    Offered content (stamped items stamp messages) key value ↔
      ∃ message ∈ messages.map Prod.fst, Offered content (items message) key value := by
  constructor
  · rintro ⟨entry, offered, rfl⟩
    obtain ⟨⟨message, now⟩, sent, inside⟩ := List.mem_flatMap.mp offered
    obtain ⟨⟨_, original⟩, item, same⟩ := List.mem_map.mp inside
    cases same
    exact ⟨message, List.mem_map.mpr ⟨_, sent, rfl⟩, original, item,
      (stamping.unstamped now original).symm⟩
  · rintro ⟨message, sent, entry, item, rfl⟩
    obtain ⟨⟨_, now⟩, timed, rfl⟩ := List.mem_map.mp sent
    refine ⟨stamp now entry, ?_, stamping.unstamped now entry⟩
    exact List.mem_flatMap.mpr ⟨_, timed, List.mem_map.mpr ⟨_, item, rfl⟩⟩

/-- Messages received in two orders, with any repetitions and at any times, leave the same
content. -/
theorem lookup_stamped_converge
    {first second : List (Message × Nat)}
    (same : ∀ message, message ∈ first.map Prod.fst ↔ message ∈ second.map Prod.fst)
    (determined : ∀ one ∈ first.map Prod.fst, ∀ other ∈ first.map Prod.fst, ∀ key a b,
      (key, a) ∈ items one → (key, b) ∈ items other → version a = version b →
        content a = content b) (key : Key) :
    ((offers version map (stamped items stamp first)).lookup key).map content =
      ((offers version map (stamped items stamp second)).lookup key).map content := by
  refine lookup_offers_converge stamping.versions (fun value => ?_) ?_
  · rw [offered_stamped stamping, offered_stamped stamping]
    simp only [same]
  · intro a b here there equal
    obtain ⟨one, sent, original, item, alike⟩ :=
      (offered_stamped stamping).mp ⟨a, here, rfl⟩
    obtain ⟨other, resent, copy, otherItem, alikeToo⟩ :=
      (offered_stamped stamping).mp ⟨b, there, rfl⟩
    rw [← alike, ← alikeToo]
    refine determined one sent other ((same other).mpr resent) key original copy item otherItem ?_
    rw [stamping.versions _ _ alike, stamping.versions _ _ alikeToo, equal]

/-- The entry of a key that messages offer ends at the highest version there is: that of the entry
at the start or that of an offered one. Offers of version 0 are placeholders and do not count. -/
theorem lookup_stamped_highest
    {proper : Message → List (Key × Entry)} (included : ∀ message, proper message ⊆ items message)
    (placeholder : ∀ message, ∀ item ∈ items message, item ∈ proper message ∨ version item.2 = 0)
    {message : Message} (sent : message ∈ messages.map Prod.fst)
    {key : Key} {entry : Entry} (item : (key, entry) ∈ proper message)
    (positive : 0 < version entry) :
    ∃ kept, (offers version map (stamped items stamp messages)).lookup key = some kept ∧
      IsGreatest {number | (∃ old, map.lookup key = some old ∧ version old = number) ∨
        ∃ message ∈ messages.map Prod.fst, ∃ entry, (key, entry) ∈ proper message ∧
          version entry = number} (version kept) := by
  -- whatever was offered is at most as new as the entry the key ends with
  have covered : ∀ source ∈ messages.map Prod.fst, ∀ original, (key, original) ∈ items source →
      ∃ top, (offers version map (stamped items stamp messages)).lookup key = some top ∧
        version original ≤ version top := by
    intro source isSource original isItem
    obtain ⟨copy, here, alike⟩ :=
      (offered_stamped stamping).mpr ⟨source, isSource, original, isItem, rfl⟩
    rw [← stamping.versions _ _ alike]
    exact lookup_offers_covers here
  obtain ⟨kept, last, newest⟩ := covered message sent entry (included message item)
  refine ⟨kept, last, ?_, ?_⟩
  · rcases lookup_offers_origin last with stored | ⟨there, _⟩
    · exact .inl ⟨kept, stored, rfl⟩
    · obtain ⟨source, isSource, original, isItem, alike⟩ :=
        (offered_stamped stamping).mp ⟨kept, there, rfl⟩
      have sameVersion := stamping.versions _ _ alike
      rcases placeholder source _ isItem with isProper | isEmpty
      · exact .inr ⟨source, isSource, original, isProper, sameVersion⟩
      · dsimp only at isEmpty
        omega
  · rintro number (⟨old, stored, rfl⟩ | ⟨source, isSource, original, isProper, rfl⟩)
    · obtain ⟨top, isLast, bound⟩ := lookup_offers_keeps stored (stamped items stamp messages)
      rw [last, Option.some.injEq] at isLast
      exact isLast ▸ bound
    · obtain ⟨top, isLast, bound⟩ := covered source isSource original (included source isProper)
      rw [last, Option.some.injEq] at isLast
      exact isLast ▸ bound

end

end Messages

end EasyTier.Data.VersionedMap
