import Mathlib.Algebra.Ring.Nat
import Mathlib.Data.List.AList

/-! # Association lists as maps

What an insertion, an erasure, a singleton and a retained part of an association list hold at a key,
and what all entries of such maps have in common.
-/

namespace EasyTier.Data

universe u v

variable {Key : Type u} {Value : Type v} [DecidableEq Key] {map : AList fun _ : Key => Value}
  {value : Value}

/-- What a map holds after a key has been written. -/
theorem lookup_insert_eq (map : AList fun _ : Key => Value) (written read : Key) (value : Value) :
    (map.insert written value).lookup read = if read = written then some value
      else map.lookup read := by
  by_cases same : read = written
  · subst same
    rw [if_pos rfl, AList.lookup_insert]
  · rw [if_neg same, AList.lookup_insert_ne same]

/-- What a map holds after a key has been erased. -/
theorem lookup_erase_iff {erased read : Key} :
    (map.erase erased).lookup read = some value ↔ read ≠ erased ∧ map.lookup read = some value := by
  by_cases same : read = erased
  · subst same
    simp [AList.lookup_erase]
  · rw [AList.lookup_erase_ne same]
    exact (and_iff_right same).symm

/-- What a map of one entry holds. -/
theorem lookup_singleton_eq (written read : Key) (value : Value) :
    (AList.singleton written value : AList fun _ : Key => Value).lookup read =
      if read = written then some value else none := by
  rw [← AList.insert_empty, lookup_insert_eq, AList.lookup_empty]

/-- The entries that pass a test, in their order. -/
def retain (keep : Key → Value → Bool) (map : AList fun _ : Key => Value) :
    AList fun _ : Key => Value where
  entries := map.entries.filter fun entry => keep entry.1 entry.2
  nodupKeys := map.nodupKeys.sublist List.filter_sublist

/-- `retain` keeps the entries that pass the test, and no others. -/
theorem lookup_retain_iff {keep : Key → Value → Bool} {key : Key} :
    (retain keep map).lookup key = some value ↔
      map.lookup key = some value ∧ keep key value = true := by
  have kept := AList.mem_lookup_iff (s := retain keep map) (a := key) (b := value)
  have stored := AList.mem_lookup_iff (s := map) (a := key) (b := value)
  rw [Option.mem_def] at kept stored
  rw [kept, stored]
  exact List.mem_filter

/-- Every value replaced by its image, in the order of the entries. -/
def mapValues (image : Value → Value) (map : AList fun _ : Key => Value) :
    AList fun _ : Key => Value where
  entries := map.entries.map fun entry => ⟨entry.1, image entry.2⟩
  nodupKeys := by
    rw [List.NodupKeys, List.keys, List.map_map]
    exact map.nodupKeys

/-- A value is looked up through its image. -/
theorem lookup_mapValues (image : Value → Value) (map : AList fun _ : Key => Value) (key : Key) :
    (mapValues image map).lookup key = (map.lookup key).map image := by
  have mapped : ∀ entries : List (Sigma fun _ : Key => Value),
      List.dlookup key (entries.map fun entry =>
        (⟨entry.1, image entry.2⟩ : Sigma fun _ : Key => Value)) =
        (List.dlookup key entries).map image := by
    intro entries
    induction entries with
    | nil => rfl
    | cons entry entries ih =>
      obtain ⟨other, value⟩ := entry
      by_cases same : other = key
      · subst same
        simp
      · have different : key ≠ other := Ne.symm same
        rw [List.map_cons, List.dlookup_cons_ne _ _ different, List.dlookup_cons_ne _ _ different,
          ih]
  exact mapped map.entries

/-- Two maps hold the same at every key, whatever the order of their entries. -/
def SameEntries (first second : AList fun _ : Key => Value) : Prop :=
  ∀ key, first.lookup key = second.lookup key

/-- It is enough to compare the maps at the keys of both. -/
theorem sameEntries_iff_keys {first second : AList fun _ : Key => Value} :
    SameEntries first second ↔
      ∀ key ∈ first.keys ++ second.keys, first.lookup key = second.lookup key := by
  constructor
  · intro same key _
    exact same key
  · intro agree key
    by_cases listed : key ∈ first.keys ++ second.keys
    · exact agree key listed
    · rw [List.mem_append, not_or, ← AList.mem_keys, ← AList.mem_keys] at listed
      rw [AList.lookup_eq_none.mpr listed.1, AList.lookup_eq_none.mpr listed.2]

instance [DecidableEq Value] (first second : AList fun _ : Key => Value) :
    Decidable (SameEntries first second) :=
  decidable_of_iff _ sameEntries_iff_keys.symm

/-! ## Properties of all entries -/

/-- Every entry of the map has a property. -/
def AllEntries (holds : Key → Value → Prop) (map : AList fun _ : Key => Value) : Prop :=
  ∀ key value, map.lookup key = some value → holds key value

namespace AllEntries

variable {holds : Key → Value → Prop}

/-- The empty map has every property. -/
theorem empty : AllEntries holds ∅ := by
  intro key value stored
  cases stored

section

variable (entries : AllEntries holds map)
include entries

/-- A write keeps the property if the new entry has it. -/
theorem insert {key : Key}
    (inserted : holds key value) : AllEntries holds (map.insert key value) := by
  intro read found stored
  rw [lookup_insert_eq] at stored
  split at stored
  case isTrue same =>
    cases stored
    exact same ▸ inserted
  case isFalse => exact entries read found stored

/-- Dropping entries keeps the property. -/
theorem retain (keep : Key → Value → Bool) :
    AllEntries holds (retain keep map) :=
  fun key value stored => entries key value (lookup_retain_iff.mp stored).1

/-- Erasing a key keeps the property. -/
theorem erase (key : Key) : AllEntries holds (map.erase key) :=
  fun read found stored => entries read found (lookup_erase_iff.mp stored).2

/-- So does erasing keys one after another. -/
theorem foldl_erase {Item : Type*} (items : List Item)
    (keyOf : Item → Key) :
    AllEntries holds (items.foldl (fun map item => map.erase (keyOf item)) map) := by
  induction items generalizing map with
  | nil => exact entries
  | cons item items ih => exact ih (entries.erase (keyOf item))

end

end AllEntries

/-- An image that fixes every stored value changes nothing. -/
theorem mapValues_eq_self {image : Value → Value}
    (fixed : AllEntries (fun _ value => image value = value) map) : mapValues image map = map := by
  apply AList.ext
  refine (List.map_congr_left fun entry stored => ?_).trans (List.map_id map.entries)
  rw [fixed entry.1 entry.2 (AList.mem_lookup_iff.mpr stored), id]

end EasyTier.Data
