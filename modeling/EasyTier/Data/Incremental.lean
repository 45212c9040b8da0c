import EasyTier.Data.AssocMap

/-! # Sending a map in increments

A sender keeps a map in the order of its updates, the newest entry first, and sends a receiver what
it lacks. It remembers the versions the receiver has, sets aside what must not be sent yet, and
stops its scan at entries older than the last round that went through. The scan skips nothing the
receiver does not have if what a round sends covers what the round found to send.
-/

namespace EasyTier.Data.Incremental

universe u v

variable {Key : Type u} {Entry : Type v}

/-- What the sender reads off an entry. -/
structure Stamps (Key : Type u) (Entry : Type v) where
  subject : Key → Entry → Key
  version : Entry → Nat
  lastUpdate : Entry → Nat

section Order

variable (stamps : Stamps Key Entry)

/-- The scan ends at an entry older than the last round. -/
def stops (since : Option Nat) (entry : Entry) : Bool := since.any (stamps.lastUpdate entry < ·)

/-- The entries the scan looks at. -/
def scanned (since : Option Nat) (map : AList fun _ : Key => Entry) :
    List (Sigma fun _ : Key => Entry) :=
  map.entries.takeWhile fun item => !stops stamps since item.2

/-- The entries behind the end of the scan. -/
def skipped (since : Option Nat) (map : AList fun _ : Key => Entry) :
    List (Sigma fun _ : Key => Entry) :=
  map.entries.dropWhile fun item => !stops stamps since item.2

/-- The map is in the order of its updates, none of which lies in the future. -/
structure Ordered (now : Nat) (map : AList fun _ : Key => Entry) : Prop where
  newestFirst : map.entries.Pairwise fun newer older =>
    stamps.lastUpdate older.2 ≤ stamps.lastUpdate newer.2
  past : ∀ item ∈ map.entries, stamps.lastUpdate item.2 ≤ now

variable {stamps}

theorem Ordered.empty (now : Nat) : Ordered stamps now (∅ : AList fun _ : Key => Entry) :=
  ⟨.nil, fun _ none => absurd none List.not_mem_nil⟩

variable {now : Nat} {map before after : AList fun _ : Key => Entry}

theorem Ordered.later {next : Nat}
    (ordered : Ordered stamps now map) (later : now ≤ next) : Ordered stamps next map :=
  ⟨ordered.newestFirst, fun item member => Nat.le_trans (ordered.past item member) later⟩

theorem stops_of_older {since : Option Nat} {newer older : Entry}
    (isStop : stops stamps since newer)
    (before : stamps.lastUpdate older ≤ stamps.lastUpdate newer) : stops stamps since older := by
  cases since with
  | none => simp [stops] at isStop
  | some time =>
    simp only [stops, Option.any_some, decide_eq_true_eq] at isStop ⊢
    omega

section

variable (ordered : Ordered stamps now map) {since : Option Nat} {item : Sigma fun _ : Key => Entry}
include ordered

/-- In an ordered map every entry behind the end of the scan is old. -/
theorem Ordered.stops_of_skipped
    (member : item ∈ skipped stamps since map) : stops stamps since item.2 := by
  have sorted := ordered.newestFirst
  unfold skipped at member
  generalize map.entries = items at member sorted
  induction items with
  | nil => cases member
  | cons first rest ih =>
    obtain ⟨older, sorted⟩ := List.pairwise_cons.mp sorted
    by_cases isStop : stops stamps since first.2
    · rw [List.dropWhile_cons_of_neg (by simp [isStop])] at member
      rcases List.mem_cons.mp member with rfl | later
      · exact isStop
      · exact stops_of_older isStop (older item later)
    · rw [List.dropWhile_cons_of_pos (by simp [isStop])] at member
      exact ih member sorted

theorem Ordered.mem_scanned
    (member : item ∈ map.entries) (recent : ¬stops stamps since item.2) :
    item ∈ scanned stamps since map := by
  have either : item ∈ scanned stamps since map ++ skipped stamps since map := by
    rw [scanned, skipped, List.takeWhile_append_dropWhile]
    exact member
  rcases List.mem_append.mp either with inScan | behind
  · exact inScan
  · exact absurd (ordered.stops_of_skipped behind) recent

end

variable [DecidableEq Key]

theorem Ordered.insert (ordered : Ordered stamps now map)
    (key : Key) {entry : Entry} (current : stamps.lastUpdate entry = now) :
    Ordered stamps now (map.insert key entry) := by
  have erased : (List.kerase key map.entries).Sublist map.entries := List.kerase_sublist key _
  constructor
  · refine .cons (fun older member => ?_) (ordered.newestFirst.sublist erased)
    rw [current]
    exact ordered.past older (erased.subset member)
  · intro item member
    rcases List.mem_cons.mp member with rfl | older
    · exact Nat.le_of_eq current
    · exact ordered.past item (erased.subset older)

theorem Ordered.erase (ordered : Ordered stamps now map)
    (key : Key) : Ordered stamps now (map.erase key) := by
  have erased : (map.erase key).entries.Sublist map.entries := List.kerase_sublist key _
  exact ⟨ordered.newestFirst.sublist erased,
    fun item member => ordered.past item (erased.subset member)⟩

/-- The map changed at one time: entries stamped then were inserted, others erased. -/
inductive Touched (stamps : Stamps Key Entry) (now : Nat) (before : AList fun _ : Key => Entry) :
    (AList fun _ : Key => Entry) → Prop
  | refl : Touched stamps now before before
  | insert {after : AList fun _ : Key => Entry} (touched : Touched stamps now before after)
      (key : Key) {entry : Entry} (current : stamps.lastUpdate entry = now)
      (keyed : stamps.version entry ≠ 0 → stamps.subject key entry = key) :
      Touched stamps now before (after.insert key entry)
  | erase {after : AList fun _ : Key => Entry} (touched : Touched stamps now before after)
    (key : Key) :
      Touched stamps now before (after.erase key)

theorem Touched.trans {middle : AList fun _ : Key => Entry}
    (first : Touched stamps now before middle) (second : Touched stamps now middle after) :
    Touched stamps now before after := by
  induction second with
  | refl => exact first
  | insert _ key current keyed ih => exact .insert ih key current keyed
  | erase _ key ih => exact .erase ih key

theorem Touched.ordered
    (touched : Touched stamps now before after) (ordered : Ordered stamps now before) :
    Ordered stamps now after := by
  induction touched with
  | refl => exact ordered
  | insert _ key current _ ih => exact ih.insert key current
  | erase _ key ih => exact ih.erase key

/-- An entry of the changed map was there before, or is stamped now and filed under its subject. -/
theorem Touched.origin (touched : Touched stamps now before after) {key : Key} {entry : Entry}
    (found : after.lookup key = some entry) :
    before.lookup key = some entry ∨
      stamps.lastUpdate entry = now ∧
        (stamps.version entry ≠ 0 → stamps.subject key entry = key) := by
  induction touched with
  | refl => exact .inl found
  | insert _ written current keyed ih =>
    rw [lookup_insert_eq] at found
    split at found
    · rename_i same
      cases found
      subst same
      exact .inr ⟨current, keyed⟩
    · exact ih found
  | erase _ _ ih => exact ih (lookup_erase_iff.mp found).2

end Order

/-! ## One round -/

section Round

variable [DecidableEq Key] (stamps : Stamps Key Entry)

/-- Nothing is sent of version 0, about the receiver itself, or that it has already. -/
def upToDate (receiver : Key) (saved : AList fun _ : Key => Nat) (key : Key) (version : Nat) :
    Bool :=
  version = 0 ∨ key = receiver ∨ (saved.lookup key).any (version ≤ ·)

/-- The scanned entries the receiver lacks. -/
def pending (receiver : Key) (since : Option Nat) (saved : AList fun _ : Key => Nat)
    (map : AList fun _ : Key => Entry) : List (Sigma fun _ : Key => Entry) :=
  (scanned stamps since map).filter fun item =>
    !upToDate receiver saved (stamps.subject item.1 item.2) (stamps.version item.2)

/-- Set entries aside, each with its version. -/
def setAside (aside : AList fun _ : Key => Nat) (items : List (Sigma fun _ : Key => Entry)) :
    AList fun _ : Key => Nat :=
  items.foldl (fun aside item => aside.insert item.1 (stamps.version item.2)) aside

/-- What stays set aside: what the receiver still lacks of what the map still has. -/
def stillAside (receiver : Key) (saved aside : AList fun _ : Key => Nat)
    (map : AList fun _ : Key => Entry) : AList fun _ : Key => Nat :=
  retain (fun key version => !upToDate receiver saved key version && (map.lookup key).isSome) aside

/-- One round: the entries to send, and what is set aside after it. -/
def build (receiver : Key) (reachable : Key → Bool) (since : Option Nat)
    (saved aside : AList fun _ : Key => Nat) (map : AList fun _ : Key => Entry) :
    List (Key × Entry) × AList fun _ : Key => Nat :=
  let found := pending stamps receiver since saved map
  let marked := setAside stamps aside (found.filter fun item => !reachable item.1)
  let kept := stillAside receiver saved marked map
  let late := kept.entries.filterMap fun item =>
    if reachable item.1 then (map.lookup item.1).map fun entry => (item.1, entry) else none
  ((found.filter fun item => reachable item.1).map (fun item => (item.1, item.2)) ++ late, kept)

/-- Record versions the receiver has; those about itself are not kept. -/
def record (receiver : Key) (saved : AList fun _ : Key => Nat) (items : List (Key × Nat)) :
    AList fun _ : Key => Nat :=
  items.foldl (fun saved item =>
    if item.1 = receiver then saved
    else saved.insert item.1 (max ((saved.lookup item.1).getD 0) item.2)) saved

variable {stamps}

/-- An entry of this version or a newer one is among the known ones. -/
def Holds (known : List (Key × Nat)) (key : Key) (version : Nat) : Prop :=
  ∃ newer, version ≤ newer ∧ (key, newer) ∈ known

variable {key : Key} {version : Nat} {known : List (Key × Nat)}

omit [DecidableEq Key] in
theorem Holds.mono {more : List (Key × Nat)}
    (holds : Holds known key version) (included : known ⊆ more) : Holds more key version :=
  let ⟨newer, bound, member⟩ := holds
  ⟨newer, bound, included member⟩

/-- Every recorded version but 0 is known. -/
def Recorded (saved : AList fun _ : Key => Nat) (known : List (Key × Nat)) : Prop :=
  ∀ key version, saved.lookup key = some version → version ≠ 0 → Holds known key version

/-- The receiver has the entry, or it is set aside. -/
def Covered (known : List (Key × Nat)) (aside : AList fun _ : Key => Nat) (key : Key)
    (version : Nat) : Prop :=
  Holds known key version ∨ ∃ newer, version ≤ newer ∧ aside.lookup key = some newer

variable {receiver : Key} {saved : AList fun _ : Key => Nat}

theorem Recorded.holds (recorded : Recorded saved known) (away : key ≠ receiver)
    (positive : version ≠ 0) (current : upToDate receiver saved key version) :
    Holds known key version := by
  simp only [upToDate, positive, away, false_or, decide_eq_true_eq, Option.any_eq_true] at current
  obtain ⟨newer, found, bound⟩ := current
  obtain ⟨newest, larger, member⟩ := recorded key newer found (by omega)
  exact ⟨newest, by omega, member⟩

section

variable {aside : AList fun _ : Key => Nat} {items : List (Sigma fun _ : Key => Entry)}

theorem lookup_setAside_of_notMem (absent : key ∉ items.keys) :
    (setAside stamps aside items).lookup key = aside.lookup key := by
  induction items generalizing aside with
  | nil => rfl
  | cons item items ih =>
    rw [List.keys_cons, List.mem_cons, not_or] at absent
    change (setAside stamps (aside.insert item.1 _) items).lookup key = _
    rw [ih absent.2, AList.lookup_insert_ne absent.1]

theorem lookup_setAside_of_mem (unique : items.NodupKeys)
    {item : Sigma fun _ : Key => Entry} (member : item ∈ items) :
    (setAside stamps aside items).lookup item.1 = some (stamps.version item.2) := by
  induction items generalizing aside with
  | nil => cases member
  | cons first items ih =>
    obtain ⟨fresh, unique⟩ := List.nodupKeys_cons.mp unique
    change (setAside stamps (aside.insert first.1 _) items).lookup item.1 = _
    rcases List.mem_cons.mp member with rfl | later
    · rw [lookup_setAside_of_notMem fresh, AList.lookup_insert]
    · exact ih unique later

end

theorem pending_sublist (receiver : Key) (since : Option Nat) (saved : AList fun _ : Key => Nat)
    (map : AList fun _ : Key => Entry) :
    (pending stamps receiver since saved map).Sublist map.entries :=
  List.filter_sublist.trans (List.takeWhile_sublist _)

section Build

variable {reachable : Key → Bool} {since : Option Nat} {aside : AList fun _ : Key => Nat}
  {map : AList fun _ : Key => Entry} {entry : Entry}

section

variable (recorded : Recorded saved known)
include recorded

/-- Only what the receiver has is no longer set aside. -/
theorem covered_stillAside
    (found : map.lookup key = some entry) (away : key ≠ receiver) {version : Nat}
    (positive : version ≠ 0) (covered : Covered known aside key version) :
    Covered known (stillAside receiver saved aside map) key version := by
  rcases covered with holds | ⟨newer, bound, isAside⟩
  · exact .inl holds
  · by_cases current : upToDate receiver saved key newer
    · obtain ⟨newest, larger, member⟩ := recorded.holds away (by omega) current
      exact .inl ⟨newest, by omega, member⟩
    · refine .inr ⟨newer, bound, lookup_retain_iff.mpr ⟨isAside, ?_⟩⟩
      simp [current, found]

/-- A round loses nothing that was covered. -/
theorem covered_build
    (found : map.lookup key = some entry) (away : key ≠ receiver)
    (positive : stamps.version entry ≠ 0)
    (covered : Covered known aside key (stamps.version entry)) :
    Covered known (build stamps receiver reachable since saved aside map).2 key
      (stamps.version entry) := by
  refine covered_stillAside recorded found away positive ?_
  rcases covered with holds | ⟨newer, bound, isAside⟩
  · exact .inl holds
  · set unreachable := (pending stamps receiver since saved map).filter fun item =>
      !reachable item.1
    by_cases marked : key ∈ unreachable.keys
    · obtain ⟨item, member, rfl⟩ := List.mem_map.mp marked
      have kept := (pending_sublist receiver since saved map).subset (List.mem_filter.mp member).1
      have same := Option.some.inj (found.symm.trans (AList.mem_lookup_iff.mpr kept))
      have unique : unreachable.NodupKeys := map.nodupKeys.sublist
        (List.filter_sublist.trans (pending_sublist receiver since saved map))
      refine .inr ⟨stamps.version entry, Nat.le_refl _, ?_⟩
      rw [same]
      exact lookup_setAside_of_mem unique member
    · exact .inr ⟨newer, bound, (lookup_setAside_of_notMem marked).trans isAside⟩

/-- What a round scans is sent, unless it is covered. -/
theorem build_sends {now : Nat} (ordered : Ordered stamps now map)
    (found : map.lookup key = some entry) (away : key ≠ receiver)
    (positive : stamps.version entry ≠ 0) (keyed : stamps.subject key entry = key)
    (recent : ¬stops stamps since entry) :
    Covered known (build stamps receiver reachable since saved aside map).2 key
        (stamps.version entry) ∨
      reachable key ∧ ¬upToDate receiver saved key (stamps.version entry) ∧
        (key, entry) ∈ (build stamps receiver reachable since saved aside map).1 := by
  have inMap : (⟨key, entry⟩ : Sigma fun _ : Key => Entry) ∈ map.entries :=
    AList.mem_lookup_iff.mp found
  by_cases current : upToDate receiver saved key (stamps.version entry)
  · exact .inl (.inl (recorded.holds away positive current))
  have isPending : (⟨key, entry⟩ : Sigma fun _ : Key => Entry) ∈
      pending stamps receiver since saved map := by
    refine List.mem_filter.mpr ⟨ordered.mem_scanned inMap recent, ?_⟩
    simp [keyed, current]
  by_cases reached : reachable key
  · refine .inr ⟨reached, current, List.mem_append_left _ ?_⟩
    exact List.mem_map.mpr ⟨_, List.mem_filter.mpr ⟨isPending, reached⟩, rfl⟩
  · have unique : ((pending stamps receiver since saved map).filter fun item =>
        !reachable item.1).NodupKeys := map.nodupKeys.sublist
      (List.filter_sublist.trans (pending_sublist receiver since saved map))
    refine .inl (covered_stillAside recorded found away positive (.inr ⟨_, Nat.le_refl _, ?_⟩))
    exact lookup_setAside_of_mem unique (List.mem_filter.mpr ⟨isPending, by simp [reached]⟩)

end

end Build

theorem lookup_record {items : List (Key × Nat)}
    (found : (record receiver saved items).lookup key = some version) :
    saved.lookup key = some version ∨ (key, version) ∈ items := by
  induction items generalizing saved with
  | nil => exact .inl found
  | cons item items ih =>
    rcases ih found with before | later
    · dsimp only at before
      split at before
      · exact .inl before
      rw [lookup_insert_eq] at before
      split at before
      · rename_i same
        subst same
        cases stored : saved.lookup item.1 with
        | none =>
          simp only [stored, Option.getD_none, Nat.zero_max, Option.some.injEq] at before
          subst before
          exact .inr List.mem_cons_self
        | some old =>
          simp only [stored, Option.getD_some, Option.some.injEq] at before
          rcases Nat.le_total old item.2 with larger | smaller
          · rw [Nat.max_eq_right larger] at before
            subst before
            exact .inr List.mem_cons_self
          · rw [Nat.max_eq_left smaller] at before
            subst before
            exact .inl rfl
      · exact .inl before
    · exact .inr (List.mem_cons_of_mem _ later)

theorem Recorded.record
    (recorded : Recorded saved known) (receiver : Key) (items : List (Key × Nat))
    {more : List (Key × Nat)} (keeps : known ⊆ more) (adds : items ⊆ more) :
    Recorded (record receiver saved items) more := by
  intro key version found positive
  rcases lookup_record found with before | isItem
  · exact (recorded key version before positive).mono keeps
  · exact ⟨version, Nat.le_refl _, adds isItem⟩

end Round

/-! ## The state of a sender -/

section Sender

variable [DecidableEq Key] {stamps : Stamps Key Entry} {receiver : Key} {now : Nat}
  {since : Option Nat} {saved aside : AList fun _ : Key => Nat} {known : List (Key × Nat)}
  {map : AList fun _ : Key => Entry}

/-- What a round under way promises: once it goes through, everything older than it is covered. -/
def Promises (stamps : Stamps Key Entry) (receiver : Key) (known : List (Key × Nat))
    (aside : AList fun _ : Key => Nat) (map : AList fun _ : Key => Entry) (next : Nat)
    (items : List (Key × Nat)) : Prop :=
  ∀ key entry, map.lookup key = some entry → stamps.version entry ≠ 0 → key ≠ receiver →
    stamps.lastUpdate entry < next →
      Covered known aside key (stamps.version entry) ∨ Holds items key (stamps.version entry)

/-- The invariant of a sender: all that is older than the last round is covered. -/
structure Tracks (stamps : Stamps Key Entry) (receiver : Key) (now : Nat) (since : Option Nat)
    (saved aside : AList fun _ : Key => Nat) (known : List (Key × Nat))
    (map : AList fun _ : Key => Entry) : Prop where
  ordered : Ordered stamps now map
  keyed : ∀ key entry, map.lookup key = some entry → stamps.version entry ≠ 0 →
    stamps.subject key entry = key
  recorded : Recorded saved known
  past : ∀ time, since = some time → time ≤ now
  covered : ∀ key entry, map.lookup key = some entry → stamps.version entry ≠ 0 → key ≠ receiver →
    stops stamps since entry → Covered known aside key (stamps.version entry)

variable {more items : List (Key × Nat)} {next : Nat} {changed : AList fun _ : Key => Entry}

theorem Covered.mono {key : Key} {version : Nat}
    (covered : Covered known aside key version) (included : known ⊆ more) :
    Covered more aside key version :=
  covered.imp_left fun holds => holds.mono included

theorem Promises.mono
    (promises : Promises stamps receiver known aside map next items) (included : known ⊆ more) :
    Promises stamps receiver more aside map next items :=
  fun key entry found positive away old =>
    (promises key entry found positive away old).imp_left fun covered => covered.mono included

/-- A sender with nothing to send. -/
theorem Tracks.empty (stamps : Stamps Key Entry) (receiver : Key) (now : Nat) :
    Tracks stamps receiver now none ∅ ∅ [] ∅ where
  ordered := .empty now
  keyed := fun key entry found => by simp at found
  recorded := fun key version found => by simp at found
  past := fun time isTime => by cases isTime
  covered := fun key entry found => by simp at found

section

variable (tracks : Tracks stamps receiver now since saved aside known map)
include tracks

/-- A round that only changes what is set aside. -/
theorem Tracks.build (reachable : Key → Bool) : Tracks stamps receiver now since saved
      (build stamps receiver reachable since saved aside map).2 known map where
  ordered := tracks.ordered
  keyed := tracks.keyed
  recorded := tracks.recorded
  past := tracks.past
  covered := fun key entry found positive away isStop =>
    covered_build tracks.recorded found away positive
      (tracks.covered key entry found positive away isStop)

omit tracks in
theorem Promises.build (promises : Promises stamps receiver known aside map next items)
    (tracks : Tracks stamps receiver now since saved aside known map) (reachable : Key → Bool) :
    Promises stamps receiver known
      (build stamps receiver reachable since saved aside map).2 map next items :=
  fun key entry found positive away old =>
    (promises key entry found positive away old).imp_left fun covered =>
      covered_build tracks.recorded found away positive covered

/-- A round that sends all it found promises to cover everything up to its time. -/
theorem Tracks.promises {reachable : Key → Bool} (sends : ∀ key entry,
      (key, entry) ∈ (Incremental.build stamps receiver reachable since saved aside map).1 →
      map.lookup key = some entry → stamps.version entry ≠ 0 → key ≠ receiver → reachable key →
      ¬upToDate receiver saved key (stamps.version entry) →
      Holds items key (stamps.version entry)) (next : Nat) :
    Promises stamps receiver known
      (Incremental.build stamps receiver reachable since saved aside map).2 map next items := by
  intro key entry found positive away _
  by_cases isStop : stops stamps since entry
  · exact .inl (covered_build tracks.recorded found away positive
      (tracks.covered key entry found positive away isStop))
  · rcases build_sends tracks.recorded tracks.ordered found away positive
      (tracks.keyed key entry found positive) isStop with covered | ⟨reached, lacks, sent⟩
    · exact .inl covered
    · exact .inr (sends key entry sent found positive away reached lacks)

/-- A round that went through. -/
theorem Tracks.acknowledge
    (promises : Promises stamps receiver known aside map next items) (begun : next ≤ now)
    (keeps : known ⊆ more) (adds : items ⊆ more) :
    Tracks stamps receiver now (some (since.elim next (max · next)))
      (record receiver saved items) aside more map where
  ordered := tracks.ordered
  keyed := tracks.keyed
  recorded := tracks.recorded.record receiver items keeps adds
  past := by
    intro time isTime
    cases since with
    | none =>
      simp only [Option.elim_none, Option.some.injEq] at isTime
      omega
    | some last =>
      have := tracks.past last rfl
      simp only [Option.elim_some, Option.some.injEq] at isTime
      omega
  covered := by
    intro key entry found positive away isStop
    by_cases before : stops stamps since entry
    · exact (tracks.covered key entry found positive away before).mono keeps
    have old : stamps.lastUpdate entry < next := by
      cases since with
      | none => simpa [stops] using isStop
      | some last =>
        simp only [stops, Option.elim_some, Option.any_some, decide_eq_true_eq] at isStop before
        omega
    rcases promises key entry found positive away old with covered | holds
    · exact covered.mono keeps
    · exact .inl (holds.mono adds)

/-- The receiver sent entries itself. -/
theorem Tracks.receive (items : List (Key × Nat)) (keeps : known ⊆ more) (adds : items ⊆ more) :
    Tracks stamps receiver now since (record receiver saved items) aside more map where
  ordered := tracks.ordered
  keyed := tracks.keyed
  recorded := tracks.recorded.record receiver items keeps adds
  past := tracks.past
  covered := fun key entry found positive away isStop =>
    (tracks.covered key entry found positive away isStop).mono keeps

/-- Versions may be forgotten at any time. -/
theorem Tracks.forget (keep : Key → Nat → Bool) :
    Tracks stamps receiver now since (retain keep saved) aside known map :=
  { tracks with
    recorded := fun key version found =>
      tracks.recorded key version (lookup_retain_iff.mp found).1 }

/-- A sender that starts over. -/
theorem Tracks.restart : Tracks stamps receiver now none ∅ ∅ [] map where
  ordered := tracks.ordered
  keyed := tracks.keyed
  recorded := fun key version found => by simp at found
  past := fun time isTime => by cases isTime
  covered := fun key entry found positive away isStop => by simp [stops] at isStop

/-- Time passes. -/
theorem Tracks.later
    (later : now ≤ next) : Tracks stamps receiver next since saved aside known map :=
  { tracks with
    ordered := tracks.ordered.later later
    past := fun time isTime => Nat.le_trans (tracks.past time isTime) later }

/-- The map changes. -/
theorem Tracks.touch
    (touched : Touched stamps now map changed) :
    Tracks stamps receiver now since saved aside known changed where
  ordered := touched.ordered tracks.ordered
  keyed := by
    intro key entry found positive
    rcases touched.origin found with before | ⟨_, keyed⟩
    · exact tracks.keyed key entry before positive
    · exact keyed positive
  recorded := tracks.recorded
  past := tracks.past
  covered := by
    intro key entry found positive away isStop
    rcases touched.origin found with before | ⟨current, _⟩
    · exact tracks.covered key entry before positive away isStop
    · cases since with
      | none => simp [stops] at isStop
      | some time =>
        have := tracks.past time rfl
        simp only [stops, Option.any_some, decide_eq_true_eq] at isStop
        omega

end

theorem Promises.touch
    (promises : Promises stamps receiver known aside map next items) (begun : next ≤ now)
    (touched : Touched stamps now map changed) :
    Promises stamps receiver known aside changed next items := by
  intro key entry found positive away old
  rcases touched.origin found with before | ⟨current, _⟩
  · exact promises key entry before positive away old
  · omega

end Sender

end EasyTier.Data.Incremental
