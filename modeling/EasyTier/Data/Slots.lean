import Mathlib.Algebra.Ring.Nat
import Mathlib.Logic.Basic

/-! # Keys held in slots

Several tables that share one name space are one family of slots, each of which holds at most one
key. The keys are distinct when two slots with the same key are the same slot, or a pair that is
exempt. An operation that rewrites some of the slots keeps the keys distinct if the rewritten ones
agree with each other and with the rest.
-/

namespace EasyTier.Data

universe u v

variable {Slot : Type u} {Key : Type v}

/-- No key is held twice, except in pairs of slots that are exempt. -/
def DistinctKeys (exempt : Slot → Slot → Prop) (keyAt : Slot → Option Key) : Prop :=
  ∀ first second key, keyAt first = some key → keyAt second = some key →
    first = second ∨ exempt first second

namespace DistinctKeys

variable {exempt : Slot → Slot → Prop} {before after : Slot → Option Key}

/-- Slots that hold nothing new hold nothing twice. -/
theorem of_subset (distinct : DistinctKeys exempt before)
    (subset : ∀ slot key, after slot = some key → before slot = some key) :
    DistinctKeys exempt after :=
  fun first second key here there =>
    distinct first second key (subset first key here) (subset second key there)

section

variable (symmetric : ∀ first second, exempt first second → exempt second first)
    (distinct : DistinctKeys exempt before)
include symmetric distinct

/-- The rule for an operation that rewrites the slots of a region and adds nothing elsewhere. -/
theorem rewrite (region : Slot → Prop)
    (outside : ∀ slot key, ¬ region slot → after slot = some key → before slot = some key)
    (inside : ∀ first second key, region first → region second → after first = some key →
      after second = some key → first = second ∨ exempt first second)
    (across : ∀ first second key, region first → ¬ region second → after first = some key →
      before second = some key → exempt first second) : DistinctKeys exempt after := by
  intro first second key here there
  by_cases firstWritten : region first
  · by_cases secondWritten : region second
    · exact inside first second key firstWritten secondWritten here there
    · exact .inr (across first second key firstWritten secondWritten here
        (outside second key secondWritten there))
  · by_cases secondWritten : region second
    · exact .inr (symmetric _ _ (across second first key secondWritten firstWritten there
        (outside first key firstWritten here)))
    · exact distinct first second key (outside first key firstWritten here)
        (outside second key secondWritten there)

/-- The rule for an operation that writes one slot and adds nothing elsewhere. -/
theorem write (written : Slot)
    (outside : ∀ slot key, slot ≠ written → after slot = some key → before slot = some key)
    (fresh : ∀ slot key, slot ≠ written → after written = some key → before slot ≠ some key) :
    DistinctKeys exempt after := by
  refine distinct.rewrite symmetric (· = written) outside ?_ ?_
  · rintro first second key rfl rfl - -
    exact .inl rfl
  · rintro first second key rfl elsewhere here there
    exact absurd there (fresh second key elsewhere here)

end

end DistinctKeys

end EasyTier.Data
