import Mathlib.Algebra.BigOperators.Group.List.Basic
import Mathlib.Algebra.Order.Group.Nat
import Mathlib.Algebra.Ring.Nat

/-! # Accounts that fill at a fixed rate

An account earns `rate` credit in every unit of time, up to a ceiling, and is spent from. Reading
it more often changes nothing, and what is spent within any span of time is bounded by the ceiling
and what the span earns.
-/

namespace EasyTier.Data

/-- The credit, and the moment up to which it has been earned. -/
structure CreditAccount where
  credit : Nat
  since : Nat
  deriving DecidableEq

namespace CreditAccount

/-- Earn up to a moment; a moment that has passed earns nothing. -/
def advance (ceiling rate : Nat) (account : CreditAccount) (now : Nat) : CreditAccount where
  credit := min ceiling (account.credit + rate * (now - account.since))
  since := max account.since now

/-- What an account earns up to a moment may be earned in steps. -/
theorem advance_advance (ceiling rate : Nat) (account : CreditAccount) {now later : Nat}
    (ordered : now ≤ later) :
    (account.advance ceiling rate now).advance ceiling rate later =
      account.advance ceiling rate later := by
  have parts : rate * (later - account.since) =
      rate * (now - account.since) + rate * (later - max account.since now) := by
    rw [← Nat.mul_add]
    congr 1
    omega
  simp only [advance, CreditAccount.mk.injEq]
  constructor
  · omega
  · omega

def spend (account : CreditAccount) (amount : Nat) : CreditAccount :=
  { account with credit := account.credit - amount }

/-- Amounts taken at moments: nothing, or an amount the account affords once it has earned up to
the moment. -/
inductive Spends (ceiling rate : Nat) : CreditAccount → List (Nat × Nat) → CreditAccount → Prop
  | done (account : CreditAccount) : Spends ceiling rate account [] account
  | idle {account final : CreditAccount} {log : List (Nat × Nat)} (now : Nat)
      (rest : Spends ceiling rate account log final) :
      Spends ceiling rate account ((now, 0) :: log) final
  | take {account final : CreditAccount} {log : List (Nat × Nat)} {now amount : Nat}
      (affords : amount ≤ (account.advance ceiling rate now).credit)
      (rest : Spends ceiling rate ((account.advance ceiling rate now).spend amount) log final) :
      Spends ceiling rate account ((now, amount) :: log) final

/-- What was taken from `start` to `start + span`, both included. -/
def spentWithin (log : List (Nat × Nat)) (start span : Nat) : Nat :=
  ((log.filter fun entry => decide (start ≤ entry.1 ∧ entry.1 ≤ start + span)).map (·.2)).sum

theorem spentWithin_cons (entry : Nat × Nat) (log : List (Nat × Nat)) (start span : Nat) :
    spentWithin (entry :: log) start span =
      (if start ≤ entry.1 ∧ entry.1 ≤ start + span then entry.2 else 0) +
        spentWithin log start span := by
  unfold spentWithin
  by_cases inside : start ≤ entry.1 ∧ entry.1 ≤ start + span
  · simp [List.filter_cons_of_pos, inside]
  · rw [List.filter_cons_of_neg (by simpa using inside), if_neg inside, Nat.zero_add]

/-- The same amounts in a smaller unit. -/
theorem spentWithin_scaled (unit : Nat) (log : List (Nat × Nat)) (start span : Nat) :
    spentWithin (log.map fun entry => (entry.1, unit * entry.2)) start span =
      unit * spentWithin log start span := by
  induction log with
  | nil => rfl
  | cons entry log ih =>
    rw [List.map_cons, spentWithin_cons, spentWithin_cons, ih, Nat.mul_add, mul_ite, Nat.mul_zero]

/-- Nothing is taken in a span that has ended. -/
theorem spentWithin_of_past {log : List (Nat × Nat)} {start span : Nat}
    (past : ∀ entry ∈ log, start + span < entry.1) : spentWithin log start span = 0 := by
  induction log with
  | nil => rfl
  | cons entry log ih =>
    have after := past entry List.mem_cons_self
    rw [spentWithin_cons, ih fun other member => past other (List.mem_cons_of_mem _ member),
      if_neg (by omega)]

/-- What can still be spent in a span is what the account holds when the span starts and what the
rest of the span earns. -/
theorem Spends.spentWithin_le {ceiling rate : Nat} {account final : CreditAccount}
    {log : List (Nat × Nat)} (spends : Spends ceiling rate account log final)
    (ordered : log.Pairwise (·.1 ≤ ·.1)) (start span : Nat) :
    spentWithin log start span ≤ (account.advance ceiling rate start).credit +
      rate * (start + span - max account.since start) := by
  induction spends with
  | done => exact Nat.zero_le _
  | idle now rest ih =>
    have bound := ih ordered.of_cons
    rw [spentWithin_cons]
    split <;> omega
  | @take account final log now amount affords rest ih =>
    have bound := ih ordered.of_cons
    rw [spentWithin_cons]
    by_cases ended : start + span < now
    · have nothing : spentWithin log start span = 0 := by
        apply spentWithin_of_past
        intro entry member
        have := List.rel_of_pairwise_cons ordered member
        omega
      rw [nothing, if_neg (by omega)]
      omega
    simp only [advance, spend] at affords bound ⊢
    by_cases started : start ≤ now
    · -- the amount is taken inside the span, after earning from its start on
      have earned : rate * (now - account.since) ≤
          rate * (start - account.since) + rate * (now - max account.since start) := by
        rw [← Nat.mul_add]
        exact Nat.mul_le_mul_left _ (by omega)
      have split : rate * (now - max account.since start) +
          rate * (start + span - max (max account.since now) start) ≤
          rate * (start + span - max account.since start) := by
        rw [← Nat.mul_add]
        exact Nat.mul_le_mul_left _ (by omega)
      have none : start - max account.since now = 0 := by omega
      rw [none, Nat.mul_zero] at bound
      rw [if_pos ⟨started, by omega⟩]
      omega
    · -- the amount is taken before the span, which only lowers what the account holds
      have earned : rate * (now - account.since) + rate * (start - max account.since now) ≤
          rate * (start - account.since) := by
        rw [← Nat.mul_add]
        exact Nat.mul_le_mul_left _ (by omega)
      have same : max (max account.since now) start = max account.since start := by omega
      rw [same] at bound
      rw [if_neg (by omega)]
      omega

end CreditAccount

end EasyTier.Data
