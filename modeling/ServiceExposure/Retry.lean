/-!
# Retrying lost races

A cycle of reading, planning and writing loses when somebody else writes in between.  `RetryPolicy` bounds how often it
is run; `onConflict` runs it again at once after each conflict, until it succeeds, fails in another way, or the attempts
are used up.  Attempts are numbered from 1, and no number exceeds the policy's, which fits 32 bits.
-/
namespace ServiceExposure

/-- How often a cycle is run at most. -/
structure RetryPolicy where
  attempts : Nat
  /-- A cycle is run at least once. -/
  pos : 0 < attempts
  /-- The count fits 32 bits. -/
  fits : attempts < UInt32.size
deriving DecidableEq

namespace RetryPolicy

/-- The policy of at most `n` attempts; none counts as one. -/
def ofAttempts (n : UInt32) : RetryPolicy where
  attempts := max n.toNat 1
  pos := by omega
  fits := Nat.max_lt.2 ⟨n.toNat_lt_size, by decide⟩

def standard : RetryPolicy := ⟨5, by decide, by decide⟩

end RetryPolicy

namespace Retry

variable {m : Type → Type} [Monad m] {ε α : Type}

/-- Runs attempt number `attempt` and, after a conflict, up to `more` further ones. -/
def attempt (isConflict : ε → Bool) (op : Nat → m (Except ε α)) : (attempt more : Nat) → m (Except ε α)
  | n, 0 => op n
  | n, more + 1 => do
    match ← op n with
    | .ok a => return .ok a
    | .error e => if isConflict e then Retry.attempt isConflict op (n + 1) more else return .error e

/-- Runs `op`, which is told the number of the attempt, until it does not end in a conflict or the attempts are used
up. -/
def onConflict (policy : RetryPolicy) (isConflict : ε → Bool) (op : Nat → m (Except ε α)) : m (Except ε α) :=
  attempt isConflict op 1 (policy.attempts - 1)

end Retry
end ServiceExposure
