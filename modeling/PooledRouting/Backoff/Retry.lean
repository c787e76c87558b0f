import PooledRouting.Backoff.Basic

/-!
# Retrying an operation

`Retry.run` calls an operation until it succeeds, fails for good, or has
used up its retries, and pauses between the calls.  The outcome of each
call is given by its number, from zero; the operation itself takes no
time, so that the calls are as far apart as the pauses are long.  How
long it takes to sleep is not for this module to say: `sleep` tells it
by the time asked for.  Since
nothing bounds the calls of an operation that keeps failing, the number
of calls that may be made is a parameter, and the answer is `none` if
they do not suffice.
-/

namespace PooledRouting.Retry

variable {ε α : Type}

/-- How a retried operation ended. -/
structure Ending (ε α : Type) where
  result : Except ε α
  tries : UInt32
  /-- The sum of the pauses as they were asked for. -/
  totalDelay : Nat
  /-- The time from the first call to the last. -/
  elapsed : Nat
  /-- When each call was made, after the start. -/
  callTimes : List Nat

/-- The rules of a retried operation. -/
structure Plan (ε : Type) where
  maxRetries : UInt32
  /-- The pause before the given retry, counted from zero. -/
  delay : UInt32 → Nat
  /-- Whether a failure is worth another try. -/
  isRetryable : ε → Bool

/-- The plan of a backoff, with a random number for each retry. -/
def Plan.ofBackoff (b : Backoff) (draw : UInt32 → Nat) (isRetryable : ε → Bool) : Plan ε :=
  ⟨b.maxRetries, fun n => b.drawnDelay n (draw n), isRetryable⟩

/-- The calls so far. -/
structure Progress where
  /-- The counted tries. -/
  tries : UInt32 := 0
  totalDelay : Nat := 0
  elapsed : Nat := 0
  /-- When each call was made, the latest first. -/
  callTimes : List Nat := []

/-- One more call is made. -/
def Progress.call (p : Progress) : Progress :=
  { p with
    tries := Backoff.countTry p.tries
    callTimes := p.elapsed :: p.callTimes }

/-- A pause that is asked to last `ms`. -/
def Progress.pause (p : Progress) (sleep : Nat → Nat) (ms : Nat) : Progress :=
  { p with
    totalDelay := p.totalDelay + ms
    elapsed := p.elapsed + sleep ms }

/-- The ending with the result of the last call. -/
def Progress.ending (p : Progress) (result : Except ε α) : Ending ε α :=
  ⟨result, p.tries, p.totalDelay, p.elapsed, p.callTimes.reverse⟩

/-- The calls from number `k` on, at most `calls` of them. -/
def runFrom (plan : Plan ε) (sleep : Nat → Nat) (outcome : Nat → Except ε α) :
    (calls k : Nat) → Progress → Option (Ending ε α)
  | 0, _, _ => none
  | calls + 1, k, p =>
    let p := p.call
    match outcome k with
    | .ok a => some (p.ending (.ok a))
    | .error e =>
      if p.tries > plan.maxRetries ∨ plan.isRetryable e = false then
        some (p.ending (.error e))
      else runFrom plan sleep outcome calls (k + 1) (p.pause sleep (plan.delay (p.tries - 1)))

/-- The ending of an operation that is called at most `calls` times. -/
def run (plan : Plan ε) (sleep : Nat → Nat) (outcome : Nat → Except ε α) (calls : Nat) :
    Option (Ending ε α) :=
  runFrom plan sleep outcome calls 0 {}

end PooledRouting.Retry
