import PooledRouting.Binary64.Arithmetic

/-!
# Backoff schedules

A `Backoff` says how long to pause between the tries of an operation
that keeps failing.  The pause before retry `n`, counted from zero, is
`initialDelay * multiplier ^ n` capped by `maxDelay`, worked out in
binary64 and cut down to whole milliseconds.  The exponent is capped so
that it fits a signed 32-bit number.  With jitter a random part is added:
`Admits` says what may come out, and a random number chooses it
(`admits_iff`).

Tries are counted in 32 bits and the count stays at its greatest value,
so a backoff whose `maxRetries` is that value never gives up.
-/

namespace PooledRouting

/-- A schedule of pauses; times are in milliseconds. -/
structure Backoff where
  /-- How many tries may follow the first one. -/
  maxRetries : UInt32 := 3
  initialDelay : Nat := 100
  maxDelay : Nat := 10000
  multiplier : Binary64 := Binary64.two
  /-- Whether a random part of up to the whole delay is added. -/
  jitter : Bool := true
  deriving DecidableEq, Repr

namespace Backoff

/-- The schedule of retries when none is given. -/
def standard : Backoff := {}

/-- The number of retries that stands for no limit. -/
def unboundedRetries : UInt32 := 0xFFFFFFFF

/-- The schedule of a background dial probe: without limit, from one
second up to thirty. -/
def dialProbe : Backoff where
  maxRetries := unboundedRetries
  initialDelay := 1000
  maxDelay := 30000

/-- The greatest exponent of the multiplier. -/
def exponentCap : Nat := Nat.pow 2 31 - 1

/-- The pause before retry `n` in milliseconds, before the fraction is cut
off. -/
def grownDelay (b : Backoff) (n : UInt32) : Binary64 :=
  let grown := (Binary64.ofNat b.initialDelay).mul
    (b.multiplier.power (min n.toNat exponentCap))
  Binary64.least grown (Binary64.ofNat b.maxDelay)

/-- The pause before retry `n`, without jitter. -/
def delay (b : Backoff) (n : UInt32) : Nat :=
  (b.grownDelay n).toWord

/-- Whether a pause before retry `n` may last `ms`.  To a pause above zero
jitter adds less than the pause itself, before the fraction is cut off. -/
def Admits (b : Backoff) (n : UInt32) (ms : Nat) : Prop :=
  if b.jitter ∧ Binary64.below Binary64.zero (b.grownDelay n) then
    b.delay n ≤ ms ∧ ms ≤ min (2 * b.delay n + 1) (UInt64.size - 1)
  else ms = b.delay n

instance (b : Backoff) (n : UInt32) (ms : Nat) : Decidable (b.Admits n ms) := by
  unfold Admits
  infer_instance

/-- How many pauses there are for jitter to choose from. -/
def choices (b : Backoff) (n : UInt32) : Nat :=
  if b.jitter ∧ Binary64.below Binary64.zero (b.grownDelay n) then
    min (b.delay n + 2) (UInt64.size - b.delay n)
  else 1

/-- The pause before retry `n` that a random number chooses. -/
def drawnDelay (b : Backoff) (n : UInt32) (draw : Nat) : Nat :=
  b.delay n + draw % b.choices n

/-- The count of tries after one more. -/
def countTry (tries : UInt32) : UInt32 :=
  if tries = unboundedRetries then tries else tries + 1

/-- The pause after the given number of failed tries that a random number
chooses, or `none` if the retries are used up. -/
def pauseAfter? (b : Backoff) (tries : UInt32) (draw : Nat) : Option Nat :=
  if tries > b.maxRetries then none else some (b.drawnDelay (tries - 1) draw)

theorem delay_lt_size (b : Backoff) (n : UInt32) : b.delay n < UInt64.size :=
  Binary64.toWord_lt_size _

/-- The pauses that may come out are those that some random number chooses. -/
theorem admits_iff {b : Backoff} {n : UInt32} {ms : Nat} :
    b.Admits n ms ↔ ∃ draw, b.drawnDelay n draw = ms := by
  have hword := b.delay_lt_size n
  unfold Admits drawnDelay choices
  split
  · constructor
    · rintro ⟨hle, hlt⟩
      exact ⟨ms - b.delay n, by rw [Nat.mod_eq_of_lt] <;> omega⟩
    · rintro ⟨draw, rfl⟩
      have hmod := Nat.mod_lt draw (y := min (b.delay n + 2) (UInt64.size - b.delay n)) (by omega)
      omega
  · simp only [Nat.mod_one, Nat.add_zero, exists_const]
    exact eq_comm

theorem countTry_toNat (tries : UInt32) :
    (countTry tries).toNat = min (tries.toNat + 1) (UInt32.size - 1) := by
  unfold countTry unboundedRetries
  split
  · rename_i h
    subst h
    decide
  · rename_i h
    have hne : tries.toNat ≠ 4294967295 := fun he => h (UInt32.toNat_inj.1 he)
    have hlt := tries.toNat_lt
    have hsize : UInt32.size = 4294967296 := rfl
    rw [UInt32.toNat_add, UInt32.toNat_one]
    omega

/-- Without a limit there is always another try. -/
theorem pauseAfter?_unbounded {b : Backoff} (h : b.maxRetries = unboundedRetries)
    (tries : UInt32) (draw : Nat) : (b.pauseAfter? tries draw).isSome := by
  have hle : ¬ tries > b.maxRetries := by
    rw [h]
    have := tries.toNat_lt
    simp only [unboundedRetries, GT.gt, UInt32.lt_iff_toNat_lt]
    simp
    omega
  simp [pauseAfter?, hle]

end Backoff

end PooledRouting
