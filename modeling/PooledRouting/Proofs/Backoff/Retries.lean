import Mathlib.Algebra.BigOperators.Group.Finset.Basic
import PooledRouting.Backoff.Retry

/-!
# When a retried operation ends

Whether a call is the last one is a matter of its outcome and its number
(`Plan.Stops`), and so is everything that is counted on the way: before call
`n` there were `n` calls and as many pauses (`Plan.progress`).  The loop keeps
to this from call to call (`progress_next`), and it leaves at the first call
that stops (`runFrom_eq_some_iff`).

Calls are numbered from zero.  The count of tries is one ahead of the number,
until it has no more room in 32 bits; from then on every pause is the one that
belongs to the greatest count (`Plan.pause`).  A limit on the retries is below
that count, so it is passed all the same (`tries_gt_iff`), and what stands for
no limit is never passed.

`retry_ends` is the result.
-/

namespace PooledRouting.Retry

open Finset

variable {ε α : Type} {plan : Plan ε} {sleep : Nat → Nat} {outcome : Nat → Except ε α} {n : Nat}

namespace Plan

/-! ## Calls and pauses by number -/

/-- The retries have a limit, and with call `n` they are used up. -/
def IsSpent (plan : Plan ε) (n : Nat) : Prop :=
  plan.maxRetries < Backoff.unboundedRetries ∧ plan.maxRetries.toNat < n + 1

/-- Call `n` would be the last one: it succeeds, or its failure is not worth
another try, or there are no tries left. -/
def Stops (plan : Plan ε) (outcome : Nat → Except ε α) (n : Nat) : Prop :=
  match outcome n with
  | .ok _ => True
  | .error e => plan.isRetryable e = false ∨ plan.IsSpent n

/-- Call `n` is the last one. -/
def IsLastCall (plan : Plan ε) (outcome : Nat → Except ε α) (n : Nat) : Prop :=
  plan.Stops outcome n ∧ ∀ i < n, ¬plan.Stops outcome i

/-- The pause that follows call `i`, as it is asked for. -/
def pause (plan : Plan ε) (i : Nat) : Nat :=
  plan.delay (UInt32.ofNat (min i (UInt32.size - 2)))

/-- The pauses before call `n` together, as they were asked for. -/
def asked (plan : Plan ε) (n : Nat) : Nat :=
  ∑ i ∈ range n, plan.pause i

/-- The time at which call `n` is made, after the start. -/
def callTime (plan : Plan ε) (sleep : Nat → Nat) (n : Nat) : Nat :=
  ∑ i ∈ range n, sleep (plan.pause i)

/-- The calls before call `n`, if none of them was the last one. -/
def progress (plan : Plan ε) (sleep : Nat → Nat) (n : Nat) : Progress where
  tries := UInt32.ofNat (min n (UInt32.size - 1))
  totalDelay := plan.asked n
  elapsed := plan.callTime sleep n
  callTimes := ((List.range n).map (plan.callTime sleep)).reverse

/-- The ending with call `n`. -/
def ending (plan : Plan ε) (sleep : Nat → Nat) (outcome : Nat → Except ε α) (n : Nat) :
    Ending ε α where
  result := outcome n
  tries := UInt32.ofNat (min (n + 1) (UInt32.size - 1))
  totalDelay := plan.asked n
  elapsed := plan.callTime sleep n
  callTimes := (List.range (n + 1)).map (plan.callTime sleep)

/-- If a sleep lasts as long as it was asked to, calls are made when the pauses
are over. -/
theorem callTime_eq_asked (hexact : ∀ ms, sleep ms = ms) (n : Nat) :
    plan.callTime sleep n = plan.asked n :=
  Finset.sum_congr rfl fun _ _ => hexact _

/-! ## One call -/

theorem toNat_tries (plan : Plan ε) (sleep : Nat → Nat) (n : Nat) :
    (plan.progress sleep n).tries.toNat = min n (UInt32.size - 1) :=
  UInt32.toNat_ofNat_of_lt' (Nat.lt_of_le_of_lt (Nat.min_le_right _ _) (by decide))

theorem toNat_tries_call (plan : Plan ε) (sleep : Nat → Nat) (n : Nat) :
    (plan.progress sleep n).call.tries.toNat = min (n + 1) (UInt32.size - 1) := by
  have hcount := Backoff.countTry_toNat (plan.progress sleep n).tries
  rw [toNat_tries] at hcount
  show (Backoff.countTry _).toNat = _
  omega

/-- The count of tries stays at its greatest value, but every limit is below
that. -/
theorem tries_gt_iff : (plan.progress sleep n).call.tries > plan.maxRetries ↔ plan.IsSpent n := by
  have hcount := plan.toNat_tries_call sleep n
  have hmax := plan.maxRetries.toNat_lt
  have hsize : UInt32.size = 4294967296 := rfl
  have hunbounded : Backoff.unboundedRetries.toNat = 4294967295 := rfl
  unfold IsSpent
  rw [gt_iff_lt, UInt32.lt_iff_toNat_lt, UInt32.lt_iff_toNat_lt, hcount, hunbounded]
  omega

/-- The count of tries is one ahead of the number of the call. -/
theorem delay_tries : plan.delay ((plan.progress sleep n).call.tries - 1) = plan.pause n := by
  have hcount := plan.toNat_tries_call sleep n
  have hsize : UInt32.size = 4294967296 := rfl
  have hone : (1 : UInt32) ≤ (plan.progress sleep n).call.tries := by
    rw [UInt32.le_iff_toNat_le, hcount]
    show 1 ≤ _
    omega
  refine congrArg plan.delay (UInt32.toNat_inj.1 ?_)
  rw [UInt32.toNat_sub_of_le _ _ hone, hcount, UInt32.toNat_ofNat_of_lt' (by omega)]
  show _ - 1 = _
  omega

theorem ending_call :
    (plan.progress sleep n).call.ending (outcome n) = plan.ending sleep outcome n := by
  have htries : (plan.progress sleep n).call.tries = (plan.ending sleep outcome n).tries := by
    refine UInt32.toNat_inj.1 ((plan.toNat_tries_call sleep n).trans ?_)
    exact (plan.toNat_tries sleep (n + 1)).symm
  have htimes : (plan.progress sleep n).call.callTimes.reverse =
      (plan.ending sleep outcome n).callTimes := by
    show (plan.callTime sleep n :: ((List.range n).map (plan.callTime sleep)).reverse).reverse = _
    rw [List.reverse_cons, List.reverse_reverse]
    show _ = (List.range (n + 1)).map (plan.callTime sleep)
    rw [List.range_succ, List.map_append, List.map_singleton]
  unfold Progress.ending
  rw [htries, htimes]
  rfl

/-- A call that is not the last one, and the pause after it. -/
theorem progress_next :
    (plan.progress sleep n).call.pause sleep (plan.pause n) = plan.progress sleep (n + 1) := by
  have htries : (plan.progress sleep n).call.tries = (plan.progress sleep (n + 1)).tries :=
    UInt32.toNat_inj.1 ((plan.toNat_tries_call sleep n).trans (plan.toNat_tries sleep (n + 1)).symm)
  have hasked : plan.asked n + plan.pause n = plan.asked (n + 1) :=
    (Finset.sum_range_succ plan.pause n).symm
  have htime : plan.callTime sleep n + sleep (plan.pause n) = plan.callTime sleep (n + 1) :=
    (Finset.sum_range_succ _ n).symm
  have htimes : plan.callTime sleep n :: ((List.range n).map (plan.callTime sleep)).reverse =
      ((List.range (n + 1)).map (plan.callTime sleep)).reverse := by
    rw [List.range_succ, List.map_append, List.reverse_append]
    rfl
  show Progress.mk (plan.progress sleep n).call.tries (plan.asked n + plan.pause n)
    (plan.callTime sleep n + sleep (plan.pause n))
    (plan.callTime sleep n :: ((List.range n).map (plan.callTime sleep)).reverse) = _
  rw [htries, hasked, htime, htimes]
  rfl

end Plan

/-! ## The loop -/

/-- With call `n` the loop ends, or it goes on with the next one. -/
theorem runFrom_succ (plan : Plan ε) (sleep : Nat → Nat) (outcome : Nat → Except ε α)
    (calls n : Nat) :
    plan.Stops outcome n ∧
        runFrom plan sleep outcome (calls + 1) n (plan.progress sleep n) =
          some (plan.ending sleep outcome n) ∨
      ¬plan.Stops outcome n ∧
        runFrom plan sleep outcome (calls + 1) n (plan.progress sleep n) =
          runFrom plan sleep outcome calls (n + 1) (plan.progress sleep (n + 1)) := by
  rw [runFrom]
  have hending : (plan.progress sleep n).call.ending (outcome n) = plan.ending sleep outcome n :=
    plan.ending_call
  unfold Plan.Stops
  cases houtcome : outcome n with
  | ok a =>
    rw [houtcome] at hending
    exact .inl ⟨trivial, congrArg some hending⟩
  | error e =>
    rw [houtcome] at hending
    have hcond : (plan.progress sleep n).call.tries > plan.maxRetries ∨ plan.isRetryable e = false ↔
        plan.isRetryable e = false ∨ plan.IsSpent n := by
      rw [Plan.tries_gt_iff, or_comm]
    dsimp only
    by_cases hstop : plan.isRetryable e = false ∨ plan.IsSpent n
    · rw [if_pos (hcond.2 hstop)]
      exact .inl ⟨hstop, congrArg some hending⟩
    · rw [if_neg (mt hcond.1 hstop), Plan.delay_tries, Plan.progress_next]
      exact .inr ⟨hstop, rfl⟩

/-- The loop leaves at the first call that stops, if it comes so far. -/
theorem runFrom_eq_some_iff {calls : Nat} {e : Ending ε α} :
    runFrom plan sleep outcome calls n (plan.progress sleep n) = some e ↔
      ∃ m, n ≤ m ∧ m < n + calls ∧ plan.Stops outcome m ∧
        (∀ i, n ≤ i → i < m → ¬plan.Stops outcome i) ∧ e = plan.ending sleep outcome m := by
  induction calls generalizing n with
  | zero =>
    constructor
    · nofun
    · rintro ⟨m, hle, hlt, -⟩
      omega
  | succ calls ih =>
    rcases runFrom_succ plan sleep outcome calls n with ⟨hstop, hrun⟩ | ⟨hgo, hrun⟩
    · rw [hrun]
      constructor
      · rintro ⟨⟩
        exact ⟨n, Nat.le_refl n, by omega, hstop, by omega, rfl⟩
      · rintro ⟨m, hle, -, -, hearlier, rfl⟩
        have hm : ¬n < m := fun hlt => hearlier n (Nat.le_refl n) hlt hstop
        rw [show n = m by omega]
    · rw [hrun, ih]
      constructor
      · rintro ⟨m, hle, hlt, hstop, hearlier, he⟩
        refine ⟨m, by omega, by omega, hstop, fun i hi hlt => ?_, he⟩
        rcases Nat.eq_or_lt_of_le hi with rfl | hi
        · exact hgo
        · exact hearlier i hi hlt
      · rintro ⟨m, hle, hlt, hstop, hearlier, he⟩
        have hne : n ≠ m := fun heq => hgo (heq ▸ hstop)
        exact ⟨m, by omega, by omega, hstop, fun i hi => hearlier i (by omega), he⟩

theorem run_eq_some_iff {calls : Nat} {e : Ending ε α} :
    run plan sleep outcome calls = some e ↔
      ∃ m < calls, plan.IsLastCall outcome m ∧ e = plan.ending sleep outcome m := by
  have hstart : run plan sleep outcome calls =
      runFrom plan sleep outcome calls 0 (plan.progress sleep 0) := rfl
  rw [hstart, runFrom_eq_some_iff]
  constructor
  · rintro ⟨m, -, hlt, hstop, hearlier, he⟩
    exact ⟨m, by omega, ⟨hstop, fun i => hearlier i (Nat.zero_le i)⟩, he⟩
  · rintro ⟨m, hlt, ⟨hstop, hearlier⟩, he⟩
    exact ⟨m, Nat.zero_le m, by omega, hstop, fun i _ => hearlier i, he⟩

/-! ## The last call -/

/-- If any call stops there is a last one. -/
theorem exists_isLastCall (h : plan.Stops outcome n) :
    ∃ m ≤ n, plan.IsLastCall outcome m := by
  induction n using Nat.strongRecOn with
  | _ n ih =>
    by_cases hfirst : ∃ i < n, plan.Stops outcome i
    · obtain ⟨i, hi, hstop⟩ := hfirst
      obtain ⟨m, hm, hlast⟩ := ih i hi hstop
      exact ⟨m, by omega, hlast⟩
    · exact ⟨n, Nat.le_refl n, h, fun i hi hstop => hfirst ⟨i, hi, hstop⟩⟩

/-- Limited retries are used up with this call at the latest. -/
theorem stops_of_limited (hlimited : plan.maxRetries < Backoff.unboundedRetries) :
    plan.Stops outcome plan.maxRetries.toNat := by
  unfold Plan.Stops
  split
  · trivial
  · exact .inr ⟨hlimited, by omega⟩

theorem IsLastCall.le_maxRetries (hlimited : plan.maxRetries < Backoff.unboundedRetries)
    (hlast : plan.IsLastCall outcome n) : n ≤ plan.maxRetries.toNat := by
  by_contra hlt
  exact hlast.2 _ (by omega) (stops_of_limited hlimited)

/-- A retried operation ends with the first call that succeeds, fails for good or
uses up the retries, if there is one and that many calls may be made.  The ending
is the outcome of that call, with the count of the calls, the sum of the pauses
that were asked for, and the times of the calls: those are sums of what the sleeps
took, so they are the sums of the pauses if a sleep lasts as long as it was asked
to.  Without a limit the operation goes on for as long as its failures are worth
another try, and otherwise at most one call more is made than there are retries. -/
theorem retry_ends (plan : Plan ε) (sleep : Nat → Nat) (outcome : Nat → Except ε α) :
    (∀ calls e, run plan sleep outcome calls = some e ↔
      ∃ n < calls, plan.IsLastCall outcome n ∧
        e.result = outcome n ∧ e.tries.toNat = min (n + 1) (UInt32.size - 1) ∧
        e.totalDelay = plan.asked n ∧ e.elapsed = plan.callTime sleep n ∧
        e.callTimes = (List.range (n + 1)).map (plan.callTime sleep)) ∧
    ((∃ calls e, run plan sleep outcome calls = some e) ↔ ∃ n, plan.Stops outcome n) ∧
    ((∀ ms, sleep ms = ms) → ∀ n, plan.callTime sleep n = plan.asked n) ∧
    (plan.maxRetries = Backoff.unboundedRetries →
      (∀ n, ∃ e, outcome n = .error e ∧ plan.isRetryable e = true) →
        ∀ calls, run plan sleep outcome calls = none) ∧
    (plan.maxRetries < Backoff.unboundedRetries →
      (∃ e, run plan sleep outcome (plan.maxRetries.toNat + 1) = some e) ∧
        ∀ calls e, run plan sleep outcome calls = some e →
          e.callTimes.length ≤ plan.maxRetries.toNat + 1) := by
  refine ⟨fun calls e => ?_, ⟨?_, ?_⟩, Plan.callTime_eq_asked, fun hunlimited hfails calls => ?_,
    fun hlimited => ⟨?_, fun calls e hrun => ?_⟩⟩
  · rw [run_eq_some_iff]
    refine exists_congr fun n => and_congr_right fun _ => and_congr_right fun _ => ?_
    constructor
    · rintro rfl
      exact ⟨rfl, plan.toNat_tries sleep (n + 1), rfl, rfl, rfl⟩
    · rintro ⟨hresult, htries, hdelay, helapsed, htimes⟩
      have hcount : e.tries = (plan.ending sleep outcome n).tries :=
        UInt32.toNat_inj.1 (htries.trans (plan.toNat_tries sleep (n + 1)).symm)
      cases e
      cases hresult
      cases hcount
      cases hdelay
      cases helapsed
      cases htimes
      rfl
  · rintro ⟨calls, e, hrun⟩
    obtain ⟨n, -, hlast, -⟩ := run_eq_some_iff.1 hrun
    exact ⟨n, hlast.1⟩
  · rintro ⟨n, hstop⟩
    obtain ⟨m, -, hlast⟩ := exists_isLastCall hstop
    exact ⟨m + 1, _, run_eq_some_iff.2 ⟨m, Nat.lt_succ_self m, hlast, rfl⟩⟩
  · refine Option.eq_none_iff_forall_ne_some.2 fun e hrun => ?_
    obtain ⟨n, -, ⟨hstop, -⟩, -⟩ := run_eq_some_iff.1 hrun
    obtain ⟨e, he, hretry⟩ := hfails n
    unfold Plan.Stops at hstop
    rw [he] at hstop
    rcases hstop with hfinal | ⟨hlimit, -⟩
    · cases hretry.symm.trans hfinal
    · rw [hunlimited] at hlimit
      exact absurd hlimit (UInt32.lt_irrefl _)
  · have hstop : plan.Stops outcome plan.maxRetries.toNat := stops_of_limited hlimited
    obtain ⟨m, hm, hlast⟩ := exists_isLastCall hstop
    exact ⟨_, run_eq_some_iff.2 ⟨m, by omega, hlast, rfl⟩⟩
  · obtain ⟨n, -, hlast, rfl⟩ := run_eq_some_iff.1 hrun
    have hle := IsLastCall.le_maxRetries hlimited hlast
    show ((List.range (n + 1)).map (plan.callTime sleep)).length ≤ _
    rw [List.length_map, List.length_range]
    omega

/-- The third call succeeds, after pauses of 100 and 200 milliseconds. -/
theorem retry_ends_third_call :
    let plan : Plan String := ⟨2, fun retry => 100 * (retry.toNat + 1), fun _ => true⟩
    let outcome : Nat → Except String Nat := fun n => if n < 2 then .error "down" else .ok n
    ∃ e, run plan id outcome 3 = some e ∧ e.result = .ok 2 ∧ e.tries.toNat = 3 ∧
      e.totalDelay = 300 ∧ e.elapsed = plan.asked 2 ∧ e.elapsed = 300 ∧
      e.callTimes = [0, 100, 300] := by
  intro plan outcome
  obtain ⟨hends, -, hexact, -⟩ := retry_ends plan id outcome
  have hlast : plan.IsLastCall outcome 2 := by
    refine ⟨trivial, fun i hi => ?_⟩
    have hfails : outcome i = .error "down" := if_pos hi
    have hspent : ¬plan.IsSpent i := by
      rintro ⟨-, hlt⟩
      exact absurd hlt (Nat.not_lt.2 hi)
    unfold Plan.Stops
    rw [hfails]
    rintro (hfinal | hlimit)
    · cases hfinal
    · exact hspent hlimit
  have hrun := (hends 3 (plan.ending id outcome 2)).2 ⟨2, by decide, hlast, rfl, rfl, rfl, rfl, rfl⟩
  exact ⟨_, hrun, rfl, by decide +kernel, by decide +kernel, hexact (fun _ => rfl) 2,
    by decide +kernel, by decide +kernel⟩

end PooledRouting.Retry
