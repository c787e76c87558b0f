import PooledRouting.Proofs.Pool.Faultless
import PooledRouting.Proofs.Pool.GetLedger
import PooledRouting.Proofs.Simulation.Chance

/-!
# A pool in a simulation

A simulation sends one request at a time, so a pool has one call under way at most,
and its dials all take the same time.  `Runs` says so of a pool that has settled, and
is kept by all that a simulation does to a pool: it lets it settle, moves the clock,
makes a call when the last one is over, and takes a connection back.

What a pool counts follows from there (`Runs.lookups`): each call was let in, and is
a hit or a miss.
-/

namespace PooledRouting.Simulation

variable {s : Simulation} {draws : Draws} {finished : List Nat} {limit later m n : Nat} {p : Pool}
  {id : ConnectionId}

/-- The pool has settled, with one call under way at most, which has its answer by the
limit. -/
structure Runs (s : Simulation) (finished : List Nat) (limit n : Nat) (p : Pool) : Prop where
  lone : Pool.Lone s.options finished n p .start
  timely : Pool.Timely (s.dialLatency) limit n p
  rest : p.CallsRest
  faultless : s.Reliable → p.Faultless

namespace Runs

theorem settle (hr : s.Runs finished limit n p) (ho : s.options.Bare) :
    s.Runs finished limit n p.settle := by
  obtain ⟨hl, ht, hrest⟩ := hr.lone.settle hr.timely ho
  exact ⟨hl, ht, hrest, fun hsure => (hr.faultless hsure).settle hr.lone ho⟩

theorem advance (hr : s.Runs finished limit n p) (ho : s.options.Bare) (ms : Nat) :
    s.Runs finished limit n (p.advance ms) := by
  obtain ⟨hl, ht, hrest⟩ := hr.lone.advance hr.timely hr.rest ho ms
  exact ⟨hl, ht, hrest, fun hsure => (hr.faultless hsure).advance hr.lone hr.timely hr.rest ho ms⟩

/-- When the one call is over none is under way. -/
theorem finish (hr : s.Runs finished limit n p)
    (hover : 0 < n → n ≤ p.getCount → p.IsOver finished n) : s.Runs finished later 0 p := by
  refine ⟨{ hr.lone with others := fun m hpos hle _ => ?_ }, ⟨hr.timely.course, fun d hd => ?_,
    .inr fun w hw => hr.rest.outside?_eq_none hw, hr.timely.rechecks⟩, hr.rest, hr.faultless⟩
  · by_cases hm : m = n
    · subst hm
      exact hover hpos hle
    · exact hr.lone.others m hpos hle hm
  · obtain ⟨time, fault, hdue, hlater, -⟩ := hr.timely.due d hd
    exact ⟨time, fault, hdue, hlater, fun hcall =>
      absurd (hr.lone.made_of_dial hd hcall).1 (Nat.lt_irrefl 0)⟩

/-- The next call is made. -/
theorem get (hr : s.Runs finished limit 0 p) (ho : s.options.Bare)
    (htime : p.now + s.dialLatency ≤ later) :
    s.Runs finished later (p.getCount + 1) (p.get false).settle := by
  have hl := hr.lone.get ho fun hpos => absurd hpos (Nat.lt_irrefl 0)
  have ht := hr.timely.get hr.lone htime
  obtain ⟨hl', ht', hrest⟩ := hl.settle ht ho
  exact ⟨hl', ht', hrest, fun hsure => (hr.faultless hsure).get.settle hl ho⟩

/-- A connection is given back. -/
theorem release (hr : s.Runs finished limit n p) (ho : s.options.Bare)
    (hholds : Pool.Session.Holds ⟨p, finished⟩ m id) :
    s.Runs (m :: finished) limit n (p.release id).settle := by
  have hl := hr.lone.release ho hholds
  have ht := hr.timely.release hr.lone ho hholds
  obtain ⟨hl', ht', hrest⟩ := hl.settle ht ho
  exact ⟨hl', ht', hrest,
    fun hsure => ((hr.faultless hsure).release hr.lone ho hholds).settle hl ho⟩

/-- A new pool has no call and no task. -/
theorem create (ho : s.options.Bare) (draws : Draws) (i : Nat) :
    s.Runs [] limit 0 ((s.endpointPlan draws i).endpoint 0).pool := by
  set p := ((s.endpointPlan draws i).endpoint 0).pool
  have hready : p.ready = [] := by
    have hroom : (Pool.create s.options (s.dialer draws i) 0 false).topUpRoom = 0 :=
      if_pos (.inl ho.minIdle)
    show [] ++ List.replicate (Pool.create s.options (s.dialer draws i) 0 false).topUpRoom _ = _
    rw [hroom]
    rfl
  have hnone : ∀ w, w ∉ p.ready := fun w hw => by
    rw [hready] at hw
    cases hw
  have hnew : Pool.Occurs s.options (Pool.create s.options (s.dialer draws i) 0 true) .start :=
    .create _ 0 true
  have hcount : p.getCount = 0 := rfl
  refine ⟨⟨hnew.apply (.setPauses _), ?_, fun m hpos hle _ => ?_, rfl, rfl, rfl,
    fun m hpos hle => ?_⟩, ⟨fun attempt => ⟨_, rfl⟩, nofun, .inr fun w hw => absurd hw (hnone w),
      fun m => hnone _⟩, fun w hw => absurd hw (hnone w), fun hsure => ⟨fun attempt => ?_, nofun,
        fun _ _ _ hin => absurd hin (hnone _), rfl, nofun⟩⟩
  · have hleased := Pool.leased_create s.options (s.dialer draws i) 0 true
    exact hleased.congr (fun _ => rfl) fun _ _ => .rfl
  · omega
  · omega
  · show (if happens s.failureRate (draws.dial i attempt) then some _ else none) = none
    rw [happens_eq_false hsure]
    rfl

/-- The calls that were let in are all calls. -/
theorem mem_admissions_iff (hr : s.Runs finished limit n p) :
    m ∈ p.admissions ↔ 0 < m ∧ m ≤ p.getCount := by
  rw [Pool.mem_admissions_iff]
  refine ⟨hr.lone.occurs.arises.made, fun ⟨hpos, hle⟩ => ?_⟩
  rcases hr.lone.letIn m hpos hle with hin | hready | hhand
  · exact hin
  · cases hr.rest _ hready
  · cases hhand

/-- Each call is a hit or a miss, and none has timed out. -/
theorem lookups (hr : s.Runs finished limit n p) (hfew : p.getCount < UInt32.size) :
    p.stats.hits.toNat + p.stats.misses.toNat = p.getCount ∧ p.stats.timeouts = 0 := by
  obtain ⟨hits, misses, hc⟩ := hr.lone.occurs.arises.countedOnce
  obtain ⟨honce, -, hapart⟩ := List.nodup_append.1 hc.once
  have hall : p.admissions.Perm (List.range' 1 p.getCount) := by
    rw [List.perm_ext_iff_of_nodup (hc.split.nodup_iff.2 honce) List.nodup_range']
    intro m
    rw [hr.mem_admissions_iff, List.mem_range'_1]
    omega
  have hlength : hits.length + misses.length = p.getCount := by
    rw [← List.length_append, ← hc.split.length_eq, hall.length_eq, List.length_range']
  have hnone : p.timedOut = [] := by
    refine List.eq_nil_iff_forall_not_mem.2 fun m hin => ?_
    have hended : 0 < p.endings m :=
      Pool.endings_pos (Pool.mem_timedOut_iff.1 hin) (beq_self_eq_true m)
    have hmade : 0 < m ∧ m ≤ p.getCount := hr.lone.occurs.called.made (by omega)
    exact hapart m (hc.split.mem_iff.1 (hr.mem_admissions_iff.2 hmade)) m hin rfl
  have hhits : p.stats.hits = UInt32.ofNat hits.length := hc.hits_eq
  have hmisses : p.stats.misses = UInt32.ofNat misses.length := hc.misses_eq
  have htimeouts : p.stats.timeouts = UInt32.ofNat p.timedOut.length := hc.timeouts_eq
  refine ⟨?_, by rw [htimeouts, hnone]; rfl⟩
  rw [hhits, hmisses, UInt32.toNat_ofNat_of_lt' (by omega), UInt32.toNat_ofNat_of_lt' (by omega),
    hlength]

end Runs

end PooledRouting.Simulation
