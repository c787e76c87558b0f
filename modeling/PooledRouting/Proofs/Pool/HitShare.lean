import PooledRouting.Proofs.Binary64.Quotient
import PooledRouting.Proofs.Pool.GetLedger

/-!
# The share of hits

The hits and the misses are words of 32 bits, and they are added as such
before the hits are divided by the sum.  The share is told, and is what it
should be, as long as the two counts together fit a word
(`Stats.exists_shareTold_iff`): it is then the quotient of the hits by all
counted calls, rounded once, so it is at most one, and zero only without a
hit.  Otherwise the addition breaks off and there is no share
(`Stats.hitRatio?_eq_none_iff`).

The figures of a pool come to that.  In a run with fewer calls than a word
can count the share is that of the calls that were hits.  A pool with one
connection that is used `2 ^ 32` times in a row has counted `2 ^ 32 - 1` hits
and one miss (`undergoAll_visits`), and tells no share any more.
-/

namespace PooledRouting.Pool

/-! ## The two counts together -/

namespace Stats

variable {s : Stats} {share : Binary64}

/-- The share of hits is told, and is what it says.  Of no calls at all it is
zero. -/
structure ShareTold (s : Stats) (share : Binary64) : Prop where
  told : s.hitRatio? = some share
  /-- The share is the exact quotient, rounded once. -/
  quotient : share = Binary64.ratio s.hits.toNat s.counted
  nearest : share.Rounds (s.hits.toNat / s.counted)
  nonneg : 0 ≤ share.value
  le_one : share.value ≤ 1
  eq_zero_iff : share.value = 0 ↔ s.hits = 0

theorem hitRatio?_eq_none_iff (s : Stats) : s.hitRatio? = none ↔ UInt32.size ≤ s.counted := by
  unfold hitRatio?
  split_ifs with hover <;> simp [hover]

theorem hits_of_counted_eq_zero (hnone : s.counted = 0) : s.hits.toNat = 0 :=
  (Nat.add_eq_zero_iff.1 hnone).1

theorem hitRatio?_of_lt (hfits : s.counted < UInt32.size) :
    s.hitRatio? = some (Binary64.ratio s.hits.toNat s.counted) := by
  rw [hitRatio?, if_neg (Nat.not_le.2 hfits)]
  split
  · rename_i hnone
    rw [hits_of_counted_eq_zero hnone]
    exact congrArg some (Binary64.round_zero _).symm
  · rfl

theorem rounds_ratio_counted (s : Stats) :
    (Binary64.ratio s.hits.toNat s.counted).Rounds (s.hits.toNat / s.counted) := by
  by_cases hnone : s.counted = 0
  · rw [hits_of_counted_eq_zero hnone, Nat.cast_zero, zero_div, Binary64.ratio,
      Binary64.round_zero]
    exact Binary64.rounds_zero
  · exact Binary64.rounds_ratio s.hits.toNat_lt_size hnone

/-- One hit is seen among as many calls as a word can count. -/
theorem pos_of_rounds (hrounds : share.Rounds (s.hits.toNat / s.counted))
    (hfits : s.counted < UInt32.size) (hhit : s.hits.toNat ≠ 0) : 0 < share.value := by
  refine hrounds.pos (k := -32) (by decide) (by decide) ?_
  have hone : (1 : ℚ) ≤ s.hits.toNat := Nat.one_le_cast.2 (Nat.pos_of_ne_zero hhit)
  have hword : (s.counted : ℚ) ≤ 2 ^ 32 := by exact_mod_cast hfits.le
  have hcalls : (0 : ℚ) < s.counted :=
    Nat.cast_pos.2 (Nat.lt_of_lt_of_le (Nat.pos_of_ne_zero hhit) (Nat.le_add_right _ _))
  rw [le_div_iff₀ hcalls]
  calc (2 : ℚ) ^ (-32 : Int) * s.counted ≤ 2 ^ (-32 : Int) * 2 ^ 32 :=
        mul_le_mul_of_nonneg_left hword (Binary64.two_zpow_pos _).le
    _ = 1 := by norm_num
    _ ≤ s.hits.toNat := hone

theorem shareTold_of_lt (hfits : s.counted < UInt32.size) :
    s.ShareTold (Binary64.ratio s.hits.toNat s.counted) where
  told := hitRatio?_of_lt hfits
  quotient := rfl
  nearest := s.rounds_ratio_counted
  nonneg :=
    s.rounds_ratio_counted.nonneg (div_nonneg (Nat.cast_nonneg _) (Nat.cast_nonneg _))
  le_one := by
    refine s.rounds_ratio_counted.le_one (div_le_one_of_le₀ ?_ (Nat.cast_nonneg _))
    exact Nat.cast_le.2 (Nat.le_add_right _ _)
  eq_zero_iff := by
    rw [← UInt32.toNat_inj]
    constructor
    · intro hzero
      by_contra hhit
      exact absurd hzero (pos_of_rounds s.rounds_ratio_counted hfits hhit).ne'
    · intro hnone
      rw [hnone]
      exact (congrArg Binary64.value (Binary64.round_zero _)).trans Binary64.value_zero

/-- Without room for the sum nothing is told. -/
theorem exists_shareTold_iff (s : Stats) :
    (∃ share, s.ShareTold share) ↔ s.counted < UInt32.size := by
  refine ⟨fun ⟨share, htold⟩ => ?_, fun hfits => ⟨_, shareTold_of_lt hfits⟩⟩
  by_contra hover
  have hnone := (hitRatio?_eq_none_iff s).2 (Nat.not_lt.1 hover)
  exact Option.some_ne_none share (htold.told.symm.trans hnone)

end Stats

/-! ## Runs -/

variable {p : Pool} {hits misses : List Nat}

/-- The figures of a pool are the true counts as far as a word holds them. -/
theorem CountedOnce.counted (hc : p.CountedOnce hits misses) :
    p.stats.hits.toNat = hits.length % UInt32.size ∧
      p.stats.misses.toNat = misses.length % UInt32.size := by
  have hhits : p.stats.hits = UInt32.ofNat hits.length := hc.hits_eq
  have hmisses : p.stats.misses = UInt32.ofNat misses.length := hc.misses_eq
  rw [hhits, hmisses]
  exact ⟨UInt32.toNat_ofNat', UInt32.toNat_ofNat'⟩

theorem CountedOnce.length (hc : p.CountedOnce hits misses) :
    p.admissions.length = hits.length + misses.length := by
  rw [hc.split.length_eq, List.length_append]

/-- With fewer calls than a word can count no count is cut off. -/
theorem CountedOnce.counted_of_lt (hc : p.CountedOnce hits misses)
    (hfew : p.admissions.length < UInt32.size) :
    p.stats.hits.toNat = hits.length ∧ p.stats.counted = p.admissions.length := by
  obtain ⟨hhits, hmisses⟩ := hc.counted
  have hlength := hc.length
  rw [Nat.mod_eq_of_lt (by omega)] at hhits hmisses
  refine ⟨hhits, ?_⟩
  unfold Stats.counted
  omega

/-! ### One caller after the other -/

/-- A caller has the connection of the first dial, and gives it back. -/
def visit : List Deed :=
  [.move (.get false), .move .turn, .move (.release (.dialed 1))]

/-- So many callers, one after the other. -/
def visits : Nat → List Deed
  | 0 => []
  | n + 1 => visits n ++ visit

/-- A pool for one caller at a time, without background dials. -/
def lone : Pool :=
  create { poolSize := 1, minIdle := 0 } (fun _ => .answer 0 none) 0 true

/-- The pool after one miss and so many hits, with its connection idle. -/
def idling (hits : Nat) (history : List Event) : Pool :=
  { lone with
    connections := [Connection.openedAt 0 (.dialed 1) 0 0]
    tracked := [.dialed 1]
    idle := [.dialed 1]
    size := 1
    idleCount := 1
    counters := { hits := UInt32.ofNat hits, misses := 1 }
    getCount := hits + 1
    attemptCount := 1
    history }

/-- The pool after as many hits, with its connection taken out by the last of
the callers. -/
def lending (hits : Nat) (history : List Event) : Pool :=
  { idling hits history with
    connections := [{ Connection.openedAt 0 (.dialed 1) 0 0 with inUse := true }]
    idle := []
    idleCount := 0
    slots := 0
    counters := { hits := UInt32.ofNat hits, misses := 1, inUse := 1 } }

/-- The first caller dials. -/
theorem first_visit : ∃ history, lone.undergoAll [.move (.get false), .move .turn] =
    lending 0 history := by
  -- The turn takes the free slot, and goes on with the search for a connection.
  refine ⟨[.served 1 (.dialed 1), .tracked (.dialed 1), .connected (.get 1) 1, .admitted 1], ?_⟩
  show (({ lone with getCount := 1, slots := 0 } : Pool).enter 1) = _
  rw [enter, serve]
  rfl

/-- A later one has the idle connection. -/
theorem next_visit (n : Nat) (history : List Event) : ∃ later,
    (idling n history).undergoAll [.move (.get false), .move .turn] = lending (n + 1) later := by
  refine ⟨.served (n + 2) (.dialed 1) :: .admitted (n + 2) :: history, ?_⟩
  show (({ idling n history with getCount := n + 2, slots := 0 } : Pool).enter (n + 2)) = _
  rw [enter, serve]
  unfold lending
  rw [UInt32.ofNat_add]
  rfl

theorem release_lending (n : Nat) (history : List Event) :
    (lending n history).release (.dialed 1) = idling n history :=
  rfl

/-- Each visit leaves the pool as it was, but for one hit more. -/
theorem undergoAll_visits (n : Nat) : ∃ history,
    lone.undergoAll (visits (n + 1)) = idling n history := by
  induction n with
  | zero =>
    obtain ⟨history, hfirst⟩ := first_visit
    exact ⟨history, (congrArg (release · (.dialed 1)) hfirst).trans (release_lending 0 history)⟩
  | succ n ih =>
    obtain ⟨history, hrest⟩ := ih
    obtain ⟨later, hnext⟩ := next_visit n history
    refine ⟨later, ?_⟩
    rw [visits, undergoAll_append, hrest]
    exact (congrArg (release · (.dialed 1)) hnext).trans (release_lending (n + 1) later)

/-- One miss and so many hits were counted, as far as a word holds them. -/
theorem stats_visits (n : Nat) :
    (lone.undergoAll (visits (n + 1))).stats.hits = UInt32.ofNat n ∧
      (lone.undergoAll (visits (n + 1))).stats.misses = 1 := by
  obtain ⟨history, hidling⟩ := undergoAll_visits n
  rw [hidling]
  exact ⟨rfl, rfl⟩

/-! ## Every run, and all figures -/

/-- The share of hits is told, and is what it says, as long as the two counts
fit one word together, and otherwise no share is told.

In a run of any length, whatever callers and hooks do, the two counts are those
of the calls that were hits and misses, as far as a word holds each.  So with
fewer admitted calls than a word can count the share is that of the calls that
were hits. -/
theorem hit_share_told (s : Stats) (o : Options) (dialer : Nat → Course) (now : Nat)
    (background : Bool) (deeds : List Deed) :
    ((∃ share, s.ShareTold share) ↔ s.counted < UInt32.size) ∧
    (s.hitRatio? = none ↔ UInt32.size ≤ s.counted) ∧
    let p := (create o dialer now background).undergoAll deeds
    ∃ hits misses, p.CountedOnce hits misses ∧
      ((∃ share, p.stats.ShareTold share) ↔
        hits.length % UInt32.size + misses.length % UInt32.size < UInt32.size) ∧
      (p.admissions.length < UInt32.size →
        ∃ share, p.stats.ShareTold share ∧
          share.Rounds (hits.length / p.admissions.length)) := by
  refine ⟨s.exists_shareTold_iff, s.hitRatio?_eq_none_iff, ?_⟩
  intro p
  have hp : Arises o p .start := Arises.undergoAll (.create dialer now background) deeds
  obtain ⟨hits, misses, hc⟩ := hp.countedOnce
  refine ⟨hits, misses, hc, ?_, fun hfew => ?_⟩
  · obtain ⟨hhits, hmisses⟩ := hc.counted
    rw [Stats.exists_shareTold_iff, Stats.counted, hhits, hmisses]
  · obtain ⟨hhits, hcounted⟩ := hc.counted_of_lt hfew
    have htold := Stats.shareTold_of_lt (s := p.stats) (hcounted ▸ hfew)
    have hnearest := htold.nearest
    rw [hhits, hcounted] at hnearest
    exact ⟨_, htold, by rwa [hhits, hcounted]⟩

/-- Three callers, of whom two have the idle connection. -/
theorem hit_share_told_two_thirds :
    let p := lone.undergoAll (visits 3)
    p.admissions.length < UInt32.size ∧ p.stats.hits = 2 ∧ p.stats.misses = 1 ∧
      ∃ share, p.stats.ShareTold share ∧ share.Rounds (2 / 3) := by
  intro p
  obtain ⟨-, -, hits, misses, hc, -, hshare⟩ :=
    hit_share_told p.stats { poolSize := 1, minIdle := 0 } (fun _ => .answer 0 none) 0 true
      (visits 3)
  have hadmissions : p.admissions.length = 3 := by decide +kernel
  have hhits : p.stats.hits = 2 := by decide +kernel
  have hfew : p.admissions.length < UInt32.size := by
    rw [hadmissions]
    decide
  have hlength : hits.length = 2 := by
    have hsame := (hc.counted_of_lt hfew).1
    rw [← hsame]
    exact congrArg UInt32.toNat hhits
  obtain ⟨share, htold, hnearest⟩ := hshare hfew
  have hquotient : ((hits.length : ℚ) / p.admissions.length) = 2 / 3 := by
    rw [hlength, hadmissions]
    norm_num
  exact ⟨hfew, hhits, by decide +kernel, share, htold, hquotient ▸ hnearest⟩

/-- A full word of hits and one miss come to no share.  A pool with one
connection that is used once more than a word can count reports these
figures. -/
theorem hit_share_lost :
    (let s : Stats := { hits := 0xFFFFFFFF, misses := 1 }
    s.hitRatio? = none ∧ ¬∃ share, s.ShareTold share) ∧
    (let s := (lone.undergoAll (visits (0xFFFFFFFF + 1))).stats
    s.hits = 0xFFFFFFFF ∧ s.misses = 1 ∧ s.hitRatio? = none ∧
      ¬∃ share, s.ShareTold share) := by
  have hlost : ∀ s : Stats, s.hits = 0xFFFFFFFF → s.misses = 1 →
      s.hitRatio? = none ∧ ¬∃ share, s.ShareTold share := by
    intro s hhits hmisses
    rw [Stats.exists_shareTold_iff, Stats.hitRatio?_eq_none_iff, Stats.counted, hhits, hmisses]
    decide
  refine ⟨hlost _ rfl rfl, ?_⟩
  obtain ⟨hhits, hmisses⟩ := stats_visits 0xFFFFFFFF
  exact ⟨hhits, hmisses, hlost _ hhits hmisses⟩

end PooledRouting.Pool
