import PooledRouting.Command.Basic
import PooledRouting.Proofs.Simulation.Balance

/-!
# What an accepted command line comes to

A command line that is accepted is simulated (`Accepts.run_eq`).  For one request at a
time, with no idle connections kept ready, there are two ends: the command breaks off for
one of the reasons in `Breaks`, or it comes to a report that balances
(`report_balances`).  The reasons are exact, and each of them does occur
(`no_report_without_room`).
-/

namespace PooledRouting

namespace Command

variable {words : List String} {environment : Variables} {file : Option String} {a : Arguments}
  {settings : Settings}

/-- The command accepts its words and the variables of the environment and the file: they
can be read, the settings are valid, also with the arguments in their place, and there is an
endpoint. -/
structure Accepts (words : List String) (environment : Variables) (file : Option String)
    (a : Arguments) (settings : Settings) : Prop where
  words : Arguments.read words = .ok a
  lookup : ∃ vs, file.elim (.ok environment) (VariableFile.load environment) = .ok vs ∧
    settingsOf a vs = .ok settings
  endpoints : 0 < a.endpoints

/-- A computation in two steps that succeeds has succeeded in each. -/
theorem exists_of_bind_eq_ok {ε α β : Type} {x : Except ε α} {f : α → Except ε β} {y : β}
    (h : x >>= f = .ok y) : ∃ v, x = .ok v ∧ f v = .ok y := by
  cases x with
  | error fault => cases h
  | ok v => exact ⟨v, rfl, h⟩

theorem validate_of_settingsOf {vs : Variables} (h : settingsOf a vs = .ok settings) :
    settings.validate = .ok () := by
  obtain ⟨read, -, h⟩ := exists_of_bind_eq_ok h
  obtain ⟨⟨⟩, hvalid, h⟩ := exists_of_bind_eq_ok h
  cases h
  exact hvalid

/-- The pools of a simulation without idle connections kept ready. -/
theorem Accepts.bare (h : Accepts words environment file a settings)
    (hidle : settings.minIdleConns = 0) : (simulationOf a settings).options.Bare := by
  obtain ⟨vs, -, hsettings⟩ := h.lookup
  have hsize := ((Settings.validate_eq_ok_iff _).1 (validate_of_settingsOf hsettings)).1
  refine ⟨rfl, congrArg UInt64.toNat hidle, Nat.pos_of_ne_zero fun hzero => hsize ?_⟩
  exact UInt64.toNat_inj.1 hzero

/-- What is accepted is simulated. -/
theorem Accepts.run_eq (h : Accepts words environment file a settings) (memory : Nat → Bool)
    (draws : Simulation.Draws) :
    run words environment file memory draws = conduct (simulationOf a settings) memory draws := by
  obtain ⟨vs, hvs, hsettings⟩ := h.lookup
  have hplan : plan a vs = .ok (simulationOf a settings) := by
    unfold plan
    rw [hsettings]
    exact if_neg (Nat.ne_of_gt h.endpoints)
  unfold run
  rw [h.words]
  dsimp only
  rw [hvs]
  dsimp only
  unfold execute
  rw [hplan]

/-- One request is in flight at a time, and no pool keeps idle connections ready. -/
structure OneByOne (a : Arguments) (settings : Settings) : Prop where
  one : a.concurrency ≤ 1 ∨ a.requests ≤ 1
  minIdle : settings.minIdleConns = 0

/-! ## Breaking off -/

/-- Why the command breaks off although it has accepted everything. -/
inductive Breaks (memory : Nat → Bool) (a : Arguments) (settings : Settings) : Breakdown → Prop where
  /-- A list of so many connections has no addresses. -/
  | noAddresses (h : addressableEntries < settings.poolSize.toNat) :
      Breaks memory a settings .noAddresses
  /-- There is no memory for the endpoints or for the connections of one. -/
  | noMemory (h : memory a.endpoints = false ∨ memory settings.poolSize.toNat = false) :
      Breaks memory a settings .noMemory
  /-- The endpoints take turns by weight, and one of the turns overflows. -/
  | overflow (h : (simulationOf a settings).Overflows a.requests) : Breaks memory a settings .overflow

theorem allot_cases (memory : Nat → Bool) (entries : Nat) :
    (allot memory entries = .error .noAddresses ∧ addressableEntries < entries) ∨
      (allot memory entries = .error .noMemory ∧ memory entries = false) ∨
      (allot memory entries = .ok () ∧ entries ≤ addressableEntries ∧ memory entries = true) := by
  unfold allot
  split
  · exact .inl ⟨rfl, ‹_›⟩
  · split
    · exact .inr (.inr ⟨rfl, Nat.le_of_not_lt ‹_›, ‹_›⟩)
    · exact .inr (.inl ⟨rfl, Bool.eq_false_iff.2 ‹_›⟩)

/-- There is no room, and the command breaks off, or there is, and that is no reason to. -/
theorem allotFor_cases (memory : Nat → Bool) (hendpoints : a.endpoints < UInt32.size) :
    (∃ breakdown, allotFor memory (simulationOf a settings) = .error breakdown ∧
      Breaks memory a settings breakdown ∧ breakdown ≠ .overflow) ∨
      (allotFor memory (simulationOf a settings) = .ok () ∧
        ∀ breakdown, Breaks memory a settings breakdown → breakdown = .overflow) := by
  have hmost : UInt32.size ≤ addressableEntries := by decide +kernel
  have hfor : allotFor memory (simulationOf a settings) =
      (allot memory a.endpoints).bind fun _ => allot memory settings.poolSize.toNat := rfl
  rw [hfor]
  rcases allot_cases memory a.endpoints with ⟨-, hmany⟩ | ⟨hnone, hmemory⟩ | ⟨hroom, -, hmemory⟩
  · omega
  · rw [hnone]
    exact .inl ⟨_, rfl, .noMemory (.inl hmemory), nofun⟩
  rw [hroom]
  rcases allot_cases memory settings.poolSize.toNat with
    ⟨hnone, hmany⟩ | ⟨hnone, hmemory⟩ | ⟨hroom, hfew, hmemory'⟩
  · exact .inl ⟨_, hnone, .noAddresses hmany, nofun⟩
  · exact .inl ⟨_, hnone, .noMemory (.inr hmemory), nofun⟩
  refine .inr ⟨hroom, fun breakdown hwhy => ?_⟩
  cases hwhy with
  | noAddresses hmany => omega
  | noMemory hnone => rcases hnone with hnone | hnone <;> simp_all
  | overflow _ => rfl

/-- Where there is a reason to, the command breaks off. -/
theorem Accepts.breaks_off (h : Accepts words environment file a settings)
    (hone : OneByOne a settings) (hendpoints : a.endpoints < UInt32.size)
    (hrequests : a.requests < UInt32.size) {memory : Nat → Bool} {breakdown : Breakdown}
    (hwhy : Breaks memory a settings breakdown) (draws : Simulation.Draws) :
    ∃ first, Breaks memory a settings first ∧
      run words environment file memory draws = .broken first := by
  rw [h.run_eq]
  unfold conduct
  rcases allotFor_cases memory hendpoints with ⟨first, hnone, hfirst, -⟩ | ⟨hroom, honly⟩
  · rw [hnone]
    exact ⟨first, hfirst, rfl⟩
  obtain rfl := honly breakdown hwhy
  rw [hroom]
  rcases Simulation.run_balances (s := simulationOf a settings) (h.bare hone.minIdle) h.endpoints
    hendpoints hrequests hone.one draws with ⟨hbroken, -⟩ | ⟨r, -, hnot, -⟩
  · rw [hbroken]
    exact ⟨_, hwhy, rfl⟩
  · cases hwhy with
    | overflow hover => exact absurd hover hnot

/-- For every command line and environment that is accepted, for one request at a time, with
no connections kept ready, and for less than `2 ^ 32` endpoints and requests: whatever
the strategy and the chance of a dial, the command comes to a report on all requests that
balances, unless it breaks off for want of room or because the choice of an endpoint
overflows; and if the failure rate is not a number, or not above zero, no request fails. -/
theorem report_balances (haccepts : Accepts words environment file a settings)
    (hone : OneByOne a settings) (hendpoints : a.endpoints < UInt32.size)
    (hrequests : a.requests < UInt32.size) (memory : Nat → Bool) (draws : Simulation.Draws) :
    (∃ breakdown, Breaks memory a settings breakdown ∧
      run words environment file memory draws = .broken breakdown ∧
      (breakdown = .overflow → 2 ^ 64 ≤ a.endpoints * (a.endpoints + 1) ^ 2)) ∨
    ((∀ breakdown, ¬Breaks memory a settings breakdown) ∧
      ∃ r, run words environment file memory draws = .report r ∧ r.requests = a.requests ∧
        r.Balances ∧ (Binary64.below Binary64.zero a.dialFailureRate = false →
          r.failed = 0 ∧ r.errors = [])) := by
  by_cases hbreaks : ∃ breakdown, Breaks memory a settings breakdown
  · left
    obtain ⟨breakdown, hwhy⟩ := hbreaks
    obtain ⟨first, hfirst, hrun⟩ := haccepts.breaks_off hone hendpoints hrequests hwhy draws
    refine ⟨first, hfirst, hrun, fun hover => ?_⟩
    subst hover
    cases hfirst with
    | overflow hover => exact hover.le haccepts.endpoints hendpoints
  · right
    rw [not_exists] at hbreaks
    refine ⟨hbreaks, ?_⟩
    rw [haccepts.run_eq]
    unfold conduct
    rcases allotFor_cases memory hendpoints with ⟨breakdown, -, hwhy, -⟩ | ⟨hroom, -⟩
    · exact absurd hwhy (hbreaks breakdown)
    rw [hroom]
    rcases Simulation.run_balances (s := simulationOf a settings) (haccepts.bare hone.minIdle)
      haccepts.endpoints hendpoints hrequests hone.one draws with ⟨-, hover⟩ | ⟨r, hr, -, hbalances⟩
    · exact absurd (.overflow hover) (hbreaks .overflow)
    · rw [hr]
      exact ⟨r, rfl, hbalances⟩

/-- Three requests to two endpoints. -/
theorem report_balances_two_endpoints :
    ∃ r, run ["-e", "2", "--requests=3", "-c1"] ["MIN_IDLE_CONNS=0"] none (fun _ => true)
        ⟨fun _ _ => 7, fun _ _ => 0⟩ = .report r ∧
      r.requests = 3 ∧ r.Balances ∧ r.failed = 0 ∧ r.errors = [] := by
  have haccepts : Accepts ["-e", "2", "--requests=3", "-c1"] ["MIN_IDLE_CONNS=0"] none
      { endpoints := 2, requests := 3, concurrency := 1 } { minIdleConns := 0 } :=
    ⟨by decide +kernel, ⟨["MIN_IDLE_CONNS=0"], rfl, by decide +kernel⟩, by decide⟩
  rcases report_balances haccepts ⟨.inl (Nat.le_refl 1), rfl⟩ (by decide) (by decide)
    (fun _ => true) ⟨fun _ _ => 7, fun _ _ => 0⟩ with
    ⟨breakdown, hwhy, -, hheavy⟩ | ⟨-, r, hr, hrequests, hbalances, hsure⟩
  · cases hwhy with
    | noAddresses hmany => exact absurd hmany (by decide +kernel)
    | noMemory hnone => exact absurd hnone (by decide)
    | overflow _ => exact absurd (hheavy rfl) (by decide)
  · exact ⟨r, hr, hrequests, hbalances, hsure (by decide +kernel)⟩

/-- One request to an endpoint whose pool is to have so many connections. -/
def onePool (size : String) : List String :=
  ["-e", "1", "-c", "1", "-r", "1", "--pool-size", size]

/-- Two requests to `2 ^ 32 - 1` endpoints that take turns by weight. -/
def manyEndpoints : List String :=
  ["-s", "wrr", "-e", "4294967295", "-c", "1", "-r", "2"]

/-- Three command lines that are accepted and come to no report: for `2 ^ 61` connections there
are no addresses, for `2 ^ 59` there need not be memory, and the choice of the second of
`2 ^ 32 - 1` endpoints overflows, however much memory there is. -/
theorem no_report_without_room :
    (∃ a settings, Accepts (onePool "2305843009213693952") ["MIN_IDLE_CONNS=0"] none a settings ∧
      OneByOne a settings ∧ a.endpoints = 1 ∧ a.requests = 1 ∧ ∀ draws,
        run (onePool "2305843009213693952") ["MIN_IDLE_CONNS=0"] none (fun _ => true) draws =
          .broken .noAddresses) ∧
    (∃ a settings, Accepts (onePool "576460752303423488") ["MIN_IDLE_CONNS=0"] none a settings ∧
      OneByOne a settings ∧ a.endpoints = 1 ∧ a.requests = 1 ∧ ∀ draws,
        run (onePool "576460752303423488") ["MIN_IDLE_CONNS=0"] none
          (fun entries => entries < 0xFFFFFFFF) draws = .broken .noMemory) ∧
    ∃ a settings, Accepts manyEndpoints ["MIN_IDLE_CONNS=0"] none a settings ∧
      OneByOne a settings ∧ a.endpoints = 4294967295 ∧ a.requests = 2 ∧ ∀ draws,
        run manyEndpoints ["MIN_IDLE_CONNS=0"] none (fun _ => true) draws = .broken .overflow := by
  refine ⟨?_, ?_, ?_⟩
  · have haccepts : Accepts (onePool "2305843009213693952") ["MIN_IDLE_CONNS=0"] none
        { endpoints := 1, requests := 1, concurrency := 1, poolSize := some 2305843009213693952 }
        { minIdleConns := 0, poolSize := 2305843009213693952 } :=
      ⟨by decide +kernel, ⟨["MIN_IDLE_CONNS=0"], rfl, by decide +kernel⟩, by decide⟩
    refine ⟨_, _, haccepts, ⟨.inl (Nat.le_refl 1), rfl⟩, rfl, rfl, fun draws => ?_⟩
    obtain ⟨first, hfirst, hrun⟩ := haccepts.breaks_off ⟨.inl (Nat.le_refl 1), rfl⟩ (by decide)
      (by decide) (.noAddresses (by decide +kernel) : Breaks (fun _ => true) _ _ _) draws
    cases hfirst with
    | noAddresses _ => exact hrun
    | noMemory hnone => exact absurd hnone (by decide)
    | overflow hover => cases hover.1
  · have haccepts : Accepts (onePool "576460752303423488") ["MIN_IDLE_CONNS=0"] none
        { endpoints := 1, requests := 1, concurrency := 1, poolSize := some 576460752303423488 }
        { minIdleConns := 0, poolSize := 576460752303423488 } :=
      ⟨by decide +kernel, ⟨["MIN_IDLE_CONNS=0"], rfl, by decide +kernel⟩, by decide⟩
    refine ⟨_, _, haccepts, ⟨.inl (Nat.le_refl 1), rfl⟩, rfl, rfl, fun draws => ?_⟩
    obtain ⟨first, hfirst, hrun⟩ := haccepts.breaks_off ⟨.inl (Nat.le_refl 1), rfl⟩ (by decide)
      (by decide) (.noMemory (.inr (by decide +kernel)) :
        Breaks (fun entries => entries < 0xFFFFFFFF) _ _ _) draws
    cases hfirst with
    | noAddresses hmany => exact absurd hmany (by decide +kernel)
    | noMemory _ => exact hrun
    | overflow hover => cases hover.1
  · have haccepts : Accepts manyEndpoints ["MIN_IDLE_CONNS=0"] none
        { strategy := some .weightedRoundRobin, endpoints := 4294967295, requests := 2
          concurrency := 1 }
        { strategy := .weightedRoundRobin, minIdleConns := 0 } :=
      ⟨by decide +kernel, ⟨["MIN_IDLE_CONNS=0"], rfl, by decide +kernel⟩, by decide⟩
    refine ⟨_, _, haccepts, ⟨.inl (Nat.le_refl 1), rfl⟩, rfl, rfl, fun draws => ?_⟩
    obtain ⟨first, hfirst, hrun⟩ := haccepts.breaks_off ⟨.inl (Nat.le_refl 1), rfl⟩ (by decide)
      (by decide) (.overflow (Simulation.overflows_of_many rfl (by decide) (by decide) le_rfl) :
        Breaks (fun _ => true) _ _ _) draws
    cases hfirst with
    | noAddresses hmany => exact absurd hmany (by decide +kernel)
    | noMemory hnone => exact absurd hnone (by decide)
    | overflow _ => exact hrun

end Command

end PooledRouting
