import PooledRouting.Settings.Environment

/-!
# Settings through variables

Settings that are written to variables, each by the text of its own kind, are
read back as they were.  A variable may be left out if its setting is the
standard one, for then the text of the standard setting is read in its place,
which is the same text (`Renders`, `textOf_eq`).

There is one lemma for each kind of setting (`figureOf_eq`, `truthOf_eq`,
`logFormatOf_eq`, `strategyOf_eq`), and `readAll_eq` puts them together.  All
settings pass through the variables; those that are not valid are refused after
the reading, with the fault of the check (`ofLookup_eq`).

`settings_survive` is the result.
-/

namespace PooledRouting.Settings

/-- The setting of the variable is the standard one. -/
def IsStandard (s : Settings) : Variable → Prop
  | .logLevel => s.logLevel = standard.logLevel
  | .logFormat => s.logFormat = standard.logFormat
  | .poolSize => s.poolSize = standard.poolSize
  | .poolTimeoutMs => s.poolTimeoutMs = standard.poolTimeoutMs
  | .poolFifo => s.poolFifo = standard.poolFifo
  | .minIdleConns => s.minIdleConns = standard.minIdleConns
  | .maxIdleConns => s.maxIdleConns = standard.maxIdleConns
  | .maxActiveConns => s.maxActiveConns = standard.maxActiveConns
  | .connMaxLifetimeSecs => s.connMaxLifetimeSecs = standard.connMaxLifetimeSecs
  | .connMaxIdleTimeSecs => s.connMaxIdleTimeSecs = standard.connMaxIdleTimeSecs
  | .balanceType => s.strategy = standard.strategy
  | .virtualNodes => s.virtualNodes = standard.virtualNodes

/-- The lookup has every setting in its variable, but for standard settings that
may be left out.  It may have anything in other variables. -/
def Renders (s : Settings) (lookup : Lookup) : Prop :=
  ∀ v : Variable, lookup v.name = some (s.entry v) ∨ lookup v.name = none ∧ s.IsStandard v

variable {s : Settings} {lookup : Lookup} {v : Variable}

/-! ## Texts -/

theorem entry_standard (h : s.IsStandard v) : s.entry v = standard.entry v := by
  unfold IsStandard at h
  cases v <;> simp only at h <;> simp only [entry, h]

/-- Whether it is left out or not, the text that is read is that of the
setting. -/
theorem textOf_eq (h : s.Renders lookup) (v : Variable) : textOf lookup v = s.entry v := by
  rcases h v with hset | ⟨hunset, hstandard⟩
  · simp [textOf, hset]
  · simp [textOf, hunset, entry_standard hstandard]

/-! ## Settings of each kind -/

theorem figureOf_eq {n : UInt64} (htext : textOf lookup v = toString n.toNat) :
    figureOf lookup v = .ok n := by
  have hread : Text.readFigure (toString n.toNat).toList = .ok n.toNat :=
    Text.readFigure_toString n.toNat_lt
  unfold figureOf
  rw [htext, hread]
  simp

theorem truthOf_eq {b : Bool} (htext : textOf lookup v = Text.writeTruth b) :
    truthOf lookup v = .ok b := by
  simp [truthOf, htext, Text.readTruth_writeTruth]

theorem logFormatOf_eq {f : LogFormat} (htext : textOf lookup .logFormat = f.name) :
    logFormatOf lookup = .ok f := by
  simp [logFormatOf, htext, LogFormat.parse?_name]

theorem strategyOf_eq {t : Strategy} (htext : textOf lookup .balanceType = t.name) :
    strategyOf lookup = .ok t := by
  simp [strategyOf, htext, Strategy.parse_name]

/-! ## All settings -/

theorem readAll_eq (h : s.Renders lookup) : readAll lookup = .ok s := by
  have htext := textOf_eq h
  have hlogFormat := logFormatOf_eq (htext .logFormat)
  have hpoolSize := figureOf_eq (htext .poolSize)
  have hpoolTimeout := figureOf_eq (htext .poolTimeoutMs)
  have hpoolFifo := truthOf_eq (htext .poolFifo)
  have hminIdle := figureOf_eq (htext .minIdleConns)
  have hmaxIdle := figureOf_eq (htext .maxIdleConns)
  have hmaxActive := figureOf_eq (htext .maxActiveConns)
  have hmaxLifetime := figureOf_eq (htext .connMaxLifetimeSecs)
  have hmaxIdleTime := figureOf_eq (htext .connMaxIdleTimeSecs)
  have hstrategy := strategyOf_eq (htext .balanceType)
  have hvirtualNodes := figureOf_eq (htext .virtualNodes)
  unfold readAll
  rw [hlogFormat, hpoolSize, hpoolTimeout, hpoolFifo, hminIdle, hmaxIdle, hmaxActive,
    hmaxLifetime, hmaxIdleTime, hstrategy, hvirtualNodes, htext .logLevel]
  rfl

/-- What was written is read back, and checked then. -/
theorem ofLookup_eq (h : s.Renders lookup) : ofLookup lookup = s.validate.map fun _ => s := by
  unfold ofLookup
  rw [readAll_eq h]
  cases hvalid : s.validate <;> simp [bind, Except.bind, Except.map, hvalid, pure, Except.pure]

/-- Valid settings survive a trip through variables: they are read back from any
lookup that has each of them in its variable, or leaves out some that are
standard, whatever else it has. -/
theorem settings_survive (s : Settings) (hvalid : s.validate = .ok ()) (lookup : Lookup)
    (hrenders : s.Renders lookup) : ofLookup lookup = .ok s := by
  rw [ofLookup_eq hrenders, hvalid]
  rfl

/-- Settings with the greatest figure and an odd log level, of which two are left
out, beside a variable that is no setting. -/
theorem settings_survive_greatest_figure :
    let s : Settings :=
      { logLevel := " İ=\"", logFormat := .compact, poolSize := 0xFFFFFFFFFFFFFFFF,
        poolFifo := true, strategy := .neverQueue }
    let lookup : Lookup := fun name =>
      if name = "PATH" then some "/bin"
      else if name = "MIN_IDLE_CONNS" ∨ name = "VIRTUAL_NODES" then none
      else (Variable.all.find? fun v => v.name = name).map s.entry
    s.validate = .ok () ∧ s.entry .poolSize = "18446744073709551615" ∧ s.Renders lookup ∧
      ofLookup lookup = .ok s := by
  intro s lookup
  have hvalid : s.validate = .ok () := (validate_eq_ok_iff s).2 (by decide)
  have hrenders : s.Renders lookup := by
    intro v
    cases v with
    | minIdleConns => exact .inr ⟨rfl, rfl⟩
    | virtualNodes => exact .inr ⟨rfl, rfl⟩
    | _ => exact .inl (by decide +kernel)
  exact ⟨hvalid, by decide +kernel, hrenders, settings_survive s hvalid lookup hrenders⟩

end PooledRouting.Settings
