import PooledRouting.Pool.Operations

/-!
# The tasks of a pool, counted

A task of a pool is in `ready`, or it waits for a dial and is in `dials`.
`tasks` puts both in one list, with the dials as the work that they lead
to.  What a pool owes its tasks is then a count over that list: the `get`s
that were admitted, the `get`s that dial, the top-ups.

There are three groups: the kinds of tasks, the counts that the laws of a
pool speak of, and how each change of a pool moves a count of tasks.

A count is `Steady` if it does not look at how a dial came back and passes
over the probe's turns and the second looks of waiting `get`s.  A steady
count is the same before and after the clock wakes whatever is due.
-/

namespace PooledRouting.Pool

/-! ## The kinds of tasks -/

namespace Work

/-- The task is a `get` that was admitted to a slot and has not ended. -/
def isAdmitted : Work → Bool
  | .admitted _ | .dialed (.get _) _ _ => true
  | _ => false

/-- The task is a `get` that dials. -/
def isGetDial : Work → Bool
  | .dialed (.get _) _ _ => true
  | _ => false

/-- The task is a background top-up. -/
def isTopUp : Work → Bool
  | .topUp | .dialed .topUp _ _ => true
  | _ => false

/-- The task dials for a `get` or for a top-up. -/
def isOrdinaryDial : Work → Bool
  | .dialed (.get _) _ _ | .dialed .topUp _ _ => true
  | _ => false

/-- The dial attempt that the task waited for. -/
def attempt? : Work → Option Nat
  | .dialed _ attempt _ => some attempt
  | _ => none

/-- The call of `get` that the task carries out.  A second look at a
waiting `get` is none: the `get` itself is still in the line. -/
def call? : Work → Option Nat
  | .arrive get | .admitted get | .refused get => some get
  | .dialed (.get get) _ _ => some get
  | _ => none

end Work

/-- What the task that waits for the dial goes on with.  How the dial
comes back is left open. -/
def Dial.work (d : Dial) : Work :=
  .dialed d.caller d.attempt none

/-- The call on whose behalf a dial is made. -/
def Caller.call? : Caller → Option Nat
  | .get number => some number
  | _ => none

theorem Caller.call?_eq_some_iff {c : Caller} {get : Nat} : c.call? = some get ↔ c = .get get := by
  cases c <;> simp [call?]

theorem Dial.call?_work (d : Dial) : d.work.call? = d.caller.call? := by
  unfold work
  cases d.caller <;> rfl

/-- The tasks that can go on and those that wait for a dial. -/
def tasks (p : Pool) : List Work :=
  p.ready ++ p.dials.map Dial.work

/-! ## Counts -/

/-- The connections that are marked as held. -/
def inUseCount (p : Pool) : Nat :=
  p.connections.countP Connection.inUse

/-- The `get`s that were admitted and have not ended. -/
def admittedGets (p : Pool) : Nat :=
  p.tasks.countP Work.isAdmitted

/-- The `get`s whose dial has not been dealt with. -/
def getDials (p : Pool) : Nat :=
  p.tasks.countP Work.isGetDial

/-- The background top-ups that have not ended. -/
def topUps (p : Pool) : Nat :=
  p.tasks.countP Work.isTopUp

/-- The dials of `get`s and top-ups that have not been dealt with. -/
def ordinaryDials (p : Pool) : Nat :=
  p.tasks.countP Work.isOrdinaryDial

/-! ## How a count of tasks changes -/

/-- The property does not depend on how a dial came back, and holds of no
turn of the probe and of no second look. -/
structure Steady (P : Work → Bool) : Prop where
  dialed : ∀ c a f, P (.dialed c a f) = P (.dialed c a none)
  recheck : ∀ n, P (.recheck n) = false
  probe : ∀ t, P (.probe t) = false

theorem steady_isAdmitted : Steady Work.isAdmitted :=
  ⟨fun c _ _ => by cases c <;> rfl, fun _ => rfl, fun _ => rfl⟩

theorem steady_isGetDial : Steady Work.isGetDial :=
  ⟨fun c _ _ => by cases c <;> rfl, fun _ => rfl, fun _ => rfl⟩

theorem steady_isTopUp : Steady Work.isTopUp :=
  ⟨fun c _ _ => by cases c <;> rfl, fun _ => rfl, fun _ => rfl⟩

theorem steady_attempt (a : Nat) : Steady fun w => w.attempt? == some a :=
  ⟨fun _ _ _ => rfl, fun _ => rfl, fun _ => rfl⟩

theorem steady_call (n : Nat) : Steady fun w => w.call? == some n :=
  ⟨fun c _ _ => by cases c <;> rfl, fun _ => rfl, fun _ => rfl⟩

variable {P : Work → Bool}

theorem countP_tasks (p : Pool) :
    p.tasks.countP P = p.ready.countP P + p.dials.countP (P ∘ Dial.work) := by
  simp [tasks]

/-- The count of all tasks is the same if neither list changes. -/
theorem countP_tasks_congr {p q : Pool} (hready : q.ready = p.ready) (hdials : q.dials = p.dials) :
    q.tasks.countP P = p.tasks.countP P := by
  rw [countP_tasks, countP_tasks, hready, hdials]

/-- The front task leaves the list when it has its turn. -/
theorem countP_tasks_take {p : Pool} {w : Work} {rest : List Work} (h : p.ready = w :: rest) :
    p.tasks.countP P =
      { p with ready := rest }.tasks.countP P + if P w then 1 else 0 := by
  simp only [countP_tasks, h, List.countP_cons]
  omega

theorem countP_tasks_enqueue (p : Pool) (w : Work) :
    (p.enqueue w).tasks.countP P = p.tasks.countP P + if P w then 1 else 0 := by
  simp only [countP_tasks, enqueue, List.countP_append, List.countP_singleton]
  omega

/-- A cancelled `get` may look a second time. -/
theorem countP_tasks_cancel (hP : Steady P) (p : Pool) (get : Nat) :
    (p.cancel get).tasks.countP P = p.tasks.countP P := by
  unfold cancel
  split
  · rfl
  · dsimp only
    split
    · rw [countP_tasks_enqueue, hP.recheck]
      exact countP_tasks_congr rfl rfl
    · exact countP_tasks_congr rfl rfl

/-- A failed dial may send out the probe. -/
theorem countP_tasks_noteDialFailure (hP : Steady P) (p : Pool) (reason : String) :
    (p.noteDialFailure reason).tasks.countP P = p.tasks.countP P := by
  unfold noteDialFailure
  dsimp only
  split
  · rw [countP_tasks_enqueue, hP.probe]
    exact countP_tasks_congr rfl rfl
  · exact countP_tasks_congr rfl rfl

theorem countP_tasks_topUp (p : Pool) :
    p.topUp.tasks.countP P = p.tasks.countP P + if P .topUp then p.topUpRoom else 0 := by
  simp only [countP_tasks, topUp, List.countP_append, List.countP_replicate]
  omega

/-- A freed slot wakes the `get` at the head of the line, if there is one. -/
theorem countP_tasks_freeSlot (p : Pool) :
    p.freeSlot.tasks.countP P =
      p.tasks.countP P +
        (p.line.head?.map fun w => if P (.admitted w.get) then 1 else 0).getD 0 := by
  unfold freeSlot
  split
  · rename_i hline
    simp [hline, tasks]
  · rename_i w rest hline
    rw [countP_tasks_enqueue, hline]
    rfl

/-- The dial of a task that waits is put at the end. -/
theorem countP_tasks_dial (p : Pool) (d : Dial) :
    { p with dials := p.dials ++ [d] }.tasks.countP P =
      p.tasks.countP P + if P d.work then 1 else 0 := by
  simp only [countP_tasks, List.countP_append, List.countP_singleton, Function.comp_apply]
  omega

/-- What a dial that is due goes on with. -/
theorem Dial.eq_dialed_of_dueWork? {d : Dial} {time : Nat} {w : Work}
    (h : d.dueWork? time = some w) : ∃ fault, w = .dialed d.caller d.attempt fault := by
  unfold Dial.dueWork? at h
  split at h
  · rename_i due fault _
    split at h
    · cases h
      exact ⟨fault, rfl⟩
    · cases h
  · cases h

/-- What the clock adds to the turns: a `get` in the line looks again, the
probe tries again, and a dial goes on. -/
theorem ready_fire (p : Pool) (time : Nat) :
    ∃ due, (p.fire time).ready = p.ready ++ due ∧ ∀ w ∈ due,
      (∃ v ∈ p.line, w = .recheck v.get) ∨ (∃ tries, w = .probe tries) ∨
        ∃ caller attempt fault, w = .dialed caller attempt fault := by
  have hready : (p.fire time).ready = p.ready ++
      ((p.line.filter fun w => w.deadline ≤ time).map (fun w => Work.recheck w.get) ++
        ((p.naps.filter fun n => n.wake ≤ time).map (fun n => Work.probe n.tries) ++
          p.dials.filterMap fun d => d.dueWork? time)) := by
    simp only [fire, List.append_assoc]
  refine ⟨_, hready, fun w hw => ?_⟩
  rcases List.mem_append.1 hw with hline | hw
  · obtain ⟨v, hv, rfl⟩ := List.mem_map.1 hline
    exact .inl ⟨v, (List.mem_filter.1 hv).1, rfl⟩
  rcases List.mem_append.1 hw with hnap | hdial
  · obtain ⟨nap, -, rfl⟩ := List.mem_map.1 hnap
    exact .inr (.inl ⟨_, rfl⟩)
  · obtain ⟨d, -, hd⟩ := List.mem_filterMap.1 hdial
    obtain ⟨fault, rfl⟩ := Dial.eq_dialed_of_dueWork? hd
    exact .inr (.inr ⟨_, _, _, rfl⟩)

private theorem countP_dueWork (hP : Steady P) (time : Nat) (ds : List Dial) :
    (ds.filterMap fun d => d.dueWork? time).countP P +
        (ds.filter fun d => (d.dueWork? time).isNone).countP (P ∘ Dial.work) =
      ds.countP (P ∘ Dial.work) := by
  induction ds with
  | nil => rfl
  | cons d ds ih =>
    -- A dial that is due moves to `ready`; only its fault becomes known.
    cases hd : d.dueWork? time with
    | none =>
      simp only [List.filterMap_cons, hd, List.filter_cons, Option.isNone_none, if_true,
        List.countP_cons]
      omega
    | some w =>
      have hw : P w = P d.work := by
        obtain ⟨fault, rfl⟩ := Dial.eq_dialed_of_dueWork? hd
        exact hP.dialed _ _ _
      simp only [List.filterMap_cons, hd, List.filter_cons, Option.isNone_some,
        Bool.false_eq_true, if_false, List.countP_cons, Function.comp_apply, hw]
      omega

/-- The clock moves no steady count. -/
theorem countP_tasks_fire (hP : Steady P) (p : Pool) (time : Nat) :
    (p.fire time).tasks.countP P = p.tasks.countP P := by
  have hline : ((p.line.filter fun w => w.deadline ≤ time).map
      fun w => Work.recheck w.get).countP P = 0 := by
    simp [hP.recheck]
  have hnaps : ((p.naps.filter fun n => n.wake ≤ time).map
      fun n => Work.probe n.tries).countP P = 0 := by
    simp [hP.probe]
  have hdials := countP_dueWork hP time p.dials
  simp only [countP_tasks, fire, List.countP_append, hline, hnaps]
  omega

/-- A dial that is resolved moves to `ready`, provided that no other dial
has its number. -/
theorem countP_tasks_resolve (hP : Steady P) (p : Pool) (a : Nat) (fault : Option String)
    (h : p.dials.countP (fun d => d.attempt == a) ≤ 1) :
    (p.resolve a fault).2.tasks.countP P = p.tasks.countP P := by
  unfold resolve
  split
  · rfl
  · rename_i d hd
    have hda : d.attempt = a := by simpa using List.find?_some hd
    obtain ⟨before, after, hsplit, -⟩ := (List.find?_eq_some_iff_append.1 hd).2
    -- The number occurs at `d` and nowhere else.
    rw [hsplit, List.countP_append, List.countP_cons] at h
    simp only [hda, beq_self_eq_true, if_true] at h
    have hb : ∀ e ∈ before, (e.attempt != a) = true := fun e he => by
      have : before.countP (fun d => d.attempt == a) = 0 := by omega
      simpa using List.countP_eq_zero.1 this e he
    have ha : ∀ e ∈ after, (e.attempt != a) = true := fun e he => by
      have : after.countP (fun d => d.attempt == a) = 0 := by omega
      simpa using List.countP_eq_zero.1 this e he
    have hkeep : p.dials.filter (fun d => d.attempt != a) = before ++ after := by
      rw [hsplit, List.filter_append, List.filter_cons]
      simp [hda, List.filter_eq_self.2 hb, List.filter_eq_self.2 ha]
    have hw : P (.dialed d.caller a fault) = P d.work := by
      rw [hP.dialed, Dial.work, hda]
    rw [countP_tasks_enqueue, countP_tasks, countP_tasks, hkeep, hsplit, hw]
    simp only [List.countP_append, List.countP_cons, Function.comp_apply]
    omega

/-- A shutdown gives the probe its turn and nobody else. -/
theorem eq_probe_of_mem_probeTurns {p : Pool} {w : Work} (hw : w ∈ p.probeTurns) :
    ∃ tries, w = .probe tries := by
  unfold probeTurns at hw
  rcases List.mem_append.1 hw with hnap | hdial
  · obtain ⟨n, -, rfl⟩ := List.mem_map.1 hnap
    exact ⟨n.tries, rfl⟩
  · obtain ⟨d, -, hd⟩ := List.mem_filterMap.1 hdial
    split at hd
    · rename_i tries _
      cases hd
      exact ⟨tries, rfl⟩
    · cases hd

/-- The dials that a shutdown drops are the probe's. -/
theorem countP_probeDials (hP : ∀ tries attempt, P (.dialed (.probe tries) attempt none) = false)
    (ds : List Dial) : (ds.filter Dial.isProbe).countP (P ∘ Dial.work) = 0 := by
  rw [List.countP_eq_zero]
  intro d hd
  have hprobe := (List.mem_filter.1 hd).2
  unfold Dial.isProbe at hprobe
  split at hprobe
  · rename_i tries hc
    simp [Dial.work, hc, hP]
  · cases hprobe

/-- A shutdown brings on turns of the probe, which a steady count passes
over, and of the `get`s in the line.  The dials of the probe are lost. -/
theorem countP_tasks_shutDown (hP : Steady P) (p : Pool) :
    p.shutDown.tasks.countP P + (p.dials.filter Dial.isProbe).countP (P ∘ Dial.work) =
      p.tasks.countP P + p.line.countP fun w => P (.refused w.get) := by
  have hprobes : p.probeTurns.countP P = 0 := by
    rw [List.countP_eq_zero]
    intro w hw
    obtain ⟨tries, rfl⟩ := eq_probe_of_mem_probeTurns hw
    simp [hP.probe]
  have hdials : (p.dials.filter fun d => !d.isProbe).countP (P ∘ Dial.work) +
      (p.dials.filter Dial.isProbe).countP (P ∘ Dial.work) =
        p.dials.countP (P ∘ Dial.work) := by
    induction p.dials with
    | nil => rfl
    | cons d ds ih =>
      cases hd : d.isProbe <;> simp [hd, List.countP_cons] <;> omega
  have hline : (p.line.map fun w => Work.refused w.get).countP P =
      p.line.countP fun w => P (.refused w.get) := by
    rw [List.countP_map]
    rfl
  simp only [countP_tasks, shutDown, List.countP_append, hprobes, hline]
  omega

end PooledRouting.Pool
