import PooledRouting.Proofs.Pool.Chains

/-!
# Dial attempts

Attempts are numbered, and each number is in one place at most: with a
task that waits for the attempt or has its answer, at the connection that
came of it, or in the history of the probe, which keeps no connection.
`uses` counts these places, and `Attempts` says that there is at most one
for a number that was given out and none for any other.

With the numbers of the foreign connections this makes the ids of all
connections unique, which `Occurs.unique` states.
-/

namespace PooledRouting.Pool

/-! ## The places of an attempt -/

/-- Whether the answer of the attempt is in hand, as a count. -/
def Hand.answers (attempt : Nat) : Hand → Nat
  | .work w => if w.attempt? = some attempt then 1 else 0
  | .retiring _ next | .looking next => next.answers attempt
  | _ => 0

/-- With this attempt the probe reached the backend. -/
def Event.isProbed (attempt : Nat) : Event → Bool
  | .connected (.probe _) a => a == attempt
  | _ => false

/-- The connections with this id. -/
def idCount (p : Pool) (id : ConnectionId) : Nat :=
  (p.connections.map Connection.id).count id

/-- The tasks that wait for the attempt or have its answer. -/
def awaiting (p : Pool) (attempt : Nat) : Nat :=
  p.tasks.countP fun w => w.attempt? == some attempt

/-- The times that the probe reached the backend with the attempt. -/
def probed (p : Pool) (attempt : Nat) : Nat :=
  p.history.countP (Event.isProbed attempt)

/-- The places of the attempt, but for the hand. -/
def places (p : Pool) (attempt : Nat) : Nat :=
  p.awaiting attempt + p.idCount (.dialed attempt) + p.probed attempt

/-- A number is in one place at most, and in none before it is given
out. -/
structure Attempts (p : Pool) (h : Hand) : Prop where
  once : ∀ a, p.places a + h.answers a ≤ 1
  fresh : ∀ a, p.attemptCount < a → p.places a + h.answers a = 0
  foreign_once : ∀ n, p.idCount (.foreign n) ≤ 1
  foreign_fresh : ∀ n, p.foreignCount < n → p.idCount (.foreign n) = 0

variable {p q : Pool} {h k : Hand}

/-! ## Ids -/

theorem Attempts.idCount_le (hi : Attempts p h) (id : ConnectionId) : p.idCount id ≤ 1 := by
  cases id with
  | dialed a =>
    have ha := hi.once a
    unfold places at ha
    omega
  | foreign n => exact hi.foreign_once n

theorem Attempts.unique (hi : Attempts p h) : p.Unique :=
  List.nodup_iff_count_le_one.2 hi.idCount_le

theorem idCount_pos {id : ConnectionId} {c : Connection} (hc : p.connection? id = some c) :
    0 < p.idCount id := by
  unfold idCount
  rw [List.count_pos_iff, ← connection?_id hc]
  exact List.mem_map_of_mem (connection?_mem hc)

theorem connection?_of_idCount_pos {id : ConnectionId} (hid : 0 < p.idCount id) :
    ∃ c, p.connection? id = some c := by
  rw [← Option.isSome_iff_exists]
  unfold idCount at hid
  obtain ⟨c, hc, rfl⟩ := List.mem_map.1 (List.count_pos_iff.1 hid)
  exact List.find?_isSome.2 ⟨c, hc, beq_self_eq_true _⟩

theorem idCount_modify {id : ConnectionId} {f : Connection → Connection}
    (hf : ∀ c, c.id = id → (f c).id = id) (p : Pool) (other : ConnectionId) :
    (p.modify id f).idCount other = p.idCount other := by
  unfold idCount
  rw [map_id_modify hf]

theorem idCount_closeConnection (p : Pool) (id other : ConnectionId) :
    (p.closeConnection id).2.idCount other = p.idCount other := by
  cases hc : p.connection? id with
  | none => rw [closeConnection_of_none hc]
  | some c =>
    rw [closeConnection_of_some hc]
    exact idCount_modify (fun _ _ => id_close hc _) p other

theorem idCount_open (p : Pool) (c : Connection) (other : ConnectionId) :
    { p with connections := p.connections ++ [c] }.idCount other =
      p.idCount other + if other = c.id then 1 else 0 := by
  unfold idCount
  rw [List.map_append, List.count_append]
  by_cases hid : other = c.id
  · simp [hid]
  · have hne : c.id ≠ other := fun h => hid h.symm
    simp [hid, hne]

/-- The answer in hand has not become a connection yet. -/
theorem Attempts.new {caller : Caller} {attempt : Nat} {fault : Option String}
    (hi : Attempts p (.work (.dialed caller attempt fault))) :
    p.idCount (.dialed attempt) = 0 := by
  have hone := hi.once attempt
  unfold places at hone
  simp [Hand.answers, Work.attempt?] at hone
  omega

theorem Attempts.unique_connect {caller : Caller} {attempt : Nat} {fault : Option String}
    (hi : Attempts p (.work (.dialed caller attempt fault))) :
    (p.connect caller attempt).Unique := by
  refine List.nodup_iff_count_le_one.2 fun id => ?_
  have hopen : (p.connect caller attempt).idCount id =
      p.idCount id + if id = .dialed attempt then 1 else 0 :=
    idCount_open p (.openedAt _ _ _ _) id
  show (p.connect caller attempt).idCount id ≤ 1
  rw [hopen]
  by_cases hid : id = .dialed attempt
  · rw [hid, hi.new]
    simp
  · rw [if_neg hid]
    exact hi.idCount_le id

/-- No two dials under way have the same number. -/
theorem Attempts.dials_le (hi : Attempts p h) (attempt : Nat) :
    p.dials.countP (fun d => d.attempt == attempt) ≤ 1 := by
  have hdials : p.dials.countP (fun d => d.attempt == attempt) ≤ p.awaiting attempt := by
    unfold awaiting
    rw [countP_tasks]
    exact Nat.le_add_left _ _
  have hone := hi.once attempt
  unfold places at hone
  omega

/-! ## The places after a change -/

/-- The places are the same if the tasks, the connections and the history
are as far as they show the attempt. -/
theorem places_congr {a : Nat} (htasks : q.awaiting a = p.awaiting a)
    (hids : q.idCount (.dialed a) = p.idCount (.dialed a)) (hprobed : q.probed a = p.probed a) :
    q.places a = p.places a := by
  unfold places
  rw [htasks, hids, hprobed]

theorem places_enqueue {w : Work} (hw : w.attempt? = none) (p : Pool) (a : Nat) :
    (p.enqueue w).places a = p.places a := by
  refine places_congr (p := p) ?_ rfl rfl
  unfold awaiting
  rw [countP_tasks_enqueue, hw]
  rfl

/-- The task at the front takes its answer in hand. -/
theorem awaiting_take {w : Work} {rest : List Work} (h : p.ready = w :: rest) (a : Nat) :
    p.awaiting a = { p with ready := rest }.awaiting a + (Hand.work w).answers a := by
  unfold awaiting
  rw [countP_tasks_take h]
  simp [Hand.answers]

theorem awaiting_dial (p : Pool) (d : Dial) (a : Nat) :
    { p with dials := p.dials ++ [d] }.awaiting a =
      p.awaiting a + if d.attempt = a then 1 else 0 := by
  unfold awaiting
  rw [countP_tasks_dial]
  simp [Dial.work, Work.attempt?]

theorem places_topUp (p : Pool) (a : Nat) : p.topUp.places a = p.places a := by
  refine places_congr (p := p) ?_ rfl rfl
  unfold awaiting
  rw [countP_tasks_topUp]
  rfl

theorem places_modify {id : ConnectionId} {f : Connection → Connection}
    (hf : ∀ c, c.id = id → (f c).id = id) (p : Pool) (a : Nat) :
    (p.modify id f).places a = p.places a :=
  places_congr (p := p) rfl (idCount_modify hf p _) rfl

theorem places_closeConnection (p : Pool) (id : ConnectionId) (a : Nat) :
    (p.closeConnection id).2.places a = p.places a := by
  refine places_congr ?_ (idCount_closeConnection p id _) ?_
  · rw [closeConnection_frame]
    rfl
  · exact countP_history_closeConnection (fun _ => rfl) p id

theorem places_cancel (p : Pool) (get a : Nat) : (p.cancel get).places a = p.places a := by
  have hframe := cancel_frame p get
  exact places_congr (countP_tasks_cancel (steady_attempt a) p get)
    (by rw [hframe]; rfl) (by rw [hframe]; rfl)

/-- With its number once among the dials, a dial that is resolved moves
to `ready` and no other does. -/
theorem places_resolve {attempt : Nat}
    (hone : p.dials.countP (fun d => d.attempt == attempt) ≤ 1) (fault : Option String)
    (a : Nat) : (p.resolve attempt fault).2.places a = p.places a := by
  have hframe := resolve_frame p attempt fault
  exact places_congr (countP_tasks_resolve (steady_attempt a) p attempt fault hone)
    (by rw [hframe]; rfl) (by rw [hframe]; rfl)

theorem places_fire (p : Pool) (time a : Nat) : (p.fire time).places a = p.places a :=
  places_congr (countP_tasks_fire (steady_attempt a) p time) rfl rfl

theorem places_shutDown_le (p : Pool) (a : Nat) : p.shutDown.places a ≤ p.places a := by
  have hshut := countP_tasks_shutDown (steady_attempt a) p
  have hrefused : p.line.countP (fun w => (Work.refused w.get).attempt? == some a) = 0 :=
    List.countP_eq_zero.2 fun _ _ => by simp [Work.attempt?]
  have hless : p.shutDown.awaiting a ≤ p.awaiting a := by
    unfold awaiting
    omega
  show p.shutDown.awaiting a + p.idCount (.dialed a) + p.probed a ≤
    p.awaiting a + p.idCount (.dialed a) + p.probed a
  omega

theorem places_freeSlot (p : Pool) (a : Nat) : p.freeSlot.places a = p.places a := by
  have hframe := freeSlot_frame p
  refine places_congr ?_ (by rw [hframe]; rfl) (by rw [hframe]; rfl)
  unfold awaiting
  rw [countP_tasks_freeSlot]
  cases p.line with
  | nil => rfl
  | cons w rest => rfl

theorem places_noteDialFailure (p : Pool) (reason : String) (a : Nat) :
    (p.noteDialFailure reason).places a = p.places a := by
  have hframe := noteDialFailure_frame p reason
  exact places_congr (countP_tasks_noteDialFailure (steady_attempt a) p reason)
    (by rw [hframe]; rfl) (by rw [hframe]; rfl)

theorem places_lowerSize (p : Pool) (a : Nat) : p.lowerSize.places a = p.places a :=
  places_congr (p := p) rfl rfl (countP_history_lowerSize (Q := Event.isProbed a) rfl p)

theorem places_lowerIdleCount (p : Pool) (a : Nat) : p.lowerIdleCount.places a = p.places a :=
  places_congr (p := p) rfl rfl (countP_history_lowerIdleCount (Q := Event.isProbed a) rfl p)

theorem places_strike (p : Pool) (id : ConnectionId) (a : Nat) :
    (p.strike id).places a = p.places a := by
  have hframe := strike_eq p id
  exact places_congr (by rw [hframe]; rfl) (by rw [hframe]; rfl)
    (countP_history_strike (Q := Event.isProbed a) rfl p id)

/-- The answer of an attempt becomes a connection. -/
theorem places_connect (p : Pool) {caller : Caller} (hcaller : ∀ tries, caller ≠ .probe tries)
    (attempt a : Nat) :
    (p.connect caller attempt).places a = p.places a + if attempt = a then 1 else 0 := by
  have hprobed : (p.connect caller attempt).probed a = p.probed a := by
    cases caller with
    | get n => rfl
    | topUp => rfl
    | probe tries => exact absurd rfl (hcaller tries)
  have hid : (p.connect caller attempt).idCount (.dialed a) =
      p.idCount (.dialed a) + if ConnectionId.dialed a = .dialed attempt then 1 else 0 :=
    idCount_open (p.resetCircuit.record (.connected caller attempt)) _ _
  have hawaiting : (p.connect caller attempt).awaiting a = p.awaiting a := rfl
  unfold places
  rw [hprobed, hid, hawaiting]
  by_cases ha : attempt = a
  · simp [ha]
    omega
  · have hne : a ≠ attempt := fun h => ha h.symm
    simp [ha, hne]

/-! ## Each act -/

theorem answers_dialed (caller : Caller) (attempt : Nat) (fault : Option String) (a : Nat) :
    (Hand.work (.dialed caller attempt fault)).answers a = if attempt = a then 1 else 0 := by
  simp [Hand.answers, Work.attempt?]

/-- A retirement ends with no answer in hand. -/
theorem Retires.answers_le {id : ConnectionId} {f : Counters → Counters}
    (hr : Retires p id h f k) (a : Nat) : k.answers a ≤ h.answers a := by
  cases hr with
  | _ => exact Nat.zero_le _

/-- An act adds no place but to a number that it gives out. -/
theorem Act.places_le (hi : Attempts p h) (ha : Act p h q k) (a : Nat) :
    q.places a + k.answers a ≤
      p.places a + h.answers a + if p.attemptCount < a ∧ a ≤ q.attemptCount then 1 else 0 := by
  have hless : q.places a + k.answers a ≤ p.places a + h.answers a →
      q.places a + k.answers a ≤
        p.places a + h.answers a + if p.attemptCount < a ∧ a ≤ q.attemptCount then 1 else 0 :=
    Nat.le_add_right_of_le
  have hsame : q.places a = p.places a → k.answers a ≤ h.answers a →
      q.places a + k.answers a ≤
        p.places a + h.answers a + if p.attemptCount < a ∧ a ≤ q.attemptCount then 1 else 0 :=
    fun hp hh => hless (hp ▸ Nat.add_le_add_left hh _)
  cases ha with
  | get cancelled =>
    exact hsame (places_enqueue (w := .arrive (p.getCount + 1)) rfl _ a) (Nat.le_refl _)
  | cancel get => exact hsame (places_cancel p get a) (Nat.le_refl _)
  | resolve attempt fault =>
    exact hsame (places_resolve (hi.dials_le attempt) fault a) (Nat.le_refl _)
  | addForeign maxLifetime =>
    refine hsame (places_congr (p := p) rfl ?_ rfl) (Nat.le_refl _)
    exact idCount_open { p with foreignCount := p.foreignCount + 1 }
      (.openedAt p.now (.foreign (p.foreignCount + 1)) maxLifetime 0) (.dialed a)
  | fire ms => exact hsame (places_fire p _ a) (Nat.le_refl _)
  | look => exact hsame (places_topUp p a) (Nat.le_refl _)
  | touch _ id =>
    exact hsame (places_modify (fun c hc => (Connection.touch_id c p.now).trans hc) p a)
      (Nat.le_refl _)
  | closeConnection _ id | shutNext _ | retire _ =>
    exact hsame (places_closeConnection p _ a) (Nat.le_refl _)
  | shutDown _ => exact hless (places_shutDown_le p a)
  | take hready =>
    rename_i w rest
    have htake := awaiting_take hready a
    refine hless (Nat.le_of_eq ?_)
    show { p with ready := rest }.awaiting a + p.idCount (.dialed a) + p.probed a +
        (Hand.work w).answers a = p.awaiting a + p.idCount (.dialed a) + p.probed a + 0
    omega
  | pick _ _ => exact hsame (places_lowerIdleCount _ a) (Nat.le_refl _)
  | answered _ =>
    rw [answers_dialed]
    show p.places a + _ ≤
      p.places a + 0 + if p.attemptCount < a ∧ a ≤ p.attemptCount + 1 then 1 else 0
    split <;> split <;> omega
  | underWay _ _ =>
    rename_i caller due _ _
    have hdial := awaiting_dial p ⟨p.attemptCount + 1, caller, due⟩ a
    show { p with dials := p.dials ++ [Dial.mk (p.attemptCount + 1) caller due] }.awaiting a +
        p.idCount (.dialed a) + p.probed a + 0 ≤
      p.awaiting a + p.idCount (.dialed a) + p.probed a + 0 +
        if p.attemptCount < a ∧ a ≤ p.attemptCount + 1 then 1 else 0
    rw [hdial]
    dsimp only
    split <;> split <;> omega
  | adopt _ | adoptIdle _ =>
    refine hless (Nat.le_of_eq ?_)
    rw [answers_dialed]
    exact places_connect p (by nofun) _ a
  | adoptLate _ | adoptIdleLate _ =>
    refine hless (Nat.le_of_eq ?_)
    rw [places_closeConnection, answers_dialed, places_connect p (by nofun)]
    rfl
  | dialFailed _ =>
    exact hsame ((places_lowerSize _ a).trans (places_noteDialFailure p _ a)) (Nat.zero_le _)
  | dialFailedLate _ => exact hsame (places_noteDialFailure p _ a) (Nat.zero_le _)
  | topUpFailed =>
    exact hsame ((places_lowerIdleCount _ a).trans
      ((places_lowerSize _ a).trans (places_noteDialFailure p _ a))) (Nat.zero_le _)
  | topUpDenied _ _ =>
    exact hsame ((places_lowerIdleCount _ a).trans (places_lowerSize _ a)) (Nat.zero_le _)
  | finish => exact hsame (places_freeSlot p a) (Nat.le_refl _)
  | fail => exact hsame (places_freeSlot p a) (Nat.le_refl _)
  | checkIn => exact hsame (places_freeSlot _ a) (Nat.le_refl _)
  | probeDropped _ | probeGaveUp _ | probeNap _ _ _ => exact hsame rfl (Nat.zero_le _)
  | probeAgain _ _ => exact hsame (places_enqueue (w := .probe _) rfl _ a) (Nat.zero_le _)
  | probeReached =>
    rename_i tries attempt
    refine hless (Nat.le_of_eq ?_)
    rw [answers_dialed]
    show p.awaiting a + p.idCount (.dialed a) +
        (.transportClosed (.dialed attempt) :: .connected (.probe tries) attempt ::
          p.history).countP (Event.isProbed a) + 0 = p.places a + _
    rw [List.countP_cons, List.countP_cons]
    unfold places probed
    simp only [Event.isProbed, beq_iff_eq, Bool.false_eq_true, if_false]
    omega
  | mark _ =>
    exact hsame (places_modify (fun c hc => (Connection.mark_id c p.now true).trans hc) p a)
      (Nat.le_refl _)
  | putBack hc _ =>
    have hid := connection?_id hc
    refine hsame (places_modify ?_ p a) (Nat.le_refl _)
    exact fun _ _ => hid
  | serve hc _ _ =>
    have hid := connection?_id hc
    refine hsame (places_modify ?_ p a) (Nat.le_refl _)
    exact fun _ _ => hid
  | strike hr hid => exact hsame (places_strike _ _ a) (hr.answers_le a)
  | pass hr hid => exact hsame rfl (hr.answers_le a)
  | refuseRemoval hr hu => exact hsame rfl (hr.answers_le a)
  | _ => exact Nat.le_add_right _ _

/-- The ids stay as they are, but for one that is new. -/
theorem Act.ids_cases (ha : Act p h q k) :
    (∀ id, q.idCount id = p.idCount id) ∨
      (∃ a, ∀ id, q.idCount id = p.idCount id + if id = .dialed a then 1 else 0) ∨
      q.foreignCount = p.foreignCount + 1 ∧ ∀ id, q.idCount id =
        p.idCount id + if id = .foreign (p.foreignCount + 1) then 1 else 0 := by
  cases ha with
  | addForeign maxLifetime =>
    exact .inr (.inr ⟨rfl, idCount_open { p with foreignCount := p.foreignCount + 1 }
      (.openedAt p.now (.foreign (p.foreignCount + 1)) maxLifetime 0)⟩)
  | adopt _ | adoptIdle _ => exact .inr (.inl ⟨_, idCount_open p.resetCircuit (.openedAt _ _ _ _)⟩)
  | adoptLate _ | adoptIdleLate _ =>
    rename_i attempt _
    refine .inr (.inl ⟨attempt, fun id => ?_⟩)
    rw [idCount_closeConnection]
    exact idCount_open p.resetCircuit (.openedAt _ _ _ _) id
  | touch _ id => exact .inl (idCount_modify (fun c hc => (Connection.touch_id c p.now).trans hc) p)
  | mark _ => exact .inl (idCount_modify (fun c hc => (Connection.mark_id c p.now true).trans hc) p)
  | putBack hc _ | serve hc _ _ =>
    have hid := connection?_id hc
    refine .inl (idCount_modify ?_ p)
    exact fun _ _ => hid
  | closeConnection _ id | shutNext _ | retire _ => exact .inl (idCount_closeConnection p _)
  | cancel get =>
    rw [cancel_frame]
    exact .inl fun _ => rfl
  | resolve attempt fault =>
    rw [resolve_frame]
    exact .inl fun _ => rfl
  | dialFailed _ | dialFailedLate _ | topUpFailed =>
    unfold idCount
    rw [noteDialFailure_frame]
    exact .inl fun _ => rfl
  | finish | fail | checkIn =>
    rw [freeSlot_frame]
    exact .inl fun _ => rfl
  | strike _ _ =>
    rw [strike_eq]
    exact .inl fun _ => rfl
  | _ => exact .inl fun _ => rfl

/-- An act adds no foreign connection but under the number that it gives
out. -/
theorem Act.idCount_foreign_le (ha : Act p h q k) (n : Nat) :
    q.idCount (.foreign n) ≤ p.idCount (.foreign n) +
      if p.foreignCount < n ∧ n ≤ q.foreignCount then 1 else 0 := by
  rcases ha.ids_cases with hsame | ⟨a, hnew⟩ | ⟨hcount, hnew⟩
  · rw [hsame]
    exact Nat.le_add_right _ _
  · rw [hnew, if_neg (by simp)]
    exact Nat.le_add_right _ _
  · rw [hnew, hcount]
    simp only [ConnectionId.foreign.injEq]
    split <;> split <;> omega

theorem Attempts.act (hi : Attempts p h) (ha : Act p h q k) : Attempts q k := by
  have hl := ha.later
  refine ⟨fun a => ?_, fun a hfresh => ?_, fun n => ?_, fun n hfresh => ?_⟩
  · have hle := ha.places_le hi a
    have honce := hi.once a
    have hzero := hi.fresh a
    split at hle <;> omega
  · have hle := ha.places_le hi a
    have hzero := hi.fresh a (Nat.lt_of_le_of_lt hl.attempts hfresh)
    rw [if_neg (by omega)] at hle
    omega
  · have hle := ha.idCount_foreign_le n
    have honce := hi.foreign_once n
    have hzero := hi.foreign_fresh n
    split at hle <;> omega
  · have hle := ha.idCount_foreign_le n
    have hzero := hi.foreign_fresh n (Nat.lt_of_le_of_lt hl.foreign hfresh)
    rw [if_neg (by omega)] at hle
    omega

/-! ## Every state -/

theorem attempts_create (o : Options) (dialer : Nat → Course) (now : Nat)
    (background : Bool) : Attempts (create o dialer now background) .start := by
  have hplaces : ∀ a, (create o dialer now background).places a = 0 := fun a => by
    cases background with
    | false => rfl
    | true => exact places_topUp (create o dialer now false) a
  have hids : ∀ id, (create o dialer now background).idCount id = 0 := fun id => by
    cases background <;> rfl
  exact ⟨fun a => by simp [hplaces, Hand.answers], fun a _ => by simp [hplaces, Hand.answers],
    fun n => by simp [hids], fun n _ => hids _⟩

theorem Arises.attempts {o : Options} (hp : Arises o p h) : Attempts p h := by
  induction hp with
  | create dialer now background => exact attempts_create o dialer now background
  | act _ ha ih => exact ih.act ha
  | next _ ih | release _ _ ih => exact ⟨ih.once, ih.fresh, ih.foreign_once, ih.foreign_fresh⟩
  | mark id inUse _ ih =>
    rename_i p _
    have hmark : ∀ c : Connection, c.id = id → (c.mark p.now inUse).id = id :=
      fun c hc => (Connection.mark_id c p.now inUse).trans hc
    exact ⟨fun a => by rw [Pool.mark, places_modify hmark]; exact ih.once a,
      fun a => by rw [Pool.mark, places_modify hmark]; exact ih.fresh a,
      fun n => by rw [Pool.mark, idCount_modify hmark]; exact ih.foreign_once n,
      fun n => by rw [Pool.mark, idCount_modify hmark]; exact ih.foreign_fresh n⟩

theorem Occurs.attempts {o : Options} (hp : Occurs o p h) : Attempts p h :=
  hp.arises.attempts

/-- No two connections of a pool have the same id. -/
theorem Occurs.unique {o : Options} (hp : Occurs o p h) : p.Unique :=
  hp.attempts.unique

end PooledRouting.Pool
