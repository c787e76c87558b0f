import PooledRouting.Proofs.Pool.Roster

/-!
# Transports are closed, and once

A dial attempt that comes back brings a transport.  The probe closes its
transport at once; any other is wrapped in a connection, and closed with
it.  `Accounted` counts the closings: a transport was closed once if its
connection is closed or the probe had it, and never otherwise.

`Kept` says where the other transports are.  While the pool is open it
tracks them; a closed pool leaves open only what somebody holds; and a task
may have one in hand that it is about to close or to hand out.

`transports_closed_once` puts the two together for the states between two
turns.
-/

namespace PooledRouting.Pool

/-! ## Counting -/

/-- The transport of the connection was closed. -/
def Event.isClosing (id : ConnectionId) : Event → Bool
  | .transportClosed other => other == id
  | _ => false

/-- The attempt came back with a transport. -/
def Event.isConnecting (attempt : Nat) : Event → Bool
  | .connected _ a => a == attempt
  | _ => false

/-- The times that the transport of the connection was closed. -/
def closings (p : Pool) (id : ConnectionId) : Nat :=
  p.history.countP (Event.isClosing id)

/-- The times that the attempt came back with a transport. -/
def connects (p : Pool) (attempt : Nat) : Nat :=
  p.history.countP (Event.isConnecting attempt)

/-- The times that the probe had the transport. -/
def probedAs (p : Pool) : ConnectionId → Nat
  | .dialed attempt => p.probed attempt
  | .foreign _ => 0

/-- Whether there is the connection, and nobody has closed it. -/
def isUnclosed (p : Pool) (id : ConnectionId) : Bool :=
  p.shows (fun c => !c.closed) id

/-- Every transport is at its connection or was the probe's, and the
closings are those of closed connections and of the probe. -/
structure Accounted (p : Pool) : Prop where
  closings : ∀ id, p.closings id = (p.shows Connection.closed id).toNat + p.probedAs id
  connects : ∀ a, p.connects a = p.idCount (.dialed a) + p.probed a

variable {p q : Pool} {h k : Hand} {id : ConnectionId}

/-! ## Closing a connection -/

/-- The connections that are changed by closing one. -/
theorem shows_closed_modify (Q : Connection → Bool) (id other : ConnectionId) :
    (p.modify id fun c => { c with closed := true }).shows Q other =
      if other = id then (p.connection? id).any fun c => Q { c with closed := true }
      else p.shows Q other := by
  have hf : ∀ c : Connection, c.id = id → ({ c with closed := true } : Connection).id = id :=
    fun _ h => h
  by_cases hne : other = id
  · rw [if_pos hne, hne]
    unfold shows
    rw [connection?_modify_self (f := fun c => { c with closed := true }) hf]
    cases p.connection? id <;> rfl
  · rw [if_neg hne]
    exact shows_modify_of_ne (f := fun c => { c with closed := true }) hf hne

theorem isUnclosed_closeConnection (hu : p.Unique) (id other : ConnectionId) :
    (p.closeConnection id).2.isUnclosed other = (p.isUnclosed other && other != id) := by
  unfold isUnclosed
  rcases closeConnection_cases hu id with ⟨hsame, hclosed⟩ | ⟨c, hc, -, hclose⟩
  · rw [hsame]
    by_cases hne : other = id
    · rw [hne]
      unfold shows
      cases hc : p.connection? id with
      | none => rfl
      | some c => simp [hclosed c hc]
    · simp [hne]
  · rw [hclose]
    refine (shows_closed_modify _ id other).trans ?_
    by_cases hne : other = id
    · simp [hne, hc]
    · simp [hne]

theorem accounted_closeConnection (hp : Accounted p) (hu : p.Unique) (id : ConnectionId) :
    Accounted (p.closeConnection id).2 := by
  rcases closeConnection_cases hu id with ⟨hsame, -⟩ | ⟨c, hc, hopen, hclose⟩
  · rw [hsame]
    exact hp
  · rw [hclose]
    refine ⟨fun other => ?_, fun a => ?_⟩
    · have hcount := hp.closings other
      have hprobed : ((p.modify id fun c => { c with closed := true }).record
          (.transportClosed id)).probedAs other = p.probedAs other := by
        cases other <;> rfl
      have hmod := shows_closed_modify (p := p) Connection.closed id other
      rw [hprobed]
      show (Event.transportClosed id :: p.history).countP _ =
        ((p.modify id fun c => { c with closed := true }).shows Connection.closed other).toNat + _
      rw [List.countP_cons, hmod]
      unfold Pool.closings at hcount
      by_cases hne : other = id
      · -- The connection was open, so this is the one closing of it.
        have hbefore : p.shows Connection.closed other = false := by
          rw [hne]
          unfold shows
          rw [hc]
          exact hopen
        rw [hbefore] at hcount
        rw [if_pos hne, hc, if_pos (by simp [Event.isClosing, hne]), hcount]
        show 0 + p.probedAs other + 1 = 1 + p.probedAs other
        omega
      · have hno : ¬Event.isClosing other (.transportClosed id) = true := by
          simpa [Event.isClosing] using fun h => hne h.symm
        rw [if_neg hne, if_neg hno]
        exact hcount
    · have hf : ∀ c : Connection, c.id = id → ({ c with closed := true } : Connection).id = id :=
        fun _ h => h
      have hids := idCount_modify (f := fun c => { c with closed := true }) hf p (.dialed a)
      exact (hp.connects a).trans (congrArg (· + p.probed a) hids.symm)

/-! ## The accounts -/

/-- The accounts do not see changes that close nothing and open
nothing. -/
theorem Accounted.congr (hp : Accounted p)
    (hclosed : ∀ id, q.shows Connection.closed id = p.shows Connection.closed id)
    (hids : ∀ id, q.idCount id = p.idCount id)
    (hhistory : ∀ Q : Event → Bool, Q .clamped = false →
      q.history.countP Q = p.history.countP Q) : Accounted q := by
  have hprobed : ∀ id, q.probedAs id = p.probedAs id := fun id => by
    cases id with
    | dialed a => exact hhistory (Event.isProbed a) rfl
    | foreign n => rfl
  refine ⟨fun id => ?_, fun a => ?_⟩
  · have hclosings : q.closings id = p.closings id := hhistory _ rfl
    rw [hclosings, hclosed, hprobed]
    exact hp.closings id
  · have hconnects : q.connects a = p.connects a := hhistory _ rfl
    have hprobed : q.probed a = p.probed a := hprobed (.dialed a)
    rw [hconnects, hids, hprobed]
    exact hp.connects a

/-- A connection is opened for the transport of an attempt. -/
theorem Accounted.connect (hp : Accounted p) (caller : Caller)
    (hcaller : ∀ tries, caller ≠ .probe tries) (attempt : Nat) :
    Accounted (p.connect caller attempt) := by
  have hprobed : ∀ a, (p.connect caller attempt).probed a = p.probed a := fun a => by
    cases caller with
    | get n => rfl
    | topUp => rfl
    | probe tries => exact absurd rfl (hcaller tries)
  refine ⟨fun id => ?_, fun a => ?_⟩
  · have hprobedAs : (p.connect caller attempt).probedAs id = p.probedAs id := by
      cases id with
      | dialed a => exact hprobed a
      | foreign n => rfl
    have hshows : (p.connect caller attempt).shows Connection.closed id =
        p.shows Connection.closed id :=
      shows_openConnection (p.resetCircuit.record (.connected caller attempt)) rfl id
    rw [hprobedAs, hshows]
    exact hp.closings id
  · have hopen : (p.connect caller attempt).idCount (.dialed a) =
        p.idCount (.dialed a) + if ConnectionId.dialed a = .dialed attempt then 1 else 0 :=
      idCount_open (p.resetCircuit.record (.connected caller attempt)) _ _
    have hcount := hp.connects a
    rw [hprobed, hopen]
    show (Event.connected caller attempt :: p.history).countP _ = _
    rw [List.countP_cons]
    unfold Pool.connects at hcount
    by_cases ha : attempt = a
    · simp [Event.isConnecting, ha]
      omega
    · have hne : a ≠ attempt := fun h => ha h.symm
      simp [Event.isConnecting, ha, hne]
      omega

/-- The probe closes the transport that it reached. -/
theorem Accounted.reach (hp : Accounted p) (tries : UInt32) (attempt : Nat) :
    Accounted ((p.record (.connected (.probe tries) attempt)).record
      (.transportClosed (.dialed attempt))) := by
  have hprobed : ∀ a, ((p.record (.connected (.probe tries) attempt)).record
      (.transportClosed (.dialed attempt))).probed a =
        p.probed a + if attempt = a then 1 else 0 := fun a => by
    show (Event.transportClosed (.dialed attempt) :: .connected (.probe tries) attempt ::
      p.history).countP _ = _
    rw [List.countP_cons, List.countP_cons]
    simp [Event.isProbed, Pool.probed]
  refine ⟨fun id => ?_, fun a => ?_⟩
  · have hcount := hp.closings id
    unfold Pool.closings at hcount
    show (Event.transportClosed (.dialed attempt) :: .connected (.probe tries) attempt ::
      p.history).countP _ = (p.shows Connection.closed id).toNat + _
    rw [List.countP_cons, List.countP_cons, hcount]
    cases id with
    | foreign n => simp [Event.isClosing, probedAs]
    | dialed a =>
      have hprobedAs := hprobed a
      unfold probedAs
      dsimp only
      rw [hprobedAs]
      simp [Event.isClosing]
      omega
  · have hcount := hp.connects a
    rw [hprobed]
    unfold Pool.connects at hcount
    show (Event.transportClosed (.dialed attempt) :: .connected (.probe tries) attempt ::
      p.history).countP _ = p.idCount (.dialed a) + _
    rw [List.countP_cons, List.countP_cons, hcount]
    simp [Event.isConnecting]
    omega

/-- Lowered counts are noted, but no transport. -/
theorem Accounted.lowerSize (hp : Accounted p) : Accounted p.lowerSize :=
  hp.congr (fun _ => rfl) (fun _ => rfl) fun _ hQ => countP_history_lowerSize hQ p

theorem Accounted.lowerIdleCount (hp : Accounted p) : Accounted p.lowerIdleCount :=
  hp.congr (fun _ => rfl) (fun _ => rfl) fun _ hQ => countP_history_lowerIdleCount hQ p

theorem Accounted.noteDialFailure (hp : Accounted p) (reason : String) :
    Accounted (p.noteDialFailure reason) := by
  rw [noteDialFailure_frame]
  exact ⟨hp.closings, hp.connects⟩

/-- A change of one connection that closes nothing. -/
theorem Accounted.modify (hp : Accounted p) {f : Connection → Connection}
    (hf : ∀ c, c.id = id → (f c).id = id)
    (hclosed : ∀ c, p.connection? id = some c → (f c).closed = c.closed) :
    Accounted (p.modify id f) :=
  hp.congr (shows_modify hf hclosed) (idCount_modify hf p) fun _ _ => rfl

theorem Accounted.act (hp : Accounted p) (hn : Attempts p h) (ha : Act p h q k) :
    Accounted q := by
  have hu := hn.unique
  cases ha with
  | cancel get =>
    rw [cancel_frame]
    exact ⟨hp.closings, hp.connects⟩
  | resolve attempt fault =>
    rw [resolve_frame]
    exact ⟨hp.closings, hp.connects⟩
  | addForeign maxLifetime =>
    refine ⟨fun id => ?_, fun a => ?_⟩
    · have hshows : (p.addForeign maxLifetime).shows Connection.closed id =
          p.shows Connection.closed id :=
        shows_openConnection { p with foreignCount := p.foreignCount + 1 } rfl id
      rw [hshows]
      exact hp.closings id
    · have hids : (p.addForeign maxLifetime).idCount (.dialed a) =
          p.idCount (.dialed a) + 0 :=
        idCount_open { p with foreignCount := p.foreignCount + 1 } _ _
      rw [hids]
      exact hp.connects a
  | touch _ id =>
    exact hp.modify (fun c hc => (Connection.touch_id c p.now).trans hc)
      fun c _ => Connection.touch_closed c p.now
  | mark _ =>
    exact hp.modify (fun c hc => (Connection.mark_id c p.now true).trans hc)
      fun c _ => Connection.mark_closed c p.now true
  | putBack hc hopen =>
    rename_i c
    have hid := connection?_id hc
    refine hp.modify ?_ fun d hd => ?_
    · exact fun _ _ => hid
    · cases hc.symm.trans hd
      rfl
  | serve hc hopen _ =>
    rename_i get id c _
    have hid := connection?_id hc
    have hmod : Accounted (p.modify id fun _ => { c with inUse := true, usedAt := p.now }) := by
      refine hp.modify ?_ fun d hd => ?_
      · exact fun _ _ => hid
      · cases hc.symm.trans hd
        rfl
    exact ⟨hmod.closings, hmod.connects⟩
  | closeConnection _ id | shutNext _ | retire _ => exact accounted_closeConnection hp hu _
  | adopt _ =>
    rename_i get attempt _
    have hconnect := hp.connect (.get get) nofun attempt
    exact ⟨hconnect.closings, hconnect.connects⟩
  | adoptIdle _ =>
    rename_i attempt _
    have hconnect := hp.connect .topUp nofun attempt
    exact ⟨hconnect.closings, hconnect.connects⟩
  | adoptLate _ =>
    rename_i get attempt _
    exact accounted_closeConnection (hp.connect (.get get) nofun attempt) hn.unique_connect _
  | adoptIdleLate _ =>
    rename_i attempt _
    exact accounted_closeConnection (hp.connect .topUp nofun attempt) hn.unique_connect _
  | pick _ _ => exact Accounted.lowerIdleCount ⟨hp.closings, hp.connects⟩
  | dialFailed _ => exact (hp.noteDialFailure _).lowerSize
  | dialFailedLate _ => exact hp.noteDialFailure _
  | topUpFailed => exact (hp.noteDialFailure _).lowerSize.lowerIdleCount
  | topUpDenied _ _ => exact hp.lowerSize.lowerIdleCount
  | finish | fail | checkIn =>
    rw [freeSlot_frame]
    exact ⟨hp.closings, hp.connects⟩
  | probeReached =>
    rename_i tries attempt
    have hreach := hp.reach tries attempt
    exact ⟨hreach.closings, hreach.connects⟩
  | strike _ _ =>
    refine hp.congr (fun id => ?_) (fun id => ?_) fun Q hQ => ?_
    · rw [strike_eq]
      rfl
    · rw [strike_eq]
      rfl
    · exact countP_history_strike hQ _ _
  | _ => exact ⟨hp.closings, hp.connects⟩

theorem Occurs.accounted {o : Options} (hp : Occurs o p h) : Accounted p := by
  induction hp with
  | create dialer now background =>
    cases background <;> exact ⟨fun id => by cases id <;> rfl, fun _ => rfl⟩
  | act hp ha ih => exact ih.act hp.attempts ha
  | next _ ih => exact ih
  | giveBack _ _ ih =>
    rename_i p id _ _
    exact ih.modify (fun c hc => (Connection.mark_id c p.now false).trans hc)
      fun c _ => Connection.mark_closed c p.now false

/-! ## Where the others are -/

/-- The connection is in hand, and on its way to be handed out or
closed. -/
def Hand.Carries (id : ConnectionId) : Hand → Prop
  | .holding _ other => other = id
  | .retiring other next => other = id ∨ next.Carries id
  | .looking next => next.Carries id
  | .closing ids => id ∈ ids
  | _ => False

/-- An open pool tracks every transport that is not closed, a closed one
has left it with its holder, or a task has it in hand. -/
def Kept (p : Pool) (h : Hand) : Prop :=
  ∀ a, p.isUnclosed (.dialed a) = true →
    p.closed = false ∧ .dialed a ∈ p.tracked ∨
      p.closed = true ∧ p.isInUse (.dialed a) = true ∨ h.Carries (.dialed a)

theorem isUnclosed_put {c d : Connection} (hc : p.connection? id = some c) (hd : d.id = id)
    (hclosed : d.closed = c.closed) (other : ConnectionId) :
    (p.modify id fun _ => d).isUnclosed other = p.isUnclosed other := by
  refine shows_modify (f := fun _ => d) (fun _ _ => hd) (fun e he => ?_) other
  cases hc.symm.trans he
  exact congrArg (!·) hclosed

/-- A new connection is the only one that may be unclosed and was not
before. -/
theorem isUnclosed_connect (p : Pool) (caller : Caller) (attempt : Nat) {other : ConnectionId}
    (hne : other ≠ .dialed attempt) :
    (p.connect caller attempt).isUnclosed other = p.isUnclosed other :=
  shows_openConnection_of_ne (p.resetCircuit.record (.connected caller attempt)) hne

/-- A retirement takes along what was in hand. -/
theorem Retires.carries {f : Counters → Counters} (hr : Retires p id h f k)
    {other : ConnectionId} (hc : h.Carries other) : id = other := by
  cases hr with
  | removed _ => exact hc.elim
  | expired _ => exact hc.elim
  | invalid _ | stale _ _ _ _ | late _ => exact hc

/-- A connection that an open pool adopts joins the tracked ones. -/
theorem Kept.adopt (hkept : Kept p h) (hopen : p.closed = false) (hempty : ∀ id, ¬h.Carries id)
    (caller : Caller) (attempt : Nat) {a : Nat}
    (ha : (p.connect caller attempt).isUnclosed (.dialed a) = true) :
    ConnectionId.dialed a ∈ p.tracked ++ [.dialed attempt] := by
  by_cases hnew : a = attempt
  · rw [hnew]
    exact List.mem_append_right _ (List.mem_singleton_self _)
  · have hne : ConnectionId.dialed a ≠ .dialed attempt := by simpa using hnew
    rw [isUnclosed_connect p caller attempt hne] at ha
    rcases hkept a ha with ⟨-, htracked⟩ | ⟨hclosed, -⟩ | hc
    · exact List.mem_append_left _ htracked
    · cases hopen.symm.trans hclosed
    · exact absurd hc (hempty _)

theorem Kept.act (hkept : Kept p h) (hn : Attempts p h) (hf : h.Fits p)
    (ho : p.options.Unmarking) (ha : Act p h q k) : Kept q k := by
  have hu := hn.unique
  have hmarks : ∀ id, p.isInUse id = true → q.isInUse id = true :=
    fun _ => ha.isInUse_mono hf ho
  -- Most acts take nothing away of what keeps a transport.
  have hstill : q.closed = p.closed → q.tracked = p.tracked →
      (∀ a, q.isUnclosed (.dialed a) = true → p.isUnclosed (.dialed a) = true) →
      (∀ id, q.isUnclosed id = true → h.Carries id → k.Carries id) → Kept q k :=
    fun hclosed htracked hun hcarries a hq => by
      rw [hclosed, htracked]
      exact (hkept a (hun a hq)).imp_right fun hrest =>
        hrest.imp (And.imp_right (hmarks _)) (hcarries _ hq)
  have hclose : ∀ id other, (p.closeConnection id).2.isUnclosed other = true →
      p.isUnclosed other = true ∧ other ≠ id := fun id other hq => by
    rw [isUnclosed_closeConnection hu, Bool.and_eq_true, bne_iff_ne] at hq
    exact hq
  cases ha with
  | cancel get =>
    rw [cancel_frame]
    exact hkept
  | resolve attempt fault =>
    rw [resolve_frame]
    exact hkept
  | addForeign maxLifetime =>
    refine hstill rfl rfl (fun a hq => ?_) fun _ _ hc => hc
    exact (shows_openConnection_of_ne p (by nofun)).symm.trans hq
  | touch _ id =>
    refine hstill rfl rfl (fun a hq => ?_) fun _ _ hc => hc
    exact (shows_touch (fun c now => by rw [Connection.touch_closed]) p id _).symm.trans hq
  | closeConnection _ id =>
    have hframe := closeConnection_frame p id
    exact hstill (by rw [hframe]) (by rw [hframe]) (fun a hq => (hclose id _ hq).1)
      fun _ _ hc => hc
  | shutDown hopen =>
    intro a hq
    rcases hkept a hq with ⟨-, htracked⟩ | ⟨hclosed, -⟩ | hc
    · exact .inr (.inr htracked)
    · cases hopen.symm.trans hclosed
    · exact hc.elim
  | shutNext _ =>
    rename_i id ids _
    have hframe := closeConnection_frame p id
    refine hstill (by rw [hframe]) (by rw [hframe]) (fun a hq => (hclose id _ hq).1)
      fun other hq hc => ?_
    exact (List.mem_cons.1 hc).resolve_left (hclose id other hq).2
  | shutSkip hheld =>
    rename_i id ids
    intro a hq
    rcases hkept a hq with hl | hl | hc
    · exact .inl hl
    · exact .inr (.inl hl)
    · rcases List.mem_cons.1 hc with rfl | hids
      · exact .inr (.inl ⟨hf, hheld⟩)
      · exact .inr (.inr hids)
  | shutLast => exact hstill rfl rfl (fun _ hq => hq) fun _ _ hc => nomatch hc
  | hit _ => exact hstill rfl rfl (fun _ hq => hq) fun _ _ hc => hc.elim
  | adopt hopen =>
    rename_i get attempt
    exact fun a hq => .inl ⟨hopen, hkept.adopt hopen (fun _ => id) (.get get) attempt hq⟩
  | adoptIdle hopen =>
    rename_i attempt
    exact fun a hq => .inl ⟨hopen, hkept.adopt hopen (fun _ => id) .topUp attempt hq⟩
  | adoptLate _ | adoptIdleLate _ =>
    refine hstill ?_ ?_ (fun a hq => ?_) fun _ _ hc => hc.elim
    · rw [closeConnection_frame]
      rfl
    · rw [closeConnection_frame]
      rfl
    · rw [isUnclosed_closeConnection hn.unique_connect, Bool.and_eq_true, bne_iff_ne] at hq
      rw [← isUnclosed_connect p _ _ hq.2]
      exact hq.1
  | dialFailed _ | topUpFailed =>
    unfold lowerSize
    rw [noteDialFailure_frame]
    exact hkept
  | dialFailedLate _ =>
    rw [noteDialFailure_frame]
    exact hkept
  | finish | fail | checkIn =>
    rw [freeSlot_frame]
    exact hkept
  | mark hmark => exact absurd ho hmark
  | putBack hc _ =>
    rename_i get? id c _
    have hid := connection?_id hc
    refine hstill rfl rfl (fun a hq => ?_) fun _ _ hc => hc
    exact (isUnclosed_put (d := { c with inUse := false, usedAt := p.now }) hc hid rfl
      _).symm.trans hq
  | serve hc _ _ =>
    rename_i get id c _ _
    have hid := connection?_id hc
    have hopen : p.closed = false := hf.1 rfl
    intro a hq
    have hp := (isUnclosed_put (d := { c with inUse := true, usedAt := p.now }) hc hid rfl
      _).symm.trans hq
    rcases hkept a hp with hl | ⟨hclosed, -⟩ | hcarry
    · exact .inl hl
    · cases hopen.symm.trans hclosed
    · exact .inl ⟨hopen, hcarry ▸ hf.2.1 hopen⟩
  | keep hopen _ htracked _ =>
    intro a hq
    rcases hkept a hq with hl | hl | hcarry
    · exact .inl hl
    · exact .inr (.inl hl)
    · exact .inl ⟨hopen, hcarry ▸ htracked⟩
  | strike hr _ =>
    rename_i id k f _
    intro a hq
    rw [strike_eq] at hq ⊢
    by_cases hne : id = .dialed a
    · exact .inr (.inr (.inl hne))
    · rcases hkept a hq with ⟨hopen, htracked⟩ | hl | hcarry
      · exact .inl ⟨hopen, (List.mem_erase_of_ne fun h => hne h.symm).2 htracked⟩
      · exact .inr (.inl hl)
      · exact absurd (hr.carries hcarry) hne
  | pass hr _ =>
    exact hstill rfl rfl (fun _ hq => hq) fun _ _ hc => .inl (hr.carries hc)
  | refuseRemoval hr hheld => cases hheld.symm.trans (hr.fits hf).1
  | retire _ =>
    rename_i id _
    have hframe := closeConnection_frame p id
    refine hstill (by rw [hframe]) (by rw [hframe]) (fun a hq => (hclose id _ hq).1)
      fun other hq hc => ?_
    exact hc.resolve_left fun h => (hclose id other hq).2 h.symm
  | spare hheld => cases hheld.symm.trans hf.2.1
  | _ => exact hkept

/-- A checkout that ends has its transport in hand. -/
theorem Kept.giveBack (hkept : Kept p .start) (id : ConnectionId) :
    Kept (p.mark id false) (.holding none id) := by
  have hmark : ∀ c : Connection, c.id = id → (c.mark p.now false).id = id :=
    fun c hc => (Connection.mark_id c p.now false).trans hc
  intro a hq
  by_cases hne : ConnectionId.dialed a = id
  · exact .inr (.inr hne.symm)
  · have hun : p.isUnclosed (.dialed a) = true := (shows_modify_of_ne hmark hne).symm.trans hq
    have hheld : (p.mark id false).isInUse (.dialed a) = p.isInUse (.dialed a) :=
      shows_modify_of_ne (Q := Connection.inUse) hmark hne
    rcases hkept a hun with hl | ⟨hclosed, hl⟩ | hc
    · exact .inl hl
    · exact .inr (.inl ⟨hclosed, hheld.trans hl⟩)
    · exact hc.elim

variable {o : Options}

theorem Occurs.kept (hp : Occurs o p h) (ho : o.Unmarking) : Kept p h := by
  induction hp with
  | create dialer now background =>
    intro a hq
    cases background <;> cases hq
  | act hp ha ih => exact ih.act hp.attempts (hp.fits ho) (hp.options_eq ▸ ho) ha
  | next _ ih => exact ih
  | giveBack _ _ ih => exact ih.giveBack _

/-! ## Between two turns -/

/-- No transport is closed twice. -/
theorem Occurs.closings_le (hp : Occurs o p h) (id : ConnectionId) : p.closings id ≤ 1 := by
  have hclosings := hp.accounted.closings id
  have hids : (p.shows Connection.closed id).toNat ≤ p.idCount id := by
    cases hs : p.shows Connection.closed id with
    | false => exact Nat.zero_le _
    | true =>
      obtain ⟨c, hc, -⟩ := shows_eq_true_iff.1 hs
      exact idCount_pos hc
  cases id with
  | dialed a =>
    have honce := hp.attempts.once a
    unfold places at honce
    unfold probedAs at hclosings
    dsimp only at hclosings
    omega
  | foreign n =>
    have honce := hp.attempts.foreign_once n
    unfold probedAs at hclosings
    dsimp only at hclosings
    omega

/-- The probe's transports are closed already. -/
theorem Occurs.closings_of_probed (hp : Occurs o p h) {a : Nat} (ha : 0 < p.probed a) :
    p.closings (.dialed a) = 1 := by
  have hclosings := hp.accounted.closings (.dialed a)
  have hone := hp.closings_le (.dialed a)
  unfold probedAs at hclosings
  dsimp only at hclosings
  omega

/-- A transport that came back is closed, or it is open at its
connection. -/
theorem Occurs.closings_or_unclosed (hp : Occurs o p h) {caller : Caller} {a : Nat}
    (ha : .connected caller a ∈ p.history) :
    p.closings (.dialed a) = 1 ∨
      ∃ c, p.connection? (.dialed a) = some c ∧ c.closed = false := by
  have hconnects := hp.accounted.connects a
  have hpos : 0 < p.connects a :=
    List.countP_pos_iff.2 ⟨_, ha, by simp [Event.isConnecting]⟩
  by_cases hprobed : 0 < p.probed a
  · exact .inl (hp.closings_of_probed hprobed)
  · have hid : 0 < p.idCount (.dialed a) := by omega
    obtain ⟨c, hc⟩ := connection?_of_idCount_pos hid
    cases hclosed : c.closed with
    | false => exact .inr ⟨c, hc, hclosed⟩
    | true =>
      have hshows : p.shows Connection.closed (.dialed a) = true :=
        shows_eq_true_iff.2 ⟨c, hc, hclosed⟩
      have hclosings := hp.accounted.closings (.dialed a)
      have hone := hp.closings_le (.dialed a)
      rw [hshows, Bool.toNat_true] at hclosings
      exact .inl (by omega)

/-- In every reachable state no transport was closed twice; one that is
not closed is at a connection that the open pool tracks, or that somebody
still holds of a closed pool; and those of the probe are closed.  So a
closed pool whose connections were all given back has closed every
transport once. -/
theorem transports_closed_once (ho : o.Unmarking) (hp : Reachable o p) :
    (∀ id, p.closings id ≤ 1) ∧
      (∀ caller a, .connected caller a ∈ p.history →
        p.closings (.dialed a) = 1 ∨
          ∃ c, p.connection? (.dialed a) = some c ∧ c.closed = false ∧
            (p.closed = false ∧ .dialed a ∈ p.tracked ∨
              p.closed = true ∧ c.inUse = true)) ∧
      (∀ tries a, .connected (.probe tries) a ∈ p.history → p.closings (.dialed a) = 1) ∧
      (p.closed = true → p.inUseCount = 0 →
        ∀ caller a, .connected caller a ∈ p.history → p.closings (.dialed a) = 1) := by
  have hocc := hp.occurs
  have hwhere : ∀ caller a, .connected caller a ∈ p.history →
      p.closings (.dialed a) = 1 ∨
        ∃ c, p.connection? (.dialed a) = some c ∧ c.closed = false ∧
          (p.closed = false ∧ .dialed a ∈ p.tracked ∨ p.closed = true ∧ c.inUse = true) := by
    intro caller a ha
    refine (hocc.closings_or_unclosed ha).imp_right ?_
    rintro ⟨c, hc, hopen⟩
    have hun : p.isUnclosed (.dialed a) = true := shows_eq_true_iff.2 ⟨c, hc, by simp [hopen]⟩
    rcases hocc.kept ho a hun with hl | ⟨hclosed, hheld⟩ | hcarry
    · exact ⟨c, hc, hopen, .inl hl⟩
    · exact ⟨c, hc, hopen, .inr ⟨hclosed, (isInUse_of_connection? hc).symm.trans hheld⟩⟩
    · exact hcarry.elim
  refine ⟨hocc.closings_le, hwhere, fun tries a ha => ?_, fun hclosed hnone caller a ha => ?_⟩
  · exact hocc.closings_of_probed (List.countP_pos_iff.2 ⟨_, ha, by simp [Event.isProbed]⟩)
  · rcases hwhere caller a ha with hone | ⟨c, hc, -, ⟨hopen, -⟩ | ⟨-, hheld⟩⟩
    · exact hone
    · cases hopen.symm.trans hclosed
    · have hfree := List.countP_eq_zero.1 hnone c (connection?_mem hc)
      exact absurd hheld hfree

theorem transports_closed_once_after_close :
    let p := (create { poolSize := 2, minIdle := 1 } (fun _ => .answer 0 none) 0 true).after
      [.get false, .turn, .turn, .close, .release (.dialed 1)]
    p.closed = true ∧ p.inUseCount = 0 ∧ p.connects 1 = 1 ∧
      (∀ id, p.closings id ≤ 1) ∧
      (∀ caller a, .connected caller a ∈ p.history →
        p.closings (.dialed a) = 1 ∨
          ∃ c, p.connection? (.dialed a) = some c ∧ c.closed = false ∧
            (p.closed = false ∧ .dialed a ∈ p.tracked ∨
              p.closed = true ∧ c.inUse = true)) ∧
      (∀ tries a, .connected (.probe tries) a ∈ p.history → p.closings (.dialed a) = 1) ∧
      (p.closed = true → p.inUseCount = 0 →
        ∀ caller a, .connected caller a ∈ p.history → p.closings (.dialed a) = 1) :=
  ⟨by decide +kernel, by decide +kernel, by decide +kernel,
    transports_closed_once (Options.unmarking_of_nil rfl) ((Reachable.create _ _ _).after _)⟩

end PooledRouting.Pool
