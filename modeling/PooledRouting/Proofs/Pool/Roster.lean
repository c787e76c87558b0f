import PooledRouting.Proofs.Pool.Attempts

/-!
# Lists and marks

The tracked connections of an open pool are idle, in somebody's hand, or
marked as held, and never two of these.  `Roster` says so of the lists and
the marks, and `Hand.Fits` of the connection that a task has in hand.
Both are kept by every act, as long as no hook marks a connection.

A mark changes when a `get` ends with a connection, which is the act
`Serves`, and at no other act (`Act.isInUse_cases`).

Whatever a pool hands out or retires is taken from here: `Occurs.roster`
and `Occurs.fits` are what the laws about slots, counts, leases and
transports build on.
-/

namespace PooledRouting.Pool

/-! ## The roster -/

/-- The lists of a pool agree with the marks of its connections. -/
structure Roster (p : Pool) : Prop where
  tracked_nodup : p.tracked.Nodup
  idle_nodup : p.idle.Nodup
  idle_tracked : ∀ id ∈ p.idle, id ∈ p.tracked
  idle_free : ∀ id ∈ p.idle, p.isInUse id = false
  known : ∀ id ∈ p.tracked, 0 < p.idCount id
  inUse_tracked : p.closed = false → ∀ id, p.isInUse id = true → id ∈ p.tracked
  closed_empty : p.closed = true → p.tracked = []

/-- What a connection in hand is, and is not. -/
def Hand.Fits (p : Pool) : Hand → Prop
  | .picked _ id =>
    p.closed = false ∧ id ∈ p.tracked ∧ id ∉ p.idle ∧ p.isInUse id = false
  | .holding get? id =>
    (get?.isSome → p.closed = false) ∧ (p.closed = false → id ∈ p.tracked) ∧
      id ∉ p.idle ∧ p.isInUse id = false
  | .retiring id next => id ∉ p.tracked ∧ p.isInUse id = false ∧ next.Fits p
  | .looking next => next.Fits p
  | .closing _ => p.closed = true
  | _ => True

variable {p q : Pool} {h k : Hand} {id : ConnectionId}

/-! ## Marks after a change -/

theorem isInUse_openConnection (p : Pool) {c : Connection} (hc : c.inUse = false)
    (other : ConnectionId) :
    { p with connections := p.connections ++ [c] }.isInUse other = p.isInUse other :=
  shows_openConnection p hc other

theorem isInUse_touch (p : Pool) (id other : ConnectionId) :
    (p.touch id).isInUse other = p.isInUse other :=
  shows_touch Connection.touch_inUse p id other

theorem isInUse_closeConnection (p : Pool) (id other : ConnectionId) :
    (p.closeConnection id).2.isInUse other = p.isInUse other :=
  shows_closeConnection Connection.close_inUse p id other

/-- The mark is taken off one connection. -/
theorem isInUse_mark_false (p : Pool) (id other : ConnectionId) :
    (p.mark id false).isInUse other = (p.isInUse other && other != id) := by
  have hmark : ∀ c : Connection, c.id = id → (c.mark p.now false).id = id :=
    fun c hc => (Connection.mark_id c p.now false).trans hc
  by_cases hne : other = id
  · subst hne
    unfold isInUse mark
    rw [connection?_modify_self hmark]
    cases p.connection? other <;> simp [Connection.mark]
  · have hsame : (p.mark id false).isInUse other = p.isInUse other :=
      shows_modify_of_ne (Q := Connection.inUse) hmark hne
    simp [hsame, hne]

/-- Somebody holds only a connection that there is. -/
theorem idCount_pos_of_isInUse (hu : p.isInUse id = true) : 0 < p.idCount id := by
  obtain ⟨c, hc, -⟩ := isInUse_eq_true_iff.1 hu
  exact idCount_pos hc

/-! ## Nothing that matters changes -/

theorem Roster.congr (hr : p.Roster) (hclosed : q.closed = p.closed)
    (htracked : q.tracked = p.tracked) (hidle : q.idle = p.idle)
    (hids : ∀ id, p.idCount id ≤ q.idCount id)
    (hmarks : ∀ id, q.isInUse id = p.isInUse id) : q.Roster where
  tracked_nodup := htracked ▸ hr.tracked_nodup
  idle_nodup := hidle ▸ hr.idle_nodup
  idle_tracked := by
    rw [htracked, hidle]
    exact hr.idle_tracked
  idle_free := by
    rw [hidle]
    intro id hid
    rw [hmarks]
    exact hr.idle_free id hid
  known := by
    rw [htracked]
    exact fun id hid => Nat.lt_of_lt_of_le (hr.known id hid) (hids id)
  inUse_tracked := by
    rw [htracked, hclosed]
    intro hopen id hu
    rw [hmarks] at hu
    exact hr.inUse_tracked hopen id hu
  closed_empty := by
    rw [htracked, hclosed]
    exact hr.closed_empty

theorem Hand.Fits.congr (hf : h.Fits p) (hclosed : q.closed = p.closed)
    (htracked : q.tracked = p.tracked) (hidle : q.idle = p.idle)
    (hmarks : ∀ id, q.isInUse id = p.isInUse id) : h.Fits q := by
  induction h with
  | picked get id =>
    unfold Hand.Fits
    rw [hclosed, htracked, hidle, hmarks]
    exact hf
  | holding get? id =>
    unfold Hand.Fits
    rw [hclosed, htracked, hidle, hmarks]
    exact hf
  | retiring id next ih =>
    refine ⟨?_, ?_, ih hf.2.2⟩
    · rw [htracked]
      exact hf.1
    · rw [hmarks]
      exact hf.2.1
  | looking next ih => exact ih hf
  | closing ids => exact hclosed.trans hf
  | _ => trivial

/-! ## Changes of the lists -/

theorem nextIdle?_perm {rest : List ConnectionId} (h : p.nextIdle? = some (id, rest)) :
    p.idle.Perm (id :: rest) := by
  unfold nextIdle? at h
  split at h
  · split at h
    · cases h
    · rename_i hidle
      cases h
      rw [hidle]
  · cases hlast : p.idle.getLast? with
    | none => simp [hlast] at h
    | some last =>
      simp only [hlast, Option.map_some, Option.some.injEq, Prod.mk.injEq] at h
      obtain ⟨rfl, rfl⟩ := h
      have hsplit := List.dropLast_append_getLast? last hlast
      rw [← hsplit, List.dropLast_concat]
      exact List.perm_append_singleton last _

/-- The connection that is taken off the idle list is tracked and free. -/
theorem Roster.pick (hr : p.Roster) {rest : List ConnectionId}
    (h : p.nextIdle? = some (id, rest)) :
    id ∈ p.tracked ∧ p.isInUse id = false ∧ id ∉ rest ∧ { p with idle := rest }.Roster := by
  have hperm := nextIdle?_perm h
  have hmem : id ∈ p.idle := hperm.mem_iff.2 List.mem_cons_self
  have hrest : ∀ other ∈ rest, other ∈ p.idle :=
    fun other ho => hperm.mem_iff.2 (List.mem_cons_of_mem _ ho)
  have hnodup := List.nodup_cons.1 (hperm.nodup_iff.1 hr.idle_nodup)
  refine ⟨hr.idle_tracked id hmem, hr.idle_free id hmem, hnodup.1, ?_⟩
  exact { hr with
    idle_nodup := hnodup.2
    idle_tracked := fun other ho => hr.idle_tracked other (hrest other ho)
    idle_free := fun other ho => hr.idle_free other (hrest other ho) }

/-- A connection that is not held may leave the lists. -/
theorem Roster.strike (hr : p.Roster) (hu : p.isInUse id = false) :
    (p.strike id).Roster ∧ id ∉ (p.strike id).tracked := by
  have hgone : id ∉ p.tracked.erase id := fun h => (hr.tracked_nodup.mem_erase_iff.1 h).1 rfl
  rw [strike_eq]
  refine ⟨?_, hgone⟩
  exact {
    tracked_nodup := hr.tracked_nodup.erase id
    idle_nodup := hr.idle_nodup.erase id
    idle_tracked := fun other ho => by
      obtain ⟨hne, ho⟩ := hr.idle_nodup.mem_erase_iff.1 ho
      exact hr.tracked_nodup.mem_erase_iff.2 ⟨hne, hr.idle_tracked other ho⟩
    idle_free := fun other ho => hr.idle_free other (List.mem_of_mem_erase ho)
    known := fun other ho => hr.known other (List.mem_of_mem_erase ho)
    inUse_tracked := fun hopen other ho => by
      have hne : other ≠ id := by
        rintro rfl
        rw [show p.isInUse other = true from ho] at hu
        cases hu
      exact hr.tracked_nodup.mem_erase_iff.2 ⟨hne, hr.inUse_tracked hopen other ho⟩
    closed_empty := fun hclosed => by
      show p.tracked.erase id = []
      rw [hr.closed_empty hclosed]
      rfl }

/-- A new connection is tracked. -/
theorem Roster.adopt (hr : p.Roster) (hopen : p.closed = false) (caller : Caller)
    {attempt : Nat} (hfresh : p.idCount (.dialed attempt) = 0) :
    ((p.connect caller attempt).track (.dialed attempt)).Roster ∧
      ConnectionId.dialed attempt ∉ p.idle ∧
      ((p.connect caller attempt).track (.dialed attempt)).isInUse (.dialed attempt) = false := by
  have hmarks : ∀ other, ((p.connect caller attempt).track (.dialed attempt)).isInUse other =
      p.isInUse other := fun other => isInUse_openConnection p rfl other
  have hids : ∀ other, ((p.connect caller attempt).track (.dialed attempt)).idCount other =
      p.idCount other + if other = .dialed attempt then 1 else 0 := fun other =>
    idCount_open p (.openedAt _ _ _ _) other
  have hnew : ConnectionId.dialed attempt ∉ p.tracked := fun h => by
    have := hr.known _ h
    omega
  refine ⟨?_, fun h => hnew (hr.idle_tracked _ h), ?_⟩
  · exact {
      tracked_nodup := List.nodup_append.2 ⟨hr.tracked_nodup, List.nodup_singleton _, by
        rintro a ha b hb rfl
        exact hnew (List.mem_singleton.1 hb ▸ ha)⟩
      idle_nodup := hr.idle_nodup
      idle_tracked := fun other ho => List.mem_append_left _ (hr.idle_tracked other ho)
      idle_free := fun other ho => (hmarks other).trans (hr.idle_free other ho)
      known := fun other ho => by
        rw [hids]
        rcases List.mem_append.1 ho with ho | ho
        · have := hr.known other ho
          omega
        · rw [if_pos (List.mem_singleton.1 ho)]
          omega
      inUse_tracked := fun _ other ho => by
        rw [hmarks] at ho
        exact List.mem_append_left _ (hr.inUse_tracked hopen other ho)
      closed_empty := fun hclosed => by
        cases hopen.symm.trans hclosed }
  · rw [hmarks, Bool.eq_false_iff]
    intro hu
    have := idCount_pos_of_isInUse hu
    omega

/-- A tracked connection that is free may be kept as idle. -/
theorem Roster.keep (hr : p.Roster) (htracked : id ∈ p.tracked) (hidle : id ∉ p.idle)
    (hu : p.isInUse id = false) : { p with idle := p.idle ++ [id] }.Roster :=
  { hr with
    idle_nodup := List.nodup_append.2 ⟨hr.idle_nodup, List.nodup_singleton _, by
      rintro a ha b hb rfl
      exact hidle (List.mem_singleton.1 hb ▸ ha)⟩
    idle_tracked := fun other ho => by
      rcases List.mem_append.1 ho with ho | ho
      · exact hr.idle_tracked other ho
      · exact List.mem_singleton.1 ho ▸ htracked
    idle_free := fun other ho => by
      rcases List.mem_append.1 ho with ho | ho
      · exact hr.idle_free other ho
      · exact List.mem_singleton.1 ho ▸ hu }

theorem roster_shutDown (p : Pool) : p.shutDown.Roster where
  tracked_nodup := List.nodup_nil
  idle_nodup := List.nodup_nil
  idle_tracked _ ho := ho
  idle_free _ ho := nomatch ho
  known _ ho := nomatch ho
  inUse_tracked hopen := nomatch hopen
  closed_empty _ := rfl

/-! ## Each act -/

/-- The connection that leaves the pool is not held, and what is left in
hand afterwards is no connection. -/
theorem Retires.fits {f : Counters → Counters} (hr : Retires p id h f k) (hf : h.Fits p) :
    p.isInUse id = false ∧ ∀ r, k.Fits r := by
  cases hr with
  | removed hu => exact ⟨hu, fun _ => trivial⟩
  | expired _ => exact ⟨hf.2.2.2, fun _ => trivial⟩
  | invalid _ | stale _ _ _ _ | late _ => exact ⟨hf.2.2.2, fun _ => trivial⟩

theorem Act.idCount_mono (ha : Act p h q k) (id : ConnectionId) :
    p.idCount id ≤ q.idCount id := by
  rcases ha.ids_cases with hids | ⟨a, hids⟩ | ⟨-, hids⟩
  · exact Nat.le_of_eq (hids id).symm
  · rw [hids]
    exact Nat.le_add_right _ _
  · rw [hids]
    exact Nat.le_add_right _ _

/-- The act by which a `get` ends with the connection. -/
inductive Serves (p : Pool) (get : Nat) (id : ConnectionId) : Hand → Pool → Hand → Prop where
  | serve {c : Connection} (hc : p.connection? id = some c) (hclosed : c.closed = false)
      (hvalid : { c with inUse := true, usedAt := p.now }.isValid p.now = true) :
      Serves p get id (.holding (some get) id)
        (((p.modify id fun _ => { c with inUse := true, usedAt := p.now }).count
          Counters.checkOut).record (.served get id)) .done

namespace Serves

variable {get : Nat}

/-- The connection as it is handed out. -/
theorem connection? (hs : Serves p get id h q k) :
    ∃ c, q.connection? id = some c ∧ c.inUse = true ∧ c.closed = false ∧
      c.isValid q.now = true := by
  cases hs with
  | serve hc hclosed hvalid =>
    rename_i c
    have hid := connection?_id hc
    have hput := connection?_put (d := { c with inUse := true, usedAt := p.now }) hc hid
    exact ⟨_, hput, rfl, hclosed, hvalid⟩

theorem isInUse (hs : Serves p get id h q k) : q.isInUse id = true := by
  obtain ⟨c, hc, hheld, -⟩ := hs.connection?
  exact isInUse_eq_true_iff.2 ⟨c, hc, hheld⟩

theorem isInUse_of_ne (hs : Serves p get id h q k) {other : ConnectionId} (hne : other ≠ id) :
    q.isInUse other = p.isInUse other := by
  cases hs with
  | serve hc _ _ =>
    have hid := connection?_id hc
    refine shows_modify_of_ne (Q := Connection.inUse) ?_ hne
    exact fun _ _ => hid

/-- Nobody had the connection before. -/
theorem isInUse_before (hs : Serves p get id h q k) (hf : h.Fits p) : p.isInUse id = false := by
  cases hs
  exact hf.2.2.2

end Serves

/-- Only the start of a lease changes a mark. -/
theorem Act.isInUse_cases (hf : h.Fits p) (hu : p.options.Unmarking) (ha : Act p h q k) :
    (∃ get id, Serves p get id h q k) ∨ ∀ id, q.isInUse id = p.isInUse id := by
  cases ha with
  | serve hc hclosed hvalid => exact .inl ⟨_, _, .serve hc hclosed hvalid⟩
  | cancel get =>
    rw [cancel_frame]
    exact .inr fun _ => rfl
  | resolve attempt fault =>
    rw [resolve_frame]
    exact .inr fun _ => rfl
  | addForeign maxLifetime => exact .inr (isInUse_openConnection p rfl)
  | touch _ id => exact .inr (isInUse_touch p id)
  | closeConnection _ id | shutNext _ | retire _ => exact .inr (isInUse_closeConnection p _)
  | adopt _ | adoptIdle _ => exact .inr fun id => isInUse_openConnection p rfl id
  | adoptLate _ | adoptIdleLate _ =>
    refine .inr fun id => ?_
    rw [isInUse_closeConnection]
    exact isInUse_openConnection p rfl id
  | dialFailed _ | topUpFailed =>
    unfold lowerSize
    rw [noteDialFailure_frame]
    exact .inr fun _ => rfl
  | dialFailedLate _ =>
    rw [noteDialFailure_frame]
    exact .inr fun _ => rfl
  | finish | fail | checkIn =>
    rw [freeSlot_frame]
    exact .inr fun _ => rfl
  | mark hmark => exact absurd hu hmark
  | putBack hc _ =>
    -- The mark that is taken off was not there.
    rename_i c _
    have hid := connection?_id hc
    have hfree : c.inUse = false := (isInUse_of_connection? hc).symm.trans hf.2.2.2
    refine .inr (shows_modify (Q := Connection.inUse) ?_ fun d hd => ?_)
    · exact fun _ _ => hid
    · cases hc.symm.trans hd
      exact hfree.symm
  | strike _ _ => exact .inr (isInUse_strike _ _)
  | _ => exact .inr fun _ => rfl

/-- No act takes a connection from who holds it. -/
theorem Act.isInUse_mono (hf : h.Fits p) (hu : p.options.Unmarking) (ha : Act p h q k)
    (hheld : p.isInUse id = true) : q.isInUse id = true := by
  rcases ha.isInUse_cases hf hu with ⟨get, other, hs⟩ | hmarks
  · by_cases hne : id = other
    · rw [hne]
      exact hs.isInUse
    · rw [hs.isInUse_of_ne hne]
      exact hheld
  · rw [hmarks]
    exact hheld

/-- What a `get` takes with it is tracked and not idle. -/
theorem Roster.serve {get : Nat} (hr : p.Roster) (hf : h.Fits p)
    (hs : Serves p get id h q k) (hids : ∀ other, p.idCount other ≤ q.idCount other) :
    q.Roster ∧ k.Fits q := by
  have hother : ∀ other, other ≠ id → q.isInUse other = p.isInUse other :=
    fun _ hne => hs.isInUse_of_ne hne
  cases hs
  refine ⟨?_, trivial⟩
  exact { hr with
    idle_free := fun other ho => by
      have hne : other ≠ id := by
        rintro rfl
        exact hf.2.2.1 ho
      exact (hother other hne).trans (hr.idle_free other ho)
    known := fun other ho => Nat.lt_of_lt_of_le (hr.known other ho) (hids other)
    inUse_tracked := fun hopen other ho => by
      by_cases hne : other = id
      · rw [hne]
        exact hf.2.1 hopen
      · exact hr.inUse_tracked hopen other ((hother other hne).symm.trans ho) }

/-- Every act keeps the lists and the marks in agreement. -/
theorem Roster.act (hr : p.Roster) (hf : h.Fits p) (hn : Attempts p h)
    (hu : p.options.Unmarking) (ha : Act p h q k) : q.Roster ∧ k.Fits q := by
  have hids := ha.idCount_mono
  rcases ha.isInUse_cases hf hu with ⟨get, id, hs⟩ | hmarks
  · exact hr.serve hf hs hids
  -- Acts that do not touch the lists keep what is in hand.
  have hsame : q.closed = p.closed → q.tracked = p.tracked → q.idle = p.idle → k.Fits p →
      q.Roster ∧ k.Fits q :=
    fun hclosed htracked hidle hk =>
      ⟨hr.congr hclosed htracked hidle hids hmarks, hk.congr hclosed htracked hidle hmarks⟩
  cases ha with
  | cancel get =>
    rw [cancel_frame]
    exact ⟨{ hr with }, trivial⟩
  | resolve attempt fault =>
    rw [resolve_frame]
    exact ⟨{ hr with }, trivial⟩
  | addForeign maxLifetime => exact hsame rfl rfl rfl trivial
  | look | touch _ _ | countHooks _ | putBack _ _ => exact hsame rfl rfl rfl hf
  | closeConnection _ id | shutNext _ =>
    rw [closeConnection_frame] at hsame ⊢
    exact hsame rfl rfl rfl hf
  | retire _ =>
    rw [closeConnection_frame] at hsame ⊢
    exact hsame rfl rfl rfl hf.2.2
  | shutDown _ => exact ⟨roster_shutDown p, rfl⟩
  | shutSkip _ => exact ⟨hr, hf⟩
  | pick hopen hnext =>
    obtain ⟨htracked, hfree, hrest, hnew⟩ := hr.pick hnext
    exact ⟨{ hnew with }, hopen, htracked, hrest, hfree⟩
  | hit _ => exact ⟨{ hr with }, fun _ => hf.1, fun _ => hf.2.1, hf.2.2⟩
  | adopt hopen =>
    rename_i get attempt
    obtain ⟨hnew, hidle, hfree⟩ := hr.adopt hopen (.get get) hn.new
    exact ⟨hnew, fun _ => hopen, fun _ => List.mem_append_right _ (List.mem_singleton_self _),
      hidle, hfree⟩
  | adoptIdle hopen =>
    rename_i attempt
    obtain ⟨hnew, hidle, hfree⟩ := hr.adopt hopen .topUp hn.new
    have hkeep := hnew.keep (List.mem_append_right _ (List.mem_singleton_self _)) hidle hfree
    exact ⟨hkeep, trivial⟩
  | adoptLate _ | adoptIdleLate _ =>
    rw [closeConnection_frame] at hsame ⊢
    exact hsame rfl rfl rfl trivial
  | dialFailed _ | topUpFailed =>
    unfold lowerSize
    rw [noteDialFailure_frame]
    exact ⟨{ hr with }, trivial⟩
  | dialFailedLate _ =>
    rw [noteDialFailure_frame]
    exact ⟨{ hr with }, trivial⟩
  | finish | fail | checkIn =>
    rw [freeSlot_frame]
    exact ⟨{ hr with }, trivial⟩
  | mark hmark => exact absurd hu hmark
  | serve _ _ _ => exact hsame rfl rfl rfl trivial
  | keep hopen _ htracked _ =>
    have hkeep := hr.keep htracked hf.2.2.1 hf.2.2.2
    exact ⟨{ hkeep with }, trivial⟩
  | strike hret _ =>
    obtain ⟨hfree, hnext⟩ := hret.fits hf
    rw [strike_count]
    obtain ⟨hnew, hgone⟩ := hr.strike hfree
    exact ⟨{ hnew with }, hgone, (isInUse_strike p _ _).trans hfree, hnext _⟩
  | pass hret hid =>
    obtain ⟨hfree, hnext⟩ := hret.fits hf
    exact ⟨{ hr with }, hid, hfree, hnext _⟩
  | refuseRemoval hret hheld =>
    obtain ⟨hfree, hnext⟩ := hret.fits hf
    exact ⟨{ hr with }, hnext _⟩
  | spare _ => exact ⟨hr, hf.2.2⟩
  | _ => exact ⟨{ hr with }, trivial⟩

/-! ## Every state -/

theorem roster_create (o : Options) (dialer : Nat → Course) (now : Nat)
    (background : Bool) : (create o dialer now background).Roster := by
  have hempty : (create o dialer now false).Roster := {
    tracked_nodup := List.nodup_nil
    idle_nodup := List.nodup_nil
    idle_tracked := fun _ ho => ho
    idle_free := fun _ ho => nomatch ho
    known := fun _ ho => nomatch ho
    inUse_tracked := fun _ _ hu => nomatch hu
    closed_empty := fun hclosed => nomatch hclosed }
  cases background with
  | false => exact hempty
  | true => exact { hempty with }

/-- A checkout that ends leaves a connection in hand. -/
theorem Roster.giveBack (hr : p.Roster) (hu : p.isInUse id = true) :
    (p.mark id false).Roster ∧ Hand.Fits (p.mark id false) (.holding none id) := by
  have hmark : ∀ c : Connection, c.id = id → (c.mark p.now false).id = id :=
    fun c hc => (Connection.mark_id c p.now false).trans hc
  have hmarks := isInUse_mark_false p id
  have hidle : id ∉ p.idle := fun ho => by
    cases hu.symm.trans (hr.idle_free id ho)
  refine ⟨?_, nofun, fun hopen => hr.inUse_tracked hopen id hu, hidle, by simp [hmarks]⟩
  exact { hr with
    idle_free := fun other ho => by
      rw [hmarks, hr.idle_free other ho, Bool.false_and]
    known := fun other ho => by
      rw [mark, idCount_modify hmark]
      exact hr.known other ho
    inUse_tracked := fun hopen other ho => by
      rw [hmarks, Bool.and_eq_true] at ho
      exact hr.inUse_tracked hopen other ho.1 }

variable {o : Options}

theorem Occurs.roster_fits (ho : o.Unmarking) (hp : Occurs o p h) : p.Roster ∧ h.Fits p := by
  induction hp with
  | create dialer now background => exact ⟨roster_create o dialer now background, trivial⟩
  | act hp ha ih => exact ih.1.act ih.2 hp.attempts (hp.options_eq ▸ ho) ha
  | next _ ih => exact ⟨ih.1, trivial⟩
  | giveBack _ hu ih => exact ih.1.giveBack hu

theorem Occurs.roster (hp : Occurs o p h) (ho : o.Unmarking) : p.Roster :=
  (hp.roster_fits ho).1

theorem Occurs.fits (hp : Occurs o p h) (ho : o.Unmarking) : h.Fits p :=
  (hp.roster_fits ho).2

end PooledRouting.Pool
