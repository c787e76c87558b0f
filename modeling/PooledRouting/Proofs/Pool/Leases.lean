import PooledRouting.Proofs.Pool.Calls
import PooledRouting.Proofs.Pool.Transports

/-!
# Leases

A `get` that ends with a connection has a lease of it until it gives the
connection back.  `Leased` says how the leases of a session and the marks
of its connections hang together: a connection is marked exactly while one
`get` holds it, and no two hold the same.

`Serves` is the act that starts a lease, and no other act touches a mark or
adds to what was handed out (`Act.handOuts_cases`).  It comes last in its
chain, so what holds right after it holds when the move is over
(`Acts.handedOut`).

`Termed` is what is left to know for the age of a connection: each that the
pool tracks has the limit from the options of the pool.

The main result is `handed_out_exclusively`.
-/

namespace PooledRouting.Pool

variable {o : Options} {p q : Pool} {h k : Hand} {get n : Nat} {id : ConnectionId}

/-! ## The limit on the age -/

/-- Whether this is the limit on the age of the connection. -/
def hasLimit (limit : Nat) (c : Connection) : Bool :=
  c.maxLifetime == limit

/-- The connections of the pool have the limit on their age that its
options say. -/
def Termed (p : Pool) : Prop :=
  ∀ id ∈ p.tracked, p.shows (hasLimit p.options.maxLifetime) id = true

theorem hasLimit_congr {c d : Connection} (h : c.maxLifetime = d.maxLifetime) (limit : Nat) :
    hasLimit limit c = hasLimit limit d :=
  congrArg (· == limit) h

theorem hasLimit_put (limit : Nat) {c d : Connection} (hc : p.connection? id = some c)
    (hd : d.id = id) (hlimit : d.maxLifetime = c.maxLifetime) (other : ConnectionId) :
    (p.modify id fun _ => d).shows (hasLimit limit) other =
      p.shows (hasLimit limit) other := by
  refine shows_modify (f := fun _ => d) (fun _ _ => hd) (fun e he => ?_) other
  cases hc.symm.trans he
  exact hasLimit_congr hlimit limit

theorem hasLimit_closeConnection (limit : Nat) (p : Pool) (id other : ConnectionId) :
    (p.closeConnection id).2.shows (hasLimit limit) other = p.shows (hasLimit limit) other :=
  shows_closeConnection (fun c fault => hasLimit_congr (c.close_maxLifetime fault) limit) p id
    other

/-- What is there shows no less when one more comes. -/
theorem shows_append {Q : Connection → Bool} (h : p.shows Q id = true) (c : Connection) :
    { p with connections := p.connections ++ [c] }.shows Q id = true := by
  obtain ⟨d, hd, hQ⟩ := shows_eq_true_iff.1 h
  refine shows_eq_true_iff.2 ⟨d, ?_, hQ⟩
  unfold connection? at hd ⊢
  rw [List.find?_append, hd]
  rfl

/-- A new connection shows what it is like. -/
theorem shows_new {Q : Connection → Bool} {c : Connection} (hnew : p.idCount c.id = 0)
    (hQ : Q c = true) : { p with connections := p.connections ++ [c] }.shows Q c.id = true := by
  have hnone : p.connections.find? (fun d => d.id == c.id) = none := by
    cases hc : p.connection? c.id with
    | none => exact hc
    | some d =>
      have hpos := idCount_pos hc
      omega
  refine shows_eq_true_iff.2 ⟨c, ?_, hQ⟩
  unfold connection?
  rw [List.find?_append, hnone, List.find?_singleton, Option.none_or]
  simp

theorem Termed.congr (ht : Termed p) (hoptions : q.options = p.options)
    (htracked : ∀ id ∈ q.tracked, id ∈ p.tracked)
    (hlimit : ∀ limit id, p.shows (hasLimit limit) id = true →
      q.shows (hasLimit limit) id = true) : Termed q := by
  intro id hid
  rw [hoptions]
  exact hlimit _ id (ht id (htracked id hid))

theorem Termed.adopt (ht : Termed p) (caller : Caller) {attempt : Nat}
    (hnew : p.idCount (.dialed attempt) = 0) :
    Termed ((p.connect caller attempt).track (.dialed attempt)) := by
  intro id hid
  rcases List.mem_append.1 hid with hid | hid
  · exact shows_append (ht id hid) _
  · rw [List.mem_singleton.1 hid]
    exact shows_new (p := p.resetCircuit.record (.connected caller attempt))
      (c := .openedAt p.now (.dialed attempt) p.options.maxLifetime p.options.maxIdleTime)
      hnew (beq_self_eq_true _)

/-- No act changes the limit on the age of a connection. -/
theorem Termed.act (ht : Termed p) (hn : Attempts p h) (ha : Act p h q k) : Termed q := by
  have hall : ∀ id ∈ p.tracked, id ∈ p.tracked := fun _ hid => hid
  cases ha with
  | cancel get =>
    rw [cancel_frame]
    exact ht
  | resolve attempt fault =>
    rw [resolve_frame]
    exact ht
  | addForeign maxLifetime => exact ht.congr rfl hall fun _ _ hs => shows_append hs _
  | touch _ id =>
    refine ht.congr rfl hall fun limit other hs => ?_
    rw [shows_touch (fun c now => hasLimit_congr (c.touch_maxLifetime now) limit)]
    exact hs
  | closeConnection _ id | shutNext _ | retire _ =>
    refine ht.congr ?_ ?_ fun limit other hs => ?_
    · rw [closeConnection_frame]
    · rw [closeConnection_frame]
      exact hall
    · rw [hasLimit_closeConnection]
      exact hs
  | shutDown _ => nofun
  | adopt _ => exact ht.adopt _ hn.new
  | adoptIdle _ => exact ht.adopt .topUp hn.new
  | adoptLate _ | adoptIdleLate _ =>
    refine ht.congr ?_ ?_ fun limit other hs => ?_
    · rw [closeConnection_frame]
      rfl
    · rw [closeConnection_frame]
      exact hall
    · rw [hasLimit_closeConnection]
      exact shows_append hs _
  | dialFailed _ | topUpFailed =>
    unfold lowerSize
    rw [noteDialFailure_frame]
    exact ht
  | dialFailedLate _ =>
    rw [noteDialFailure_frame]
    exact ht
  | finish | fail | checkIn =>
    rw [freeSlot_frame]
    exact ht
  | mark _ =>
    refine ht.congr rfl hall fun limit other hs => ?_
    refine (shows_modify (fun c hc => (c.mark_id p.now true).trans hc) (fun c _ => ?_)
      other).trans hs
    exact hasLimit_congr (c.mark_maxLifetime p.now true) limit
  | putBack hc _ =>
    rename_i c _
    have hid := connection?_id hc
    have hput := fun limit => hasLimit_put limit
      (d := { c with inUse := false, usedAt := p.now }) hc hid rfl
    exact ht.congr rfl hall fun limit other hs => (hput limit other).trans hs
  | serve hc _ _ =>
    rename_i c _ _
    have hid := connection?_id hc
    have hput := fun limit => hasLimit_put limit
      (d := { c with inUse := true, usedAt := p.now }) hc hid rfl
    exact ht.congr rfl hall fun limit other hs => (hput limit other).trans hs
  | strike _ _ =>
    rw [strike_eq]
    exact ht.congr rfl (fun _ hid => List.mem_of_mem_erase hid) fun _ _ hs => hs
  | _ => exact ht

theorem Occurs.termed (hp : Occurs o p h) : Termed p := by
  induction hp with
  | create dialer now background =>
    cases background with
    | _ => nofun
  | act hp ha ih => exact ih.act hp.attempts ha
  | next _ ih => exact ih
  | giveBack _ _ ih =>
    rename_i p id _ _
    refine ih.congr rfl (fun _ hid => hid) fun limit other hs => ?_
    refine (shows_modify (fun c hc => (c.mark_id p.now false).trans hc) (fun c _ => ?_)
      other).trans hs
    exact hasLimit_congr (c.mark_maxLifetime p.now false) limit

/-! ## The act that starts a lease -/

/-- The times that the `get` was handed the connection. -/
def handOuts (p : Pool) (get : Nat) (id : ConnectionId) : Nat :=
  p.history.count (.served get id)

theorem handOuts_record_of_ne {e : Event} (he : e ≠ .served get id) (p : Pool) :
    (p.record e).handOuts get id = p.handOuts get id :=
  List.count_cons_of_ne he

/-- An event of another kind is no hand-out. -/
theorem handOuts_record {e : Event} (he : ∀ get id, e ≠ .served get id) (p : Pool) (get : Nat)
    (id : ConnectionId) : (p.record e).handOuts get id = p.handOuts get id :=
  handOuts_record_of_ne (he get id) p

theorem handOuts_closeConnection (p : Pool) (other : ConnectionId) (get : Nat)
    (id : ConnectionId) : (p.closeConnection other).2.handOuts get id = p.handOuts get id :=
  countP_history_closeConnection (fun _ => rfl) p other

/-- Only the start of a lease adds to what was handed out. -/
theorem Act.handOuts_cases (ha : Act p h q k) :
    (∃ get id, Serves p get id h q k) ∨ ∀ get id, q.handOuts get id = p.handOuts get id := by
  cases ha with
  | serve hc hclosed hvalid => exact .inl ⟨_, _, .serve hc hclosed hvalid⟩
  | cancel get =>
    rw [cancel_frame]
    exact .inr fun _ _ => rfl
  | resolve attempt fault =>
    rw [resolve_frame]
    exact .inr fun _ _ => rfl
  | closeConnection _ id | shutNext _ | retire _ => exact .inr (handOuts_closeConnection p _)
  | turnAway _ | refuse | tooLate _ _ _ _ | giveUp _ _ | timeOut _ | claim _ _ _ | accept _ _ =>
    exact .inr (handOuts_record (by nofun) _)
  | pick _ _ => exact .inr fun _ _ => countP_history_lowerIdleCount rfl _
  | adopt _ | adoptIdle _ =>
    refine .inr fun get id => ?_
    exact (handOuts_record (by nofun) _ get id).trans (handOuts_record (by nofun) p get id)
  | adoptLate _ | adoptIdleLate _ =>
    refine .inr fun get id => ?_
    rw [handOuts_closeConnection]
    exact handOuts_record (by nofun) p get id
  | dialFailed _ =>
    refine .inr fun get id => (countP_history_lowerSize rfl _).trans ?_
    rw [noteDialFailure_frame]
    rfl
  | topUpFailed =>
    refine .inr fun get id =>
      ((countP_history_lowerIdleCount rfl _).trans (countP_history_lowerSize rfl _)).trans ?_
    rw [noteDialFailure_frame]
    rfl
  | dialFailedLate _ =>
    rw [noteDialFailure_frame]
    exact .inr fun _ _ => rfl
  | topUpDenied _ _ =>
    exact .inr fun _ _ => (countP_history_lowerIdleCount rfl _).trans (countP_history_lowerSize rfl p)
  | finish | checkIn =>
    rw [freeSlot_frame]
    exact .inr fun _ _ => rfl
  | fail =>
    rw [freeSlot_frame]
    exact .inr (handOuts_record (by nofun) _)
  | probeReached =>
    refine .inr fun get id => ?_
    exact (handOuts_record (by nofun) _ get id).trans (handOuts_record (by nofun) _ get id)
  | strike _ _ => exact .inr fun _ _ => countP_history_strike rfl _ _
  | _ => exact .inr fun _ _ => rfl

/-- Nothing comes after the end of a chain. -/
theorem Act.start_ne_done (ha : Act p h q k) : h ≠ .done := by
  cases ha with
  | touch hh _ | closeConnection hh _ => exact hh
  | strike hr _ | pass hr _ | refuseRemoval hr _ => cases hr <;> nofun
  | _ => nofun

theorem Acts.eq_of_done (hs : Acts p .done q k) : q = p := by
  cases hs with
  | refl => rfl
  | cons ha _ => exact absurd rfl ha.start_ne_done

namespace Serves

theorem hand_done (hs : Serves p get id h q k) : k = .done := by
  cases hs
  rfl

theorem mem_history (hs : Serves p get id h q k) {e : Event} :
    e ∈ q.history ↔ e = .served get id ∨ e ∈ p.history := by
  cases hs
  exact List.mem_cons

/-- It hands out nothing else. -/
theorem eq_of_handOuts_lt (hs : Serves p get id h q k) {other : ConnectionId}
    (hlt : p.handOuts n other < q.handOuts n other) : n = get ∧ other = id := by
  by_contra hne
  have hevent : Event.served get id ≠ .served n other := fun heq => by
    cases heq
    exact hne ⟨rfl, rfl⟩
  cases hs with
  | serve _ _ _ => exact absurd (handOuts_record_of_ne hevent _) (Nat.ne_of_gt hlt)

/-- The `get` had not ended before. -/
theorem endings_eq_zero (hs : Serves p get id h q k) (hi : Called p h) :
    p.endings get = 0 := by
  have hplaces := hi.places_le get
  have hcall : Hand.calls get h = 1 := by
    cases hs
    exact calls_eq_one rfl
  omega

end Serves

/-! ## Leases and marks -/

/-- A connection is marked exactly while a `get` holds it, and no two hold
the same.  Who gave a connection back had one. -/
structure Leased (s : Session) : Prop where
  held : ∀ id, s.pool.isInUse id = true ↔ ∃ get, s.Holds get id
  alone : ∀ get other id, s.Holds get id → s.Holds other id → get = other
  ended : ∀ get ∈ s.finished, ∃ id, .served get id ∈ s.pool.history

variable {finished : List Nat}

theorem Leased.congr (hl : Leased ⟨p, finished⟩) (hmarks : ∀ id, q.isInUse id = p.isInUse id)
    (hserved : ∀ get id, .served get id ∈ q.history ↔ .served get id ∈ p.history) :
    Leased ⟨q, finished⟩ := by
  have hholds : ∀ get id, Session.Holds ⟨q, finished⟩ get id ↔ Session.Holds ⟨p, finished⟩ get id :=
    fun get id => and_congr_left fun _ => hserved get id
  refine ⟨fun id => ?_, fun get other id hg ho => ?_, fun get hget => ?_⟩
  · show q.isInUse id = true ↔ _
    rw [hmarks]
    exact (hl.held id).trans (exists_congr fun get => (hholds get id).symm)
  · exact hl.alone get other id ((hholds get id).1 hg) ((hholds other id).1 ho)
  · obtain ⟨id, hid⟩ := hl.ended get hget
    exact ⟨id, (hserved get id).2 hid⟩

/-- The `get` that starts a lease has not given one back. -/
theorem Leased.not_finished (hl : Leased ⟨p, finished⟩) (hi : Called p h)
    (hs : Serves p get id h q k) : get ∉ finished := by
  intro hget
  obtain ⟨other, hother⟩ := hl.ended get hget
  have hpos : 0 < p.endings get := endings_pos hother (beq_self_eq_true _)
  have hzero := hs.endings_eq_zero hi
  omega

theorem Leased.serve (hl : Leased ⟨p, finished⟩) (hf : h.Fits p) (hi : Called p h)
    (hs : Serves p get id h q k) : Leased ⟨q, finished⟩ := by
  have hnew := hl.not_finished hi hs
  have hold : ∀ n, ¬Session.Holds ⟨p, finished⟩ n id := fun n hn => by
    have hheld : p.isInUse id = true := (hl.held id).2 ⟨n, hn⟩
    rw [hs.isInUse_before hf] at hheld
    cases hheld
  have hholds : ∀ n other, Session.Holds ⟨q, finished⟩ n other ↔
      (n = get ∧ other = id) ∨ Session.Holds ⟨p, finished⟩ n other := fun n other => by
    unfold Session.Holds
    dsimp only
    rw [hs.mem_history, Event.served.injEq]
    constructor
    · rintro ⟨heq | hmem, hn⟩
      · exact .inl heq
      · exact .inr ⟨hmem, hn⟩
    · rintro (⟨rfl, rfl⟩ | ⟨hmem, hn⟩)
      · exact ⟨.inl ⟨rfl, rfl⟩, hnew⟩
      · exact ⟨.inr hmem, hn⟩
  refine ⟨fun other => ?_, fun n m other hn hm => ?_, fun n hn => ?_⟩
  · by_cases hne : other = id
    · rw [hne]
      exact ⟨fun _ => ⟨get, (hholds get id).2 (.inl ⟨rfl, rfl⟩)⟩, fun _ => hs.isInUse⟩
    · show q.isInUse other = true ↔ _
      rw [hs.isInUse_of_ne hne]
      refine (hl.held other).trans (exists_congr fun n => ?_)
      rw [hholds]
      exact ⟨.inr, fun h => h.resolve_left fun heq => hne heq.2⟩
  · rcases (hholds n other).1 hn with ⟨rfl, rfl⟩ | hn
    · rcases (hholds m other).1 hm with ⟨rfl, -⟩ | hm
      · rfl
      · exact absurd hm (hold m)
    · rcases (hholds m other).1 hm with ⟨rfl, rfl⟩ | hm
      · exact absurd hn (hold n)
      · exact hl.alone n m other hn hm
  · obtain ⟨other, hother⟩ := hl.ended n hn
    exact ⟨other, hs.mem_history.2 (.inr hother)⟩

theorem mem_history_iff_handOuts_pos :
    .served get id ∈ p.history ↔ 0 < p.handOuts get id :=
  List.count_pos_iff.symm

/-- Every act keeps the leases and the marks in agreement. -/
theorem Leased.act (hl : Leased ⟨p, finished⟩) (hf : h.Fits p) (hu : p.options.Unmarking)
    (hi : Called p h) (ha : Act p h q k) : Leased ⟨q, finished⟩ := by
  rcases ha.isInUse_cases hf hu with ⟨get, id, hs⟩ | hmarks
  · exact hl.serve hf hi hs
  rcases ha.handOuts_cases with ⟨get, id, hs⟩ | hsame
  · exact hl.serve hf hi hs
  · refine hl.congr hmarks fun get id => ?_
    rw [mem_history_iff_handOuts_pos, mem_history_iff_handOuts_pos, hsame]

/-- A `get` that gives its connection back holds nothing more. -/
theorem Leased.giveBack (hl : Leased ⟨p, finished⟩) (hi : Called p .start)
    (hh : Session.Holds ⟨p, finished⟩ get id) : Leased ⟨p.mark id false, get :: finished⟩ := by
  have hmarks := isInUse_mark_false p id
  have hserved : ∀ n other, Session.Holds ⟨p.mark id false, get :: finished⟩ n other ↔
      n ≠ get ∧ Session.Holds ⟨p, finished⟩ n other := fun n other => by
    unfold Session.Holds
    dsimp only
    rw [List.mem_cons, not_or]
    exact and_left_comm
  refine ⟨fun other => ?_, fun n m other hn hm => ?_, fun n hn => ?_⟩
  · show (p.mark id false).isInUse other = true ↔ _
    rw [hmarks, Bool.and_eq_true, bne_iff_ne]
    constructor
    · rintro ⟨hheld, hne⟩
      obtain ⟨n, hn⟩ := (hl.held other).1 hheld
      refine ⟨n, (hserved n other).2 ⟨?_, hn⟩⟩
      rintro rfl
      exact hne (hi.served_eq hn.1 hh.1)
    · rintro ⟨n, hn⟩
      obtain ⟨hne, hold⟩ := (hserved n other).1 hn
      refine ⟨(hl.held other).2 ⟨n, hold⟩, ?_⟩
      rintro rfl
      exact hne (hl.alone n get other hold hh)
  · exact hl.alone n m other ((hserved n other).1 hn).2 ((hserved m other).1 hm).2
  · rcases List.mem_cons.1 hn with rfl | hn
    · exact ⟨id, hh.1⟩
    · exact hl.ended n hn

/-! ## Sessions -/

theorem leased_create (o : Options) (dialer : Nat → Course) (now : Nat) (background : Bool) :
    Leased ⟨Pool.create o dialer now background, []⟩ := by
  have hnone : ∀ get id, .served get id ∉ (Pool.create o dialer now background).history :=
    fun get id => by cases background <;> nofun
  have hfree : ∀ id, (Pool.create o dialer now background).isInUse id = false :=
    fun id => by cases background <;> rfl
  refine ⟨fun id => ?_, fun get _ id hn => absurd hn.1 (hnone get id), nofun⟩
  refine ⟨fun hheld => ?_, fun ⟨get, hn⟩ => absurd hn.1 (hnone get id)⟩
  cases (hfree id).symm.trans hheld

theorem Leased.acts (hl : Leased ⟨p, finished⟩) (ho : o.Unmarking) (hp : Occurs o p h)
    (hs : Acts p h q k) : Leased ⟨q, finished⟩ := by
  have hboth := hs.invariant (I := fun r h => Occurs o r h ∧ Leased ⟨r, finished⟩) ⟨hp, hl⟩
    fun ⟨hp, hl⟩ ha =>
      ⟨hp.act ha, hl.act (hp.fits ho) (hp.options_eq ▸ ho) hp.called ha⟩
  exact hboth.2

/-- The chain that leads to the next state of a session. -/
theorem Leased.chain {s s' : Session} (hl : Leased s) (hp : Occurs o s.pool .start)
    (hn : s.Next s') :
    ∃ p h, p.history = s.pool.history ∧ Occurs o p h ∧ Leased ⟨p, s'.finished⟩ ∧
      Acts p h s'.pool .done := by
  cases hn with
  | move m hm =>
    refine ⟨s.pool, .start, rfl, hp, hl, apply_acts hp.hooksKept m fun id hid => ?_⟩
    rw [Bool.eq_false_iff]
    intro hheld
    obtain ⟨get, hget⟩ := (hl.held id).1 hheld
    exact hm get id hid hget
  | giveBack hh =>
    rename_i get id
    have hheld := (hl.held id).2 ⟨get, hh⟩
    exact ⟨s.pool.mark id false, .holding none id, rfl, hp.giveBack hheld,
      hl.giveBack hp.called hh, release_acts hheld⟩

theorem Session.Reachable.leased {s : Session} (hs : s.Reachable o) (ho : o.Unmarking) :
    Leased s := by
  induction hs with
  | create dialer now background => exact leased_create o dialer now background
  | next hs hn ih =>
    obtain ⟨p, h, -, hp, hl, hacts⟩ := ih.chain hs.pool.occurs hn
    exact hl.acts ho hp hacts

/-! ## What is handed out -/

/-- What a `get` may count on when it is handed the connection. -/
structure HandedOut (p : Pool) (id : ConnectionId) : Prop where
  pool_open : p.closed = false
  tracked : id ∈ p.tracked
  not_idle : id ∉ p.idle
  sound : ∃ c, p.connection? id = some c ∧ c.inUse = true ∧ c.closed = false ∧
    (p.options.maxLifetime = 0 ∨ p.now - c.createdAt ≤ p.options.maxLifetime)
  never_closed : .transportClosed id ∉ p.history

/-- A transport that is open at its connection was never closed. -/
theorem Occurs.not_closed (hp : Occurs o p h) {c : Connection} (hc : p.connection? id = some c)
    (hopen : c.closed = false) : .transportClosed id ∉ p.history := by
  have hclosings := hp.accounted.closings id
  have hshows : p.shows Connection.closed id = false := by
    unfold shows
    rw [hc]
    exact hopen
  have hprobed : p.probedAs id = 0 := by
    have hpos := idCount_pos hc
    cases id with
    | dialed a =>
      have honce := hp.attempts.once a
      unfold places at honce
      show p.probed a = 0
      omega
    | foreign n => rfl
  rw [hshows, hprobed] at hclosings
  intro hmem
  exact absurd (by simp [Event.isClosing]) (List.countP_eq_zero.1 hclosings _ hmem)

theorem Serves.handedOut (hs : Serves p get id h q k) (ho : o.Unmarking) (hp : Occurs o p h)
    (ha : Act p h q k) : q.HandedOut id := by
  have hq := hp.act ha
  obtain ⟨c, hc, hheld, hopen, hvalid⟩ := hs.connection?
  have hlists : q.closed = false ∧ id ∈ q.tracked ∧ id ∉ q.idle := by
    have hfits := hp.fits ho
    cases hs
    exact ⟨hfits.1 rfl, hfits.2.1 (hfits.1 rfl), hfits.2.2.1⟩
  have hlimit : c.maxLifetime = q.options.maxLifetime := by
    have hterm := hq.termed id hlists.2.1
    unfold shows at hterm
    rw [hc] at hterm
    exact beq_iff_eq.1 hterm
  have hage : q.options.maxLifetime = 0 ∨ q.now - c.createdAt ≤ q.options.maxLifetime := by
    unfold Connection.isValid at hvalid
    rw [hlimit] at hvalid
    simp only [Bool.and_eq_true, Bool.or_eq_true, beq_iff_eq, decide_eq_true_eq] at hvalid
    exact hvalid.1.2
  exact ⟨hlists.1, hlists.2.1, hlists.2.2, ⟨c, hc, hheld, hopen, hage⟩, hq.not_closed hc hopen⟩

/-- A chain that hands out a connection ends with that. -/
theorem Acts.handedOut (hs : Acts p h q k) (ho : o.Unmarking) (hp : Occurs o p h)
    (hl : Leased ⟨p, finished⟩) (hnew : p.handOuts get id < q.handOuts get id) :
    q.HandedOut id ∧ get ∉ finished := by
  induction hs with
  | refl => exact absurd hnew (Nat.lt_irrefl _)
  | cons ha hs ih =>
    rename_i p r q h l k
    have hfits := hp.fits ho
    have hunmarking : p.options.Unmarking := hp.options_eq ▸ ho
    have hlease := hl.act hfits hunmarking hp.called ha
    rcases ha.handOuts_cases with ⟨n, other, hserves⟩ | hsame
    · -- Nothing comes after this act, so the chain ends with it.
      obtain rfl := hserves.hand_done
      obtain rfl := hs.eq_of_done
      obtain ⟨rfl, rfl⟩ := hserves.eq_of_handOuts_lt hnew
      exact ⟨hserves.handedOut ho hp ha, hl.not_finished hp.called hserves⟩
    · exact ih (hp.act ha) hlease ((hsame get id).symm ▸ hnew)

/-- Whenever a `get` ends with a connection, the pool is open, and the
connection is one that it tracks, is not idle, is not closed and never was,
is no older than the options say, and is held by that `get` alone. -/
theorem handed_out_exclusively {s s' : Session} (ho : o.Unmarking) (hs : s.Reachable o)
    (hn : s.Next s') (hnew : s.pool.handOuts get id < s'.pool.handOuts get id) :
    s'.pool.HandedOut id ∧ s'.Holds get id ∧ ∀ other, s'.Holds other id → other = get := by
  have hleased := (hs.next hn).leased ho
  obtain ⟨p, h, hhistory, hp, hl, hacts⟩ := (hs.leased ho).chain hs.pool.occurs hn
  have hlt : p.handOuts get id < s'.pool.handOuts get id := by
    unfold handOuts at hnew ⊢
    rwa [hhistory]
  obtain ⟨hout, hget⟩ := hacts.handedOut ho hp hl hlt
  have hholds : s'.Holds get id :=
    ⟨mem_history_iff_handOuts_pos.2 (Nat.zero_lt_of_lt hlt), hget⟩
  exact ⟨hout, hholds, fun other hother => hleased.alone other get id hother hholds⟩

theorem handed_out_exclusively_reused :
    let o : Options := { poolSize := 1, maxLifetime := 1000 }
    let p := (create o (fun _ => .answer 0 none) 0 false).after [.get false, .turn]
    let s : Session := ⟨(p.release (.dialed 1)).get false, [1]⟩
    let s' : Session := ⟨s.pool.step, [1]⟩
    s.Reachable o ∧ s.Next s' ∧ s.pool.handOuts 2 (.dialed 1) < s'.pool.handOuts 2 (.dialed 1) ∧
      s'.pool.HandedOut (.dialed 1) ∧ s'.Holds 2 (.dialed 1) ∧
        ∀ other, s'.Holds other (.dialed 1) → other = 2 := by
  intro o p s s'
  have hnew : Session.Reachable o ⟨create o (fun _ => .answer 0 none) 0 false, []⟩ :=
    .create _ _ _
  have hp : Session.Reachable o ⟨p, []⟩ :=
    (hnew.next (.move (.get false) nofun)).next (.move .turn nofun)
  have hheld : Session.Holds ⟨p, []⟩ 1 (.dialed 1) := ⟨by decide +kernel, by decide⟩
  have hs : s.Reachable o := (hp.next (.giveBack hheld)).next (.move (.get false) nofun)
  have hn : s.Next s' := .move .turn nofun
  have hlt : s.pool.handOuts 2 (.dialed 1) < s'.pool.handOuts 2 (.dialed 1) := by
    decide +kernel
  exact ⟨hs, hn, hlt, handed_out_exclusively (Options.unmarking_of_nil rfl) hs hn hlt⟩

end PooledRouting.Pool
