import PooledRouting.Proofs.Pool.IdleSearch

/-!
# Retrieving idle connections

The idle list is in the order in which its connections became idle
(`Reachable.idle_ordered`), and a `get` searches it from one end
(`Admits.retrieves`).  `idle_retrieved` is the two together, for every run.

A connection becomes idle in three ways (`BecomesIdle`), and in each it comes
to the end of the list.  At any other move connections only leave the list,
wherever they stand in it, and the others keep their order
(`Reachable.idle_cases`).  Both are read off the acts: whoever has a connection
in hand has put none into the list yet (`Acts.idle_sublist`).
-/

namespace PooledRouting.Pool

variable {o : Options} {p q r : Pool} {h k : Hand} {get n : Nat} {id : ConnectionId}
  {m : Move} {moves : List Move}

/-! ## Becoming idle -/

/-- The acts lead to where a task puts the connection into the idle list. -/
inductive Idles (p : Pool) (h : Hand) (q : Pool) : ConnectionId → Prop where
  /-- A hook rejects the checkout of the connection, and it is kept. -/
  | rejected {r : Pool} {get : Nat} {id : ConnectionId} {reason : String}
      (hacts : Acts p h r (.holding (some get) id)) (hreason : (r.runHooks id).1 = some reason)
      (hend : q = r.checkOut get id) (hkept : id ∈ q.idle) : Idles p h q id
  /-- A top-up has dialed the connection. -/
  | toppedUp {r : Pool} {attempt : Nat} (hacts : Acts p h r (.work (.dialed .topUp attempt none)))
      (hopen : r.closed = false) (hend : q = r.endTopUp attempt none) :
      Idles p h q (.dialed attempt)

/-- The connection becomes idle in this move: it is given back and kept, or it
is put into the list in the turn of a task. -/
inductive BecomesIdle (p : Pool) : Move → ConnectionId → Prop where
  | released {id : ConnectionId} (hheld : p.isInUse id = true) (hkept : id ∈ (p.release id).idle) :
      BecomesIdle p (.release id) id
  | turned {id : ConnectionId} (h : Idles p .start p.step id) : BecomesIdle p .turn id

/-- The connection becomes idle in the move with this number. -/
def BecomesIdleAt (p : Pool) (moves : List Move) (id : ConnectionId) (n : Nat) : Prop :=
  ∃ m, moves[n]? = some m ∧ (p.after (moves.take n)).BecomesIdle m id

/-- Of these moves the one with this number is the last in which the connection
becomes idle. -/
structure IdleSince (p : Pool) (moves : List Move) (id : ConnectionId) (n : Nat) : Prop where
  became : p.BecomesIdleAt moves id n
  last : ∀ later, p.BecomesIdleAt moves id later → later ≤ n

/-! ## The list before a connection comes to it -/

/-- The task has nothing left to do but to give back its slot. -/
def Hand.isOver : Hand → Bool
  | .leaving _ _ | .finishing | .done => true
  | _ => false

theorem nextIdle?_sublist {rest : List ConnectionId} (h : p.nextIdle? = some (id, rest)) :
    rest.Sublist p.idle := by
  unfold nextIdle? at h
  split at h
  · split at h
    · cases h
    · rename_i hidle
      cases h
      rw [hidle]
      exact List.sublist_cons_self _ _
  · obtain ⟨last, -, hpair⟩ := Option.map_eq_some_iff.1 h
    cases hpair
    exact List.dropLast_sublist _

theorem Retires.isOver_eq_false {f : Counters → Counters} (hr : Retires p id h f k) :
    h.isOver = false := by
  cases hr with
  | _ => rfl

/-- Until the task is over, connections only leave the list. -/
theorem Act.idle_sublist (ha : Act p h q k) (hk : k.isOver = false) :
    h.isOver = false ∧ q.idle.Sublist p.idle := by
  cases ha with
  | touch _ _ => exact ⟨hk, .refl _⟩
  | closeConnection _ id =>
    rw [closeConnection_idle]
    exact ⟨hk, .refl _⟩
  | shutNext _ | retire _ =>
    rw [closeConnection_idle]
    exact ⟨rfl, .refl _⟩
  | shutDown _ => exact ⟨rfl, List.nil_sublist _⟩
  | pick _ hnext => exact ⟨rfl, nextIdle?_sublist hnext⟩
  | strike hr _ => exact ⟨hr.isOver_eq_false, strike_idle_sublist _ _⟩
  | pass hr _ => exact ⟨hr.isOver_eq_false, .refl _⟩
  | refuseRemoval hr _ => exact ⟨hr.isOver_eq_false, .refl _⟩
  | shutSkip _ | take _ | claim _ _ _ | accept _ _ | hit _ | miss _ _ | reserve _ _ _
  | callTopUp _ _ | callProbe _ | answered _ | adopt _ | mark _ | countHooks _ | putBack _ _ | look
  | spare _ => exact ⟨rfl, .refl _⟩
  | _ => cases hk

theorem Acts.idle_sublist (hs : Acts p h q k) (hk : k.isOver = false) :
    q.idle.Sublist p.idle := by
  suffices hboth : h.isOver = false ∧ q.idle.Sublist p.idle from hboth.2
  induction hs with
  | refl => exact ⟨hk, .refl _⟩
  | cons ha _ ih =>
    obtain ⟨hover, hlater⟩ := ih hk
    obtain ⟨hbefore, hfirst⟩ := ha.idle_sublist hover
    exact ⟨hbefore, hlater.trans hfirst⟩

/-! ## What the operations do to the list -/

@[simp]
theorem freeSlot_idle (p : Pool) : p.freeSlot.idle = p.idle :=
  (congrArg Pool.idle (freeSlot_frame p)).trans rfl

@[simp]
theorem noteDialFailure_idle (p : Pool) (reason : String) :
    (p.noteDialFailure reason).idle = p.idle :=
  (congrArg Pool.idle (noteDialFailure_frame p reason)).trans rfl

theorem leave_idle (p : Pool) (get : Nat) (fault : Fault) :
    (p.freeSlot.fail get fault).idle = p.idle :=
  freeSlot_idle p

theorem runHooks_idle (p : Pool) (id : ConnectionId) : (p.runHooks id).2.idle = p.idle :=
  (congrArg Pool.idle (hooked_runHooks p id).frame).trans rfl

theorem closeAll_idle (p : Pool) (ids : List ConnectionId) : (p.closeAll ids).2.idle = p.idle := by
  induction ids generalizing p with
  | nil => rfl
  | cons id ids ih => exact (ih _).trans (closeTransport_idle p id)

/-- A connection that is taken back comes to the end of the list, or is not
kept. -/
theorem recycle_idle (p : Pool) (id : ConnectionId) :
    (p.recycle id).idle = p.idle ++ [id] ∨ (p.recycle id).idle.Sublist p.idle := by
  unfold recycle
  split
  · dsimp only
    split
    · exact .inr (remove_idle_sublist p id)
    · exact .inr (remove_idle_sublist (p.count Counters.retireInvalid) id)
  split
  · rw [closeTransport_idle]
    exact .inr (.refl _)
  split
  · exact .inl rfl
  · rw [closeTransport_idle]
    exact .inr (untrack_idle_sublist p id)

theorem release_idle (hheld : p.isInUse id = true) :
    (p.release id).idle = ((p.mark id false).recycle id).idle := by
  unfold release
  rw [if_pos hheld]
  exact freeSlot_idle _

/-- Of the connections whose checkout fails only those that a hook has rejected
are kept. -/
theorem checkOut_idle (p : Pool) (get : Nat) (id : ConnectionId) :
    (∃ reason, (p.runHooks id).1 = some reason) ∧ (p.checkOut get id).idle = p.idle ++ [id] ∨
      (p.checkOut get id).idle.Sublist p.idle := by
  have hhooks := runHooks_idle p id
  unfold checkOut
  split
  · rename_i reason q hq
    rw [hq] at hhooks ⊢
    rw [leave_idle, ← hhooks]
    exact (recycle_idle q id).imp_left fun hkept => ⟨⟨reason, rfl⟩, hkept⟩
  · rename_i q hq
    rw [hq] at hhooks
    rw [← hhooks]
    refine .inr ?_
    rcases takeOut_cases q id with ⟨htake, -⟩ | ⟨c, -, -, htake⟩
    · rw [htake]
      dsimp only
      rw [if_neg (by simp), leave_idle]
      exact remove_idle_sublist (q.count Counters.retireInvalid) id
    · rw [htake]
      dsimp only
      split
      · exact .refl _
      · rw [leave_idle]
        exact remove_idle_sublist _ id

/-! ## One turn -/

/-- Connections only leave the list, or the task puts one into it. -/
def Lists (p : Pool) (h : Hand) (q : Pool) : Prop :=
  q.idle.Sublist p.idle ∨ ∃ id, Idles p h q id

theorem Lists.of_eq (hidle : q.idle = p.idle) : Lists p h q :=
  .inl (hidle ▸ .refl _)

theorem Lists.after (hs : Acts p h r k) (hk : k.isOver = false) (hl : Lists r k q) :
    Lists p h q := by
  rcases hl with hless | ⟨id, hidles⟩
  · exact .inl (hless.trans (hs.idle_sublist hk))
  · refine .inr ⟨id, ?_⟩
    cases hidles with
    | rejected hacts hreason hend hkept => exact .rejected (hs.trans hacts) hreason hend hkept
    | toppedUp hacts hopen hend => exact .toppedUp (hs.trans hacts) hopen hend

theorem checkOut_lists (p : Pool) (get : Nat) (id : ConnectionId) :
    Lists p (.holding (some get) id) (p.checkOut get id) := by
  rcases checkOut_idle p get id with ⟨⟨reason, hreason⟩, hkept⟩ | hless
  · refine .inr ⟨id, .rejected .refl hreason rfl ?_⟩
    rw [hkept]
    exact List.mem_append_right _ (List.mem_singleton_self id)
  · exact .inl hless

theorem endGetDial_lists (p : Pool) (get attempt : Nat) (fault : Option String) :
    Lists p (.work (.dialed (.get get) attempt fault)) (p.endGetDial get attempt fault) := by
  unfold endGetDial
  cases fault with
  | none =>
    dsimp only
    split
    · refine .of_eq ?_
      rw [leave_idle, closeConnection_idle]
      rfl
    · rename_i hopen
      have hopen : p.closed = false := Bool.eq_false_iff.2 hopen
      exact .after (.single (.adopt hopen)) rfl (checkOut_lists _ get _)
  | some reason =>
    refine .of_eq ?_
    dsimp only
    rw [leave_idle]
    split
    · exact noteDialFailure_idle p reason
    · exact noteDialFailure_idle p reason

theorem dialFor_lists (hopen : p.closed = false) (get : Nat) :
    Lists p (.missed get) (p.dialFor get) := by
  rcases dialFor_cases hopen get with ⟨-, hend⟩ | ⟨-, -, hend⟩ |
    ⟨hroom, hcircuit, ⟨fault, hnow, hend⟩ | ⟨due, hend⟩⟩
  · exact .of_eq (by rw [hend, leave_idle])
  · exact .of_eq (by rw [hend, leave_idle])
  · have hacts : Acts p (.missed get)
        { p with size := p.size + 1, attemptCount := p.attemptCount + 1 }
        (.work (.dialed (.get get) (p.attemptCount + 1) fault)) :=
      .cons (.reserve hopen hroom hcircuit) (.single (.answered hnow))
    rw [hend]
    exact .after hacts rfl (endGetDial_lists _ get _ fault)
  · exact .of_eq (by rw [hend])

theorem serve_lists (hp : Occurs o p (.admitted get)) (ho : o.Unmarking)
    (hopen : p.closed = false) : Lists p (.admitted get) (p.serve get) := by
  obtain ⟨gone, r, hgone, -, hend⟩ := hp.serve_eq ho hopen
  rcases hend with ⟨-, hacts, hserve⟩ | ⟨id, s, -, -, hacts, hserve⟩
  · have hstill : r.closed = false := (congrArg Pool.closed hgone.frame).trans hopen
    rw [hserve]
    exact .after hacts rfl (dialFor_lists (p := r.count Counters.miss) hstill get)
  · rw [hserve]
    exact .after hacts rfl (checkOut_lists _ get id)

theorem arrive_lists (hp : Occurs o p (.work (.arrive get))) (ho : o.Unmarking) :
    Lists p (.work (.arrive get)) (p.arrive get) := by
  unfold arrive
  split
  · exact .of_eq rfl
  rename_i hopen
  split
  · exact .of_eq rfl
  rename_i hlive
  split
  · rename_i hfree
    have hopen : p.closed = false := Bool.eq_false_iff.2 hopen
    have hclaim := Act.claim hopen hlive hfree
    exact .after (.single hclaim) rfl (serve_lists (hp.act hclaim) ho hopen)
  split
  · exact .of_eq rfl
  · exact .of_eq rfl

theorem resume_lists (hp : Occurs o p (.work (.admitted get))) (ho : o.Unmarking) :
    Lists p (.work (.admitted get)) (p.resume get) := by
  unfold resume
  split
  · exact .of_eq (leave_idle p get _)
  rename_i hlive
  split
  · exact .of_eq (leave_idle p get _)
  · rename_i hopen
    have hopen : p.closed = false := Bool.eq_false_iff.2 hopen
    have haccept := Act.accept hopen hlive
    exact .after (.single haccept) rfl (serve_lists (hp.act haccept) ho hopen)

theorem recheck_idle (p : Pool) (get : Nat) : (p.recheck get).idle = p.idle := by
  unfold recheck
  split
  · rfl
  dsimp only
  split
  · rfl
  split
  · rfl
  · rfl

/-- An open pool puts the connection of a top-up at the end of the list. -/
theorem endTopUp_idle (hopen : p.closed = false) (attempt : Nat) :
    (p.endTopUp attempt none).idle = p.idle ++ [.dialed attempt] := by
  unfold endTopUp
  dsimp only
  rw [if_neg (Bool.eq_false_iff.1 (show (p.connect .topUp attempt).closed = false from hopen)),
    freeSlot_idle]
  rfl

theorem endTopUp_idle_of_closed (hclosed : p.closed = true) (attempt : Nat) :
    (p.endTopUp attempt none).idle = p.idle := by
  unfold endTopUp
  dsimp only
  rw [if_pos (show (p.connect .topUp attempt).closed = true from hclosed), freeSlot_idle,
    closeConnection_idle]
  rfl

theorem endTopUp_lists (p : Pool) (attempt : Nat) (fault : Option String) :
    Lists p (.work (.dialed .topUp attempt fault)) (p.endTopUp attempt fault) := by
  cases fault with
  | none =>
    by_cases hclosed : p.closed = true
    · exact .of_eq (endTopUp_idle_of_closed hclosed attempt)
    · exact .inr ⟨_, .toppedUp .refl (Bool.eq_false_iff.2 hclosed) rfl⟩
  | some reason =>
    refine .of_eq ?_
    unfold endTopUp
    dsimp only
    rw [freeSlot_idle]
    exact noteDialFailure_idle p reason

theorem startTopUp_lists (p : Pool) : Lists p (.work .topUp) p.startTopUp := by
  unfold startTopUp
  split
  · exact .of_eq (freeSlot_idle p)
  rename_i hopen
  split
  · exact .of_eq (freeSlot_idle _)
  rename_i hcircuit
  rcases startDial_cases p .topUp with ⟨fault, hnow, hs⟩ | ⟨due, -, -, hs⟩
  · have hacts : Acts p (.work .topUp) { p with attemptCount := p.attemptCount + 1 }
        (.work (.dialed .topUp (p.attemptCount + 1) fault)) :=
      .cons (.callTopUp (Bool.eq_false_iff.2 hopen) (Bool.eq_false_iff.2 hcircuit))
        (.single (.answered hnow))
    rw [hs]
    exact .after hacts rfl (endTopUp_lists _ _ fault)
  · rw [hs]
    exact .of_eq rfl

theorem endProbeTry_idle (p : Pool) (tries : UInt32) (attempt : Nat) (fault : Option String) :
    (p.endProbeTry tries attempt fault).idle = p.idle := by
  unfold endProbeTry
  cases fault with
  | none => rfl
  | some reason =>
    dsimp only
    split <;> rfl

theorem startProbeTry_idle (p : Pool) (tries : UInt32) :
    (p.startProbeTry tries).idle = p.idle := by
  unfold startProbeTry
  split
  · rfl
  dsimp only
  rcases startDial_cases p (.probe (Backoff.countTry tries)) with
    ⟨fault, -, hs⟩ | ⟨due, -, -, hs⟩
  · rw [hs]
    exact endProbeTry_idle _ _ _ fault
  · rw [hs]

theorem perform_lists {w : Work} (hp : Occurs o p (.work w)) (ho : o.Unmarking) :
    Lists p (.work w) (p.perform w) := by
  cases w with
  | arrive get => exact arrive_lists hp ho
  | admitted get => exact resume_lists hp ho
  | refused get => exact .of_eq rfl
  | recheck get => exact .of_eq (recheck_idle p get)
  | topUp => exact startTopUp_lists p
  | probe tries => exact .of_eq (startProbeTry_idle p tries)
  | dialed caller attempt fault =>
    cases caller with
    | get number => exact endGetDial_lists p number attempt fault
    | topUp => exact endTopUp_lists p attempt fault
    | probe tries =>
      refine .of_eq ?_
      show Pool.idle (if p.closed then p.endProbe else p.endProbeTry tries attempt fault) = _
      split
      · rfl
      · exact endProbeTry_idle p tries attempt fault

theorem Reachable.step_lists (hp : Reachable o p) (ho : o.Unmarking) : Lists p .start p.step := by
  cases hready : p.ready with
  | nil =>
    rw [step_of_settled hready]
    exact .of_eq rfl
  | cons w rest =>
    have htake := Act.take hready
    rw [step_of_ready hready]
    exact .after (.single htake) rfl (perform_lists (hp.occurs.act htake) ho)

/-! ## One move -/

theorem stepAnswered_idle (p : Pool) : p.stepAnswered.idle = p.idle := by
  unfold stepAnswered
  split <;> rfl

theorem close_idle_sublist (p : Pool) : p.close.2.idle.Sublist p.idle := by
  unfold close
  split
  · exact .refl _
  · rw [closeAll_idle]
    exact List.nil_sublist _

/-- In a move connections only leave the list, or one becomes idle. -/
theorem Reachable.idle_cases (hp : Reachable o p) (ho : o.Unmarking) (m : Move) :
    (p.apply m).idle.Sublist p.idle ∨ ∃ id, p.BecomesIdle m id := by
  have hsame : (p.apply m).idle = p.idle → (p.apply m).idle.Sublist p.idle := fun heq =>
    heq ▸ .refl _
  cases m with
  | turn => exact (hp.step_lists ho).imp_right fun ⟨id, hidles⟩ => ⟨id, .turned hidles⟩
  | release id =>
    by_cases hheld : p.isInUse id = true
    · have hidle := release_idle hheld
      rcases recycle_idle (p.mark id false) id with hkept | hless
      · refine .inr ⟨id, .released hheld ?_⟩
        rw [hidle, hkept]
        exact List.mem_append_right _ (List.mem_singleton_self id)
      · exact .inl (hidle ▸ hless)
    · refine .inl (hsame ?_)
      show (p.release id).idle = _
      unfold release
      rw [if_neg hheld]
  | remove id => exact .inl (remove_idle_sublist p id)
  | close => exact .inl (close_idle_sublist p)
  | cancel get => exact .inl (hsame ((congrArg Pool.idle (cancel_frame p get)).trans rfl))
  | resolve attempt fault =>
    exact .inl (hsame ((congrArg Pool.idle (resolve_frame p attempt fault)).trans rfl))
  | closeConnection id => exact .inl (hsame (closeConnection_idle p id))
  | turnAnswered => exact .inl (hsame (stepAnswered_idle p))
  | wait ms =>
    refine .inl (hsame ?_)
    show Pool.idle (if _ then _ else _) = _
    split <;> rfl
  | get _ | touch _ | setDialer _ | setPauses _ | setCloseFaults _ | addForeign _ | fire _ =>
    exact .inl (hsame rfl)

/-- A connection that becomes idle comes to the end of the list, and the others
keep their order. -/
theorem BecomesIdle.idle_eq (hb : p.BecomesIdle m id) (ho : o.Unmarking) (hp : Reachable o p) :
    ∃ l, l.Sublist p.idle ∧ (p.apply m).idle = l ++ [id] := by
  cases hb with
  | released hheld hkept =>
    have hidle := release_idle hheld
    refine ⟨p.idle, .refl _, ?_⟩
    rcases recycle_idle (p.mark id false) id with hend | hless
    · exact hidle.trans hend
    · have hin : id ∈ p.idle := hless.subset (hidle ▸ hkept)
      cases hheld.symm.trans ((hp.occurs.roster ho).idle_free id hin)
  | turned hidles =>
    cases hidles with
    | @rejected r get _ reason hacts hreason hend hkept =>
      refine ⟨r.idle, hacts.idle_sublist rfl, ?_⟩
      show p.step.idle = _
      rw [hend] at hkept ⊢
      rcases checkOut_idle r get id with ⟨-, hlast⟩ | hless
      · exact hlast
      · have hheld := (hp.occurs.acts hacts).fits ho
        exact absurd (hless.subset hkept) hheld.2.2.1
    | @toppedUp r attempt hacts hopen hend =>
      refine ⟨r.idle, hacts.idle_sublist rfl, ?_⟩
      show p.step.idle = _
      rw [hend]
      exact endTopUp_idle hopen attempt

/-! ## A run -/

theorem after_concat (p : Pool) (moves : List Move) (m : Move) :
    p.after (moves ++ [m]) = (p.after moves).apply m :=
  List.foldl_concat ..

theorem becomesIdleAt_concat_iff (p : Pool) (moves : List Move) (m : Move) (id : ConnectionId)
    (n : Nat) : p.BecomesIdleAt (moves ++ [m]) id n ↔
      p.BecomesIdleAt moves id n ∨ n = moves.length ∧ (p.after moves).BecomesIdle m id := by
  unfold BecomesIdleAt
  rcases Nat.lt_trichotomy n moves.length with hlt | rfl | hgt
  · rw [List.getElem?_append_left hlt, List.take_append_of_le_length (Nat.le_of_lt hlt)]
    simp [Nat.ne_of_lt hlt]
  · simp
  · have hold : moves[n]? = none := List.getElem?_eq_none (Nat.le_of_lt hgt)
    have hnew : (moves ++ [m])[n]? = none :=
      List.getElem?_eq_none (by rw [List.length_append]; exact hgt)
    simp [hold, hnew, Nat.ne_of_gt hgt]

theorem BecomesIdleAt.lt_length (hb : p.BecomesIdleAt moves id n) : n < moves.length := by
  obtain ⟨m, hm, -⟩ := hb
  exact (List.getElem?_eq_some_iff.1 hm).1

/-- A connection that does not become idle in one more move is idle since as
long as before. -/
theorem IdleSince.concat (hs : p.IdleSince moves id n)
    (hm : ¬(p.after moves).BecomesIdle m id) : p.IdleSince (moves ++ [m]) id n where
  became := (becomesIdleAt_concat_iff p moves m id n).2 (.inl hs.became)
  last later hb := by
    rcases (becomesIdleAt_concat_iff p moves m id later).1 hb with hold | ⟨-, hnow⟩
    · exact hs.last later hold
    · exact absurd hnow hm

theorem idleSince_concat_self (hm : (p.after moves).BecomesIdle m id) :
    p.IdleSince (moves ++ [m]) id moves.length where
  became := (becomesIdleAt_concat_iff p moves m id _).2 (.inr ⟨rfl, hm⟩)
  last later hb := by
    rcases (becomesIdleAt_concat_iff p moves m id later).1 hb with hold | ⟨rfl, -⟩
    · exact Nat.le_of_lt hold.lt_length
    · exact Nat.le_refl _

/-- The idle connections are in the order of the moves in which they last became
idle. -/
theorem Reachable.idle_ordered (hp : Reachable o p) (ho : o.Unmarking) (hempty : p.idle = [])
    (moves : List Move) : ∃ since : ConnectionId → Nat,
      (∀ id ∈ (p.after moves).idle, p.IdleSince moves id (since id)) ∧
        (p.after moves).idle.Pairwise fun a b => since a < since b := by
  induction moves using List.reverseRecOn with
  | nil =>
    have hnone : (p.after []).idle = [] := hempty
    rw [hnone]
    exact ⟨fun _ => 0, nofun, .nil⟩
  | append_singleton moves m ih =>
    obtain ⟨since, hsince, hordered⟩ := ih
    have hbefore := hp.after moves
    rw [after_concat]
    by_cases hnew : ∃ id, (p.after moves).BecomesIdle m id
    · obtain ⟨id, hb⟩ := hnew
      obtain ⟨l, hl, hidle⟩ := hb.idle_eq ho hbefore
      have hnodup : ((p.after moves).apply m).idle.Nodup :=
        ((hbefore.move m).occurs.roster ho).idle_nodup
      rw [hidle] at hnodup ⊢
      -- Only the connection at the end has become idle.
      have honly : ∀ other ∈ l, other ≠ id := by
        rintro other hother rfl
        exact (List.nodup_append.1 hnodup).2.2 other hother other (List.mem_singleton_self _) rfl
      have hothers : ∀ other ∈ l, p.IdleSince (moves ++ [m]) other (since other) := by
        intro other hother
        refine (hsince other (hl.subset hother)).concat fun hb' => honly other hother ?_
        obtain ⟨l', -, hidle'⟩ := hb'.idle_eq ho hbefore
        have hlast := (List.append_inj' (hidle.symm.trans hidle') rfl).2
        exact (List.cons.inj hlast).1.symm
      refine ⟨Function.update since id moves.length, ?_, ?_⟩
      · intro other hother
        rcases List.mem_append.1 hother with hother | hother
        · rw [Function.update_of_ne (honly other hother)]
          exact hothers other hother
        · obtain rfl := List.mem_singleton.1 hother
          rw [Function.update_self]
          exact idleSince_concat_self hb
      · rw [List.pairwise_append]
        refine ⟨?_, List.pairwise_singleton _ _, ?_⟩
        · refine (hordered.sublist hl).imp_of_mem fun ha hb hlt => ?_
          rw [Function.update_of_ne (honly _ ha), Function.update_of_ne (honly _ hb)]
          exact hlt
        · intro other hother last hlast
          obtain rfl := List.mem_singleton.1 hlast
          rw [Function.update_of_ne (honly other hother), Function.update_self]
          exact (hsince other (hl.subset hother)).became.lt_length
    · have hless := (hbefore.idle_cases ho m).resolve_right hnew
      refine ⟨since, fun id hid => ?_, hordered.sublist hless⟩
      exact (hsince id (hless.subset hid)).concat fun hb => hnew ⟨id, hb⟩

/-! ## Retrieval -/

/-- In every run of a pool whose hooks mark no connection the idle list is in
the order in which its connections last became idle.  A `get` that is admitted
discards those that are not valid, from its end of the list up to the first
valid one, and no others.  If there is a valid one, it is checked out, and if
there is none, the `get` dials, unless it may not. -/
theorem idle_retrieved (ho : o.Unmarking) (dialer : Nat → Course) (now : Nat) (background : Bool)
    (moves : List Move) :
    let start := create o dialer now background
    let p := start.after moves
    (∃ since : ConnectionId → Nat, (∀ id ∈ p.idle, start.IdleSince moves id (since id)) ∧
        p.idle.Pairwise fun a b => since a < since b) ∧
      ∀ get q, p.Admits get q → p.Retrieves get q := by
  intro start p
  have hstart : Reachable o start := .create dialer now background
  have hempty : start.idle = [] := by cases background <;> rfl
  exact ⟨hstart.idle_ordered ho hempty moves,
    fun get q hadmits => hadmits.retrieves ho (hstart.after moves)⟩

/-- Three connections are given back, and the first of them is closed past the
pool.  The next `get` discards that one and takes the second. -/
theorem idle_retrieved_after_close :
    let o : Options := { poolSize := 3, minIdle := 0, fifo := true }
    let moves : List Move := [.get false, .turn, .get false, .turn, .get false, .turn,
      .release (.dialed 2), .release (.dialed 1), .release (.dialed 3),
      .closeConnection (.dialed 2), .get false]
    let start := create o (fun _ => .answer 0 none) 0 true
    let p := start.after moves
    let q := { p with ready := [], slots := p.slots - 1 }.record (.admitted 4)
    o.Unmarking ∧ p.idle = [.dialed 2, .dialed 1, .dialed 3] ∧ p.Admits 4 q ∧
      (∃ since : ConnectionId → Nat, (∀ id ∈ p.idle, start.IdleSince moves id (since id)) ∧
        p.idle.Pairwise fun a b => since a < since b) ∧
      ∃ r, Discards q [.dialed 2] r ∧ Found r 4 (.dialed 1) [.dialed 3] p.step := by
  intro o moves start p q
  have ho : o.Unmarking := Options.unmarking_of_nil rfl
  have hadmits : p.Admits 4 q :=
    .free (by decide +kernel) (by decide +kernel) (by decide +kernel) (by decide +kernel)
  have hstale : p.idleOrder.takeWhile (fun id => !p.isValid id) = [.dialed 2] := by
    decide +kernel
  have hothers : p.idleOrder.dropWhile (fun id => !p.isValid id) = [.dialed 1, .dialed 3] := by
    decide +kernel
  obtain ⟨hordered, hsearch⟩ := idle_retrieved ho (fun _ => .answer 0 none) 0 true moves
  exact ⟨ho, by decide +kernel, hadmits, hordered, (hsearch 4 q hadmits).found hstale hothers⟩

end PooledRouting.Pool
