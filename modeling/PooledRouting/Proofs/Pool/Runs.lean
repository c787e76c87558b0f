import PooledRouting.Pool.Operations

/-!
# Runs of a pool

A run starts with a new pool and goes on move by move.  A move is a call
of a caller, a turn of the task at the front, or the passing of time, and
the moves come in any order: a caller may act between any two turns, with
the connection of any `get`, of an earlier one, or of none.

No move marks a connection as held or not held, since that is the pool's own
business; `Options.Unmarking` says the same of the hooks.  Callers could do it,
though, and a run of `Deed`s is one in which they may: a deed is a move or a
mark.

`Reachable` is the closure under all moves, and `Attained` that under all deeds.
`Session` is for callers that
keep to the rules of a lease: a connection is given back by the `get` that
holds it, and once.
-/

namespace PooledRouting.Pool

/-- One thing that happens to a pool. -/
inductive Move where
  /-- A `get` starts. -/
  | get (cancelled : Bool)
  /-- The token of a `get` fires. -/
  | cancel (get : Nat)
  /-- A caller gives the connection back. -/
  | release (id : ConnectionId)
  /-- A caller has the pool remove and close the connection. -/
  | remove (id : ConnectionId)
  /-- A caller notes a use of the connection. -/
  | touch (id : ConnectionId)
  /-- A caller closes the connection past the pool. -/
  | closeConnection (id : ConnectionId)
  /-- The pool is closed. -/
  | close
  /-- A dial that is under way comes back. -/
  | resolve (attempt : Nat) (fault : Option String)
  /-- Dials go differently from now on. -/
  | setDialer (dialer : Nat → Course)
  /-- The pauses of the probe last differently from now on. -/
  | setPauses (pauses : Pauses)
  /-- Closing transports goes differently from now on. -/
  | setCloseFaults (faults : ConnectionId → Option String)
  /-- There is one more connection that the pool does not know. -/
  | addForeign (maxLifetime : Nat)
  /-- The task at the front has its turn. -/
  | turn
  /-- So does a probe that looks at its answer before it ends. -/
  | turnAnswered
  /-- The clock moves on, and whatever is due by then wakes. -/
  | fire (ms : Nat)
  /-- The clock moves on if nothing falls due on the way. -/
  | wait (ms : Nat)

/-- The pool after the move. -/
def apply (p : Pool) : Move → Pool
  | .get cancelled => p.get cancelled
  | .cancel get => p.cancel get
  | .release id => p.release id
  | .remove id => (p.remove id).2
  | .touch id => p.touch id
  | .closeConnection id => (p.closeConnection id).2
  | .close => p.close.2
  | .resolve attempt fault => (p.resolve attempt fault).2
  | .setDialer dialer => p.setDialer dialer
  | .setPauses pauses => p.setPauses pauses
  | .setCloseFaults faults => p.setCloseFaults faults
  | .addForeign maxLifetime => p.addForeign maxLifetime
  | .turn => p.step
  | .turnAnswered => p.stepAnswered
  | .fire ms => p.fire (p.now + ms)
  | .wait ms =>
    if p.nextDeadline? (p.now + ms) = none then { p with now := p.now + ms } else p

/-- The pool after moves in turn. -/
def after (p : Pool) (moves : List Move) : Pool :=
  moves.foldl apply p

/-- The hooks may use, close or reject a connection, but never mark it. -/
def Options.Unmarking (o : Options) : Prop :=
  ∀ hook ∈ o.hooks, ∀ call, HookStep.mark ∉ hook call

theorem Options.unmarking_of_nil {o : Options} (h : o.hooks = []) : o.Unmarking := by
  unfold Options.Unmarking
  rw [h]
  nofun

/-- The pool occurs in a run that starts with these options. -/
inductive Reachable (o : Options) : Pool → Prop where
  | create (dialer : Nat → Course) (now : Nat) (background : Bool) :
      Reachable o (Pool.create o dialer now background)
  | move {p : Pool} (m : Move) : Reachable o p → Reachable o (p.apply m)

theorem Reachable.after {o : Options} {p : Pool} (h : Reachable o p) (moves : List Move) :
    Reachable o (p.after moves) := by
  induction moves generalizing p with
  | nil => exact h
  | cons m moves ih => exact ih (h.move m)

/-! ## Callers that mark -/

/-- What callers do: they make moves, and mark connections. -/
inductive Deed where
  | move (m : Move)
  | mark (id : ConnectionId) (inUse : Bool)

/-- The pool after the deed. -/
def undergo (p : Pool) : Deed → Pool
  | .move m => p.apply m
  | .mark id inUse => p.mark id inUse

/-- The pool after deeds in turn. -/
def undergoAll (p : Pool) (deeds : List Deed) : Pool :=
  deeds.foldl undergo p

/-- The pool occurs in a run of deeds that starts with these options. -/
inductive Attained (o : Options) : Pool → Prop where
  | create (dialer : Nat → Course) (now : Nat) (background : Bool) :
      Attained o (Pool.create o dialer now background)
  | deed {p : Pool} (d : Deed) : Attained o p → Attained o (p.undergo d)

theorem Attained.undergoAll {o : Options} {p : Pool} (h : Attained o p) (deeds : List Deed) :
    Attained o (p.undergoAll deeds) := by
  induction deeds generalizing p with
  | nil => exact h
  | cons d deeds ih => exact ih (h.deed d)

/-- No caller marks a connection. -/
def Unmarked (deeds : List Deed) : Prop :=
  ∀ id inUse, Deed.mark id inUse ∉ deeds

theorem undergoAll_append (p : Pool) (deeds later : List Deed) :
    p.undergoAll (deeds ++ later) = (p.undergoAll deeds).undergoAll later :=
  List.foldl_append

theorem Unmarked.cons {d : Deed} {deeds : List Deed} (h : Unmarked (d :: deeds)) :
    (∃ m, d = .move m) ∧ Unmarked deeds := by
  refine ⟨?_, fun id inUse hin => h id inUse (List.mem_cons_of_mem _ hin)⟩
  cases d with
  | move m => exact ⟨m, rfl⟩
  | mark id inUse => exact absurd List.mem_cons_self (h id inUse)

/-- Callers that mark nothing only make moves. -/
theorem Reachable.undergoAll {o : Options} {p : Pool} (h : Reachable o p) {deeds : List Deed}
    (hd : Unmarked deeds) : Reachable o (p.undergoAll deeds) := by
  induction deeds generalizing p with
  | nil => exact h
  | cons d deeds ih =>
    obtain ⟨⟨m, rfl⟩, hrest⟩ := hd.cons
    exact ih (h.move m) hrest

/-! ## Settling -/

theorem Reachable.run {o : Options} {p : Pool} (h : Reachable o p) (turns : Nat) :
    Reachable o (Pool.run turns p) := by
  induction turns generalizing p with
  | zero => exact h
  | succ turns ih =>
    unfold Pool.run
    split
    · exact h
    · exact ih (h.move .turn)

theorem Reachable.settle {o : Options} {p : Pool} (h : Reachable o p) :
    Reachable o p.settle :=
  h.run turnLimit

/-! ## Sessions -/

/-- A pool together with the `get`s whose connection was given back. -/
structure Session where
  pool : Pool
  finished : List Nat

namespace Session

/-- The `get` ended with the connection, and has not given it back. -/
def Holds (s : Session) (get : Nat) (id : ConnectionId) : Prop :=
  .served get id ∈ s.pool.history ∧ get ∉ s.finished

/-- The next state of a session: by a move that gives back nothing that a
`get` holds, or by a `get` that gives back the connection it holds. -/
inductive Next (s : Session) : Session → Prop where
  | move (m : Move) (h : ∀ get id, m = .release id → ¬s.Holds get id) :
      Next s { s with pool := s.pool.apply m }
  | giveBack {get : Nat} {id : ConnectionId} (h : s.Holds get id) :
      Next s ⟨s.pool.release id, get :: s.finished⟩

/-- The session occurs in a run that starts with these options. -/
inductive Reachable (o : Options) : Session → Prop where
  | create (dialer : Nat → Course) (now : Nat) (background : Bool) :
      Reachable o ⟨Pool.create o dialer now background, []⟩
  | next {s s' : Session} : Reachable o s → s.Next s' → Reachable o s'

/-- The pool of a session is one of a run. -/
theorem Reachable.pool {o : Options} {s : Session} (h : s.Reachable o) :
    Pool.Reachable o s.pool := by
  induction h with
  | create dialer now background => exact .create dialer now background
  | next _ hn ih =>
    cases hn with
    | move m _ => exact ih.move m
    | giveBack _ => exact ih.move (.release _)

end Session

end PooledRouting.Pool
