import PooledRouting.Proofs.Balancer.Choosing

/-!
# Calls that change a balancer in place

`add`, `remove?` and `select` return a new balancer, and none if they fail.
A program changes the one balancer that it has, in steps: it registers the
endpoint and then hands it to the strategy, or moves a cursor and then looks
up the member.  A call that failed between two steps would leave the balancer
half changed, and the list of members at odds with the state of the strategy.

The calls are written down here in those steps, over a `Site` whose changes
outlast a failure.  Each is shown to be all or nothing, with the outcome of
the function that returns a new balancer (`run_add`, `run_remove`,
`run_select`).  For selections this needs that what a strategy keeps fits the
members, since a rotation moves before it looks up.
-/

namespace PooledRouting.Balancer

variable {ε α : Type}

/-- A balancer, and the endpoints as they are. -/
structure Site (ε : Type) where
  balancer : Balancer
  fleet : Fleet ε

/-- A call on a site.  What it changed before it failed stays changed. -/
abbrev InPlace (ε α : Type) := EStateM Fault (Site ε) α

/-- The end of a call that changes nothing if it fails. -/
def Site.allOrNothing (site : Site ε) (result : Except Fault (α × Site ε)) :
    EStateM.Result Fault (Site ε) α :=
  match result with
  | .ok (value, after) => .ok value after
  | .error fault => .error fault site

namespace InPlace

def changeBalancer (f : Balancer → Balancer) : InPlace ε Unit :=
  modify fun site => { site with balancer := f site.balancer }

/-- Put the member last, unless its address is taken. -/
def enter (m : Member) : InPlace ε Unit := do
  let site ← get
  if (site.balancer.position? m.addr).isSome then throw (.duplicate m.addr)
  changeBalancer fun b => { b with members := b.members ++ [m] }

/-- Look up the member at the place.  A place beyond the list is a failure. -/
def memberAt (place : Nat) : InPlace ε Member := do
  match (← get).balancer.members[place]? with
  | none => throw .noEndpoint
  | some m => return m

variable {site : Site ε}

@[simp]
theorem run_changeBalancer (site : Site ε) (f : Balancer → Balancer) :
    (changeBalancer f).run site = .ok () { site with balancer := f site.balancer } := rfl

@[simp]
theorem run_throw (site : Site ε) (fault : Fault) :
    (throw fault : InPlace ε α).run site = .error fault site := rfl

theorem run_memberAt {place : Nat} {m : Member} (hm : site.balancer.members[place]? = some m) :
    (memberAt place).run site = .ok m site := by
  simp [memberAt, hm]

/-! ## Calls -/

/-- Take an endpoint off the list, and then away from the strategy. -/
def remove (addr : String) : InPlace ε (Option Member) := do
  let site ← get
  match site.balancer.position? addr with
  | none => return none
  | some i =>
    match site.balancer.members[i]? with
    | none => return none
    | some m =>
      changeBalancer fun b => { b with members := b.members.eraseIdx i }
      changeBalancer fun b => b.mapState fun p => p.leave i m b.members
      return some m

/-- A removal cannot fail.  It finds the member or leaves the site alone. -/
theorem run_remove (site : Site ε) (addr : String) :
    (remove addr).run site =
      match site.balancer.remove? addr with
      | none => .ok none site
      | some (m, b) => .ok (some m) { site with balancer := b } := by
  unfold InPlace.remove Balancer.remove? Registry.remove?
  cases hplace : site.balancer.position? addr with
  | none => simp [hplace]
  | some i =>
    cases hm : site.balancer.members[i]? with
    | none => simp [hplace, hm]
    | some m =>
      simp only [EStateM.run_bind, EStateM.run_get, hplace, hm, run_changeBalancer,
        EStateM.run_pure, Option.map_some, Registry.mapState]

variable [Endpoint ε]

/-- Register an endpoint: check its weight, then that the balancer is open,
put it on the list, and hand it to the strategy. -/
def add (m : Member) : InPlace ε Unit := do
  let site ← get
  let weight := site.fleet.weight m.id
  if site.balancer.strategy.isWeighted ∧ weight = 0 then throw (.zeroWeight m.addr)
  if site.balancer.closed then throw .closed
  enter m
  changeBalancer fun b => b.mapState fun p => p.join m weight

/-- Have the strategy choose.  A rotation moves on before it looks up the
member, and work is counted after the member is known. -/
def choose (key : Option String) : InPlace ε Member := do
  let site ← get
  match site.balancer.state with
  | .rotation r =>
    changeBalancer fun b => b.mapState fun _ => .rotation r.turn
    memberAt (r.place site.balancer.members.length)
  | .smooth w =>
    match w.place? with
    | none => throw .noEndpoint
    | some place =>
      changeBalancer fun b =>
        b.mapState fun _ => .smooth (w.turn place (b.ids.map site.fleet.weight))
      memberAt place
  | .ring r =>
    match key with
    | none => throw .noKey
    | some key =>
      match r.holder? key with
      | none => throw .noEndpoint
      | some m => return m
  | .load rule =>
    match rule.place? site.fleet site.balancer.ids with
    | none => throw .noEndpoint
    | some place =>
      let m ← memberAt place
      modify fun site => { site with fleet := site.fleet.addActive m.id }
      return m

/-- Check that the balancer is open and not empty, and choose an endpoint. -/
def select (key : Option String) : InPlace ε Member := do
  let site ← get
  if site.balancer.closed then throw .closed
  if site.balancer.members.isEmpty then throw .noEndpoint
  choose key

/-! ## All or nothing -/

theorem run_add (site : Site ε) (m : Member) :
    (add m).run site = site.allOrNothing
      ((site.balancer.add site.fleet m).map fun b => ((), { site with balancer := b })) := by
  unfold InPlace.add Balancer.add enter Registry.pushOpen Registry.checkOpen Registry.push
  by_cases hweight : site.balancer.strategy.isWeighted = true ∧ site.fleet.weight m.id = 0
  · simp [hweight, Site.allOrNothing, Except.map]
  by_cases hclosed : site.balancer.closed = true
  · simp [hweight, hclosed, Site.allOrNothing, Except.map]
  by_cases htaken : (site.balancer.position? m.addr).isSome = true
  · simp [hweight, hclosed, htaken, Site.allOrNothing, Except.map]
  · simp [hweight, hclosed, htaken, Site.allOrNothing, Except.map]

/-- If what the strategy keeps fits the members, a choice that moves it also
finds a member. -/
theorem run_choose (h : site.balancer.state.Fits site.balancer.members)
    (hne : site.balancer.members ≠ []) (key : Option String) :
    (choose key).run site = site.allOrNothing
      (if site.balancer.strategy.needsKey ∧ key = none then .error .noKey
      else
        match site.balancer.choose? site.fleet (key.getD "") with
        | none => .error .noEndpoint
        | some x => .ok (x.member, ⟨x.balancer, x.fleet⟩)) := by
  obtain ⟨x, hx, -⟩ := choose?_of_fits h hne site.fleet (key.getD "")
  rw [hx]
  unfold choose strategy
  cases chosen_of_choose? hx with
  | turn hstate hm =>
    simp [hstate, Policy.strategy, Strategy.needsKey, Site.allOrNothing, memberAt, hm,
      Registry.mapState]
  | heaviest hstate hplace hm =>
    simp [hstate, hplace, Policy.strategy, Strategy.needsKey, Site.allOrNothing, memberAt, hm,
      Registry.mapState]
  | holder hstate hm =>
    cases key with
    | none => simp [hstate, Policy.strategy, Strategy.needsKey, Site.allOrNothing]
    | some key =>
      rw [Option.getD_some] at hm
      simp [hstate, hm, Site.allOrNothing]
  | leastLoaded hstate hplace hm =>
    rename_i rule place m
    have hkeyless : (Policy.load rule).strategy.needsKey = false := by
      cases rule <;> rfl
    simp only [EStateM.run_bind, EStateM.run_get, hstate, hplace, run_memberAt hm,
      EStateM.run_modify, EStateM.run_pure, hkeyless, Bool.false_eq_true, false_and, if_false,
      Site.allOrNothing]

theorem run_select (site : Site ε) (h : site.balancer.state.Fits site.balancer.members)
    (key : Option String) : (select key).run site = site.allOrNothing
      ((site.balancer.select site.fleet key).map fun x => (x.member, ⟨x.balancer, x.fleet⟩)) := by
  unfold Balancer.select Registry.checkSelectable
  by_cases hclosed : site.balancer.closed = true
  · simp [InPlace.select, hclosed, Site.allOrNothing, Except.map]
  by_cases hempty : site.balancer.members = []
  · simp [InPlace.select, hclosed, hempty, Site.allOrNothing, Except.map]
  have hstart : (select key).run site = (choose key).run site := by
    simp [InPlace.select, hclosed, hempty]
  rw [hstart, run_choose h hempty key]
  simp only [hclosed, hempty, List.isEmpty_iff, if_false, Bool.false_eq_true]
  split
  · rfl
  · cases site.balancer.choose? site.fleet (key.getD "") <;> rfl

end InPlace

end PooledRouting.Balancer
