import PooledRouting.Proofs.Balancer.Overflow
import PooledRouting.Proofs.Cluster.Traffic
import PooledRouting.Proofs.Simulation.Pools

/-!
# What a simulation does to its cluster

`Going` is what a simulation with one request in flight keeps: the endpoints are those that
it was started with, all at the time of the cluster; each caller is attended to
(`Traffic.Attended`); and every pool runs, with a call under way in one of them at most.
The balancer is apart from that: it is open, over all endpoints, and a smooth rotation has
had its turns in words (`Routes`).

A request is given an endpoint unless the choice overflows (`Going.select`), calls for a
connection there (`Going.get`), waits while something is due (`Going.deadline`,
`Going.advance`), gives the connection back (`Going.drop`) and releases the endpoint
(`Going.release`).
-/

namespace PooledRouting.Simulation

open Balancer Cluster

variable {s : Simulation} {b : Balancer} {c d : Cluster} {under later? : Option Call}
  {limit later i n number count : Nat} {callers others : List Caller}

/-! ## The balancer of a simulation -/

/-- The weight of an endpoint. -/
def weightOf (s : Simulation) (i : Nat) : UInt32 :=
  if i < s.endpoints then UInt32.ofNat (i + 1) else 0

/-- The weights of the endpoints. -/
def weights (s : Simulation) : List UInt32 :=
  (List.range s.endpoints).map s.weightOf

/-- The endpoints take turns by weight, and one of so many turns overflows. -/
def Overflows (s : Simulation) (count : Nat) : Prop :=
  s.strategy = .weightedRoundRobin ∧
    (SmoothWeights.fresh s.weights).afterTurns? s.weights count = none

theorem Overflows.mono (h : s.Overflows count) {more : Nat} (hmore : count ≤ more) :
    s.Overflows more :=
  ⟨h.1, SmoothWeights.afterTurns?_eq_none h.2 hmore⟩

/-- The balancer chooses among all endpoints, and has done so a number of times. -/
structure Routes (s : Simulation) (count : Nat) (b : Balancer) : Prop where
  isOpen : b.closed = false
  members : b.members = (List.range s.endpoints).map fun i => ⟨i, addr i⟩
  turns : s.strategy = .weightedRoundRobin → ∃ w, b.state = .smooth w ∧
    (SmoothWeights.fresh s.weights).afterTurns? s.weights count = some w

namespace Routes

theorem occupied (hr : s.Routes count b) (hsome : 0 < s.endpoints) : b.members ≠ [] := by
  rw [hr.members, ne_eq, List.map_eq_nil_iff, List.range_eq_nil]
  omega

theorem not_overflows (hr : s.Routes count b) : ¬s.Overflows count := by
  rintro ⟨hsmooth, hnone⟩
  obtain ⟨w, -, hw⟩ := hr.turns hsmooth
  cases hnone.symm.trans hw

/-- The next choice overflows, or it is one choice more. -/
theorem select (hr : s.Routes count b) (hstrategy : b.strategy = s.strategy)
    {fleet : Fleet PooledEndpoint} (hweights : ∀ i, fleet.weight i = s.weightOf i)
    {key : Option String} {x : Selection PooledEndpoint} (hx : b.select fleet key = .ok x) :
    (b.selectInWords? fleet key = none ∧ s.Overflows (count + 1)) ∨
      b.selectInWords? fleet key = some (.ok x) ∧ s.Routes (count + 1) x.balancer := by
  have hnext : b.apply (.select fleet key) = x.balancer := by
    rw [apply_select, hx]
    rfl
  have hframe := apply_select_frame b fleet key
  rw [hnext] at hframe
  have hclosed := congrArg Registry.closed hframe
  have hmembers := congrArg Registry.members hframe
  by_cases hsmooth : s.strategy = .weightedRoundRobin
  · obtain ⟨w, hstate, hturns⟩ := hr.turns hsmooth
    have hasked : b.ids.map fleet.weight = s.weights := by
      unfold Registry.ids weights
      rw [hr.members, List.map_map, List.map_map]
      exact List.map_congr_left fun i _ => hweights i
    have hwords := selectInWords?_smooth hstate hx
    rw [hasked] at hwords
    have hafter : (SmoothWeights.fresh s.weights).afterTurns? s.weights (count + 1) =
        w.next? s.weights := by
      rw [SmoothWeights.afterTurns?, hturns, Option.bind_some]
    cases hturn : w.next? s.weights with
    | none =>
      rw [hturn] at hwords
      exact .inl ⟨hwords, hsmooth, hafter.trans hturn⟩
    | some w' =>
      rw [hturn] at hwords
      have hsame := Except.ok.inj ((select_of_inWords hwords).trans hx)
      rw [Option.map_some, hsame] at hwords
      refine .inr ⟨hwords, hclosed.trans hr.isOpen, hmembers.trans hr.members, fun _ =>
        ⟨w', ?_, hafter.trans hturn⟩⟩
      rw [← hsame]
  · right
    have hturns : b.TurnsInWords fleet := fun w _ hstate _ => by
      refine absurd ?_ hsmooth
      rw [← hstrategy]
      unfold Balancer.strategy
      rw [hstate]
      rfl
    rw [selectInWords?_of_turnsInWords hturns, hx]
    exact ⟨rfl, hclosed.trans hr.isOpen, hmembers.trans hr.members, fun h => absurd h hsmooth⟩

end Routes

/-! ## The cluster of a simulation -/

/-- The number of the call that is under way at the endpoint; zero is none. -/
def numberAt (under : Option Call) (endpoint : Nat) : Nat :=
  match under with
  | some call => if call.endpoint = endpoint then call.number else 0
  | none => 0

/-- The state of a simulation, with the callers that hold an endpoint and the call that is
under way. -/
structure Going (s : Simulation) (under : Option Call) (limit : Nat) (callers : List Caller)
    (c : Cluster) : Prop where
  attended : Traffic.Attended s.strategy ⟨c, callers⟩
  size : c.fleet.size = s.endpoints
  weights : ∀ i, Fleet.weight c.fleet i = s.weightOf i
  addrs : ∀ (i : Nat) (e : PooledEndpoint), c.fleet[i]? = some e → e.addr = addr i
  clock : ∀ (i : Nat) (e : PooledEndpoint), c.fleet[i]? = some e → e.pool.now = c.now
  pools : ∀ (i : Nat) (e : PooledEndpoint), c.fleet[i]? = some e →
    s.Runs (c.finishedAt i) limit (numberAt under i) e.pool

namespace Going

/-- A step that leaves addresses and weights alone. -/
theorem move (hg : s.Going under limit callers c) (ha : Traffic.Attended s.strategy ⟨d, others⟩)
    (hsize : d.fleet.size = c.fleet.size)
    (hfleet : ∀ (i : Nat) (e' : PooledEndpoint), d.fleet[i]? = some e' →
      ∃ e, c.fleet[i]? = some e ∧ e'.addr = e.addr ∧ e'.weight = e.weight ∧
        e'.pool.now = d.now ∧ s.Runs (d.finishedAt i) later (numberAt later? i) e'.pool) :
    s.Going later? later others d := by
  refine ⟨ha, hsize.trans hg.size, fun i => ?_, fun i e' he' => ?_, fun i e' he' => ?_,
    fun i e' he' => ?_⟩
  · rw [← hg.weights i]
    unfold Fleet.weight
    cases he' : d.fleet[i]? with
    | none =>
      rw [Array.getElem?_eq_none_iff, hsize, ← Array.getElem?_eq_none_iff] at he'
      rw [he']
    | some e' =>
      obtain ⟨e, he, -, hweight, -⟩ := hfleet i e' he'
      rw [he]
      exact hweight
  · obtain ⟨e, he, haddr, -⟩ := hfleet i e' he'
    exact haddr.trans (hg.addrs i e he)
  · obtain ⟨e, -, -, -, hnow, -⟩ := hfleet i e' he'
    exact hnow
  · obtain ⟨e, -, -, -, -, hruns⟩ := hfleet i e' he'
    exact hruns

theorem endpoint (hg : s.Going under limit callers c) (hi : i < s.endpoints) :
    ∃ e, c.fleet[i]? = some e :=
  ⟨_, Array.getElem?_eq_getElem (hg.size ▸ hi)⟩

/-! ## Choosing an endpoint -/

/-- A selection changes no pool. -/
theorem pools_select {m : Member} {key : Option String}
    (hfits : c.balancer.state.Fits c.balancer.members) (h : (c.select key).1 = .ok m) (i : Nat)
    (e' : PooledEndpoint) (he' : (c.select key).2.fleet[i]? = some e') :
    ∃ e, c.fleet[i]? = some e ∧ e'.pool = e.pool := by
  unfold Cluster.select at h he'
  rcases Balancer.select_of_fits hfits c.fleet key with ⟨-, fault, hfault⟩ | ⟨-, x, hx, hok⟩
  · rw [hfault] at h
    cases h
  · rw [hok] at he'
    replace he' : x.fleet[i]? = some e' := he'
    rw [(choose?_effect hx).2] at he'
    split at he'
    · rw [Fleet.addActive, Array.getElem?_modify] at he'
      split at he'
      · obtain ⟨e, he, rfl⟩ := Option.map_eq_some_iff.1 he'
        exact ⟨e, he, rfl⟩
      · exact ⟨e', he', rfl⟩
    · exact ⟨e', he', rfl⟩

/-- The choice of an endpoint overflows, or a request is given one. -/
theorem select (hg : s.Going none limit [] c) (hr : s.Routes count c.balancer)
    (hsome : 0 < s.endpoints) (key : String) :
    (c.selectInWords? (some key) = none ∧ s.Overflows (count + 1)) ∨
      ∃ i < s.endpoints, ∃ d, c.selectInWords? (some key) = some (.ok ⟨i, addr i⟩, d) ∧
        d.calls = c.calls ∧ s.Routes (count + 1) d.balancer ∧ s.Going none limit [⟨i, none⟩] d := by
  have hfits := hg.attended.wired.fits
  obtain ⟨⟨m, next, fleet⟩, hx⟩ : ∃ x, c.balancer.select c.fleet (some key) = .ok x := by
    rcases select_of_fits hfits c.fleet (some key) with ⟨hwhy, -⟩ | ⟨-, x, -, hok⟩
    · rcases hwhy with hclosed | hnone | ⟨-, hkey⟩
      · cases hclosed.symm.trans hr.isOpen
      · exact absurd hnone (hr.occupied hsome)
      · cases hkey
    · exact ⟨x, hok⟩
  have hselect : c.select (some key) = (.ok m, { c with balancer := next, fleet := fleet }) := by
    unfold Cluster.select
    rw [hx]
  unfold Cluster.selectInWords?
  rcases hr.select hg.attended.wired.strategy hg.weights hx with ⟨hnone, hover⟩ | ⟨hwords, hroutes⟩
  · rw [hnone]
    exact .inl ⟨rfl, hover⟩
  right
  rw [hwords]
  have hm : (c.select (some key)).1 = .ok m := congrArg Prod.fst hselect
  obtain ⟨hcalm, hmem⟩ := calm_select hfits hm
  have hattended := hg.attended.select hm (show 1 < UInt64.size by decide)
  have hpools := pools_select hfits hm
  rw [hselect] at hcalm hattended hpools
  rw [hr.members] at hmem
  obtain ⟨i, hi, rfl⟩ := List.mem_map.1 hmem
  refine ⟨i, List.mem_range.1 hi, _, rfl, rfl, hroutes, ?_⟩
  refine hg.move hattended hcalm.fleet.size fun j e' he' => ?_
  obtain ⟨e, he, hsame⟩ := hpools j e' he'
  obtain ⟨e₀, he₀, hgoes⟩ := hcalm.fleet.back he'
  cases he.symm.trans he₀
  refine ⟨e, he, hgoes.addr, hgoes.weight, ?_, ?_⟩
  · rw [hsame]
    exact hg.clock j e he
  · rw [hsame, hcalm.finishedAt_eq]
    exact hg.pools j e he

/-! ## Calling for a connection -/

theorem getElem?_settle (c : Cluster) (i : Nat) :
    c.settle.fleet[i]? = (c.fleet[i]?).map fun e => e.mapPool Pool.settle :=
  Array.getElem?_map

/-- The caller makes its call, which has the time of one dial. -/
theorem get (hg : s.Going none limit [⟨i, none⟩] c) (ho : s.options.Bare) {e : PooledEndpoint}
    (he : c.fleet[i]? = some e) :
    s.Going (some ⟨i, e.pool.getCount + 1⟩) (c.now + s.dialLatency)
      [⟨i, some (c.calls.size + 1)⟩] (c.get i false).settle := by
  have hd := get_eq he false
  have hcalm := calm_settle (c.get i false)
  have hattended := hg.attended.get false
    (show [⟨i, none⟩] = [] ++ (⟨i, none⟩ : Caller) :: [] from rfl)
  refine hg.move (hattended.still hcalm) ?_ fun j e' he' => ?_
  · rw [hcalm.fleet.size, hd]
    exact Array.size_modify
  rw [getElem?_settle, hd, getElem?_onPool] at he'
  rw [hcalm.finishedAt_eq, hg.attended.wired.finishedAt_get he]
  have hnow : (c.get i false).settle.now = c.now := by
    rw [hd]
    rfl
  rw [hnow]
  by_cases hj : i = j
  · subst hj
    rw [if_pos rfl, he] at he'
    cases he'
    have hruns := hg.pools i e he
    have hclock := hg.clock i e he
    have hcalled : Pool.Occurs s.options (e.pool.get false) .start :=
      hruns.lone.occurs.apply (.get false)
    refine ⟨e, he, rfl, rfl, (hcalled.still_run _).1.trans hclock, ?_⟩
    rw [numberAt, if_pos rfl]
    exact hruns.get ho (Nat.le_of_eq (by rw [hclock]))
  · rw [if_neg hj] at he'
    obtain ⟨e₀, he₀, rfl⟩ := Option.map_eq_some_iff.1 he'
    have hruns := hg.pools j e₀ he₀
    refine ⟨e₀, he₀, rfl, rfl, (hruns.lone.occurs.still_run _).1.trans (hg.clock j e₀ he₀), ?_⟩
    rw [numberAt, if_neg hj]
    exact (hruns.finish fun hpos => absurd hpos (Nat.lt_irrefl 0)).settle ho

/-! ## Waiting for the answer -/

theorem advance (hg : s.Going under limit callers c) (ho : s.options.Bare) (ms : Nat) :
    s.Going under limit callers (c.advance ms) := by
  have hcalm := hg.attended.wired.calm_advance ms
  refine hg.move (hg.attended.still hcalm) hcalm.fleet.size fun j e' he' => ?_
  replace he' : (c.fleet.map fun e => e.mapPool fun p => p.advance ms)[j]? = some e' := he'
  rw [Array.getElem?_map] at he'
  obtain ⟨e, he, rfl⟩ := Option.map_eq_some_iff.1 he'
  have hruns := hg.pools j e he
  refine ⟨e, he, rfl, rfl, (hruns.lone.occurs.now_advance ms).trans ?_, ?_⟩
  · rw [hg.clock j e he]
    rfl
  · rw [hcalm.finishedAt_eq]
    exact hruns.advance ho ms

theorem ending?_eq (hcall : c.call? number = some ⟨i, n⟩) {e : PooledEndpoint}
    (he : c.fleet[i]? = some e) : c.ending? number = e.pool.ending? n := by
  unfold ending?
  rw [hcall]
  show (c.fleet[i]?).bind _ = _
  rw [he]
  rfl

theorem lt_of_nextDeadline? {time : Nat} (h : c.nextDeadline? = some time) : c.now < time :=
  of_decide_eq_true (List.mem_filter.1 (List.min?_mem h)).2

/-- A call that has not ended has time left, and something is due. -/
theorem deadline (hg : s.Going (some ⟨i, n⟩) limit callers c) (hcall : c.call? number = some ⟨i, n⟩)
    (hnot : (c.ending? number).isSome = false) :
    c.now < limit ∧ ∃ time, c.nextDeadline? = some time ∧ c.now < time := by
  obtain ⟨e, he, hpos, hmade⟩ : ∃ e, c.fleet[i]? = some e ∧ 0 < n ∧ n ≤ e.pool.getCount :=
    (hg.attended.wired.mem_calls_iff ⟨i, n⟩).1 (mem_calls_iff_call?.2 ⟨number, hcall⟩)
  have hruns : s.Runs (c.finishedAt i) limit n e.pool := by simpa [numberAt] using hg.pools i e he
  have hclock := hg.clock i e he
  have hwaits : e.pool.endings n = 0 := by
    rw [ending?_eq hcall he] at hnot
    have hnone := mt Pool.ending?_isSome_iff.2 (Bool.eq_false_iff.1 hnot)
    omega
  refine ⟨?_, ?_⟩
  · by_contra hlate
    have hended := hruns.lone.ended hruns.timely hruns.rest hpos hmade (by omega)
    omega
  · obtain ⟨due, hdue, hahead⟩ := hruns.lone.deadline hruns.timely hruns.rest hpos hmade hwaits
    have hin : due ∈
        (c.fleet.toList.flatMap fun e => e.pool.deadlines).filter fun d => c.now < d := by
      refine List.mem_filter.2 ⟨List.mem_flatMap.2 ⟨e, ?_, hdue⟩, ?_⟩
      · exact Array.mem_toList_iff.2 (Array.mem_of_getElem? he)
      · rw [← hclock]
        exact decide_eq_true hahead
    obtain ⟨time, htime⟩ : ∃ time, c.nextDeadline? = some time := by
      refine Option.isSome_iff_exists.1 ?_
      unfold nextDeadline?
      rw [List.isSome_min?_iff]
      exact List.ne_nil_of_mem hin
    exact ⟨time, htime, lt_of_nextDeadline? htime⟩

/-! ## Giving everything back -/

/-- The connection of a call is given back. -/
theorem drop (hg : s.Going under limit callers c) (ho : s.options.Bare) {lease : Lease}
    (hlease : c.lease? number = some lease) :
    s.Going under limit callers (c.drop number).2.settle ∧
      number ∈ (c.drop number).2.settle.finished ∧ (c.drop number).2.settle.calls = c.calls := by
  have hd : (c.drop number).2 = { c with finished := number :: c.finished }.onPool lease.endpoint
      fun p => p.release lease.connection := by
    unfold Cluster.drop
    rw [hlease]
  have hcalm := calm_settle (c.drop number).2
  obtain ⟨hnot, n, e, hcall, he, hid⟩ := lease?_eq_some_iff.1 hlease
  refine ⟨hg.move ((hg.attended.drop number).still hcalm) ?_
    fun j e' he' => ?_, by rw [hd]; exact List.mem_cons_self, by rw [hd]; rfl⟩
  · rw [hcalm.fleet.size, hd]
    exact Array.size_modify
  rw [getElem?_settle, hd, getElem?_onPool] at he'
  have hfinished : (c.drop number).2.finishedAt j =
      if lease.endpoint = j then n :: c.finishedAt j else c.finishedAt j :=
    finishedAt_cons (by rw [hd]; rfl) (by rw [hd]; rfl) hcall
  have hnow : (c.drop number).2.settle.now = c.now := by
    rw [hd]
    rfl
  rw [hcalm.finishedAt_eq, hfinished, hnow]
  by_cases hj : lease.endpoint = j
  · subst hj
    rw [if_pos rfl, he] at he'
    cases he'
    have hruns := hg.pools _ e he
    have hholds := hg.attended.wired.holds hcall hnot he hid
    have hreturned := hruns.lone.release ho hholds
    refine ⟨e, he, rfl, rfl, ?_, ?_⟩
    · exact ((hreturned.occurs.still_run _).1.trans (hruns.lone.release_frame ho hholds).1).trans
        (hg.clock _ e he)
    · rw [if_pos rfl]
      exact hruns.release ho hholds
  · rw [if_neg hj] at he' ⊢
    obtain ⟨e₀, he₀, rfl⟩ := Option.map_eq_some_iff.1 he'
    have hruns := hg.pools j e₀ he₀
    refine ⟨e₀, he₀, rfl, rfl, ?_, hruns.settle ho⟩
    exact (hruns.lone.occurs.still_run _).1.trans (hg.clock j e₀ he₀)

/-- What a call that is done is at its endpoint. -/
theorem isOver_of_isDone (hcall : c.call? number = some ⟨i, n⟩) (hdone : c.IsDone number)
    {e : PooledEndpoint} (he : c.fleet[i]? = some e) : e.pool.IsOver (c.finishedAt i) n := by
  rcases hdone with hin | ⟨fault, hend⟩
  · exact .inl (mem_finishedAt_iff.2 ⟨number, hin, hcall⟩)
  · rw [ending?_eq hcall he] at hend
    exact .inr ⟨fault, Pool.mem_history_of_ending? hend⟩

/-- The caller whose call is done releases its endpoint. -/
theorem release (hg : s.Going (some ⟨i, n⟩) limit [⟨i, some number⟩] c)
    (hcall : c.call? number = some ⟨i, n⟩) (hdone : c.IsDone number) :
    s.Going none 0 [] (c.releaseActive i) := by
  have hcalm := calm_releaseActive c i
  have hattended := hg.attended.release
    (show [⟨i, some number⟩] = [] ++ (⟨i, some number⟩ : Caller) :: [] from rfl) hdone
  refine hg.move hattended hcalm.fleet.size fun j e' he' => ?_
  have hsame : ∃ e, c.fleet[j]? = some e ∧ e'.addr = e.addr ∧ e'.weight = e.weight ∧
      e'.pool = e.pool := by
    replace he' : (c.fleet.modify i PooledEndpoint.releaseActive)[j]? = some e' := he'
    rw [Array.getElem?_modify] at he'
    split at he'
    · obtain ⟨e, he, rfl⟩ := Option.map_eq_some_iff.1 he'
      exact ⟨e, he, rfl, rfl, rfl⟩
    · exact ⟨e', he', rfl, rfl, rfl⟩
  obtain ⟨e, he, haddr, hweight, hpool⟩ := hsame
  rw [hpool, hcalm.finishedAt_eq]
  refine ⟨e, he, haddr, hweight, hg.clock j e he, (hg.pools j e he).finish ?_⟩
  by_cases hj : i = j
  · subst hj
    rw [numberAt, if_pos rfl]
    exact fun _ _ => isOver_of_isDone hcall hdone he
  · rw [numberAt, if_neg hj]
    exact fun hpos => absurd hpos (Nat.lt_irrefl 0)

end Going

end PooledRouting.Simulation
