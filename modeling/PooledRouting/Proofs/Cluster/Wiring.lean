import PooledRouting.Cluster.Basic
import PooledRouting.Proofs.Balancer.Choosing
import PooledRouting.Proofs.Pool.Clock

/-!
# How a cluster hangs together

Most of what happens to a cluster is `Calm`: no call starts and none ends its
lease; of the endpoints only the selections and the inside of the pools
change.  Each operation is shown to be calm or is one of three that are not:
a call of `get`, a connection that is given back, and a new endpoint.

`Wired` is what all of them keep.  The balancer is one of a run, so it never
misses.  The calls of the cluster are those of its pools, each once, and every
pool is that of a session which has the calls that went to it, so all laws of
sessions hold of it.
-/

namespace PooledRouting

open Balancer (Fleet)

/-! ## Endpoints that go on -/

namespace PooledEndpoint

variable {e e' e'' : PooledEndpoint}

/-- The pool has drifted, and the selections have changed. -/
structure GoesOn (change : UInt64 → UInt64) (e e' : PooledEndpoint) : Prop where
  addr : e'.addr = e.addr
  weight : e'.weight = e.weight
  selections : e'.selections = change e.selections
  pool : e.pool.Drifts e'.pool

theorem GoesOn.refl (e : PooledEndpoint) : e.GoesOn (fun n => n) e :=
  ⟨rfl, rfl, rfl, .refl _⟩

theorem GoesOn.trans (h : e.GoesOn (fun n => n) e') (h' : e'.GoesOn (fun n => n) e'') :
    e.GoesOn (fun n => n) e'' :=
  ⟨h'.addr.trans h.addr, h'.weight.trans h.weight, h'.selections.trans h.selections,
    h.pool.trans h'.pool⟩

theorem goesOn_mapPool {f : Pool → Pool} (h : e.pool.Drifts (f e.pool)) :
    e.GoesOn (fun n => n) (e.mapPool f) :=
  ⟨rfl, rfl, rfl, h⟩

theorem goesOn_close (e : PooledEndpoint) : e.GoesOn (fun n => n) (Balancer.Endpoint.close e).2 :=
  ⟨rfl, rfl, rfl, .move (m := .close) _ rfl⟩

end PooledEndpoint

namespace Cluster

/-- Every endpoint of the fleet has gone on. -/
structure Proceeds (change : Nat → UInt64 → UInt64) (fleet later : Fleet PooledEndpoint) : Prop where
  size : later.size = fleet.size
  endpoints : ∀ (i : Nat) (e : PooledEndpoint), fleet[i]? = some e →
    ∃ e', later[i]? = some e' ∧ e.GoesOn (change i) e'

namespace Proceeds

variable {fleet later last : Fleet PooledEndpoint} {change : Nat → UInt64 → UInt64}

theorem refl (fleet : Fleet PooledEndpoint) : Proceeds (fun _ n => n) fleet fleet :=
  ⟨rfl, fun _ e he => ⟨e, he, .refl e⟩⟩

theorem trans (h : Proceeds (fun _ n => n) fleet later) (h' : Proceeds (fun _ n => n) later last) :
    Proceeds (fun _ n => n) fleet last := by
  refine ⟨h'.size.trans h.size, fun i e he => ?_⟩
  obtain ⟨e', he', hgoes⟩ := h.endpoints i e he
  obtain ⟨e'', he'', hgoes'⟩ := h'.endpoints i e' he'
  exact ⟨e'', he'', hgoes.trans hgoes'⟩

theorem map {f : PooledEndpoint → PooledEndpoint}
    (hf : ∀ (i : Nat) (e : PooledEndpoint), fleet[i]? = some e → e.GoesOn (fun n => n) (f e)) :
    Proceeds (fun _ n => n) fleet (fleet.map f) := by
  refine ⟨Array.size_map, fun i e he => ⟨f e, ?_, hf i e he⟩⟩
  rw [Array.getElem?_map, he]
  rfl

theorem modify {i : Nat} {f : PooledEndpoint → PooledEndpoint} {change : UInt64 → UInt64}
    (hf : ∀ e, fleet[i]? = some e → e.GoesOn change (f e)) :
    Proceeds (fun j n => if j = i then change n else n) fleet (fleet.modify i f) := by
  refine ⟨Array.size_modify, fun j e he => ?_⟩
  rw [Array.getElem?_modify, he]
  by_cases hj : i = j
  · subst hj
    simp only [if_true]
    exact ⟨f e, rfl, hf e he⟩
  · rw [if_neg hj]
    refine ⟨e, rfl, ?_⟩
    simp only [if_neg fun h : j = i => hj h.symm]
    exact .refl e

theorem modify_still {i : Nat} {f : PooledEndpoint → PooledEndpoint}
    (hf : ∀ e, fleet[i]? = some e → e.GoesOn (fun n => n) (f e)) :
    Proceeds (fun _ n => n) fleet (fleet.modify i f) := by
  have h := modify hf
  simp only [ite_self] at h
  exact h

theorem close (fleet : Fleet PooledEndpoint) (i : Nat) :
    Proceeds (fun _ n => n) fleet (Fleet.close fleet i).2 := by
  unfold Fleet.close
  split
  · exact .refl fleet
  · rename_i e he
    refine ⟨by simp, fun j e' he' => ?_⟩
    obtain ⟨hi, rfl⟩ := Array.getElem?_eq_some_iff.1 he
    by_cases hj : i = j
    · subst hj
      cases he.symm.trans he'
      exact ⟨_, by simp [hi], PooledEndpoint.goesOn_close _⟩
    · exact ⟨e', by simp [hj, he'], .refl e'⟩

theorem closeAll (fleet : Fleet PooledEndpoint) (ids : List Nat) :
    Proceeds (fun _ n => n) fleet (Fleet.closeAll fleet ids).2 := by
  induction ids generalizing fleet with
  | nil => exact .refl fleet
  | cons i ids ih => exact (close fleet i).trans (ih _)

end Proceeds

/-! ## Calls -/

variable {c d : Cluster} {s : Strategy} {call : Call} {change : Nat → UInt64 → UInt64} {i n number : Nat}

theorem call?_eq_some_iff :
    c.call? number = some call ↔ 0 < number ∧ c.calls[number - 1]? = some call := by
  unfold call?
  split
  · simp [*]
  · simp [Nat.pos_of_ne_zero ‹_›]

theorem call?_congr (h : d.calls = c.calls) : d.call? = c.call? := by
  unfold call?
  rw [h]

theorem mem_calls_iff_call? : call ∈ c.calls ↔ ∃ number, c.call? number = some call := by
  simp only [Array.mem_iff_getElem?, call?_eq_some_iff]
  constructor
  · rintro ⟨place, hplace⟩
    exact ⟨place + 1, Nat.succ_pos _, hplace⟩
  · rintro ⟨number, -, hplace⟩
    exact ⟨_, hplace⟩

theorem le_size_of_call? (h : c.call? number = some call) : number ≤ c.calls.size := by
  obtain ⟨hpos, hplace⟩ := call?_eq_some_iff.1 h
  obtain ⟨hlt, -⟩ := Array.getElem?_eq_some_iff.1 hplace
  omega

theorem call?_inj (hc : c.calls.toList.Nodup) {other : Nat} (h : c.call? number = some call)
    (h' : c.call? other = some call) : number = other := by
  obtain ⟨hpos, hplace⟩ := call?_eq_some_iff.1 h
  obtain ⟨hpos', hplace'⟩ := call?_eq_some_iff.1 h'
  obtain ⟨hlt, hget⟩ := Array.getElem?_eq_some_iff.1 hplace
  obtain ⟨hlt', hget'⟩ := Array.getElem?_eq_some_iff.1 hplace'
  have hsame : number - 1 = other - 1 := by
    have heq : c.calls.toList.get ⟨number - 1, hlt⟩ = c.calls.toList.get ⟨other - 1, hlt'⟩ := by
      simpa using hget.trans hget'.symm
    exact (List.Nodup.getElem_inj_iff hc).1 heq
  omega

theorem call?_push (h : d.calls = c.calls.push call) (number : Nat) :
    d.call? number = if number = c.calls.size + 1 then some call else c.call? number := by
  unfold call?
  rw [h]
  by_cases hlast : number = c.calls.size + 1
  · subst hlast
    simp
  · rw [if_neg hlast]
    split
    · rfl
    · rw [Array.getElem?_push, if_neg (by omega)]

/-- The calls of the endpoint, by their numbers there, whose connection was given
back. -/
def finishedAt (c : Cluster) (endpoint : Nat) : List Nat :=
  (c.finished.filterMap c.call?).filterMap fun call =>
    if call.endpoint = endpoint then some call.number else none

theorem mem_finishedAt_iff :
    n ∈ c.finishedAt i ↔ ∃ number ∈ c.finished, c.call? number = some ⟨i, n⟩ := by
  unfold finishedAt
  simp only [List.mem_filterMap, Option.ite_none_right_eq_some, Option.some.injEq]
  constructor
  · rintro ⟨call, ⟨number, hin, hcall⟩, rfl, rfl⟩
    exact ⟨number, hin, hcall⟩
  · rintro ⟨number, hin, hcall⟩
    exact ⟨_, ⟨number, hin, hcall⟩, rfl, rfl⟩

theorem finishedAt_congr (hfinished : d.finished = c.finished)
    (hcalls : ∀ number ∈ c.finished, d.call? number = c.call? number) :
    d.finishedAt i = c.finishedAt i := by
  unfold finishedAt
  rw [hfinished, List.filterMap_congr hcalls]

/-! ## What is calm -/

/-- No call starts, and no lease ends. -/
structure Calm (change : Nat → UInt64 → UInt64) (c d : Cluster) : Prop where
  calls : d.calls = c.calls
  finished : d.finished = c.finished
  balancer : d.balancer = c.balancer ∨
    ∃ move : Balancer.Move PooledEndpoint, d.balancer = c.balancer.apply move
  members : ∀ m ∈ d.balancer.members, m ∈ c.balancer.members ∨ m.id < c.fleet.size
  fleet : Proceeds change c.fleet d.fleet

theorem Calm.refl (c : Cluster) : Calm (fun _ n => n) c c :=
  ⟨rfl, rfl, .inl rfl, fun _ hm => .inl hm, .refl _⟩

/-- The balancer stays as it is. -/
theorem calm_of_fleet {fleet : Fleet PooledEndpoint} {now : Nat}
    (h : Proceeds change c.fleet fleet) : Calm change c { c with fleet, now } :=
  ⟨rfl, rfl, .inl rfl, fun _ hm => .inl hm, h⟩

theorem calm_onPool {f : Pool → Pool}
    (hf : ∀ (e : PooledEndpoint), c.fleet[i]? = some e → e.pool.Drifts (f e.pool)) :
    Calm (fun _ n => n) c (c.onPool i f) :=
  calm_of_fleet (.modify_still fun e he => PooledEndpoint.goesOn_mapPool (hf e he))

theorem calm_apply {m : Pool.Move} (hm : m.isCalm = true) :
    Calm (fun _ n => n) c (c.onPool i fun p => p.apply m) :=
  calm_onPool fun e _ => .move e.pool hm

theorem calm_settle (c : Cluster) : Calm (fun _ n => n) c c.settle :=
  calm_of_fleet (.map fun _ e _ => PooledEndpoint.goesOn_mapPool (Pool.drifts_settle e.pool))

theorem calm_releaseActive (c : Cluster) (i : Nat) :
    Calm (fun j n => if j = i then Balancer.countDown n else n) c (c.releaseActive i) :=
  calm_of_fleet (.modify fun _ _ => ⟨rfl, rfl, rfl, .refl _⟩)

theorem calm_register (c : Cluster) (i : Nat) : Calm (fun _ n => n) c (c.register i).2 := by
  unfold register
  split
  · exact .refl c
  rename_i e he
  have happly := Balancer.apply_add c.balancer c.fleet ⟨i, e.addr⟩
  split
  · exact .refl c
  · rename_i balancer hok
    rw [hok] at happly
    refine ⟨rfl, rfl, .inr ⟨_, happly.symm⟩, fun m hm => ?_, .refl _⟩
    have hmembers := (Balancer.apply_add_frame c.balancer c.fleet ⟨i, e.addr⟩).2
    rw [happly] at hmembers
    rcases hmembers with hsame | ⟨-, hadded⟩
    · exact .inl (hsame ▸ hm)
    · replace hm : m ∈ c.balancer.members ++ [⟨i, e.addr⟩] := hadded ▸ hm
      rcases List.mem_append.1 hm with hold | hnew
      · exact .inl hold
      · rw [List.mem_singleton.1 hnew]
        exact .inr (Array.getElem?_eq_some_iff.1 he).1

theorem calm_remove (hc : c.balancer.addrs.Nodup) (addr : String) :
    Calm (fun _ n => n) c (c.remove addr).2 := by
  unfold remove
  rcases Balancer.remove?_cases hc addr with ⟨-, hnone⟩ | ⟨place, m, -, -, hsome⟩
  · rw [hnone]
    exact .refl c
  · have happly := Balancer.apply_remove (ε := PooledEndpoint) c.balancer addr
    rw [hsome] at happly ⊢
    exact ⟨rfl, rfl, .inr ⟨_, happly.symm⟩, fun m hm => .inl (List.mem_of_mem_filter hm), .refl _⟩

theorem calm_close (c : Cluster) : Calm (fun _ n => n) c c.close.2 := by
  refine ⟨rfl, rfl, .inr ⟨.close c.fleet, rfl⟩, fun m hm => .inl ?_, ?_⟩
  · have hsame := congrArg Balancer.Registry.members (Balancer.apply_close c.balancer c.fleet)
    exact hsame ▸ hm
  · show Proceeds _ c.fleet (Balancer.Registry.close c.balancer c.fleet).2.2
    unfold Balancer.Registry.close
    split
    · exact .refl _
    · exact .closeAll c.fleet c.balancer.ids

/-- How a selection of the member changes the selections of the endpoints. -/
def counted (s : Strategy) (m : Balancer.Member) (j : Nat) (n : UInt64) : UInt64 :=
  if s.countsWork ∧ j = m.id then n + 1 else n

theorem calm_select {key : Option String} {m : Balancer.Member}
    (hfits : c.balancer.state.Fits c.balancer.members) (h : (c.select key).1 = .ok m) :
    Calm (counted c.balancer.strategy m) c (c.select key).2 ∧ m ∈ c.balancer.members := by
  unfold select at h ⊢
  rcases Balancer.select_of_fits hfits c.fleet key with ⟨-, fault, hfault⟩ | ⟨⟨-, hne, -⟩, x, hx, hok⟩
  · rw [hfault] at h
    cases h
  · obtain ⟨y, hy, hmem, -⟩ := Balancer.choose?_of_fits hfits hne c.fleet (key.getD "")
    cases hx.symm.trans hy
    have happly := Balancer.apply_select c.balancer c.fleet key
    rw [hok] at h happly ⊢
    cases h
    refine ⟨⟨rfl, rfl, .inr ⟨_, happly.symm⟩, fun m hm => .inl ?_, ?_⟩, hmem⟩
    · have hsame := congrArg Balancer.Registry.members (Balancer.choose?_frame hx)
      exact hsame ▸ hm
    · show Proceeds _ c.fleet x.fleet
      rw [(Balancer.choose?_effect hx).2]
      unfold counted
      by_cases hcounts : c.balancer.strategy.countsWork = true
      · simp only [hcounts, if_true, true_and]
        exact .modify fun _ _ => ⟨rfl, rfl, rfl, .refl _⟩
      · simp only [hcounts]
        exact .refl _

/-! ## What every run keeps -/

/-- The members are endpoints of the fleet, the pools are those of sessions, and
the calls are those of the pools, each once. -/
structure Wired (s : Strategy) (c : Cluster) : Prop where
  strategy : c.balancer.strategy = s
  addrs : c.balancer.addrs.Nodup
  fits : c.balancer.state.Fits c.balancer.members
  members : ∀ m ∈ c.balancer.members, m.id < c.fleet.size
  sessions : ∀ (i : Nat) (e : PooledEndpoint), c.fleet[i]? = some e →
    ∃ o : Pool.Options, o.Unmarking ∧ Pool.Session.Reachable o ⟨e.pool, c.finishedAt i⟩
  calls : c.calls.toList.Nodup
  mem_calls_iff : ∀ call, call ∈ c.calls ↔
    ∃ e, c.fleet[call.endpoint]? = some e ∧ 0 < call.number ∧ call.number ≤ e.pool.getCount
  finished : ∀ number ∈ c.finished, ∃ call, c.call? number = some call

theorem Wired.occurs (hw : Wired s c) {e : PooledEndpoint} (he : c.fleet[i]? = some e) :
    ∃ o : Pool.Options, o.Unmarking ∧ Pool.Occurs o e.pool .start := by
  obtain ⟨o, ho, hs⟩ := hw.sessions i e he
  exact ⟨o, ho, hs.pool.occurs⟩

theorem Calm.finishedAt_eq (h : Calm change c d) (i : Nat) : d.finishedAt i = c.finishedAt i :=
  finishedAt_congr h.finished fun _ _ => by rw [call?_congr h.calls]

/-- An endpoint afterwards was one before. -/
theorem Proceeds.back {fleet later : Fleet PooledEndpoint} (h : Proceeds change fleet later)
    {e' : PooledEndpoint} (he' : later[i]? = some e') :
    ∃ e, fleet[i]? = some e ∧ e.GoesOn (change i) e' := by
  have hi := h.size ▸ (Array.getElem?_eq_some_iff.1 he').1
  have he := Array.getElem?_eq_getElem hi
  obtain ⟨e'', he'', hgoes⟩ := h.endpoints i _ he
  cases he'.symm.trans he''
  exact ⟨_, he, hgoes⟩

theorem Proceeds.weight {fleet later : Fleet PooledEndpoint} (h : Proceeds change fleet later)
    (i : Nat) : Fleet.weight later i = Fleet.weight fleet i := by
  unfold Fleet.weight
  cases he : fleet[i]? with
  | none =>
    rw [Array.getElem?_eq_none_iff, ← h.size, ← Array.getElem?_eq_none_iff] at he
    rw [he]
  | some e =>
    obtain ⟨e', he', hgoes⟩ := h.endpoints i e he
    rw [he']
    exact hgoes.weight

theorem Wired.calm (hw : Wired s c) (h : Calm change c d) : Wired s d where
  strategy := by
    rcases h.balancer with hsame | ⟨move, happly⟩
    · rw [hsame, hw.strategy]
    · rw [happly, Balancer.strategy_apply hw.addrs, hw.strategy]
  addrs := by
    rcases h.balancer with hsame | ⟨move, happly⟩
    · rw [hsame]
      exact hw.addrs
    · rw [happly]
      exact Balancer.nodup_addrs_apply hw.addrs move
  fits := by
    rcases h.balancer with hsame | ⟨move, happly⟩
    · rw [hsame]
      exact hw.fits
    · rw [happly]
      exact Balancer.fits_apply hw.addrs hw.fits move
  members m hm := by
    rw [h.fleet.size]
    exact (h.members m hm).elim (hw.members m) fun hlt => hlt
  sessions i e' he' := by
    obtain ⟨e, he, hgoes⟩ := h.fleet.back he'
    obtain ⟨o, ho, hs⟩ := hw.sessions i e he
    rw [h.finishedAt_eq]
    exact ⟨o, ho, hgoes.pool.session hs⟩
  calls := h.calls ▸ hw.calls
  mem_calls_iff call := by
    rw [h.calls, hw.mem_calls_iff]
    constructor
    · rintro ⟨e, he, hpos, hle⟩
      obtain ⟨o, -, hoccurs⟩ := hw.occurs he
      obtain ⟨e', he', hgoes⟩ := h.fleet.endpoints _ e he
      exact ⟨e', he', hpos, (hgoes.pool.getCount_eq hoccurs).symm ▸ hle⟩
    · rintro ⟨e', he', hpos, hle⟩
      obtain ⟨e, he, hgoes⟩ := h.fleet.back he'
      obtain ⟨o, -, hoccurs⟩ := hw.occurs he
      exact ⟨e, he, hpos, hgoes.pool.getCount_eq hoccurs ▸ hle⟩
  finished number hin := by
    rw [call?_congr h.calls]
    exact hw.finished number (h.finished ▸ hin)

theorem Wired.calm_advance (hw : Wired s c) (ms : Nat) : Calm (fun _ n => n) c (c.advance ms) := by
  refine calm_of_fleet (.map fun i e he => PooledEndpoint.goesOn_mapPool ?_)
  obtain ⟨o, -, hoccurs⟩ := hw.occurs he
  exact hoccurs.drifts_advance ms

/-! ## What is not calm -/

theorem getElem?_onPool (c : Cluster) (i j : Nat) (f : Pool → Pool) :
    (c.onPool i f).fleet[j]? =
      if i = j then (c.fleet[j]?).map fun e => e.mapPool f else c.fleet[j]? :=
  Array.getElem?_modify

/-- A step of one session, which may make a call or end a lease. -/
theorem Wired.onPool (hw : Wired s c) {e : PooledEndpoint} (he : c.fleet[i]? = some e)
    {calls : Array Call} {finished : List Nat} {f : Pool → Pool}
    (hd : d = { c with calls, finished }.onPool i f)
    (hnext : (Pool.Session.mk e.pool (c.finishedAt i)).Next ⟨f e.pool, d.finishedAt i⟩)
    (hothers : ∀ j, i ≠ j → d.finishedAt j = c.finishedAt j)
    (hcalls : calls.toList.Nodup)
    (hmem : ∀ n, ⟨i, n⟩ ∈ calls ↔ 0 < n ∧ n ≤ (f e.pool).getCount)
    (hmem_others : ∀ j n, i ≠ j → (⟨j, n⟩ ∈ calls ↔ ⟨j, n⟩ ∈ c.calls))
    (hfinished : ∀ number ∈ finished, ∃ call, d.call? number = some call) : Wired s d := by
  have hfleet : ∀ j, d.fleet[j]? =
      if i = j then (c.fleet[j]?).map fun e => e.mapPool f else c.fleet[j]? := by
    intro j
    rw [hd]
    exact getElem?_onPool _ i j f
  have hsize : d.fleet.size = c.fleet.size := by
    rw [hd]
    exact Array.size_modify
  have hbalancer : d.balancer = c.balancer := by
    rw [hd]
    rfl
  refine ⟨?_, ?_, ?_, ?_, fun j e' he' => ?_, ?_, ?_, ?_⟩
  · rw [hbalancer]
    exact hw.strategy
  · rw [hbalancer]
    exact hw.addrs
  · rw [hbalancer]
    exact hw.fits
  · rw [hbalancer, hsize]
    exact hw.members
  · rw [hfleet] at he'
    by_cases hj : i = j
    · subst hj
      rw [if_pos rfl, he] at he'
      cases he'
      obtain ⟨o, ho, hs⟩ := hw.sessions i e he
      exact ⟨o, ho, hs.next hnext⟩
    · rw [if_neg hj] at he'
      rw [hothers j hj]
      exact hw.sessions j e' he'
  · rw [hd]
    exact hcalls
  · rintro ⟨j, n⟩
    rw [show d.calls = calls by rw [hd]; rfl, hfleet]
    by_cases hj : i = j
    · subst hj
      rw [hmem, if_pos rfl, he]
      simp [PooledEndpoint.mapPool]
    · rw [hmem_others j n hj, if_neg hj, hw.mem_calls_iff]
  · rwa [show d.finished = finished by rw [hd]; rfl]

theorem get_eq {e : PooledEndpoint} (he : c.fleet[i]? = some e) (cancelled : Bool) :
    c.get i cancelled =
      { c with calls := c.calls.push ⟨i, e.pool.getCount + 1⟩ }.onPool i fun p => p.get cancelled := by
  unfold get
  rw [he]

/-- A call that is made leaves the numbers of the calls so far as they are, and no lease
ends. -/
theorem Wired.call?_get (hw : Wired s c) {e : PooledEndpoint} (he : c.fleet[i]? = some e)
    (cancelled : Bool) {number : Nat} (hin : number ∈ c.finished) :
    (c.get i cancelled).call? number = c.call? number := by
  obtain ⟨call, hcall⟩ := hw.finished number hin
  have hle := le_size_of_call? hcall
  have hcalls : (c.get i cancelled).calls = c.calls.push ⟨i, e.pool.getCount + 1⟩ := by
    rw [get_eq he]
    rfl
  rw [call?_push hcalls, if_neg (by omega)]

theorem Wired.finishedAt_get (hw : Wired s c) {e : PooledEndpoint} (he : c.fleet[i]? = some e)
    (cancelled : Bool) (j : Nat) : (c.get i cancelled).finishedAt j = c.finishedAt j :=
  finishedAt_congr (by rw [get_eq he]; rfl) fun _ hin => hw.call?_get he cancelled hin

/-- A call of `get` is the next one of the endpoint. -/
theorem Wired.get (hw : Wired s c) {e : PooledEndpoint} (he : c.fleet[i]? = some e)
    (cancelled : Bool) : Wired s (c.get i cancelled) := by
  have hsame := hw.finishedAt_get he cancelled
  have hcount : (e.pool.get cancelled).getCount = e.pool.getCount + 1 := rfl
  refine hw.onPool he (get_eq he cancelled) ?_ (fun j _ => hsame j) ?_ (fun n => ?_)
    (fun j n hj => ?_) fun number hin => ?_
  · rw [hsame]
    exact .move (.get cancelled) nofun
  · rw [Array.toList_push]
    refine List.nodup_append.2 ⟨hw.calls, List.nodup_singleton _, ?_⟩
    rintro call hin other hnew rfl
    rw [List.mem_singleton.1 hnew] at hin
    obtain ⟨e', he', -, hle⟩ := (hw.mem_calls_iff _).1 (Array.mem_toList_iff.1 hin)
    cases he.symm.trans he'
    exact absurd hle (by simp)
  · rw [Array.mem_push, hw.mem_calls_iff, hcount]
    simp only [he, Option.some.injEq, exists_eq_left', Call.mk.injEq, true_and]
    omega
  · rw [Array.mem_push, Call.mk.injEq, or_iff_left fun hnew => hj hnew.1.symm]
  · rw [hw.call?_get he cancelled hin]
    exact hw.finished number hin

theorem lease?_eq_some_iff {lease : Lease} :
    c.lease? number = some lease ↔ number ∉ c.finished ∧ ∃ n e,
      c.call? number = some ⟨lease.endpoint, n⟩ ∧ c.fleet[lease.endpoint]? = some e ∧
        e.pool.lease? n = some lease.connection := by
  unfold lease?
  by_cases hin : number ∈ c.finished
  · simp [hin]
  rw [if_neg hin]
  constructor
  · intro h
    obtain ⟨call, hcall, h⟩ := Option.bind_eq_some_iff.1 h
    obtain ⟨e, he, h⟩ := Option.bind_eq_some_iff.1 h
    obtain ⟨id, hid, h⟩ := Option.bind_eq_some_iff.1 h
    cases h
    exact ⟨hin, call.number, e, hcall, he, hid⟩
  · rintro ⟨-, n, e, hcall, he, hid⟩
    refine Option.bind_eq_some_iff.2 ⟨_, hcall, Option.bind_eq_some_iff.2 ⟨e, he, ?_⟩⟩
    exact Option.bind_eq_some_iff.2 ⟨_, hid, rfl⟩

/-- A call that has a lease holds its connection. -/
theorem Wired.holds (hw : Wired s c) {lease : Lease} {e : PooledEndpoint}
    (hcall : c.call? number = some ⟨lease.endpoint, n⟩) (hnot : number ∉ c.finished)
    (he : c.fleet[lease.endpoint]? = some e) (hid : e.pool.lease? n = some lease.connection) :
    Pool.Session.Holds ⟨e.pool, c.finishedAt lease.endpoint⟩ n lease.connection := by
  obtain ⟨o, -, hoccurs⟩ := hw.occurs he
  refine ⟨hoccurs.called.lease?_eq_some_iff.1 hid, fun hin => ?_⟩
  obtain ⟨other, hother, hcall'⟩ := mem_finishedAt_iff.1 hin
  exact hnot (call?_inj hw.calls hcall hcall' ▸ hother)

theorem finishedAt_cons (hd : d.finished = number :: c.finished) (hcalls : d.calls = c.calls)
    (hcall : c.call? number = some call) :
    d.finishedAt i = if call.endpoint = i then call.number :: c.finishedAt i else c.finishedAt i := by
  unfold finishedAt
  rw [hd, call?_congr hcalls, List.filterMap_cons_some hcall, List.filterMap_cons]
  split
  · rename_i hnone
    rw [if_neg fun h => by simp [h] at hnone]
  · rename_i hsome
    obtain ⟨h, hnumber⟩ := Option.ite_none_right_eq_some.1 hsome
    cases hnumber
    rw [if_pos h]

theorem drop_cases (c : Cluster) (number : Nat) :
    (c.drop number).2 = c ∨ ∃ lease, c.lease? number = some lease ∧
      (c.drop number).2 = { c with finished := number :: c.finished }.onPool lease.endpoint
        fun p => p.release lease.connection := by
  unfold drop
  cases c.lease? number with
  | none => exact .inl rfl
  | some lease => exact .inr ⟨lease, rfl, rfl⟩

/-- Who has a lease can give it back. -/
theorem Wired.drop (hw : Wired s c) (number : Nat) : Wired s (c.drop number).2 := by
  rcases drop_cases c number with hd | ⟨lease, hlease, hd⟩
  · exact hd.symm ▸ hw
  · obtain ⟨hnot, n, e, hcall, he, hid⟩ := lease?_eq_some_iff.1 hlease
    obtain ⟨o, -, hoccurs⟩ := hw.occurs he
    have hcalls : (c.drop number).2.calls = c.calls := by
      rw [hd]
      rfl
    have hfinished : ∀ j, (c.drop number).2.finishedAt j =
        if lease.endpoint = j then n :: c.finishedAt j else c.finishedAt j := fun j =>
      finishedAt_cons (c := c) (by rw [hd]; rfl) hcalls hcall
    have hcount : (e.pool.release lease.connection).getCount = e.pool.getCount :=
      hoccurs.getCount_apply (m := .release _) nofun
    refine hw.onPool he hd ?_ (fun j hj => ?_) hw.calls (fun n => ?_) (fun _ _ _ => .rfl)
      fun other hin => ?_
    · rw [hfinished, if_pos rfl]
      exact .giveBack (hw.holds hcall hnot he hid)
    · rw [hfinished, if_neg hj]
    · rw [hw.mem_calls_iff, hcount]
      simp only [he, Option.some.injEq, exists_eq_left']
    · rw [call?_congr hcalls]
      rcases List.mem_cons.1 hin with rfl | hold
      · exact ⟨_, hcall⟩
      · exact hw.finished other hold

/-- The pool of a new endpoint is that of a session without calls. -/
theorem session_endpoint (plan : EndpointPlan) (now : Nat) :
    Pool.Session.Reachable plan.options ⟨(plan.endpoint now).pool, []⟩ :=
  (Pool.Session.Reachable.create plan.dialer now true).next (.move (.setPauses plan.pauses) nofun)

theorem getCount_endpoint (plan : EndpointPlan) (now : Nat) :
    (plan.endpoint now).pool.getCount = 0 := rfl

/-- A new endpoint has no calls, and is no member yet. -/
theorem Wired.push (hw : Wired s c) {plan : EndpointPlan} (hplan : plan.options.Unmarking) :
    Wired s { c with fleet := c.fleet.push (plan.endpoint c.now) } := by
  have hnone : ∀ n, ⟨c.fleet.size, n⟩ ∉ c.calls := fun n hin => by
    obtain ⟨e, he, -⟩ := (hw.mem_calls_iff _).1 hin
    exact absurd (Array.getElem?_eq_some_iff.1 he).1 (Nat.lt_irrefl _)
  refine ⟨hw.strategy, hw.addrs, hw.fits, fun m hm => ?_, fun i e he => ?_, hw.calls, ?_, hw.finished⟩
  · rw [Array.size_push]
    exact Nat.lt_succ_of_lt (hw.members m hm)
  · rw [Array.getElem?_push] at he
    split at he
    · rename_i hi
      cases he
      have hfresh : { c with fleet := c.fleet.push (plan.endpoint c.now) }.finishedAt i = [] := by
        refine List.eq_nil_iff_forall_not_mem.2 fun n hin => ?_
        obtain ⟨number, -, hcall⟩ := mem_finishedAt_iff.1 hin
        exact hnone n (hi ▸ mem_calls_iff_call?.2 ⟨number, hcall⟩)
      rw [hfresh]
      exact ⟨plan.options, hplan, session_endpoint plan c.now⟩
    · exact hw.sessions i e he
  · rintro ⟨i, n⟩
    rw [hw.mem_calls_iff, Array.getElem?_push]
    split
    · rename_i hi
      subst hi
      simp only [Array.getElem?_size, Option.some.injEq, exists_eq_left', getCount_endpoint]
      simp
      omega
    · rfl

theorem build_eq {virtualNodes : Nat} {plans : List EndpointPlan}
    (h : Cluster.build s virtualNodes plans = .ok c) :
    ∃ balancer, Balancer.build s virtualNodes c.fleet = .ok balancer ∧
      c = ⟨balancer, (plans.map fun plan => plan.endpoint 0).toArray, 0, #[], []⟩ := by
  unfold Cluster.build at h
  dsimp only at h
  split at h
  · cases h
  · rename_i balancer hbuild
    cases h
    exact ⟨balancer, hbuild, rfl⟩

theorem build_of_balancer {virtualNodes : Nat} {plans : List EndpointPlan} {b : Balancer}
    (h : Balancer.build s virtualNodes (plans.map fun plan => plan.endpoint 0).toArray = .ok b) :
    Cluster.build s virtualNodes plans =
      .ok ⟨b, (plans.map fun plan => plan.endpoint 0).toArray, 0, #[], []⟩ := by
  unfold Cluster.build
  dsimp only
  rw [h]

/-- The endpoints of a new cluster are those that were planned. -/
theorem endpoint_build {virtualNodes : Nat} {plans : List EndpointPlan}
    (h : Cluster.build s virtualNodes plans = .ok c) {e : PooledEndpoint}
    (he : c.fleet[i]? = some e) : ∃ plan ∈ plans, plan.endpoint 0 = e := by
  obtain ⟨balancer, -, rfl⟩ := build_eq h
  exact List.mem_map.1 (List.mem_of_getElem? (List.getElem?_toArray ▸ he))

theorem wired_build {virtualNodes : Nat} {plans : List EndpointPlan}
    (hplans : ∀ plan ∈ plans, plan.options.Unmarking)
    (h : Cluster.build s virtualNodes plans = .ok c) : Wired s c := by
  have hnew := fun i e => endpoint_build (i := i) (e := e) h
  obtain ⟨balancer, hbuild, rfl⟩ := build_eq h
  obtain ⟨hstrategy, haddrs, hfits, hmembers⟩ := Balancer.build_ok hbuild
  refine ⟨hstrategy, haddrs, hfits, fun m hm => ?_, fun i e he => ?_, List.nodup_nil,
    fun call => ?_, nofun⟩
  · rw [hmembers] at hm
    obtain ⟨i, hi, rfl⟩ := List.mem_mapIdx.1 hm
    exact hi
  · obtain ⟨plan, hplan, rfl⟩ := hnew i e he
    exact ⟨plan.options, hplans plan hplan, session_endpoint plan 0⟩
  · refine iff_of_false (by simp) ?_
    rintro ⟨e, he, hpos, hle⟩
    obtain ⟨plan, -, rfl⟩ := hnew _ e he
    rw [getCount_endpoint] at hle
    omega

end Cluster

end PooledRouting
