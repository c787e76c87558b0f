import PooledRouting.Proofs.Cluster.Wiring
import PooledRouting.Proofs.Pool.Leases
import PooledRouting.Proofs.Pool.Slots

/-!
# Traffic and the load of endpoints

A caller is given an endpoint by the balancer, calls for a connection there,
gives it back, and releases what it was given.  Between any two of its steps
other callers may make theirs, the pools may go on, time may pass, and the
balancer and the fleet may change.  `Traffic.Next` is the step, and
`Traffic.Reachable` the closure under all steps.

The load of an endpoint is the greater one of two figures that are kept apart:
the selections, which only some strategies count and all callers take back, and
the connections that are checked out.  The selections are counted in a word.
Every caller takes memory of its own, so there is never one more than a word
can count.  `Attended` ties both to the callers, and
each step keeps it.  Then the connections that are checked out are those that
calls hold (`Wired.held_perm`), each of these calls has its caller
(`Attended.liveGuards_le`), and `load_follows_callers` reads the figures off.
-/

namespace PooledRouting

namespace Cluster

variable {c d : Cluster} {s : Strategy} {call : Call} {change : Nat → UInt64 → UInt64} {i n number : Nat}

/-! ## Guards -/

/-- The connections that calls hold. -/
def leases (c : Cluster) : List Lease :=
  (List.range' 1 c.calls.size).filterMap c.lease?

/-- The connections of the endpoint that calls hold. -/
def liveGuards (c : Cluster) (endpoint : Nat) : Nat :=
  c.leases.countP fun lease => lease.endpoint == endpoint

/-- The call has ended, and holds no connection any more. -/
def IsDone (c : Cluster) (number : Nat) : Prop :=
  number ∈ c.finished ∨ ∃ fault, c.ending? number = some (.error fault)

theorem mem_leases_iff {lease : Lease} : lease ∈ c.leases ↔ ∃ number, c.lease? number = some lease := by
  unfold leases
  rw [List.mem_filterMap]
  refine exists_congr fun number => and_iff_right_of_imp fun hlease => ?_
  obtain ⟨-, n, e, hcall, -⟩ := lease?_eq_some_iff.1 hlease
  have hpos := (call?_eq_some_iff.1 hcall).1
  have hle := le_size_of_call? hcall
  exact List.mem_range'_1.2 ⟨hpos, by omega⟩

theorem ending?_eq_some_iff {result : Except Pool.Fault ConnectionId} :
    c.ending? number = some result ↔ ∃ call e, c.call? number = some call ∧
      c.fleet[call.endpoint]? = some e ∧ e.pool.ending? call.number = some result := by
  constructor
  · intro h
    obtain ⟨call, hcall, h⟩ := Option.bind_eq_some_iff.1 h
    obtain ⟨e, he, h⟩ := Option.bind_eq_some_iff.1 h
    exact ⟨call, e, hcall, he, h⟩
  · rintro ⟨call, e, hcall, he, h⟩
    exact Option.bind_eq_some_iff.2 ⟨call, hcall, Option.bind_eq_some_iff.2 ⟨e, he, h⟩⟩

/-- The leases that the pool of the endpoint knows of. -/
theorem Wired.leased (hw : Wired s c) {e : PooledEndpoint} (he : c.fleet[i]? = some e) :
    Pool.Leased ⟨e.pool, c.finishedAt i⟩ := by
  obtain ⟨o, ho, hs⟩ := hw.sessions i e he
  exact hs.leased ho

/-- Who holds a connection of the endpoint is a call of the cluster. -/
theorem Wired.holds_iff (hw : Wired s c) {e : PooledEndpoint} (he : c.fleet[i]? = some e)
    {id : ConnectionId} :
    (∃ get, Pool.Session.Holds ⟨e.pool, c.finishedAt i⟩ get id) ↔ ⟨i, id⟩ ∈ c.leases := by
  obtain ⟨o, -, hoccurs⟩ := hw.occurs he
  rw [mem_leases_iff]
  constructor
  · rintro ⟨get, hserved, hnot⟩
    have hended : 0 < e.pool.endings get := Pool.endings_pos hserved (beq_self_eq_true _)
    have hmade : 0 < get ∧ get ≤ e.pool.getCount := hoccurs.called.made (by omega)
    obtain ⟨number, hcall⟩ := mem_calls_iff_call?.1 ((hw.mem_calls_iff ⟨i, get⟩).2 ⟨e, he, hmade⟩)
    refine ⟨number, lease?_eq_some_iff.2 ⟨fun hin => hnot ?_, get, e, hcall, he, ?_⟩⟩
    · exact mem_finishedAt_iff.2 ⟨number, hin, hcall⟩
    · exact hoccurs.called.lease?_eq_some_iff.2 hserved
  · rintro ⟨number, hlease⟩
    obtain ⟨hnot, n, e', hcall, he', hid⟩ := lease?_eq_some_iff.1 hlease
    cases he.symm.trans he'
    exact ⟨n, hw.holds hcall hnot he hid⟩

/-- No two calls hold the same connection. -/
theorem Wired.lease?_inj (hw : Wired s c) {other : Nat} {lease : Lease}
    (h : c.lease? number = some lease) (h' : c.lease? other = some lease) : number = other := by
  obtain ⟨hnot, n, e, hcall, he, hid⟩ := lease?_eq_some_iff.1 h
  obtain ⟨hnot', n', e', hcall', he', hid'⟩ := lease?_eq_some_iff.1 h'
  cases he.symm.trans he'
  obtain rfl := (hw.leased he).alone n n' _ (hw.holds hcall hnot he hid) (hw.holds hcall' hnot' he hid')
  exact call?_inj hw.calls hcall hcall'

/-- The connections that are checked out of an endpoint are those that calls
hold. -/
theorem Wired.held_perm (hw : Wired s c) {e : PooledEndpoint} (he : c.fleet[i]? = some e) :
    e.pool.held.Perm ((c.leases.filter fun lease => lease.endpoint == i).map Lease.connection) := by
  obtain ⟨o, -, hoccurs⟩ := hw.occurs he
  have hleases : c.leases.Nodup :=
    List.Nodup.filterMap (fun _ _ _ h h' => hw.lease?_inj h h') List.nodup_range'
  rw [List.perm_ext_iff_of_nodup (Pool.held_nodup hoccurs.unique)]
  · intro id
    rw [Pool.mem_held_iff hoccurs.unique, (hw.leased he).held, hw.holds_iff he, List.mem_map]
    constructor
    · exact fun hin => ⟨_, List.mem_filter.2 ⟨hin, beq_self_eq_true i⟩, rfl⟩
    · rintro ⟨⟨j, id'⟩, hin, rfl⟩
      obtain ⟨hmem, hj⟩ := List.mem_filter.1 hin
      exact beq_iff_eq.1 hj ▸ hmem
  · refine List.Nodup.map_on ?_ (hleases.filter _)
    rintro ⟨j, id⟩ hin ⟨j', id'⟩ hin' rfl
    have hj := beq_iff_eq.1 (List.mem_filter.1 hin).2
    have hj' := beq_iff_eq.1 (List.mem_filter.1 hin').2
    exact congrArg (Lease.mk · id) (hj.trans hj'.symm)

theorem Wired.inUse_eq (hw : Wired s c) {e : PooledEndpoint} (he : c.fleet[i]? = some e) :
    e.pool.counters.inUse = c.liveGuards i := by
  obtain ⟨o, ho, hoccurs⟩ := hw.occurs he
  have hgauge : e.pool.counters.inUse = e.pool.inUseCount := (hoccurs.slotted ho).gauge
  rw [hgauge, Pool.inUseCount_eq, (hw.held_perm he).length_eq, List.length_map]
  exact List.countP_eq_length_filter.symm

/-! ## Calls that are done -/

/-- A call that is done stays so. -/
theorem IsDone.mono (hdone : c.IsDone number) (hd : Wired s d)
    (hcalls : ∀ call, c.call? number = some call → d.call? number = some call)
    (hfinished : number ∈ c.finished → number ∈ d.finished)
    (hhistory : ∀ (i : Nat) (e : PooledEndpoint), c.fleet[i]? = some e → ∃ e', d.fleet[i]? = some e' ∧
      ∀ event ∈ e.pool.history, event ∈ e'.pool.history) : d.IsDone number := by
  refine hdone.imp hfinished fun ⟨fault, hend⟩ => ⟨fault, ?_⟩
  obtain ⟨call, e, hcall, he, hended⟩ := ending?_eq_some_iff.1 hend
  obtain ⟨e', he', hkept⟩ := hhistory _ e he
  obtain ⟨o, -, hoccurs⟩ := hd.occurs he'
  have hin := hkept _ (Pool.mem_history_of_ending? hended)
  exact ending?_eq_some_iff.2
    ⟨call, e', hcalls call hcall, he', hoccurs.called.ending?_eq_some_iff.2 hin⟩

theorem IsDone.calm (hdone : c.IsDone number) (hw : Wired s c) (h : Calm change c d) :
    d.IsDone number := by
  refine hdone.mono (hw.calm h) (fun call hcall => ?_) (fun hin => ?_) fun i e he => ?_
  · rwa [call?_congr h.calls]
  · rwa [h.finished]
  · obtain ⟨o, -, hoccurs⟩ := hw.occurs he
    obtain ⟨e', he', hgoes⟩ := h.fleet.endpoints i e he
    exact ⟨e', he', fun _ hin => hgoes.pool.mem_history hoccurs hin⟩

/-- What a call has ended with stays. -/
theorem Calm.ending?_eq (h : Calm change c d) (hw : Wired s c)
    {result : Except Pool.Fault ConnectionId} (hend : c.ending? number = some result) :
    d.ending? number = some result := by
  obtain ⟨call, e, hcall, he, hended⟩ := ending?_eq_some_iff.1 hend
  obtain ⟨o, -, hoccurs⟩ := hw.occurs he
  obtain ⟨e', he', hgoes⟩ := h.fleet.endpoints _ e he
  obtain ⟨o', -, hoccurs'⟩ := (hw.calm h).occurs he'
  have hin := hgoes.pool.mem_history hoccurs (Pool.mem_history_of_ending? hended)
  refine ending?_eq_some_iff.2 ⟨call, e', ?_, he', hoccurs'.called.ending?_eq_some_iff.2 hin⟩
  rwa [call?_congr h.calls]

theorem IsDone.lease?_eq_none (hdone : c.IsDone number) : c.lease? number = none := by
  refine Option.eq_none_iff_forall_ne_some.2 fun lease hlease => ?_
  obtain ⟨hnot, n, e, hcall, he, hid⟩ := lease?_eq_some_iff.1 hlease
  rcases hdone with hin | ⟨fault, hend⟩
  · exact hnot hin
  · obtain ⟨call, e', hcall', he', hended⟩ := ending?_eq_some_iff.1 hend
    cases hcall.symm.trans hcall'
    cases he.symm.trans he'
    unfold Pool.lease? at hid
    rw [hended] at hid
    cases hid

/-- What a call that is done has been at its endpoint. -/
theorem IsDone.endings_pos (hdone : c.IsDone number) (hw : Wired s c)
    (hcall : c.call? number = some ⟨i, n⟩) {e : PooledEndpoint} (he : c.fleet[i]? = some e) :
    0 < e.pool.endings n := by
  rcases hdone with hin | ⟨fault, hend⟩
  · obtain ⟨id, hserved⟩ := (hw.leased he).ended n (mem_finishedAt_iff.2 ⟨number, hin, hcall⟩)
    exact Pool.endings_pos hserved (beq_self_eq_true _)
  · obtain ⟨call, e', hcall', he', hended⟩ := ending?_eq_some_iff.1 hend
    cases hcall.symm.trans hcall'
    cases he.symm.trans he'
    exact Pool.endings_pos (Pool.mem_history_of_ending? hended) (beq_self_eq_true _)

/-! ## Callers -/

/-- Someone who was given an endpoint and has not released it, with the number of
the call of `get` once it was made. -/
structure Caller where
  endpoint : Nat
  call : Option Nat
  deriving DecidableEq, Repr

end Cluster

/-- A cluster and those who use it. -/
structure Traffic where
  cluster : Cluster
  callers : List Cluster.Caller

namespace Traffic

open Cluster

/-- The selections of the endpoint that were not released yet. -/
def openAt (t : Traffic) (endpoint : Nat) : Nat :=
  t.callers.countP fun caller => caller.endpoint == endpoint

/-- One thing that happens. -/
inductive Next (t : Traffic) : Traffic → Prop where
  /-- A caller is given an endpoint, if there is memory for a caller more. -/
  | select (key : Option String) {m : Balancer.Member} (h : (t.cluster.select key).1 = .ok m)
      (hroom : t.callers.length + 1 < UInt64.size) :
      Next t ⟨(t.cluster.select key).2, ⟨m.id, none⟩ :: t.callers⟩
  /-- It calls for a connection. -/
  | get {before after : List Caller} {endpoint number : Nat} (cancelled : Bool)
      (h : t.callers = before ++ ⟨endpoint, none⟩ :: after)
      (hnumber : t.cluster.calls.size + 1 = number) :
      Next t ⟨t.cluster.get endpoint cancelled, before ++ ⟨endpoint, some number⟩ :: after⟩
  /-- The connection of a call is dropped, if it has one. -/
  | drop (number : Nat) : Next t { t with cluster := (t.cluster.drop number).2 }
  | discard (number : Nat) : Next t { t with cluster := (t.cluster.discard number).2 }
  /-- A caller whose call is done releases the endpoint. -/
  | release {before after : List Caller} {endpoint number : Nat}
      (h : t.callers = before ++ ⟨endpoint, some number⟩ :: after)
      (hdone : t.cluster.IsDone number) :
      Next t ⟨t.cluster.releaseActive endpoint, before ++ after⟩
  /-- A pool goes on, or one of its calls is cancelled. -/
  | pool (endpoint : Nat) (m : Pool.Move) (hm : m.isCalm = true) :
      Next t { t with cluster := t.cluster.onPool endpoint fun p => p.apply m }
  | settle : Next t { t with cluster := t.cluster.settle }
  | advance (ms : Nat) : Next t { t with cluster := t.cluster.advance ms }
  /- The balancer and the fleet change. -/
  | add (plan : EndpointPlan) (h : plan.options.Unmarking) :
      Next t { t with cluster := (t.cluster.add plan).2 }
  | register (endpoint : Nat) : Next t { t with cluster := (t.cluster.register endpoint).2 }
  | remove (addr : String) : Next t { t with cluster := (t.cluster.remove addr).2 }
  | close : Next t { t with cluster := t.cluster.close.2 }

/-- The traffic occurs in a run that starts with a new cluster. -/
inductive Reachable (s : Strategy) : Traffic → Prop where
  | build {virtualNodes : Nat} {plans : List EndpointPlan} {c : Cluster}
      (hplans : ∀ plan ∈ plans, plan.options.Unmarking)
      (h : Cluster.build s virtualNodes plans = .ok c) : Reachable s ⟨c, []⟩
  | next {t t' : Traffic} : Reachable s t → t.Next t' → Reachable s t'

variable {t t' : Traffic} {s : Strategy} {c d : Cluster} {callers : List Caller}
  {change : Nat → UInt64 → UInt64} {i number : Nat}

/-- Each call has its caller until it is done, and the selections that were not
released are counted as the strategy has it. -/
structure Attended (s : Strategy) (t : Traffic) : Prop where
  wired : t.cluster.Wired s
  room : t.callers.length < UInt64.size
  callers : ∀ caller ∈ t.callers, caller.endpoint < t.cluster.fleet.size
  calls : ∀ number call, t.cluster.call? number = some call →
    ⟨call.endpoint, some number⟩ ∈ t.callers ∨ t.cluster.IsDone number
  selections : ∀ (i : Nat) (e : PooledEndpoint), t.cluster.fleet[i]? = some e →
    e.selections.toNat = if s.countsWork then t.openAt i else 0

theorem openAt_le (t : Traffic) (endpoint : Nat) : t.openAt endpoint ≤ t.callers.length :=
  List.countP_le_length

/-- A calm change, after which there may be other callers. -/
theorem Attended.calm (ha : Attended s t) (h : Calm change t.cluster d)
    (hroom : callers.length < UInt64.size)
    (hcallers : ∀ caller ∈ callers, caller.endpoint < t.cluster.fleet.size)
    (hcalls : ∀ endpoint number, ⟨endpoint, some number⟩ ∈ t.callers →
      ⟨endpoint, some number⟩ ∈ callers ∨ t.cluster.IsDone number)
    (hselections : ∀ (i : Nat) (n : UInt64), n.toNat = (if s.countsWork then t.openAt i else 0) →
      (change i n).toNat = if s.countsWork then openAt ⟨d, callers⟩ i else 0) :
    Attended s ⟨d, callers⟩ := by
  refine ⟨ha.wired.calm h, hroom, fun caller hin => ?_, fun number call hcall => ?_, fun i e' he' => ?_⟩
  · exact h.fleet.size.symm ▸ hcallers caller hin
  · rw [call?_congr h.calls] at hcall
    have hdone : t.cluster.IsDone number → d.IsDone number := fun hdone => hdone.calm ha.wired h
    rcases ha.calls number call hcall with hin | hended
    · exact (hcalls _ _ hin).imp_right hdone
    · exact .inr (hdone hended)
  · obtain ⟨e, he, hgoes⟩ := h.fleet.back he'
    rw [hgoes.selections]
    exact hselections i _ (ha.selections i e he)

/-- A calm change that leaves the selections alone. -/
theorem Attended.still (ha : Attended s t) (h : Calm (fun _ n => n) t.cluster d) :
    Attended s { t with cluster := d } :=
  ha.calm h ha.room ha.callers (fun _ _ => .inl) fun _ _ hn => hn

theorem Attended.select (ha : Attended s t) {key : Option String} {m : Balancer.Member}
    (h : (t.cluster.select key).1 = .ok m) (hroom : t.callers.length + 1 < UInt64.size) :
    Attended s ⟨(t.cluster.select key).2, ⟨m.id, none⟩ :: t.callers⟩ := by
  obtain ⟨hcalm, hmem⟩ := calm_select ha.wired.fits h
  refine ha.calm hcalm hroom (fun caller hin => ?_)
    (fun _ _ hin => .inl (List.mem_cons_of_mem _ hin)) fun i n hn => ?_
  · rcases List.mem_cons.1 hin with rfl | hold
    · exact ha.wired.members m hmem
    · exact ha.callers caller hold
  · have hopen : openAt ⟨(t.cluster.select key).2, ⟨m.id, none⟩ :: t.callers⟩ i =
        t.openAt i + if i = m.id then 1 else 0 := by
      unfold openAt
      rw [List.countP_cons]
      simp only [beq_iff_eq, eq_comm (a := i)]
    have hle := t.openAt_le i
    rw [ha.wired.strategy, hopen]
    unfold counted
    by_cases hcounts : s.countsWork = true
    · rw [if_pos hcounts] at hn ⊢
      by_cases hi : i = m.id
      · rw [if_pos ⟨hcounts, hi⟩, if_pos hi, ← hn]
        exact Balancer.toNat_countUp (by omega)
      · rw [if_neg fun h => hi h.2, if_neg hi]
        exact hn
    · rw [if_neg fun h => hcounts h.1, hn]
      simp [hcounts]

theorem Attended.release (ha : Attended s t) {before after : List Caller} {endpoint number : Nat}
    (h : t.callers = before ++ ⟨endpoint, some number⟩ :: after)
    (hdone : t.cluster.IsDone number) :
    Attended s ⟨t.cluster.releaseActive endpoint, before ++ after⟩ := by
  have hroom := ha.room
  rw [h, List.length_append, List.length_cons] at hroom
  refine ha.calm (calm_releaseActive t.cluster endpoint) (by rw [List.length_append]; omega)
    (fun caller hin => ?_) (fun endpoint' other hin => ?_) fun i n hn => ?_
  · refine ha.callers caller ?_
    rw [h]
    exact List.mem_append.2 ((List.mem_append.1 hin).imp_right (List.mem_cons_of_mem _))
  · rw [h] at hin
    rcases List.mem_append.1 hin with hin | hin
    · exact .inl (List.mem_append_left _ hin)
    · rcases List.mem_cons.1 hin with hsame | hin
      · cases hsame
        exact .inr hdone
      · exact .inl (List.mem_append_right _ hin)
  · have hopen : t.openAt i = openAt ⟨t.cluster.releaseActive endpoint, before ++ after⟩ i +
        if i = endpoint then 1 else 0 := by
      unfold openAt
      rw [h, List.countP_append, List.countP_append, List.countP_cons]
      simp only [beq_iff_eq, eq_comm (a := i)]
      omega
    by_cases hi : i = endpoint
    · rw [if_pos hi, Balancer.toNat_countDown, hn, hopen, if_pos hi]
      split <;> rfl
    · rw [if_neg hi, hn, hopen, if_neg hi]
      rfl

/-- A pool makes a move that starts a call or ends a lease. -/
theorem Attended.move (ha : Attended s t) (hw : d.Wired s) (m : Pool.Move)
    (hd : d.fleet = (t.cluster.onPool i fun p => p.apply m).fleet)
    (hcalls : ∀ number call, t.cluster.call? number = some call → d.call? number = some call)
    (hfinished : ∀ number ∈ t.cluster.finished, number ∈ d.finished)
    (hcallers : callers.map Caller.endpoint = t.callers.map Caller.endpoint)
    (hattended : ∀ number call, d.call? number = some call → ⟨call.endpoint, some number⟩ ∈ callers ∨
      t.cluster.call? number = some call ∧ ⟨call.endpoint, some number⟩ ∉ t.callers) :
    Attended s ⟨d, callers⟩ := by
  have hsize : d.fleet.size = t.cluster.fleet.size := by
    rw [hd]
    exact Array.size_modify
  have hlater : ∀ (j : Nat) (e : PooledEndpoint), t.cluster.fleet[j]? = some e →
      ∃ e', d.fleet[j]? = some e' ∧ e'.selections = e.selections ∧
        ∀ event ∈ e.pool.history, event ∈ e'.pool.history := by
    intro j e he
    obtain ⟨o, -, hoccurs⟩ := ha.wired.occurs he
    rw [hd, getElem?_onPool, he]
    split
    · exact ⟨_, rfl, rfl, fun event hin => (Pool.mem_history_lasting event).apply hoccurs hin m⟩
    · exact ⟨e, rfl, rfl, fun _ hin => hin⟩
  have hlength : callers.length = t.callers.length := by
    simpa using congrArg List.length hcallers
  refine ⟨hw, hlength ▸ ha.room, fun caller hin => ?_, fun number call hcall => ?_,
    fun j e' he' => ?_⟩
  · have hmem : caller.endpoint ∈ t.callers.map Caller.endpoint :=
      hcallers ▸ List.mem_map_of_mem hin
    obtain ⟨caller', hin', hsame⟩ := List.mem_map.1 hmem
    rw [hsize, ← hsame]
    exact ha.callers caller' hin'
  · rcases hattended number call hcall with hin | ⟨hold, hnot⟩
    · exact .inl hin
    · have hdone := (ha.calls number call hold).resolve_left hnot
      refine .inr (hdone.mono hw (hcalls number) (hfinished number) fun j e he => ?_)
      obtain ⟨e', he', -, hkept⟩ := hlater j e he
      exact ⟨e', he', hkept⟩
  · have hj := hsize ▸ (Array.getElem?_eq_some_iff.1 he').1
    have he := Array.getElem?_eq_getElem hj
    obtain ⟨e'', he'', hselections, -⟩ := hlater j _ he
    cases he'.symm.trans he''
    have hopen : openAt ⟨d, callers⟩ j = t.openAt j := by
      have hcount := congrArg (List.countP (· == j)) hcallers
      rwa [List.countP_map, List.countP_map] at hcount
    rw [hselections, ha.selections j _ he, hopen]

theorem Attended.get (ha : Attended s t) {before after : List Caller} {endpoint : Nat}
    (cancelled : Bool) (h : t.callers = before ++ ⟨endpoint, none⟩ :: after) :
    Attended s ⟨t.cluster.get endpoint cancelled,
      before ++ ⟨endpoint, some (t.cluster.calls.size + 1)⟩ :: after⟩ := by
  have hlt : endpoint < t.cluster.fleet.size := ha.callers ⟨endpoint, none⟩ (by simp [h])
  have he := Array.getElem?_eq_getElem hlt
  have hd := get_eq he cancelled
  have hpush : ∀ number, (t.cluster.get endpoint cancelled).call? number =
      if number = t.cluster.calls.size + 1
        then some ⟨endpoint, t.cluster.fleet[endpoint].pool.getCount + 1⟩
        else t.cluster.call? number := by
    rw [hd]
    exact call?_push rfl
  refine ha.move (i := endpoint) (ha.wired.get he cancelled) (.get cancelled) (by rw [hd]; rfl)
    (fun number call hcall => ?_) (by rw [hd]; exact fun _ hin => hin) (by simp [h])
    fun number call hcall => ?_
  · have hle := le_size_of_call? hcall
    rw [hpush, if_neg (by omega), hcall]
  · rw [hpush] at hcall
    split at hcall
    · rename_i hlast
      cases hcall
      exact .inl (by simp [hlast])
    · by_cases hin : ⟨call.endpoint, some number⟩ ∈ t.callers
      · refine .inl ?_
        rw [h] at hin
        rcases List.mem_append.1 hin with hin | hin
        · exact List.mem_append_left _ hin
        · have hafter := (List.mem_cons.1 hin).resolve_left (by simp)
          exact List.mem_append_right _ (List.mem_cons_of_mem _ hafter)
      · exact .inr ⟨hcall, hin⟩

theorem Attended.drop (ha : Attended s t) (number : Nat) :
    Attended s { t with cluster := (t.cluster.drop number).2 } := by
  rcases drop_cases t.cluster number with hd | ⟨lease, -, hd⟩
  · rw [hd]
    exact ha
  · have hcalls : (t.cluster.drop number).2.calls = t.cluster.calls := by
      rw [hd]
      rfl
    refine ha.move (i := lease.endpoint) (ha.wired.drop number) (.release lease.connection)
      (by rw [hd]; rfl) (fun n call hcall => ?_) (fun n hin => ?_) rfl fun n call hcall => ?_
    · rwa [call?_congr hcalls]
    · rw [hd]
      exact List.mem_cons_of_mem _ hin
    · rw [call?_congr hcalls] at hcall
      exact (Decidable.em _).imp_right fun hnot => ⟨hcall, hnot⟩

/-- Nobody was given the new endpoint yet. -/
theorem Attended.push (ha : Attended s t) {plan : EndpointPlan} (hplan : plan.options.Unmarking) :
    Attended s { t with
      cluster := { t.cluster with fleet := t.cluster.fleet.push (plan.endpoint t.cluster.now) } } := by
  have hw := ha.wired.push hplan
  have hold : ∀ (i : Nat) (e : PooledEndpoint), t.cluster.fleet[i]? = some e →
      (t.cluster.fleet.push (plan.endpoint t.cluster.now))[i]? = some e := by
    intro i e he
    have hlt := (Array.getElem?_eq_some_iff.1 he).1
    rw [Array.getElem?_push, if_neg (by omega), he]
  refine ⟨hw, ha.room, fun caller hin => ?_, fun number call hcall => ?_, fun i e he => ?_⟩
  · rw [Array.size_push]
    exact Nat.lt_succ_of_lt (ha.callers caller hin)
  · refine (ha.calls number call hcall).imp_right fun hdone => ?_
    exact hdone.mono hw (fun _ h => h) (fun h => h) fun i e he => ⟨e, hold i e he, fun _ h => h⟩
  · rw [Array.getElem?_push] at he
    split at he
    · rename_i hi
      cases he
      have hnobody : t.openAt i = 0 := by
        refine List.countP_eq_zero.2 fun caller hin => ?_
        have hlt := ha.callers caller hin
        simp only [beq_iff_eq]
        omega
      show 0 = if s.countsWork then t.openAt i else 0
      rw [hnobody, ite_self]
    · exact ha.selections i e he

theorem Attended.next (ha : Attended s t) (hn : t.Next t') : Attended s t' := by
  cases hn with
  | select key h hroom => exact ha.select h hroom
  | get cancelled h hnumber => exact hnumber ▸ ha.get cancelled h
  | drop number => exact ha.drop number
  | discard number =>
    unfold Cluster.discard
    split
    · exact ha
    · exact (ha.still (calm_apply (m := .closeConnection _) rfl)).drop number
  | release h hdone => exact ha.release h hdone
  | pool endpoint m hm => exact ha.still (calm_apply hm)
  | settle => exact ha.still (calm_settle _)
  | advance ms => exact ha.still (ha.wired.calm_advance ms)
  | add plan h => exact (ha.push h).still (calm_register _ _)
  | register endpoint => exact ha.still (calm_register _ endpoint)
  | remove addr => exact ha.still (calm_remove ha.wired.addrs addr)
  | close => exact ha.still (calm_close _)

theorem attended_build {virtualNodes : Nat} {plans : List EndpointPlan}
    (hplans : ∀ plan ∈ plans, plan.options.Unmarking)
    (h : Cluster.build s virtualNodes plans = .ok c) : Attended s ⟨c, []⟩ := by
  refine ⟨wired_build hplans h, show 0 < UInt64.size by decide, nofun,
    fun number call hcall => ?_, fun i e he => ?_⟩
  · obtain ⟨balancer, -, rfl⟩ := build_eq h
    simp [call?_eq_some_iff] at hcall
  · obtain ⟨plan, -, rfl⟩ := endpoint_build h he
    exact (ite_self 0).symm

theorem Reachable.attended (ht : Reachable s t) : Attended s t := by
  induction ht with
  | build hplans h => exact attended_build hplans h
  | next _ hn ih => exact ih.next hn

/-! ## The load of an endpoint -/

/-- Every connection that is held belongs to a caller. -/
theorem Attended.liveGuards_le (ha : Attended s t) (i : Nat) :
    t.cluster.liveGuards i ≤ t.openAt i := by
  let live := (List.range' 1 t.cluster.calls.size).filter fun number =>
    ((t.cluster.lease? number).map fun lease => lease.endpoint == i).getD false
  let mine := t.callers.filter fun caller => caller.endpoint == i
  have hguards : t.cluster.liveGuards i = live.length := by
    unfold liveGuards leases
    rw [List.countP_filterMap, List.countP_eq_length_filter]
  have hsub : live ⊆ mine.filterMap Caller.call := by
    intro number hin
    have htest := (List.mem_filter.1 hin).2
    cases hlease : t.cluster.lease? number with
    | none =>
      rw [hlease] at htest
      cases htest
    | some lease =>
      rw [hlease] at htest
      obtain rfl : lease.endpoint = i := beq_iff_eq.1 htest
      obtain ⟨-, n, e, hcall, -⟩ := lease?_eq_some_iff.1 hlease
      have hmem := (ha.calls number _ hcall).resolve_right fun hdone => by
        cases hlease.symm.trans hdone.lease?_eq_none
      exact List.mem_filterMap.2
        ⟨_, List.mem_filter.2 ⟨hmem, beq_self_eq_true lease.endpoint⟩, rfl⟩
  have hlength : live.length ≤ (mine.filterMap Caller.call).length :=
    ((List.Nodup.filter _ List.nodup_range').subperm hsub).length_le
  have hmine : mine.length = t.openAt i := List.countP_eq_length_filter.symm
  have hcalls := List.length_filterMap_le Caller.call mine
  omega

/-- With every caller gone, no admitted call is under way. -/
theorem Attended.admittedGets_eq_zero (ha : Attended s t) (hcallers : t.callers = [])
    {e : PooledEndpoint} (he : t.cluster.fleet[i]? = some e) : e.pool.admittedGets = 0 := by
  obtain ⟨o, -, hoccurs⟩ := ha.wired.occurs he
  refine List.countP_eq_zero.2 fun w hw hadmitted => ?_
  obtain ⟨n, hn⟩ : ∃ n, w.call? = some n := by
    cases w with
    | admitted n => exact ⟨n, rfl⟩
    | dialed caller attempt fault =>
      cases caller with
      | get n => exact ⟨n, rfl⟩
      | _ => cases hadmitted
    | _ => cases hadmitted
  have hturn : 0 < e.pool.turns n := List.countP_pos_iff.2 ⟨w, hw, beq_iff_eq.2 hn⟩
  have hmade : 0 < n ∧ n ≤ e.pool.getCount := hoccurs.called.made (by omega)
  obtain ⟨number, hcall⟩ :=
    mem_calls_iff_call?.1 ((ha.wired.mem_calls_iff ⟨i, n⟩).2 ⟨e, he, hmade⟩)
  have hdone := (ha.calls number _ hcall).resolve_left (by simp [hcallers])
  have hended := hdone.endings_pos ha.wired hcall he
  have hplaces := hoccurs.called.places_le n
  omega

/-- With every caller gone, nothing is active or checked out. -/
theorem Attended.idle (ha : Attended s t) (hcallers : t.callers = []) {e : PooledEndpoint}
    (he : t.cluster.fleet[i]? = some e) : e.active = 0 ∧ e.pool.stats.inUseConns = 0 := by
  have hguards : e.pool.stats.inUseConns = t.cluster.liveGuards i := ha.wired.inUse_eq he
  have hactive : e.active = max e.selections.toNat e.pool.stats.inUseConns := rfl
  have hle := ha.liveGuards_le i
  have hopen : t.openAt i = 0 := by
    unfold openAt
    rw [hcallers]
    rfl
  have hnone : e.selections.toNat = 0 := by rw [ha.selections i e he, hopen, ite_self]
  omega

/-- For every strategy and any endpoints, as callers come and go in any order:

* the connections that are checked out of an endpoint are those that its calls
  hold;
* under a strategy that counts the work it routes, an endpoint is as active as
  it has callers, which are at least as many as hold a connection;
* under the others it is as active as it has connections checked out;
* when every caller has released its endpoint, nothing is active or checked
  out, and each slot is free or with a top-up. -/
theorem load_follows_callers (ht : Reachable s t) {e : PooledEndpoint}
    (he : t.cluster.fleet[i]? = some e) :
    e.pool.stats.inUseConns = t.cluster.liveGuards i ∧
    (s.countsWork = true → e.active = t.openAt i ∧ t.cluster.liveGuards i ≤ t.openAt i) ∧
    (s.countsWork = false → e.active = t.cluster.liveGuards i) ∧
    (t.callers = [] → e.active = 0 ∧ e.pool.stats.inUseConns = 0 ∧
      e.pool.slots + e.pool.topUps = e.pool.options.poolSize) := by
  have ha := ht.attended
  have hguards : e.pool.counters.inUse = t.cluster.liveGuards i := ha.wired.inUse_eq he
  have hle := ha.liveGuards_le i
  have hselections := ha.selections i e he
  have hactive : e.active = max e.selections.toNat (t.cluster.liveGuards i) := by
    unfold PooledEndpoint.active
    rw [hguards]
  refine ⟨hguards, fun hcounts => ?_, fun hplain => ?_, fun hcallers => ?_⟩
  · rw [if_pos hcounts] at hselections
    exact ⟨by omega, hle⟩
  · rw [if_neg (Bool.eq_false_iff.1 hplain)] at hselections
    omega
  · obtain ⟨hidle, hreturned⟩ := ha.idle hcallers he
    obtain ⟨o, ho, hs⟩ := ha.wired.sessions i e he
    have hpool : Pool.Reachable o e.pool := hs.pool
    obtain ⟨hslots, hgauge, -⟩ := Pool.slots_conserved ho hpool
    have hadmitted := ha.admittedGets_eq_zero hcallers he
    have hinUse : e.pool.stats.inUseConns = e.pool.counters.inUse := rfl
    rw [hpool.occurs.options_eq]
    exact ⟨hidle, hreturned, by omega⟩

/-- One caller holds a connection of `a` when another is given `b`.  The call of the
other is cancelled; once both have released their endpoints, all is free again. -/
theorem load_follows_callers_two_callers :
    let plan (addr : String) : EndpointPlan :=
      { addr, options := { poolSize := 1, minIdle := 0 }, dialer := fun _ => .answer 0 none }
    ∃ start, Cluster.build .leastConnection 1 [plan "a", plan "b"] = .ok start ∧
      let held := ((start.select none).2.get 0 false).onPool 0 fun p => p.apply .turn
      let t : Traffic := ⟨(held.select none).2, [⟨1, none⟩, ⟨0, some 1⟩]⟩
      let freed := (t.cluster.drop 1).2.releaseActive 0
      let gone := (freed.get 1 true).onPool 1 fun p => p.apply .turn
      let t' : Traffic := ⟨gone.releaseActive 1, []⟩
      (∃ e, t.cluster.fleet[0]? = some e ∧ t.cluster.liveGuards 0 = 1 ∧
        e.pool.stats.inUseConns = 1 ∧ e.active = 1) ∧
      (∃ e, t.cluster.fleet[1]? = some e ∧ t.cluster.liveGuards 1 = 0 ∧
        e.pool.stats.inUseConns = 0 ∧ e.active = 1) ∧
      ∃ e, t'.cluster.fleet[1]? = some e ∧ e.active = 0 ∧ e.pool.stats.inUseConns = 0 ∧
        e.pool.slots + e.pool.topUps = e.pool.options.poolSize := by
  intro plan
  have hplans : ∀ p ∈ [plan "a", plan "b"], p.options.Unmarking := by
    simp only [List.forall_mem_cons, List.not_mem_nil, false_imp_iff, implies_true, and_true]
    exact ⟨Pool.Options.unmarking_of_nil rfl, Pool.Options.unmarking_of_nil rfl⟩
  refine ⟨_, rfl, ?_⟩
  have hstart := @Reachable.build .leastConnection 1 _ _ hplans rfl
  have hcounts : Strategy.leastConnection.countsWork = true := rfl
  intro held t freed gone t'
  -- The steps, before the cluster is looked at.
  have hrun : ∀ start : Cluster, Reachable .leastConnection ⟨start, []⟩ →
      let held := ((start.select none).2.get 0 false).onPool 0 fun p => p.apply .turn
      let t : Traffic := ⟨(held.select none).2, [⟨1, none⟩, ⟨0, some 1⟩]⟩
      let freed := (t.cluster.drop 1).2.releaseActive 0
      let gone := (freed.get 1 true).onPool 1 fun p => p.apply .turn
      (start.select none).1 = .ok ⟨0, "a"⟩ → (start.select none).2.calls.size = 0 →
      (held.select none).1 = .ok ⟨1, "b"⟩ → (t.cluster.drop 1).2.IsDone 1 →
      freed.calls.size = 1 → gone.IsDone 2 →
      Reachable .leastConnection t ∧ Reachable .leastConnection ⟨gone.releaseActive 1, []⟩ := by
    intro start hstart held t freed gone hfirst hnew hsecond hdropped hmade hcancelled
    have hserved := ((hstart.next (.select none hfirst (show 1 < UInt64.size by decide))).next
      (@Next.get _ [] [] 0 1 false rfl (congrArg (· + 1) hnew))).next (.pool 0 .turn rfl)
    have ht : Reachable .leastConnection t :=
      hserved.next (.select none (m := ⟨1, "b"⟩) hsecond (show 2 < UInt64.size by decide))
    have hfreed := (ht.next (.drop 1)).next (@Next.release _ [⟨1, none⟩] [] 0 1 rfl hdropped)
    have hgone := (hfreed.next (@Next.get _ [] [] 1 2 true rfl (congrArg (· + 1) hmade))).next
      (.pool 1 .turn rfl)
    exact ⟨ht, hgone.next (@Next.release _ [] [] 1 2 rfl hcancelled)⟩
  obtain ⟨ht, ht'⟩ : Reachable .leastConnection t ∧ Reachable .leastConnection t' :=
    hrun _ hstart (by decide +kernel) (by decide +kernel) (by decide +kernel)
      (.inl (by decide +kernel)) (by decide +kernel) (.inr ⟨.cancelled, by decide +kernel⟩)
  have hfleet : ∀ {c : Cluster} {i : Nat}, i < c.fleet.size → ∃ e, c.fleet[i]? = some e :=
    fun h => ⟨_, Array.getElem?_eq_getElem h⟩
  obtain ⟨a, ha⟩ := hfleet (c := t.cluster) (i := 0) (by decide +kernel)
  obtain ⟨b, hb⟩ := hfleet (c := t.cluster) (i := 1) (by decide +kernel)
  obtain ⟨b', hb'⟩ := hfleet (c := t'.cluster) (i := 1) (by decide +kernel)
  have hlive : t.cluster.liveGuards 0 = 1 := by decide +kernel
  have hnone : t.cluster.liveGuards 1 = 0 := by decide +kernel
  obtain ⟨hinUse, hactive, -⟩ := load_follows_callers ht ha
  obtain ⟨hinUse', hactive', -⟩ := load_follows_callers ht hb
  obtain ⟨-, -, -, hidle⟩ := load_follows_callers ht' hb'
  have hopen : t.openAt 0 = 1 ∧ t.openAt 1 = 1 := by decide +kernel
  exact ⟨⟨a, ha, hlive, hinUse.trans hlive, (hactive hcounts).1.trans hopen.1⟩,
    ⟨b, hb, hnone, hinUse'.trans hnone, (hactive' hcounts).1.trans hopen.2⟩, b', hb', hidle rfl⟩

end Traffic

end PooledRouting
