import PooledRouting.Balancer.PlainEndpoint
import PooledRouting.Proofs.Balancer.InPlace

/-!
# The contract of a registry

The seven strategies share one registry, and with it one contract: whom it
lists, what its calls change, and when it closes an endpoint.  `Contract`
says what holds at a point of a run, in five groups.

* The list is what the answers of the calls say: an endpoint that was added
  goes to the end, one that was removed is taken out.  No two addresses are
  the same.
* A call that fails changes nothing, although the calls work in place
  (`InPlace`).
* A selection answers with a registered endpoint, and it answers whenever
  there is one.
* After the first closing every addition and every selection fails.
* The first closing closes every registered endpoint once, in order, also
  after a failure, and reports the first one.  Nothing else closes an
  endpoint.

`Closes` is the account of calls of `close` that the last group needs; the
others rest on what each move does to the members (`Runs`) and on the state
that fits them (`Choosing`).  `registry_contract` is the result.
-/

namespace PooledRouting.Balancer

variable {ε : Type} [Endpoint ε]

/-! ## Closing endpoints -/

/-- Calls of `close` one after the other, each with the number of the
endpoint and its result. -/
inductive Closes : Fleet ε → List (Nat × Except Pool.Fault Unit) → Fleet ε → Prop
  | nil (fleet : Fleet ε) : Closes fleet [] fleet
  | cons {fleet fleet' : Fleet ε} {id : Nat} {e : ε} {calls : List (Nat × Except Pool.Fault Unit)}
      (he : fleet[id]? = some e)
      (hrest : Closes (fleet.setIfInBounds id (Endpoint.close e).2) calls fleet') :
      Closes fleet ((id, (Endpoint.close e).1) :: calls) fleet'

/-- The failure in the result of a call. -/
def failure? : Except Pool.Fault Unit → Option Pool.Fault
  | .ok () => none
  | .error fault => some fault

/-- The first failure among the calls, or success. -/
def firstFailure (calls : List (Nat × Except Pool.Fault Unit)) : Except Pool.Fault Unit :=
  (calls.findSome? fun call => failure? call.2).elim (.ok ()) .error

theorem getElem?_after_close {fleet : Fleet ε} {id : Nat} {e : ε} (he : fleet[id]? = some e)
    (other : Nat) :
    (fleet.setIfInBounds id (Endpoint.close e).2)[other]? =
      if other = id then fleet[other]?.map fun e => (Endpoint.close e).2 else fleet[other]? := by
  obtain ⟨hid, rfl⟩ := Array.getElem?_eq_some_iff.1 he
  by_cases h : other = id
  · subst h
    simp [hid]
  · have h' : id ≠ other := fun heq => h heq.symm
    simp [h, h']

/-- An endpoint that is called once has been through `close` once, and the
others are as they were. -/
theorem Closes.getElem? {fleet fleet' : Fleet ε} {calls : List (Nat × Except Pool.Fault Unit)}
    (h : Closes fleet calls fleet') (honce : (calls.map Prod.fst).Nodup) (id : Nat) :
    fleet'[id]? = if id ∈ calls.map Prod.fst then fleet[id]?.map fun e => (Endpoint.close e).2
      else fleet[id]? := by
  induction h with
  | nil fleet => rfl
  | @cons fleet fleet' id' e calls he _ ih =>
    obtain ⟨hnew, honce⟩ := List.nodup_cons.1 honce
    rw [ih honce, getElem?_after_close he, List.map_cons]
    by_cases h : id = id'
    · subst h
      rw [if_neg hnew, if_pos rfl, if_pos List.mem_cons_self]
    · simp only [List.mem_cons, h, false_or, if_false]

/-- Closing all is to close one after the other, and the first failure is
reported. -/
theorem closeAll_closes {ids : List Nat} {fleet : Fleet ε}
    (hids : ∀ id ∈ ids, ∃ e, fleet[id]? = some e) :
    ∃ calls fleet', Fleet.closeAll fleet ids = (firstFailure calls, fleet') ∧
      Closes fleet calls fleet' ∧ calls.map Prod.fst = ids := by
  induction ids generalizing fleet with
  | nil => exact ⟨[], fleet, rfl, .nil fleet, rfl⟩
  | cons id ids ih =>
    obtain ⟨⟨e, he⟩, hrest⟩ := List.forall_mem_cons.1 hids
    have hthere : ∀ id' ∈ ids, ∃ e',
        (fleet.setIfInBounds id (Endpoint.close e).2)[id']? = some e' := by
      intro id' hid'
      obtain ⟨e', he'⟩ := hrest id' hid'
      rw [getElem?_after_close he, he']
      split <;> exact ⟨_, rfl⟩
    obtain ⟨calls, fleet', hrun, hcloses, hnumbers⟩ := ih hthere
    refine ⟨_, fleet', ?_, .cons he hcloses, by rw [List.map_cons, hnumbers]⟩
    unfold Fleet.closeAll Fleet.close
    rw [he]
    dsimp only
    rw [hrun]
    unfold firstFailure
    rw [List.findSome?_cons]
    cases (Endpoint.close e).1 <;> rfl

/-! ## What the answers say -/

/-- The endpoint with a number has this address. -/
def Move.Named (addr : Nat → String) : Move ε → Prop
  | .add _ m => m.addr = addr m.id
  | _ => True

/-- The list of one who hears the answer of the call: what was added is put
at the end, and what was removed is taken out. -/
def note (b : Balancer) (heard : List Member) : Move ε → List Member
  | .add fleet m =>
    match b.add fleet m with
    | .ok _ => heard ++ [m]
    | .error _ => heard
  | .remove addr =>
    match b.remove? addr with
    | some (m, _) => heard.erase m
    | none => heard
  | .select _ _ => heard
  | .close _ => heard

/-- The list of one who hears the answers of all calls. -/
def reported (b : Balancer) (heard : List Member) : List (Move ε) → List Member
  | [] => heard
  | move :: moves => reported (b.apply move) (b.note heard move) moves

variable {b : Balancer}

/-- To take out the member with an address is to keep the others. -/
theorem erase_eq_others (hb : b.addrs.Nodup) {m : Member} (hm : m ∈ b.members) :
    b.members.erase m = b.others m.addr := by
  rw [(nodup_members hb).erase_eq_filter]
  refine List.filter_congr fun m' hm' => ?_
  have hsame : m'.addr = m.addr ↔ m' = m :=
    ⟨fun heq => List.inj_on_of_nodup_map hb hm' hm heq, fun heq => heq ▸ rfl⟩
  rw [Bool.eq_iff_iff, bne_iff_ne, bne_iff_ne, Ne, Ne, hsame]

theorem members_apply (hb : b.addrs.Nodup) (move : Move ε) :
    (b.apply move).members = b.note b.members move := by
  cases move with
  | add fleet m =>
    rw [apply_add]
    rcases add_cases b fleet m with ⟨-, fault, hfault⟩ | ⟨-, -, -, hok⟩
    · simp only [note, hfault, Except.toOption, Option.getD_none]
    · simp only [note, hok, Except.toOption, Option.getD_some]
  | remove addr =>
    rw [apply_remove]
    rcases remove?_cases hb addr with ⟨-, hnone⟩ | ⟨i, m, hm, rfl, hsome⟩
    · simp only [note, hnone, Option.elim_none]
    · simp only [note, hsome, Option.elim_some]
      exact (erase_eq_others hb (List.mem_of_getElem? hm)).symm
  | select fleet key =>
    rw [apply_select_frame]
    rfl
  | close fleet =>
    rw [apply_close]
    rfl

theorem members_after (hb : b.addrs.Nodup) (moves : List (Move ε)) :
    (b.after moves).members = b.reported b.members moves := by
  induction moves generalizing b with
  | nil => rfl
  | cons move moves ih =>
    unfold reported
    rw [← members_apply hb move]
    exact ih (nodup_addrs_apply hb move)

/-! ## Runs -/

theorem named_apply {addr : Nat → String} (hb : b.addrs.Nodup)
    (h : ∀ m ∈ b.members, m.addr = addr m.id) {move : Move ε} (hmove : move.Named addr) :
    ∀ m ∈ (b.apply move).members, m.addr = addr m.id := by
  intro m hm
  cases move with
  | add fleet m' =>
    rcases (apply_add_frame b fleet m').2 with hsame | ⟨-, hadded⟩
    · exact h m (hsame ▸ hm)
    · rw [hadded] at hm
      rcases List.mem_append.1 hm with hm | hm
      · exact h m hm
      · rw [List.mem_singleton.1 hm]
        exact hmove
  | remove addr' =>
    rw [(apply_remove_frame hb addr').1] at hm
    exact h m (List.mem_of_mem_filter hm)
  | select fleet key =>
    rw [apply_select_frame] at hm
    exact h m hm
  | close fleet =>
    rw [apply_close] at hm
    exact h m hm

theorem named_after {addr : Nat → String} (hb : b.addrs.Nodup)
    (h : ∀ m ∈ b.members, m.addr = addr m.id) {moves : List (Move ε)}
    (hmoves : ∀ move ∈ moves, move.Named addr) :
    ∀ m ∈ (b.after moves).members, m.addr = addr m.id := by
  induction moves generalizing b with
  | nil => exact h
  | cons move moves ih =>
    obtain ⟨hmove, hrest⟩ := List.forall_mem_cons.1 hmoves
    exact ih (nodup_addrs_apply hb move) (named_apply hb h hmove) hrest

/-- Different addresses, different endpoints. -/
theorem nodup_ids {addr : Nat → String} (hb : b.addrs.Nodup)
    (h : ∀ m ∈ b.members, m.addr = addr m.id) : b.ids.Nodup := by
  have haddrs : b.ids.map addr = b.addrs := by
    rw [Registry.ids, List.map_map]
    exact List.map_congr_left fun m hm => (h m hm).symm
  exact List.Nodup.of_map addr (haddrs ▸ hb)

theorem closed_apply_iff (hb : b.addrs.Nodup) (move : Move ε) :
    (b.apply move).closed = true ↔ b.closed = true ∨ ∃ fleet, move = .close fleet := by
  cases move with
  | add fleet m =>
    rw [(apply_add_frame b fleet m).1]
    simp
  | remove addr =>
    rw [(apply_remove_frame hb addr).2]
    simp
  | select fleet key =>
    rw [apply_select_frame]
    simp
  | close fleet =>
    rw [apply_close]
    simp

/-- A balancer is closed once there has been a closing, and stays so. -/
theorem closed_after_iff (hb : b.addrs.Nodup) (moves : List (Move ε)) :
    (b.after moves).closed = true ↔ b.closed = true ∨ ∃ fleet, .close fleet ∈ moves := by
  induction moves generalizing b with
  | nil => simp [after]
  | cons move moves ih =>
    have hrest := ih (nodup_addrs_apply hb move)
    rw [closed_apply_iff hb move] at hrest
    show ((b.apply move).after moves).closed = true ↔ _
    rw [hrest, or_assoc]
    refine or_congr_right ?_
    simp only [List.mem_cons, eq_comm (b := move), exists_or]

/-! ## The calls at one point of a run -/

/-- An endpoint is put at the end, or it is refused and nothing changes. -/
def AddsOrRefuses (b : Balancer) (fleet : Fleet ε) (m : Member) : Prop :=
  (∃ fault, b.add fleet m = .error fault ∧
    (InPlace.add m).run ⟨b, fleet⟩ = .error fault ⟨b, fleet⟩) ∨
  ∃ b', b.add fleet m = .ok b' ∧
    (InPlace.add m).run ⟨b, fleet⟩ = .ok () ⟨b', fleet⟩ ∧ b'.members = b.members ++ [m]

/-- A selection answers with a registered endpoint, or it fails and nothing
changes.  It fails only without an open balancer, an endpoint or a key. -/
def SelectsOrRefuses (b : Balancer) (fleet : Fleet ε) (key : Option String) : Prop :=
  ((b.closed = true ∨ b.members = [] ∨ b.strategy.needsKey = true ∧ key = none) ∧
    ∃ fault, b.select fleet key = .error fault ∧
      (InPlace.select key).run ⟨b, fleet⟩ = .error fault ⟨b, fleet⟩) ∨
  ∃ x, b.select fleet key = .ok x ∧
    (InPlace.select key).run ⟨b, fleet⟩ = .ok x.member ⟨x.balancer, x.fleet⟩ ∧
    x.member ∈ b.members ∧ x.balancer.members = b.members ∧
    (x.fleet = fleet ∨ x.fleet = fleet.addActive x.member.id)

/-- A closing calls `close` once for each registered endpoint, in order, and
reports the first failure. -/
def ClosesAll (b : Balancer) (fleet : Fleet ε) : Prop :=
  ∃ calls fleet',
    Registry.close b fleet =
      ((firstFailure calls).mapError .endpoint, { b with closed := true }, fleet') ∧
    Closes fleet calls fleet' ∧ calls.map Prod.fst = b.ids ∧ b.ids.Nodup ∧
    ∀ id, fleet'[id]? =
      if id ∈ b.ids then fleet[id]?.map fun e => (Endpoint.close e).2 else fleet[id]?

theorem adds_or_refuses (b : Balancer) (fleet : Fleet ε) (m : Member) :
    b.AddsOrRefuses fleet m := by
  have hrun := InPlace.run_add ⟨b, fleet⟩ m
  rcases add_cases b fleet m with ⟨-, fault, hfault⟩ | ⟨-, -, -, hok⟩
  · rw [hfault] at hrun
    exact .inl ⟨fault, hfault, hrun⟩
  · rw [hok] at hrun
    exact .inr ⟨_, hok, hrun, rfl⟩

theorem selects_or_refuses (h : b.state.Fits b.members) (fleet : Fleet ε) (key : Option String) :
    b.SelectsOrRefuses fleet key := by
  have hrun := InPlace.run_select ⟨b, fleet⟩ h key
  rcases select_of_fits h fleet key with ⟨hwhy, fault, hfault⟩ | ⟨⟨-, hne, -⟩, x, hx, hok⟩
  · rw [hfault] at hrun
    exact .inl ⟨hwhy, fault, hfault, hrun⟩
  · obtain ⟨y, hy, hmem, -, hfleet⟩ := choose?_of_fits h hne fleet (key.getD "")
    obtain rfl := Option.some.inj (hx.symm.trans hy)
    rw [hok] at hrun
    exact .inr ⟨x, hok, hrun, hmem, by rw [choose?_frame hx], hfleet⟩

/-- A removal leaves every endpoint alone. -/
theorem run_remove_apply (b : Balancer) (fleet : Fleet ε) (addr : String) :
    ∃ answer, (InPlace.remove addr).run ⟨b, fleet⟩ =
      .ok answer ⟨b.apply (.remove addr : Move ε), fleet⟩ := by
  have hrun := InPlace.run_remove ⟨b, fleet⟩ addr
  rw [apply_remove]
  cases hx : b.remove? addr with
  | none =>
    rw [hx] at hrun
    exact ⟨none, hrun⟩
  | some x =>
    rw [hx] at hrun
    exact ⟨some x.1, hrun⟩

theorem add_of_closed (hclosed : b.closed = true) (fleet : Fleet ε) (m : Member) :
    ∃ fault, b.add fleet m = .error fault := by
  rcases add_cases b fleet m with ⟨-, hfault⟩ | ⟨-, hopen, -⟩
  · exact hfault
  · cases hclosed.symm.trans hopen

theorem select_of_closed (hclosed : b.closed = true) (fleet : Fleet ε) (key : Option String) :
    b.select fleet key = .error .closed := by
  unfold select Registry.checkSelectable
  rw [if_pos hclosed]

theorem close_of_closed (hclosed : b.closed = true) (fleet : Fleet ε) :
    Registry.close b fleet = (.ok (), b, fleet) := by
  unfold Registry.close
  rw [if_pos hclosed]

theorem closes_all (hopen : b.closed = false) (hids : b.ids.Nodup) {fleet : Fleet ε}
    (hfleet : ∀ id ∈ b.ids, ∃ e, fleet[id]? = some e) : b.ClosesAll fleet := by
  obtain ⟨calls, fleet', hrun, hcloses, hnumbers⟩ := closeAll_closes hfleet
  refine ⟨calls, fleet', ?_, hcloses, hnumbers, hids, fun id => ?_⟩
  · unfold Registry.close
    rw [if_neg (Bool.eq_false_iff.1 hopen), hrun]
  · rw [hcloses.getElem? (hnumbers ▸ hids), hnumbers]

/-! ## The contract -/

/-- What a registry promises at the point of a run from `start` that these
moves lead to, whatever the fleet looks like then. -/
structure Contract (start : Balancer) (moves : List (Move ε)) : Prop where
  /-- No two registered addresses are the same. -/
  distinct : (start.after moves).addrs.Nodup
  /-- The registered endpoints are those that were added and not removed, in
  the order in which they were added. -/
  listed : (start.after moves).members = start.reported [] moves
  adds : ∀ (fleet : Fleet ε) (m : Member), (start.after moves).AddsOrRefuses fleet m
  selects : ∀ (fleet : Fleet ε) (key : Option String),
    (start.after moves).SelectsOrRefuses fleet key
  /-- A removal changes no endpoint. -/
  removes : ∀ (fleet : Fleet ε) (addr : String), ∃ answer,
    (InPlace.remove addr).run ⟨start.after moves, fleet⟩ =
      .ok answer ⟨(start.after moves).apply (.remove addr : Move ε), fleet⟩
  /-- After a closing, additions and selections fail, and another closing
  does nothing. -/
  stays_closed : (∃ fleet : Fleet ε, .close fleet ∈ moves) →
    let b := start.after moves
    (∀ (fleet : Fleet ε) (m : Member), ∃ fault, b.add fleet m = .error fault) ∧
    (∀ (fleet : Fleet ε) (key : Option String), b.select fleet key = .error .closed) ∧
    ∀ fleet : Fleet ε, Registry.close b fleet = (.ok (), b, fleet)
  /-- The first closing closes every endpoint that is registered then. -/
  closes : (∀ fleet : Fleet ε, .close fleet ∉ moves) → ∀ fleet : Fleet ε,
    (∀ id ∈ (start.after moves).ids, ∃ e, fleet[id]? = some e) →
      (start.after moves).ClosesAll fleet

/-- Every strategy keeps the contract, through additions, removals,
selections and closings in any order and number, of any endpoints and with
any keys.  An endpoint only has to keep its address. -/
theorem registry_contract (s : Strategy) (virtualNodes : Nat) (addr : Nat → String)
    {moves : List (Move ε)} (hmoves : ∀ move ∈ moves, move.Named addr) :
    (create s virtualNodes).Contract moves := by
  have hnew : (create s virtualNodes).addrs.Nodup := List.nodup_nil
  have hnodup := nodup_addrs_after hnew moves
  have hclosed := closed_after_iff hnew moves
  constructor
  case distinct => exact hnodup
  case listed => exact members_after hnew moves
  case adds => exact adds_or_refuses _
  case selects =>
    exact selects_or_refuses (fits_after hnew (Policy.fits_initial virtualNodes s) moves)
  case removes => exact run_remove_apply _
  case stays_closed =>
    intro hclosing
    have hclosed := hclosed.2 (.inr hclosing)
    exact ⟨add_of_closed hclosed, select_of_closed hclosed, close_of_closed hclosed⟩
  case closes =>
    intro hnone fleet hfleet
    have hopen : ((create s virtualNodes).after moves).closed = false := by
      refine Bool.eq_false_iff.2 fun h => ?_
      rcases hclosed.1 h with h | ⟨fleet, hfleet⟩
      · cases h
      · exact hnone fleet hfleet
    have hnamed := named_after hnew (fun _ hm => nomatch hm) hmoves
    exact closes_all hopen (nodup_ids hnodup hnamed) hfleet

/-- `b` is added again after it was removed, and the weight of `d` is refused.
Closing `a` fails, and `c` and `b` are closed all the same. -/
theorem registry_contract_failed_closing :
    let fleet : Fleet PlainEndpoint :=
      #[{ addr := "a", closeFault := some .cancelled }, { addr := "b" }, { addr := "c" },
        { addr := "d", weight := 0 }]
    let moves : List (Move PlainEndpoint) :=
      [.add fleet ⟨0, "a"⟩, .add fleet ⟨1, "b"⟩, .select fleet none, .add fleet ⟨2, "c"⟩,
        .remove "b", .add fleet ⟨3, "d"⟩, .add fleet ⟨1, "b"⟩, .add fleet ⟨1, "b"⟩]
    let b := (create .weightedRoundRobin 1).after moves
    b.members = [⟨0, "a"⟩, ⟨2, "c"⟩, ⟨1, "b"⟩] ∧
      ∃ calls fleet',
        Registry.close b fleet =
          ((firstFailure calls).mapError .endpoint, { b with closed := true }, fleet') ∧
        Closes fleet calls fleet' ∧ calls.map Prod.fst = [0, 2, 1] ∧
        fleet'[0]? = some { addr := "a", closeFault := some .cancelled, closes := 1 } ∧
        fleet'[3]? = some { addr := "d", weight := 0 } := by
  intro fleet moves b
  have hmoves : ∀ move ∈ moves, move.Named fun id => ["a", "b", "c", "d"].getD id "" := by
    simp [moves, Move.Named]
  have hcontract := registry_contract .weightedRoundRobin 1 _ hmoves
  have hmembers : b.members = [⟨0, "a"⟩, ⟨2, "c"⟩, ⟨1, "b"⟩] := by decide +kernel
  have hids : b.ids = [0, 2, 1] := by
    rw [Registry.ids, hmembers]
    rfl
  have hopen : ∀ fleet' : Fleet PlainEndpoint, .close fleet' ∉ moves := by
    simp [moves]
  have hfleet : ∀ id ∈ b.ids, ∃ e, fleet[id]? = some e := by
    rw [hids]
    simp [fleet]
  obtain ⟨calls, fleet', hrun, hcloses, hnumbers, -, hendpoints⟩ :=
    hcontract.closes hopen fleet hfleet
  rw [hids] at hnumbers
  refine ⟨hmembers, calls, fleet', hrun, hcloses, hnumbers, ?_, ?_⟩
  · rw [hendpoints 0, if_pos (by simp [b, hids])]
    rfl
  · rw [hendpoints 3, if_neg (by simp [b, hids])]
    rfl

end PooledRouting.Balancer
