import PooledRouting.Proofs.Balancer.InWords

/-!
# Selections in a row

While no endpoint comes or goes, a balancer answers one request after the
other.  `selectAll` is the run: the members that it chose, in order, and the
balancer that is left.

An open smooth rotation with members (`Rotates`) refuses nobody.  Its run is
a run of turns in the sense of `SmoothWeights.Turns` (`Rotates.selectAll_eq`),
with the place of a member for the member; a member is chosen as often as its
place has a turn (`count_of_places`).

`selectAllInWords?` is the run in words.  It has the same answers as far as it
comes (`selectAll_of_inWords`), and it comes to its end where no turn overflows
(`RunsInWords.selectAllInWords?_eq`), as in a rotation with small weights
(`Rotates.runsInWords`).
-/

namespace PooledRouting.Balancer

variable {ε : Type} [Endpoint ε]

/-- What a balancer is asked: the endpoints as they are at the time, and the
key of the request. -/
structure Request (ε : Type) where
  fleet : Fleet ε
  key : Option String

/-- Choose for the requests in turn, up to the first that is refused. -/
def selectAll (b : Balancer) : List (Request ε) → Except Fault (List Member × Balancer)
  | [] => .ok ([], b)
  | r :: rs =>
    match b.select r.fleet r.key with
    | .error fault => .error fault
    | .ok x =>
      match selectAll x.balancer rs with
      | .error fault => .error fault
      | .ok (picks, b) => .ok (x.member :: picks, b)

/-- Choose for the requests in turn, in words.  There is no answer if a
selection overflows. -/
def selectAllInWords? (b : Balancer) :
    List (Request ε) → Option (Except Fault (List Member × Balancer))
  | [] => some (.ok ([], b))
  | r :: rs => do
    match ← b.selectInWords? r.fleet r.key with
    | .error fault => return .error fault
    | .ok x =>
      match ← selectAllInWords? x.balancer rs with
      | .error fault => return .error fault
      | .ok (picks, b) => return .ok (x.member :: picks, b)

variable {b : Balancer} {w : SmoothWeights} {weights : List UInt32}

/-! ## Turns of members -/

/-- The balancer is an open smooth rotation with members.  They are at these
current weights, and their static weights are positive. -/
structure Rotates (b : Balancer) (w : SmoothWeights) (weights : List UInt32) : Prop where
  state : b.state = .smooth w
  isOpen : b.closed = false
  occupied : b.members ≠ []
  length_currents : w.currents.length = weights.length
  length_weights : weights.length = b.members.length
  positive : ∀ x ∈ weights, 0 < x

namespace Rotates

/-- A turn goes to a member whose current weight is greatest. -/
theorem select_eq (h : b.Rotates w weights) (r : Request ε)
    (hweights : b.ids.map r.fleet.weight = weights) :
    ∃ place m, b.members[place]? = some m ∧ w.Wins weights place ∧
      b.select r.fleet r.key =
        .ok ⟨m, { b with state := .smooth (w.turn place weights) }, r.fleet⟩ := by
  have hcurrents : w.currents ≠ [] := by
    rw [← List.length_pos_iff, h.length_currents, h.length_weights]
    exact List.length_pos_iff.2 h.occupied
  obtain ⟨place, hplace⟩ := SmoothWeights.place?_isSome hcurrents
  have hwins := SmoothWeights.wins_of_place? h.length_currents h.positive hplace
  obtain ⟨m, hm⟩ : ∃ m, b.members[place]? = some m :=
    ⟨_, List.getElem?_eq_getElem (h.length_weights ▸ hwins.lt)⟩
  refine ⟨place, m, hm, hwins, ?_⟩
  have hkey : ¬(b.strategy.needsKey = true ∧ r.key = none) := by
    unfold strategy
    rw [h.state]
    simp [Policy.strategy, Strategy.needsKey]
  have hchoice : b.choose? r.fleet (r.key.getD "") =
      some ⟨m, { b with state := .smooth (w.turn place weights) }, r.fleet⟩ := by
    unfold choose?
    rw [h.state]
    simp only [hplace, hm, hweights, Option.bind_eq_bind, Option.bind_some, pure]
    rfl
  unfold select
  rw [checkSelectable_eq h.isOpen h.occupied]
  dsimp only
  rw [if_neg hkey, hchoice]

theorem turn (h : b.Rotates w weights) {place : Nat} (hwins : w.Wins weights place) :
    Rotates { b with state := .smooth (w.turn place weights) } (w.turn place weights) weights where
  state := rfl
  isOpen := h.isOpen
  occupied := h.occupied
  length_currents := hwins.length_turn
  length_weights := h.length_weights
  positive := h.positive

/-- All requests are answered, and the places have their turns in the order
of the answers. -/
theorem selectAll_eq (h : b.Rotates w weights) (requests : List (Request ε))
    (hweights : ∀ r ∈ requests, b.ids.map r.fleet.weight = weights) :
    ∃ picks places w', b.selectAll requests = .ok (picks, { b with state := .smooth w' }) ∧
      places.length = requests.length ∧ picks.map some = places.map (b.members[·]?) ∧
      w.Turns weights places w' := by
  induction requests generalizing b w with
  | nil =>
    refine ⟨[], [], w, ?_, rfl, rfl, .nil w⟩
    rw [← h.state]
    rfl
  | cons r requests ih =>
    obtain ⟨hr, hrest⟩ := List.forall_mem_cons.1 hweights
    obtain ⟨place, m, hm, hwins, hselect⟩ := h.select_eq r hr
    obtain ⟨picks, places, w', hrun, hlength, hplaces, hturns⟩ := ih (h.turn hwins) hrest
    refine ⟨m :: picks, place :: places, w', ?_, by simp [hlength], ?_, .cons hwins hturns⟩
    · rw [selectAll, hselect]
      dsimp only
      rw [hrun]
    · rw [List.map_cons, List.map_cons, hplaces, hm]

end Rotates

/-! ## Runs in words -/

/-- Every turn that answers one of the requests has the same result when it
computes in words. -/
def RunsInWords (b : Balancer) : List (Request ε) → Prop
  | [] => True
  | r :: rs =>
    b.TurnsInWords r.fleet ∧ ∀ x, b.select r.fleet r.key = .ok x → RunsInWords x.balancer rs

/-- Answers in words are the answers. -/
theorem selectAll_of_inWords {requests : List (Request ε)}
    {result : Except Fault (List Member × Balancer)}
    (h : b.selectAllInWords? requests = some result) : result = b.selectAll requests := by
  induction requests generalizing b result with
  | nil => exact (Option.some.inj h).symm
  | cons r requests ih =>
    obtain ⟨answer, hanswer, h⟩ := Option.bind_eq_some_iff.1 h
    rw [selectAll, ← select_of_inWords hanswer]
    cases answer with
    | error fault => exact (Option.some.inj h).symm
    | ok x =>
      obtain ⟨rest, hrest, h⟩ := Option.bind_eq_some_iff.1 h
      dsimp only
      rw [← ih hrest]
      cases rest with
      | error fault => exact (Option.some.inj h).symm
      | ok _ => exact (Option.some.inj h).symm

/-- Where no turn overflows all requests have an answer. -/
theorem RunsInWords.selectAllInWords?_eq {requests : List (Request ε)}
    (h : b.RunsInWords requests) :
    b.selectAllInWords? requests = some (b.selectAll requests) := by
  induction requests generalizing b with
  | nil => rfl
  | cons r requests ih =>
    obtain ⟨hturn, hrest⟩ := h
    rw [selectAllInWords?, selectInWords?_of_turnsInWords hturn, selectAll]
    cases hselect : b.select r.fleet r.key with
    | error fault => rfl
    | ok x =>
      simp only [Option.bind_eq_bind, Option.bind_some, ih (hrest x hselect)]
      cases x.balancer.selectAll requests with
      | error fault => rfl
      | ok _ => rfl

theorem Rotates.runsInWords (h : b.Rotates w weights)
    (hsmall : (weights.length + 1) * weightSum weights + w.overdraft weights < 2 ^ 63)
    (requests : List (Request ε))
    (hweights : ∀ r ∈ requests, b.ids.map r.fleet.weight = weights) :
    b.RunsInWords requests := by
  induction requests generalizing b w with
  | nil => trivial
  | cons r requests ih =>
    obtain ⟨hr, hrest⟩ := List.forall_mem_cons.1 hweights
    constructor
    · intro w' place hstate hplace
      obtain rfl : w = w' := Policy.smooth.inj (h.state.symm.trans hstate)
      have hwins := SmoothWeights.wins_of_place? h.length_currents h.positive hplace
      rw [hr]
      exact hwins.turnInWords?_eq hsmall
    · intro x hx
      obtain ⟨place, m, -, hwins, hselect⟩ := h.select_eq r hr
      obtain rfl := Except.ok.inj (hselect.symm.trans hx)
      have hshrunk := hwins.overdraft_turn_le
      exact ih (h.turn hwins) (by omega) hrest

/-! ## Members for places -/

variable {places : List Nat} {picks ms : List Member} {place : Nat} {m : Member}

theorem mem_of_places (hplaces : picks.map some = places.map (ms[·]?)) (hm : ms[place]? = some m)
    (hplace : place ∈ places) : m ∈ picks := by
  have hmem : some m ∈ picks.map some := by
    rw [hplaces, ← hm]
    exact List.mem_map_of_mem hplace
  simpa using hmem

/-- Distinct members are chosen as often as their places have a turn. -/
theorem count_of_places (hms : ms.Nodup) (hplaces : picks.map some = places.map (ms[·]?))
    (hm : ms[place]? = some m) : picks.count m = places.count place := by
  induction places generalizing picks with
  | nil =>
    obtain rfl : picks = [] := by simpa using hplaces
    rfl
  | cons place' places ih =>
    obtain ⟨m', picks, rfl⟩ : ∃ m' rest, picks = m' :: rest := by
      cases picks with
      | nil => cases hplaces
      | cons m' rest => exact ⟨m', rest, rfl⟩
    obtain ⟨hm', hrest⟩ := List.cons.inj hplaces
    have hsame : m' = m ↔ place' = place := by
      rw [← Option.some_inj, hm', ← hm]
      exact List.getElem?_inj (List.getElem?_eq_some_iff.1 hm'.symm).1 hms
    rw [List.count_cons, List.count_cons, ih hrest]
    by_cases h : place' = place
    · simp [h, hsame.2 h]
    · simp [h, mt hsame.1 h]

end PooledRouting.Balancer
