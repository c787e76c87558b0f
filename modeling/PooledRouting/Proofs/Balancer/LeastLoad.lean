import Mathlib.Algebra.Order.Field.Basic
import Mathlib.Algebra.Order.Ring.Rat
import Mathlib.Tactic.Linarith
import PooledRouting.Balancer.PlainEndpoint
import PooledRouting.Cluster.Basic
import PooledRouting.Proofs.Balancer.Choosing
import PooledRouting.Proofs.Pool.Runs

/-!
# The least loaded endpoint

A load is a fraction, and two loads are compared by their cross products.
That is the order of the rational numbers (`Load.less_iff`), so what a rule
chooses is the first endpoint for which a rational number, its `measure`, is
least (`LoadRule.chooses_of_place?`).  There is only one such place
(`FirstLeast.unique`).

`placeInWords?` is the choice as a loop that keeps the best load so far and
computes in words of 128 bits, without a result where a word overflows.
Figures of 64 bits and weights of 32 bits leave room for every product, so
the loop has a result, and by uniqueness it is the same place
(`LoadRule.placeInWords?_eq`).

The chosen endpoint then counts one more unit of work.  What its active count
comes to is up to the endpoint: `CountsWork` says which part of it is counted
by the balancer and which is seen by the endpoint itself.
-/

namespace PooledRouting.Balancer

/-! ## The first least -/

/-- The number stands at the place; none is less, and every one before it is
greater. -/
structure FirstLeast (xs : List ℚ) (place : Nat) (x : ℚ) : Prop where
  get : xs[place]? = some x
  least : ∀ y ∈ xs, x ≤ y
  before : ∀ y ∈ xs.take place, x < y

namespace FirstLeast

variable {xs : List ℚ} {place : Nat} {x y : ℚ}

theorem lt (h : FirstLeast xs place x) : place < xs.length :=
  (List.getElem?_eq_some_iff.1 h.get).1

theorem singleton (x : ℚ) : FirstLeast [x] 0 x where
  get := rfl
  least := by simp
  before := by simp

/-- A number in front that is not greater than the least one. -/
theorem cons_of_le (h : FirstLeast xs place x) (hle : y ≤ x) : FirstLeast (y :: xs) 0 y where
  get := rfl
  least := List.forall_mem_cons.2 ⟨le_rfl, fun z hz => hle.trans (h.least z hz)⟩
  before := by simp

theorem cons_of_lt (h : FirstLeast xs place x) (hlt : x < y) :
    FirstLeast (y :: xs) (place + 1) x where
  get := h.get
  least := List.forall_mem_cons.2 ⟨hlt.le, h.least⟩
  before := List.forall_mem_cons.2 ⟨hlt, h.before⟩

/-- One more number that is not less than the least one. -/
theorem append_of_le (h : FirstLeast xs place x) (hle : x ≤ y) :
    FirstLeast (xs ++ [y]) place x where
  get := by rw [List.getElem?_append_left h.lt, h.get]
  least := List.forall_mem_append.2 ⟨h.least, by simpa using hle⟩
  before := by
    rw [List.take_append_of_le_length h.lt.le]
    exact h.before

theorem append_of_lt (h : FirstLeast xs place x) (hlt : y < x) :
    FirstLeast (xs ++ [y]) xs.length y where
  get := List.getElem?_concat_length
  least := List.forall_mem_append.2 ⟨fun z hz => hlt.le.trans (h.least z hz), by simp⟩
  before := by
    rw [List.take_left]
    exact fun z hz => hlt.trans_le (h.least z hz)

/-- There is one first least place. -/
theorem unique {place' : Nat} {x' : ℚ} (h : FirstLeast xs place x)
    (h' : FirstLeast xs place' x') : place = place' := by
  have hx : x = x' := le_antisymm (h.least _ (List.mem_of_getElem? h'.get))
    (h'.least _ (List.mem_of_getElem? h.get))
  subst hx
  by_contra hne
  rcases Nat.lt_or_gt_of_ne hne with hlt | hlt
  · have hget : (xs.take place')[place]? = some x := by
      rw [List.getElem?_take_of_lt hlt, h.get]
    exact lt_irrefl x (h'.before x (List.mem_of_getElem? hget))
  · have hget : (xs.take place)[place']? = some x := by
      rw [List.getElem?_take_of_lt hlt, h'.get]
    exact lt_irrefl x (h.before x (List.mem_of_getElem? hget))

end FirstLeast

/-! ## Loads as rational numbers -/

namespace Load

/-- The fraction as a number. -/
def value (x : Load) : ℚ :=
  x.num / x.den

/-- To compare cross products is to compare the numbers. -/
theorem less_iff {x y : Load} (hx : 0 < x.den) (hy : 0 < y.den) :
    x.less y = true ↔ x.value < y.value := by
  have hx' : (0 : ℚ) < x.den := Nat.cast_pos.2 hx
  have hy' : (0 : ℚ) < y.den := Nat.cast_pos.2 hy
  rw [less, decide_eq_true_iff, value, value, div_lt_div_iff₀ hx' hy']
  exact_mod_cast Iff.rfl

theorem firstLeast_of_firstBest? {xs : List Load} {place : Nat} {x : Load}
    (hpos : ∀ x ∈ xs, 0 < x.den) (h : firstBest? less xs = some (place, x)) :
    FirstLeast (xs.map value) place x.value := by
  induction xs generalizing place x with
  | nil => cases h
  | cons y ys ih =>
    obtain ⟨hy, hys⟩ := List.forall_mem_cons.1 hpos
    rw [firstBest?] at h
    cases hrest : firstBest? less ys with
    | none =>
      rw [hrest] at h
      cases h
      obtain rfl := (firstBest?_eq_none_iff _ ys).1 hrest
      exact .singleton _
    | some best =>
      obtain ⟨i, z⟩ := best
      have hz : 0 < z.den := hys z (List.mem_of_getElem? (getElem?_of_firstBest? hrest))
      have hbest := ih hys hrest
      rw [hrest] at h
      dsimp only at h
      by_cases hless : z.less y = true
      · rw [if_pos hless] at h
        cases h
        exact hbest.cons_of_lt ((less_iff hz hy).1 hless)
      · rw [if_neg hless] at h
        cases h
        exact hbest.cons_of_le (not_lt.1 (mt (less_iff hz hy).2 hless))

end Load

namespace LoadRule

variable {ε : Type} [Endpoint ε] {rule : LoadRule} {fleet : Fleet ε} {ids : List Nat}
  {place : Nat}

/-- The number that the rule makes least.  A weight of zero counts as one. -/
def measure (rule : LoadRule) (fleet : Fleet ε) (id : Nat) : ℚ :=
  match rule with
  | connections => fleet.active id * 256 + fleet.idle id
  | weightedConnections =>
    (fleet.active id * 256 + fleet.idle id) / (max (fleet.weight id).toNat 1 : Nat)
  | expectedDelay | neverQueue =>
    (fleet.active id + 1) * 256 / (max (fleet.weight id).toNat 1 : Nat)

/-- The rule is for the place: it is the first one of least measure, unless
the rule prefers endpoints without active work and there is one. -/
def Chooses (rule : LoadRule) (fleet : Fleet ε) (ids : List Nat) (place : Nat) : Prop :=
  match rule with
  | neverQueue =>
    (∃ id, ids[place]? = some id ∧ fleet.active id = 0 ∧
        ∀ other ∈ ids.take place, fleet.active other ≠ 0) ∨
      (∀ id ∈ ids, fleet.active id ≠ 0) ∧
        ∃ x, FirstLeast (ids.map (measure expectedDelay fleet)) place x
  | _ => ∃ x, FirstLeast (ids.map (rule.measure fleet)) place x

theorem den_load_pos (rule : LoadRule) (fleet : Fleet ε) (id : Nat) :
    0 < (rule.load fleet id).den := by
  cases rule with
  | connections => exact Nat.one_pos
  | _ => exact Nat.lt_of_lt_of_le Nat.one_pos (Nat.le_max_right _ 1)

theorem value_load (rule : LoadRule) (fleet : Fleet ε) (id : Nat) :
    (rule.load fleet id).value = rule.measure fleet id := by
  cases rule with
  | connections =>
    simp [load, measure, Load.ofConnections, Load.value, Load.activeFactor]
  | weightedConnections =>
    simp [load, measure, Load.ofWeightedConnections, Load.perWeight, Load.value,
      Load.activeFactor]
  | _ => simp [load, measure, Load.expectedDelay, Load.perWeight, Load.value, Load.activeFactor]

theorem map_value_load (rule : LoadRule) (fleet : Fleet ε) (ids : List Nat) :
    (ids.map (rule.load fleet)).map Load.value = ids.map (rule.measure fleet) := by
  rw [List.map_map]
  exact List.map_congr_left fun id _ => rule.value_load fleet id

theorem firstLeast_of_leastLoaded? (h : rule.leastLoaded? fleet ids = some place) :
    ∃ x, FirstLeast (ids.map (rule.measure fleet)) place x := by
  obtain ⟨⟨i, x⟩, hbest, rfl⟩ := Option.map_eq_some_iff.1 h
  have hpos : ∀ y ∈ ids.map (rule.load fleet), 0 < y.den := by
    intro y hy
    obtain ⟨id, -, rfl⟩ := List.mem_map.1 hy
    exact rule.den_load_pos fleet id
  rw [← map_value_load]
  exact ⟨x.value, Load.firstLeast_of_firstBest? hpos hbest⟩

/-- Whether an endpoint without active work is there decides how a rule that
prefers them chooses. -/
theorem findIdx?_active_cases (fleet : Fleet ε) (ids : List Nat) :
    (∃ place id, (ids.findIdx? fun id => fleet.active id == 0) = some place ∧
        ids[place]? = some id ∧ fleet.active id = 0 ∧
        ∀ other ∈ ids.take place, fleet.active other ≠ 0) ∨
      (ids.findIdx? fun id => fleet.active id == 0) = none ∧ ∀ id ∈ ids, fleet.active id ≠ 0 := by
  cases hfind : ids.findIdx? fun id => fleet.active id == 0 with
  | none =>
    refine .inr ⟨rfl, fun id hid => ?_⟩
    simpa using List.findIdx?_eq_none_iff.1 hfind id hid
  | some i =>
    obtain ⟨hlt, hzero, hearlier⟩ := List.findIdx?_eq_some_iff_getElem.1 hfind
    refine .inl ⟨i, ids[i], rfl, List.getElem?_eq_getElem hlt, by simpa using hzero, ?_⟩
    intro other hother
    obtain ⟨j, hj, rfl⟩ := List.mem_take_iff_getElem.1 hother
    simpa using hearlier j (by omega)

theorem chooses_of_place? (h : rule.place? fleet ids = some place) :
    rule.Chooses fleet ids place := by
  cases rule with
  | neverQueue =>
    unfold place? at h
    dsimp only at h
    rcases findIdx?_active_cases fleet ids with ⟨i, id, hfind, hget, hzero, hearlier⟩ |
      ⟨hfind, hbusy⟩
    · rw [hfind] at h
      cases h
      exact .inl ⟨id, hget, hzero, hearlier⟩
    · rw [hfind] at h
      exact .inr ⟨hbusy, firstLeast_of_leastLoaded? h⟩
  | _ => exact firstLeast_of_leastLoaded? h

end LoadRule

/-! ## The loop in words -/

/-- The number, if it fits in a word of 128 bits. -/
def wideWord? (n : Nat) : Option Nat :=
  if n < 2 ^ 128 then some n else none

namespace Load

/-- Compare two loads in words. -/
def lessInWords? (x y : Load) : Option Bool := do
  let left ← wideWord? (x.num * y.den)
  let right ← wideWord? (y.num * x.den)
  return decide (left < right)

/-- The load of so many connections, in words. -/
def connectionsInWords? (active idle : Nat) : Option Nat := do
  let busy ← wideWord? (active * activeFactor)
  wideWord? (busy + idle)

/-- The load has figures that leave room for the cross products. -/
structure Fits (x : Load) : Prop where
  num : x.num < 2 ^ 96
  den : x.den < 2 ^ 32

theorem lessInWords?_eq {x y : Load} (hx : x.Fits) (hy : y.Fits) :
    x.lessInWords? y = some (x.less y) := by
  have hleft : x.num * y.den < 2 ^ 128 := by
    calc x.num * y.den < 2 ^ 96 * 2 ^ 32 := Nat.mul_lt_mul'' hx.num hy.den
      _ = 2 ^ 128 := by norm_num
  have hright : y.num * x.den < 2 ^ 128 := by
    calc y.num * x.den < 2 ^ 96 * 2 ^ 32 := Nat.mul_lt_mul'' hy.num hx.den
      _ = 2 ^ 128 := by norm_num
  simp only [lessInWords?, wideWord?, if_pos hleft, if_pos hright, Option.bind_eq_bind,
    Option.bind_some]
  rfl

theorem connectionsInWords?_eq {active idle : Nat} (hactive : active < UInt64.size)
    (hidle : idle < UInt64.size) :
    connectionsInWords? active idle = some (active * activeFactor + idle) := by
  have hsize : UInt64.size = 18446744073709551616 := rfl
  have hbusy : active * activeFactor < 2 ^ 128 := by
    unfold activeFactor
    omega
  have hsum : active * activeFactor + idle < 2 ^ 128 := by
    unfold activeFactor
    omega
  simp only [connectionsInWords?, wideWord?, if_pos hbusy, if_pos hsum, Option.bind_eq_bind,
    Option.bind_some]

end Load

namespace LoadRule

variable {ε : Type} [Endpoint ε] {rule : LoadRule} {fleet : Fleet ε} {ids : List Nat}
  {place : Nat}

/-- The load of an endpoint under the rule, in words. -/
def loadInWords? (rule : LoadRule) (fleet : Fleet ε) (id : Nat) : Option Load :=
  match rule with
  | connections => do
    let num ← Load.connectionsInWords? (fleet.active id) (fleet.idle id)
    return ⟨num, 1⟩
  | weightedConnections => do
    let num ← Load.connectionsInWords? (fleet.active id) (fleet.idle id)
    return Load.perWeight num (fleet.weight id)
  | expectedDelay | neverQueue => do
    let queued ← wideWord? (fleet.active id + 1)
    let num ← wideWord? (queued * Load.activeFactor)
    return Load.perWeight num (fleet.weight id)

/-- Go through the endpoints from place `next` on, with the best place so far
and its load. -/
def leastFromInWords? (rule : LoadRule) (fleet : Fleet ε) (next best : Nat) (least : Load) :
    List Nat → Option Nat
  | [] => some best
  | id :: ids => do
    let candidate ← rule.loadInWords? fleet id
    if ← candidate.lessInWords? least then
      rule.leastFromInWords? fleet (next + 1) next candidate ids
    else
      rule.leastFromInWords? fleet (next + 1) best least ids

/-- The place of the first endpoint of lowest load, in words. -/
def leastLoadedInWords? (rule : LoadRule) (fleet : Fleet ε) : List Nat → Option Nat
  | [] => none
  | id :: ids => do
    let least ← rule.loadInWords? fleet id
    rule.leastFromInWords? fleet 1 0 least ids

/-- The place of the endpoint that the rule chooses, in words. -/
def placeInWords? (rule : LoadRule) (fleet : Fleet ε) (ids : List Nat) : Option Nat :=
  match rule with
  | neverQueue =>
    match ids.findIdx? fun id => fleet.active id == 0 with
    | some i => some i
    | none => rule.leastLoadedInWords? fleet ids
  | _ => rule.leastLoadedInWords? fleet ids

/-- The figures of these endpoints are words of 64 bits. -/
def WordFigures (fleet : Fleet ε) (ids : List Nat) : Prop :=
  ∀ id ∈ ids, fleet.active id < UInt64.size ∧ fleet.idle id < UInt64.size

theorem fits_load {id : Nat} (hactive : fleet.active id < UInt64.size)
    (hidle : fleet.idle id < UInt64.size) : (rule.load fleet id).Fits := by
  have hsize : UInt64.size = 18446744073709551616 := rfl
  have hweight := (fleet.weight id).toNat_lt
  cases rule with
  | connections =>
    refine ⟨?_, ?_⟩
    · show fleet.active id * 256 + fleet.idle id < _
      omega
    · show 1 < _
      norm_num
  | weightedConnections =>
    refine ⟨?_, ?_⟩
    · show fleet.active id * 256 + fleet.idle id < _
      omega
    · show max (fleet.weight id).toNat 1 < _
      omega
  | _ =>
    refine ⟨?_, ?_⟩
    · show (fleet.active id + 1) * 256 < _
      omega
    · show max (fleet.weight id).toNat 1 < _
      omega

theorem loadInWords?_eq {id : Nat} (hactive : fleet.active id < UInt64.size)
    (hidle : fleet.idle id < UInt64.size) :
    rule.loadInWords? fleet id = some (rule.load fleet id) := by
  have hconnections := Load.connectionsInWords?_eq hactive hidle
  have hsize : UInt64.size = 18446744073709551616 := rfl
  have hqueued : fleet.active id + 1 < 2 ^ 128 := by omega
  have hdelay : (fleet.active id + 1) * Load.activeFactor < 2 ^ 128 := by
    unfold Load.activeFactor
    omega
  cases rule with
  | connections | weightedConnections =>
    simp only [loadInWords?, hconnections, Option.bind_eq_bind, Option.bind_some]
    rfl
  | _ =>
    simp only [loadInWords?, wideWord?, if_pos hqueued, if_pos hdelay, Option.bind_eq_bind,
      Option.bind_some]
    rfl

/-- The loop keeps the first least of what it has gone through. -/
theorem leastFromInWords?_eq {done : List Nat} {best id : Nat} (hbest : done[best]? = some id)
    (hfirst : FirstLeast (done.map (rule.measure fleet)) best (rule.measure fleet id))
    (hdone : WordFigures fleet done) (hids : WordFigures fleet ids) :
    ∃ place x, rule.leastFromInWords? fleet done.length best (rule.load fleet id) ids = some place ∧
      FirstLeast ((done ++ ids).map (rule.measure fleet)) place x := by
  induction ids generalizing done best id with
  | nil => exact ⟨best, _, rfl, by rwa [List.append_nil]⟩
  | cons next ids ih =>
    obtain ⟨⟨hactive, hidle⟩, hrest⟩ := List.forall_mem_cons.1 hids
    obtain ⟨hactive', hidle'⟩ := hdone id (List.mem_of_getElem? hbest)
    have hcandidate : rule.loadInWords? fleet next = some (rule.load fleet next) :=
      loadInWords?_eq hactive hidle
    have hnext : (rule.load fleet next).Fits := fits_load hactive hidle
    have hbest' : (rule.load fleet id).Fits := fits_load hactive' hidle'
    have hless := Load.lessInWords?_eq hnext hbest'
    have hdone' : WordFigures fleet (done ++ [next]) :=
      List.forall_mem_append.2 ⟨hdone, by simpa using ⟨hactive, hidle⟩⟩
    have hvalues := Load.less_iff (rule.den_load_pos fleet next) (rule.den_load_pos fleet id)
    rw [value_load, value_load] at hvalues
    have hall : done ++ next :: ids = done ++ [next] ++ ids := by simp
    have hlength : done.length + 1 = (done ++ [next]).length := by simp
    simp only [leastFromInWords?, hcandidate, hless, Option.bind_eq_bind, Option.bind_some]
    rw [hall, hlength]
    by_cases hlt : (rule.load fleet next).less (rule.load fleet id) = true
    · rw [if_pos hlt]
      refine ih List.getElem?_concat_length ?_ hdone' hrest
      have happend := hfirst.append_of_lt (hvalues.1 hlt)
      rwa [List.length_map, ← List.map_singleton, ← List.map_append] at happend
    · rw [if_neg hlt]
      have hlength := (List.getElem?_eq_some_iff.1 hbest).1
      refine ih (by rw [List.getElem?_append_left hlength, hbest]) ?_ hdone' hrest
      have happend := hfirst.append_of_le (not_lt.1 (mt hvalues.2 hlt))
      rwa [← List.map_singleton, ← List.map_append] at happend

theorem leastLoadedInWords?_eq (hids : WordFigures fleet ids)
    (h : rule.leastLoaded? fleet ids = some place) :
    rule.leastLoadedInWords? fleet ids = some place := by
  obtain ⟨x, hleast⟩ := firstLeast_of_leastLoaded? h
  cases ids with
  | nil => cases h
  | cons id ids =>
    obtain ⟨⟨hactive, hidle⟩, hrest⟩ := List.forall_mem_cons.1 hids
    have hone : WordFigures fleet [id] := by simpa [WordFigures] using ⟨hactive, hidle⟩
    obtain ⟨place', x', hloop, hfirst⟩ :=
      leastFromInWords?_eq (List.getElem?_cons_zero (l := [])) (.singleton (rule.measure fleet id))
        hone hrest
    simp only [leastLoadedInWords?, loadInWords?_eq hactive hidle, Option.bind_eq_bind,
      Option.bind_some]
    rw [hfirst.unique hleast] at hloop
    exact hloop

/-- With figures of 64 bits nothing overflows, and the loop comes to the place
that the rule chooses. -/
theorem placeInWords?_eq (hids : WordFigures fleet ids) (h : rule.place? fleet ids = some place) :
    rule.placeInWords? fleet ids = some place := by
  cases rule with
  | neverQueue =>
    unfold place? at h
    unfold placeInWords?
    dsimp only at h ⊢
    cases hfind : ids.findIdx? fun id => fleet.active id == 0 with
    | some i =>
      rw [hfind] at h
      exact h
    | none =>
      rw [hfind] at h
      exact leastLoadedInWords?_eq hids h
  | _ => exact leastLoadedInWords?_eq hids h

end LoadRule

/-! ## Selections -/

namespace Fleet

variable {ε : Type} [Endpoint ε] {fleet : Fleet ε} {id other : Nat}

theorem getElem?_addActive_self {e : ε} (he : fleet[id]? = some e) :
    (fleet.addActive id)[id]? = some (Endpoint.addActive e) := by
  show (fleet.modify id Endpoint.addActive)[id]? = _
  rw [Array.getElem?_modify, if_pos rfl, he]
  rfl

/-- Work for one endpoint leaves the others alone. -/
theorem getElem?_addActive_of_ne (hne : other ≠ id) :
    (fleet.addActive id)[other]? = fleet[other]? := by
  show (fleet.modify id Endpoint.addActive)[other]? = _
  rw [Array.getElem?_modify, if_neg hne.symm]

end Fleet

/-- An open balancer with members that chooses by load chooses one, and only
the endpoint of that member changes. -/
theorem select_by_load {ε : Type} [Endpoint ε] {b : Balancer} {rule : LoadRule}
    (fleet : Fleet ε) (key : Option String)
    (hrule : b.state = .load rule) (hopen : b.closed = false) (hmembers : b.members ≠ []) :
    ∃ place m, rule.place? fleet b.ids = some place ∧ b.members[place]? = some m ∧
      b.select fleet key = .ok ⟨m, b, fleet.addActive m.id⟩ := by
  have hids : b.ids ≠ [] := mt List.map_eq_nil_iff.1 hmembers
  obtain ⟨place, hplace⟩ := rule.place?_isSome fleet hids
  have hlt : place < b.members.length := by
    simpa [Registry.ids] using LoadRule.place?_lt hplace
  have hm := List.getElem?_eq_getElem hlt
  refine ⟨place, b.members[place], hplace, hm, ?_⟩
  have hkey : ¬(b.strategy.needsKey = true ∧ key = none) := by
    unfold strategy
    rw [hrule]
    rintro ⟨hneeds, -⟩
    cases rule <;> cases hneeds
  have hchoice : b.choose? fleet (key.getD "") =
      some ⟨b.members[place], b, fleet.addActive b.members[place].id⟩ := by
    unfold choose?
    rw [hrule]
    simp only [hplace, hm, Option.bind_eq_bind, Option.bind_some]
    rfl
  unfold select
  rw [checkSelectable_eq hopen hmembers]
  dsimp only
  rw [if_neg hkey, hchoice]

/-! ## The count of the chosen endpoint -/

/-- How an endpoint comes to its active count.  One part is counted by the
balancer, and the endpoint sees the other one by itself. -/
class CountsWork (ε : Type) [Endpoint ε] where
  /-- The work that was routed to the endpoint and not released yet. -/
  routed : ε → Nat
  /-- The work that the endpoint knows of without the balancer. -/
  seen : ε → Nat
  active_eq : ∀ e : ε, Endpoint.active e = max (routed e) (seen e)
  routed_addActive : ∀ e : ε, routed e < UInt64.size - 1 →
    routed (Endpoint.addActive e) = routed e + 1
  seen_addActive : ∀ e : ε, seen (Endpoint.addActive e) = seen e
  idle_addActive : ∀ e : ε, Endpoint.idle (Endpoint.addActive e) = Endpoint.idle e
  weight_addActive : ∀ e : ε, Endpoint.weight (Endpoint.addActive e) = Endpoint.weight e

/-- A plain endpoint knows of nothing but what is routed to it. -/
instance : CountsWork PlainEndpoint where
  routed e := e.active.toNat
  seen _ := 0
  active_eq e := (Nat.max_eq_left (Nat.zero_le e.active.toNat)).symm
  routed_addActive _ := toNat_countUp
  seen_addActive _ := rfl
  idle_addActive _ := rfl
  weight_addActive _ := rfl

/-- A pooled endpoint sees the connections that are checked out. -/
instance : CountsWork PooledEndpoint where
  routed e := e.selections.toNat
  seen e := e.pool.counters.inUse
  active_eq _ := rfl
  routed_addActive _ := toNat_countUp
  seen_addActive _ := rfl
  idle_addActive _ := rfl
  weight_addActive _ := rfl

variable {ε : Type} [Endpoint ε] [CountsWork ε]

/-- The second endpoint is the first one with one more unit of work routed to
it.  That shows in the active count unless more than what was routed is under
way already. -/
structure Charged (e e' : ε) : Prop where
  routed : CountsWork.routed e' = CountsWork.routed e + 1
  seen : CountsWork.seen e' = CountsWork.seen e
  active : Endpoint.active e' =
    if CountsWork.seen e ≤ CountsWork.routed e then Endpoint.active e + 1 else Endpoint.active e
  idle : Endpoint.idle e' = Endpoint.idle e
  weight : Endpoint.weight e' = Endpoint.weight e

theorem charged_addActive {e : ε} (h : CountsWork.routed e < UInt64.size - 1) :
    Charged e (Endpoint.addActive e) where
  routed := CountsWork.routed_addActive e h
  seen := CountsWork.seen_addActive e
  active := by
    rw [CountsWork.active_eq, CountsWork.active_eq, CountsWork.routed_addActive e h,
      CountsWork.seen_addActive]
    split <;> omega
  idle := CountsWork.idle_addActive e
  weight := CountsWork.weight_addActive e

/-- A balancer that chooses by load chooses the first endpoint that its rule
is for, also in words of 128 bits if the figures are words of 64 bits.  One
more unit of work is routed to that endpoint, and nothing else changes. -/
theorem least_load_chosen {b : Balancer} {rule : LoadRule} (fleet : Fleet ε)
    (key : Option String) (hrule : b.state = .load rule) (hopen : b.closed = false)
    (hmembers : b.members ≠ []) (hfleet : ∀ id ∈ b.ids, id < fleet.size) :
    ∃ x place e, b.select fleet key = .ok x ∧ x.balancer = b ∧
      b.members[place]? = some x.member ∧ rule.Chooses fleet b.ids place ∧
      (LoadRule.WordFigures fleet b.ids → rule.placeInWords? fleet b.ids = some place) ∧
      fleet[x.member.id]? = some e ∧ x.fleet[x.member.id]? = some (Endpoint.addActive e) ∧
      (CountsWork.routed e < UInt64.size - 1 → Charged e (Endpoint.addActive e)) ∧
      ∀ id ≠ x.member.id, x.fleet[id]? = fleet[id]? := by
  obtain ⟨place, m, hplace, hm, hselect⟩ := select_by_load fleet key hrule hopen hmembers
  have hlt : m.id < fleet.size :=
    hfleet _ (List.mem_map_of_mem (List.mem_of_getElem? hm))
  have he := Array.getElem?_eq_getElem hlt
  exact ⟨_, place, fleet[m.id], hselect, rfl, hm, LoadRule.chooses_of_place? hplace,
    fun hwords => LoadRule.placeInWords?_eq hwords hplace, he, Fleet.getElem?_addActive_self he,
    charged_addActive, fun id hid => Fleet.getElem?_addActive_of_ne hid⟩

/-- Of the loads 256/1 and 512/2 the first one is chosen, before a full word. -/
theorem least_load_chosen_tie :
    let fleet : Fleet PlainEndpoint :=
      #[{ addr := "a", active := 0xFFFFFFFFFFFFFFFF }, { addr := "b", active := 1 },
        { addr := "c", active := 2, weight := 2 }]
    let b : Balancer :=
      { members := [⟨0, "a"⟩, ⟨1, "b"⟩, ⟨2, "c"⟩], state := .load .weightedConnections }
    LoadRule.weightedConnections.placeInWords? fleet b.ids = some 1 ∧
      ∃ x, b.select fleet none = .ok x ∧ x.member = ⟨1, "b"⟩ ∧ x.fleet.active 1 = 2 ∧
        x.fleet[2]? = fleet[2]? := by
  intro fleet b
  have hfleet : ∀ id ∈ b.ids, id < fleet.size := by decide
  have hwords : LoadRule.WordFigures fleet b.ids := by
    show ∀ id ∈ b.ids, fleet.active id < UInt64.size ∧ fleet.idle id < UInt64.size
    decide
  have hplace : LoadRule.weightedConnections.placeInWords? fleet b.ids = some 1 := by
    decide +kernel
  obtain ⟨x, place, e, hselect, -, hm, -, hloop, he, hcount, hcharged, hothers⟩ :=
    least_load_chosen fleet none (b := b) rfl rfl (by nofun) hfleet
  obtain rfl : place = 1 := Option.some.inj ((hloop hwords).symm.trans hplace)
  have hmember : x.member = ⟨1, "b"⟩ := (Option.some.inj hm).symm
  rw [hmember] at he hcount hothers
  refine ⟨hplace, x, hselect, hmember, ?_, hothers 2 (by decide)⟩
  obtain rfl : { addr := "b", active := 1 } = e := Option.some.inj he
  show x.fleet[1]?.elim 0 Endpoint.active = 2
  rw [hcount]
  exact (hcharged (by decide)).active

/-- A connection that was taken without a selection hides the next selection,
and after the last count that a word holds comes zero. -/
theorem selection_not_shown :
    (let plan : Cluster.EndpointPlan :=
      { addr := "a", options := { poolSize := 1, minIdle := 0 }, dialer := fun _ => .answer 0 none }
    ∃ c, Cluster.build .leastConnection 1 [plan] = .ok c ∧
      let held := (c.get 0 false).onPool 0 fun p => p.apply .turn
      (held.select none).1 = .ok ⟨0, "a"⟩ ∧ held.fleet.active 0 = 1 ∧
        (held.select none).2.fleet.active 0 = 1) ∧
    (let fleet : Fleet PlainEndpoint := #[{ addr := "a", active := 0xFFFFFFFFFFFFFFFF }]
    let b : Balancer := { members := [⟨0, "a"⟩], state := .load .connections }
    ∃ x, b.select fleet none = .ok x ∧ x.member = ⟨0, "a"⟩ ∧
      fleet.active 0 = UInt64.size - 1 ∧ x.fleet.active 0 = 0) := by
  constructor
  · intro plan
    exact ⟨_, rfl, by decide +kernel, by decide +kernel, by decide +kernel⟩
  · intro fleet b
    exact ⟨_, rfl, rfl, rfl, by decide +kernel⟩

end PooledRouting.Balancer
