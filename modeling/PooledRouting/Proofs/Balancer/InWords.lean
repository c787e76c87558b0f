import PooledRouting.Proofs.Balancer.Runs
import PooledRouting.Proofs.Balancer.SmoothTurns

/-!
# Selections in words

The program adds current weights as words of 64 bits and breaks off where a
sum or a difference does not fit.  As far as it comes, it does what the whole
numbers say: a turn in words that has a result is the turn
(`SmoothWeights.turn_of_inWords`), a selection in words that has an answer has
that of the selection (`select_of_inWords`), and a run of moves in words that
has a result is the run (`after_of_inWords`).

Whether there is one is a matter of the turns alone (`TurnsInWords`).
-/

namespace PooledRouting.Balancer

namespace SmoothWeights

theorem eq_of_word? {x y : Int} (h : word? x = some y) : y = x := by
  unfold word? at h
  split at h
  · exact (Option.some.inj h).symm
  · cases h

theorem eq_of_foldlM_word? {xs : List Int} {start y : Int}
    (h : xs.foldlM (fun sum x => word? (sum + x)) start = some y) : y = start + xs.sum := by
  induction xs generalizing start with
  | nil =>
    obtain rfl : start = y := by simpa using h
    simp
  | cons x xs ih =>
    rw [List.foldlM_cons] at h
    obtain ⟨next, hnext, hrest⟩ := Option.bind_eq_some_iff.1 h
    rw [ih hrest, eq_of_word? hnext, List.sum_cons, add_assoc]

theorem fitsWord_of_word? {x y : Int} (h : word? x = some y) : FitsWord x := by
  unfold word? at h
  split at h
  · assumption
  · cases h

/-- A sum in words that comes to its end has not overflowed on the way. -/
theorem fitsWord_of_foldlM {xs : List Int} {start y : Int}
    (h : xs.foldlM (fun sum x => word? (sum + x)) start = some y) {k : Nat} (hk : k < xs.length) :
    FitsWord (start + (xs.take (k + 1)).sum) := by
  induction xs generalizing start k with
  | nil => cases hk
  | cons x xs ih =>
    rw [List.foldlM_cons] at h
    obtain ⟨next, hnext, hrest⟩ := Option.bind_eq_some_iff.1 h
    cases k with
    | zero => simpa using fitsWord_of_word? hnext
    | succ k =>
      have hfits := ih hrest (Nat.lt_of_succ_lt_succ hk)
      rw [eq_of_word? hnext] at hfits
      rwa [List.take_succ_cons, List.sum_cons, ← add_assoc]

theorem eq_of_mapM_word? {α : Type} {f : α → Int} {xs : List α} {ys : List Int}
    (h : (xs.mapM fun x => word? (f x)) = some ys) : ys = xs.map f := by
  induction xs generalizing ys with
  | nil =>
    obtain rfl : [] = ys := by simpa using h
    rfl
  | cons x xs ih =>
    rw [List.mapM_cons] at h
    obtain ⟨y, hy, h⟩ := Option.bind_eq_some_iff.1 h
    obtain ⟨rest, hrest, h⟩ := Option.bind_eq_some_iff.1 h
    obtain rfl := Option.some.inj h
    rw [eq_of_word? hy, ih hrest]
    rfl

/-- A turn in words that has a result is the turn. -/
theorem turn_of_inWords {w w' : SmoothWeights} {place : Nat} {weights : List UInt32}
    (h : w.turnInWords? place weights = some w') : w' = w.turn place weights := by
  unfold turnInWords? at h
  obtain ⟨sum, hsum, h⟩ := Option.bind_eq_some_iff.1 h
  obtain ⟨rest, hrest, h⟩ := Option.bind_eq_some_iff.1 h
  obtain ⟨earned, hearned, h⟩ := Option.bind_eq_some_iff.1 h
  obtain rfl := Option.some.inj h
  have htotal : sum = w.total := by
    rw [eq_of_foldlM_word? hsum, zero_add]
    simp [total, List.sum]
  have hpaid : w.currents.set place rest = w.currents.modify place (· - w.total) := by
    rw [List.modify_eq_set_getElem?, eq_of_word? hrest, htotal]
    cases hplace : w.currents[place]? with
    | none => simp [List.set_eq_of_length_le (List.getElem?_eq_none_iff.1 hplace)]
    | some c => simp [current, hplace]
  rw [hpaid] at hearned
  rw [eq_of_mapM_word? (f := fun x : Int × UInt32 => x.1 + (x.2.toNat : Int)) hearned, turn,
    ← List.map_uncurry_zip_eq_zipWith]
  rfl

end SmoothWeights

variable {ε : Type} [Endpoint ε] {b b' : Balancer} {fleet : Fleet ε}

/-- The next turn of a smooth rotation has the same result when it computes
in words. -/
def TurnsInWords (b : Balancer) (fleet : Fleet ε) : Prop :=
  ∀ w place, b.state = .smooth w → w.place? = some place →
    w.turnInWords? place (b.ids.map fleet.weight) =
      some (w.turn place (b.ids.map fleet.weight))

theorem chosen_of_inWords {key : String} {x : Selection ε} {p : Policy}
    (hx : b.choose? fleet key = some x) (h : b.chosenInWords? fleet x.balancer.state = some p) :
    p = x.balancer.state := by
  unfold chosenInWords? at h
  cases hstate : b.state with
  | smooth w =>
    simp only [hstate] at h
    obtain ⟨place, hplace, h⟩ := Option.bind_eq_some_iff.1 h
    obtain ⟨w', hw', h⟩ := Option.bind_eq_some_iff.1 h
    obtain rfl := Option.some.inj h
    simp only [choose?, hstate] at hx
    obtain ⟨place', hplace', hx⟩ := Option.bind_eq_some_iff.1 hx
    obtain ⟨m, -, hx⟩ := Option.bind_eq_some_iff.1 hx
    obtain rfl := Option.some.inj hx
    obtain rfl := Option.some.inj (hplace.symm.trans hplace')
    exact congrArg Policy.smooth (SmoothWeights.turn_of_inWords hw')
  | rotation r | ring r | load rule =>
    simp only [hstate] at h
    exact (Option.some.inj h).symm

/-- A selection in words that has an answer is the selection. -/
theorem select_of_inWords {key : Option String} {result : Except Fault (Selection ε)}
    (h : b.selectInWords? fleet key = some result) : result = b.select fleet key := by
  unfold selectInWords? at h
  rcases select_cases b fleet key with ⟨fault, hfault⟩ | ⟨x, hx, hok⟩
  · rw [hfault] at h ⊢
    exact (Option.some.inj h).symm
  · rw [hok] at h ⊢
    obtain ⟨state, hstate, h⟩ := Option.bind_eq_some_iff.1 h
    rw [chosen_of_inWords hx hstate] at h
    exact (Option.some.inj h).symm

/-- Where the turn does not overflow the selection has an answer. -/
theorem selectInWords?_of_turnsInWords (h : b.TurnsInWords fleet) (key : Option String) :
    b.selectInWords? fleet key = some (b.select fleet key) := by
  unfold selectInWords?
  rcases select_cases b fleet key with ⟨fault, hfault⟩ | ⟨x, hx, hok⟩
  · rw [hfault]
  · rw [hok]
    have hchosen : b.chosenInWords? fleet x.balancer.state = some x.balancer.state := by
      unfold chosenInWords?
      cases hstate : b.state with
      | smooth w =>
        simp only [choose?, hstate] at hx
        obtain ⟨place, hplace, hx⟩ := Option.bind_eq_some_iff.1 hx
        obtain ⟨m, -, hx⟩ := Option.bind_eq_some_iff.1 hx
        obtain rfl := Option.some.inj hx
        simp only [hplace, h w place hstate hplace, Option.bind_eq_bind, Option.bind_some, pure]
        rfl
      | rotation r | ring r | load rule => rfl
    simp only [hchosen, Option.bind_eq_bind, Option.bind_some, pure]

/-! ## Moves -/

/-- The balancer after the move, where the turns of a smooth rotation compute
in words.  It has no result if one of their sums and differences does not
fit. -/
def applyInWords? (b : Balancer) (move : Move ε) : Option Balancer :=
  match move with
  | .select fleet key => do
    match ← b.selectInWords? fleet key with
    | .error _ => return b
    | .ok x => return x.balancer
  | move => some (b.apply move)

/-- The balancer after moves in turn that compute in words. -/
def afterInWords? (b : Balancer) (moves : List (Move ε)) : Option Balancer :=
  moves.foldlM applyInWords? b

/-- A move in words that has a result is the move. -/
theorem apply_of_inWords {move : Move ε} (h : b.applyInWords? move = some b') :
    b' = b.apply move := by
  cases move with
  | select fleet key =>
    obtain ⟨result, hresult, h⟩ := Option.bind_eq_some_iff.1 h
    rw [apply_select, ← select_of_inWords hresult]
    cases result with
    | error fault => exact (Option.some.inj h).symm
    | ok x => exact (Option.some.inj h).symm
  | add fleet m | remove addr | close fleet => exact (Option.some.inj h).symm

theorem after_of_inWords {moves : List (Move ε)} (h : b.afterInWords? moves = some b') :
    b' = b.after moves := by
  induction moves generalizing b with
  | nil => exact (Option.some.inj h).symm
  | cons move moves ih =>
    obtain ⟨next, hnext, hrest⟩ := Option.bind_eq_some_iff.1 h
    rw [ih hrest, apply_of_inWords hnext]
    rfl

end PooledRouting.Balancer
