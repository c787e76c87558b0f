/-!
# Choosing the first best

Several strategies take the best element of a list, and of several
equally good ones the first.  `firstBest?` takes the order as a
parameter and returns the place of that element together with it.
-/

namespace PooledRouting.Balancer

variable {α : Type}

/-- The first element that no other one beats, with its place. -/
def firstBest? (beats : α → α → Bool) : List α → Option (Nat × α)
  | [] => none
  | x :: xs =>
    match firstBest? beats xs with
    | none => some (0, x)
    | some (i, y) => if beats y x then some (i + 1, y) else some (0, x)

theorem firstBest?_eq_none_iff (beats : α → α → Bool) (xs : List α) :
    firstBest? beats xs = none ↔ xs = [] := by
  cases xs with
  | nil => simp [firstBest?]
  | cons x xs =>
    simp only [firstBest?, reduceCtorEq, iff_false]
    split
    · simp
    · split <;> simp

/-- The chosen element stands at the chosen place. -/
theorem getElem?_of_firstBest? {beats : α → α → Bool} {xs : List α} {i : Nat} {y : α}
    (h : firstBest? beats xs = some (i, y)) : xs[i]? = some y := by
  induction xs generalizing i y with
  | nil => cases h
  | cons x xs ih =>
    rw [firstBest?] at h
    split at h
    · cases h
      rfl
    · rename_i j z hz
      split at h
      · cases h
        simpa using ih hz
      · cases h
        rfl

end PooledRouting.Balancer
