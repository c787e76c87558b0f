import PooledRouting.Balancer.Choice

/-!
# Smooth weighted rotation

Every place has a current weight, which begins at its static weight.  A
turn goes to the first place with the greatest current weight.  The
winner pays the sum of all current weights, and then every place earns
its static weight; so the current weights sum to the static ones after
every turn, and the turns of a heavy place are spread over the round.

Current weights are signed words of 64 bits.  `turn` computes in whole
numbers, and `turnInWords?` in words: it has no result where a sum or a
difference on the way overflows, since the program breaks off there.
-/

namespace PooledRouting.Balancer

/-- The current weights, by place. -/
structure SmoothWeights where
  currents : List Int := []
  deriving DecidableEq, Repr

namespace SmoothWeights

/-- The current weight of the place. -/
def current (w : SmoothWeights) (place : Nat) : Int :=
  w.currents[place]?.getD 0

/-- The sum of the current weights. -/
def total (w : SmoothWeights) : Int :=
  w.currents.foldr (· + ·) 0

/-- A further place of this static weight. -/
def push (w : SmoothWeights) (weight : UInt32) : SmoothWeights :=
  ⟨w.currents ++ [(weight.toNat : Int)]⟩

/-- The current weights without those of one place. -/
def erase (w : SmoothWeights) (place : Nat) : SmoothWeights :=
  ⟨w.currents.eraseIdx place⟩

/-- The place whose turn it is: the first one of greatest current
weight. -/
def place? (w : SmoothWeights) : Option Nat :=
  (firstBest? (fun x y => decide (y < x)) w.currents).map Prod.fst

/-- The current weights after a turn of the given place, where each
place earns its static weight. -/
def turn (w : SmoothWeights) (place : Nat) (weights : List UInt32) : SmoothWeights :=
  let paid := w.currents.modify place (· - w.total)
  ⟨List.zipWith (fun (c : Int) (weight : UInt32) => c + weight.toNat) paid weights⟩

/-! ## Words -/

/-- The number fits in a signed word of 64 bits. -/
def FitsWord (x : Int) : Prop :=
  -0x8000000000000000 ≤ x ∧ x < 0x8000000000000000

instance (x : Int) : Decidable (FitsWord x) :=
  inferInstanceAs (Decidable (_ ∧ _))

/-- The number, if it fits in a word. -/
def word? (x : Int) : Option Int :=
  if FitsWord x then some x else none

/-- A turn that computes in words: the sum of the current weights, what the
winner has left of it, and what every place has with its static weight. -/
def turnInWords? (w : SmoothWeights) (place : Nat) (weights : List UInt32) :
    Option SmoothWeights := do
  let total ← w.currents.foldlM (fun sum x => word? (sum + x)) 0
  let rest ← word? (w.current place - total)
  let earned ← ((w.currents.set place rest).zip weights).mapM fun x => word? (x.1 + x.2.toNat)
  return ⟨earned⟩

@[simp]
theorem length_push (w : SmoothWeights) (weight : UInt32) :
    (w.push weight).currents.length = w.currents.length + 1 := by
  simp [push]

theorem length_turn (w : SmoothWeights) (place : Nat) (weights : List UInt32) :
    (w.turn place weights).currents.length = min w.currents.length weights.length := by
  simp [turn]

end SmoothWeights

end PooledRouting.Balancer
