/-!
# Rotation

A rotation deals out places in turn.  Its cursor counts the turns in a
64-bit word that wraps, and is reduced to a place only when a turn is
taken, so that it stays in range however the number of places changes.
-/

namespace PooledRouting.Balancer

/-- A count of turns. -/
structure Rotation where
  cursor : UInt64 := 0
  deriving DecidableEq, Repr

namespace Rotation

/-- The place whose turn it is, of `n` places. -/
def place (r : Rotation) (n : Nat) : Nat :=
  r.cursor.toNat % n

/-- The rotation after one turn. -/
def turn (r : Rotation) : Rotation :=
  ⟨r.cursor + 1⟩

theorem place_lt (r : Rotation) {n : Nat} (h : 0 < n) : r.place n < n :=
  Nat.mod_lt _ h

end Rotation

end PooledRouting.Balancer
