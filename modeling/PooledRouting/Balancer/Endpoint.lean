import PooledRouting.Balancer.Fault

/-!
# Endpoints and fleets

An endpoint is what a balancer chooses between: it has an address and a
weight, tells how many connections are active and idle, counts the work
that is routed to it, and can be closed.

Endpoints count the work in words of 64 bits: one unit more than a word
holds makes the count zero, and one less than zero is zero (`countDown`).

The endpoints of one system stand in a `Fleet`.  A registry does not
hold endpoints but their numbers in the fleet, so that an endpoint which
is removed, or was never accepted, keeps its figures.
-/

namespace PooledRouting.Balancer

/-- What a balancer asks of an endpoint. -/
class Endpoint (ε : Type) where
  addr : ε → String
  weight : ε → UInt32
  /-- The work routed to the endpoint that has not been completed. -/
  active : ε → Nat
  /-- The connections that wait to be used. -/
  idle : ε → Nat
  /-- Count one more unit of work. -/
  addActive : ε → ε
  /-- Shut the endpoint down. -/
  close : ε → Except Pool.Fault Unit × ε

/-- A count of work after a unit is complete.  A count of zero stays. -/
def countDown (work : UInt64) : UInt64 :=
  if work = 0 then 0 else work - 1

theorem toNat_countDown (work : UInt64) : (countDown work).toNat = work.toNat - 1 := by
  unfold countDown
  split
  · rename_i hzero
    rw [hzero]
    rfl
  · rename_i hsome
    have hnat : work.toNat ≠ 0 := fun hzero => hsome (UInt64.toNat_inj.1 hzero)
    refine UInt64.toNat_sub_of_le _ _ (UInt64.le_iff_toNat_le.2 ?_)
    rw [UInt64.toNat_one]
    omega

/-- One more unit of work is counted as long as there is room in the word. -/
theorem toNat_countUp {work : UInt64} (hroom : work.toNat < UInt64.size - 1) :
    (work + 1).toNat = work.toNat + 1 := by
  have hsize : UInt64.size = 2 ^ 64 := rfl
  rw [UInt64.toNat_add, UInt64.toNat_one]
  omega

/-- Endpoints by number. -/
abbrev Fleet (ε : Type) := Array ε

namespace Fleet

variable {ε : Type} [Endpoint ε]

/-- The weight of the endpoint; without an endpoint there is none. -/
def weight (fleet : Fleet ε) (id : Nat) : UInt32 :=
  fleet[id]?.elim 0 Endpoint.weight

/-- The active count of the endpoint. -/
def active (fleet : Fleet ε) (id : Nat) : Nat :=
  fleet[id]?.elim 0 Endpoint.active

/-- The idle count of the endpoint. -/
def idle (fleet : Fleet ε) (id : Nat) : Nat :=
  fleet[id]?.elim 0 Endpoint.idle

/-- Count one more unit of work for the endpoint. -/
def addActive (fleet : Fleet ε) (id : Nat) : Fleet ε :=
  fleet.modify id Endpoint.addActive

/-- Close the endpoint. -/
def close (fleet : Fleet ε) (id : Nat) : Except Pool.Fault Unit × Fleet ε :=
  match fleet[id]? with
  | none => (.ok (), fleet)
  | some e =>
    let (result, e) := Endpoint.close e
    (result, fleet.setIfInBounds id e)

/-- Close the endpoints in turn, also after a failure, and keep the
first failure. -/
def closeAll (fleet : Fleet ε) : List Nat → Except Pool.Fault Unit × Fleet ε
  | [] => (.ok (), fleet)
  | id :: ids =>
    let (result, fleet) := Fleet.close fleet id
    let (rest, fleet) := Fleet.closeAll fleet ids
    (match result with
      | .error fault => .error fault
      | .ok () => rest, fleet)

@[simp]
theorem size_addActive (fleet : Fleet ε) (id : Nat) :
    (fleet.addActive id).size = fleet.size := by
  simp [addActive]

@[simp]
theorem size_close (fleet : Fleet ε) (id : Nat) :
    (Fleet.close fleet id).2.size = fleet.size := by
  unfold Fleet.close
  split <;> simp

end Fleet

end PooledRouting.Balancer
