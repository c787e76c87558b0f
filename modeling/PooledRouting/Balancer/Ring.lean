import PooledRouting.Balancer.Registry

/-!
# Hash rings

On a hash ring every endpoint holds several points, the hashes of its
address with a number.  A key belongs to the endpoint of the first point
at or after its hash, and past the last point to that of the first one.

Where the points of two endpoints coincide, the one registered first
holds the point, and the other takes it over when the first is removed.
`Ring` keeps the points sorted; the hash function is a parameter.
-/

namespace PooledRouting.Balancer

/-- A point of a ring and the endpoint that holds it. -/
structure RingPoint where
  place : UInt32
  holder : Member
  deriving DecidableEq, Repr

namespace RingPoint

/-- Points in ascending order, none of them twice. -/
def Ascending (ps : List RingPoint) : Prop :=
  ps.Pairwise fun p q => p.place < q.place

/-- The points of two ascending lists.  Where two coincide, that of the
first list stays. -/
def merge : List RingPoint → List RingPoint → List RingPoint
  | [], qs => qs
  | ps, [] => ps
  | p :: ps, q :: qs =>
    if p.place < q.place then p :: merge ps (q :: qs)
    else if q.place < p.place then q :: merge (p :: ps) qs
    else p :: merge ps qs
termination_by ps qs => ps.length + qs.length

theorem mem_of_mem_merge {ps qs : List RingPoint} {x : RingPoint}
    (h : x ∈ merge ps qs) : x ∈ ps ∨ x ∈ qs := by
  fun_induction merge ps qs with
  | case1 qs => exact .inr h
  | case2 ps => exact .inl h
  | case3 p ps q qs hlt ih =>
    rcases List.mem_cons.1 h with rfl | h
    · simp
    · rcases ih h with h | h <;> simp [h]
  | case4 p ps q qs hlt hgt ih =>
    rcases List.mem_cons.1 h with rfl | h
    · simp
    · rcases ih h with h | h
      · exact .inl h
      · simp [h]
  | case5 p ps q qs hlt hgt ih =>
    rcases List.mem_cons.1 h with rfl | h
    · simp
    · rcases ih h with h | h <;> simp [h]

theorem ascending_merge {ps qs : List RingPoint} (hp : Ascending ps) (hq : Ascending qs) :
    Ascending (merge ps qs) := by
  fun_induction merge ps qs with
  | case1 qs => exact hq
  | case2 ps => exact hp
  | case3 p ps q qs hlt ih =>
    obtain ⟨hp1, hp2⟩ := List.pairwise_cons.1 hp
    obtain ⟨hq1, -⟩ := List.pairwise_cons.1 hq
    refine List.pairwise_cons.2 ⟨fun x hx => ?_, ih hp2 hq⟩
    rcases mem_of_mem_merge hx with hx | hx
    · exact hp1 x hx
    · rcases List.mem_cons.1 hx with rfl | hx
      · exact hlt
      · exact UInt32.lt_trans hlt (hq1 x hx)
  | case4 p ps q qs hlt hgt ih =>
    obtain ⟨hp1, -⟩ := List.pairwise_cons.1 hp
    obtain ⟨hq1, hq2⟩ := List.pairwise_cons.1 hq
    refine List.pairwise_cons.2 ⟨fun x hx => ?_, ih hp hq2⟩
    rcases mem_of_mem_merge hx with hx | hx
    · rcases List.mem_cons.1 hx with rfl | hx
      · exact hgt
      · exact UInt32.lt_trans hgt (hp1 x hx)
    · exact hq1 x hx
  | case5 p ps q qs hlt hgt ih =>
    obtain ⟨hp1, hp2⟩ := List.pairwise_cons.1 hp
    obtain ⟨hq1, hq2⟩ := List.pairwise_cons.1 hq
    have heq : p.place = q.place :=
      UInt32.le_antisymm (UInt32.not_lt.1 hgt) (UInt32.not_lt.1 hlt)
    refine List.pairwise_cons.2 ⟨fun x hx => ?_, ih hp2 hq2⟩
    rcases mem_of_mem_merge hx with hx | hx
    · exact hp1 x hx
    · rw [heq]
      exact hq1 x hx

end RingPoint

/-- A hash ring. -/
structure Ring where
  hash : String → UInt32
  /-- The points that each endpoint asks for. -/
  virtualNodes : Nat
  points : List RingPoint
  ascending : RingPoint.Ascending points

namespace Ring

/-- A ring without points.  At least one point is asked for. -/
def empty (hash : String → UInt32) (virtualNodes : Nat) : Ring where
  hash := hash
  virtualNodes := max virtualNodes 1
  points := []
  ascending := .nil

/-- The text whose hash is the point of this number. -/
def nodeKey (addr : String) (number : Nat) : String :=
  addr ++ "#" ++ toString number

/-- The points that the member asks for: `count` of them from number
`start` on. -/
def pointsFrom (hash : String → UInt32) (m : Member) (start count : Nat) :
    List RingPoint :=
  if count = 0 then []
  else if count = 1 then [⟨hash (nodeKey m.addr start), m⟩]
  else
    RingPoint.merge (pointsFrom hash m start (count / 2))
      (pointsFrom hash m (start + count / 2) (count - count / 2))
termination_by count

/-- All points that the member asks for. -/
def pointsOf (r : Ring) (m : Member) : List RingPoint :=
  pointsFrom r.hash m 0 r.virtualNodes

theorem ascending_pointsFrom (hash : String → UInt32) (m : Member) (start count : Nat) :
    RingPoint.Ascending (pointsFrom hash m start count) := by
  fun_induction pointsFrom hash m start count with
  | case1 => exact .nil
  | case2 => exact List.pairwise_singleton ..
  | case3 start count _ _ ih1 ih2 => exact RingPoint.ascending_merge ih1 ih2

/-- Give the member those of its points that nobody holds. -/
def add (r : Ring) (m : Member) : Ring :=
  { r with
    points := RingPoint.merge r.points (r.pointsOf m)
    ascending := RingPoint.ascending_merge r.ascending (ascending_pointsFrom ..) }

/-- Take the points of the address off the ring. -/
def drop (r : Ring) (addr : String) : Ring :=
  { r with
    points := r.points.filter fun p => p.holder.addr != addr
    ascending := r.ascending.filter _ }

/-- Take an address off the ring.  The other members, in the order of
registration, then get those of their points that came free. -/
def remove (r : Ring) (addr : String) (others : List Member) : Ring :=
  others.foldl add (r.drop addr)

/-- The holder of the first point at or after the hash of the key, or of
the first point at all. -/
def holder? (r : Ring) (key : String) : Option Member :=
  let place := r.hash key
  let at? := r.points.find? fun p => place ≤ p.place
  (at?.or r.points.head?).map RingPoint.holder

@[simp]
theorem hash_add (r : Ring) (m : Member) : (r.add m).hash = r.hash := rfl

@[simp]
theorem virtualNodes_add (r : Ring) (m : Member) :
    (r.add m).virtualNodes = r.virtualNodes := rfl

end Ring

end PooledRouting.Balancer
