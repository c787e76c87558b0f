import PooledRouting.Balancer.PlainEndpoint
import PooledRouting.Proofs.Balancer.Runs

/-!
# A hash ring depends on its members only

However endpoints came and went, a hash ring is the one that its present
members give when they are registered one after the other on an empty ring.
Nothing is left of the members that are gone: a point which one of them had
won from a later member goes back to that member, and to the first of them
if several ask for it.

The ring is compared with what the list of members says by itself.
`firstOwner?` is the member that is to hold a place, and `chosen?` the
member that a key belongs to, both without any ring.  `ownerAt?` reads a
ring as a map from places to holders.  In this reading the operations of
the ring are operations on options: the first of two holders (`merge`), a
holder unless it is the removed one (`drop`), the first in a list (`add`
over members).  Two ascending rings with the same reading are the same.

`ring_from_members` is the result for whole runs.
-/

namespace PooledRouting.Balancer

variable {ε : Type} [Endpoint ε] {hash : String → UInt32} {n : Nat} {ms : List Member}
  {m : Member} {x : UInt32}

/-! ## What the members say -/

/-- The places that the member asks for, with `n` points for each. -/
def nodePlaces (hash : String → UInt32) (n : Nat) (m : Member) : List UInt32 :=
  (List.range n).map fun i => hash (Ring.nodeKey m.addr i)

/-- The first member that asks for the place. -/
def firstOwner? (hash : String → UInt32) (n : Nat) (ms : List Member) (x : UInt32) :
    Option Member :=
  ms.find? fun m => decide (x ∈ nodePlaces hash n m)

/-- The places that the members ask for. -/
def ringPlaces (hash : String → UInt32) (n : Nat) (ms : List Member) : List UInt32 :=
  ms.flatMap (nodePlaces hash n)

/-- The smallest place that is not before `k`, or the smallest of all. -/
def successor? (xs : List UInt32) (k : UInt32) : Option UInt32 :=
  (xs.filter fun x => k ≤ x).min?.or xs.min?

/-- The member that the key belongs to. -/
def chosen? (hash : String → UInt32) (n : Nat) (ms : List Member) (key : String) :
    Option Member :=
  (successor? (ringPlaces hash n ms) (hash key)).bind (firstOwner? hash n ms)

theorem mem_ringPlaces_iff : x ∈ ringPlaces hash n ms ↔ ∃ m ∈ ms, x ∈ nodePlaces hash n m :=
  List.mem_flatMap

theorem firstOwner?_cons (hash : String → UInt32) (n : Nat) (m : Member) (ms : List Member)
    (x : UInt32) : firstOwner? hash n (m :: ms) x =
      if x ∈ nodePlaces hash n m then some m else firstOwner? hash n ms x := by
  unfold firstOwner?
  rw [List.find?_cons]
  by_cases hm : x ∈ nodePlaces hash n m
  · rw [if_pos hm, decide_eq_true hm]
  · rw [if_neg hm, decide_eq_false hm]

theorem firstOwner?_isSome_iff : (firstOwner? hash n ms x).isSome ↔ x ∈ ringPlaces hash n ms := by
  unfold firstOwner?
  rw [List.find?_isSome, mem_ringPlaces_iff]
  simp only [decide_eq_true_eq]

/-! ## Successors -/

/-- The place is the next one from `k` on, or `k` is past all and it is the
first. -/
def IsSuccessor (xs : List UInt32) (k x : UInt32) : Prop :=
  x ∈ xs ∧ ((k ≤ x ∧ ∀ y ∈ xs, k ≤ y → x ≤ y) ∨ (∀ y ∈ xs, y < k) ∧ ∀ y ∈ xs, x ≤ y)

/-- The place that follows stays the one that follows when there are fewer,
if it is still there. -/
theorem IsSuccessor.subset {xs ys : List UInt32} {k : UInt32} (h : IsSuccessor xs k x)
    (hsub : ys ⊆ xs) (hx : x ∈ ys) : IsSuccessor ys k x := by
  obtain ⟨-, ⟨hk, hmin⟩ | ⟨hpast, hmin⟩⟩ := h
  · exact ⟨hx, .inl ⟨hk, fun y hy => hmin y (hsub hy)⟩⟩
  · exact ⟨hx, .inr ⟨fun y hy => hpast y (hsub hy), fun y hy => hmin y (hsub hy)⟩⟩

theorem successor?_eq_some_iff {xs : List UInt32} {k : UInt32} :
    successor? xs k = some x ↔ IsSuccessor xs k x := by
  have hnone : (xs.filter fun x => k ≤ x).min? = none ↔ ∀ y ∈ xs, y < k := by
    rw [List.min?_eq_none_iff, List.filter_eq_nil_iff]
    simp only [decide_eq_true_eq, UInt32.not_le]
  unfold successor? IsSuccessor
  rw [Option.or_eq_some_iff, hnone, List.min?_eq_some_iff, List.min?_eq_some_iff]
  simp only [List.mem_filter, decide_eq_true_eq]
  constructor
  · rintro (⟨⟨hx, hk⟩, hmin⟩ | ⟨hpast, hx, hmin⟩)
    · exact ⟨hx, .inl ⟨hk, fun y hy hky => hmin y ⟨hy, hky⟩⟩⟩
    · exact ⟨hx, .inr ⟨hpast, hmin⟩⟩
  · rintro ⟨hx, ⟨hk, hmin⟩ | ⟨hpast, hmin⟩⟩
    · exact .inl ⟨⟨hx, hk⟩, fun y hy => hmin y hy.1 hy.2⟩
    · exact .inr ⟨hpast, hx, hmin⟩

theorem successor?_isSome {xs : List UInt32} (hx : x ∈ xs) (k : UInt32) :
    (successor? xs k).isSome = true := by
  have hmin : xs.min?.isSome = true := by
    rw [Option.isSome_iff_ne_none, Ne, List.min?_eq_none_iff]
    exact List.ne_nil_of_mem hx
  unfold successor?
  rw [Option.isSome_or, hmin, Bool.or_true]

/-- Every key belongs to some member. -/
theorem chosen?_isSome (hash : String → UInt32) (hn : 0 < n) (hms : ms ≠ []) (key : String) :
    (chosen? hash n ms key).isSome = true := by
  obtain ⟨m, hm⟩ := List.exists_mem_of_ne_nil ms hms
  have hplace : hash (Ring.nodeKey m.addr 0) ∈ ringPlaces hash n ms :=
    mem_ringPlaces_iff.2 ⟨m, hm, List.mem_map_of_mem (List.mem_range.2 hn)⟩
  obtain ⟨x, hx⟩ := Option.isSome_iff_exists.1 (successor?_isSome hplace (hash key))
  unfold chosen?
  rw [hx, Option.bind_some, firstOwner?_isSome_iff]
  exact (successor?_eq_some_iff.1 hx).1

/-! ## A ring as a map -/

namespace RingPoint

variable {ps qs : List RingPoint}

/-- The holder of the place. -/
def ownerAt? (ps : List RingPoint) (x : UInt32) : Option Member :=
  (ps.find? fun p => p.place == x).map RingPoint.holder

theorem ownerAt?_cons (p : RingPoint) (ps : List RingPoint) (x : UInt32) :
    ownerAt? (p :: ps) x = if p.place = x then some p.holder else ownerAt? ps x := by
  unfold ownerAt?
  rw [List.find?_cons]
  by_cases hp : p.place = x
  · rw [if_pos hp, beq_iff_eq.2 hp]
    rfl
  · rw [if_neg hp, beq_eq_false_iff_ne.2 hp]

/-- Nothing is held before the first point. -/
theorem ownerAt?_eq_none (h : ∀ p ∈ ps, p.place ≠ x) : ownerAt? ps x = none := by
  unfold ownerAt?
  rw [Option.map_eq_none_iff, List.find?_eq_none]
  intro p hp
  simpa using h p hp

theorem Ascending.mem_iff (hp : Ascending ps) : ⟨x, m⟩ ∈ ps ↔ ownerAt? ps x = some m := by
  induction ps with
  | nil => simp [ownerAt?]
  | cons p ps ih =>
    obtain ⟨hfirst, hrest⟩ := List.pairwise_cons.1 hp
    rw [ownerAt?_cons, List.mem_cons, ih hrest]
    by_cases hx : p.place = x
    · have hnone : ownerAt? ps x = none := ownerAt?_eq_none fun q hq heq => by
        have hlt := hfirst q hq
        rw [hx, heq] at hlt
        exact UInt32.lt_irrefl _ hlt
      rw [if_pos hx, hnone]
      subst hx
      cases p
      simp [eq_comm]
    · rw [if_neg hx]
      refine ⟨fun h => h.resolve_left fun heq => hx ?_, .inr⟩
      rw [← heq]

/-- Two rings are the same if every place has the same holder. -/
theorem Ascending.ext (hp : Ascending ps) (hq : Ascending qs)
    (h : ∀ x, ownerAt? ps x = ownerAt? qs x) : ps = qs := by
  have hnodup : ∀ {rs : List RingPoint}, Ascending rs → rs.Nodup := fun hr => by
    refine List.Pairwise.imp (fun hlt heq => ?_) hr
    rw [heq] at hlt
    exact UInt32.lt_irrefl _ hlt
  have hperm : ps.Perm qs := by
    refine (List.perm_ext_iff_of_nodup (hnodup hp) (hnodup hq)).2 fun ⟨x, m⟩ => ?_
    rw [hp.mem_iff, hq.mem_iff, h]
  refine hperm.eq_of_pairwise (fun _ _ _ _ hpq hqp => ?_) hp hq
  exact absurd (UInt32.lt_trans hpq hqp) (UInt32.lt_irrefl _)

/-- Where both lists hold a place, the first one keeps it. -/
theorem ownerAt?_merge (hp : Ascending ps) (qs : List RingPoint) (x : UInt32) :
    ownerAt? (merge ps qs) x = (ownerAt? ps x).or (ownerAt? qs x) := by
  fun_induction merge ps qs with
  | case1 qs => rfl
  | case2 ps => simp [ownerAt?]
  | case3 p ps q qs hlt ih =>
    rw [ownerAt?_cons, ownerAt?_cons p, ih (List.pairwise_cons.1 hp).2]
    split <;> rfl
  | case4 p ps q qs hlt hgt ih =>
    rw [ownerAt?_cons, ih hp, ownerAt?_cons q]
    split
    · rename_i hx
      -- The point lies before all of the first list.
      have hnone : ownerAt? (p :: ps) x = none := ownerAt?_eq_none fun r hr => by
        rcases List.mem_cons.1 hr with rfl | hr
        · exact fun heq => absurd hgt (by rw [hx, heq]; exact UInt32.lt_irrefl _)
        · intro heq
          have hlater := (List.pairwise_cons.1 hp).1 r hr
          rw [heq, ← hx] at hlater
          exact UInt32.lt_irrefl _ (UInt32.lt_trans hgt hlater)
      rw [hnone]
      rfl
    · rfl
  | case5 p ps q qs hlt hgt ih =>
    have heq : p.place = q.place :=
      UInt32.le_antisymm (UInt32.not_lt.1 hgt) (UInt32.not_lt.1 hlt)
    rw [ownerAt?_cons, ih (List.pairwise_cons.1 hp).2, ownerAt?_cons p, ownerAt?_cons q, heq]
    split <;> rfl

/-- A removed member holds nothing, and no other one loses a place. -/
theorem ownerAt?_filter (hp : Ascending ps) (addr : String) (x : UInt32) :
    ownerAt? (ps.filter fun p => p.holder.addr != addr) x =
      (ownerAt? ps x).filter fun m => m.addr != addr := by
  refine Option.ext fun m => ?_
  have hfiltered : Ascending (ps.filter fun p => p.holder.addr != addr) := hp.filter _
  rw [← hfiltered.mem_iff, List.mem_filter, Option.filter_eq_some_iff, ← hp.mem_iff]

end RingPoint

/-! ## The ring of a list of members -/

open RingPoint

/-- The ring that the members give when they are registered in turn. -/
def ringOf (hash : String → UInt32) (n : Nat) (ms : List Member) : Ring :=
  ms.foldl Ring.add (Ring.empty hash n)

theorem ite_or_ite (P Q : Prop) [Decidable P] [Decidable Q] (m : Member) :
    (if P then some m else none).or (if Q then some m else none) =
      if P ∨ Q then some m else none := by
  by_cases hP : P
  · rw [if_pos hP, if_pos (Or.inl hP), Option.some_or]
  · rw [if_neg hP, Option.none_or, if_congr (or_iff_right hP) rfl rfl]

/-- A member holds what it asks for, however its points are put together. -/
theorem ownerAt?_pointsFrom (hash : String → UInt32) (m : Member) (start count : Nat)
    (x : UInt32) :
    ownerAt? (Ring.pointsFrom hash m start count) x =
      if x ∈ (List.range' start count).map fun i => hash (Ring.nodeKey m.addr i) then some m
      else none := by
  fun_induction Ring.pointsFrom hash m start count with
  | case1 => simp [ownerAt?]
  | case2 start =>
    have hmem : x ∈ (List.range' start 1).map (fun i => hash (Ring.nodeKey m.addr i)) ↔
        hash (Ring.nodeKey m.addr start) = x := List.mem_singleton.trans eq_comm
    rw [ownerAt?_cons, if_congr hmem rfl rfl]
    rfl
  | case3 start count _ _ ih1 ih2 =>
    have hsplit : List.range' start count =
        List.range' start (count / 2) ++ List.range' (start + count / 2) (count - count / 2) := by
      rw [List.range'_append_1]
      congr 1
      omega
    rw [ownerAt?_merge (Ring.ascending_pointsFrom ..), ih1, ih2, hsplit, List.map_append,
      if_congr List.mem_append rfl rfl]
    exact ite_or_ite _ _ m

theorem ownerAt?_pointsOf (r : Ring) (m : Member) (x : UInt32) :
    ownerAt? (r.pointsOf m) x = if x ∈ nodePlaces r.hash r.virtualNodes m then some m else none := by
  unfold Ring.pointsOf nodePlaces
  rw [ownerAt?_pointsFrom, List.range_eq_range']

/-- Members that are registered get what nobody held, the first of them
first. -/
theorem ownerAt?_foldl_add (r : Ring) (ms : List Member) (x : UInt32) :
    ownerAt? (ms.foldl Ring.add r).points x =
      (ownerAt? r.points x).or (firstOwner? r.hash r.virtualNodes ms x) := by
  induction ms generalizing r with
  | nil => exact Option.or_none.symm
  | cons m ms ih =>
    have hadd : ownerAt? (r.add m).points x =
        (ownerAt? r.points x).or (ownerAt? (r.pointsOf m) x) := ownerAt?_merge r.ascending _ x
    rw [List.foldl_cons, ih, hadd, Option.or_assoc, ownerAt?_pointsOf, firstOwner?_cons]
    split <;> rfl

theorem hash_foldl_add (r : Ring) (ms : List Member) :
    (ms.foldl Ring.add r).hash = r.hash ∧
      (ms.foldl Ring.add r).virtualNodes = r.virtualNodes := by
  induction ms generalizing r with
  | nil => exact ⟨rfl, rfl⟩
  | cons m ms ih => exact ih (r.add m)

theorem Ring.eq_of_owners {r s : Ring} (hhash : r.hash = s.hash)
    (hnodes : r.virtualNodes = s.virtualNodes)
    (howners : ∀ x, ownerAt? r.points x = ownerAt? s.points x) : r = s := by
  have hpoints := r.ascending.ext s.ascending howners
  cases r
  cases s
  cases hhash
  cases hnodes
  cases hpoints
  rfl

/-- A place is held by the first member that asks for it. -/
theorem ownerAt?_ringOf (hash : String → UInt32) (n : Nat) (ms : List Member) (x : UInt32) :
    ownerAt? (ringOf hash n ms).points x = firstOwner? hash (max n 1) ms x :=
  ownerAt?_foldl_add (Ring.empty hash n) ms x

theorem ringOf_append (hash : String → UInt32) (n : Nat) (ms : List Member) (m : Member) :
    ringOf hash n (ms ++ [m]) = (ringOf hash n ms).add m := by
  unfold ringOf
  rw [List.foldl_append]
  rfl

/-- The first owner, if it stays, or else the first one among those that
stay: that is the first one among those that stay. -/
theorem firstOwner?_filter (hash : String → UInt32) (n : Nat) (ms : List Member)
    (stays : Member → Bool) (x : UInt32) :
    ((firstOwner? hash n ms x).filter stays).or (firstOwner? hash n (ms.filter stays) x) =
      firstOwner? hash n (ms.filter stays) x := by
  induction ms with
  | nil => rfl
  | cons m ms ih =>
    by_cases hm : stays m = true
    · rw [List.filter_cons_of_pos hm, firstOwner?_cons, firstOwner?_cons]
      split
      · rw [Option.filter_some, if_pos hm, Option.some_or]
      · exact ih
    · rw [List.filter_cons_of_neg hm, firstOwner?_cons]
      split
      · rw [Option.filter_some, if_neg hm, Option.none_or]
      · exact ih

/-- Removing an address leaves the ring of the other members. -/
theorem ringOf_remove (hash : String → UInt32) (n : Nat) (ms : List Member) (addr : String) :
    (ringOf hash n ms).remove addr (ms.filter fun m => m.addr != addr) =
      ringOf hash n (ms.filter fun m => m.addr != addr) := by
  obtain ⟨hhash, hnodes⟩ := hash_foldl_add (Ring.empty hash n) ms
  refine Ring.eq_of_owners ?_ ?_ fun x => ?_
  · exact (hash_foldl_add _ _).1.trans (hhash.trans (hash_foldl_add _ _).1.symm)
  · exact (hash_foldl_add _ _).2.trans (hnodes.trans (hash_foldl_add _ _).2.symm)
  · have hdrop : ownerAt? ((ringOf hash n ms).drop addr).points x =
        (firstOwner? hash (max n 1) ms x).filter fun m => m.addr != addr := by
      rw [← ownerAt?_ringOf]
      exact ownerAt?_filter (ringOf hash n ms).ascending addr x
    have hrest : firstOwner? ((ringOf hash n ms).drop addr).hash
        ((ringOf hash n ms).drop addr).virtualNodes (ms.filter fun m => m.addr != addr) x =
        firstOwner? hash (max n 1) (ms.filter fun m => m.addr != addr) x :=
      congrArg₂ (fun hash n => firstOwner? hash n _ x) hhash hnodes
    unfold Ring.remove
    rw [ownerAt?_foldl_add, hdrop, hrest, ownerAt?_ringOf]
    exact firstOwner?_filter hash (max n 1) ms _ x

/-! ## Keys -/

/-- The member of a key holds the place that follows the key's. -/
theorem holder?_cases (r : Ring) (key : String) :
    r.points = [] ∧ r.holder? key = none ∨
      ∃ p ∈ r.points, IsSuccessor (r.points.map RingPoint.place) (r.hash key) p.place ∧
        r.holder? key = some p.holder := by
  unfold Ring.holder?
  dsimp only
  cases hfind : r.points.find? fun p => decide (r.hash key ≤ p.place) with
  | some p =>
    obtain ⟨hk, before, rest, hsplit, hbefore⟩ := List.find?_eq_some_iff_append.1 hfind
    have hmem : p ∈ r.points := List.mem_of_find?_eq_some hfind
    refine .inr ⟨p, hmem, ⟨List.mem_map_of_mem hmem, .inl ⟨of_decide_eq_true hk, ?_⟩⟩, rfl⟩
    intro y hy hky
    obtain ⟨q, hq, rfl⟩ := List.mem_map.1 hy
    have hasc := r.ascending
    unfold RingPoint.Ascending at hasc
    rw [hsplit] at hq hasc
    rcases List.mem_append.1 hq with hearly | hlate
    · exact absurd (decide_eq_true hky) (by simpa using hbefore q hearly)
    · rcases List.mem_cons.1 hlate with rfl | hlater
      · exact UInt32.le_refl _
      · have hlt := (List.pairwise_cons.1 (List.pairwise_append.1 hasc).2.1).1 q hlater
        exact UInt32.le_of_lt hlt
  | none =>
    cases hpoints : r.points with
    | nil => exact .inl ⟨rfl, rfl⟩
    | cons p rest =>
      have hpast : ∀ q ∈ r.points, q.place < r.hash key := fun q hq => by
        have hq' := List.find?_eq_none.1 hfind q hq
        simpa [UInt32.not_le] using hq'
      have hfirst : ∀ q ∈ r.points, p.place ≤ q.place := fun q hq => by
        have hasc := r.ascending
        unfold RingPoint.Ascending at hasc
        rw [hpoints] at hq hasc
        rcases List.mem_cons.1 hq with rfl | hlater
        · exact UInt32.le_refl _
        · exact UInt32.le_of_lt ((List.pairwise_cons.1 hasc).1 q hlater)
      rw [hpoints] at hpast hfirst
      refine .inr ⟨p, List.mem_cons_self, ⟨List.mem_map_of_mem List.mem_cons_self, .inr ?_⟩, rfl⟩
      exact ⟨List.forall_mem_map.2 hpast, List.forall_mem_map.2 hfirst⟩

theorem mem_points_iff : ⟨x, m⟩ ∈ (ringOf hash n ms).points ↔
    firstOwner? hash (max n 1) ms x = some m := by
  rw [(ringOf hash n ms).ascending.mem_iff, ownerAt?_ringOf]

/-- The places of a ring are those that its members ask for. -/
theorem mem_places_iff : x ∈ (ringOf hash n ms).points.map RingPoint.place ↔
    x ∈ ringPlaces hash (max n 1) ms := by
  rw [← firstOwner?_isSome_iff, Option.isSome_iff_exists, List.mem_map]
  constructor
  · rintro ⟨⟨y, m⟩, hp, rfl⟩
    exact ⟨m, mem_points_iff.1 hp⟩
  · rintro ⟨m, hm⟩
    exact ⟨⟨x, m⟩, mem_points_iff.2 hm, rfl⟩

/-- The member that a key belongs to can be read off the members. -/
theorem holder?_ringOf (hash : String → UInt32) (n : Nat) (ms : List Member) (key : String) :
    (ringOf hash n ms).holder? key = chosen? hash (max n 1) ms key := by
  have hhash : (ringOf hash n ms).hash = hash := (hash_foldl_add _ ms).1
  unfold chosen?
  rcases holder?_cases (ringOf hash n ms) key with ⟨hnil, hnone⟩ | ⟨⟨x, m⟩, hp, hnext, hsome⟩
  · have hplaces : ringPlaces hash (max n 1) ms = [] := by
      refine List.eq_nil_iff_forall_not_mem.2 fun x hx => ?_
      rw [← mem_places_iff, hnil] at hx
      cases hx
    rw [hnone, hplaces]
    rfl
  · rw [hhash] at hnext
    have hnext' : IsSuccessor (ringPlaces hash (max n 1) ms) (hash key) x :=
      hnext.subset (fun _ hy => mem_places_iff.2 hy) (mem_places_iff.1 hnext.1)
    rw [hsome, successor?_eq_some_iff.2 hnext', Option.bind_some, mem_points_iff.1 hp]

/-! ## Runs -/

/-- A balancer without members that chooses by a ring with this hash. -/
def hashed (hash : String → UInt32) (n : Nat) : Balancer :=
  Registry.empty (.ring (Ring.empty hash n))

example (n : Nat) : create .consistentHash n = hashed Checksum.ofText n := rfl

/-- The ring of the balancer is that of its members. -/
def Ringed (hash : String → UInt32) (n : Nat) (b : Balancer) : Prop :=
  b.state = .ring (ringOf hash n b.members)

variable {b : Balancer}

theorem Ringed.state_eq (hr : Ringed hash n b) : b.state = .ring (ringOf hash n b.members) := hr

theorem Ringed.strategy_eq (hr : Ringed hash n b) : b.strategy = .consistentHash :=
  congrArg Policy.strategy hr

/-- A registered member has its points on the ring. -/
theorem Ringed.add_cases (hr : Ringed hash n b) (fleet : Fleet ε) (m : Member) :
    (b.closed = true ∨ m.addr ∈ b.addrs) ∧ (∃ fault, b.add fleet m = .error fault) ∨
      b.closed = false ∧ m.addr ∉ b.addrs ∧
        b.add fleet m = .ok { b with
          members := b.members ++ [m]
          state := .ring (ringOf hash n (b.members ++ [m])) } := by
  have hunweighted : b.strategy.isWeighted ≠ true := by
    rw [hr.strategy_eq]
    nofun
  rcases Balancer.add_cases b fleet m with ⟨hwhy, hfault⟩ | ⟨-, hopen, hfree, hok⟩
  · exact .inl ⟨hwhy.resolve_left fun hweight => hunweighted hweight.1, hfault⟩
  · refine .inr ⟨hopen, hfree, hok.trans ?_⟩
    rw [ringOf_append, hr.state_eq]
    rfl

theorem Ringed.remove?_cases (hr : Ringed hash n b) (hb : b.addrs.Nodup) (addr : String) :
    addr ∉ b.addrs ∧ b.remove? addr = none ∨
      ∃ m ∈ b.members, m.addr = addr ∧
        b.remove? addr = some (m, { b with
          members := b.others addr
          state := .ring (ringOf hash n (b.others addr)) }) := by
  rcases Balancer.remove?_cases hb addr with hnone | ⟨i, m, hm, haddr, hsome⟩
  · exact .inl hnone
  · refine .inr ⟨m, List.mem_of_getElem? hm, haddr, hsome.trans ?_⟩
    have hleft : b.state.leave i m (b.others addr) = .ring (ringOf hash n (b.others addr)) := by
      rw [hr.state_eq]
      unfold Policy.leave
      rw [haddr]
      exact congrArg Policy.ring (ringOf_remove hash n b.members addr)
    rw [hleft]

/-- A selection asks the ring, and changes nothing. -/
theorem Ringed.choose?_eq (hr : Ringed hash n b) (fleet : Fleet ε) (key : String) :
    b.choose? fleet key =
      (chosen? hash (max n 1) b.members key).map fun m => ⟨m, b, fleet⟩ := by
  unfold choose?
  rw [hr.state_eq]
  dsimp only
  rw [holder?_ringOf]

theorem Ringed.apply (hr : Ringed hash n b) (hb : b.addrs.Nodup) (move : Move ε) :
    Ringed hash n (b.apply move) := by
  cases move with
  | add fleet m =>
    rw [apply_add]
    rcases hr.add_cases fleet m with ⟨-, fault, hfault⟩ | ⟨-, -, hok⟩
    · rw [hfault]
      exact hr
    · rw [hok]
      rfl
  | remove addr =>
    rw [apply_remove]
    rcases hr.remove?_cases hb addr with ⟨-, hnone⟩ | ⟨m, -, -, hsome⟩
    · rw [hnone]
      exact hr
    · rw [hsome]
      rfl
  | select fleet key =>
    rw [apply_select]
    rcases select_cases b fleet key with ⟨fault, hfault⟩ | ⟨selection, hchosen, hok⟩
    · rw [hfault]
      exact hr
    · rw [hr.choose?_eq] at hchosen
      obtain ⟨m, -, rfl⟩ := Option.map_eq_some_iff.1 hchosen
      rw [hok]
      exact hr
  | close fleet =>
    rw [apply_close]
    exact hr

theorem ringed_after (hash : String → UInt32) (n : Nat) (moves : List (Move ε)) :
    ((hashed hash n).after moves).addrs.Nodup ∧ Ringed hash n ((hashed hash n).after moves) := by
  have hrun : ∀ {b : Balancer}, b.addrs.Nodup → Ringed hash n b →
      (b.after moves).addrs.Nodup ∧ Ringed hash n (b.after moves) := by
    induction moves with
    | nil => exact fun hb hr => ⟨hb, hr⟩
    | cons move moves ih => exact fun hb hr => ih (nodup_addrs_apply hb move) (hr.apply hb move)
  exact hrun List.nodup_nil rfl

/-- Endpoints with new and distinct addresses are all registered. -/
theorem Ringed.addAll_eq (hr : Ringed hash n b) (hopen : b.closed = false) (fleet : Fleet ε)
    {ms : List Member} (hms : (b.addrs ++ ms.map Member.addr).Nodup) :
    addAll fleet b ms = .ok { b with
      members := b.members ++ ms
      state := .ring (ringOf hash n (b.members ++ ms)) } := by
  induction ms generalizing b with
  | nil =>
    unfold addAll
    rw [List.append_nil, ← hr.state_eq]
  | cons m ms ih =>
    have hfree : m.addr ∉ b.addrs := fun htaken =>
      (List.nodup_append.1 hms).2.2 _ htaken _ List.mem_cons_self rfl
    unfold addAll
    rcases hr.add_cases fleet m with ⟨hclosed | htaken, -⟩ | ⟨-, -, hok⟩
    · cases hopen.symm.trans hclosed
    · exact absurd htaken hfree
    · have hrest : ((b.members ++ [m]).map Member.addr ++ ms.map Member.addr).Nodup := by
        rw [List.map_append, List.append_assoc]
        exact hms
      have hnext : Ringed hash n { b with
          members := b.members ++ [m]
          state := .ring (ringOf hash n (b.members ++ [m])) } := rfl
      rw [hok]
      dsimp only
      rw [ih hnext hopen hrest, List.append_assoc]
      rfl

theorem Ringed.select_eq (hr : Ringed hash n b) (hopen : b.closed = false)
    (hmembers : b.members ≠ []) (fleet : Fleet ε) (key : String) :
    ∃ m, chosen? hash (max n 1) b.members key = some m ∧
      b.select fleet (some key) = .ok ⟨m, b, fleet⟩ := by
  have hn : 0 < max n 1 := by omega
  obtain ⟨m, hm⟩ := Option.isSome_iff_exists.1 (chosen?_isSome hash hn hmembers key)
  refine ⟨m, hm, ?_⟩
  have hselectable : b.checkSelectable = .ok () := by
    unfold Registry.checkSelectable
    rw [if_neg (Bool.eq_false_iff.1 hopen), if_neg (by simpa using hmembers)]
  have hkeyed : ¬(b.strategy.needsKey = true ∧ some key = none) := fun hkey => nomatch hkey.2
  have hchosen : b.choose? fleet ((some key).getD "") = some ⟨m, b, fleet⟩ :=
    (hr.choose?_eq fleet key).trans (by rw [hm]; rfl)
  unfold select
  rw [hselectable]
  dsimp only
  rw [if_neg hkeyed, hchosen]

/-- Whatever happened to a hash balancer, it is but for the closed flag the
one that registering its present members on an empty one gives.  Its ring
holds the places that these members ask for, each with the first member
that asks for it.  While it is open and has members, a selection finds the
member that holds the next place after the key. -/
theorem ring_from_members (hash : String → UInt32) (virtualNodes : Nat)
    (moves : List (Move ε)) :
    let n := max virtualNodes 1
    let b := (hashed hash virtualNodes).after moves
    (∀ fleet : Fleet ε,
        addAll fleet (hashed hash virtualNodes) b.members = .ok { b with closed := false }) ∧
      (∃ r, b.state = .ring r ∧
        (∀ x, (∃ m, ⟨x, m⟩ ∈ r.points) ↔
          ∃ m ∈ b.members, ∃ i < n, hash (Ring.nodeKey m.addr i) = x) ∧
        ∀ x m, ⟨x, m⟩ ∈ r.points ↔ firstOwner? hash n b.members x = some m) ∧
      (b.closed = false → b.members ≠ [] → ∀ (fleet : Fleet ε) (key : String),
        ∃ m, chosen? hash n b.members key = some m ∧
          b.select fleet (some key) = .ok ⟨m, b, fleet⟩) := by
  intro n b
  obtain ⟨hnodup, hringed⟩ : b.addrs.Nodup ∧ Ringed hash virtualNodes b :=
    ringed_after hash virtualNodes moves
  refine ⟨fun fleet => ?_, ⟨_, hringed, fun x => ?_, fun x m => mem_points_iff⟩,
    fun hopen hmembers fleet key => hringed.select_eq hopen hmembers fleet key⟩
  · have hnew : Ringed hash virtualNodes (hashed hash virtualNodes) := rfl
    rw [hnew.addAll_eq rfl fleet hnodup, hringed.state_eq]
    rfl
  · have hplaces : (∃ m, ⟨x, m⟩ ∈ (ringOf hash virtualNodes b.members).points) ↔
        x ∈ ringPlaces hash n b.members := by
      rw [← firstOwner?_isSome_iff, Option.isSome_iff_exists]
      exact exists_congr fun m => mem_points_iff
    rw [hplaces, mem_ringPlaces_iff]
    simp only [nodePlaces, List.mem_map, List.mem_range]

/-- With the length of a text as its hash, the points of `a` and `b` are all
the same.  When `a` leaves, `b` takes over.  A key that is longer than all
points belongs to the first of them. -/
theorem ring_from_members_collided :
    let hash : String → UInt32 := fun text => UInt32.ofNat text.length
    let fleet : Fleet PlainEndpoint := #[]
    let b := (hashed hash 2).after
      [.add fleet ⟨0, "a"⟩, .add fleet ⟨1, "b"⟩, .add fleet ⟨2, "long"⟩, .add fleet ⟨3, "a"⟩,
        .select fleet (some "key"), .remove "a"]
    b.closed = false ∧ b.members = [⟨1, "b"⟩, ⟨2, "long"⟩] ∧
      addAll fleet (hashed hash 2) b.members = .ok { b with closed := false } ∧
      (∃ r, b.state = .ring r ∧ ⟨3, 1, "b"⟩ ∈ r.points) ∧
      ∃ m, chosen? hash 2 b.members "a long key" = some m ∧
        b.select fleet (some "a long key") = .ok ⟨m, b, fleet⟩ := by
  intro hash fleet b
  have hopen : b.closed = false := by decide +kernel
  have hmembers : b.members = [⟨1, "b"⟩, ⟨2, "long"⟩] := by decide +kernel
  obtain ⟨hbuilt, ⟨r, hr, -, howners⟩, hselect⟩ := ring_from_members hash 2
    [.add fleet ⟨0, "a"⟩, .add fleet ⟨1, "b"⟩, .add fleet ⟨2, "long"⟩, .add fleet ⟨3, "a"⟩,
      .select fleet (some "key"), .remove "a"]
  refine ⟨hopen, hmembers, hbuilt fleet, ⟨r, hr, (howners _ _).2 (by decide +kernel)⟩, ?_⟩
  exact hselect hopen (by decide +kernel) fleet _

end PooledRouting.Balancer
