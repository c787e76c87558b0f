import PooledRouting.Balancer.PlainEndpoint
import PooledRouting.Proofs.Balancer.Choosing
import PooledRouting.Proofs.Balancer.InWords

/-!
# The current weights and their endpoints

A smooth rotation keeps its current weights in a list of their own, beside
the list of the members.  Registering, removing and choosing edit the two
lists in separate steps, and a removal shifts the places behind it.

Read as pairs, the two lists are one in which every member carries its own
weight (`purses`).  Looking up an address there is `currentWeight?`
(`Aligned.currentWeight?_eq`), so what an operation does to the weight of an
address is a law of `List.find?`:

* a new pair is last (`Aligned.purses_join`);
* a removal takes out the pairs of one address (`Aligned.purses_leave`), since
  the two lists are erased at the same place (`zip_eraseIdx_eq_filter`);
* a turn keeps every pair at its place (`Aligned.turn`).

`Follows` says what each move should do to the weights, and `Aligned.follows`
that it does, also after any history of the weights.

Current weights are words of 64 bits, so the runs are those of
`afterInWords?`, in which nothing overflows.
-/

namespace PooledRouting.Balancer

variable {ε : Type} [Endpoint ε]

/-! ## The first greatest -/

/-- The place is the first of those with the greatest number. -/
def FirstGreatest (xs : List Int) (place : Nat) : Prop :=
  ∃ y, xs[place]? = some y ∧ (∀ x ∈ xs, x ≤ y) ∧ ∀ x ∈ xs.take place, x < y

namespace SmoothWeights

/-- What stands before the one that is chosen is less. -/
theorem lt_of_firstBest? {xs : List Int} {i : Nat} {y : Int}
    (h : firstBest? (fun x y => decide (y < x)) xs = some (i, y)) : ∀ x ∈ xs.take i, x < y := by
  induction xs generalizing i y with
  | nil => cases h
  | cons x xs ih =>
    rw [firstBest?] at h
    cases hrest : firstBest? (fun x y => decide (y < x)) xs with
    | none =>
      rw [hrest] at h
      cases h
      simp
    | some best =>
      obtain ⟨j, z⟩ := best
      rw [hrest] at h
      dsimp only at h
      by_cases hlt : x < z
      · rw [if_pos (decide_eq_true hlt)] at h
        cases h
        rw [List.take_succ_cons, List.forall_mem_cons]
        exact ⟨hlt, ih hrest⟩
      · rw [if_neg (by simpa using hlt)] at h
        cases h
        simp

theorem firstGreatest_of_place? {w : SmoothWeights} {place : Nat} (h : w.place? = some place) :
    FirstGreatest w.currents place := by
  obtain ⟨⟨i, y⟩, hbest, rfl⟩ := Option.map_eq_some_iff.1 h
  exact ⟨y, getElem?_of_firstBest? hbest, le_of_firstBest? hbest, lt_of_firstBest? hbest⟩

end SmoothWeights

variable {b b' : Balancer} {w : SmoothWeights} {m : Member} {addr : String}

/-! ## Pairs -/

/-- Members with the current weights that they carry. -/
def purses (ms : List Member) (w : SmoothWeights) : List (Member × Int) :=
  ms.zip w.currents

/-- What is found at the place of a member in the one list is found beside
the member in the pairs. -/
theorem findIdx?_bind_eq_find? {ms : List Member} {xs : List Int} (hlength : xs.length = ms.length)
    (p : Member → Bool) :
    ((ms.findIdx? p).bind fun i => xs[i]?) =
      ((ms.zip xs).find? fun e => p e.1).map Prod.snd := by
  induction ms generalizing xs with
  | nil => rfl
  | cons m ms ih =>
    obtain ⟨x, xs, rfl⟩ := List.exists_cons_of_length_eq_add_one hlength
    have hrest := @ih xs (by simpa using hlength)
    rw [List.findIdx?_cons, List.zip_cons_cons, List.find?_cons]
    cases hm : p m with
    | true => rfl
    | false => simpa [Option.bind_map, Function.comp_def] using hrest

/-- To erase a member and the weight at its place is to take out the pairs
of its address. -/
theorem zip_eraseIdx_eq_filter {ms : List Member} (hms : (ms.map Member.addr).Nodup)
    {xs : List Int} (hlength : xs.length = ms.length) {i : Nat}
    (hi : ms.findIdx? (fun m => m.addr == addr) = some i) :
    (ms.eraseIdx i).zip (xs.eraseIdx i) = (ms.zip xs).filter fun e => e.1.addr != addr := by
  induction ms generalizing xs i with
  | nil => cases hi
  | cons m ms ih =>
    obtain ⟨x, xs, rfl⟩ := List.exists_cons_of_length_eq_add_one hlength
    obtain ⟨hnew, hrest⟩ := List.nodup_cons.1 hms
    have hlength : xs.length = ms.length := by simpa using hlength
    rw [List.findIdx?_cons] at hi
    by_cases hm : m.addr = addr
    · rw [if_pos (beq_iff_eq.2 hm)] at hi
      obtain rfl := Option.some.inj hi
      have hnone : (ms.zip xs).filter (fun e => e.1.addr != addr) = ms.zip xs := by
        refine List.filter_eq_self.2 fun e he => bne_iff_ne.2 fun hsame => hnew ?_
        rw [hm, ← hsame]
        exact List.mem_map_of_mem (List.of_mem_zip he).1
      rw [List.zip_cons_cons, List.filter_cons_of_neg (by simp [hm]), hnone]
      rfl
    · rw [if_neg (by simpa using hm)] at hi
      obtain ⟨j, hj, rfl⟩ := Option.map_eq_some_iff.1 hi
      rw [List.zip_cons_cons, List.filter_cons_of_pos (by simpa using hm),
        List.eraseIdx_cons_succ, List.eraseIdx_cons_succ, List.zip_cons_cons, ih hrest hlength hj]

/-! ## Smooth rotations -/

/-- The balancer is a smooth rotation at these current weights, one for each
member. -/
structure Aligned (b : Balancer) (w : SmoothWeights) : Prop where
  state : b.state = .smooth w
  length : w.currents.length = b.members.length
  nodup : b.addrs.Nodup

namespace Aligned

theorem currentWeight?_eq (h : b.Aligned w) (addr : String) : b.currentWeight? addr =
    ((purses b.members w).find? fun e => e.1.addr == addr).map Prod.snd := by
  unfold currentWeight?
  rw [h.state]
  exact findIdx?_bind_eq_find? h.length _

/-- The weight at a place is that of the member there. -/
theorem currentWeight?_of_getElem? (h : b.Aligned w) {i : Nat} (hm : b.members[i]? = some m) :
    b.currentWeight? m.addr = w.currents[i]? := by
  unfold currentWeight?
  rw [h.state, position?_of_getElem? h.nodup hm]
  rfl

theorem currentWeight?_of_notMem (h : b.Aligned w) (hfree : addr ∉ b.addrs) :
    b.currentWeight? addr = none := by
  unfold currentWeight?
  rw [h.state, position?_eq_none_iff.2 hfree]
  rfl

/-! ## Registering, removing and choosing -/

/-- A new member is last in both lists. -/
theorem join (h : b.Aligned w) (hfree : m.addr ∉ b.addrs) (weight : UInt32) :
    Aligned { b with members := b.members ++ [m], state := b.state.join m weight }
      (w.push weight) where
  state := by
    show b.state.join m weight = _
    rw [h.state]
    rfl
  length := by
    show _ = (b.members ++ [m]).length
    rw [SmoothWeights.length_push, h.length, List.length_append, List.length_singleton]
  nodup := by
    have hnodup : ((b.members ++ [m]).map Member.addr).Nodup := by
      rw [List.map_append]
      exact List.nodup_append.2 ⟨h.nodup, List.nodup_singleton _, by simpa [addrs] using hfree⟩
    exact hnodup

theorem purses_join (h : b.Aligned w) (weight : UInt32) :
    purses (b.members ++ [m]) (w.push weight) =
      purses b.members w ++ [(m, (weight.toNat : Int))] :=
  List.zip_append h.length.symm

/-- What leaves is at the same place in both lists. -/
theorem leave (h : b.Aligned w) {i : Nat} (hm : b.members[i]? = some m) :
    Aligned { b with
      members := b.others m.addr
      state := b.state.leave i m (b.others m.addr) } (w.erase i) where
  state := by
    show b.state.leave i m (b.others m.addr) = _
    rw [h.state]
    rfl
  length := by
    show (w.currents.eraseIdx i).length = (b.others m.addr).length
    rw [others, ← eraseIdx_eq_filter h.nodup (position?_of_getElem? h.nodup hm),
      List.length_eraseIdx, List.length_eraseIdx, h.length]
  nodup := h.nodup.sublist (List.filter_sublist.map _)

theorem purses_leave (h : b.Aligned w) {i : Nat} (hm : b.members[i]? = some m) :
    purses (b.others m.addr) (w.erase i) =
      (purses b.members w).filter fun e => e.1.addr != m.addr := by
  have hi := position?_of_getElem? h.nodup hm
  rw [others, ← eraseIdx_eq_filter h.nodup hi]
  exact zip_eraseIdx_eq_filter h.nodup h.length hi

/-- A turn keeps the members and the places of their weights. -/
theorem turn (h : b.Aligned w) (place : Nat) (fleet : Fleet ε) :
    Aligned { b with state := .smooth (w.turn place (b.ids.map fleet.weight)) }
      (w.turn place (b.ids.map fleet.weight)) where
  state := rfl
  length := by
    have hids : (b.ids.map fleet.weight).length = b.members.length := by simp [Registry.ids]
    exact (SmoothWeights.length_turn_of_length (h.length.trans hids.symm) place).trans hids
  nodup := h.nodup

end Aligned

/-! ## Moves -/

/-- What the move does to the current weights `w` of the balancer `b`, which
it turns into `b'`.  A refused call changes nothing.

* A new member begins at its static weight, and the other addresses keep
  their current weights.
* A removed address has no current weight any more, and the others keep
  theirs.
* A choice goes to the first member with the greatest current weight, who
  pays the sum of all; everybody earns the static weight that is read in the
  choice, and the sum after it is that of the static weights. -/
def Follows (b : Balancer) (w : SmoothWeights) (move : Move ε) (b' : Balancer) : Prop :=
  match move with
  | .add fleet m =>
    (∃ fault, b.add fleet m = .error fault) ∧ b' = b ∨
      b.add fleet m = .ok b' ∧ b'.members = b.members ++ [m] ∧
        b'.currentWeight? m.addr = some ((fleet.weight m.id).toNat : Int) ∧
        ∀ addr ≠ m.addr, b'.currentWeight? addr = b.currentWeight? addr
  | .remove addr =>
    b'.members = b.others addr ∧ b'.currentWeight? addr = none ∧
      ∀ other ≠ addr, b'.currentWeight? other = b.currentWeight? other
  | .select fleet key =>
    (b.closed = true ∨ b.members = []) ∧ (∃ fault, b.select fleet key = .error fault) ∧ b' = b ∨
      ∃ x place w', b.select fleet key = .ok x ∧ x.balancer = b' ∧
        b.members[place]? = some x.member ∧ FirstGreatest w.currents place ∧
        b'.state = .smooth w' ∧ w'.total = weightSum (b.ids.map fleet.weight) ∧
        b'.members = b.members ∧
        ∀ i m, b.members[i]? = some m → b'.currentWeight? m.addr =
          some (w.current i + (fleet.weight m.id).toNat - if i = place then w.total else 0)
  | .close _ =>
    b'.members = b.members ∧ ∀ addr, b'.currentWeight? addr = b.currentWeight? addr

namespace Aligned

theorem follows_add (h : b.Aligned w) (fleet : Fleet ε) (m : Member) :
    (∃ w', (b.apply (.add fleet m)).Aligned w') ∧
      Follows b w (.add fleet m) (b.apply (.add fleet m)) := by
  rw [apply_add]
  rcases add_cases b fleet m with ⟨-, fault, hfault⟩ | ⟨-, -, hfree, hok⟩
  · rw [hfault]
    exact ⟨⟨w, h⟩, .inl ⟨⟨fault, hfault⟩, rfl⟩⟩
  · have hjoined := h.join hfree (fleet.weight m.id)
    have hpairs := h.purses_join (m := m) (fleet.weight m.id)
    rw [hok]
    refine ⟨⟨_, hjoined⟩, .inr ⟨hok, rfl, ?_, fun addr hne => ?_⟩⟩
    · have hlast : (b.members ++ [m])[b.members.length]? = some m := by simp
      rw [Except.toOption, Option.getD_some, hjoined.currentWeight?_of_getElem? hlast, ← h.length]
      simp [SmoothWeights.push]
    · have hother : (m.addr == addr) = false := beq_eq_false_iff_ne.2 hne.symm
      rw [Except.toOption, Option.getD_some, hjoined.currentWeight?_eq, hpairs, List.find?_append,
        h.currentWeight?_eq]
      simp [hother]

theorem follows_remove (h : b.Aligned w) (addr : String) :
    (∃ w', (b.apply (.remove addr : Move ε)).Aligned w') ∧
      Follows b w (.remove addr : Move ε) (b.apply (.remove addr : Move ε)) := by
  rw [apply_remove]
  rcases remove?_cases h.nodup addr with ⟨hfree, hnone⟩ | ⟨i, m, hm, rfl, hsome⟩
  · rw [hnone]
    exact ⟨⟨w, h⟩, (others_eq_self hfree).symm, h.currentWeight?_of_notMem hfree, fun _ _ => rfl⟩
  · have hleft := h.leave hm
    have hpairs := h.purses_leave hm
    rw [hsome]
    refine ⟨⟨_, hleft⟩, rfl, hleft.currentWeight?_of_notMem ?_, fun other hne => ?_⟩
    · show m.addr ∉ (b.others m.addr).map Member.addr
      simp [others]
    · show currentWeight? _ other = _
      rw [Option.elim_some, hleft.currentWeight?_eq, hpairs, List.find?_filter,
        h.currentWeight?_eq]
      congr 2
      funext e
      by_cases he : e.1.addr = other
      · simp [he, hne]
      · simp [he]

/-- A choice in a rotation with members is the turn of the first of greatest
current weight. -/
theorem choose?_eq (h : b.Aligned w) (hne : b.members ≠ []) (fleet : Fleet ε) (key : String) :
    ∃ place m, w.place? = some place ∧ b.members[place]? = some m ∧
      b.choose? fleet key = some
        ⟨m, { b with state := .smooth (w.turn place (b.ids.map fleet.weight)) }, fleet⟩ := by
  have hcurrents : w.currents ≠ [] := by
    rw [← List.length_pos_iff, h.length]
    exact List.length_pos_iff.2 hne
  obtain ⟨place, hplace⟩ := SmoothWeights.place?_isSome hcurrents
  have hlt : place < b.members.length := h.length ▸ SmoothWeights.place?_lt hplace
  have hget := List.getElem?_eq_getElem hlt
  refine ⟨place, b.members[place], hplace, hget, ?_⟩
  unfold choose?
  rw [h.state]
  simp only [hplace, hget, Option.bind_eq_bind, Option.bind_some]
  rfl

theorem follows_select (h : b.Aligned w) (fleet : Fleet ε) (key : Option String) :
    (∃ w', (b.apply (.select fleet key)).Aligned w') ∧
      Follows b w (.select fleet key) (b.apply (.select fleet key)) := by
  have hfits : b.state.Fits b.members := by
    rw [h.state]
    exact h.length
  have hkeyless : b.strategy.needsKey = false := by
    unfold strategy
    rw [h.state]
    rfl
  rw [apply_select]
  rcases select_of_fits hfits fleet key with ⟨hwhy, fault, hfault⟩ | ⟨⟨-, hne, -⟩, x, hx, hok⟩
  · have hwhy : b.closed = true ∨ b.members = [] := by
      rw [hkeyless] at hwhy
      simpa using hwhy
    rw [hfault]
    exact ⟨⟨w, h⟩, .inl ⟨hwhy, ⟨fault, hfault⟩, rfl⟩⟩
  · obtain ⟨place, m, hplace, hm, hchosen⟩ := h.choose?_eq hne fleet (key.getD "")
    obtain rfl := Option.some.inj (hx.symm.trans hchosen)
    have hturned := h.turn place fleet
    have hids : (b.ids.map fleet.weight).length = b.members.length := by simp [Registry.ids]
    have hlength : w.currents.length = (b.ids.map fleet.weight).length := h.length.trans hids.symm
    rw [hok]
    refine ⟨⟨_, hturned⟩, .inr ⟨_, place, _, hok, rfl, hm,
      SmoothWeights.firstGreatest_of_place? hplace, rfl, ?_, rfl, fun i m hm => ?_⟩⟩
    · exact SmoothWeights.total_turn hlength (hlength ▸ SmoothWeights.place?_lt hplace)
    · have hi : i < (b.ids.map fleet.weight).length :=
        hids ▸ (List.getElem?_eq_some_iff.1 hm).1
      have hlt := hturned.length.trans hids.symm ▸ hi
      have hcurrent := SmoothWeights.current_turn hlength place hi
      have hweight : weightAt (b.ids.map fleet.weight) i = (fleet.weight m.id).toNat := by
        simp [weightAt, Registry.ids, hm]
      rw [hweight, SmoothWeights.current, List.getElem?_eq_getElem hlt] at hcurrent
      show currentWeight? _ m.addr = _
      rw [Except.toOption, Option.elim_some, hturned.currentWeight?_of_getElem? hm,
        List.getElem?_eq_getElem hlt, ← hcurrent]
      rfl

theorem follows_close (h : b.Aligned w) (fleet : Fleet ε) :
    (∃ w', (b.apply (.close fleet)).Aligned w') ∧
      Follows b w (.close fleet) (b.apply (.close fleet)) := by
  rw [apply_close]
  exact ⟨⟨w, h.state, h.length, h.nodup⟩, rfl, fun _ => rfl⟩

/-- Each move keeps a weight for each member, and does to the weights what it
should. -/
theorem follows (h : b.Aligned w) (move : Move ε) :
    (∃ w', (b.apply move).Aligned w') ∧ Follows b w move (b.apply move) := by
  cases move with
  | add fleet m => exact h.follows_add fleet m
  | remove addr => exact h.follows_remove addr
  | select fleet key => exact h.follows_select fleet key
  | close fleet => exact h.follows_close fleet

theorem after (h : b.Aligned w) (moves : List (Move ε)) : ∃ w', (b.after moves).Aligned w' := by
  induction moves generalizing b w with
  | nil => exact ⟨w, h⟩
  | cons move moves ih =>
    obtain ⟨w', h'⟩ := (h.follows move).1
    exact ih h'

end Aligned

theorem aligned_create (virtualNodes : Nat) : (create .weightedRoundRobin virtualNodes).Aligned {} where
  state := rfl
  length := rfl
  nodup := List.nodup_nil

/-- In every run of a smooth rotation whose sums fit in words there is one
current weight for each member, at the place of the member.  A further move
gives every address the weight that it should have, chooses the first
greatest, and after a choice the weights sum to the static ones. -/
theorem smooth_weights_follow {virtualNodes : Nat} {moves : List (Move ε)} {move : Move ε}
    (hrun : (create .weightedRoundRobin virtualNodes).afterInWords? moves = some b)
    (hmove : b.applyInWords? move = some b') :
    ∃ w, b.state = .smooth w ∧ w.currents.length = b.members.length ∧
      (∀ (i : Nat) (m : Member), b.members[i]? = some m →
        b.currentWeight? m.addr = w.currents[i]?) ∧
      (∀ addr ∉ b.addrs, b.currentWeight? addr = none) ∧
      Follows b w move b' := by
  obtain ⟨w, h⟩ : ∃ w, b.Aligned w := by
    rw [after_of_inWords hrun]
    exact (aligned_create virtualNodes).after moves
  rw [apply_of_inWords hmove]
  exact ⟨w, h.state, h.length, fun i m hm => h.currentWeight?_of_getElem? hm,
    fun addr hfree => h.currentWeight?_of_notMem hfree, (h.follows move).2⟩

/-- `b` is refused a second time and then leaves, a weight of zero is refused,
and the weights of `a` and `c` change to 0 and 7.  The weights that are left
sum to 3 before the first choice after that, and to 7 ever after. -/
theorem smooth_weights_follow_departure :
    let early : Fleet PlainEndpoint :=
      #[{ addr := "a", weight := 4 }, { addr := "b", weight := 2 }, { addr := "c" },
        { addr := "d", weight := 0 }]
    let late : Fleet PlainEndpoint :=
      #[{ addr := "a", weight := 0 }, { addr := "b", weight := 2 }, { addr := "c", weight := 7 }]
    let moves : List (Move PlainEndpoint) :=
      [.add early ⟨0, "a"⟩, .add early ⟨1, "b"⟩, .add early ⟨2, "c"⟩, .select early none,
        .add early ⟨1, "b"⟩, .add early ⟨3, "d"⟩, .remove "b", .select late none]
    let b := (create .weightedRoundRobin 1).after moves
    ∃ w, (create .weightedRoundRobin 1).afterInWords? moves = some b ∧ b.state = .smooth w ∧
      b.currentWeight? "a" = w.currents[0]? ∧ b.currentWeight? "c" = w.currents[1]? ∧
      w.currents.length = 2 ∧ b.currentWeight? "b" = none ∧
      Follows b w (.select late none) (b.apply (.select late none)) ∧
      (b.apply (.select late none : Move PlainEndpoint)).currentWeight? "c" = some 6 := by
  intro early late moves b
  have hrun : (create .weightedRoundRobin 1).afterInWords? moves = some b := by
    obtain ⟨b', hb'⟩ := Option.isSome_iff_exists.1 (show
      ((create .weightedRoundRobin 1).afterInWords? moves).isSome = true by decide +kernel)
    rw [hb', after_of_inWords hb']
  have hmove : b.applyInWords? (.select late none) = some (b.apply (.select late none)) := by
    obtain ⟨b', hb'⟩ := Option.isSome_iff_exists.1 (show
      (b.applyInWords? (.select late none)).isSome = true by decide +kernel)
    rw [hb', apply_of_inWords hb']
  have hmembers : b.members = [⟨0, "a"⟩, ⟨2, "c"⟩] := by decide +kernel
  have hfree : "b" ∉ b.addrs := by decide +kernel
  obtain ⟨w, hstate, hlength, hplaces, hothers, hfollows⟩ := smooth_weights_follow hrun hmove
  rw [hmembers] at hplaces hlength
  exact ⟨w, hrun, hstate, hplaces 0 ⟨0, "a"⟩ rfl, hplaces 1 ⟨2, "c"⟩ rfl, hlength,
    hothers "b" hfree, hfollows, by decide +kernel⟩

end PooledRouting.Balancer
