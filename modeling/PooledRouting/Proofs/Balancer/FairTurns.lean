import Mathlib.Data.List.Rotate
import PooledRouting.Balancer.PlainEndpoint
import PooledRouting.Proofs.Balancer.Choosing

/-!
# Fair turns of a rotation

A rotation counts the selections that it has answered and nothing else: members
may come and go in any way, and the count stays (`rotation_apply`,
`rotation_after`).  The count is reduced to a place at each selection, so that
the place is always one of the present ones, and a selection of an open
rotation with members is always answered (`pick?_isSome`).

While the members stay the same, the count grows by one from answer to answer,
and its places go around the members in their order (`picks_eq`).  As many
answers in a row as there are members are therefore a rotation of the list of
members, wherever in the list they start.  What else happens in between does
not matter, such as a call that is refused.

`round_robin_fair` is the result.  The count is a word; it is not reached by
the turns of one round as long as there is room for them.
-/

namespace PooledRouting.Balancer

variable {ε : Type} [Endpoint ε] {b : Balancer} {r : Rotation}

/-! ## Answers -/

/-- Whether an endpoint is asked for. -/
def Move.isSelect : Move ε → Bool
  | .select .. => true
  | _ => false

/-- The member that is chosen, if the move is a selection that is answered. -/
def pick? (b : Balancer) : Move ε → Option Member
  | .select fleet key => (b.select fleet key).toOption.map Selection.member
  | _ => none

/-- The members that are chosen in these moves, in order. -/
def picks (b : Balancer) : List (Move ε) → List Member
  | [] => []
  | move :: moves => (b.pick? move).toList ++ (b.apply move).picks moves

/-- At every point of these moves the members are the same ones, and the
balancer is as open as it was. -/
def Keeps (b : Balancer) (moves : List (Move ε)) : Prop :=
  ∀ k, (b.after (moves.take k)).members = b.members ∧
    (b.after (moves.take k)).closed = b.closed

theorem Keeps.of_cons {move : Move ε} {moves : List (Move ε)} (h : b.Keeps (move :: moves)) :
    (b.apply move).members = b.members ∧ (b.apply move).closed = b.closed ∧
      (b.apply move).Keeps moves := by
  have hfirst : (b.apply move).members = b.members ∧ (b.apply move).closed = b.closed := h 1
  refine ⟨hfirst.1, hfirst.2, fun k => ?_⟩
  rw [hfirst.1, hfirst.2]
  exact h (k + 1)

/-! ## One move -/

theorem toNat_turn (r : Rotation) :
    r.turn.cursor.toNat = (r.cursor.toNat + 1) % UInt64.size := by
  simp [Rotation.turn, UInt64.toNat_add, UInt64.size]

/-- A move that picks nobody leaves the count; a pick is the member whose turn
it is, and counts. -/
theorem rotation_apply (hb : b.addrs.Nodup) (hstate : b.state = .rotation r) (move : Move ε) :
    b.pick? move = none ∧ (b.apply move).state = .rotation r ∨
      ∃ m, b.pick? move = some m ∧ b.members[r.place b.members.length]? = some m ∧
        (b.apply move).state = .rotation r.turn := by
  cases move with
  | add fleet m =>
    refine .inl ⟨rfl, ?_⟩
    rw [apply_add]
    rcases add_cases b fleet m with ⟨-, fault, hfault⟩ | ⟨-, -, -, hok⟩
    · simp [hfault, Except.toOption, hstate]
    · simp [hok, Except.toOption, hstate, Policy.join]
  | remove addr =>
    refine .inl ⟨rfl, ?_⟩
    rw [apply_remove]
    rcases remove?_cases hb addr with ⟨-, hnone⟩ | ⟨i, m, -, -, hsome⟩
    · simp [hnone, hstate]
    · simp [hsome, hstate, Policy.leave]
  | select fleet key =>
    rw [apply_select, pick?]
    rcases select_cases b fleet key with ⟨fault, hfault⟩ | ⟨x, hx, hok⟩
    · exact .inl (by simp [hfault, Except.toOption, hstate])
    · rw [choose?, hstate] at hx
      obtain ⟨m, hm, rfl⟩ := Option.map_eq_some_iff.1 hx
      exact .inr ⟨m, by simp [hok, Except.toOption, Registry.mapState, hm]⟩
  | close fleet =>
    refine .inl ⟨rfl, ?_⟩
    rw [apply_close]
    exact hstate

/-- An open rotation with members answers every selection. -/
theorem pick?_isSome (hstate : b.state = .rotation r) (hopen : b.closed = false)
    (hne : b.members ≠ []) (fleet : Fleet ε) (key : Option String) :
    ∃ x, b.select fleet key = .ok x ∧ b.members[r.place b.members.length]? = some x.member := by
  have hfits : b.state.Fits b.members := by
    rw [hstate]
    trivial
  have hkeyless : b.strategy.needsKey = false := by
    simp [strategy, hstate, Policy.strategy, Strategy.needsKey]
  rcases select_of_fits hfits fleet key with ⟨hwhy, -⟩ | ⟨-, x, hx, hok⟩
  · simp [hopen, hne, hkeyless] at hwhy
  · rw [choose?, hstate] at hx
    obtain ⟨m, hm, rfl⟩ := Option.map_eq_some_iff.1 hx
    exact ⟨_, hok, hm⟩

/-! ## Runs -/

/-- After any moves the count has grown by the number of answers. -/
theorem rotation_after (hb : b.addrs.Nodup) (hstate : b.state = .rotation r)
    (moves : List (Move ε)) :
    ∃ r', (b.after moves).state = .rotation r' ∧
      r'.cursor.toNat = (r.cursor.toNat + (b.picks moves).length) % UInt64.size := by
  induction moves generalizing b r with
  | nil =>
    refine ⟨r, hstate, ?_⟩
    rw [picks, List.length_nil, Nat.add_zero, Nat.mod_eq_of_lt r.cursor.toNat_lt]
  | cons move moves ih =>
    have hnext := nodup_addrs_apply hb move
    rcases rotation_apply hb hstate move with ⟨hnone, hsame⟩ | ⟨m, hsome, -, hturn⟩
    · obtain ⟨r', hafter, hcount⟩ := ih hnext hsame
      exact ⟨r', hafter, by simpa [picks, hnone] using hcount⟩
    · obtain ⟨r', hafter, hcount⟩ := ih hnext hturn
      refine ⟨r', hafter, ?_⟩
      rw [hcount, toNat_turn, Nat.mod_add_mod, picks, hsome]
      simp only [Option.toList_some, List.singleton_append, List.length_cons]
      congr 1
      omega

/-- While the members stay, the answers go around them.  The induction takes the
moves off the front, and with them the turns that are counted. -/
theorem picks_eq (hb : b.addrs.Nodup) (hstate : b.state = .rotation r)
    (hopen : b.closed = false) (hne : b.members ≠ []) {moves : List (Move ε)}
    (hkeeps : b.Keeps moves)
    (hroom : r.cursor.toNat + moves.countP Move.isSelect < UInt64.size) :
    (b.picks moves).map some =
      (List.range' r.cursor.toNat (moves.countP Move.isSelect)).map fun t =>
        b.members[t % b.members.length]? := by
  induction moves generalizing b r with
  | nil => rfl
  | cons move moves ih =>
    have hnext := nodup_addrs_apply hb move
    obtain ⟨hmembers, hclosed, hrest⟩ := hkeeps.of_cons
    rw [← hclosed] at hopen
    rw [← hmembers] at hne
    have hpicks : b.picks (move :: moves) =
        (b.pick? move).toList ++ (b.apply move).picks moves := rfl
    rcases rotation_apply hb hstate move with ⟨hnone, hsame⟩ | ⟨m, hsome, hplace, hturn⟩
    · have hother : move.isSelect = false := by
        cases move with
        | select fleet key =>
          rw [hclosed] at hopen
          rw [hmembers] at hne
          obtain ⟨x, hok, -⟩ := pick?_isSome hstate hopen hne fleet key
          simp [pick?, hok, Except.toOption] at hnone
        | _ => rfl
      have hcount : (move :: moves).countP Move.isSelect = moves.countP Move.isSelect := by
        simp [hother]
      rw [hcount] at hroom ⊢
      rw [hpicks, hnone, ← hmembers]
      exact ih hnext hsame hopen hne hrest hroom
    · have hselect : move.isSelect = true := by
        cases move with
        | select fleet key => rfl
        | _ => cases hsome
      have hcount : (move :: moves).countP Move.isSelect = moves.countP Move.isSelect + 1 := by
        simp [hselect]
      rw [hcount] at hroom ⊢
      have hcursor : r.turn.cursor.toNat = r.cursor.toNat + 1 := by
        rw [toNat_turn, Nat.mod_eq_of_lt (by omega)]
      have hafter := ih hnext hturn hopen hne hrest (by omega)
      rw [hpicks, hsome, List.range'_succ, List.map_cons, Option.toList_some,
        List.singleton_append, List.map_cons, hafter, hmembers, hcursor, ← hplace]
      rfl

/-- As many answers in a row as there are members are the members in their order,
from the one whose turn it is at first. -/
theorem picks_eq_rotate (hb : b.addrs.Nodup) (hstate : b.state = .rotation r)
    (hopen : b.closed = false) (hne : b.members ≠ []) {moves : List (Move ε)}
    (hkeeps : b.Keeps moves) (hround : moves.countP Move.isSelect = b.members.length)
    (hroom : r.cursor.toNat + b.members.length < UInt64.size) :
    b.picks moves = b.members.rotate r.cursor.toNat := by
  have hpicks := picks_eq hb hstate hopen hne hkeeps (by omega)
  refine List.map_injective_iff.2 (Option.some_injective Member) ?_
  rw [hpicks, hround]
  refine List.ext_getElem (by simp) fun i hi _ => ?_
  have hi : i < b.members.length := by simpa using hi
  have hlt : (i + r.cursor.toNat) % b.members.length < b.members.length :=
    Nat.mod_lt _ (by omega)
  simp [List.getElem_rotate, Nat.add_comm, hlt]

/-- A rotation with members has a place of theirs for the next selection, after
any moves; as long as it is open the selection is answered by the member there.
From then on, as many selections as there are members pick each of them once, in
their order, whatever else happens that leaves the members as they are.  This
takes a count with room for that many selections more. -/
theorem round_robin_fair (virtualNodes : Nat) (moves : List (Move ε)) :
    let start := create .roundRobin virtualNodes
    let b := start.after moves
    let made := (start.picks moves).length
    let n := b.members.length
    0 < n →
      (∃ r, b.state = .rotation r ∧ r.place n < n ∧ (b.closed = false →
        ∀ fleet : Fleet ε, ∀ key, ∃ x, b.select fleet key = .ok x ∧
          b.members[r.place n]? = some x.member)) ∧
      ∀ round : List (Move ε), b.closed = false → b.Keeps round →
        round.countP Move.isSelect = n → made < UInt64.size - n →
          b.picks round = b.members.rotate made ∧
            ∀ m, (b.picks round).count m = if m ∈ b.members then 1 else 0 := by
  intro start b made n hpos
  have hnew : start.addrs.Nodup := List.nodup_nil
  have hb : b.addrs.Nodup := nodup_addrs_after hnew moves
  have hne : b.members ≠ [] := List.length_pos_iff.1 hpos
  obtain ⟨r, hstate, hcount⟩ := rotation_after hnew (r := {}) rfl moves
  refine ⟨⟨r, hstate, r.place_lt hpos, fun hopen => pick?_isSome hstate hopen hne⟩, ?_⟩
  intro round hopen hkeeps hround hroom
  have hmade : r.cursor.toNat = made := by
    have hzero : ({} : Rotation).cursor.toNat = 0 := rfl
    rw [hcount, hzero, Nat.zero_add]
    exact Nat.mod_eq_of_lt (by omega)
  have hpicks : b.picks round = b.members.rotate made := by
    rw [← hmade]
    exact picks_eq_rotate hb hstate hopen hne hkeeps hround (by omega)
  refine ⟨hpicks, fun m => ?_⟩
  have hnodup : (b.members.rotate made).Nodup := List.nodup_rotate.2 (nodup_members hb)
  rw [hpicks, hnodup.count]
  simp

/-- Three members, one selection, and the first member is removed: the next round
starts with the last of the other two, and a call that is refused in the middle of
it does not matter. -/
theorem round_robin_fair_after_remove :
    let fleet : Fleet PlainEndpoint := #[{ addr := "a" }, { addr := "b" }, { addr := "c" }]
    let moves : List (Move PlainEndpoint) :=
      [.add fleet ⟨0, "a"⟩, .add fleet ⟨1, "b"⟩, .add fleet ⟨2, "c"⟩, .select fleet none,
        .remove "a"]
    let b := (create .roundRobin 1).after moves
    let round : List (Move PlainEndpoint) :=
      [.select fleet none, .add fleet ⟨1, "b"⟩, .select fleet (some "key")]
    b.Keeps round ∧ b.picks round = [⟨2, "c"⟩, ⟨1, "b"⟩] := by
  intro fleet moves b round
  have hkeeps : b.Keeps round := by
    intro k
    rcases k with _ | _ | _ | k
    · exact ⟨by decide +kernel, by decide +kernel⟩
    · exact ⟨by decide +kernel, by decide +kernel⟩
    · exact ⟨by decide +kernel, by decide +kernel⟩
    · have hall : round.take (k + 3) = round := List.take_of_length_le (by simp [round])
      rw [hall]
      exact ⟨by decide +kernel, by decide +kernel⟩
  have hfair := (round_robin_fair 1 moves (by decide +kernel)).2
  obtain ⟨hpicks, -⟩ := hfair round (by decide +kernel) hkeeps (by decide +kernel)
    (by decide +kernel)
  exact ⟨hkeeps, hpicks.trans (by decide +kernel)⟩

end PooledRouting.Balancer
