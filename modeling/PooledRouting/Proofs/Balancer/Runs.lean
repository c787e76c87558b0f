import Mathlib.Data.List.Nodup
import PooledRouting.Balancer.Basic

/-!
# Runs of a balancer

A run starts with a balancer without members and goes on move by move:
endpoints are registered, removed and selected, and the balancer is closed,
in any order and with any fleet.  A call that is refused changes nothing.

What each move does to the members, the state of the strategy and the
closed flag is said here once (`add_cases`, `remove?_cases`), together with
the first law of runs: no two members have the same address.
-/

namespace PooledRouting.Balancer

variable {ε : Type} [Endpoint ε]

/-- One thing that happens to a balancer. -/
inductive Move (ε : Type) where
  /-- An endpoint is to be registered. -/
  | add (fleet : Fleet ε) (m : Member)
  /-- The endpoint with this address is to be removed. -/
  | remove (addr : String)
  /-- An endpoint is asked for. -/
  | select (fleet : Fleet ε) (key : Option String)
  /-- The balancer is closed. -/
  | close (fleet : Fleet ε)

/-- The balancer after the move. -/
def apply (b : Balancer) : Move ε → Balancer
  | .add fleet m => (b.add fleet m).toOption.getD b
  | .remove addr => (b.remove? addr).elim b Prod.snd
  | .select fleet key => (b.select fleet key).toOption.elim b Selection.balancer
  | .close fleet => (Registry.close b fleet).2.1

theorem apply_add (b : Balancer) (fleet : Fleet ε) (m : Member) :
    b.apply (.add fleet m) = (b.add fleet m).toOption.getD b := rfl

theorem apply_remove (b : Balancer) (addr : String) :
    b.apply (.remove addr : Move ε) = (b.remove? addr).elim b Prod.snd := rfl

theorem apply_select (b : Balancer) (fleet : Fleet ε) (key : Option String) :
    b.apply (.select fleet key) = (b.select fleet key).toOption.elim b Selection.balancer := rfl

/-- The balancer after moves in turn. -/
def after (b : Balancer) (moves : List (Move ε)) : Balancer :=
  moves.foldl apply b

variable {b : Balancer} {m : Member} {addr : String}

/-! ## Members -/

/-- The registered addresses, in order. -/
def addrs (b : Balancer) : List String :=
  b.members.map Member.addr

/-- The members but for the one with this address. -/
def others (b : Balancer) (addr : String) : List Member :=
  b.members.filter fun m => m.addr != addr

theorem position?_eq_none_iff : b.position? addr = none ↔ addr ∉ b.addrs := by
  unfold Registry.position? addrs
  simp

/-- Registering a member puts it last and hands it to the strategy.  It is
refused by a closed balancer, if its address is taken, or for a weight of
zero that the strategy cannot use. -/
theorem add_cases (b : Balancer) (fleet : Fleet ε) (m : Member) :
    (b.strategy.isWeighted = true ∧ fleet.weight m.id = 0 ∨ b.closed = true ∨
        m.addr ∈ b.addrs) ∧ (∃ fault, b.add fleet m = .error fault) ∨
      ¬(b.strategy.isWeighted = true ∧ fleet.weight m.id = 0) ∧ b.closed = false ∧
        m.addr ∉ b.addrs ∧
        b.add fleet m = .ok { b with
          members := b.members ++ [m]
          state := b.state.join m (fleet.weight m.id) } := by
  unfold add
  dsimp only
  split
  · rename_i hweight
    exact .inl ⟨.inl hweight, _, rfl⟩
  rename_i hweight
  unfold Registry.pushOpen Registry.checkOpen Registry.push
  by_cases hclosed : b.closed = true
  · rw [if_pos hclosed]
    exact .inl ⟨.inr (.inl hclosed), _, rfl⟩
  rw [if_neg hclosed]
  dsimp only
  by_cases htaken : m.addr ∈ b.addrs
  · have hsome : (b.position? m.addr).isSome = true :=
      Option.isSome_iff_ne_none.2 fun hnone => position?_eq_none_iff.1 hnone htaken
    rw [if_pos hsome]
    exact .inl ⟨.inr (.inr htaken), _, rfl⟩
  · have hnone : ¬(b.position? m.addr).isSome = true := by
      rw [position?_eq_none_iff.2 htaken]
      nofun
    rw [if_neg hnone]
    exact .inr ⟨hweight, Bool.eq_false_iff.2 hclosed, htaken, rfl⟩

/-- With distinct addresses, to erase the first member with an address is to
erase every one. -/
theorem eraseIdx_eq_filter {ms : List Member} (hms : (ms.map Member.addr).Nodup) {i : Nat}
    (hi : ms.findIdx? (fun m => m.addr == addr) = some i) :
    ms.eraseIdx i = ms.filter fun m => m.addr != addr := by
  induction ms generalizing i with
  | nil => cases hi
  | cons m ms ih =>
    obtain ⟨hnew, hrest⟩ := List.nodup_cons.1 hms
    rw [List.findIdx?_cons] at hi
    by_cases hm : m.addr = addr
    · rw [if_pos (beq_iff_eq.2 hm)] at hi
      cases hi
      have hnone : ms.filter (fun m => m.addr != addr) = ms := by
        refine List.filter_eq_self.2 fun x hx => bne_iff_ne.2 fun hxa => hnew ?_
        rw [hm, ← hxa]
        exact List.mem_map_of_mem hx
      rw [List.filter_cons_of_neg (by simp [hm]), hnone]
      rfl
    · rw [if_neg (by simpa using hm)] at hi
      obtain ⟨j, hj, rfl⟩ := Option.map_eq_some_iff.1 hi
      rw [List.filter_cons_of_pos (by simpa using hm), List.eraseIdx_cons_succ, ih hrest hj]

theorem nodup_members (hb : b.addrs.Nodup) : b.members.Nodup :=
  hb.of_map Member.addr

/-- A member is found at its place. -/
theorem position?_of_getElem? (hb : b.addrs.Nodup) {i : Nat} (hm : b.members[i]? = some m) :
    b.position? m.addr = some i := by
  obtain ⟨hlt, hget⟩ := List.getElem?_eq_some_iff.1 hm
  refine List.findIdx?_eq_some_iff_getElem.2 ⟨hlt, by simp [hget], fun j hj hsame => ?_⟩
  have hsize : b.addrs.length = b.members.length := List.length_map _
  have heq : b.addrs[j] = b.addrs[i] := by simpa [addrs, hget] using hsame
  have := (List.Nodup.getElem_inj_iff hb).1 heq
  omega

/-- Removing an address that is registered leaves the other members in
their order and has the strategy let go of the one. -/
theorem remove?_cases (hb : b.addrs.Nodup) (addr : String) :
    addr ∉ b.addrs ∧ b.remove? addr = none ∨
      ∃ i m, b.members[i]? = some m ∧ m.addr = addr ∧
        b.remove? addr = some (m, { b with
          members := b.others addr
          state := b.state.leave i m (b.others addr) }) := by
  unfold remove? Registry.remove?
  cases hi : b.position? addr with
  | none => exact .inl ⟨position?_eq_none_iff.1 hi, rfl⟩
  | some i =>
    obtain ⟨hlt, hm, -⟩ := List.findIdx?_eq_some_iff_getElem.1 hi
    have hget : b.members[i]? = some b.members[i] := List.getElem?_eq_getElem hlt
    have hothers : b.members.eraseIdx i = b.others addr := eraseIdx_eq_filter hb hi
    refine .inr ⟨i, b.members[i], hget, by simpa using hm, ?_⟩
    dsimp only
    rw [hget, hothers]
    rfl

theorem others_eq_self (hfree : addr ∉ b.addrs) : b.others addr = b.members :=
  List.filter_eq_self.2 fun _ hm =>
    bne_iff_ne.2 fun heq => hfree (heq ▸ List.mem_map_of_mem hm)

/-! ## The moves -/

/-- A new member is last, unless it is refused. -/
theorem apply_add_frame (b : Balancer) (fleet : Fleet ε) (m : Member) :
    (b.apply (.add fleet m)).closed = b.closed ∧
      ((b.apply (.add fleet m)).members = b.members ∨
        m.addr ∉ b.addrs ∧ (b.apply (.add fleet m)).members = b.members ++ [m]) := by
  rw [apply_add]
  rcases add_cases b fleet m with ⟨-, fault, hfault⟩ | ⟨-, -, hfree, hok⟩
  · rw [hfault]
    exact ⟨rfl, .inl rfl⟩
  · rw [hok]
    exact ⟨rfl, .inr ⟨hfree, rfl⟩⟩

/-- Removing an address leaves the members with another one, whether it is
registered or not. -/
theorem apply_remove_frame (hb : b.addrs.Nodup) (addr : String) :
    (b.apply (.remove addr : Move ε)).members = b.others addr ∧
      (b.apply (.remove addr : Move ε)).closed = b.closed := by
  rw [apply_remove]
  rcases remove?_cases hb addr with ⟨hfree, hnone⟩ | ⟨i, m, -, -, hsome⟩
  · rw [hnone]
    exact ⟨(others_eq_self hfree).symm, rfl⟩
  · rw [hsome]
    exact ⟨rfl, rfl⟩

/-- What a balancer can choose: who it is, by the state of the strategy, and
what becomes of the state and of the fleet. -/
inductive Chosen (b : Balancer) (fleet : Fleet ε) (key : String) : Selection ε → Prop where
  /-- The member whose turn it is. -/
  | turn {r : Rotation} {m : Member} (hstate : b.state = .rotation r)
      (hm : b.members[r.place b.members.length]? = some m) :
      Chosen b fleet key ⟨m, b.mapState fun _ => .rotation r.turn, fleet⟩
  /-- The first member of greatest current weight. -/
  | heaviest {w : SmoothWeights} {place : Nat} {m : Member} (hstate : b.state = .smooth w)
      (hplace : w.place? = some place) (hm : b.members[place]? = some m) :
      Chosen b fleet key
        ⟨m, b.mapState fun _ => .smooth (w.turn place (b.ids.map fleet.weight)), fleet⟩
  /-- The member that holds the key. -/
  | holder {r : Ring} {m : Member} (hstate : b.state = .ring r) (hm : r.holder? key = some m) :
      Chosen b fleet key ⟨m, b, fleet⟩
  /-- The member that the rule is for, which has one more unit of work. -/
  | leastLoaded {rule : LoadRule} {place : Nat} {m : Member} (hstate : b.state = .load rule)
      (hplace : rule.place? fleet b.ids = some place) (hm : b.members[place]? = some m) :
      Chosen b fleet key ⟨m, b, fleet.addActive m.id⟩

theorem chosen_of_choose? {fleet : Fleet ε} {key : String} {x : Selection ε}
    (hx : b.choose? fleet key = some x) : b.Chosen fleet key x := by
  unfold choose? at hx
  cases hstate : b.state with
  | rotation r =>
    rw [hstate] at hx
    obtain ⟨m, hm, rfl⟩ := Option.map_eq_some_iff.1 hx
    exact .turn hstate hm
  | smooth w =>
    rw [hstate] at hx
    obtain ⟨place, hplace, hx⟩ := Option.bind_eq_some_iff.1 hx
    obtain ⟨m, hm, hx⟩ := Option.bind_eq_some_iff.1 hx
    cases hx
    exact .heaviest hstate hplace hm
  | ring r =>
    rw [hstate] at hx
    obtain ⟨m, hm, rfl⟩ := Option.map_eq_some_iff.1 hx
    exact .holder hstate hm
  | load rule =>
    rw [hstate] at hx
    obtain ⟨place, hplace, hx⟩ := Option.bind_eq_some_iff.1 hx
    obtain ⟨m, hm, hx⟩ := Option.bind_eq_some_iff.1 hx
    cases hx
    exact .leastLoaded hstate hplace hm

/-- Choosing changes neither the members nor the closed flag. -/
theorem choose?_frame {fleet : Fleet ε} {key : String} {x : Selection ε}
    (hx : b.choose? fleet key = some x) : x.balancer = { b with state := x.balancer.state } := by
  cases chosen_of_choose? hx with
  | turn _ _ | heaviest _ _ _ | holder _ _ | leastLoaded _ _ _ => rfl

theorem checkSelectable_eq (hopen : b.closed = false) (hne : b.members ≠ []) :
    b.checkSelectable = .ok () := by
  unfold Registry.checkSelectable
  rw [hopen, List.isEmpty_eq_false_iff.2 hne]
  rfl

/-- A selection is refused by a closed balancer, without members and for
want of a key; otherwise it is what the policy chooses. -/
theorem select_cases (b : Balancer) (fleet : Fleet ε) (key : Option String) :
    (∃ fault, b.select fleet key = .error fault) ∨
      ∃ x, b.choose? fleet (key.getD "") = some x ∧ b.select fleet key = .ok x := by
  unfold select
  split
  · exact .inl ⟨_, rfl⟩
  · split
    · exact .inl ⟨_, rfl⟩
    · cases hx : b.choose? fleet (key.getD "") with
      | none => exact .inl ⟨_, rfl⟩
      | some x => exact .inr ⟨x, rfl, rfl⟩

theorem apply_select_frame (b : Balancer) (fleet : Fleet ε) (key : Option String) :
    b.apply (.select fleet key) = { b with state := (b.apply (.select fleet key)).state } := by
  rcases select_cases b fleet key with ⟨fault, hfault⟩ | ⟨x, hx, hok⟩
  · rw [apply_select, hfault]
    rfl
  · rw [apply_select, hok]
    exact choose?_frame hx

theorem apply_close (b : Balancer) (fleet : Fleet ε) :
    b.apply (.close fleet) = { b with closed := true } := by
  show (Registry.close b fleet).2.1 = _
  unfold Registry.close
  split
  · rename_i hclosed
    rw [← hclosed]
  · rfl

/-! ## Distinct addresses -/

theorem nodup_addrs_apply (hb : b.addrs.Nodup) (move : Move ε) : (b.apply move).addrs.Nodup := by
  unfold addrs at hb ⊢
  cases move with
  | add fleet m =>
    rcases (apply_add_frame b fleet m).2 with hsame | ⟨hfree, hadded⟩
    · rwa [hsame]
    · rw [hadded, List.map_append]
      exact List.nodup_append.2 ⟨hb, List.nodup_singleton _, by simpa [addrs] using hfree⟩
  | remove addr =>
    rw [(apply_remove_frame hb addr).1]
    exact hb.sublist (List.filter_sublist.map _)
  | select fleet key =>
    rw [apply_select_frame]
    exact hb
  | close fleet =>
    rw [apply_close]
    exact hb

/-- No two members have the same address. -/
theorem nodup_addrs_after (hb : b.addrs.Nodup) (moves : List (Move ε)) :
    (b.after moves).addrs.Nodup := by
  induction moves generalizing b with
  | nil => exact hb
  | cons move moves ih => exact ih (nodup_addrs_apply hb move)

end PooledRouting.Balancer
