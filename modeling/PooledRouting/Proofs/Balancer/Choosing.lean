import PooledRouting.Proofs.Balancer.HashRing
import PooledRouting.Proofs.Balancer.SmoothTurns

/-!
# Every strategy finds a member

Whatever a strategy keeps beside the members agrees with them at all times:
smooth weights are as many as the members, and a hash ring is the one that
the members give (`Policy.Fits`).  Each move of a run changes both together
(`fits_apply`).

So a selection never misses.  An open balancer with members chooses one of
them (`choose?_of_fits`); a selection fails for want of an open balancer, of
members or of a key, and for no other reason (`select_of_fits`).
-/

namespace PooledRouting

/-- Whether the strategy counts the work that it routes. -/
def Strategy.countsWork : Strategy → Bool
  | .leastConnection | .weightedLeastConnection | .shortestExpectedDelay | .neverQueue => true
  | .roundRobin | .weightedRoundRobin | .consistentHash => false

end PooledRouting

namespace PooledRouting.Balancer

variable {ε : Type} [Endpoint ε] {ms : List Member} {m : Member} {p : Policy}

/-! ## The state of a strategy and the members -/

namespace Policy

/-- The state of the strategy is one for these members. -/
def Fits (p : Policy) (ms : List Member) : Prop :=
  match p with
  | rotation _ => True
  | smooth w => w.currents.length = ms.length
  | ring r => ∃ hash n, r = ringOf hash n ms
  | load _ => True

theorem fits_initial (virtualNodes : Nat) (s : Strategy) : (initial virtualNodes s).Fits [] := by
  cases s with
  | consistentHash => exact ⟨_, _, rfl⟩
  | weightedRoundRobin => exact rfl
  | _ => trivial

theorem Fits.join (h : p.Fits ms) (m : Member) (weight : UInt32) :
    (p.join m weight).Fits (ms ++ [m]) := by
  cases p with
  | rotation r => trivial
  | smooth w =>
    have hlength : w.currents.length = ms.length := h
    show (w.push weight).currents.length = (ms ++ [m]).length
    simp [hlength]
  | ring r =>
    obtain ⟨hash, n, rfl⟩ := h
    exact ⟨hash, n, (ringOf_append hash n ms m).symm⟩
  | load rule => trivial

/-- The member at the place leaves, and there is no other one with its
address. -/
theorem Fits.leave (h : p.Fits ms) {i : Nat} (hm : ms[i]? = some m)
    (hothers : ms.eraseIdx i = ms.filter fun x => x.addr != m.addr) :
    (p.leave i m (ms.eraseIdx i)).Fits (ms.eraseIdx i) := by
  have hi := (List.getElem?_eq_some_iff.1 hm).1
  cases p with
  | rotation r => trivial
  | smooth w =>
    have hlength : w.currents.length = ms.length := h
    show (w.erase i).currents.length = (ms.eraseIdx i).length
    simp [SmoothWeights.erase, List.length_eraseIdx, hlength]
  | ring r =>
    obtain ⟨hash, n, rfl⟩ := h
    refine ⟨hash, n, ?_⟩
    rw [hothers]
    exact ringOf_remove hash n ms m.addr
  | load rule => trivial

end Policy

/-! ## Choices -/

theorem mem_of_chosen? {hash : String → UInt32} {n : Nat} {key : String}
    (h : chosen? hash n ms key = some m) : m ∈ ms := by
  obtain ⟨x, -, howner⟩ := Option.bind_eq_some_iff.1 h
  exact List.mem_of_find?_eq_some howner

theorem LoadRule.place?_isSome (rule : LoadRule) (fleet : Fleet ε) {ids : List Nat}
    (hids : ids ≠ []) : ∃ place, rule.place? fleet ids = some place := by
  have hleast : ∃ place, rule.leastLoaded? fleet ids = some place := by
    unfold leastLoaded?
    cases hbest : firstBest? Load.less (ids.map (rule.load fleet)) with
    | none => exact absurd (List.map_eq_nil_iff.1 ((firstBest?_eq_none_iff _ _).1 hbest)) hids
    | some x => exact ⟨x.1, rfl⟩
  unfold place?
  split
  · split
    · exact ⟨_, rfl⟩
    · exact hleast
  · exact hleast

variable {b : Balancer}

/-- With members there is a choice, and it is one of them.  The state keeps
fitting, and of the endpoints at most the chosen one counts more work. -/
theorem choose?_of_fits (h : b.state.Fits b.members) (hne : b.members ≠ []) (fleet : Fleet ε)
    (key : String) :
    ∃ x, b.choose? fleet key = some x ∧ x.member ∈ b.members ∧
      x.balancer.state.Fits b.members ∧
      (x.fleet = fleet ∨ x.fleet = fleet.addActive x.member.id) := by
  have hlength : 0 < b.members.length := List.length_pos_iff.2 hne
  unfold choose?
  cases hstate : b.state with
  | rotation r =>
    have hplace := List.getElem?_eq_getElem (r.place_lt hlength)
    simp only [hplace, Option.map_some]
    exact ⟨_, rfl, List.getElem_mem _, trivial, .inl rfl⟩
  | smooth w =>
    rw [hstate] at h
    have hcurrents : w.currents.length = b.members.length := h
    obtain ⟨place, hplace⟩ := SmoothWeights.place?_isSome (w := w)
      (List.length_pos_iff.1 (hcurrents ▸ hlength))
    have hlt := hcurrents ▸ SmoothWeights.place?_lt hplace
    have hget := List.getElem?_eq_getElem hlt
    simp only [hplace, hget, Option.bind_eq_bind, Option.bind_some]
    refine ⟨_, rfl, List.getElem_mem _, ?_, .inl rfl⟩
    show (w.turn place (b.ids.map fleet.weight)).currents.length = _
    rw [SmoothWeights.length_turn, hcurrents, List.length_map, Registry.ids, List.length_map,
      Nat.min_self]
  | ring r =>
    rw [hstate] at h
    obtain ⟨hash, n, rfl⟩ := h
    obtain ⟨m, hm⟩ := Option.isSome_iff_exists.1
      (chosen?_isSome hash (n := max n 1) (by omega) hne key)
    have hholder := (holder?_ringOf hash n b.members key).trans hm
    simp only [hholder, Option.map_some]
    refine ⟨_, rfl, mem_of_chosen? hm, ?_, .inl rfl⟩
    rw [hstate]
    exact ⟨hash, n, rfl⟩
  | load rule =>
    have hids : b.ids ≠ [] := by
      rw [Registry.ids, Ne, List.map_eq_nil_iff]
      exact hne
    obtain ⟨place, hplace⟩ := rule.place?_isSome fleet hids
    have hlt : place < b.members.length := by
      simpa [Registry.ids] using LoadRule.place?_lt hplace
    have hget := List.getElem?_eq_getElem hlt
    simp only [hplace, hget, Option.bind_eq_bind, Option.bind_some]
    refine ⟨_, rfl, List.getElem_mem _, ?_, .inr rfl⟩
    rw [hstate]
    trivial

/-- A choice stays with the strategy.  The strategies that choose by load count
the work that they route, and the others leave the endpoints alone. -/
theorem choose?_effect {fleet : Fleet ε} {key : String} {x : Selection ε}
    (hx : b.choose? fleet key = some x) :
    x.balancer.strategy = b.strategy ∧
      x.fleet = if b.strategy.countsWork then fleet.addActive x.member.id else fleet := by
  unfold strategy
  cases chosen_of_choose? hx with
  | turn hstate _ | heaviest hstate _ _ | holder hstate _ =>
    rw [hstate]
    exact ⟨rfl, rfl⟩
  | @leastLoaded rule _ _ hstate _ _ =>
    rw [hstate]
    refine ⟨rfl, ?_⟩
    cases rule with
    | _ => rfl

/-- A selection fails if the balancer is closed, without members, or without
the key that it needs.  Otherwise it is the choice. -/
theorem select_of_fits (h : b.state.Fits b.members) (fleet : Fleet ε) (key : Option String) :
    (b.closed = true ∨ b.members = [] ∨ b.strategy.needsKey = true ∧ key = none) ∧
        (∃ fault, b.select fleet key = .error fault) ∨
      (b.closed = false ∧ b.members ≠ [] ∧ ¬(b.strategy.needsKey = true ∧ key = none)) ∧
        ∃ x, b.choose? fleet (key.getD "") = some x ∧ b.select fleet key = .ok x := by
  unfold select
  by_cases hclosed : b.closed = true
  · refine .inl ⟨.inl hclosed, .closed, ?_⟩
    rw [Registry.checkSelectable, if_pos hclosed]
  have hopen := Bool.eq_false_iff.2 hclosed
  by_cases hmembers : b.members = []
  · refine .inl ⟨.inr (.inl hmembers), .noEndpoint, ?_⟩
    rw [Registry.checkSelectable, if_neg hclosed, hmembers]
    rfl
  rw [checkSelectable_eq hopen hmembers]
  dsimp only
  by_cases hkey : b.strategy.needsKey = true ∧ key = none
  · exact .inl ⟨.inr (.inr hkey), .noKey, if_pos hkey⟩
  · obtain ⟨x, hx, -⟩ := choose?_of_fits h hmembers fleet (key.getD "")
    refine .inr ⟨⟨hopen, hmembers, hkey⟩, x, hx, ?_⟩
    rw [if_neg hkey, hx]

/-! ## Runs -/

theorem strategy_apply (hb : b.addrs.Nodup) (move : Move ε) :
    (b.apply move).strategy = b.strategy := by
  cases move with
  | add fleet m =>
    rw [apply_add]
    rcases add_cases b fleet m with ⟨-, fault, hfault⟩ | ⟨-, -, -, hok⟩
    · rw [hfault]
      rfl
    · rw [hok]
      exact Policy.strategy_join _ _ _
  | remove addr =>
    rw [apply_remove]
    rcases remove?_cases hb addr with ⟨-, hnone⟩ | ⟨i, m, -, -, hsome⟩
    · rw [hnone]
      rfl
    · rw [hsome]
      exact Policy.strategy_leave _ _ _ _
  | select fleet key =>
    rw [apply_select]
    rcases select_cases b fleet key with ⟨fault, hfault⟩ | ⟨x, hx, hok⟩
    · rw [hfault]
      rfl
    · rw [hok]
      exact (choose?_effect hx).1
  | close fleet =>
    rw [apply_close]
    rfl

theorem fits_apply (hb : b.addrs.Nodup) (h : b.state.Fits b.members) (move : Move ε) :
    (b.apply move).state.Fits (b.apply move).members := by
  cases move with
  | add fleet m =>
    rw [apply_add]
    rcases add_cases b fleet m with ⟨-, fault, hfault⟩ | ⟨-, -, -, hok⟩
    · rw [hfault]
      exact h
    · rw [hok]
      exact h.join m _
  | remove addr =>
    rw [apply_remove]
    rcases remove?_cases hb addr with ⟨-, hnone⟩ | ⟨i, m, hm, rfl, hsome⟩
    · rw [hnone]
      exact h
    · have hothers : b.members.eraseIdx i = b.others m.addr :=
        eraseIdx_eq_filter hb (position?_of_getElem? hb hm)
      rw [hsome, ← hothers]
      exact h.leave hm hothers
  | select fleet key =>
    rw [apply_select]
    rcases select_of_fits h fleet key with ⟨-, fault, hfault⟩ | ⟨⟨-, hne, -⟩, x, hx, hok⟩
    · rw [hfault]
      exact h
    · obtain ⟨y, hy, -, hfits, -⟩ := choose?_of_fits h hne fleet (key.getD "")
      obtain rfl := Option.some.inj (hx.symm.trans hy)
      rw [hok]
      show x.balancer.state.Fits x.balancer.members
      rwa [choose?_frame hx]
  | close fleet =>
    rw [apply_close]
    exact h

theorem fits_after (hb : b.addrs.Nodup) (h : b.state.Fits b.members) (moves : List (Move ε)) :
    (b.after moves).state.Fits (b.after moves).members := by
  induction moves generalizing b with
  | nil => exact h
  | cons move moves ih => exact ih (nodup_addrs_apply hb move) (fits_apply hb h move)

theorem strategy_after (hb : b.addrs.Nodup) (moves : List (Move ε)) :
    (b.after moves).strategy = b.strategy := by
  induction moves generalizing b with
  | nil => rfl
  | cons move moves ih => exact (ih (nodup_addrs_apply hb move)).trans (strategy_apply hb move)

/-! ## Building -/

/-- Endpoints that could all be registered are the last members. -/
theorem addAll_ok {fleet : Fleet ε} {b' : Balancer} (h : addAll fleet b ms = .ok b') :
    b' = b.after (ms.map (Move.add fleet)) ∧ b'.members = b.members ++ ms := by
  induction ms generalizing b with
  | nil =>
    cases h
    exact ⟨rfl, (List.append_nil _).symm⟩
  | cons m ms ih =>
    unfold addAll at h
    rcases add_cases b fleet m with ⟨-, fault, hfault⟩ | ⟨-, -, -, hok⟩
    · rw [hfault] at h
      cases h
    · have happly := apply_add b fleet m
      rw [hok] at h happly
      obtain ⟨hafter, hmembers⟩ := ih h
      refine ⟨?_, hmembers.trans (List.append_assoc _ _ _)⟩
      rw [hafter, List.map_cons]
      show _ = (b.apply (.add fleet m)).after _
      rw [happly]
      rfl

theorem build_ok {s : Strategy} {virtualNodes : Nat} {fleet : Fleet ε}
    (h : build s virtualNodes fleet = .ok b) :
    b.strategy = s ∧ b.addrs.Nodup ∧ b.state.Fits b.members ∧ b.members = membersOf fleet := by
  have hnew : (create s virtualNodes).addrs.Nodup := List.nodup_nil
  obtain ⟨hafter, hmembers⟩ := addAll_ok h
  refine ⟨?_, ?_, ?_, hmembers⟩
  · rw [hafter, strategy_after hnew]
    exact Policy.strategy_initial virtualNodes s
  · rw [hafter]
    exact nodup_addrs_after hnew _
  · rw [hafter]
    exact fits_after hnew (Policy.fits_initial virtualNodes s) _

/-- Endpoints with a weight and with addresses of their own can all be registered with an
open balancer. -/
theorem exists_addAll {fleet : Fleet ε} (hopen : b.closed = false)
    (hweights : ∀ m ∈ ms, fleet.weight m.id ≠ 0) (hnew : (b.addrs ++ ms.map Member.addr).Nodup) :
    ∃ b', addAll fleet b ms = .ok b' ∧ b'.closed = false := by
  induction ms generalizing b with
  | nil => exact ⟨b, rfl, hopen⟩
  | cons m ms ih =>
    have hfree : m.addr ∉ b.addrs := fun hin =>
      (List.nodup_append.1 hnew).2.2 _ hin _ (List.mem_map_of_mem List.mem_cons_self) rfl
    unfold addAll
    rcases add_cases b fleet m with ⟨hwhy, -⟩ | ⟨-, -, -, hok⟩
    · rcases hwhy with ⟨-, hzero⟩ | hclosed | htaken
      · exact absurd hzero (hweights m List.mem_cons_self)
      · cases hclosed.symm.trans hopen
      · exact absurd htaken hfree
    · rw [hok]
      refine ih hopen (fun x hx => hweights x (List.mem_cons_of_mem _ hx)) ?_
      have hlast : (b.members ++ [m]).map Member.addr ++ ms.map Member.addr =
          b.addrs ++ (m :: ms).map Member.addr := by
        simp [addrs]
      exact hlast ▸ hnew

/-- A balancer can be built over endpoints with a weight and with addresses of their own. -/
theorem exists_build (s : Strategy) (virtualNodes : Nat) {fleet : Fleet ε}
    (hweights : ∀ m ∈ membersOf fleet, fleet.weight m.id ≠ 0)
    (haddrs : ((membersOf fleet).map Member.addr).Nodup) :
    ∃ b, build s virtualNodes fleet = .ok b ∧ b.closed = false :=
  exists_addAll rfl hweights haddrs

end PooledRouting.Balancer
