import PooledRouting.Proofs.Balancer.LeastLoad
import PooledRouting.Proofs.Balancer.Shares

/-!
# Load-based strategies spread the work

A balancer that chooses by load routes one unit of work after the other, and
nothing is released (`routeAll`).  The counts then stay in proportion to the
weights, as far as whole numbers can be: `LoadRule.Even` says for two endpoints
by how much the count of the first one may be ahead of the other.

The argument is one step (`LoadRule.Spread.step`).  The chosen endpoint was one
of least measure, and in whole numbers that is what `Even` asks of it once it
has one more unit of work (`LoadRule.Chooses.behind`).  Of the other pairs,
those whose second endpoint was chosen come closer together, and the rest stay
as they were.
-/

namespace PooledRouting.Balancer

variable {ε : Type} [Endpoint ε] {fleet : Fleet ε} {ids : List Nat} {place i j k n : Nat}

/-! ## Even counts -/

theorem FirstLeast.apply_le {f : Nat → ℚ} {x : ℚ} (h : FirstLeast (ids.map f) place x)
    (hk : ids[place]? = some k) (hj : j ∈ ids) : f k ≤ f j := by
  have hget := h.get
  rw [List.getElem?_map, hk] at hget
  obtain rfl : f k = x := Option.some.inj hget
  exact h.least _ (List.mem_map_of_mem hj)

namespace LoadRule

variable {rule : LoadRule}

/-- The first endpoint is not too far ahead of the second one. -/
def Even (rule : LoadRule) (fleet : Fleet ε) (i j : Nat) : Prop :=
  let a := fleet.active i
  let b := fleet.active j
  let v := (fleet.weight i).toNat
  let w := (fleet.weight j).toNat
  match rule with
  | connections => a ≤ b + 1
  | expectedDelay => a * w ≤ (b + 1) * v
  | weightedConnections => ((a : Int) - 1) * w ≤ b * v
  | neverQueue => ¬(2 ≤ a ∧ b = 0) ∧ (2 ≤ a → a * w ≤ (b + 1) * v)

/-- With one more unit of work the first endpoint is not too far ahead of the
second one. -/
def Behind (rule : LoadRule) (fleet : Fleet ε) (i j : Nat) : Prop :=
  let a := fleet.active i
  let b := fleet.active j
  let v := (fleet.weight i).toNat
  let w := (fleet.weight j).toNat
  match rule with
  | connections => a ≤ b
  | expectedDelay => (a + 1) * w ≤ (b + 1) * v
  | weightedConnections => a * w ≤ b * v
  | neverQueue => a = 0 ∨ b ≠ 0 ∧ (a + 1) * w ≤ (b + 1) * v

/-- What two measures are compared by, in whole numbers. -/
theorem div_le_div_iff_cross {m n v w : Nat} (hv : 0 < v) (hw : 0 < w) :
    (m * 256 : ℚ) / (max v 1 : Nat) ≤ n * 256 / (max w 1 : Nat) ↔ m * w ≤ n * v := by
  have hv' : (0 : ℚ) < v := Nat.cast_pos.2 hv
  have hw' : (0 : ℚ) < w := Nat.cast_pos.2 hw
  rw [Nat.max_eq_left hv, Nat.max_eq_left hw, div_le_div_iff₀ hv' hw', mul_right_comm,
    mul_right_comm (n : ℚ), mul_le_mul_iff_left₀ (by norm_num : (0 : ℚ) < 256)]
  exact_mod_cast Iff.rfl

theorem behind_of_delay (hi : 0 < (fleet.weight i).toNat) (hj : 0 < (fleet.weight j).toNat)
    (h : expectedDelay.measure fleet i ≤ expectedDelay.measure fleet j) :
    expectedDelay.Behind fleet i j := by
  refine (div_le_div_iff_cross hi hj).1 ?_
  rw [Nat.cast_succ, Nat.cast_succ]
  exact h

/-- The chosen endpoint is behind every one. -/
theorem Chooses.behind (h : rule.Chooses fleet ids place) (hk : ids[place]? = some k)
    (hidle : ∀ id ∈ ids, fleet.idle id = 0) (hweight : ∀ id ∈ ids, 0 < (fleet.weight id).toNat)
    (hj : j ∈ ids) : rule.Behind fleet k j := by
  have hmem := List.mem_of_getElem? hk
  cases rule with
  | connections =>
    obtain ⟨x, hleast⟩ := h
    have hle := hleast.apply_le hk hj
    simp only [measure, hidle k hmem, hidle j hj, Nat.cast_zero, add_zero] at hle
    have hcounts : (fleet.active k : ℚ) ≤ fleet.active j := by linarith
    exact_mod_cast hcounts
  | weightedConnections =>
    obtain ⟨x, hleast⟩ := h
    have hle := hleast.apply_le hk hj
    simp only [measure, hidle k hmem, hidle j hj, Nat.cast_zero, add_zero] at hle
    exact (div_le_div_iff_cross (hweight k hmem) (hweight j hj)).1 hle
  | expectedDelay =>
    obtain ⟨x, hleast⟩ := h
    exact behind_of_delay (hweight k hmem) (hweight j hj) (hleast.apply_le hk hj)
  | neverQueue =>
    rcases h with ⟨id, hid, hzero, -⟩ | ⟨hbusy, x, hleast⟩
    · obtain rfl : k = id := Option.some.inj (hk.symm.trans hid)
      exact .inl hzero
    · exact .inr ⟨hbusy j hj,
        behind_of_delay (hweight k hmem) (hweight j hj) (hleast.apply_le hk hj)⟩

end LoadRule

/-! ## One unit of work -/

namespace LoadRule

variable {rule : LoadRule} {fleet' : Fleet ε}

/-- Counts stay even while the second one grows. -/
theorem Even.mono (h : rule.Even fleet i j) (hi : fleet'.active i = fleet.active i)
    (hj : fleet.active j ≤ fleet'.active j) (hweight : ∀ id, fleet'.weight id = fleet.weight id) :
    rule.Even fleet' i j := by
  unfold Even at h ⊢
  simp only [hi, hweight] at h ⊢
  have hmore : (fleet.active j + 1) * (fleet.weight i).toNat ≤
      (fleet'.active j + 1) * (fleet.weight i).toNat := Nat.mul_le_mul_right _ (by omega)
  cases rule with
  | connections => exact h.trans (by omega)
  | expectedDelay => exact h.trans hmore
  | weightedConnections =>
    have hgrown : fleet.active j * (fleet.weight i).toNat ≤
        fleet'.active j * (fleet.weight i).toNat := Nat.mul_le_mul_right _ hj
    exact h.trans (by exact_mod_cast hgrown)
  | neverQueue => exact ⟨fun hgap => h.1 ⟨hgap.1, by omega⟩, fun htwo => (h.2 htwo).trans hmore⟩

/-- One more unit of work for an endpoint that is behind. -/
theorem Behind.even (h : rule.Behind fleet i j) (hi : fleet'.active i = fleet.active i + 1)
    (hj : fleet.active j ≤ fleet'.active j) (hweight : ∀ id, fleet'.weight id = fleet.weight id) :
    rule.Even fleet' i j := by
  unfold Behind at h
  unfold Even
  simp only [hi, hweight] at h ⊢
  have hmore : (fleet.active j + 1) * (fleet.weight i).toNat ≤
      (fleet'.active j + 1) * (fleet.weight i).toNat := Nat.mul_le_mul_right _ (by omega)
  cases rule with
  | connections =>
    have hcounts : fleet.active i ≤ fleet.active j := h
    show fleet.active i + 1 ≤ fleet'.active j + 1
    omega
  | expectedDelay => exact h.trans hmore
  | weightedConnections =>
    have hgrown : fleet.active i * (fleet.weight j).toNat ≤
        fleet'.active j * (fleet.weight i).toNat := h.trans (Nat.mul_le_mul_right _ hj)
    show ((fleet.active i + 1 : Nat) - 1 : Int) * (fleet.weight j).toNat ≤ _
    rw [Nat.cast_succ, add_sub_cancel_right]
    exact_mod_cast hgrown
  | neverQueue =>
    rcases h with hzero | ⟨hbusy, hdelay⟩
    · exact ⟨by omega, by omega⟩
    · exact ⟨by omega, fun _ => hdelay.trans hmore⟩

/-- A unit of work for an endpoint that is behind every one keeps all counts
even. -/
theorem Even.step (h : rule.Even fleet i j) (hbehind : rule.Behind fleet k j)
    (hactive : ∀ id, fleet'.active id = if id = k then fleet.active id + 1 else fleet.active id)
    (hweight : ∀ id, fleet'.weight id = fleet.weight id) : rule.Even fleet' i j := by
  have hj : fleet.active j ≤ fleet'.active j := by
    rw [hactive]
    split <;> omega
  by_cases hi : i = k
  · subst hi
    exact hbehind.even (by rw [hactive, if_pos rfl]) hj hweight
  · exact h.mono (by rw [hactive, if_neg hi]) hj hweight

end LoadRule

section

variable [CountsWork ε]

namespace Fleet

@[simp]
theorem idle_addActive (fleet : Fleet ε) (k i : Nat) :
    (fleet.addActive k).idle i = fleet.idle i := by
  unfold idle addActive
  rw [Array.getElem?_modify]
  split
  · rename_i heq
    cases fleet[i]? with
    | none => rfl
    | some e => exact CountsWork.idle_addActive e
  · rfl

@[simp]
theorem weight_addActive (fleet : Fleet ε) (k i : Nat) :
    (fleet.addActive k).weight i = fleet.weight i := by
  unfold weight addActive
  rw [Array.getElem?_modify]
  split
  · cases fleet[i]? with
    | none => rfl
    | some e => exact CountsWork.weight_addActive e
  · rfl

/-- An endpoint that sees no work of its own shows what is routed to it. -/
theorem active_addActive {e : ε} (he : fleet[k]? = some e) (hseen : CountsWork.seen e = 0)
    (hroom : CountsWork.routed e < UInt64.size - 1) (i : Nat) :
    (fleet.addActive k).active i = if i = k then fleet.active i + 1 else fleet.active i := by
  unfold active
  by_cases hi : i = k
  · subst hi
    rw [getElem?_addActive_self he, he, if_pos rfl]
    have hcharged := (charged_addActive hroom).active
    rwa [hseen, if_pos (Nat.zero_le _)] at hcharged
  · rw [getElem?_addActive_of_ne hi, if_neg hi]

end Fleet

namespace LoadRule

variable {rule : LoadRule}

/-- After `n` selections none of the endpoints has got any load but what was
routed to it, and the counts are even. -/
structure Spread (rule : LoadRule) (fleet : Fleet ε) (ids : List Nat) (n : Nat) : Prop where
  idle : ∀ id ∈ ids, fleet.idle id = 0
  weight : ∀ id ∈ ids, 0 < (fleet.weight id).toNat
  unseen : ∀ id ∈ ids, ∃ e, fleet[id]? = some e ∧ CountsWork.seen e = 0 ∧ CountsWork.routed e ≤ n
  even : ∀ i ∈ ids, ∀ j ∈ ids, rule.Even fleet i j

/-- The next selection. -/
theorem Spread.step (h : rule.Spread fleet ids n) (hn : n < UInt64.size - 1)
    (hchosen : rule.Chooses fleet ids place) (hk : ids[place]? = some k) :
    rule.Spread (fleet.addActive k) ids (n + 1) ∧
      ∀ id, (fleet.addActive k).active id =
        if id = k then fleet.active id + 1 else fleet.active id := by
  obtain ⟨e, he, hseen, hrouted⟩ := h.unseen k (List.mem_of_getElem? hk)
  have hroom : CountsWork.routed e < UInt64.size - 1 := by omega
  have hactive := Fleet.active_addActive he hseen hroom
  have hweight := Fleet.weight_addActive fleet k
  refine ⟨⟨?_, ?_, ?_, ?_⟩, hactive⟩
  · intro id hid
    rw [Fleet.idle_addActive, h.idle id hid]
  · intro id hid
    rw [hweight]
    exact h.weight id hid
  · intro id hid
    obtain ⟨d, hd, hseen', hrouted'⟩ := h.unseen id hid
    by_cases hidk : id = k
    · subst hidk
      have hcharged := charged_addActive hroom
      refine ⟨_, Fleet.getElem?_addActive_self he, hcharged.seen.trans hseen, ?_⟩
      rw [hcharged.routed]
      omega
    · exact ⟨d, (Fleet.getElem?_addActive_of_ne hidk).trans hd, hseen', by omega⟩
  · intro i hi j hj
    have hbehind := hchosen.behind hk h.idle h.weight hj
    exact (h.even i hi j hj).step hbehind hactive hweight

end LoadRule

end

/-! ## Runs -/

/-- Route a unit of work for each key in turn, up to the first that is
refused.  The result is who was chosen, in order, and what becomes of the
fleet. -/
def routeAll (b : Balancer) (fleet : Fleet ε) :
    List (Option String) → Except Fault (List Member × Fleet ε)
  | [] => .ok ([], fleet)
  | key :: keys =>
    match b.select fleet key with
    | .error fault => .error fault
    | .ok x =>
      match routeAll x.balancer x.fleet keys with
      | .error fault => .error fault
      | .ok (picks, fleet) => .ok (x.member :: picks, fleet)

variable [CountsWork ε] {b : Balancer} {rule : LoadRule}

/-- With members, all units of work are routed, and the counts are even after
the last one. -/
theorem LoadRule.Spread.routeAll (hrule : b.state = .load rule) (hopen : b.closed = false)
    (hmembers : b.members ≠ []) (keys : List (Option String))
    (h : rule.Spread fleet b.ids n) (hn : n + keys.length < UInt64.size) :
    ∃ picks fleet', b.routeAll fleet keys = .ok (picks, fleet') ∧ picks.length = keys.length ∧
      (∀ m ∈ picks, m ∈ b.members) ∧ rule.Spread fleet' b.ids (n + keys.length) ∧
      ∀ id, fleet'.weight id = fleet.weight id ∧
        fleet'.active id = fleet.active id + picks.countP fun m => m.id = id := by
  induction keys generalizing fleet n with
  | nil => exact ⟨[], fleet, rfl, rfl, nofun, h, fun id => ⟨rfl, rfl⟩⟩
  | cons key keys ih =>
    rw [List.length_cons] at hn
    obtain ⟨place, m, hplace, hm, hselect⟩ := select_by_load fleet key hrule hopen hmembers
    have hk : b.ids[place]? = some m.id := by
      rw [Registry.ids, List.getElem?_map, hm]
      rfl
    obtain ⟨hnext, hactive⟩ := h.step (by omega) (chooses_of_place? hplace) hk
    obtain ⟨picks, fleet', hrun, hlength, hpicks, hspread, hcounts⟩ := ih hnext (by omega)
    refine ⟨m :: picks, fleet', ?_, by simp [hlength],
      List.forall_mem_cons.2 ⟨List.mem_of_getElem? hm, hpicks⟩, ?_, fun id => ⟨?_, ?_⟩⟩
    · rw [Balancer.routeAll, hselect]
      dsimp only
      rw [hrun]
    · rwa [List.length_cons, Nat.add_comm keys.length, ← Nat.add_assoc]
    · rw [(hcounts id).1, Fleet.weight_addActive]
    · rw [(hcounts id).2, hactive, List.countP_cons]
      by_cases hid : id = m.id
      · simp [hid]
        omega
      · simp [hid, Ne.symm hid]

/-! ## From the beginning -/

theorem ids_membersOf {ε : Type} [Endpoint ε] (fleet : Fleet ε) :
    (membersOf fleet).map Member.id = List.range fleet.size := by
  refine List.ext_getElem (by simp [membersOf]) fun i hi hi' => ?_
  simp [membersOf]

theorem Policy.eq_load_of_strategy {p : Policy} (h : p.strategy = (Policy.load rule).strategy) :
    p = .load rule := by
  cases p with
  | load rule' => cases rule' <;> cases rule <;> first | rfl | cases h
  | _ => cases rule <;> cases h

/-- Endpoints without load are spread evenly. -/
theorem LoadRule.spread_fresh (hweight : ∀ id ∈ ids, 0 < (fleet.weight id).toNat)
    (hactive : ∀ id, fleet.active id = 0)
    (hfresh : ∀ id ∈ ids, ∃ e, fleet[id]? = some e ∧ Endpoint.active e = 0 ∧ Endpoint.idle e = 0) :
    rule.Spread fleet ids 0 := by
  refine ⟨?_, hweight, ?_, ?_⟩
  · intro id hid
    obtain ⟨e, he, -, hnone⟩ := hfresh id hid
    rw [Fleet.idle, he]
    exact hnone
  · intro id hid
    obtain ⟨e, he, hnone, -⟩ := hfresh id hid
    have hmax := (CountsWork.active_eq e).symm.trans hnone
    exact ⟨e, he, by omega, by omega⟩
  · intro i hi j hj
    unfold Even
    simp only [hactive]
    cases rule with
    | connections => exact Nat.zero_le 1
    | weightedConnections =>
      show ((0 : Nat) - 1 : Int) * (fleet.weight j).toNat ≤ ((0 : Nat) : Int) * _
      simp
    | expectedDelay => simp
    | neverQueue => simp

/-- A balancer that chooses by load is built over endpoints of positive weight and
without load, and then routes fewer than 2 ^ 64 units of work.  All of them are
routed, every endpoint counts those for which it was chosen, and the counts are
even. -/
theorem work_spreads (rule : LoadRule) (virtualNodes : Nat) (fleet : Fleet ε)
    (hsize : 0 < fleet.size) (haddrs : (fleet.toList.map Endpoint.addr).Nodup)
    (hfresh : ∀ e ∈ fleet.toList,
      0 < Endpoint.weight e ∧ Endpoint.active e = 0 ∧ Endpoint.idle e = 0) :
    ∃ b, build (Policy.load rule).strategy virtualNodes fleet = .ok b ∧
      ∀ keys : List (Option String), keys.length < UInt64.size →
        ∃ picks fleet', b.routeAll fleet keys = .ok (picks, fleet') ∧
          picks.length = keys.length ∧ (∀ m ∈ picks, m ∈ membersOf fleet) ∧
          (∀ id, fleet'.weight id = fleet.weight id ∧
            fleet'.active id = picks.countP fun m => m.id = id) ∧
          ∀ i < fleet.size, ∀ j < fleet.size, rule.Even fleet' i j := by
  have hget : ∀ id ∈ List.range fleet.size, ∃ e, fleet[id]? = some e ∧ e ∈ fleet.toList := by
    intro id hid
    have hlt := List.mem_range.1 hid
    exact ⟨fleet[id], Array.getElem?_eq_getElem hlt, Array.getElem_mem_toList hlt⟩
  have hweight : ∀ id ∈ List.range fleet.size, 0 < (fleet.weight id).toNat := by
    intro id hid
    obtain ⟨e, he, hmem⟩ := hget id hid
    rw [Fleet.weight, he]
    exact UInt32.lt_iff_toNat_lt.1 (hfresh e hmem).1
  have hweights : ∀ m ∈ membersOf fleet, fleet.weight m.id ≠ 0 := by
    intro m hm hzero
    have hpos := hweight m.id (ids_membersOf fleet ▸ List.mem_map_of_mem hm)
    rw [hzero] at hpos
    cases hpos
  obtain ⟨b, hbuild, hopen⟩ := exists_build (Policy.load rule).strategy virtualNodes hweights
    (by rwa [addrs_membersOf])
  obtain ⟨hstrategy, -, -, hmembers⟩ := build_ok hbuild
  have hids : b.ids = List.range fleet.size := by
    rw [Registry.ids, hmembers, ids_membersOf]
  have hoccupied : b.members ≠ [] := by
    intro hnone
    rw [Registry.ids, hnone] at hids
    have := congrArg List.length hids
    simp at this
    omega
  refine ⟨b, hbuild, fun keys hkeys => ?_⟩
  have hactive : ∀ id, fleet.active id = 0 := by
    intro id
    unfold Fleet.active
    cases he : fleet[id]? with
    | none => rfl
    | some e => exact (hfresh e (Array.mem_toList_iff.2 (Array.mem_of_getElem? he))).2.1
  have hfirst : rule.Spread fleet b.ids 0 := by
    rw [hids]
    refine LoadRule.spread_fresh hweight hactive fun id hid => ?_
    obtain ⟨e, he, hmem⟩ := hget id hid
    exact ⟨e, he, (hfresh e hmem).2⟩
  obtain ⟨picks, fleet', hrun, hlength, hpicks, hspread, hcounts⟩ :=
    hfirst.routeAll (Policy.eq_load_of_strategy hstrategy) hopen hoccupied keys (by omega)
  refine ⟨picks, fleet', hrun, hlength, hmembers ▸ hpicks, fun id => ⟨(hcounts id).1, ?_⟩,
    fun i hi j hj => ?_⟩
  · rw [(hcounts id).2, hactive, Nat.zero_add]
  · exact hspread.even i (hids ▸ List.mem_range.2 hi) j (hids ▸ List.mem_range.2 hj)

/-- Of eight units of work, six go to the endpoint of weight 3 and two to that of
weight 1. -/
theorem work_spreads_eight :
    let fleet : Fleet PlainEndpoint := #[{ addr := "a", weight := 3 }, { addr := "b" }]
    ∃ b, build .shortestExpectedDelay 1 fleet = .ok b ∧
      ∃ picks fleet', b.routeAll fleet (List.replicate 8 none) = .ok (picks, fleet') ∧
        fleet'.active 0 = 6 ∧ fleet'.active 1 = 2 := by
  intro fleet
  have hfresh : ∀ e ∈ fleet.toList,
      0 < Endpoint.weight e ∧ Endpoint.active e = 0 ∧ Endpoint.idle e = 0 := by
    simp [fleet, Endpoint.weight, Endpoint.active, Endpoint.idle]
  obtain ⟨b, hbuild, hruns⟩ :=
    work_spreads .expectedDelay 1 fleet (by decide) (by decide +kernel) hfresh
  obtain ⟨picks, fleet', hrun, hlength, hpicks, hcounts, heven⟩ :=
    hruns (List.replicate 8 none) (by decide)
  refine ⟨b, hbuild, picks, fleet', hrun, ?_⟩
  obtain ⟨ha, hcounta⟩ := hcounts 0
  obtain ⟨hb, hcountb⟩ := hcounts 1
  have hsum : fleet'.active 0 + fleet'.active 1 = 8 := by
    have hsplit := List.length_eq_countP_add_countP (fun m : Member => m.id = 0) (l := picks)
    have hrest : (picks.countP fun m => m.id = 1) = picks.countP fun m => ¬decide (m.id = 0) := by
      refine List.countP_congr fun m hm => ?_
      have hids : m.id = 0 ∨ m.id = 1 := by
        rcases List.mem_pair.1 (hpicks m hm) with rfl | rfl
        · exact .inl rfl
        · exact .inr rfl
      simp
      omega
    have hall : picks.length = 8 := hlength
    rw [hcounta, hcountb, hrest]
    omega
  have hahead : fleet'.active 0 * (fleet'.weight 1).toNat ≤
      (fleet'.active 1 + 1) * (fleet'.weight 0).toNat := heven 0 (by decide) 1 (by decide)
  have hbehind : fleet'.active 1 * (fleet'.weight 0).toNat ≤
      (fleet'.active 0 + 1) * (fleet'.weight 1).toNat := heven 1 (by decide) 0 (by decide)
  have hweights : fleet.weight 0 = 3 ∧ fleet.weight 1 = 1 := ⟨rfl, rfl⟩
  rw [ha, hb, hweights.1, hweights.2] at hahead hbehind
  have h3 : (3 : UInt32).toNat = 3 := rfl
  have h1 : (1 : UInt32).toNat = 1 := rfl
  rw [h3, h1] at hahead hbehind
  omega

end PooledRouting.Balancer
