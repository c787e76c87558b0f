import PooledRouting.Proofs.Balancer.HashRing

/-!
# Few keys move

When an endpoint leaves a hash balancer, only its own keys get another one.
When one joins, no key moves between the endpoints that were there; and when
it leaves again, everything is as it was.

The keys are looked at where no ring is in the way, in the list of members.
If the member of a key stays, then so does the place that follows the key's,
since fewer places are asked for, and the member is still the first to ask
for it (`chosen?_filter`).  A newcomer is the case read backwards.  Points
that coincide and keys past the last point need no care of their own.
-/

namespace PooledRouting.Balancer

variable {ε : Type} [Endpoint ε] {hash : String → UInt32} {n : Nat} {ms : List Member}
  {m : Member} {x : UInt32} {b : Balancer} {addr : String}

/-! ## Keys of a list of members -/

theorem chosen?_eq_some_iff {key : String} : chosen? hash n ms key = some m ↔
    ∃ x, IsSuccessor (ringPlaces hash n ms) (hash key) x ∧ firstOwner? hash n ms x = some m := by
  unfold chosen?
  rw [Option.bind_eq_some_iff]
  simp only [successor?_eq_some_iff]

/-- The member of a key keeps it if it stays. -/
theorem chosen?_filter {key : String} {stays : Member → Bool}
    (hm : chosen? hash n ms key = some m) (hstays : stays m = true) :
    chosen? hash n (ms.filter stays) key = some m := by
  obtain ⟨x, hnext, howner⟩ := chosen?_eq_some_iff.1 hm
  have hstill : firstOwner? hash n (ms.filter stays) x = some m := by
    rw [← firstOwner?_filter, howner, Option.filter_some, if_pos hstays, Option.some_or]
  have hplace : x ∈ ringPlaces hash n (ms.filter stays) := by
    rw [← firstOwner?_isSome_iff, hstill]
    rfl
  have hfewer : ringPlaces hash n (ms.filter stays) ⊆ ringPlaces hash n ms := fun y hy => by
    obtain ⟨m', hm', hy'⟩ := mem_ringPlaces_iff.1 hy
    exact mem_ringPlaces_iff.2 ⟨m', List.mem_of_mem_filter hm', hy'⟩
  exact chosen?_eq_some_iff.2 ⟨x, hnext.subset hfewer hplace, hstill⟩

/-- A newcomer takes a key over, or its member keeps it. -/
theorem chosen?_append (hash : String → UInt32) (hn : 0 < n) {y : Member} (hy : y ∉ ms) (key : String) :
    chosen? hash n (ms ++ [y]) key = chosen? hash n ms key ∨
      chosen? hash n (ms ++ [y]) key = some y := by
  have hne : ms ++ [y] ≠ [] := List.append_ne_nil_of_right_ne_nil ms (List.cons_ne_nil y _)
  obtain ⟨m, hm⟩ := Option.isSome_iff_exists.1 (chosen?_isSome hash hn hne key)
  by_cases hnew : m = y
  · subst hnew
    exact .inr hm
  · -- The members but for the newcomer are those from before.
    have hbefore : (ms ++ [y]).filter (fun m => decide (m ≠ y)) = ms := by
      rw [List.filter_append, List.filter_eq_self.2, List.filter_eq_nil_iff.2, List.append_nil]
      · simp
      · exact fun m' hm' => decide_eq_true fun heq => hy (heq ▸ hm')
    have hkept : chosen? hash n ((ms ++ [y]).filter fun m => decide (m ≠ y)) key = some m :=
      chosen?_filter hm (decide_eq_true hnew)
    rw [hbefore] at hkept
    exact .inl (hm.trans hkept.symm)

/-! ## Selections -/

/-- The member that a selection with the key finds. -/
def selected (b : Balancer) (fleet : Fleet ε) (key : String) : Except Fault Member :=
  (b.select fleet (some key)).map Selection.member

theorem selected_of_closed (hclosed : b.closed = true) (fleet : Fleet ε) (key : String) :
    b.selected fleet key = .error .closed := by
  unfold selected select Registry.checkSelectable
  rw [if_pos hclosed]
  rfl

/-- What an open hash balancer finds depends on its members only. -/
theorem Ringed.selected_eq (hr : Ringed hash n b) (hopen : b.closed = false) (fleet : Fleet ε)
    (key : String) : b.selected fleet key =
      (chosen? hash (max n 1) b.members key).elim (.error .noEndpoint) .ok := by
  unfold selected
  by_cases hmembers : b.members = []
  · unfold select Registry.checkSelectable
    rw [if_neg (Bool.eq_false_iff.1 hopen), hmembers]
    rfl
  · obtain ⟨m, hm, hok⟩ := hr.select_eq hopen hmembers fleet key
    rw [hok, hm]
    rfl

theorem not_mem_of_addr {y : Member} (hy : y.addr ∉ b.addrs) : y ∉ b.members :=
  fun hmem => hy (List.mem_map_of_mem hmem)

/-- A key that found another member finds it again. -/
theorem Ringed.selected_remove (hr : Ringed hash n b) (hb : b.addrs.Nodup) (fleet : Fleet ε)
    {addr key : String} (hother : ∀ m, b.selected fleet key = .ok m → m.addr ≠ addr) :
    (b.apply (.remove addr : Move ε)).selected fleet key = b.selected fleet key := by
  obtain ⟨hmembers, hclosed⟩ := apply_remove_frame (ε := ε) hb addr
  cases hshut : b.closed with
  | true => rw [selected_of_closed hshut, selected_of_closed (hclosed.trans hshut)]
  | false =>
    rw [hr.selected_eq hshut] at hother ⊢
    rw [(hr.apply hb (.remove addr : Move ε)).selected_eq (hclosed.trans hshut), hmembers]
    cases hm : chosen? hash (max n 1) b.members key with
    | some m =>
      rw [hm] at hother
      have hstays : (m.addr != addr) = true := bne_iff_ne.2 (hother m rfl)
      rw [show chosen? hash (max n 1) (b.others addr) key = some m from chosen?_filter hm hstays]
    | none =>
      -- Only a balancer without members finds nothing.
      have hnil : b.members = [] := by
        by_contra hne
        have hn : 0 < max n 1 := by omega
        have hsome := chosen?_isSome hash hn hne key
        rw [hm] at hsome
        cases hsome
      have hothers : b.others addr = [] := by
        unfold others
        rw [hnil]
        rfl
      rw [hothers, ← hnil, hm]

/-- A key finds the newcomer, or what it found before. -/
theorem Ringed.selected_add (hr : Ringed hash n b) (hb : b.addrs.Nodup) (fleet fleet' : Fleet ε)
    (y : Member) (key : String) :
    (b.apply (.add fleet y)).selected fleet' key = b.selected fleet' key ∨
      (b.apply (.add fleet y)).selected fleet' key = .ok y := by
  obtain ⟨hclosed, hmembers⟩ := apply_add_frame b fleet y
  cases hshut : b.closed with
  | true =>
    rw [selected_of_closed hshut, selected_of_closed (hclosed.trans hshut)]
    exact .inl rfl
  | false =>
    have hn : 0 < max n 1 := by omega
    rw [(hr.apply hb (.add fleet y)).selected_eq (hclosed.trans hshut), hr.selected_eq hshut]
    rcases hmembers with hsame | ⟨hfree, hadded⟩
    · rw [hsame]
      exact .inl rfl
    · rw [hadded]
      rcases chosen?_append hash hn (not_mem_of_addr hfree) key with hsame | hnew
      · rw [hsame]
        exact .inl rfl
      · rw [hnew]
        exact .inr rfl

/-- Two hash balancers with the same hash are the same if they have the same
members and are both open or both closed. -/
theorem Ringed.eq_of_members {c : Balancer} (hb : Ringed hash n b) (hc : Ringed hash n c)
    (hmembers : c.members = b.members) (hclosed : c.closed = b.closed) : c = b := by
  have hring : c.state = b.state := by
    rw [hc.state_eq, hb.state_eq, hmembers]
  cases b
  cases c
  cases hmembers
  cases hclosed
  cases hring
  rfl

/-- A new endpoint that leaves again leaves no trace. -/
theorem Ringed.after_add_remove (hr : Ringed hash n b) (hb : b.addrs.Nodup) (fleet : Fleet ε)
    {y : Member} (hy : y.addr ∉ b.addrs) : b.after [.add fleet y, .remove y.addr] = b := by
  have hnodup := nodup_addrs_apply hb (.add fleet y)
  have hlast := (hr.apply hb (.add fleet y)).apply hnodup (.remove y.addr : Move ε)
  obtain ⟨hopen, hadded⟩ := apply_add_frame b fleet y
  obtain ⟨hmembers, hclosed⟩ := apply_remove_frame (ε := ε) hnodup y.addr
  refine hr.eq_of_members hlast (hmembers.trans ?_) (hclosed.trans hopen)
  have hkept : b.members.filter (fun m => m.addr != y.addr) = b.members := others_eq_self hy
  unfold others
  rcases hadded with hsame | ⟨-, hnew⟩
  · rw [hsame, hkept]
  · rw [hnew, List.filter_append, hkept, List.filter_cons_of_neg (by simp), List.filter_nil,
      List.append_nil]

/-! ## Runs -/

/-- In any run of a hash balancer, whatever the hash: if an address is
removed, every key that did not find an endpoint with this address finds
what it found before.  If an endpoint is registered, every key finds what it
found before or the new endpoint.  And if an endpoint with a new address is
registered and removed, the balancer is the same as before. -/
theorem few_keys_move (hash : String → UInt32) (virtualNodes : Nat) (moves : List (Move ε)) :
    let b := (hashed hash virtualNodes).after moves
    (∀ (fleet : Fleet ε) (addr key : String),
        (∀ m, b.selected fleet key = .ok m → m.addr ≠ addr) →
        (b.apply (.remove addr : Move ε)).selected fleet key = b.selected fleet key) ∧
      (∀ (fleet fleet' : Fleet ε) (y : Member) (key : String),
        (b.apply (.add fleet y)).selected fleet' key = b.selected fleet' key ∨
          (b.apply (.add fleet y)).selected fleet' key = .ok y) ∧
      ∀ (fleet : Fleet ε) (y : Member), y.addr ∉ b.addrs →
        b.after [.add fleet y, .remove y.addr] = b := by
  intro b
  obtain ⟨hnodup, hringed⟩ : b.addrs.Nodup ∧ Ringed hash virtualNodes b :=
    ringed_after hash virtualNodes moves
  exact ⟨fun fleet _ _ => hringed.selected_remove hnodup fleet, hringed.selected_add hnodup,
    fun fleet _ => hringed.after_add_remove hnodup fleet⟩

/-- With the length of a text as its hash, the points of `a`, `b` and `c` are
all the same, and a long key is past all of them.  It belongs to `a`, whether
`b` goes or `c` comes. -/
theorem few_keys_move_collided :
    let hash : String → UInt32 := fun text => UInt32.ofNat text.length
    let fleet : Fleet PlainEndpoint := #[]
    let b := (hashed hash 2).after
      [.add fleet ⟨0, "a"⟩, .add fleet ⟨1, "b"⟩, .add fleet ⟨2, "long"⟩]
    b.selected fleet "a long key" = .ok ⟨0, "a"⟩ ∧
      (b.apply (.remove "b" : Move PlainEndpoint)).selected fleet "a long key" =
        b.selected fleet "a long key" ∧
      ((b.apply (.add fleet ⟨3, "c"⟩)).selected fleet "a long key" =
          b.selected fleet "a long key" ∨
        (b.apply (.add fleet ⟨3, "c"⟩)).selected fleet "a long key" = .ok ⟨3, "c"⟩) ∧
      "c" ∉ b.addrs ∧ b.after [.add fleet ⟨3, "c"⟩, .remove "c"] = b := by
  intro hash fleet b
  have hselected : b.selected fleet "a long key" = .ok ⟨0, "a"⟩ := by decide +kernel
  have hfree : "c" ∉ b.addrs := by decide +kernel
  obtain ⟨hremove, hadd, hback⟩ := few_keys_move hash 2
    [.add fleet ⟨0, "a"⟩, .add fleet ⟨1, "b"⟩, .add fleet ⟨2, "long"⟩]
  refine ⟨hselected, hremove fleet "b" _ fun m hm => ?_, hadd fleet fleet _ _, hfree,
    hback fleet _ hfree⟩
  cases hselected.symm.trans hm
  decide

end PooledRouting.Balancer
