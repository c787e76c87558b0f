import PooledRouting.Proofs.Pool.Bookkeeping
import PooledRouting.Proofs.Pool.Queue

/-!
# The order of the line

A slot that is freed goes to the head of the line, and while somebody
waits no slot is free.  So nobody who comes later is given one first, and
no top-up is.

`InTurn` says that of one `get` in the line, from some state of a run on
for as long as it waits.  `Arises.inTurn` is the result.
-/

namespace PooledRouting.Pool

variable {o : Options} {p q r : Pool} {h k : Hand} {n : Nat} {w : Waiting} {ahead : List Waiting}

/-! ## Top-ups -/

/-- No top-up starts while no slot is free. -/
theorem Act.topUps_le (hn : Attempts p h) (hfull : p.slots = 0) (ha : Act p h q k) :
    q.topUps + k.idlePlaces ≤ p.topUps + h.idlePlaces := by
  rcases ha.topUps_cases hn with hle | ⟨rfl, rfl⟩
  · exact hle
  · have hroom := topUpRoom_le_slots p
    have htopUps : p.topUp.topUps = p.topUps + p.topUpRoom := countP_tasks_topUp p
    have hhand : (Hand.looking k).idlePlaces = k.idlePlaces := rfl
    omega

/-! ## Slots are given in order -/

/-- The `get` was given a slot: it was admitted, or was handed the slot with
which it goes on when its turn comes. -/
def Granted (p : Pool) (h : Hand) (n : Nat) : Prop :=
  .admitted n ∈ p.history ∨ .admitted n ∈ p.ready ∨ h.work? = some (.admitted n)

/-- The `get` is behind those only that were ahead of it in the pool `r`.
Since then nobody was given a slot but those, and no top-up has started. -/
structure InTurn (r : Pool) (ahead : List Waiting) (w : Waiting) (p : Pool) (h : Hand) : Prop where
  line : ∃ before behind, p.line = before ++ w :: behind ∧ before.Sublist ahead
  granted : ∀ n, Granted p h n → Granted r .start n ∨ ∃ v ∈ ahead, v.get = n
  topUps : p.topUps + h.idlePlaces ≤ r.topUps

/-- A `get` that is handed a slot while another stays in the line was ahead
of that one. -/
theorem mem_of_handed {v : Waiting} {line before behind : List Waiting}
    (hline : before ++ w :: behind = v :: line) (hw : w ∈ line)
    (hnodup : ((before ++ w :: behind).map Waiting.get).Nodup) :
    ∃ rest, before = v :: rest ∧ line = rest ++ w :: behind := by
  cases before with
  | nil =>
    cases hline
    exact absurd (List.mem_map_of_mem hw) (List.nodup_cons.1 hnodup).1
  | cons head rest =>
    cases hline
    exact ⟨rest, rfl, rfl⟩

/-- Whoever was given a slot had been given one before, or was at the head
of the line. -/
theorem Act.granted_cases (ha : Act p h q k) (hfull : p.slots = 0) (hg : Granted q k n) :
    Granted p h n ∨ ∃ v, p.line = v :: q.line ∧ v.get = n := by
  rcases hg with hin | hin | hin
  · rcases ha.admitted_cases hin with hold | ⟨-, ⟨-, hfree⟩ | hh⟩
    · exact .inl (.inl hold)
    · omega
    · exact .inl (.inr (.inr (hh ▸ rfl)))
  · rcases ha.mem_ready_cases hin rfl with hold | heq | ⟨v, hline, heq⟩ | ⟨v, -, heq⟩
    · exact .inl (.inr (.inl hold))
    · cases heq
    · cases heq
      exact .inr ⟨v, hline, rfl⟩
    · cases heq
  · rcases ha.work?_cases hin rfl with hold | hready
    · exact .inl (.inr (.inr hold))
    · exact .inl (.inr (.inl hready))

theorem InTurn.act (hp : Arises o p h) (hi : InTurn r ahead w p h) (ha : Act p h q k)
    (hw : w ∈ q.line) : InTurn r ahead w q k := by
  obtain ⟨before, behind, hline, hbefore⟩ := hi.line
  have hfull : p.slots = 0 := hp.slots_eq_zero (hline ▸ List.mem_append_right _ List.mem_cons_self)
  have hnodup := hp.called.line_nodup
  rw [hline] at hnodup
  refine ⟨?_, fun n hg => ?_, Nat.le_trans (ha.topUps_le hp.attempts hfull) hi.topUps⟩
  · cases ha.lines with
    | still hstill => exact ⟨before, behind, hstill.trans hline, hbefore⟩
    | @joined get _ _ _ _ _ hq =>
      refine ⟨before, behind ++ [⟨get, p.now + p.options.poolTimeout⟩], ?_, hbefore⟩
      rw [hq]
      simp [hline]
    | handed v hhead _ =>
      obtain ⟨rest, hrest, hq⟩ := mem_of_handed (hline.symm.trans hhead) hw hnodup
      refine ⟨rest, behind, hq, List.Sublist.trans ?_ hbefore⟩
      rw [hrest]
      exact List.sublist_cons_self v rest
    | @left get _ _ hleft _ _ =>
      rw [hleft] at hw ⊢
      have hstays := (List.mem_filter.1 hw).2
      refine ⟨before.filter fun v => v.get != get, behind.filter fun v => v.get != get, ?_,
        List.filter_sublist.trans hbefore⟩
      rw [hline, List.filter_append, List.filter_cons, if_pos hstays]
    | shut hq =>
      rw [hq] at hw
      cases hw
  · rcases ha.granted_cases hfull hg with hold | ⟨v, hhead, rfl⟩
    · exact hi.granted n hold
    · obtain ⟨rest, hrest, -⟩ := mem_of_handed (hline.symm.trans hhead) hw hnodup
      exact .inr ⟨v, hbefore.subset (hrest ▸ List.mem_cons_self), rfl⟩

theorem inTurn_enduring (r : Pool) (ahead : List Waiting) (w : Waiting) :
    Enduring o fun p h => Begun p h w.get ∧ (w ∈ p.line → InTurn r ahead w p h) where
  act hp hi ha := ⟨hi.1.act ha, fun hw => (hi.2 (hi.1.mem_line ha hw)).act hp ha hw⟩
  next hi := ⟨⟨hi.1.1, hi.1.2.1, nofun⟩, fun hw => { hi.2 hw with }⟩
  mark _ _ hi := ⟨hi.1, fun hw => { hi.2 hw with }⟩
  release _ hi := ⟨⟨hi.1.1, hi.1.2.1, nofun⟩, fun hw => { hi.2 hw with }⟩

/-- As long as a `get` stays in the line, slots go to those ahead of it. -/
theorem Arises.inTurn (hp : Arises o p .start) {behind : List Waiting}
    (hline : p.line = ahead ++ w :: behind) (deeds : List Deed)
    (hw : w ∈ (p.undergoAll deeds).line) : InTurn p ahead w (p.undergoAll deeds) .start := by
  have hin : w ∈ p.line := by
    rw [hline]
    exact List.mem_append_right _ List.mem_cons_self
  have hnow : InTurn p ahead w p .start :=
    ⟨⟨ahead, behind, hline, List.Sublist.refl _⟩, fun _ hg => .inl hg, Nat.le_refl _⟩
  exact ((inTurn_enduring p ahead w).undergoAll hp ⟨hp.called.begun hin, fun _ => hnow⟩ deeds).2 hw

end PooledRouting.Pool
