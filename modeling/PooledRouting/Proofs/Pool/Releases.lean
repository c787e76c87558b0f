import Mathlib.Data.List.Induction
import PooledRouting.Proofs.Pool.Leases

/-!
# Releases that come late

A release names a connection and not the checkout that it is to end.  The
mark decides: a release of a connection that is not marked as held leaves
the whole pool as it is (`release_eq_self_iff`).

As long as neither callers nor hooks mark connections themselves, one that was
given back is marked again just while it has been handed out since and was not
given back since (`isInUse_undergoAll_iff`).  So a second release does nothing, whatever happened
in between, unless the connection is out again; then it ends the checkout
of whoever has it (`stale_release_ends_checkout`).

The first group follows a mark through the ways back into the pool, the
second through a run, from `isInUse_apply_iff` for one move by induction
over the deeds.
-/

namespace PooledRouting.Pool

variable {o : Options} {p q : Pool} {h k : Hand} {id : ConnectionId}

/-! ## Marks on the way back -/

theorem isInUse_persists (other : ConnectionId) :
    Persists fun p q => q.isInUse other = p.isInUse other where
  refl _ := rfl
  trans h₁ h₂ := h₂.trans h₁
  invalid _ := rfl
  stale _ := rfl
  strike p id := isInUse_strike p id other
  topUp _ := rfl
  closeConnection p id := isInUse_closeConnection p id other
  keep _ _ := rfl

theorem isInUse_freeSlot (p : Pool) (other : ConnectionId) :
    p.freeSlot.isInUse other = p.isInUse other := by
  rw [freeSlot_frame]
  rfl

/-- A release takes the mark off its connection and leaves the others. -/
theorem isInUse_release (p : Pool) (id other : ConnectionId) :
    (p.release id).isInUse other = (p.isInUse other && other != id) := by
  unfold release
  split
  · rw [isInUse_freeSlot]
    exact ((isInUse_persists other).recycle (p.mark id false) id).trans (isInUse_mark_false p id other)
  · rename_i hfree
    by_cases hne : other = id
    · rw [hne, Bool.eq_false_iff.2 hfree]
      rfl
    · simp [hne]

/-- A release does nothing if the connection is not marked, and only
then. -/
theorem release_eq_self_iff : p.release id = p ↔ p.isInUse id = false := by
  constructor
  · intro hsame
    have hmark := isInUse_release p id id
    rw [hsame] at hmark
    simpa using hmark
  · intro hfree
    unfold release
    rw [if_neg (Bool.eq_false_iff.1 hfree)]

/-! ## Marks in a run -/

/-- With the deed some `get` ends with the connection. -/
def HandsOut (p : Pool) (d : Deed) (id : ConnectionId) : Prop :=
  ∃ get, p.handOuts get id < (p.undergo d).handOuts get id

/-- The connection was handed out in the course of the deeds and not given
back since. -/
def OutAfter (p : Pool) (deeds : List Deed) (id : ConnectionId) : Prop :=
  ∃ before d later, deeds = before ++ d :: later ∧ (p.undergoAll before).HandsOut d id ∧
    Deed.move (.release id) ∉ later

/-- The mark of a connection stays but for the act that hands it out. -/
theorem Act.mark_cases (hf : h.Fits p) (hu : p.options.Unmarking) (ha : Act p h q k)
    (id : ConnectionId) :
    (∃ get, Serves p get id h q k) ∨
      (∀ get, q.handOuts get id = p.handOuts get id) ∧ q.isInUse id = p.isInUse id := by
  rcases ha.handOuts_cases with ⟨get, other, hs⟩ | hsame
  · by_cases hne : id = other
    · subst hne
      exact .inl ⟨get, hs⟩
    · refine .inr ⟨fun n => ?_, hs.isInUse_of_ne hne⟩
      have hevent : Event.served get other ≠ .served n id := fun heq => by
        cases heq
        exact hne rfl
      cases hs with
      | serve _ _ _ => exact handOuts_record_of_ne hevent _
  · rcases ha.isInUse_cases hf hu with ⟨get, other, hs⟩ | hmarks
    · have hmore : p.handOuts get other < q.handOuts get other := by
        cases hs with
        | serve _ _ _ => exact Nat.lt_of_lt_of_eq (Nat.lt_succ_self _) List.count_cons_self.symm
      exact absurd (hsame get other) (Nat.ne_of_gt hmore)
    · exact .inr ⟨fun get => hsame get id, hmarks id⟩

/-- A chain hands the connection out at its end, or leaves its mark. -/
theorem Acts.mark_cases (hs : Acts p h q k) (ho : o.Unmarking) (hp : Occurs o p h)
    (id : ConnectionId) :
    (∃ get, p.handOuts get id < q.handOuts get id) ∧ q.isInUse id = true ∨
      (∀ get, q.handOuts get id = p.handOuts get id) ∧ q.isInUse id = p.isInUse id := by
  induction hs with
  | refl => exact .inr ⟨fun _ => rfl, rfl⟩
  | cons ha hs ih =>
    rename_i p r q h l k
    rcases ha.mark_cases (hp.fits ho) (hp.options_eq ▸ ho) id with ⟨get, hserves⟩ | ⟨hsame, hmark⟩
    · -- Nothing comes after this act.
      obtain rfl := hserves.hand_done
      obtain rfl := hs.eq_of_done
      refine .inl ⟨⟨get, ?_⟩, hserves.isInUse⟩
      cases hserves with
      | serve _ _ _ => exact Nat.lt_of_lt_of_eq (Nat.lt_succ_self _) List.count_cons_self.symm
    · rcases ih (hp.act ha) with ⟨⟨get, hlt⟩, hheld⟩ | ⟨hrest, hlast⟩
      · exact .inl ⟨⟨get, (hsame get) ▸ hlt⟩, hheld⟩
      · exact .inr ⟨fun get => (hrest get).trans (hsame get), hlast.trans hmark⟩

/-- After a move a connection is marked if the move handed it out, or it
was marked and the move is no release of it. -/
theorem isInUse_apply_iff (ho : o.Unmarking) (hp : Reachable o p) (m : Move)
    (id : ConnectionId) :
    (p.apply m).isInUse id = true ↔
      p.HandsOut (.move m) id ∨ p.isInUse id = true ∧ m ≠ .release id := by
  have hocc := hp.occurs
  -- A move that hands nothing out leaves the mark that its chain begins with.
  have hchain : ∀ r h, Acts r h (p.apply m) .done → Occurs o r h → r.history = p.history →
      (r.isInUse id = true ↔ p.isInUse id = true ∧ m ≠ .release id) →
      ((p.apply m).isInUse id = true ↔
        p.HandsOut (.move m) id ∨ p.isInUse id = true ∧ m ≠ .release id) := by
    intro r h hs hr hhistory hmark
    have hbefore : ∀ get, r.handOuts get id = p.handOuts get id := fun get => by
      unfold handOuts
      rw [hhistory]
    rcases hs.mark_cases ho hr id with ⟨⟨get, hlt⟩, hheld⟩ | ⟨hsame, hlast⟩
    · exact ⟨fun _ => .inl ⟨get, hbefore get ▸ hlt⟩, fun _ => hheld⟩
    · have hnone : ¬p.HandsOut (.move m) id := by
        rintro ⟨get, hlt⟩
        exact absurd ((hsame get).trans (hbefore get)) (Nat.ne_of_gt hlt)
      rw [hlast, hmark]
      exact ⟨.inr, fun hout => hout.resolve_left hnone⟩
  by_cases hm : ∃ other, m = .release other ∧ p.isInUse other = true
  · obtain ⟨other, rfl, hheld⟩ := hm
    refine hchain _ _ (release_acts hheld) (hocc.giveBack hheld) rfl ?_
    rw [isInUse_mark_false, Bool.and_eq_true, bne_iff_ne, ne_eq, ne_eq, Move.release.injEq,
      eq_comm (a := id)]
  · have hfree : ∀ other, m = .release other → p.isInUse other = false := fun other hother =>
      Bool.eq_false_iff.2 fun hheld => hm ⟨other, hother, hheld⟩
    refine hchain _ _ (apply_acts hocc.hooksKept m hfree) hocc rfl ⟨fun hheld => ⟨hheld, ?_⟩, And.left⟩
    rintro rfl
    cases (hfree id rfl).symm.trans hheld

theorem outAfter_concat_iff (p : Pool) (deeds : List Deed) (d : Deed) (id : ConnectionId) :
    p.OutAfter (deeds ++ [d]) id ↔
      (p.undergoAll deeds).HandsOut d id ∨ p.OutAfter deeds id ∧ d ≠ .move (.release id) := by
  constructor
  · rintro ⟨before, e, later, hsplit, hout, hnot⟩
    rcases List.eq_nil_or_concat later with rfl | ⟨later, l, rfl⟩
    · obtain ⟨rfl, he⟩ := List.append_inj' hsplit rfl
      cases he
      exact .inl hout
    · rw [List.concat_eq_append, ← List.cons_append, ← List.append_assoc] at hsplit
      obtain ⟨rfl, hl⟩ := List.append_inj' hsplit rfl
      cases hl
      simp only [List.concat_eq_append, List.mem_append, List.mem_singleton, not_or] at hnot
      exact .inr ⟨⟨before, e, later, rfl, hout, hnot.1⟩, fun heq => hnot.2 heq.symm⟩
  · rintro (hout | ⟨⟨before, e, later, rfl, hout, hnot⟩, hne⟩)
    · exact ⟨deeds, d, [], rfl, hout, List.not_mem_nil⟩
    · refine ⟨before, e, later ++ [d], by simp, hout, fun hin => ?_⟩
      rcases List.mem_append.1 hin with hold | hlast
      · exact hnot hold
      · exact hne (List.mem_singleton.1 hlast).symm

/-- A connection that is free is marked after deeds without marks just if they
have handed it out and not given it back since. -/
theorem isInUse_undergoAll_iff (ho : o.Unmarking) (hp : Reachable o p)
    (hfree : p.isInUse id = false) {deeds : List Deed} (hd : Unmarked deeds) :
    (p.undergoAll deeds).isInUse id = true ↔ p.OutAfter deeds id := by
  induction deeds using List.reverseRecOn with
  | nil =>
    constructor
    · intro hheld
      cases hfree.symm.trans hheld
    · rintro ⟨before, d, later, hsplit, -⟩
      simp at hsplit
  | append_singleton deeds d ih =>
    have hearlier : Unmarked deeds := fun id inUse hin => hd id inUse (List.mem_append_left _ hin)
    have hlast : p.undergoAll (deeds ++ [d]) = (p.undergoAll deeds).undergo d := List.foldl_concat ..
    cases d with
    | mark id inUse => exact absurd (List.mem_append_right _ List.mem_cons_self) (hd id inUse)
    | move m =>
      have hmove := isInUse_apply_iff ho (hp.undergoAll hearlier) m id
      rw [outAfter_concat_iff, hlast, ne_eq, Deed.move.injEq, ← ih hearlier]
      exact hmove

/-! ## A second release -/

/-- Whatever callers and hooks do: after a `get` has given its connection
back, another release of it leaves the pool as it is, at any time, unless the
connection is marked as held again; and then the release takes that mark off.
If neither callers nor hooks mark connections themselves, it is marked just
while another `get` was handed it since and nobody has given it back since. -/
theorem second_release_ignored (o : Options) (dialer : Nat → Course) (now : Nat)
    (background : Bool) (before deeds : List Deed) (id : ConnectionId) :
    let p := (create o dialer now background).undergoAll before
    let q := (p.release id).undergoAll deeds
    (q.release id = q ↔ q.isInUse id = false) ∧ (q.release id).isInUse id = false ∧
      (o.Unmarking → Unmarked before → Unmarked deeds →
        (q.isInUse id = true ↔ (p.release id).OutAfter deeds id)) := by
  intro p q
  have hfree : ∀ r : Pool, (r.release id).isInUse id = false := fun r => by
    simp [isInUse_release]
  refine ⟨release_eq_self_iff, hfree q, fun ho hbefore hdeeds => ?_⟩
  have hp : Reachable o p := (Reachable.create dialer now background).undergoAll hbefore
  exact isInUse_undergoAll_iff ho (hp.move (.release id)) (hfree p) hdeeds

/-- Another `get` has had the connection in between, and given it back. -/
theorem second_release_ignored_after_reuse :
    let o : Options := { poolSize := 1, minIdle := 0 }
    let before : List Deed := [.move (.get false), .move .turn]
    let deeds : List Deed :=
      [.move (.get false), .move .turn, .move (.release (.dialed 1)), .move (.get false)]
    let p := (create o (fun _ => .answer 0 none) 0 true).undergoAll before
    let q := (p.release (.dialed 1)).undergoAll deeds
    p.lease? 1 = some (.dialed 1) ∧ q.lease? 2 = some (.dialed 1) ∧ q.isInUse (.dialed 1) = false ∧
      o.Unmarking ∧ Unmarked before ∧ Unmarked deeds ∧
      q.release (.dialed 1) = q ∧ ¬(p.release (.dialed 1)).OutAfter deeds (.dialed 1) := by
  intro o before deeds p q
  have ho : o.Unmarking := Options.unmarking_of_nil rfl
  have hbefore : Unmarked before := by simp [Unmarked, before]
  have hdeeds : Unmarked deeds := by simp [Unmarked, deeds]
  have hfree : q.isInUse (.dialed 1) = false := by decide +kernel
  obtain ⟨hsame, -, hout⟩ :=
    second_release_ignored o (fun _ => .answer 0 none) 0 true before deeds (.dialed 1)
  refine ⟨by decide +kernel, by decide +kernel, hfree, ho, hbefore, hdeeds, hsame.2 hfree, ?_⟩
  exact fun hin => Bool.false_ne_true (hfree.symm.trans ((hout ho hbefore hdeeds).2 hin))

/-- The second `get` has the connection that the first gave back.  When the
connection is released once more for the first, the second has lost its
checkout, and its slot is free.  With a hook that marks the connection and
rejects the checkout nobody has it, and the release makes a slot. -/
theorem stale_release_ends_checkout :
    (let p := (create { poolSize := 1, minIdle := 0 } (fun _ => .answer 0 none) 0 true).after
        [.get false, .turn]
      let q := (p.release (.dialed 1)).after [.get false, .turn]
      let r := q.release (.dialed 1)
      p.lease? 1 = some (.dialed 1) ∧ q.lease? 2 = some (.dialed 1) ∧
        (q.isInUse (.dialed 1) = true ∧ q.slots = 0 ∧ q.stats.inUseConns = 1 ∧ q.idle = []) ∧
        r.isInUse (.dialed 1) = false ∧ r.slots = 1 ∧ r.stats.inUseConns = 0 ∧
          r.idle = [.dialed 1]) ∧
      (let hook := Hook.onCalls [2] [.mark, .fail "busy"]
      let p := (create { poolSize := 1, minIdle := 0, hooks := [hook] }
        (fun _ => .answer 0 none) 0 true).after [.get false, .turn]
      let q := (p.release (.dialed 1)).after [.get false, .turn]
      let r := q.release (.dialed 1)
      p.lease? 1 = some (.dialed 1) ∧ q.ending? 2 = some (.error (.hook "busy")) ∧
        (q.slots = 1 ∧ q.idle = [.dialed 1]) ∧ r.slots = 2 ∧
          r.idle = [.dialed 1, .dialed 1]) := by
  decide +kernel

end PooledRouting.Pool
