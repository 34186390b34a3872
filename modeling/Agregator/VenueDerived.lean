import Agregator.VenuePlay
/-!
# VenueDerived — the columns a card takes from its halls

The rates, the capacity and the amenities of a card with halls are those of its halls from its insertion on.  Of all
statements only the store of a whole card can change that, and it does if the card it is given does not show its halls.
-/
namespace Agregator

open Rel Conc

variable {rules : CardRules}

/-! ## What a card shows of its halls -/

def VenueCard.shown (v : VenueCard) : ℤ × ℤ × ℤ × List String := (v.priceFrom, v.priceWeekend, v.capacity, v.amenities)

/-- The card shows what the halls give it, taken in some order. -/
def VenueCard.Shows (rules : CardRules) (halls : List VenueHall) (v : VenueCard) : Prop :=
  ∃ hs : List VenueHall, hs.Perm halls ∧ v.shown = VenueRepo.derivedVenueFieldsFromHalls rules.lower hs

/-- A venue with halls shows them. -/
def CardDB.Derived (rules : CardRules) (db : CardDB) (venueID : String) : Prop :=
  ∀ v, db.venue venueID = some v → db.hallsOf venueID ≠ [] → v.Shows rules (db.hallsOf venueID)

/-- The halls are halls of venues there are. -/
def CardDB.HallsLinked (db : CardDB) (venueID : String) : Prop := db.venue venueID = none → db.hallsOf venueID = []

/-- The keys that the insertion gives the halls, and their times, do not matter to the card. -/
theorem VenueRepo.derived_hallRows (lower : String → String) (now : Time) (newID : ℕ → String) (venueID : String)
    (halls : List VenueHall) : derivedVenueFieldsFromHalls lower (CardRepo.hallRows now newID venueID halls) =
      derivedVenueFieldsFromHalls lower halls := by
  have hmap : ∀ {β : Type} (g : VenueHall → β), (∀ h id venueID i now,
      g { h with id := id, venueID := venueID, sortOrder := i, updatedAt := now } = g h) →
      (CardRepo.hallRows now newID venueID halls).map g = halls.map g := by
    intro β g hg
    unfold CardRepo.hallRows
    rw [List.map_map]
    conv_rhs => rw [← List.zipIdx_map_fst 0 halls, List.map_map]
    exact List.map_congr_left fun x _ => hg _ _ _ _ _
  have hfold : ∀ {β γ : Type} (g : VenueHall → β) (f : γ → β → γ) (z : γ), (∀ h id venueID i now,
      g { h with id := id, venueID := venueID, sortOrder := i, updatedAt := now } = g h) →
      (CardRepo.hallRows now newID venueID halls).foldl (fun z h => f z (g h)) z = halls.foldl (fun z h => f z (g h)) z := by
    intro β γ g f z hg
    have hlist : ∀ l : List VenueHall, l.foldl (fun z h => f z (g h)) z = (l.map g).foldl f z := fun _ => List.foldl_map.symm
    rw [hlist, hlist, hmap g hg]
  unfold derivedVenueFieldsFromHalls
  rw [hfold (·.priceFrom) (fun least p => leastPositive p least) 0 fun _ _ _ _ _ => rfl,
    hfold (fun h => if h.priceWeekend = 0 then h.priceFrom else h.priceWeekend) (fun least p => leastPositive p least) 0
      fun _ _ _ _ _ => rfl,
    hfold (·.capacity) (fun most c => if most < c then c else most) 0 fun _ _ _ _ _ => rfl, List.flatMap_def, List.flatMap_def,
    hmap (·.amenities) fun _ _ _ _ _ => rfl]

/-! ## One statement -/

section Statement

variable {env : DbEnv} {s : CardSql} {db db' : CardDB}

/-- **No statement but a store and a replacement of the halls** writes what the card shows of them. -/
theorem CardSql.row_shown {halls : Table venueHallSchema} {r : VenueCard} (hu : ∀ v, s = .update v → v.id ≠ r.id)
    (hh : s.hallsAt ≠ some r.id) : (s.row rules env halls r).shown = r.shown := by
  have hite : ∀ {p : Bool} {x : VenueCard}, x.shown = r.shown → (if p then x else r).shown = r.shown := by
    intro p x hx
    cases p
    · rfl
    · exact hx
  cases s with
  | update v =>
    have hne : ¬ (r.id == v.id) = true := by
      rw [beq_iff_eq]
      exact fun h => hu v rfl h.symm
    simp only [row, if_neg hne]
  | editMedia | addVenuePhoto | deleteVenuePhoto | setVenueCoverPhoto =>
    exact hite (CardRepo.resetToPendingReview_keeps VenueCard.shown (fun _ _ => rfl) _ _)
  | replaceVenueHalls venueID =>
    have hne : ¬ (r.id == venueID) = true := by
      rw [beq_iff_eq]
      exact fun h => hh (congrArg some h.symm)
    simp only [row, if_neg hne]
  | updateStatus | suspendByOwner | submitDraftForReview | updateRating | setBookingMode => exact hite rfl
  | _ => rfl

/-- **A replacement of the halls** has the card show those that are there then. -/
theorem CardSql.Wrote.shows_replaced (h : s.Wrote rules env db db') (horder : ∀ l, (env.order l).Perm l) {venueID : String}
    (hs : s.hallsAt = some venueID) : db'.Derived rules venueID := by
  intro v hv hne
  rw [h.venue] at hv
  obtain ⟨r, hr, rfl⟩ := Option.map_eq_some_iff.1 hv
  obtain ⟨-, hid⟩ := Table.get_mem hr
  cases s with
  | replaceVenueHalls id ownerID items =>
    obtain rfl := Option.some.inj hs
    refine ⟨_, horder (db'.hallsOf id), ?_⟩
    have hnonempty : (env.order (db'.hallsOf id)).isEmpty = false := by
      rw [← Bool.not_eq_true, List.isEmpty_iff]
      exact fun hnil => hne (List.nil_perm.1 (hnil ▸ horder _))
    have hrow : CardSql.row rules env db'.halls (.replaceVenueHalls id ownerID items) r = CardRepo.resetToPendingReview env.now
        (CardRepo.fromHalls rules env.now (env.order (db'.hallsOf id)) r) := if_pos hid
    rw [hrow, CardRepo.resetToPendingReview_keeps VenueCard.shown (fun _ _ => rfl)]
    unfold CardRepo.fromHalls VenueCard.shown
    simp only [hnonempty]
    rfl
  | _ => cases hs

/-- A store that takes effect has the card show what the card stored does. -/
theorem CardRepo.update_shown {v r : VenueCard} (h : (CardRepo.update rules env v db).2 ≠ db) :
    (CardRepo.stored rules env.now v r).shown = v.shown := by
  unfold CardRepo.update at h
  split at h
  · rename_i workingHours socialLinks hw hs
    rw [CardRepo.stored_eq r hw hs]
    exact CardRepo.resetToPendingReview_keeps VenueCard.shown (fun _ _ => rfl) _ _
  · exact absurd rfl h

end Statement

/-! ## Runs -/

/-- The store of a card whose venue has halls is of a card that shows them, if it takes effect. -/
def StoresShown (rules : CardRules) (m : CardMoment) : Prop :=
  ∀ v, m.op = .sql (.update v) → m.after.db ≠ m.before.world.db → m.before.world.db.venue v.id ≠ none →
    m.before.world.db.hallsOf v.id ≠ [] → v.Shows rules (m.before.world.db.hallsOf v.id)

theorem CardWorld.Exec.linked {o : CardOp} {w w' : CardWorld} {r : o.Res} (he : CardWorld.Exec rules o w r w')
    {venueID : String} (h : w.db.HallsLinked venueID) : w'.db.HallsLinked venueID := by
  rcases he.tables with hdb | ⟨s, env, rfl, -, hdb⟩
  · rwa [hdb]
  rw [hdb]
  rcases s.run_cases rules env w.db with hsame | ⟨v, services, halls, rfl, hc⟩ | hw
  · rwa [hsame]
  · intro hnone
    by_cases hid : venueID = env.newID 0
    · subst hid
      obtain ⟨card, hcard, -⟩ := hc.venue_new
      rw [hcard] at hnone
      cases hnone
    · rw [hc.halls_other hid]
      exact h (by rwa [hc.venue_other hid] at hnone)
  · intro hnone
    rw [hw.venue, Option.map_eq_none_iff] at hnone
    by_cases hat : s.hallsAt = some venueID
    · obtain ⟨v, hv⟩ := hw.found venueID hat
      rw [hv] at hnone
      cases hnone
    · rw [hw.halls venueID hat]
      exact h hnone

/-- **What every other operation keeps, a store keeps if it is of a card that shows the halls.** -/
theorem CardWorld.Exec.derived {m : CardMoment} (he : CardWorld.Exec rules m.op m.before.world m.res m.after)
    (hl : ∀ venueID, m.before.world.db.HallsLinked venueID) (h : ∀ venueID, m.before.world.db.Derived rules venueID)
    (hm : StoresShown rules m) (venueID : String) : m.after.db.Derived rules venueID := by
  rcases he.tables with hdb | ⟨s, env, ho, horder, hdb⟩
  · rw [hdb]
    exact h venueID
  by_cases hsame : m.after.db = m.before.world.db
  · rw [hsame]
    exact h venueID
  unfold StoresShown at hm
  rw [hdb] at hsame hm ⊢
  rcases s.run_cases rules env m.before.world.db with hsame' | ⟨v, services, halls, rfl, hc⟩ | hw
  · exact absurd hsame' hsame
  · by_cases hid : venueID = env.newID 0
    · subst hid
      intro card hcard hne
      obtain ⟨card', hcard', -, -, hshown⟩ := hc.venue_new
      obtain rfl := Option.some.inj (hcard.symm.trans hcard')
      have hhalls := hc.halls_new
      rw [hl _ hc.fresh, List.nil_append] at hhalls
      refine ⟨_, List.Perm.refl _, ?_⟩
      have hsome : halls ≠ [] := by
        rintro rfl
        exact hne hhalls
      rw [hhalls, VenueRepo.derived_hallRows]
      exact hshown hsome
    · unfold CardDB.Derived
      rw [hc.venue_other hid, hc.halls_other hid]
      exact h venueID
  · by_cases hat : s.hallsAt = some venueID
    · exact hw.shows_replaced horder hat
    intro card hcard hne
    rw [hw.venue] at hcard
    obtain ⟨r, hr, rfl⟩ := Option.map_eq_some_iff.1 hcard
    have hid : r.id = venueID := by simpa using (Table.get_mem hr).2
    rw [hw.halls venueID hat] at hne ⊢
    by_cases hu : ∃ v, s = .update v ∧ v.id = r.id
    · obtain ⟨v, rfl, hvr⟩ := hu
      have hvid : v.id = venueID := hvr.trans hid
      obtain ⟨hs, hperm, hshown⟩ := hm v ho hsame (by rw [hvid, hr]; exact fun h => nomatch h) (by rwa [hvid])
      refine ⟨hs, hvid ▸ hperm, ?_⟩
      rw [← hshown, ← CardRepo.update_shown (r := r) hsame]
      exact congrArg VenueCard.shown (if_pos (by rw [hvr]; exact BEq.rfl))
    · obtain ⟨hs, hperm, hshown⟩ := h venueID r hr hne
      refine ⟨hs, hperm, ?_⟩
      rw [← hshown]
      exact CardSql.row_shown (fun v hv hid => hu ⟨v, hv, hid⟩) (by rwa [hid])

/-- A store after which the card shows its halls was of a card that does. -/
theorem CardWorld.Exec.storesShown {m : CardMoment} (he : CardWorld.Exec rules m.op m.before.world m.res m.after)
    (h : ∀ venueID, m.after.db.Derived rules venueID) : StoresShown rules m := by
  intro v ho hsame hfound hne
  rcases he.tables with hdb | ⟨s, env, ho', -, hdb⟩
  · exact absurd hdb hsame
  obtain rfl := CardOp.sql.inj (ho'.symm.trans ho)
  rw [hdb] at hsame
  rcases (CardSql.update v).run_cases rules env m.before.world.db with hsame' | ⟨v', _, _, heq, -⟩ | hw
  · exact absurd hsame' hsame
  · cases heq
  · obtain ⟨r, hr⟩ := Option.ne_none_iff_exists'.1 hfound
    have hid : r.id = v.id := by simpa using (Table.get_mem hr).2
    have hhalls := hw.halls v.id fun hat => nomatch hat
    have hcard := hw.venue v.id
    rw [← hdb] at hhalls hcard
    rw [hr, Option.map_some] at hcard
    obtain ⟨hs, hperm, hshown⟩ := h v.id _ hcard (by rwa [hhalls])
    rw [hhalls] at hperm
    refine ⟨hs, hperm, ?_⟩
    rw [← hshown, ← CardRepo.update_shown (r := r) hsame]
    exact congrArg VenueCard.shown (if_pos (by rw [hid]; exact BEq.rfl)).symm

section Runs

variable {w₀ : CardWorld} {tr : List CardMoment} {c : CardConfig}

theorem halls_linked (h : (cardSys rules).Trace w₀ tr c) (hl : ∀ venueID, w₀.db.HallsLinked venueID) :
    ∀ venueID, c.world.db.HallsLinked venueID := by
  refine h.pool_inv (P := fun _ => True) (fun w _ => ∀ venueID, w.db.HallsLinked venueID) hl (fun _ _ _ h _ => h) ?_ ?_
    fun _ _ => trivial
  · intro w w' ts₁ ts₂ c h o k r ih he _ venueID
    exact he.linked (ih venueID)
  · intro w w' ts ih he
    rwa [CardWorld.Passes.tables he]

/-- What the stores of a run keep. -/
theorem derived_run (h : (cardSys rules).Trace w₀ tr c) (hl : ∀ venueID, w₀.db.HallsLinked venueID)
    (h0 : ∀ venueID, w₀.db.Derived rules venueID) (hm : ∀ m ∈ tr, StoresShown rules m) :
    ∀ venueID, c.world.db.Derived rules venueID := by
  refine (h.pool_inv (P := StoresShown rules)
    (fun w _ => (∀ venueID, w.db.HallsLinked venueID) ∧ ∀ venueID, w.db.Derived rules venueID) ⟨hl, h0⟩
    (fun _ _ _ h _ => h) ?_ ?_ hm).2
  · intro w w' ts₁ ts₂ c h o k r ih he hm
    exact ⟨fun venueID => he.linked (ih.1 venueID), CardWorld.Exec.derived
      (m := ⟨⟨w, ts₁ ++ ⟨c, h, .call o k⟩ :: ts₂⟩, ⟨c, h, .call o k⟩, o, r, w'⟩) he ih.1 ih.2 hm⟩
  · intro w w' ts ih he
    rwa [CardWorld.Passes.tables he]

/-- **In a run every venue with halls shows what they give it, at every moment, exactly if every card that is stored over a
venue with halls shows them.** -/
theorem derived_iff (h : (cardSys rules).Trace w₀ tr c) (hl : ∀ venueID, w₀.db.HallsLinked venueID)
    (h0 : ∀ venueID, w₀.db.Derived rules venueID) :
    ((∀ m ∈ tr, ∀ venueID, m.after.db.Derived rules venueID) ∧ ∀ venueID, c.world.db.Derived rules venueID) ↔
      ∀ m ∈ tr, StoresShown rules m := by
  constructor
  · rintro ⟨hm, -⟩ m hmem
    exact CardWorld.Exec.storesShown (h.steps m hmem).exec (hm m hmem)
  · intro hm
    refine ⟨fun m hmem => ?_, derived_run h hl h0 hm⟩
    obtain ⟨tr₁, tr₂, htr⟩ := List.append_of_mem hmem
    have hbefore := h.before htr
    have hm₁ : ∀ m ∈ tr₁, StoresShown rules m := fun m hm' => hm m (by rw [htr]; exact List.mem_append_left _ hm')
    exact CardWorld.Exec.derived (h.steps m hmem).exec (halls_linked hbefore hl) (derived_run hbefore hl h0 hm₁) (hm m hmem)

end Runs

/-! ## Ann's bath and its hall -/

def annsHall : VenueHallInput := ⟨"", "big", 1000, 0, 6, [], "", ""⟩

def annsHallRow : VenueHall := ⟨annsVenue, annsVenue, "big", 1000, 0, 6, [], 0, "", "", 0⟩

/-- Whether nothing is stored in a run. -/
def storesNothing (tr : List CardMoment) : Bool :=
  tr.all fun m => match m.op with | .sql (.update _) => false | _ => true

theorem derived_iff_ann : ∃ tr c, (cardSys plainCards).Trace noCards tr c ∧ c.world.db.hallsOf annsVenue = [annsHallRow] ∧
    (∀ m ∈ tr, ∀ venueID, m.after.db.Derived plainCards venueID) ∧ ∀ venueID, c.world.db.Derived plainCards venueID := by
  obtain ⟨tr, c, ht, hQ⟩ := cards_played noCards
    (.start (.createVenue (annsRequest [annsHall])) :: List.replicate 3 (.step 0 annsTurn))
    (Q := fun x => storesNothing x.1 && x.2.world.db.hallsOf annsVenue == [annsHallRow]) (by decide +kernel)
  rw [Bool.and_eq_true, beq_iff_eq] at hQ
  refine ⟨tr, c, ht, hQ.2, (derived_iff ht (fun _ _ => rfl) fun _ _ hv => nomatch hv).2 fun m hm v ho => ?_⟩
  have hnot := List.all_eq_true.1 hQ.1 m hm
  rw [ho] at hnot
  cases hnot

/-- Her venue with its hall, as both are entered. -/
def annsHalls : CardWorld :=
  { noCards with
    db := { CardDB.empty with
      venues := ⟨[CardRepo.setDerived 1000 1000 6 [] annsCard], by decide +kernel, by simp⟩
      halls := ⟨[annsHallRow], by decide +kernel, by simp⟩ } }

theorem annsHalls_linked (venueID : String) : annsHalls.db.HallsLinked venueID := by
  intro hnone
  have hcard := Table.get_eq_none.1 hnone _ (List.mem_singleton.2 rfl)
  refine List.filter_eq_nil_iff.2 fun h hh => ?_
  rw [List.mem_singleton.1 hh]
  exact Bool.eq_false_iff.1 hcard

theorem annsHalls_derived (venueID : String) : annsHalls.db.Derived plainCards venueID := by
  intro v hv hne
  obtain ⟨hmem, hid⟩ := Table.get_mem hv
  obtain rfl := List.mem_singleton.1 hmem
  obtain rfl := eq_of_beq hid
  exact ⟨[annsHallRow], by decide +kernel, by decide +kernel⟩

/-- A store of a price that no hall has. -/
theorem derived_lost : ¬ ∀ (rules : CardRules) (w₀ : CardWorld) (tr : List CardMoment) (c : CardConfig),
    (∀ venueID, w₀.db.HallsLinked venueID) → (∀ venueID, w₀.db.Derived rules venueID) →
    (cardSys rules).Trace w₀ tr c → ∀ venueID, c.world.db.Derived rules venueID := by
  intro hall
  obtain ⟨tr, c, ht, hQ⟩ := cards_played annsHalls
    (.start (.updateVenue { id := annsVenue, ownerID := ann, priceFrom := some 1 }) :: List.replicate 9 (.step 0 annsTurn))
    (Q := fun x => (x.2.world.db.venue annsVenue).map VenueCard.shown == some (1, 1000, 6, []) &&
      x.2.world.db.hallsOf annsVenue == [annsHallRow]) (by decide +kernel)
  rw [Bool.and_eq_true, beq_iff_eq, beq_iff_eq] at hQ
  obtain ⟨v, hv, hshown⟩ := Option.map_eq_some_iff.1 hQ.1
  obtain ⟨hs, hperm, heq⟩ := hall plainCards annsHalls tr c annsHalls_linked annsHalls_derived ht annsVenue v hv
    (by rw [hQ.2]; exact List.cons_ne_nil _ _)
  rw [hQ.2, List.perm_singleton] at hperm
  rw [hshown, hperm] at heq
  exact absurd (congrArg Prod.fst heq) (by decide +kernel)

end Agregator
