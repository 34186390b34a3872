import Agregator.CrmTasks
import Agregator.AuthOAuth
import Agregator.ConcPlay
/-!
# CrmTaskRuns — the staff and the tasks of a venue over a run

What holds of the tables however the calls run into one another and whichever of their statements fail: the states of a task,
who may have changed it, how often it was closed, and who can be on the staff of a venue.
-/
namespace Agregator

open Rel Conc CrmRepo

/-! ## What a statement does to the tables -/

/-- What an `UPDATE` of a task is about. -/
def TaskChange.meets (ch : TaskChange) (venueID taskID : String) (t : Task) : Bool :=
  t.id == taskID && t.venueID == venueID && ch.takes t.status

/-- A new task as it is stored. -/
def Task.stored (now : Time) (t : Task) : Task :=
  { t with completedBy := none, completedAt := none, createdAt := now, updatedAt := now }

namespace CrmRepo

variable (now : Time) (db : TeamDB)

theorem insertVenue_cases (id ownerID : String) : (insertVenue now id ownerID db).2 = db ∨
    ∃ venues, db.venues.insert ⟨id, ownerID, now⟩ = .ok venues ∧ (insertVenue now id ownerID db).2 = { db with venues := venues } := by
  unfold insertVenue
  cases hi : db.venues.insert ⟨id, ownerID, now⟩ with
  | error v => exact .inl rfl
  | ok venues => exact .inr ⟨venues, rfl, rfl⟩

/-- The members afterwards are those of before, and the one that is added. -/
theorem addStaff_cases (venueID userID : String) (role : StaffRole) (invitedBy : String) :
    (addStaff now venueID userID role invitedBy db).2 = db ∨
    ∃ staff : Table staffSchema, (addStaff now venueID userID role invitedBy db).2 = { db with staff := staff } ∧
      ∀ m ∈ staff.rows, m ∈ db.staff.rows ∨ (m.venueID = venueID ∧ m.userID = userID ∧ m.invitedBy = invitedBy) := by
  unfold addStaff
  cases hm : db.member venueID userID with
  | some m =>
    dsimp only
    split
    · exact .inl rfl
    · rename_i staff hu
      refine .inr ⟨staff, rfl, fun m hm => ?_⟩
      rw [Table.update_rows hu] at hm
      obtain ⟨x, hx, rfl⟩ := List.mem_map.1 hm
      by_cases hk : (x.venueID == venueID && x.userID == userID) = true
      · rw [if_pos hk]
        simp only [Bool.and_eq_true, beq_iff_eq] at hk
        exact .inr ⟨hk.1, hk.2, rfl⟩
      · rw [if_neg hk]
        exact .inl hx
  | none =>
    dsimp only
    split
    · exact .inl rfl
    · rename_i staff hi
      by_cases hv : (db.venue venueID).isSome = true
      · rw [if_pos hv]
        refine .inr ⟨staff, rfl, fun m hm => ?_⟩
        rw [Table.insert_rows hi] at hm
        rcases List.mem_append.1 hm with hm | hm
        · exact .inl hm
        · rw [List.mem_singleton.1 hm]
          exact .inr ⟨rfl, rfl, rfl⟩
      · rw [if_neg hv]
        exact .inl rfl

theorem createTask_cases (t : Task) : (createTask now t db).2 = db ∨
    ∃ tasks, db.tasks.insert (t.stored now) = .ok tasks ∧ (db.venue t.venueID).isSome = true ∧
      (createTask now t db).2 = { db with tasks := tasks } := by
  unfold createTask Task.stored
  dsimp only
  cases hi : db.tasks.insert { t with completedBy := none, completedAt := none, createdAt := now, updatedAt := now } with
  | error v => exact .inl rfl
  | ok tasks =>
    dsimp only
    by_cases hv : (db.venue t.venueID).isSome = true
    · rw [if_pos hv]
      exact .inr ⟨tasks, rfl, hv, rfl⟩
    · rw [if_neg hv]
      exact .inl rfl

theorem changeTask_cases (venueID taskID : String) (ch : TaskChange) :
    ((∃ err, (changeTask now venueID taskID ch db).1 = .error err) ∧ (changeTask now venueID taskID ch db).2 = db) ∨
    ∃ tasks, db.tasks.update (ch.meets venueID taskID) (ch.apply now) = .ok tasks ∧
      changeTask now venueID taskID ch db =
        (.ok ((db.tasks.get (ch.meets venueID taskID)).map (ch.apply now)), { db with tasks := tasks }) := by
  unfold changeTask
  dsimp only
  cases hu : db.tasks.update (fun t => t.id == taskID && t.venueID == venueID && ch.takes t.status) (ch.apply now) with
  | error v => exact .inl ⟨⟨_, rfl⟩, rfl⟩
  | ok tasks => exact .inr ⟨tasks, hu, rfl⟩

end CrmRepo

/-- **What a statement can do to the tables**: nothing, a venue more, the staff of a venue changed, a task more at a venue
there is, or one task changed. -/
inductive TeamSql.Effect (now : Time) (db : TeamDB) : TeamSql → TeamDB → Prop where
  | nothing (s : TeamSql) : Effect now db s db
  | venue (id ownerID : String) (venues : Table ownedVenueSchema) : db.venues.insert ⟨id, ownerID, now⟩ = .ok venues →
      Effect now db (.insertVenue id ownerID) { db with venues := venues }
  | added (venueID userID : String) (role : StaffRole) (invitedBy : String) (staff : Table staffSchema) :
      (∀ m ∈ staff.rows, m ∈ db.staff.rows ∨ (m.venueID = venueID ∧ m.userID = userID ∧ m.invitedBy = invitedBy)) →
      Effect now db (.addStaff venueID userID role invitedBy) { db with staff := staff }
  | removed (venueID userID : String) (staff : Table staffSchema) : (∀ m ∈ staff.rows, m ∈ db.staff.rows) →
      Effect now db (.removeStaff venueID userID) { db with staff := staff }
  | task (t : Task) (tasks : Table taskSchema) : db.tasks.insert (t.stored now) = .ok tasks → (db.venue t.venueID).isSome = true →
      Effect now db (.createTask t) { db with tasks := tasks }
  | changed (venueID taskID : String) (ch : TaskChange) (tasks : Table taskSchema) :
      db.tasks.update (ch.meets venueID taskID) (ch.apply now) = .ok tasks →
      Effect now db (.changeTask venueID taskID ch) { db with tasks := tasks }

theorem TeamSql.run_effect (now : Time) (s : TeamSql) (db : TeamDB) : TeamSql.Effect now db s (s.run now db).2 := by
  cases s with
  | insertVenue id ownerID =>
    rcases insertVenue_cases now db id ownerID with heq | ⟨venues, hi, heq⟩
    · exact heq.symm ▸ .nothing _
    · exact heq.symm ▸ .venue id ownerID venues hi
  | addStaff venueID userID role invitedBy =>
    rcases addStaff_cases now db venueID userID role invitedBy with heq | ⟨staff, heq, hs⟩
    · exact heq.symm ▸ .nothing _
    · exact heq.symm ▸ .added venueID userID role invitedBy staff hs
  | removeStaff venueID userID => exact .removed venueID userID _ fun m hm => (List.mem_filter.1 hm).1
  | createTask t =>
    rcases createTask_cases now db t with heq | ⟨tasks, hi, hv, heq⟩
    · exact heq.symm ▸ .nothing _
    · exact heq.symm ▸ .task t tasks hi hv
  | changeTask venueID taskID ch =>
    rcases changeTask_cases now db venueID taskID ch with ⟨-, heq⟩ | ⟨tasks, hu, heq⟩
    · exact heq.symm ▸ .nothing _
    · exact congrArg Prod.snd heq.symm ▸ .changed venueID taskID ch tasks hu
  | venueOwnerID _ | getManagementAccess _ _ | batchGetManagementAccess _ _ | listManagedVenues _ | listStaff _ | listTasks _ _
    | getTask _ _ => exact .nothing _

/-! ## What is true of the tables -/

/-- A task as it may stand at a time: its text is checked, it says who closed it and when if it is done and not if it is open,
and its times are in their order. -/
structure Task.Sound (clock : Time) (t : Task) : Prop where
  written : WellWritten t.title t.body
  opened : t.status = .open → t.completedBy = none
  done : t.status = .done → t.completedBy.isSome = true
  stamped : t.completedBy.isSome = t.completedAt.isSome
  created : t.createdAt ≤ t.updatedAt
  updated : t.updatedAt ≤ clock
  completed : ∀ at_ ∈ t.completedAt, t.createdAt ≤ at_ ∧ at_ ≤ t.updatedAt

/-- Every task and every member belongs to a venue, whose owner is not a member and has invited them all. -/
structure TeamDB.Sound (clock : Time) (db : TeamDB) : Prop where
  tasks : ∀ t ∈ db.tasks.rows, t.Sound clock ∧ ∃ v ∈ db.venues.rows, v.id = t.venueID
  staff : ∀ s ∈ db.staff.rows, ∃ v ∈ db.venues.rows, v.id = s.venueID ∧ v.ownerID = s.invitedBy ∧ v.ownerID ≠ s.userID

theorem Task.Sound.later {clock clock' : Time} {t : Task} (h : t.Sound clock) (hc : clock ≤ clock') : t.Sound clock' :=
  { h with updated := Int.le_trans h.updated hc }

theorem Task.Sound.stored {now : Time} {t : Task} (hw : WellWritten t.title t.body) (hs : t.status = .open) :
    (t.stored now).Sound now where
  written := hw
  opened _ := rfl
  done hd := absurd (hs.symm.trans hd) (by decide)
  stamped := rfl
  created := Int.le_refl _
  updated := Int.le_refl _
  completed _ h := by cases h

/-- **A change that fits keeps a task sound.** -/
theorem Task.Sound.apply {now : Time} {t : Task} {ch : TaskChange} {actorID : String} (h : t.Sound now) (hf : ch.Fits actorID) :
    (ch.apply now t).Sound now := by
  have hle : t.createdAt ≤ now := Int.le_trans h.created h.updated
  cases ch with
  | update c =>
    exact { h with
      written := hf, created := hle, updated := Int.le_refl _
      completed := fun at_ ha => ⟨(h.completed at_ ha).1, Int.le_trans (h.completed at_ ha).2 h.updated⟩ }
  | complete completedBy =>
    refine { h with
      opened := fun hs => (by cases hs), done := fun _ => rfl, stamped := rfl, created := hle, updated := Int.le_refl _
      completed := fun at_ ha => ?_ }
    cases ha
    exact ⟨hle, Int.le_refl _⟩
  | reopen =>
    exact { h with
      opened := fun _ => rfl, done := fun hs => (by cases hs), stamped := rfl, created := hle, updated := Int.le_refl _
      completed := fun at_ ha => (by cases ha) }
  | cancel =>
    exact { h with
      opened := fun hs => (by cases hs), done := fun hs => (by cases hs)
      created := hle, updated := Int.le_refl _
      completed := fun at_ ha => ⟨(h.completed at_ ha).1, Int.le_trans (h.completed at_ ha).2 h.updated⟩ }

/-- What an answer has told of the owner of a venue. -/
def TeamDB.Told (db : TeamDB) (e : Event TeamOp TeamRes) : Prop :=
  ∀ venueID ownerID, e = ⟨.sql (.venueOwnerID venueID), .ok (some ownerID)⟩ →
    ∃ v ∈ db.venues.rows, v.id = venueID ∧ v.ownerID = ownerID

/-- A venue stays as it is. -/
theorem TeamSql.Effect.venues {now : Time} {s : TeamSql} {db db' : TeamDB} (h : s.Effect now db db') {v : OwnedVenue}
    (hv : v ∈ db.venues.rows) : v ∈ db'.venues.rows := by
  cases h with
  | venue id ownerID venues hi =>
    rw [Table.insert_rows hi]
    exact List.mem_append_left _ hv
  | nothing | added | removed | task | changed => exact hv

/-- **A statement that its call is entitled to keeps the tables sound.** -/
theorem TeamDB.Sound.effect {now : Time} {s : TeamSql} {db db' : TeamDB} {call : TeamCall} {h : TeamHistory} (hdb : db.Sound now)
    (he : s.Effect now db db') (hs : call.Entitled h (.sql s)) (htold : ∀ e ∈ h, db.Told e) : db'.Sound now := by
  cases he with
  | nothing => exact hdb
  | venue id ownerID venues hi =>
    have hkeep : ∀ v ∈ db.venues.rows, v ∈ venues.rows := by
      intro v hv
      rw [Table.insert_rows hi]
      exact List.mem_append_left _ hv
    refine ⟨fun t ht => ?_, fun m hm => ?_⟩
    · obtain ⟨hsound, v, hv, hid⟩ := hdb.tasks t ht
      exact ⟨hsound, v, hkeep v hv, hid⟩
    · obtain ⟨v, hv, hrest⟩ := hdb.staff m hm
      exact ⟨v, hkeep v hv, hrest⟩
  | added venueID userID role invitedBy staff hstaff =>
    refine ⟨hdb.tasks, fun m hm => ?_⟩
    rcases hstaff m hm with hm | ⟨rfl, rfl, rfl⟩
    · exact hdb.staff m hm
    · obtain ⟨-, hne, howner⟩ := hs
      obtain ⟨v, hv, hid, ho⟩ := htold _ howner _ _ rfl
      exact ⟨v, hv, hid, ho, fun heq => hne (heq.symm.trans ho)⟩
  | removed venueID userID staff hstaff => exact ⟨hdb.tasks, fun m hm => hdb.staff m (hstaff m hm)⟩
  | task t₀ tasks hi hv =>
    refine ⟨fun t ht => ?_, hdb.staff⟩
    rw [Table.insert_rows hi] at ht
    rcases List.mem_append.1 ht with ht | ht
    · exact hdb.tasks t ht
    · obtain ⟨-, hopen, hw, -⟩ := hs
      obtain ⟨v, hv⟩ := Option.isSome_iff_exists.1 hv
      rw [List.mem_singleton.1 ht]
      exact ⟨.stored hw hopen, v, (Table.get_mem hv).1, by simpa [Task.stored] using (Table.get_mem hv).2⟩
  | changed venueID taskID ch tasks hu =>
    refine ⟨fun t ht => ?_, hdb.staff⟩
    obtain ⟨actorID, -, hfits, -⟩ := hs
    rw [Table.update_rows hu] at ht
    obtain ⟨x, hx, rfl⟩ := List.mem_map.1 ht
    obtain ⟨hsound, hxv⟩ := hdb.tasks x hx
    by_cases hmeets : ch.meets venueID taskID x = true
    · rw [if_pos hmeets]
      refine ⟨hsound.apply hfits, ?_⟩
      cases ch <;> exact hxv
    · rw [if_neg hmeets]
      exact ⟨hsound, hxv⟩

/-! ## Over a run -/

section Runs

variable {w₀ : TeamWorld} {tr tr₁ tr₂ : List TeamMoment} {d : TeamMoment}
  {c : Config TeamWorld TeamCall TeamOp TeamRes TeamAnswer}

/-- An operation has one of the effects of its statement. -/
theorem team_effect {o : TeamOp} {w w' : TeamWorld} {r : TeamRes o} (h : SqlOp.Exec teamRules o w r w') :
    w'.db = w.db ∨ ∃ s, o = .sql s ∧ s.Effect w.clock w.db w'.db := by
  rcases SqlOp.Exec.db h with heq | ⟨s, rfl, heq⟩
  · exact .inl heq
  · exact .inr ⟨s, rfl, heq.symm ▸ TeamSql.run_effect _ _ _⟩

theorem TeamDB.Sound.later {clock clock' : Time} {db : TeamDB} (h : db.Sound clock) (hc : clock ≤ clock') : db.Sound clock' :=
  ⟨fun t ht => ⟨(h.tasks t ht).1.later hc, (h.tasks t ht).2⟩, h.staff⟩

/-- **The tables stay sound**, however calls run into one another and whatever fails: every task says who closed it and when
as its status has it, with its text checked and its times in order, and nobody is on the staff of a venue but by its owner, who
is not on it. -/
theorem team_sound (h : teamSys.Trace w₀ tr c) (h0 : w₀.db.Sound w₀.clock) : c.world.db.Sound c.world.clock := by
  have hlast : ∀ (w w' : TeamWorld) (e : Event TeamOp TeamRes), (∀ v ∈ w.db.venues.rows, v ∈ w'.db.venues.rows) →
      w.db.Told e → w'.db.Told e := by
    intro w w' e hR ht venueID ownerID he
    obtain ⟨v, hv, hrest⟩ := ht venueID ownerID he
    exact ⟨v, hR v hv, hrest⟩
  refine (h.reach.told (I := fun w => w.db.Sound w.clock) (R := fun w w' => ∀ v ∈ w.db.venues.rows, v ∈ w'.db.venues.rows)
    (T := fun w e => w.db.Told e) (K := fun _ _ => True) (P := TeamCall.Entitled) hlast (fun _ _ _ _ _ => trivial)
    TeamCall.prog_after h0 (fun _ _ _ => trivial) ?_ ?_).1
  · intro w w' ts₁ ts₂ call hist o k r _ _ hI _ hP htold he
    have hclock : w'.clock = w.clock := SqlOp.Exec.clock he
    have hnew : w'.db.Told ⟨o, r⟩ := by
      rintro venueID ownerID heq
      obtain ⟨rfl, hr⟩ := Sigma.mk.inj heq
      have hrun := SqlOp.Exec.ok (eq_of_heq hr ▸ he)
      obtain ⟨hans, hdb⟩ := Prod.mk.inj hrun
      obtain ⟨v, hv, rfl⟩ := Option.map_eq_some_iff.1 (Except.ok.inj hans)
      rw [← hdb]
      exact ⟨v, (Table.get_mem hv).1, by simpa using (Table.get_mem hv).2, rfl⟩
    rw [hclock]
    rcases team_effect he with heq | ⟨s, rfl, heff⟩
    · rw [heq] at hnew ⊢
      exact ⟨hI, fun v hv => hv, hnew⟩
    · exact ⟨hI.effect heff hP htold, fun v hv => heff.venues hv, hnew⟩
  · rintro w w' ts _ hI ⟨later, hle, rfl⟩
    exact ⟨hI.later hle, fun v hv => hv⟩

/-! ## One task -/

/-- What a change leaves of a task, it leaves. -/
theorem TaskChange.apply_key (ch : TaskChange) (now : Time) (t : Task) :
    (ch.apply now t).id = t.id ∧ (ch.apply now t).venueID = t.venueID := by
  cases ch <;> exact ⟨rfl, rfl⟩

theorem task_key {a b : Task} {id : String} (ha : (a.id == id) = true) (hb : (b.id == id) = true) : taskSchema.clash a b = true := by
  rw [beq_iff_eq] at ha hb
  exact beq_iff_eq.2 (ha.trans hb.symm)

/-- **What a statement does to one task.** -/
theorem TeamSql.Effect.task_cases {now : Time} {s : TeamSql} {db db' : TeamDB} (h : s.Effect now db db') (id : String) :
    db'.task id = db.task id ∨
    (∃ t, s = .createTask t ∧ t.id = id ∧ db.task id = none ∧ db'.task id = some (t.stored now)) ∨
    ∃ venueID ch t, s = .changeTask venueID id ch ∧ db.task id = some t ∧ ch.meets venueID id t = true ∧
      db'.task id = some (ch.apply now t) := by
  cases h with
  | nothing | venue | added | removed => exact .inl rfl
  | task t tasks hi hv =>
    have hget : (⟨db.venues, db.staff, tasks⟩ : TeamDB).task id = (db.task id).or (if (t.id == id) = true then some (t.stored now) else none) :=
      Table.get_insert hi _
    rw [hget]
    by_cases hid : (t.id == id) = true
    · refine .inr (.inl ⟨t, rfl, beq_iff_eq.1 hid, ?_⟩)
      have hnone : db.task id = none := Table.get_eq_none.2 fun x hx => by
        by_contra hne
        have hclash := (Table.of_insert_ok hi).2 x hx
        rw [task_key (by simpa using hne) (b := t.stored now) hid] at hclash
        cases hclash
      rw [hnone, if_pos hid]
      exact ⟨rfl, rfl⟩
    · rw [if_neg hid, Option.or_none]
      exact .inl rfl
  | changed venueID taskID ch tasks hu =>
    have hget : (⟨db.venues, db.staff, tasks⟩ : TeamDB).task id =
        (db.task id).map fun r => if ch.meets venueID taskID r = true then ch.apply now r else r :=
      Table.get_update hu fun r => by rw [(ch.apply_key now r).1]
    rw [hget]
    cases ht : db.task id with
    | none => exact .inl rfl
    | some t =>
      by_cases hmeets : ch.meets venueID taskID t = true
      · have hid : taskID = id := by
          have h1 : t.id = id := by simpa using (Table.get_mem ht).2
          simp only [TaskChange.meets, Bool.and_eq_true, beq_iff_eq] at hmeets
          exact hmeets.1.1.symm.trans h1
        subst hid
        rw [Option.map_some, if_pos hmeets]
        exact .inr (.inr ⟨venueID, ch, t, rfl, rfl, hmeets, rfl⟩)
      · rw [Option.map_some, if_neg hmeets]
        exact .inl rfl

theorem TaskChange.takes_cancelled {ch : TaskChange} {s : TaskStatus} (h : ch.takes s = true) : s ≠ .cancelled := by
  rintro rfl
  cases ch <;> cases h

/-- A change that has been reported has met the task it reports. -/
theorem changed_of_ran {now : Time} {venueID taskID : String} {ch : TaskChange} {db : TeamDB} {t' : Task}
    (h : (CrmRepo.changeTask now venueID taskID ch db).1 = .ok (some t')) :
    ∃ t, db.task taskID = some t ∧ ch.meets venueID taskID t = true ∧ t' = ch.apply now t ∧
      (CrmRepo.changeTask now venueID taskID ch db).2.task taskID = some t' := by
  rcases changeTask_cases now db venueID taskID ch with ⟨⟨err, herr⟩, -⟩ | ⟨tasks, hu, heq⟩
  · rw [herr] at h
    cases h
  · rw [heq] at h ⊢
    obtain ⟨t, ht, rfl⟩ := Option.map_eq_some_iff.1 (Except.ok.inj h)
    obtain ⟨hmem, hmeets⟩ := Table.get_mem ht
    have hid : (t.id == taskID) = true := by
      simp only [TaskChange.meets, Bool.and_eq_true] at hmeets
      exact hmeets.1.1
    have htask : db.task taskID = some t := db.tasks.get_key hmem hid fun x hx => task_key hx hid
    have hget : (⟨db.venues, db.staff, tasks⟩ : TeamDB).task taskID =
        (db.task taskID).map fun r => if ch.meets venueID taskID r = true then ch.apply now r else r :=
      Table.get_update hu fun r => by rw [(ch.apply_key now r).1]
    refine ⟨t, htask, hmeets, rfl, ?_⟩
    rw [hget, htask, Option.map_some, if_pos hmeets]

/-- **A cancelled task is as it was for good**, and no call reports a change of it. -/
theorem cancelled_final (h : teamSys.Trace w₀ (tr₁ ++ d :: tr₂) c) {t : Task} (ht : d.after.db.task t.id = some t)
    (hc : t.status = .cancelled) : c.world.db.task t.id = some t ∧
      ∀ m ∈ tr₂, ∀ venueID ch t', m.event ≠ ⟨.sql (.changeTask venueID t.id ch), .ok (some t')⟩ := by
  have hstep : ∀ m : TeamMoment, m.Step teamSys → m.before.world.db.task t.id = some t → m.after.db.task t.id = some t := by
    intro m hm hb
    rcases team_effect hm.exec with heq | ⟨s, -, heff⟩
    · rwa [heq]
    · rcases heff.task_cases t.id with heq | ⟨t', -, -, hnone, -⟩ | ⟨venueID, ch, t', -, hb', hmeets, -⟩
      · rwa [heq]
      · rw [hnone] at hb
        cases hb
      · rw [hb'] at hb
        obtain rfl := Option.some.inj hb
        exact absurd hc (TaskChange.takes_cancelled (Bool.and_eq_true_iff.1 hmeets).2)
  have henv : ∀ w w' : TeamWorld, teamSys.env w w' → w.db.task t.id = some t → w'.db.task t.id = some t := by
    rintro w w' ⟨later, -, rfl⟩ hw
    exact hw
  refine ⟨h.keeps_from (F := fun w => w.db.task t.id = some t) ht (fun m _ hm hb => hstep m hm hb) henv, ?_⟩
  intro m hm venueID ch t' he
  obtain ⟨tr₃, tr₄, rfl⟩ := List.append_of_mem hm
  -- the task was cancelled before that moment too
  have hsplit : tr₁ ++ d :: (tr₃ ++ m :: tr₄) = (tr₁ ++ d :: tr₃) ++ m :: tr₄ := by simp
  have hprefix : teamSys.Trace w₀ (tr₁ ++ d :: tr₃) m.before := h.before hsplit
  have hb : m.before.world.db.task t.id = some t :=
    hprefix.keeps_from (F := fun w => w.db.task t.id = some t) ht (fun m _ hm hb => hstep m hm hb) henv
  have hran := Sys.Trace.ran h (List.mem_append_right _ (List.mem_cons_of_mem _ hm)) he
  obtain ⟨t₁, ht₁, hmeets, -, -⟩ := changed_of_ran (congrArg Prod.fst hran)
  rw [hb] at ht₁
  obtain rfl := Option.some.inj ht₁
  exact absurd hc (TaskChange.takes_cancelled (Bool.and_eq_true_iff.1 hmeets).2)

/-! ## Who has changed a task -/

/-- An operation that the call of a moment has behind it. -/
def TeamMoment.Earlier (d m : TeamMoment) : Prop := d.thread.call = m.thread.call ∧ d.thread.did ++ [d.event] <+: m.thread.did

/-- What a call has read, it has read at a moment before. -/
theorem read_before (h : teamSys.Trace w₀ (tr₁ ++ d :: tr₂) c) {s : TeamSql} {a : s.Ans}
    (he : (⟨.sql s, .ok a⟩ : Event TeamOp TeamRes) ∈ d.thread.did) :
    ∃ m ∈ tr₁, TeamMoment.Earlier m d ∧ (s.run m.before.world.clock m.before.world.db).1 = .ok a := by
  obtain ⟨ts₁, ts₂, k, hts, -⟩ := (h.steps d (List.mem_append_right _ List.mem_cons_self)).thread
  obtain ⟨m, hm, hcall, hpre, hev, hexec⟩ := (h.before rfl).performing (by rw [hts]; simp) he
  exact ⟨m, hm, ⟨hcall, hev ▸ hpre⟩, congrArg Prod.fst (SqlOp.Exec.ok hexec)⟩

theorem getTask_some {venueID taskID : String} {db : TeamDB} {t : Task} (h : CrmRepo.getTask venueID taskID db = some t) :
    db.task taskID = some t ∧ t.venueID = venueID := by
  obtain ⟨hmem, hp⟩ := Table.get_mem h
  obtain ⟨hid, hv⟩ := Bool.and_eq_true_iff.1 hp
  exact ⟨db.tasks.get_key hmem hid fun x hx => task_key hx hid, beq_iff_eq.1 hv⟩

/-- Other tasks are left as they are. -/
theorem TeamSql.Effect.task_other {now : Time} {s : TeamSql} {db db' : TeamDB} (h : s.Effect now db db') {id id' : String}
    (hne : db'.task id ≠ db.task id) (hid : id' ≠ id) : db'.task id' = db.task id' := by
  rcases h.task_cases id with heq | ⟨t, rfl, rfl, -, -⟩ | ⟨venueID, ch, t, rfl, -, -, -⟩
  · exact absurd heq hne
  · rcases h.task_cases id' with heq | ⟨t', hs, ht', -, -⟩ | ⟨venueID, ch, t', hs, -, -, -⟩
    · exact heq
    · rw [TeamSql.createTask.inj hs] at hid
      exact absurd ht'.symm hid
    · cases hs
  · rcases h.task_cases id' with heq | ⟨t', hs, -, -, -⟩ | ⟨venueID', ch', t', hs, -, -, -⟩
    · exact heq
    · cases hs
    · cases hs
      exact absurd rfl hid

/-- **A task changes by the hand of who may change it.**  At every moment of a run at which a task is not what it was, one
task of one venue changes, by a call whose actor had access to the venue when the call asked; and the task is new and by that
actor, or the access was that of an owner or a manager, or the task goes from open to done and was, when the call read it, the
actor's own. -/
theorem changes_authorised (h : teamSys.Trace w₀ (tr₁ ++ d :: tr₂) c) {id : String}
    (hne : d.after.db.task id ≠ d.before.world.db.task id) :
    ∃ venueID actorID t', d.thread.call.scope = some (venueID, actorID) ∧ d.after.db.task id = some t' ∧ t'.venueID = venueID ∧
      (∀ id', id' ≠ id → d.after.db.task id' = d.before.world.db.task id') ∧
      ∃ m ∈ tr₁, TeamMoment.Earlier m d ∧ ∃ access, m.before.world.db.access venueID actorID = some access ∧
        ((d.before.world.db.task id = none ∧ t'.createdBy = actorID ∧ t'.status = .open) ∨
          Access.can (some access) .manageAnyTask = true ∨
          ((∃ t, d.before.world.db.task id = some t ∧ t.status = .open ∧
              t' = TaskChange.apply d.before.world.clock (.complete actorID) t) ∧
            ∃ m' ∈ tr₁, TeamMoment.Earlier m' d ∧ ∃ t, m'.before.world.db.task id = some t ∧ t.venueID = venueID ∧
              t.ownedBy actorID = true)) := by
  have hd : d ∈ tr₁ ++ d :: tr₂ := List.mem_append_right _ List.mem_cons_self
  have hprior : d.thread.call.Entitled d.thread.did d.op := h.prior TeamCall.prog_after d hd
  have haccess : ∀ venueID actorID access, AccessRead d.thread.did venueID actorID (some access) →
      ∃ m ∈ tr₁, TeamMoment.Earlier m d ∧ m.before.world.db.access venueID actorID = some access := by
    intro venueID actorID access hread
    obtain ⟨m, hm, hearlier, hrun⟩ := read_before h hread
    exact ⟨m, hm, hearlier, (getManagementAccess_eq ..).symm.trans (Except.ok.inj hrun)⟩
  rcases team_effect (h.steps d hd).exec with heq | ⟨s, ho, heff⟩
  · rw [heq] at hne
    exact absurd rfl hne
  rw [ho] at hprior
  have hother : ∀ id', id' ≠ id → d.after.db.task id' = d.before.world.db.task id' := fun id' hid => heff.task_other hne hid
  rcases heff.task_cases id with heq | ⟨t, rfl, rfl, hnone, hafter⟩ | ⟨venueID, ch, t, rfl, ht, hmeets, hafter⟩
  · exact absurd heq hne
  · obtain ⟨hscope, hopen, -, access, hread⟩ := hprior
    obtain ⟨m, hm, hearlier, hacc⟩ := haccess _ _ _ hread
    exact ⟨t.venueID, t.createdBy, _, hscope, hafter, rfl, hother, m, hm, hearlier, access, hacc, .inl ⟨hnone, rfl, hopen⟩⟩
  · obtain ⟨actorID, hscope, -, access, hread, hright⟩ := hprior
    obtain ⟨m, hm, hearlier, hacc⟩ := haccess _ _ _ hread
    obtain ⟨hkey, htakes⟩ := Bool.and_eq_true_iff.1 hmeets
    have hvenue : (ch.apply d.before.world.clock t).venueID = venueID := by
      rw [(ch.apply_key _ t).2]
      exact beq_iff_eq.1 (Bool.and_eq_true_iff.1 hkey).2
    refine ⟨venueID, actorID, _, hscope, hafter, hvenue, hother, m, hm, hearlier, access, hacc, .inr ?_⟩
    rcases hright with hcan | ⟨rfl, t₀, hown, hmine⟩
    · exact .inl hcan
    · obtain ⟨m', hm', hearlier', hrun⟩ := read_before h hown
      obtain ⟨ht₀, hv₀⟩ := getTask_some (Except.ok.inj hrun)
      exact .inr ⟨⟨t, ht, beq_iff_eq.1 htakes, rfl⟩, m', hm', hearlier', t₀, ht₀, hv₀, hmine⟩

/-! ## How often a task is closed -/

/-- A task that says who closed it. -/
def TeamDB.closed (db : TeamDB) (id : String) : ℕ := if ((db.task id).bind (·.completedBy)).isSome then 1 else 0

/-- A task goes from one status to another. -/
def TeamMoment.moves (id : String) (a b : TaskStatus) (m : TeamMoment) : Bool :=
  (m.before.world.db.task id).map (·.status) == some a && (m.after.db.task id).map (·.status) == some b

/-- A call is told that it has closed a task. -/
def TeamMoment.reports (id : String) (m : TeamMoment) : Bool :=
  match m.event with
  | ⟨.sql (.changeTask _ taskID (.complete _)), .ok (some _)⟩ => taskID == id
  | _ => false

theorem TeamDB.closed_eq {db db' : TeamDB} {id : String} (h : db'.task id = db.task id) : db'.closed id = db.closed id := by
  unfold TeamDB.closed
  rw [h]

theorem TeamMoment.moves_iff {id : String} {a b : TaskStatus} {m : TeamMoment} : TeamMoment.moves id a b m = true ↔
    (∃ t, m.before.world.db.task id = some t ∧ t.status = a) ∧ ∃ t, m.after.db.task id = some t ∧ t.status = b := by
  simp [TeamMoment.moves]

/-- **A moment closes a task that was not closed, or opens one that was, or leaves what it says.** -/
theorem closed_step {m : TeamMoment} (hm : m.Step teamSys) (hdb : m.before.world.db.Sound m.before.world.clock) (id : String) :
    (if TeamMoment.moves id .open .done m then 1 else 0) + m.before.world.db.closed id =
      (if TeamMoment.moves id .done .open m then 1 else 0) + m.after.db.closed id := by
  have hsame : m.after.db.task id = m.before.world.db.task id →
      (if TeamMoment.moves id .open .done m then 1 else 0) + m.before.world.db.closed id =
        (if TeamMoment.moves id .done .open m then 1 else 0) + m.after.db.closed id := by
    intro heq
    rw [TeamDB.closed_eq heq]
    cases ht : m.before.world.db.task id with
    | none => simp [TeamMoment.moves, heq, ht]
    | some t => cases hs : t.status <;> simp [TeamMoment.moves, heq, ht, hs]
  rcases team_effect hm.exec with heq | ⟨s, -, heff⟩
  · exact hsame (by rw [heq])
  rcases heff.task_cases id with heq | ⟨t, -, -, hnone, hafter⟩ | ⟨venueID, ch, t, -, ht, hmeets, hafter⟩
  · exact hsame heq
  · simp [TeamMoment.moves, TeamDB.closed, hnone, hafter, Task.stored]
  · have hsound := (hdb.tasks t (Table.get_mem ht).1).1
    have htakes : ch.takes t.status = true := (Bool.and_eq_true_iff.1 hmeets).2
    cases ch with
    | update content =>
      cases hs : t.status <;> simp [TeamMoment.moves, TeamDB.closed, ht, hafter, TaskChange.apply, hs]
    | complete completedBy =>
      have hs : t.status = .open := beq_iff_eq.1 htakes
      simp [TeamMoment.moves, TeamDB.closed, ht, hafter, TaskChange.apply, hs, hsound.opened hs]
    | reopen =>
      have hs : t.status = .done := beq_iff_eq.1 htakes
      simp [TeamMoment.moves, TeamDB.closed, ht, hafter, TaskChange.apply, hs, hsound.done hs]
    | cancel => cases hs : t.status <;> simp [TeamMoment.moves, TeamDB.closed, ht, hafter, TaskChange.apply, hs]

/-- Who is told to have closed a task, has. -/
theorem moves_of_reports {m : TeamMoment} (hm : m.Step teamSys) {id : String} (h : TeamMoment.reports id m = true) :
    TeamMoment.moves id .open .done m = true := by
  obtain ⟨b, t, o, r, w'⟩ := m
  unfold TeamMoment.reports Moment.event at h
  dsimp only at h
  split at h
  · rename_i venueID taskID completedBy t' heq
    cases heq
    obtain rfl := beq_iff_eq.1 h
    have hrun := SqlOp.Exec.ok hm.exec
    obtain ⟨t₁, ht₁, hmeets, ht', hafter⟩ := changed_of_ran (congrArg Prod.fst hrun)
    have hdb := congrArg Prod.snd hrun
    refine TeamMoment.moves_iff.2 ⟨⟨t₁, ht₁, beq_iff_eq.1 (Bool.and_eq_true_iff.1 hmeets).2⟩, t', ?_, by rw [ht']; rfl⟩
    exact (congrArg (TeamDB.task · taskID) hdb).symm.trans hafter
  · cases h

/-- **A task is closed once for each time it is opened**: over a run it goes from open to done as often as from done to open,
and once more if it is closed at the end; and of the calls that close it at most one more is told so than it was opened
again. -/
theorem closed_once (h : teamSys.Trace w₀ tr c) (h0 : w₀.db.Sound w₀.clock) (id : String) :
    tr.countP (TeamMoment.moves id .open .done) + w₀.db.closed id =
        tr.countP (TeamMoment.moves id .done .open) + c.world.db.closed id ∧
      tr.countP (TeamMoment.reports id) ≤ tr.countP (TeamMoment.moves id .done .open) + 1 := by
  have hcount : tr.countP (TeamMoment.moves id .open .done) + w₀.db.closed id =
      tr.countP (TeamMoment.moves id .done .open) + c.world.db.closed id := by
    induction h with
    | init => rfl
    | start _ _ _ ih => exact ih
    | @perform tr w w' ts₁ ts₂ call hist o k r ht he ih =>
      have hstep := closed_step (m := ⟨⟨w, ts₁ ++ ⟨call, hist, .call o k⟩ :: ts₂⟩, ⟨call, hist, .call o k⟩, o, r, w'⟩)
        ⟨⟨ts₁, ts₂, k, rfl, rfl⟩, he⟩ (team_sound ht h0) id
      rw [List.countP_append, List.countP_append, List.countP_singleton, List.countP_singleton]
      dsimp only at hstep ih ⊢
      omega
    | env _ he ih =>
      obtain ⟨later, -, rfl⟩ := he
      exact ih
  refine ⟨hcount, ?_⟩
  have hle : tr.countP (TeamMoment.reports id) ≤ tr.countP (TeamMoment.moves id .open .done) :=
    List.countP_mono_left fun m hm hr => moves_of_reports (h.steps m hm) hr
  have hone : c.world.db.closed id ≤ 1 := by
    unfold TeamDB.closed
    split <;> omega
  omega

end Runs

/-! ## A run -/

def firstVenue : String := "aaaaaaaa-0000-0000-0000-000000000001"

def firstTask : String := "bbbbbbbb-0000-0000-0000-000000000001"

/-- A venue, a member of its staff, a task that the member makes and closes, and the owner that cancels it, twice. -/
def workday : List (Move TeamCall String) :=
  [.start (.createVenue firstUser), .step 0 firstVenue, .step 0 "",
    .start (.addStaff firstVenue firstUser secondUser "staff"), .step 1 "", .step 1 "",
    .start (.createTask firstVenue secondUser " Lamps " "" none none "" none), .step 2 "", .step 2 firstTask, .step 2 "",
    .start (.completeTask firstVenue secondUser firstTask), .start (.cancelTask firstVenue firstUser firstTask),
    .step 3 "", .step 4 "", .step 3 "", .step 3 "", .step 4 "",
    .start (.cancelTask firstVenue firstUser firstTask), .step 5 "", .step 5 ""]

/-- A moment of the schedule. -/
theorem workday_trace (i : ℕ) {Q : TeamMoment → Bool}
    (h : (play teamSys.prog (fun id o w => SqlOp.turn teamRules id o w) workday ⟨⟨.empty, 0, []⟩, []⟩).any
      (fun x => x.1[i]?.any Q) = true) :
    ∃ tr₁ d tr₂ c, teamSys.Trace ⟨.empty, 0, []⟩ (tr₁ ++ d :: tr₂) c ∧ Q d = true :=
  Sys.Trace.played_at (S := teamSys) (fun id o w r w' => SqlOp.exec_of_turn id o w r w') workday (fun _ _ _ => trivial) i
    (Q := fun _ d _ => Q d) h

theorem TeamDB.Sound.empty (clock : Time) : TeamDB.empty.Sound clock :=
  ⟨fun _ h => absurd h List.not_mem_nil, fun _ h => absurd h List.not_mem_nil⟩

def TeamDB.has (db : TeamDB) (id : String) (s : TaskStatus) : Bool := (db.task id).any (·.status == s)

theorem task_of_has {db : TeamDB} {id : String} {s : TaskStatus} (h : db.has id s = true) :
    ∃ t, db.task id = some t ∧ t.status = s := by
  obtain ⟨t, ht, hs⟩ := (Option.any_eq_true _ _).1 h
  exact ⟨t, ht, beq_iff_eq.1 hs⟩

theorem team_sound_workday : ∃ tr c, teamSys.Trace ⟨.empty, 0, []⟩ tr c ∧ tr ≠ [] ∧ c.world.db.Sound c.world.clock := by
  obtain ⟨tr₁, d, tr₂, c, ht, -⟩ := workday_trace 10 (Q := fun m => m.after.db.has firstTask .done) (by decide +kernel)
  exact ⟨_, c, ht, by simp, team_sound ht (.empty 0)⟩

theorem cancelled_final_workday : ∃ tr₁ d tr₂ c t, teamSys.Trace ⟨.empty, 0, []⟩ (tr₁ ++ d :: tr₂) c ∧ c.world.db.task t.id = some t ∧
    ∀ m ∈ tr₂, ∀ venueID ch t', m.event ≠ ⟨.sql (.changeTask venueID t.id ch), .ok (some t')⟩ := by
  obtain ⟨tr₁, d, tr₂, c, ht, hQ⟩ := workday_trace 11 (Q := fun m => m.after.db.has firstTask .cancelled) (by decide +kernel)
  obtain ⟨t, hd, hs⟩ := task_of_has hQ
  have hid : t.id = firstTask := by simpa using (Table.get_mem hd).2
  rw [← hid] at hd
  exact ⟨tr₁, d, tr₂, c, t, ht, cancelled_final ht hd hs⟩

theorem changes_authorised_workday : ∃ tr₁ d tr₂ c t', teamSys.Trace ⟨.empty, 0, []⟩ (tr₁ ++ d :: tr₂) c ∧
    d.after.db.task firstTask = some t' ∧ d.thread.call.scope = some (t'.venueID, secondUser) ∧
      ∃ m ∈ tr₁, TeamMoment.Earlier m d ∧ (m.before.world.db.access t'.venueID secondUser).isSome = true := by
  obtain ⟨tr₁, d, tr₂, c, ht, hQ⟩ := workday_trace 10
    (Q := fun m => m.after.db.has firstTask .done && m.before.world.db.has firstTask .open &&
      m.thread.call.scope == some (firstVenue, secondUser)) (by decide +kernel)
  simp only [Bool.and_eq_true, beq_iff_eq] at hQ
  obtain ⟨⟨hafter, hbefore⟩, hscope⟩ := hQ
  obtain ⟨t, hd, hs⟩ := task_of_has hafter
  obtain ⟨t₀, hd₀, hs₀⟩ := task_of_has hbefore
  have hne : d.after.db.task firstTask ≠ d.before.world.db.task firstTask := by
    rw [hd, hd₀]
    intro heq
    rw [Option.some.inj heq, hs₀] at hs
    cases hs
  obtain ⟨venueID, actorID, t', hsc, ht', hv, -, m, hm, hearlier, access, hacc, -⟩ := changes_authorised ht hne
  obtain ⟨rfl, rfl⟩ := Prod.mk.inj (Option.some.inj (hscope.symm.trans hsc))
  exact ⟨tr₁, d, tr₂, c, t', ht, ht', hv.symm ▸ hscope, m, hm, hearlier, by rw [hv, hacc]; rfl⟩

theorem closed_once_workday : ∃ tr c, teamSys.Trace ⟨.empty, 0, []⟩ tr c ∧ TeamMoment.moves firstTask .open .done <$> tr[10]? = some true ∧
    tr.countP (TeamMoment.reports firstTask) ≤ tr.countP (TeamMoment.moves firstTask .done .open) + 1 := by
  have hplay : (play teamSys.prog (fun id o => SqlOp.turn teamRules id o) workday ⟨⟨.empty, 0, []⟩, []⟩).any
      (fun x => TeamMoment.moves firstTask .open .done <$> x.1[10]? == some true) = true := by decide +kernel
  obtain ⟨tr, c, ht, hQ⟩ := Sys.Trace.played_to (fun _ _ => trivial) (fun id o w r w' => SqlOp.exec_of_turn id o w r w') workday hplay
  exact ⟨tr, c, ht, beq_iff_eq.1 hQ, (closed_once ht (.empty 0) firstTask).2⟩

end Agregator
