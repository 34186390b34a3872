import Agregator.AuthOAuth
import Agregator.UserStore
/-!
# UserErasure — what a deletion erases stays erased

From the moment a user is deleted, the row says nothing of the person, unless the write of an edit puts a name, a phone, an
avatar or a biography back.
-/
namespace Agregator

open Rel Conc

/-! ## The system -/

inductive UserCall where
  | createUser (id email phone name role : String)
  | getUser (id : String)
  | getUserByEmail (email : String)
  | updateUser (id : String) (p : UserUseCase.Patch)
  | deleteUser (id : String)
deriving DecidableEq

inductive UserAnswer where
  | user (res : Except Err UserResponse)
  | done (res : Except Err Unit)

def UserCall.prog (text : CaseRules) : UserCall → UserProg UserAnswer
  | createUser id email phone name role => return .user (← UserServer.createUser text id email phone name role)
  | getUser id => return .user (← UserServer.getUser id)
  | getUserByEmail email => return .user (← UserServer.getUserByEmail text email)
  | updateUser id p => return .user (← UserServer.updateUser id p)
  | deleteUser id => return .done (← UserServer.deleteUser id)

abbrev UserWorld (text : CaseRules) := SqlWorld (Table (userSchema text.fold))

def userSys (text : CaseRules) : Sys (UserWorld text) UserCall UserOp (SqlOp.Res UserErr UserSql.Ans) UserAnswer :=
  sqlSys (userRules text.fold) (UserCall.prog text)

abbrev UserMoment (text : CaseRules) := Moment (UserWorld text) UserCall UserOp (SqlOp.Res UserErr UserSql.Ans) UserAnswer

/-! ## An erased row -/

/-- The row says nothing of the person. -/
structure UserRow.Erased (r : UserRow) : Prop where
  email : r.email = UserRepo.tombstone r.id
  name : r.name = UserRepo.placeholderName
  phone : r.phone.getD "" = ""
  avatarURL : r.avatarURL.getD "" = ""
  bio : r.bio.getD "" = ""

/-- The row of a user is there and is erased. -/
def ErasedAt {fold : String → String} (id : String) (t : Table (userSchema fold)) : Prop :=
  ∃ r, t.get (·.id == id) = some r ∧ r.Erased

/-- What an edit writes says nothing of a person. -/
structure User.Blank (u : User) : Prop where
  name : u.name = UserRepo.placeholderName
  phone : u.phone = ""
  avatarURL : u.avatarURL = ""
  bio : u.bio = ""

theorem UserRepo.erased_erased (now : Time) (r : UserRow) : (UserRepo.erased now r).Erased := ⟨rfl, rfl, rfl, rfl, rfl⟩

/-- An edit of an erased row leaves it erased exactly when it writes nothing of a person. -/
theorem UserRow.Erased.edited_iff {r : UserRow} (h : r.Erased) (u : User) : (UserRepo.edited u r).Erased ↔ u.Blank := by
  constructor
  · intro he
    exact ⟨he.name, he.phone, he.avatarURL, he.bio⟩
  · intro hb
    exact ⟨h.email, hb.name, hb.phone, hb.avatarURL, hb.bio⟩

section Statements

variable {fold : String → String} {t : Table (userSchema fold)} {id : String}

/-- An update that leaves the identifiers alone changes the rows it is for, or fails. -/
theorem UserRepo.updateRows_get (p : UserRow → Bool) (f : UserRow → UserRow) (hf : ∀ r, (f r).id = r.id) (id : String) :
    (UserRepo.updateRows p f t).2.get (·.id == id) = t.get (·.id == id) ∨
      (UserRepo.updateRows p f t).2.get (·.id == id) = (t.get (·.id == id)).map fun r => if p r then f r else r := by
  unfold UserRepo.updateRows
  cases hu : t.update p f with
  | error v => exact .inl rfl
  | ok t' => exact .inr (Table.get_update hu fun r => by rw [hf r])

/-- What an update that reports success has done. -/
theorem UserRepo.updateRows_ok {p : UserRow → Bool} {f : UserRow → UserRow} (hf : ∀ r, (f r).id = r.id)
    (h : (UserRepo.updateRows p f t).1 = .ok ()) :
    (∃ r, t.get p = some r) ∧ ∀ id, (UserRepo.updateRows p f t).2.get (·.id == id) =
      (t.get (·.id == id)).map fun r => if p r then f r else r := by
  unfold UserRepo.updateRows at h ⊢
  cases hu : t.update p f with
  | error v =>
    rw [hu] at h
    cases h
  | ok t' =>
    rw [hu] at h
    constructor
    · cases hg : t.get p with
      | none => simp [hg] at h
      | some r => exact ⟨r, rfl⟩
    · exact fun id => Table.get_update hu fun r => by rw [hf r]

theorem ErasedAt.updateRows (h : ErasedAt id t) {p : UserRow → Bool} {f : UserRow → UserRow} (hf : ∀ r, (f r).id = r.id)
    (he : ∀ r, r.id = id → r.Erased → p r = true → (f r).Erased) : ErasedAt id (UserRepo.updateRows p f t).2 := by
  obtain ⟨r, hget, hr⟩ := h
  rcases UserRepo.updateRows_get (t := t) p f hf id with hu | hu
  · exact ⟨r, hu.trans hget, hr⟩
  · rw [hget] at hu
    refine ⟨_, hu, ?_⟩
    by_cases hp : p r = true
    · simp only [hp, if_true]
      exact he r (beq_iff_eq.1 (Table.get_mem hget).2) hr hp
    · simp only [hp]
      exact hr

/-- **A statement leaves an erased row erased**, but for an edit of it that writes something of a person. -/
theorem ErasedAt.run (h : ErasedAt id t) (now : Time) (s : UserSql)
    (hs : ∀ u, s = .update u → u.id = id → u.Blank) : ErasedAt id (s.run now t).2 := by
  cases s with
  | getByID id' | getByEmail email => exact h
  | create u =>
    obtain ⟨r, hget, hr⟩ := h
    show ErasedAt id (UserRepo.create u t).2
    unfold UserRepo.create
    cases hi : t.insert (UserRepo.row u) with
    | error v => exact ⟨r, hget, hr⟩
    | ok t' => exact ⟨r, by rw [Table.get_insert hi, hget]; rfl, hr⟩
  | update u =>
    show ErasedAt id (UserRepo.update u t).2
    unfold UserRepo.update
    split
    · exact h
    · refine h.updateRows (fun r => rfl) fun r hid hr hp => (hr.edited_iff u).2 (hs u rfl ?_)
      rw [← hid]
      exact (beq_iff_eq.1 hp).symm
  | softDelete id' =>
    show ErasedAt id (UserRepo.softDelete now id' t).2
    unfold UserRepo.softDelete
    split
    · exact h
    · exact h.updateRows (fun r => rfl) fun r _ _ _ => UserRepo.erased_erased now r

/-- A deletion that reports success has erased the row. -/
theorem softDelete_erases {now : Time} {t' : Table (userSchema fold)} (h : UserRepo.softDelete now id t = (.ok (), t')) :
    ErasedAt id t' := by
  unfold UserRepo.softDelete at h
  split at h
  · cases h
  · obtain ⟨hok, rfl⟩ := Prod.ext_iff.1 h
    obtain ⟨⟨r, hr⟩, hget⟩ := UserRepo.updateRows_ok (f := UserRepo.erased now) (fun r => rfl) hok
    obtain ⟨hmem, hp⟩ := Table.get_mem hr
    have hid : (r.id == id) = true := by
      rw [Bool.and_eq_true] at hp
      exact hp.1
    have hrow : t.get (·.id == id) = some r :=
      t.get_key hmem hid fun x hx => by
        rw [beq_iff_eq] at hx hid
        simp [userSchema, hx, hid]
    refine ⟨UserRepo.erased now r, ?_, UserRepo.erased_erased now r⟩
    rw [hget, hrow]
    simp only [Option.map_some, hp, if_true]

/-- An edit of an erased row that reports success has left it erased exactly when it wrote nothing of a person. -/
theorem update_erased_iff (h : ErasedAt id t) {u : User} (hid : u.id = id) {t' : Table (userSchema fold)}
    (hu : UserRepo.update u t = (.ok (), t')) : ErasedAt id t' ↔ u.Blank := by
  subst hid
  obtain ⟨r, hget, hr⟩ := h
  unfold UserRepo.update at hu
  split at hu
  · cases hu
  · obtain ⟨hok, rfl⟩ := Prod.ext_iff.1 hu
    obtain ⟨-, hall⟩ := UserRepo.updateRows_ok (f := UserRepo.edited u) (fun r => rfl) hok
    have hrow : (UserRepo.updateRows (fun r => r.id == u.id) (UserRepo.edited u) t).2.get (·.id == u.id) =
        some (UserRepo.edited u r) := by
      rw [hall, hget, Option.map_some, if_pos (Table.get_mem hget).2]
    rw [← hr.edited_iff u]
    constructor
    · rintro ⟨r', hr', he⟩
      rw [hrow] at hr'
      obtain rfl := Option.some.inj hr'
      exact he
    · exact fun he => ⟨_, hrow, he⟩

end Statements

/-! ## Every run -/

/-- **From its deletion on the row stays erased, as long as no edit writes something of a person to it; and an edit that does
ends that.** -/
theorem erasure_permanent {text : CaseRules} {w₀ : UserWorld text} {tr₁ tr₂ : List (UserMoment text)} {d : UserMoment text}
    {c : Config (UserWorld text) UserCall UserOp (SqlOp.Res UserErr UserSql.Ans) UserAnswer}
    (h : (userSys text).Trace w₀ (tr₁ ++ d :: tr₂) c) {id : String} (hd : d.event = ⟨.sql (.softDelete id), .ok ()⟩) :
    ((∀ m ∈ tr₂, ∀ u, m.op = .sql (.update u) → u.id = id → u.Blank) → ErasedAt id c.world.db) ∧
    ∀ m ∈ tr₂, ∀ u, m.event = ⟨.sql (.update u), .ok ()⟩ → u.id = id → ErasedAt id m.before.world.db →
      (ErasedAt id m.after.db ↔ u.Blank) := by
  constructor
  · intro hblank
    refine h.keeps_db (softDelete_erases (h.ran (by simp) hd)) fun m hm s hs hw => ?_
    exact hw.run _ s fun u hu hid => hblank m hm u (by rw [hs, hu]) hid
  · intro m hm u hu hid he
    exact update_erased_iff he hid (h.ran (by simp [hm]) hu)

/-! ## An edit that runs into a deletion -/

def annsUser : UserRow where
  id := firstUser
  email := "ann@example.test"
  phone := some "+79991234567"
  name := "Ann"
  role := "user"
  avatarURL := none
  bio := none
  createdAt := 0
  updatedAt := 0

def annsUsers : Table (userSchema asciiRules.fold) := ⟨[annsUser], by decide +kernel, by simp⟩

def noUsers : Table (userSchema asciiRules.fold) := ⟨[UserRepo.erased 0 annsUser], by decide +kernel, by simp⟩

def annsBio : UserUseCase.Patch := ⟨none, none, none, some "I sing."⟩

/-- What the edit writes, from the row it has read. -/
def annsEdit : User := { annsBio.apply (UserRepo.scanUser annsUser) with updatedAt := 0 }

def annBack : Table (userSchema asciiRules.fold) :=
  ⟨[UserRepo.edited annsEdit (UserRepo.erased 0 annsUser)], by decide +kernel, by simp⟩

theorem annsUser_read : UserRepo.getByID firstUser annsUsers = .ok (UserRepo.scanUser annsUser) := by decide +kernel

theorem annsUser_deleted : UserRepo.softDelete 0 firstUser annsUsers = (.ok (), noUsers) :=
  Prod.ext (by decide +kernel) (Table.ext (by decide +kernel))

theorem annsUser_edited : UserRepo.update annsEdit noUsers = (.ok (), annBack) :=
  Prod.ext (by decide +kernel) (Table.ext (by decide +kernel))

/-- The edit reads, and the deletion runs. -/
theorem noUsers_trace : ∃ tr₁ d h h' k k', (userSys asciiRules).Trace ⟨annsUsers, 0, []⟩ (tr₁ ++ [d])
    ⟨⟨noUsers, 0, []⟩, [⟨.updateUser firstUser annsBio, h, .call .now k⟩, ⟨.deleteUser firstUser, h', .ret (.done (.ok ()))⟩]⟩ ∧
    d.event = ⟨.sql (.softDelete firstUser), .ok ()⟩ ∧ k 0 = .call (.sql (.update annsEdit)) k' := by
  have h : (userSys asciiRules).Trace ⟨annsUsers, 0, []⟩ [] ⟨⟨annsUsers, 0, []⟩, []⟩ := .init
  have h := h.start (.updateUser firstUser annsBio) trivial
  have h := h.perform _ [] [] _ (SqlOp.exec_of_run (congrArg (·, _) annsUser_read))
  have h := h.start (.deleteUser firstUser) trivial
  have h := h.perform _ [_] [] _ (SqlOp.exec_of_run annsUser_deleted)
  exact ⟨_, _, _, _, _, _, h, rfl, rfl⟩

theorem noUsers_erased : ErasedAt firstUser noUsers := by
  obtain ⟨tr₁, d, h, h', k, k', ht, hd, -⟩ := noUsers_trace
  obtain ⟨hstays, -⟩ := erasure_permanent ht hd
  exact hstays fun m hm => absurd hm List.not_mem_nil

theorem annBack_shown : ¬ ErasedAt firstUser annBack := by
  rintro ⟨r, hr, he⟩
  obtain rfl := List.mem_singleton.1 (Table.get_mem hr).1
  exact absurd he.name (by decide)

theorem erasure_fails : ¬ ∀ (text : CaseRules) (w₀ : UserWorld text) (tr₁ tr₂ : List (UserMoment text)) (d : UserMoment text)
    (c : Config (UserWorld text) UserCall UserOp (SqlOp.Res UserErr UserSql.Ans) UserAnswer) (id : String),
    (userSys text).Trace w₀ (tr₁ ++ d :: tr₂) c → d.event = ⟨.sql (.softDelete id), .ok ()⟩ → ErasedAt id c.world.db := by
  intro hall
  obtain ⟨tr₁, d, h, h', k, k', ht, hd, hk⟩ := noUsers_trace
  have ht := ht.perform _ [] [_] 0 ⟨rfl, rfl⟩
  rw [hk, List.nil_append] at ht
  have ht := ht.perform _ [] [_] _ (SqlOp.exec_of_run annsUser_edited)
  rw [List.append_assoc, List.append_assoc] at ht
  exact annBack_shown (hall _ _ _ _ _ _ _ ht hd)

end Agregator
