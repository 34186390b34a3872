import Agregator.ConcSql
import Agregator.MasterPhotos
/-!
# MasterCovers — the covers of the photos, and how many photos there are

What a transaction of `AddMasterPhoto` or `DeleteMasterPhoto` has been told holds until it ends (`photo_told`), so what it
commits is one of three things (`PhotoTx.Kind`).  The number of photos stays within its limit in every run; the covers are
kept in the runs whose steps are careful (`covers_kept_iff`).
-/
namespace Agregator

open Rel Conc

abbrev PhotoEvent := Event PhotoOp PhotoOp.Res

/-! ## What is kept -/

namespace PhotoWorld

def countOf (w : PhotoWorld) (masterID : String) : ℕ := (w.photos.select (·.masterID == masterID)).length

/-- A master with a photo has exactly one cover. -/
def Covered (w : PhotoWorld) : Prop :=
  ∀ x ∈ w.photos.rows, (w.photos.select fun c => c.masterID == x.masterID && c.isCover).length = 1

def Limited (w : PhotoWorld) : Prop := ∀ masterID, w.countOf masterID ≤ maxMasterPhotos

structure Kept (w : PhotoWorld) : Prop where
  owned : ∀ x ∈ w.photos.rows, w.issued x.id = some x.masterID
  limited : w.Limited

/-- What the open transactions can rely on. -/
structure Goes (w w' : PhotoWorld) : Prop where
  masters : w'.masters = w.masters
  locks : w.locks.Lasts w'.locks
  issued : ∀ id masterID, w.issued id = some masterID → w'.issued id = some masterID
  held : ∀ x ∈ w.photos.rows, ∀ tx, w.locks.holder (.photo x.id) = some tx → w'.locks.live tx = true → x ∈ w'.photos.rows
  counted : ∀ masterID tx, w.locks.holder (.master masterID) = some tx → w'.locks.live tx = true →
    w'.countOf masterID ≤ w.countOf masterID

/-- What holds while the transaction is open. -/
def Until (w : PhotoWorld) (tx : PhotoTx) (P : Prop) : Prop := tx.id < w.locks.opened ∧ (w.locks.live tx.id = true → P)

variable {w w' : PhotoWorld}

theorem Until.mono {tx : PhotoTx} {P Q : Prop} (hR : w.Goes w') (h : w.Until tx P)
    (hPQ : w.locks.live tx.id = true → w'.locks.live tx.id = true → P → Q) : w'.Until tx Q :=
  ⟨Nat.lt_of_lt_of_le h.1 hR.locks.opened, fun hl =>
    hPQ (hR.locks.live _ h.1 hl) hl (h.2 (hR.locks.live _ h.1 hl))⟩

theorem covered_iff : w.Covered ↔ ∀ x ∈ w.photos.rows, ∃ c ∈ w.photos.rows, c.masterID = x.masterID ∧ c.isCover = true := by
  constructor
  · intro h x hx
    obtain ⟨c, hc⟩ := List.exists_mem_of_length_pos (Nat.lt_of_lt_of_eq Nat.zero_lt_one (h x hx).symm)
    obtain ⟨hc, hp⟩ := List.mem_filter.1 hc
    rw [Bool.and_eq_true, beq_iff_eq] at hp
    exact ⟨c, hc, hp⟩
  · intro h x hx
    obtain ⟨c, hc, hm, hcov⟩ := h x hx
    have hle := w.photos.select_le_one (p := fun c => c.masterID == x.masterID && c.isCover) fun a b ha hb => by
      simp only [Bool.and_eq_true, beq_iff_eq] at ha hb
      simp [photoSchema, ha, hb]
    have hmem : c ∈ w.photos.select fun c => c.masterID == x.masterID && c.isCover :=
      List.mem_filter.2 ⟨hc, by simp [hm, hcov]⟩
    have hpos := List.length_pos_of_mem hmem
    omega

end PhotoWorld

/-! ## What the statements tell -/

/-- What an answer has told a transaction, which is so as long as the transaction is open. -/
def PhotoTold (w : PhotoWorld) : PhotoEvent → Prop
  | ⟨.beginTx, .ok tx⟩ => tx.writes = [] ∧ tx.id < w.locks.opened
  | ⟨.lockMaster tx masterID, .ok ()⟩ => w.Until tx (masterID ∈ w.masters → w.locks.holder (.master masterID) = some tx.id)
  | ⟨.countPhotos tx masterID, .ok n⟩ =>
    w.Until tx (masterID ∈ w.masters → w.locks.holder (.master masterID) = some tx.id ∧ w.countOf masterID ≤ n)
  | ⟨.insertPhoto tx masterID _ _ isCover, .ok (photo, tx')⟩ => tx' = ⟨tx.id, tx.writes ++ [.insert photo]⟩ ∧
    photo.masterID = masterID ∧ photo.isCover = isCover ∧ masterID ∈ w.masters ∧ w.issued photo.id = some masterID
  | ⟨.deletePhoto tx _ masterID, .ok ((_, wasCover), tx')⟩ => ∃ x : MasterPhoto, tx' = ⟨tx.id, tx.writes ++ [.delete x.id]⟩ ∧
    x.masterID = masterID ∧ x.isCover = wasCover ∧
    w.Until tx (x ∈ w.photos.rows ∧ w.locks.holder (.photo x.id) = some tx.id)
  | ⟨.nextPhoto tx masterID, .ok nextID⟩ => w.issued nextID = some masterID ∧ .delete nextID ∉ tx.writes
  | ⟨.coverPhoto tx photoID, .ok tx'⟩ => tx' = tx ∨ (tx' = ⟨tx.id, tx.writes ++ [.cover photoID]⟩ ∧
    ∃ y : MasterPhoto, y.id = photoID ∧ w.Until tx (y ∈ w.photos.rows ∧ w.locks.holder (.photo y.id) = some tx.id))
  | _ => True

theorem PhotoTold.lasts {w w' : PhotoWorld} {e : PhotoEvent} (hR : w.Goes w') (h : PhotoTold w e) : PhotoTold w' e := by
  have hmaster : ∀ tx : PhotoTx, ∀ masterID, tx.id < w.locks.opened → w'.locks.live tx.id = true →
      (masterID ∈ w.masters → w.locks.holder (.master masterID) = some tx.id) →
      masterID ∈ w'.masters → w'.locks.holder (.master masterID) = some tx.id := fun tx masterID hlt hl h hm =>
    hR.locks.holds _ hlt hl _ (h (hR.masters ▸ hm))
  have hrow : ∀ tx : PhotoTx, ∀ x : MasterPhoto, w.Until tx (x ∈ w.photos.rows ∧ w.locks.holder (.photo x.id) = some tx.id) →
      w'.Until tx (x ∈ w'.photos.rows ∧ w'.locks.holder (.photo x.id) = some tx.id) := fun tx x h =>
    h.mono hR fun _ hl hx => ⟨hR.held x hx.1 _ hx.2 hl, hR.locks.holds _ h.1 hl _ hx.2⟩
  obtain ⟨o, r⟩ := e
  cases o with
  | beginTx =>
    cases r with
    | error err => trivial
    | ok tx => exact ⟨h.1, Nat.lt_of_lt_of_le h.2 hR.locks.opened⟩
  | lockMaster tx masterID =>
    cases r with
    | error err => trivial
    | ok _ => exact PhotoWorld.Until.mono hR h fun _ hl => hmaster tx masterID h.1 hl
  | countPhotos tx masterID =>
    cases r with
    | error err => trivial
    | ok n =>
      refine PhotoWorld.Until.mono hR h fun _ hl hc hm => ?_
      obtain ⟨hholder, hn⟩ := hc (hR.masters ▸ hm)
      exact ⟨hR.locks.holds _ h.1 hl _ hholder, (hR.counted _ _ hholder hl).trans hn⟩
  | insertPhoto tx masterID url sortOrder isCover =>
    cases r with
    | error err => trivial
    | ok res => exact ⟨h.1, h.2.1, h.2.2.1, hR.masters ▸ h.2.2.2.1, hR.issued _ _ h.2.2.2.2⟩
  | deletePhoto tx photoID masterID =>
    cases r with
    | error err => trivial
    | ok res =>
      obtain ⟨x, htx, hm, hc, hx⟩ := h
      exact ⟨x, htx, hm, hc, hrow tx x hx⟩
  | nextPhoto tx masterID =>
    cases r with
    | error err => trivial
    | ok nextID => exact ⟨hR.issued _ _ h.1, h.2⟩
  | coverPhoto tx photoID =>
    cases r with
    | error err => trivial
    | ok tx' =>
      refine Or.imp_right (fun hy => ?_) h
      obtain ⟨htx, y, hid, hy⟩ := hy
      exact ⟨htx, y, hid, hrow tx y hy⟩
  | maxSortOrder tx masterID => trivial
  | commit tx => trivial
  | rollback tx => trivial
  | setMasterCoverPhoto masterID photoID => trivial

/-! ## What the statements do -/

namespace PhotoWorld

variable {w w' : PhotoWorld} {tx : PhotoTx} {locks : List PhotoLock} {α : Type} {r r' : Except Err α}

/-- A statement that has been run in a transaction, or one whose transaction is gone. -/
theorem within_cases (h : w.within tx locks r = some (r', w')) :
    (r' = .error PhotoRepo.connClosed ∧ w' = w) ∨
      (locks.all (w.locks.free tx.id) = true ∧ r' = r ∧ w' = { w with locks := w.locks.take tx.id locks }) := by
  unfold within at h
  by_cases hl : w.locks.live tx.id = false
  · rw [if_pos hl] at h
    cases h
    exact .inl ⟨rfl, rfl⟩
  · rw [if_neg hl] at h
    by_cases hf : locks.all (w.locks.free tx.id) = true
    · rw [if_pos hf] at h
      cases h
      exact .inr ⟨hf, rfl, rfl⟩
    · rw [if_neg hf] at h
      cases h

/-- A step that leaves the photos. -/
theorem goes_of_photos (hp : w'.photos = w.photos) (hm : w'.masters = w.masters) (hl : w.locks.Lasts w'.locks)
    (hi : ∀ id masterID, w.issued id = some masterID → w'.issued id = some masterID) : w.Goes w' :=
  ⟨hm, hl, hi, fun x hx _ _ _ => hp ▸ hx, fun _ _ _ _ => by rw [countOf, hp]; exact Nat.le_refl _⟩

theorem Kept.of_photos (hk : w.Kept) (hp : w'.photos = w.photos)
    (hi : ∀ id masterID, w.issued id = some masterID → w'.issued id = some masterID) : w'.Kept :=
  ⟨fun x hx => hi _ _ (hk.owned x (hp ▸ hx)), fun masterID => by rw [countOf, hp]; exact hk.limited masterID⟩

/-- The statements of a transaction leave the photos. -/
theorem within_kept (hk : w.Kept) (h : w.within tx locks r = some (r', w')) :
    w'.Kept ∧ w.Goes w' ∧ (r' = .error PhotoRepo.connClosed ∨
      locks.all (w.locks.free tx.id) = true ∧ r' = r ∧ w' = { w with locks := w.locks.take tx.id locks }) := by
  rcases within_cases h with ⟨hr, rfl⟩ | ⟨hf, hr, rfl⟩
  · exact ⟨hk, goes_of_photos rfl rfl (.refl _) fun _ _ h => h, .inl hr⟩
  · exact ⟨hk.of_photos rfl fun _ _ h => h, goes_of_photos rfl rfl (Locks.take_lasts hf) fun _ _ h => h, .inr ⟨hf, hr, rfl⟩⟩

end PhotoWorld

namespace PhotoRepo

variable {w : PhotoWorld} {tx tx' : PhotoTx}

theorem write_ok {x : PhotoWrite} (h : write tx x w = .ok tx') : tx' = ⟨tx.id, tx.writes ++ [x]⟩ := by
  unfold write at h
  cases hs : seen { tx with writes := tx.writes ++ [x] } w with
  | error err =>
    rw [hs] at h
    cases h
  | ok t =>
    rw [hs] at h
    cases h
    rfl

theorem seen_nil (htx : tx.writes = []) : seen tx w = .ok w.photos := by
  unfold seen
  rw [htx]
  rfl

theorem seen_delete {id : String} (htx : tx.writes = [.delete id]) : seen tx w = .ok (w.photos.delete (·.id == id)) := by
  unfold seen
  rw [htx]
  rfl

theorem countPhotos_ok {masterID : String} {n : ℕ} (htx : tx.writes = []) (h : countPhotos tx masterID w = .ok n) :
    n = w.countOf masterID := by
  unfold countPhotos at h
  rw [seen_nil htx] at h
  cases h
  rfl

theorem insertPhoto_ok {photo : MasterPhoto} {res : MasterPhoto × PhotoTx} (h : insertPhoto tx photo w = .ok res) :
    res = (photo, ⟨tx.id, tx.writes ++ [.insert photo]⟩) ∧ photo.masterID ∈ w.masters := by
  unfold insertPhoto at h
  cases hw : write tx (.insert photo) w with
  | error err =>
    rw [hw] at h
    cases h
  | ok tx' =>
    rw [hw] at h
    obtain rfl := write_ok hw
    by_cases hm : photo.masterID ∈ w.masters
    · simp only [bind, Except.bind, if_pos hm] at h
      cases h
      exact ⟨rfl, hm⟩
    · simp only [bind, Except.bind, if_neg hm] at h
      cases h

/-- The row that is deleted is there, and the lock is for it. -/
theorem deletePhoto_ok {photoID masterID : String} {res : (String × Bool) × PhotoTx} (htx : tx.writes = [])
    (h : deletePhoto tx photoID masterID w = .ok res) : ∃ x ∈ w.photos.rows, x.masterID = masterID ∧
      doomed tx photoID masterID w = .ok (some x) ∧ res = ((x.url, x.isCover), ⟨tx.id, tx.writes ++ [.delete x.id]⟩) := by
  have hd : doomed tx photoID masterID w = .ok (w.photos.get fun x => x.id == photoID && x.masterID == masterID) := by
    unfold doomed
    rw [seen_nil htx]
    rfl
  unfold deletePhoto at h
  rw [hd] at h ⊢
  cases hg : w.photos.get fun x => x.id == photoID && x.masterID == masterID with
  | none =>
    rw [hg] at h
    cases h
  | some x =>
    rw [hg] at h
    obtain ⟨hx, hp⟩ := w.photos.get_mem hg
    rw [Bool.and_eq_true, beq_iff_eq, beq_iff_eq] at hp
    cases hw : write tx (.delete x.id) w with
    | error err =>
      simp only [bind, Except.bind, hw] at h
      cases h
    | ok tx' =>
      simp only [bind, Except.bind, hw] at h
      cases h
      exact ⟨x, hx, hp.2, rfl, by rw [write_ok hw]⟩

/-- The photo that comes next is one of the master's that is not deleted. -/
theorem nextPhoto_ok {masterID id nextID : String} (htx : tx.writes = [.delete id]) (h : nextPhoto tx masterID w = .ok nextID) :
    ∃ y ∈ w.photos.rows, y.id = nextID ∧ y.masterID = masterID ∧ nextID ≠ id := by
  unfold nextPhoto at h
  rw [seen_delete htx] at h
  simp only [bind, Except.bind] at h
  cases hd : (((w.photos.delete (·.id == id)).select (·.masterID == masterID)).insertionSort
      fun a b => sorts a b = true).head? with
  | none =>
    rw [hd] at h
    cases h
  | some y =>
    rw [hd] at h
    cases h
    have hy := (List.mem_insertionSort _).1 (List.mem_of_head? hd)
    obtain ⟨hy, hm⟩ := List.mem_filter.1 hy
    obtain ⟨hy, hid⟩ := List.mem_filter.1 hy
    exact ⟨y, hy, rfl, by simpa using hm, by simpa using hid⟩

/-- The row that becomes the cover is there, or there is none. -/
theorem coverPhoto_ok {photoID : String} {id : String} (htx : tx.writes = [.delete id])
    (h : coverPhoto tx photoID w = .ok tx') : tx' = tx ∨ (tx' = ⟨tx.id, tx.writes ++ [.cover photoID]⟩ ∧
      ∃ y ∈ w.photos.rows, w.photos.get (·.id == photoID) = some y ∧ y.id = photoID) := by
  unfold coverPhoto at h
  rw [seen_delete htx] at h
  simp only [bind, Except.bind] at h
  by_cases hany : (w.photos.delete (·.id == id)).rows.any (·.id == photoID) = true
  · rw [if_pos hany] at h
    obtain ⟨y, hy, hid⟩ := List.any_eq_true.1 hany
    refine .inr ⟨write_ok h, ?_⟩
    have hy := (List.mem_filter.1 hy).1
    cases hg : w.photos.get (·.id == photoID) with
    | none => rw [Table.get_eq_none.1 hg y hy] at hid; cases hid
    | some y' =>
      obtain ⟨hy', hid'⟩ := w.photos.get_mem hg
      exact ⟨y', hy', rfl, by simpa using hid'⟩
  · rw [if_neg hany] at h
    cases h
    exact .inl rfl

end PhotoRepo

/-! ## What a call has behind it -/

def Begun (h : List PhotoEvent) (tx : PhotoTx) : Prop := (⟨.beginTx, .ok tx⟩ : PhotoEvent) ∈ h

/-- The photos of the master have been counted, and one more may come. -/
def Counted (h : List PhotoEvent) (tx : PhotoTx) (masterID : String) (isCover : Bool) : Prop :=
  ∃ cnt < maxMasterPhotos, (⟨.countPhotos tx masterID, .ok cnt⟩ : PhotoEvent) ∈ h ∧ isCover = (cnt == 0)

def Deleted (h : List PhotoEvent) (tx' : PhotoTx) (masterID : String) : Prop :=
  ∃ tx photoID url, Begun h tx ∧ ∃ wasCover, (⟨.deletePhoto tx photoID masterID, .ok ((url, wasCover), tx')⟩ : PhotoEvent) ∈ h

/-- What a call has done before an operation. -/
def PhotoPrior (h : List PhotoEvent) : PhotoOp → Prop
  | .lockMaster tx _ | .deletePhoto tx _ _ => Begun h tx
  | .countPhotos tx masterID => Begun h tx ∧ (⟨.lockMaster tx masterID, .ok ()⟩ : PhotoEvent) ∈ h
  | .insertPhoto tx masterID _ _ isCover => Begun h tx ∧ Counted h tx masterID isCover
  | .nextPhoto tx masterID => Deleted h tx masterID
  | .coverPhoto tx photoID => ∃ masterID, Deleted h tx masterID ∧ (⟨.nextPhoto tx masterID, .ok photoID⟩ : PhotoEvent) ∈ h
  | .commit tx =>
    (∃ tx₀ masterID url sortOrder isCover photo, Begun h tx₀ ∧ Counted h tx₀ masterID isCover ∧
      (⟨.insertPhoto tx₀ masterID url sortOrder isCover, .ok (photo, tx)⟩ : PhotoEvent) ∈ h) ∨
    (∃ masterID, Deleted h tx masterID) ∨
    ∃ tx₁ masterID photoID, Deleted h tx₁ masterID ∧ (⟨.nextPhoto tx₁ masterID, .ok photoID⟩ : PhotoEvent) ∈ h ∧
      (⟨.coverPhoto tx₁ photoID, .ok tx⟩ : PhotoEvent) ∈ h
  | _ => True

theorem Deleted.grows {h h' : List PhotoEvent} {tx : PhotoTx} {masterID : String} (hd : Deleted h tx masterID) (hh : h ⊆ h') :
    Deleted h' tx masterID := by
  obtain ⟨tx₀, photoID, url, hb, was, he⟩ := hd
  exact ⟨tx₀, photoID, url, hh hb, was, hh he⟩

theorem giveUp_after {α : Type} (tx : PhotoTx) (err : Err) (h : List PhotoEvent) :
    (MasterRepo.giveUp tx err : PhotoProg (Except Err α)).After PhotoPrior h := ⟨trivial, fun _ => trivial⟩

theorem finishDelete_after {url : String} {tx : PhotoTx} {h : List PhotoEvent} (hp : PhotoPrior h (.commit tx)) :
    (MasterRepo.finishDelete url tx).After PhotoPrior h := by
  refine ⟨hp, fun r => ?_⟩
  cases r with
  | error err => exact giveUp_after tx err _
  | ok _ => trivial

theorem addMasterPhoto_after (masterID url : String) : (MasterRepo.addMasterPhoto masterID url).After PhotoPrior [] := by
  refine ⟨trivial, fun r => ?_⟩
  cases r with
  | error err => trivial
  | ok tx =>
  refine ⟨by simp [PhotoPrior, Begun], fun r => ?_⟩
  cases r with
  | error err => exact giveUp_after tx err _
  | ok _ =>
  refine ⟨by simp [PhotoPrior, Begun], fun r => ?_⟩
  cases r with
  | error err => exact giveUp_after tx err _
  | ok cnt =>
  simp only [Prog.bind_ret]
  by_cases hcnt : maxMasterPhotos ≤ cnt
  · rw [if_pos hcnt]
    exact giveUp_after tx _ _
  rw [if_neg hcnt]
  refine ⟨trivial, fun r => ?_⟩
  cases r with
  | error err => exact giveUp_after tx err _
  | ok maxSO =>
  refine ⟨⟨by simp [Begun], cnt, by omega, by simp, rfl⟩, fun r => ?_⟩
  cases r with
  | error err => exact giveUp_after tx err _
  | ok res =>
  refine ⟨.inl ⟨tx, masterID, url, MasterRepo.int32 (maxSO + 1), cnt == 0, res.1, by simp [Begun], ⟨cnt, by omega, by simp, rfl⟩, by simp⟩, fun r => ?_⟩
  cases r with
  | error err => exact giveUp_after _ err _
  | ok _ => trivial

theorem deleteMasterPhoto_after (masterID photoID : String) :
    (MasterRepo.deleteMasterPhoto masterID photoID).After PhotoPrior [] := by
  refine ⟨trivial, fun r => ?_⟩
  cases r with
  | error err => trivial
  | ok tx =>
  refine ⟨by simp [PhotoPrior, Begun], fun r => ?_⟩
  cases r with
  | error err => exact giveUp_after tx _ _
  | ok res =>
  obtain ⟨⟨url, wasCover⟩, tx'⟩ := res
  have hd : Deleted [⟨.beginTx, .ok tx⟩, ⟨.deletePhoto tx photoID masterID, .ok ((url, wasCover), tx')⟩] tx' masterID :=
    ⟨tx, photoID, url, by simp [Begun], wasCover, by simp⟩
  cases wasCover with
  | false => exact finishDelete_after (.inr (.inl ⟨masterID, hd⟩))
  | true =>
  refine ⟨hd, fun r => ?_⟩
  cases r with
  | error err => exact .ite (finishDelete_after (.inr (.inl ⟨masterID, hd.grows (List.subset_append_left _ _)⟩))) (giveUp_after _ err _)
  | ok nextID =>
  refine ⟨⟨masterID, hd.grows (List.subset_append_left _ _), by simp⟩, fun r => ?_⟩
  cases r with
  | error err => exact giveUp_after _ err _
  | ok tx'' =>
  refine finishDelete_after (.inr (.inr ⟨tx', masterID, nextID, hd.grows fun e he => ?_, by simp, by simp⟩))
  exact List.mem_append_left _ (List.mem_append_left _ he)

/-- **What the calls have behind them.** -/
theorem photo_prior (c : PhotoCall) : (photoSys.prog c).After PhotoPrior [] := by
  cases c with
  | addMasterPhoto masterID url =>
    simp only [photoSys, PhotoCall.prog, Prog.bind_eq]
    exact Prog.After.bind (fun _ _ => by trivial) (addMasterPhoto_after masterID url)
  | deleteMasterPhoto masterID photoID =>
    simp only [photoSys, PhotoCall.prog, Prog.bind_eq]
    exact Prog.After.bind (fun _ _ => by trivial) (deleteMasterPhoto_after masterID photoID)
  | setMasterCoverPhoto masterID photoID => exact ⟨trivial, fun _ => trivial⟩

/-! ## What a transaction commits -/

/-- What a transaction that is about to commit has written, under which locks. -/
inductive PhotoTx.Kind (w : PhotoWorld) (tx : PhotoTx) : Prop where
  | adds (photo : MasterPhoto) (n : ℕ) : tx.writes = [.insert photo] → n < maxMasterPhotos → photo.isCover = (n == 0) →
      w.locks.holder (.master photo.masterID) = some tx.id → w.countOf photo.masterID ≤ n →
      w.issued photo.id = some photo.masterID → Kind w tx
  | deletes (x : MasterPhoto) : tx.writes = [.delete x.id] → x ∈ w.photos.rows →
      w.locks.holder (.photo x.id) = some tx.id → Kind w tx
  | promotes (x y : MasterPhoto) : tx.writes = [.delete x.id, .cover y.id] → x ∈ w.photos.rows →
      w.locks.holder (.photo x.id) = some tx.id → y ∈ w.photos.rows → w.locks.holder (.photo y.id) = some tx.id →
      y.masterID = x.masterID → y.id ≠ x.id → Kind w tx

section Commit

variable {w w' : PhotoWorld} {tx : PhotoTx} {h : List PhotoEvent}

theorem Begun.told (hb : Begun h tx) (ht : ∀ e ∈ h, PhotoTold w e) : tx.writes = [] ∧ tx.id < w.locks.opened := ht _ hb

theorem Deleted.told {masterID : String} (hd : Deleted h tx masterID) (ht : ∀ e ∈ h, PhotoTold w e) :
    ∃ x : MasterPhoto, tx.writes = [.delete x.id] ∧ x.masterID = masterID ∧
      w.Until tx (x ∈ w.photos.rows ∧ w.locks.holder (.photo x.id) = some tx.id) := by
  obtain ⟨tx₀, photoID, url, hb, was, he⟩ := hd
  obtain ⟨x, rfl, hm, -, hx⟩ := ht _ he
  exact ⟨x, by simp [(hb.told ht).1], hm, hx⟩

/-- **What a transaction commits is one of three things.** -/
theorem kind_of_prior (hk : w.Kept) (hp : PhotoPrior h (.commit tx)) (ht : ∀ e ∈ h, PhotoTold w e)
    (hl : w.locks.live tx.id = true) : tx.Kind w := by
  rcases hp with ⟨tx₀, masterID, url, sortOrder, isCover, photo, hb, ⟨n, hn, hc, hz⟩, he⟩ | ⟨masterID, hd⟩ |
    ⟨tx₁, masterID, photoID, hd, hnext, hcover⟩
  · obtain ⟨rfl, rfl, hcov, hm, hissued⟩ := ht _ he
    obtain ⟨hholder, hcount⟩ := (ht _ hc).2 hl hm
    exact .adds photo n (by simp [(hb.told ht).1]) hn (hcov.trans hz) hholder hcount hissued
  · obtain ⟨x, hw, -, hx⟩ := hd.told ht
    exact .deletes x hw (hx.2 hl).1 (hx.2 hl).2
  · obtain ⟨x, hw, hm, hx⟩ := hd.told ht
    rcases ht _ hcover with rfl | ⟨rfl, y, rfl, hy⟩
    · exact .deletes x hw (hx.2 hl).1 (hx.2 hl).2
    · obtain ⟨hissued, hne⟩ := ht _ hnext
      have hown := hk.owned y (hy.2 hl).1
      rw [hissued, Option.some.injEq] at hown
      refine .promotes x y (by simp [hw]) (hx.2 hl).1 (hx.2 hl).2 (hy.2 hl).1 (hy.2 hl).2 (hown.symm.trans hm.symm) ?_
      rintro hid
      rw [hw, hid] at hne
      exact hne List.mem_cons_self

/-- A commit has ended its transaction, and brought about what it has written or nothing. -/
theorem commit_cases (tx : PhotoTx) (w : PhotoWorld) : (w.commit tx).2 = w ∨
    (w.locks.live tx.id = true ∧ ∃ photos, (w.commit tx).2 = { w with photos := photos, locks := w.locks.close tx.id } ∧
      ((photos = w.photos ∧ ∃ v, PhotoWrite.applyAll tx.writes w.photos = .error v) ∨
        PhotoWrite.applyAll tx.writes w.photos = .ok photos)) := by
  unfold PhotoWorld.commit PhotoRepo.seen
  by_cases hl : w.locks.live tx.id = false
  · rw [if_pos hl]
    exact .inl rfl
  · rw [if_neg hl]
    refine .inr ⟨by simpa using hl, ?_⟩
    cases ha : PhotoWrite.applyAll tx.writes w.photos with
    | error v => exact ⟨w.photos, rfl, .inl ⟨rfl, v, rfl⟩⟩
    | ok photos => exact ⟨photos, rfl, .inr rfl⟩

theorem applyAll_insert (photo : MasterPhoto) (t : Table photoSchema) : PhotoWrite.applyAll [.insert photo] t = t.insert photo := by
  simp only [PhotoWrite.applyAll, PhotoWrite.apply]
  cases t.insert photo <;> rfl

theorem applyAll_delete (id : String) (t : Table photoSchema) :
    PhotoWrite.applyAll [.delete id] t = .ok (t.delete (·.id == id)) := rfl

theorem applyAll_promote (id nextID : String) (t : Table photoSchema) : PhotoWrite.applyAll [.delete id, .cover nextID] t =
    (t.delete (·.id == id)).update (·.id == nextID) fun x => { x with isCover := true } := by
  simp only [PhotoWrite.applyAll, PhotoWrite.apply]
  cases (t.delete (·.id == id)).update (·.id == nextID) fun x => { x with isCover := true } <;> rfl

/-- There are no more photos of a master after a deletion. -/
theorem count_delete_le (t : Table photoSchema) (id masterID : String) :
    ((t.delete (·.id == id)).select (·.masterID == masterID)).length ≤ (t.select (·.masterID == masterID)).length :=
  (List.filter_sublist.filter _).length_le

/-- There are as many after a photo has become the cover. -/
theorem count_update {t t' : Table photoSchema} {p : MasterPhoto → Bool} {f : MasterPhoto → MasterPhoto}
    (h : t.update p f = .ok t') (hf : ∀ x, (f x).masterID = x.masterID) (masterID : String) :
    (t'.select (·.masterID == masterID)).length = (t.select (·.masterID == masterID)).length := by
  rw [Table.select_update h fun x => by rw [hf], List.length_map]

/-- **What a commit does to the photos of the others**: nothing to a row under their locks, and no master under their locks
has got more. -/
theorem PhotoTx.Kind.others {photos : Table photoSchema} (hk : tx.Kind w)
    (ha : PhotoWrite.applyAll tx.writes w.photos = .ok photos) :
    (∀ z ∈ w.photos.rows, w.locks.holder (.photo z.id) ≠ some tx.id → z ∈ photos.rows) ∧
    ∀ masterID, w.locks.holder (.master masterID) ≠ some tx.id →
      (photos.select (·.masterID == masterID)).length ≤ w.countOf masterID := by
  cases hk with
  | adds photo n hw hn hc hl hcount hi =>
    rw [hw, applyAll_insert] at ha
    refine ⟨fun z hz _ => ?_, fun masterID hne => ?_⟩
    · rw [Table.insert_rows ha]
      exact List.mem_append_left _ hz
    · have hm : photo.masterID ≠ masterID := fun hm => hne (hm ▸ hl)
      simp [Table.select_insert ha, hm, PhotoWorld.countOf]
  | deletes x hw hx hl =>
    rw [hw, applyAll_delete, Except.ok.injEq] at ha
    subst ha
    refine ⟨fun z hz hne => List.mem_filter.2 ⟨hz, ?_⟩, fun masterID _ => count_delete_le _ _ _⟩
    have hid : z.id ≠ x.id := fun hid => hne (hid ▸ hl)
    simpa using hid
  | promotes x y hw hx hlx hy hly hm hne =>
    rw [hw, applyAll_promote] at ha
    refine ⟨fun z hz hnot => ?_, fun masterID _ => ?_⟩
    · have hidx : z.id ≠ x.id := fun hid => hnot (hid ▸ hlx)
      have hidy : z.id ≠ y.id := fun hid => hnot (hid ▸ hly)
      rw [Table.update_rows ha]
      exact List.mem_map.2 ⟨z, List.mem_filter.2 ⟨hz, by simpa using hidx⟩, by simp [hidy]⟩
    · rw [count_update ha fun _ => rfl]
      exact count_delete_le _ _ _

/-- **A commit keeps to the limit**, and every row is the photo its identifier was drawn for. -/
theorem PhotoTx.Kind.keeps {photos : Table photoSchema} (hI : w.Kept) (hk : tx.Kind w)
    (ha : PhotoWrite.applyAll tx.writes w.photos = .ok photos) :
    (∀ z ∈ photos.rows, w.issued z.id = some z.masterID) ∧
    ∀ masterID, (photos.select (·.masterID == masterID)).length ≤ maxMasterPhotos := by
  cases hk with
  | adds photo n hw hn hc hl hcount hi =>
    rw [hw, applyAll_insert] at ha
    refine ⟨fun z hz => ?_, fun masterID => ?_⟩
    · rw [Table.insert_rows ha] at hz
      rcases List.mem_append.1 hz with hz | hz
      · exact hI.owned z hz
      · rw [List.mem_singleton.1 hz]
        exact hi
    · have hlim := hI.limited masterID
      rw [Table.select_insert ha, List.length_append]
      by_cases hm : photo.masterID = masterID
      · subst hm
        simp only [PhotoWorld.countOf] at hcount
        simp only [beq_self_eq_true, if_true, List.length_singleton]
        omega
      · simpa [hm, PhotoWorld.countOf] using hlim
  | deletes x hw hx hl =>
    rw [hw, applyAll_delete, Except.ok.injEq] at ha
    subst ha
    exact ⟨fun z hz => hI.owned z (List.mem_filter.1 hz).1, fun masterID => (count_delete_le _ _ _).trans (hI.limited _)⟩
  | promotes x y hw hx hlx hy hly hm hne =>
    rw [hw, applyAll_promote] at ha
    refine ⟨fun z hz => ?_, fun masterID => ?_⟩
    · rw [Table.update_rows ha] at hz
      obtain ⟨z₀, hz₀, rfl⟩ := List.mem_map.1 hz
      have hown := hI.owned z₀ (List.mem_filter.1 hz₀).1
      by_cases hid : (z₀.id == y.id) = true
      · rw [if_pos hid]
        exact hown
      · rw [if_neg hid]
        exact hown
    · rw [count_update ha fun _ => rfl]
      exact (count_delete_le _ _ _).trans (hI.limited _)

theorem commit_goes (hI : w.Kept) (hk : w.locks.live tx.id = true → tx.Kind w) : (w.commit tx).2.Kept ∧ w.Goes (w.commit tx).2 := by
  rcases commit_cases tx w with hw | ⟨hl, photos, hw, ⟨rfl, -⟩ | ha⟩
  · rw [hw]
    exact ⟨hI, PhotoWorld.goes_of_photos rfl rfl (.refl _) fun _ _ h => h⟩
  · rw [hw]
    exact ⟨hI.of_photos rfl fun _ _ h => h, PhotoWorld.goes_of_photos rfl rfl (Locks.close_lasts _ _) fun _ _ h => h⟩
  · rw [hw]
    obtain ⟨howned, hlim⟩ := (hk hl).keeps hI ha
    obtain ⟨hrows, hcount⟩ := (hk hl).others ha
    -- whoever is open after the commit is another transaction
    have hother : ∀ x l, w.locks.holder l = some x → (w.locks.close tx.id).live x = true → w.locks.holder l ≠ some tx.id := by
      intro x l hx hlive heq
      rw [hx, Option.some.injEq] at heq
      rw [heq, Locks.close_live_self] at hlive
      cases hlive
    exact ⟨⟨howned, hlim⟩, rfl, Locks.close_lasts _ _, fun _ _ h => h, fun z hz x hx hlive => hrows z hz (hother x _ hx hlive),
      fun m x hx hlive => hcount m (hother x _ hx hlive)⟩

end Commit

/-! ## What `SetMasterCoverPhoto` does -/

namespace PhotoRepo

variable {w w' : PhotoWorld} {order : List MasterPhoto} {masterID photoID : String} {r : Except Err Unit}

theorem setCovers_rows : ∀ {rows : List MasterPhoto} {t t' : Table photoSchema}, setCovers photoID rows t = .ok t' →
    t'.rows = t.rows.map fun x => if x.id ∈ rows.map (·.id) then { x with isCover := x.id == photoID } else x
  | [], t, t', h => by
    cases h
    simp
  | row :: rows, t, t', h => by
    simp only [setCovers] at h
    cases hup : t.update (·.id == row.id) fun x => { x with isCover := x.id == photoID } with
    | error v =>
      rw [hup] at h
      cases h
    | ok t₁ =>
      rw [hup] at h
      rw [setCovers_rows h, Table.update_rows hup, List.map_map]
      refine List.map_congr_left fun x _ => ?_
      by_cases hid : x.id = row.id
      · simp [hid]
      · simp [hid]

/-- The rows of a master have the identifiers that only they have. -/
theorem mem_ids_iff (hperm : order.Perm w.photos.rows) {x : MasterPhoto} (hx : x ∈ w.photos.rows) :
    x.id ∈ (order.filter (·.masterID == masterID)).map (·.id) ↔ x.masterID = masterID := by
  constructor
  · intro hid
    obtain ⟨y, hy, hid⟩ := List.mem_map.1 hid
    obtain ⟨hy, hm⟩ := List.mem_filter.1 hy
    rw [← w.photos.eq_of_clash (hperm.mem_iff.1 hy) hx (by simp [photoSchema, hid])]
    simpa using hm
  · intro hm
    exact List.mem_map.2 ⟨x, List.mem_filter.2 ⟨hperm.mem_iff.2 hx, by simpa using hm⟩, rfl⟩

/-- **What `SetMasterCoverPhoto` does**: it runs when nobody holds a row of the master. -/
theorem setMasterCoverPhoto_cases (hperm : order.Perm w.photos.rows)
    (h : setMasterCoverPhoto order masterID photoID w = some (r, w')) :
    (∀ x ∈ w.photos.rows, x.masterID = masterID → w.locks.holder (.photo x.id) = none) ∧
    ((w' = w ∧ (∃ v, r = .error (ofViolation v)) ∧ ∃ x ∈ w.photos.rows, x.masterID = masterID) ∨ ∃ photos, w' = { w with photos := photos } ∧
      photos.rows = (w.photos.rows.map fun x => if x.masterID = masterID then { x with isCover := x.id == photoID } else x) ∧
      ((r = .ok () ∧ ∃ x ∈ w.photos.rows, x.masterID = masterID) ∨
        (r = .error ErrNotFound ∧ ∀ x ∈ w.photos.rows, x.masterID ≠ masterID))) := by
  simp only [setMasterCoverPhoto] at h
  by_cases hlocks : ((order.filter (·.masterID == masterID)).map (PhotoLock.photo ·.id) ++
      if (order.filter (·.masterID == masterID)).any (·.id == photoID) then [PhotoLock.cover masterID] else []).all
        w.locks.unheld = true
  · rw [if_pos hlocks] at h
    refine ⟨fun x hx hm => ?_, ?_⟩
    · have hmem : PhotoLock.photo x.id ∈ (order.filter (·.masterID == masterID)).map (.photo ·.id) :=
        List.mem_map.2 ⟨x, List.mem_filter.2 ⟨hperm.mem_iff.2 hx, by simpa using hm⟩, rfl⟩
      simpa [Locks.unheld] using List.all_eq_true.1 hlocks _ (List.mem_append_left _ hmem)
    cases hs : setCovers photoID (order.filter (·.masterID == masterID)) w.photos with
    | error v =>
      rw [hs] at h
      cases h
      refine .inl ⟨rfl, ⟨v, rfl⟩, ?_⟩
      -- with no row there is nothing to fail
      cases hf : order.filter (·.masterID == masterID) with
      | nil =>
        rw [hf] at hs
        cases hs
      | cons x rows =>
        obtain ⟨hx, hm⟩ := List.mem_filter.1 (hf ▸ List.mem_cons_self : x ∈ order.filter (·.masterID == masterID))
        exact ⟨x, hperm.mem_iff.1 hx, by simpa using hm⟩
    | ok photos =>
      rw [hs] at h
      cases h
      refine .inr ⟨photos, rfl, ?_, ?_⟩
      · rw [setCovers_rows hs]
        refine List.map_congr_left fun x hx => ?_
        by_cases hm : x.masterID = masterID
        · rw [if_pos ((mem_ids_iff hperm hx).2 hm), if_pos hm]
        · rw [if_neg fun hid => hm ((mem_ids_iff hperm hx).1 hid), if_neg hm]
      · by_cases hany : ∃ x ∈ w.photos.rows, x.masterID = masterID
        · obtain ⟨x, hx, hm⟩ := hany
          have hne : order.filter (·.masterID == masterID) ≠ [] :=
            List.ne_nil_of_mem (List.mem_filter.2 ⟨hperm.mem_iff.2 hx, by simpa using hm⟩)
          exact .inl ⟨by simp [hne], x, hx, hm⟩
        · have hnone : ∀ x ∈ w.photos.rows, x.masterID ≠ masterID := fun x hx hm => hany ⟨x, hx, hm⟩
          have hnil : order.filter (·.masterID == masterID) = [] :=
            List.filter_eq_nil_iff.2 fun x hx => by simpa using hnone x (hperm.mem_iff.1 hx)
          exact .inr ⟨by simp [hnil], hnone⟩
  · rw [if_neg hlocks] at h
    cases h

theorem setMasterCoverPhoto_goes (hI : w.Kept) (hperm : order.Perm w.photos.rows)
    (h : setMasterCoverPhoto order masterID photoID w = some (r, w')) : w'.Kept ∧ w.Goes w' := by
  obtain ⟨hunheld, ⟨rfl, -⟩ | ⟨photos, rfl, hrows, -⟩⟩ := setMasterCoverPhoto_cases hperm h
  · exact ⟨hI, PhotoWorld.goes_of_photos rfl rfl (.refl _) fun _ _ h => h⟩
  have hcount : ∀ m, (photos.select (·.masterID == m)).length = w.countOf m := fun m => by
    simp only [Table.select, PhotoWorld.countOf]
    rw [hrows, List.filter_map, List.length_map]
    congr 2
    funext x
    by_cases hm : x.masterID = masterID
    · simp [hm]
    · simp [hm]
  refine ⟨⟨fun z hz => ?_, fun m => (hcount m).trans_le (hI.limited m)⟩, rfl, .refl _, fun _ _ h => h, fun z hz tx hl _ => ?_,
    fun m _ _ _ => (hcount m).le⟩
  · rw [hrows] at hz
    obtain ⟨x, hx, rfl⟩ := List.mem_map.1 hz
    by_cases hm : x.masterID = masterID
    · simpa [hm] using hI.owned x hx
    · simpa [hm] using hI.owned x hx
  · have hm : z.masterID ≠ masterID := fun hm => by
      rw [hunheld z hz hm] at hl
      cases hl
    rw [hrows]
    exact List.mem_map.2 ⟨z, hz, if_neg hm⟩

end PhotoRepo

/-! ## The steps -/

section Steps

variable {w w' : PhotoWorld} {h : List PhotoEvent}

/-- **What a step does**: it keeps what is kept, the open transactions can go on relying on what they have been told, and it
tells the truth. -/
theorem photo_step {o : PhotoOp} {r : o.Res} (hI : w.Kept) (hp : PhotoPrior h o) (ht : ∀ e ∈ h, PhotoTold w e)
    (hex : PhotoOp.Exec o w r w') : w'.Kept ∧ w.Goes w' ∧ PhotoTold w' ⟨o, r⟩ := by
  obtain ⟨env, hnew, hperm, hrun⟩ := hex
  cases o with
  | beginTx =>
    cases hrun
    exact ⟨hI.of_photos rfl fun _ _ h => h, PhotoWorld.goes_of_photos rfl rfl (Locks.begin_lasts _) fun _ _ h => h,
      rfl, Nat.lt_succ_self _⟩
  | lockMaster tx masterID =>
    obtain ⟨hK, hR, rfl | ⟨-, rfl, rfl⟩⟩ := PhotoWorld.within_kept hI hrun
    · exact ⟨hK, hR, trivial⟩
    · refine ⟨hK, hR, (Begun.told hp ht).2, fun _ hm => ?_⟩
      simp [hm]
  | countPhotos tx masterID =>
    obtain ⟨hb, hlock⟩ := hp
    obtain ⟨hK, hR, rfl | ⟨-, rfl, rfl⟩⟩ := PhotoWorld.within_kept hI hrun
    · exact ⟨hK, hR, trivial⟩
    · obtain ⟨hnil, hlt⟩ := hb.told ht
      refine ⟨hK, hR, ?_⟩
      cases hc : PhotoRepo.countPhotos tx masterID w with
      | error err => trivial
      | ok n =>
        obtain rfl := PhotoRepo.countPhotos_ok hnil hc
        exact ⟨hlt, fun hl hm => ⟨by simpa using (ht _ hlock).2 hl hm, Nat.le_refl _⟩⟩
  | maxSortOrder tx masterID =>
    obtain ⟨hK, hR, -⟩ := PhotoWorld.within_kept hI hrun
    exact ⟨hK, hR, trivial⟩
  | insertPhoto tx masterID url sortOrder isCover =>
    have hissued : ∀ id m, w.issued id = some m → Function.update w.issued env.newID (some masterID) id = some m := by
      intro id m hid
      by_cases hne : id = env.newID
      · rw [hne, hnew] at hid
        cases hid
      · rw [Function.update_of_ne hne, hid]
    have hI' : ({ w with issued := Function.update w.issued env.newID (some masterID) } : PhotoWorld).Kept :=
      hI.of_photos rfl hissued
    obtain ⟨hK, hR, hcase⟩ := PhotoWorld.within_kept hI' hrun
    have hR' : w.Goes w' := ⟨hR.masters, hR.locks, fun id m hid => hR.issued id m (hissued id m hid), hR.held, hR.counted⟩
    refine ⟨hK, hR', ?_⟩
    rcases hcase with rfl | ⟨-, rfl, rfl⟩
    · trivial
    cases hc : PhotoRepo.insertPhoto tx ⟨env.newID, masterID, url, sortOrder, isCover⟩ w with
    | error err => trivial
    | ok res =>
      obtain ⟨rfl, hm⟩ := PhotoRepo.insertPhoto_ok hc
      exact ⟨rfl, rfl, rfl, hm, Function.update_self _ _ _⟩
  | deletePhoto tx photoID masterID =>
    obtain ⟨hK, hR, rfl | ⟨-, rfl, rfl⟩⟩ := PhotoWorld.within_kept hI hrun
    · exact ⟨hK, hR, trivial⟩
    · obtain ⟨hnil, hlt⟩ := Begun.told hp ht
      refine ⟨hK, hR, ?_⟩
      cases hc : PhotoRepo.deletePhoto tx photoID masterID w with
      | error err => trivial
      | ok res =>
        obtain ⟨x, hx, hm, hd, rfl⟩ := PhotoRepo.deletePhoto_ok hnil hc
        refine ⟨x, rfl, hm, rfl, hlt, fun _ => ⟨hx, ?_⟩⟩
        simp [hd]
  | nextPhoto tx masterID =>
    obtain ⟨hK, hR, rfl | ⟨-, rfl, rfl⟩⟩ := PhotoWorld.within_kept hI hrun
    · exact ⟨hK, hR, trivial⟩
    · obtain ⟨x, hdel, -, -⟩ := Deleted.told hp ht
      refine ⟨hK, hR, ?_⟩
      cases hc : PhotoRepo.nextPhoto tx masterID w with
      | error err => trivial
      | ok nextID =>
        obtain ⟨y, hy, rfl, rfl, hne⟩ := PhotoRepo.nextPhoto_ok hdel hc
        refine ⟨hI.owned y hy, ?_⟩
        rw [hdel]
        simpa using hne
  | coverPhoto tx photoID =>
    obtain ⟨masterID, hd, -⟩ := hp
    obtain ⟨hK, hR, rfl | ⟨-, rfl, rfl⟩⟩ := PhotoWorld.within_kept hI hrun
    · exact ⟨hK, hR, trivial⟩
    · obtain ⟨x, hdel, -, hlt, -⟩ := hd.told ht
      refine ⟨hK, hR, ?_⟩
      cases hc : PhotoRepo.coverPhoto tx photoID w with
      | error err => trivial
      | ok tx' =>
        refine Or.imp_right (fun hy => ?_) (PhotoRepo.coverPhoto_ok hdel hc)
        obtain ⟨htx, y, hy, hget, hid⟩ := hy
        refine ⟨htx, y, hid, hlt, fun _ => ⟨hy, ?_⟩⟩
        simp [hget]
  | commit tx =>
    have hw : w' = (w.commit tx).2 := by
      rw [PhotoOp.run, Option.some.injEq] at hrun
      rw [hrun]
    obtain ⟨hK, hR⟩ := commit_goes hI (kind_of_prior hI hp ht)
    exact ⟨hw ▸ hK, hw ▸ hR, trivial⟩
  | rollback tx =>
    cases hrun
    exact ⟨hI.of_photos rfl fun _ _ h => h, PhotoWorld.goes_of_photos rfl rfl (Locks.close_lasts _ _) fun _ _ h => h, trivial⟩
  | setMasterCoverPhoto masterID photoID =>
    obtain ⟨hK, hR⟩ := PhotoRepo.setMasterCoverPhoto_goes hI hperm hrun
    exact ⟨hK, hR, trivial⟩

/-- **In every run, what the calls have been told holds**, and no master has too many photos. -/
theorem photo_told {w₀ : PhotoWorld} {c : PhotoConfig} (h0 : w₀.Kept) (h : photoSys.Reach anyStep w₀ c) :
    c.world.Kept ∧ ∀ t ∈ c.threads, ∀ e ∈ t.did, PhotoTold c.world e := by
  have hall := h.told (I := PhotoWorld.Kept) (R := PhotoWorld.Goes) (T := PhotoTold) (K := fun _ _ => True)
    (P := fun _ => PhotoPrior) (fun _ _ _ hR hT => hT.lasts hR) (fun _ _ _ _ _ => trivial) photo_prior h0
    (fun _ _ _ => trivial) (fun _ _ _ _ _ _ _ _ _ _ _ hI _ hp ht hex => photo_step hI hp ht hex) ?_
  · exact ⟨hall.1, fun t ht => (hall.2 t ht).2⟩
  · rintro w w' ts - hI ⟨tx, rfl⟩
    exact ⟨hI.of_photos rfl fun _ _ h => h, PhotoWorld.goes_of_photos rfl rfl (Locks.close_lasts _ _) fun _ _ h => h⟩

end Steps

/-! ## The covers -/

/-- A first photo that is no cover comes to photos that are still there, and a cover that goes leaves another one or nothing. -/
def PhotoTx.Careful (w : PhotoWorld) (tx : PhotoTx) : Prop :=
  (∀ photo, .insert photo ∈ tx.writes → photo.isCover = true ∨ ∃ x ∈ w.photos.rows, x.masterID = photo.masterID) ∧
  ∀ x ∈ w.photos.rows, .delete x.id ∈ tx.writes → x.isCover = true →
    (∃ id, .cover id ∈ tx.writes) ∨ ∀ y ∈ w.photos.rows, y.masterID = x.masterID → y = x

/-- A step that leaves every master with a cover: one that names a photo of the master, or a careful commit. -/
def PhotoOp.Careful (w : PhotoWorld) : PhotoOp → Prop
  | .setMasterCoverPhoto masterID photoID =>
    (∃ x ∈ w.photos.rows, x.id = photoID ∧ x.masterID = masterID) ∨ ∀ x ∈ w.photos.rows, x.masterID ≠ masterID
  | .commit tx => w.locks.live tx.id = true → tx.Careful w
  | _ => True

/-- What is expected of a step. -/
structure PhotoSound (m : PhotoMoment) : Prop where
  covered : m.after.Covered
  limited : m.after.Limited
  refused : ∀ masterID photoID r, m.event = ⟨.setMasterCoverPhoto masterID photoID, r⟩ →
    (∀ x ∈ m.before.world.photos.rows, ¬ (x.id = photoID ∧ x.masterID = masterID)) →
    m.after.photos = m.before.world.photos ∧ r = .error PhotoRepo.ErrNotFound

section Covers

variable {w w' : PhotoWorld} {tx : PhotoTx}

theorem PhotoWorld.Covered.of_photos (hc : w.Covered) (hp : w'.photos = w.photos) : w'.Covered := by
  unfold PhotoWorld.Covered
  rw [hp]
  exact hc

/-- The rows of one identifier, and the covers of one master, are one row. -/
theorem photo_ext {x y : MasterPhoto} (hx : x ∈ w.photos.rows) (hy : y ∈ w.photos.rows) (hid : x.id = y.id) : x = y :=
  w.photos.eq_of_clash hx hy (by simp [photoSchema, hid])

theorem cover_ext {x y : MasterPhoto} (hx : x ∈ w.photos.rows) (hy : y ∈ w.photos.rows) (hm : x.masterID = y.masterID)
    (hcx : x.isCover = true) (hcy : y.isCover = true) : x = y :=
  w.photos.eq_of_clash hx hy (by simp [photoSchema, hm, hcx, hcy])

/-- **A commit leaves every master with a cover exactly if it is careful.** -/
theorem PhotoTx.Kind.covered_iff {photos : Table photoSchema} (hc : w.Covered) (hk : tx.Kind w)
    (ha : PhotoWrite.applyAll tx.writes w.photos = .ok photos) (hw' : w'.photos = photos) : w'.Covered ↔ tx.Careful w := by
  rw [PhotoWorld.covered_iff] at hc ⊢
  rw [hw']
  cases hk with
  | adds photo n hw hn hcov hl hcount hi =>
    rw [hw, applyAll_insert] at ha
    rw [Table.insert_rows ha, PhotoTx.Careful, hw]
    constructor
    · intro h
      refine ⟨fun p hp => ?_, fun x hx hd => by simp at hd⟩
      obtain rfl : p = photo := by simpa using hp
      obtain ⟨c, hmem, hm, hcc⟩ := h p (by simp)
      rcases List.mem_append.1 hmem with hmem | hmem
      · exact .inr ⟨c, hmem, hm⟩
      · rw [List.mem_singleton.1 hmem] at hcc
        exact .inl hcc
    · rintro ⟨h, -⟩ z hz
      have hold : ∀ x ∈ w.photos.rows, ∃ c ∈ w.photos.rows ++ [photo], c.masterID = x.masterID ∧ c.isCover = true := by
        intro x hx
        obtain ⟨c, hmem, hcc⟩ := hc x hx
        exact ⟨c, List.mem_append_left _ hmem, hcc⟩
      rcases List.mem_append.1 hz with hz | hz
      · exact hold z hz
      · obtain rfl := List.mem_singleton.1 hz
        rcases h z (by simp) with hcov | ⟨x, hx, hm⟩
        · exact ⟨z, by simp, rfl, hcov⟩
        · rw [← hm]
          exact hold x hx
  | deletes x hw hx hl =>
    rw [hw, applyAll_delete, Except.ok.injEq] at ha
    subst ha
    have hmem : ∀ z, z ∈ (w.photos.delete (·.id == x.id)).rows ↔ z ∈ w.photos.rows ∧ z.id ≠ x.id := fun z => by
      simp [Table.delete]
    rw [PhotoTx.Careful, hw]
    constructor
    · intro h
      refine ⟨fun p hp => by simp at hp, fun x' hx' hd hcx => .inr fun y hy hm => ?_⟩
      obtain rfl := photo_ext hx' hx (by simpa using hd)
      by_contra hne
      obtain ⟨c, hmc, hcm, hcc⟩ := h y ((hmem y).2 ⟨hy, fun hid => hne (photo_ext hy hx hid)⟩)
      obtain ⟨hmc, hid⟩ := (hmem c).1 hmc
      exact hid (congrArg _ (cover_ext hmc hx (hcm.trans hm) hcc hcx))
    · rintro ⟨-, h⟩ z hz
      obtain ⟨hrow, hzid⟩ := (hmem z).1 hz
      obtain ⟨c, hmc, hcm, hcc⟩ := hc z hrow
      refine ⟨c, (hmem c).2 ⟨hmc, fun hid => ?_⟩, hcm, hcc⟩
      obtain rfl := photo_ext hmc hx hid
      rcases h c hx (by simp) hcc with ⟨id, hid⟩ | halone
      · simp at hid
      · exact hzid (congrArg _ (halone z hrow hcm.symm))
  | promotes x y hw hx hlx hy hly hm hne =>
    rw [hw, applyAll_promote] at ha
    have hmem : ∀ z ∈ w.photos.rows, z.id ≠ x.id →
        (if z.id == y.id then { z with isCover := true } else z) ∈ photos.rows := fun z hz hid => by
      rw [Table.update_rows ha]
      exact List.mem_map.2 ⟨z, List.mem_filter.2 ⟨hz, by simpa using hid⟩, rfl⟩
    have hcareful : tx.Careful w := by
      rw [PhotoTx.Careful, hw]
      exact ⟨fun p hp => by simp at hp, fun _ _ _ _ => .inl ⟨y.id, by simp⟩⟩
    refine ⟨fun _ => hcareful, fun _ z' hz' => ?_⟩
    have hmaster : ∃ z ∈ w.photos.rows, z'.masterID = z.masterID := by
      rw [Table.update_rows ha] at hz'
      obtain ⟨z, hz, rfl⟩ := List.mem_map.1 hz'
      refine ⟨z, (List.mem_filter.1 hz).1, ?_⟩
      by_cases hid : (z.id == y.id) = true
      · rw [if_pos hid]
      · rw [if_neg hid]
    obtain ⟨z, hz, hzm⟩ := hmaster
    rw [hzm]
    by_cases hxm : z.masterID = x.masterID
    · refine ⟨{ y with isCover := true }, ?_, hm.trans hxm.symm, rfl⟩
      simpa using hmem y hy hne
    · obtain ⟨c, hmc, hcm, hcc⟩ := hc z hz
      have hcx : c.id ≠ x.id := fun hid => hxm (by rw [← hcm, photo_ext hmc hx hid])
      have hcy : c.id ≠ y.id := fun hid => hxm (by rw [← hcm, photo_ext hmc hy hid, hm])
      refine ⟨c, ?_, hcm, hcc⟩
      simpa [hcy] using hmem c hmc hcx

theorem commit_covered_iff (hI : w.Kept) (hc : w.Covered) (hk : w.locks.live tx.id = true → tx.Kind w) :
    (w.commit tx).2.Covered ↔ (PhotoOp.commit tx).Careful w := by
  by_cases hl : w.locks.live tx.id = true
  · have hiff : (PhotoOp.commit tx).Careful w ↔ tx.Careful w := ⟨fun h => h hl, fun h _ => h⟩
    rw [hiff]
    rcases commit_cases tx w with hw | ⟨-, photos, hw, ⟨rfl, v, hv⟩ | ha⟩
    · -- a commit that finds its transaction does not leave it open
      have hclosed : (w.commit tx).2.locks.live tx.id = false := by
        unfold PhotoWorld.commit
        rw [if_neg (by simp [hl])]
        cases PhotoRepo.seen tx w <;> exact Locks.close_live_self _ _
      rw [hw, hl] at hclosed
      cases hclosed
    · rw [hw]
      refine ⟨fun _ => ?_, fun _ => hc.of_photos rfl⟩
      -- what fails is an insertion among photos that are there, or the promotion of a photo
      cases hk hl with
      | adds photo n hw hn hcov hl hcount hi =>
        rw [hw, applyAll_insert] at hv
        rw [PhotoTx.Careful, hw]
        refine ⟨fun p hp => ?_, fun x hx hd => by simp at hd⟩
        obtain rfl : p = photo := by simpa using hp
        by_contra hbad
        rw [not_or] at hbad
        have hok := w.photos.insert_ok (r := p) rfl fun x hx => by
          have hm : x.masterID ≠ p.masterID := fun hm => hbad.2 ⟨x, hx, hm⟩
          have hid : x.id ≠ p.id := fun hid => by
            have hown := hI.owned x hx
            rw [hid, hi, Option.some.injEq] at hown
            exact hm hown.symm
          simp [photoSchema, hm, hid]
        obtain ⟨t, hins⟩ := hok
        rw [hins] at hv
        cases hv
      | deletes x hw hx hl =>
        rw [hw, applyAll_delete] at hv
        cases hv
      | promotes x y hw hx hlx hy hly hm hne =>
        rw [PhotoTx.Careful, hw]
        exact ⟨fun p hp => by simp at hp, fun _ _ _ _ => .inl ⟨y.id, by simp⟩⟩
    · exact (hk hl).covered_iff hc ha (by rw [hw])
  · have hw : (w.commit tx).2 = w := by
      unfold PhotoWorld.commit
      rw [if_pos (by simpa using hl)]
    rw [hw]
    exact ⟨fun _ h => absurd h hl, fun _ => hc⟩

/-- **`SetMasterCoverPhoto` does what is expected exactly if it names a photo of the master**, or the master has none. -/
theorem setMasterCoverPhoto_sound_iff {order : List MasterPhoto} {masterID photoID : String} {r : Except Err Unit} (hc : w.Covered)
    (hperm : order.Perm w.photos.rows) (h : PhotoRepo.setMasterCoverPhoto order masterID photoID w = some (r, w')) :
    (w'.Covered ∧ ((∀ x ∈ w.photos.rows, ¬ (x.id = photoID ∧ x.masterID = masterID)) →
      w'.photos = w.photos ∧ r = .error PhotoRepo.ErrNotFound)) ↔ (PhotoOp.setMasterCoverPhoto masterID photoID).Careful w := by
  obtain ⟨-, ⟨rfl, ⟨v, rfl⟩, x, hx, hm⟩ | ⟨photos, rfl, hrows, hr⟩⟩ := PhotoRepo.setMasterCoverPhoto_cases hperm h
  · constructor
    · rintro ⟨-, href⟩
      by_contra hnot
      rw [PhotoOp.Careful, not_or] at hnot
      obtain ⟨-, herr⟩ := href fun y hy hyp => hnot.1 ⟨y, hy, hyp⟩
      cases v <;> exact absurd (congrArg (fun e => e.toBool) herr) (by simp_all [PhotoRepo.ofViolation, PhotoRepo.ErrNotFound, Err.plain])
    · rintro (⟨y, hy, hyp⟩ | hnone)
      · exact ⟨hc, fun hno => absurd hyp (hno y hy)⟩
      · exact absurd hm (hnone x hx)
  · rw [PhotoWorld.covered_iff] at hc ⊢
    constructor
    · rintro ⟨-, href⟩
      by_contra hnot
      rw [PhotoOp.Careful, not_or] at hnot
      obtain ⟨-, herr⟩ := href fun y hy hyp => hnot.1 ⟨y, hy, hyp⟩
      rcases hr with ⟨rfl, -⟩ | ⟨-, hnone⟩
      · cases herr
      · exact hnot.2 hnone
    · rintro (⟨y, hy, rfl, rfl⟩ | hnone)
      · refine ⟨fun z' hz' => ?_, fun hno => absurd ⟨rfl, rfl⟩ (hno y hy)⟩
        simp only [hrows] at hz' ⊢
        obtain ⟨z, hz, rfl⟩ := List.mem_map.1 hz'
        by_cases hm : z.masterID = y.masterID
        · refine ⟨{ y with isCover := true }, List.mem_map.2 ⟨y, hy, by simp⟩, ?_, rfl⟩
          simp [hm]
        · obtain ⟨c, hmc, hcm, hcc⟩ := hc z hz
          have hcy : c.masterID ≠ y.masterID := hcm ▸ hm
          exact ⟨c, List.mem_map.2 ⟨c, hmc, if_neg hcy⟩, by rw [if_neg hm, hcm], hcc⟩
      · have hsame : photos.rows = w.photos.rows := by
          rw [hrows]
          conv_rhs => rw [← List.map_id w.photos.rows]
          exact List.map_congr_left fun x hx => if_neg (hnone x hx)
        have hphotos : photos = w.photos := Table.ext hsame
        subst hphotos
        refine ⟨hc, fun _ => ⟨rfl, ?_⟩⟩
        rcases hr with ⟨-, x, hx, hm⟩ | ⟨hr, -⟩
        · exact absurd hm (hnone x hx)
        · exact hr

end Covers

/-! ## The runs -/

section Runs

variable {w₀ : PhotoWorld} {tr : List PhotoMoment} {c : PhotoConfig}

/-- An operation leaves the photos, or it is a commit or `SetMasterCoverPhoto`. -/
theorem PhotoOp.run_photos {env : PhotoEnv} {o : PhotoOp} {w w' : PhotoWorld} {r : o.Res} (hrun : o.run env w = some (r, w')) :
    (w'.photos = w.photos ∧ o.Careful w ∧ ∀ masterID photoID, o ≠ .setMasterCoverPhoto masterID photoID) ∨
      (∃ tx, o = .commit tx) ∨ ∃ masterID photoID, o = .setMasterCoverPhoto masterID photoID := by
  have hwithin : ∀ {α : Type} {w : PhotoWorld} {tx : PhotoTx} {locks : List PhotoLock} {x y : Except Err α},
      w.within tx locks x = some (y, w') → w'.photos = w.photos := by
    intro α w tx locks x y h
    rcases PhotoWorld.within_cases h with ⟨-, rfl⟩ | ⟨-, -, rfl⟩ <;> rfl
  cases o with
  | beginTx =>
    cases hrun
    exact .inl ⟨rfl, trivial, fun _ _ => nofun⟩
  | lockMaster tx masterID => exact .inl ⟨hwithin hrun, trivial, fun _ _ => nofun⟩
  | countPhotos tx masterID => exact .inl ⟨hwithin hrun, trivial, fun _ _ => nofun⟩
  | maxSortOrder tx masterID => exact .inl ⟨hwithin hrun, trivial, fun _ _ => nofun⟩
  | insertPhoto tx masterID url sortOrder isCover =>
    exact .inl ⟨(hwithin hrun).trans rfl, trivial, fun _ _ => nofun⟩
  | deletePhoto tx photoID masterID => exact .inl ⟨hwithin hrun, trivial, fun _ _ => nofun⟩
  | nextPhoto tx masterID => exact .inl ⟨hwithin hrun, trivial, fun _ _ => nofun⟩
  | coverPhoto tx photoID => exact .inl ⟨hwithin hrun, trivial, fun _ _ => nofun⟩
  | rollback tx =>
    cases hrun
    exact .inl ⟨rfl, trivial, fun _ _ => nofun⟩
  | commit tx => exact .inr (.inl ⟨tx, rfl⟩)
  | setMasterCoverPhoto masterID photoID => exact .inr (.inr ⟨masterID, photoID, rfl⟩)

/-- **A step does what is expected exactly if it is careful.** -/
theorem sound_iff {m : PhotoMoment} (hex : PhotoOp.Exec m.op m.before.world m.res m.after) (hI : m.before.world.Kept)
    (hc : m.before.world.Covered) (hp : PhotoPrior m.thread.did m.op) (ht : ∀ e ∈ m.thread.did, PhotoTold m.before.world e) :
    PhotoSound m ↔ m.op.Careful m.before.world := by
  obtain ⟨hI', -, -⟩ := photo_step hI hp ht hex
  obtain ⟨before, thread, o, r, after⟩ := m
  obtain ⟨env, hnew, hperm, hrun⟩ := hex
  rcases PhotoOp.run_photos hrun with ⟨hphotos, hcareful, hset⟩ | ⟨tx, ho⟩ | ⟨masterID, photoID, ho⟩
  · refine ⟨fun _ => hcareful, fun _ => ⟨hc.of_photos hphotos, hI'.limited, fun masterID photoID r he => ?_⟩⟩
    exact absurd (congrArg Sigma.fst he) (hset masterID photoID)
  · obtain rfl : o = .commit tx := ho
    have hafter : after = (before.world.commit tx).2 := (congrArg Prod.snd (Option.some.inj hrun)).symm
    have hiff := commit_covered_iff hI hc (kind_of_prior hI hp ht)
    rw [← hafter] at hiff
    refine ⟨fun h => hiff.1 h.covered, fun h => ⟨hiff.2 h, hI'.limited, fun masterID photoID r he => ?_⟩⟩
    cases congrArg Sigma.fst he
  · obtain rfl : o = .setMasterCoverPhoto masterID photoID := ho
    have hiff := setMasterCoverPhoto_sound_iff hc hperm hrun
    constructor
    · intro h
      exact hiff.1 ⟨h.covered, h.refused masterID photoID r rfl⟩
    · intro h
      obtain ⟨hcov, href⟩ := hiff.2 h
      refine ⟨hcov, hI'.limited, fun masterID' photoID' r' he hno => ?_⟩
      cases he
      exact href hno

/-- The covers are kept as long as every step does what is expected. -/
theorem covered_of_sound (hc : w₀.Covered) (h : photoSys.Trace w₀ tr c) (hS : ∀ m ∈ tr, PhotoSound m) : c.world.Covered := by
  refine h.keeps (F := PhotoWorld.Covered) hS (fun m hm _ => hm.covered) ?_ (.inr hc)
  rintro w w' ⟨tx, rfl⟩ hw
  exact hw.of_photos rfl

/-- **Every master with a photo has exactly one cover, and `SetMasterCoverPhoto` refuses what is no photo of the master, in
exactly those runs whose steps are careful**; in all of them no master has more than `maxMasterPhotos`. -/
theorem covers_kept_iff (h0 : w₀.Kept) (hc : w₀.Covered) (h : photoSys.Trace w₀ tr c) :
    (∀ m ∈ tr, PhotoSound m) ↔ ∀ m ∈ tr, m.op.Careful m.before.world := by
  constructor
  · intro hS m hm
    obtain ⟨tr₁, tr₂, htr⟩ := List.append_of_mem hm
    have hbefore := h.before htr
    obtain ⟨hI, htold⟩ := photo_told h0 hbefore.reach
    obtain ⟨ts₁, ts₂, k, hts, -⟩ := (h.steps m hm).thread
    have hcov := covered_of_sound hc hbefore fun x hx => hS x (htr ▸ List.mem_append_left _ hx)
    refine (sound_iff (h.steps m hm).exec hI hcov (h.prior photo_prior m hm) fun e he => ?_).1 (hS m hm)
    exact htold m.thread (by rw [hts]; simp) e he
  · intro hC
    refine h.all_of_step (P := fun m => m.op.Careful m.before.world) hC ?_
    intro tr w w' ts₁ ts₂ c did o k r ht hall hex hcareful
    obtain ⟨hI, htold⟩ := photo_told h0 ht.reach
    have hcov := covered_of_sound hc ht fun m hm => (hall m hm).2
    have hprior := (ht.reach.after photo_prior ⟨c, did, .call o k⟩ (by simp)).1.1
    exact (sound_iff (m := ⟨⟨w, _⟩, ⟨c, did, .call o k⟩, o, r, w'⟩) hex hI hcov hprior fun e he => htold ⟨c, did, .call o k⟩ (by simp) e he).2 hcareful

end Runs

/-! ## A cover that is taken away -/

/-- The first identifier of a list that is free, and the rows in their order. -/
def PhotoOp.step (ids : List String) (o : PhotoOp) (w : PhotoWorld) : Option (o.Res × PhotoWorld) :=
  match ids.find? fun id => w.issued id == none with
  | none => none
  | some id => o.run ⟨id, w.photos.rows⟩ w

theorem PhotoOp.exec_of_step {ids : List String} (o : PhotoOp) (w : PhotoWorld) (r : o.Res) (w' : PhotoWorld)
    (h : o.step ids w = some (r, w')) : o.Exec w r w' := by
  unfold PhotoOp.step at h
  cases hf : ids.find? fun id => w.issued id == none with
  | none =>
    rw [hf] at h
    cases h
  | some id =>
    rw [hf] at h
    exact ⟨⟨id, w.photos.rows⟩, by simpa using List.find?_some hf, .refl _, h⟩

/-- One master, without photos. -/
def oneMaster : PhotoWorld := ⟨["m1"], .empty _, .idle, fun _ => none⟩

/-- A photo is added, and another identifier made the cover. -/
def misnamed : Option (PhotoAnswer × PhotoWorld) :=
  match (PhotoCall.addMasterPhoto "m1" "u1").prog.tryRun (PhotoOp.step ["p1", "p2"]) oneMaster with
  | none => none
  | some (_, w) => (PhotoCall.setMasterCoverPhoto "m1" "p9").prog.tryRun (PhotoOp.step ["p2"]) w

theorem misnamed_trace : ∃ tr c, photoSys.Trace oneMaster tr c ∧ ¬ c.world.Covered := by
  have hrows : misnamed.map (fun x => x.2.photos.rows) = some [⟨"p1", "m1", "u1", 0, false⟩] := by decide +kernel
  unfold misnamed at hrows
  cases hadd : (PhotoCall.addMasterPhoto "m1" "u1").prog.tryRun (PhotoOp.step ["p1", "p2"]) oneMaster with
  | none =>
    rw [hadd] at hrows
    cases hrows
  | some added =>
    obtain ⟨a, w₁⟩ := added
    rw [hadd] at hrows
    obtain ⟨⟨b, w₂⟩, hset, hrows⟩ := Option.map_eq_some_iff.1 hrows
    obtain ⟨tr₁, did₁, ht₁⟩ := Sys.Trace.runs (S := photoSys) (fun _ _ _ _ he => he)
      (Prog.runs_of_tryRun PhotoOp.exec_of_step hadd) (Sys.Trace.init.start (PhotoCall.addMasterPhoto "m1" "u1") trivial)
    obtain ⟨tr₂, did₂, ht₂⟩ := Sys.Trace.runs (S := photoSys) (fun _ _ _ _ he => he)
      (Prog.runs_of_tryRun PhotoOp.exec_of_step hset) (ht₁.start (PhotoCall.setMasterCoverPhoto "m1" "p9") trivial)
    refine ⟨tr₂, _, ht₂, fun hcov => ?_⟩
    have hone := hcov ⟨"p1", "m1", "u1", 0, false⟩ (by rw [hrows]; simp)
    rw [Table.select, hrows] at hone
    cases hone

theorem oneMaster_kept : oneMaster.Kept := ⟨fun _ hx => absurd hx List.not_mem_nil, fun _ => Nat.zero_le _⟩

theorem oneMaster_covered : oneMaster.Covered := fun _ hx => absurd hx List.not_mem_nil

/-- A master is left with a photo and without a cover. -/
theorem covers_lost : ∃ tr c, photoSys.Trace oneMaster tr c ∧ ¬ ∀ m ∈ tr, PhotoSound m := by
  obtain ⟨tr, c, ht, hnot⟩ := misnamed_trace
  exact ⟨tr, c, ht, fun hS => hnot (covered_of_sound oneMaster_covered ht hS)⟩

/-- The step that took the cover away was not careful. -/
theorem misnamed_careless : ∃ tr c, photoSys.Trace oneMaster tr c ∧ ¬ ∀ m ∈ tr, m.op.Careful m.before.world := by
  obtain ⟨tr, c, ht, hnot⟩ := misnamed_trace
  exact ⟨tr, c, ht, fun hC => hnot (covered_of_sound oneMaster_covered ht
    ((covers_kept_iff oneMaster_kept oneMaster_covered ht).2 hC))⟩

end Agregator
