import Agregator.ChatHubSteps
import Mathlib.Data.List.Nodup
/-!
# ChatHubKnows — what the goroutines of the hub know

What a goroutine knows of the sockets follows from where it is (`Knows`).  Its step keeps what holds at all times (`Sound`), and
leaves alone what those know that share no subscription, no queue and no closing with it (`Stepped`).
-/
namespace Agregator.ChatHub

open Conc

/-! ## What holds at all times -/

/-- A frame for a user: one of the socket's own handler, or one that the chat service has named the user for. -/
def Addressed (w : World) (userID : String) (f : Frame) : Prop :=
  match f.origin with
  | .reply => f.payload ∈ replies
  | .here => ∃ e ∈ w.answers, userID ∈ e.userIDs ∧ f.payload = e.payload
  | .fanout i => ∃ e ∈ w.answers, w.published[i]? = some e ∧ userID ∈ e.userIDs ∧ f.payload = e.payload

/-- What holds of a socket. -/
structure Fine (w : World) (c : ℕ) : Prop where
  joined : (w.client c).joined ≤ (w.taken (w.client c).process).length
  fanouts : (w.client c).fanouts.Sublist (w.expected c)
  addressed : ∀ f ∈ (w.client c).queued, Addressed w (w.client c).userID f
  written : (w.client c).written <+: (w.client c).queued
  unspawned : w.spawned c = false → (w.client c).written = [] ∧ (w.client c).sendCh = (w.client c).queued
  done : (w.client c).done = true → (w.client c).closed = true

structure Sound (w : World) : Prop where
  unused : ∀ c, w.added ≤ c → w.client c = {}
  rows : ∀ x ∈ w.users, x.2.2 < w.added ∧ (w.client x.2.2).process = x.1 ∧ (w.client x.2.2).userID = x.2.1
  nodup : w.users.Nodup
  fine : ∀ c < w.added, Fine w c
  untaken : ∀ p, w.subscribed p = false → w.taken p = []
  taken : ∀ p, (w.taken p).Pairwise (·.1 < ·.1) ∧
    ∀ x ∈ w.taken p, x.1 < w.cursor p ∧ ∃ e, w.published[x.1]? = some e ∧ e.userIDs = x.2
  published : ∀ e ∈ w.published, e ∈ w.answers
  calm : w.panicked = false

/-- A process has queued the fan-outs it has taken up for its open sockets, up to those it owes. -/
def World.Owes (w : World) (p : ℕ) (owed : ℕ → List ℕ) : Prop :=
  ∀ c < w.added, (w.client c).process = p → ((w.client c).fanouts ++ owed c).Sublist (w.expected c) ∧
    (w.Open c → (w.client c).fanouts ++ owed c = w.expected c)

/-- What is known with sockets left that a frame has not been put in the queues of. -/
def Casting (w : World) (process : Option ℕ) (e : Emission) (o : Origin) (todo : List ℕ) : Prop :=
  e ∈ w.answers ∧ (∀ c ∈ todo, c < w.added ∧ (w.client c).userID ∈ e.userIDs) ∧
    match o with
    | .fanout i => w.published[i]? = some e ∧ ∃ p, process = some p ∧ (∀ c ∈ todo, (w.client c).process = p) ∧
        w.Owes p fun c => List.replicate (todo.count c) i
    | .here | .reply => process = none

def Place.Known (w : World) (process : Option ℕ) : Place → Prop
  | .idle => ∀ p, process = some p → w.Owes p fun _ => []
  | .holds e o => e ∈ w.answers ∧
      match o with
      | .fanout i => ∃ p, process = some p ∧ (w.Owes p fun _ => []) ∧ w.published[i]? = some e ∧ i < w.cursor p ∧
          ∀ x ∈ w.taken p, x.1 < i
      | .here | .reply => process = none
  | .casting e o c todo => Casting w process e o (c :: todo)

def WriterAt.Known (w : World) : WriterAt → Prop
  | .off | .stopped => True
  | .waiting c => c < w.added ∧ w.spawned c = true ∧
      (w.client c).written ++ (w.client c).sendCh = (w.client c).queued
  | .holding c f => c < w.added ∧ w.spawned c = true ∧
      (w.client c).written ++ f :: (w.client c).sendCh = (w.client c).queued

structure Knows (w : World) (g : Doing) : Prop where
  subscribed : ∀ p, g.process = some p → w.subscribed p = true
  socket : ∀ c, g.socket = some c → c < w.added
  place : g.place.Known w g.process
  writer : g.writer.Known w
  closing : ∀ c, g.closing = some c → c < w.added ∧ (w.client c).closed = true ∧ (w.client c).done = false

/-- Two goroutines that share no subscription, no queue to write and no socket to close. -/
structure Doing.Apart (g g₂ : Doing) : Prop where
  process : ∀ p, g.process = some p → g₂.process ≠ some p
  writer : ∀ c, g.writer.on = some c → g₂.writer.on ≠ some c
  closing : ∀ c, g.closing = some c → g₂.closing ≠ some c

/-! ## What a step leaves alone -/

/-- What no step takes back. -/
structure Grows (w w' : World) : Prop where
  added : w.added ≤ w'.added
  answers : ∀ e ∈ w.answers, e ∈ w'.answers
  published : ∀ (i : ℕ) (e : Emission), w.published[i]? = some e → w'.published[i]? = some e
  subscribed : ∀ p, w.subscribed p = true → w'.subscribed p = true
  spawned : ∀ c, w.spawned c = true → w'.spawned c = true
  who : ∀ c < w.added, (w'.client c).process = (w.client c).process ∧ (w'.client c).userID = (w.client c).userID ∧
    (w'.client c).joined = (w.client c).joined
  closed : ∀ c, (w.client c).closed = true → (w'.client c).closed = true

/-- The fan-outs of a process. -/
structure KeepsProcess (w w' : World) (p : ℕ) : Prop where
  taken : w'.taken p = w.taken p
  cursor : w'.cursor p = w.cursor p
  clients : ∀ c < w'.added, (w'.client c).process = p →
    (c < w.added ∧ (w'.client c).fanouts = (w.client c).fanouts ∧ (w'.Open c → w.Open c)) ∨
    (w.added ≤ c ∧ (w'.client c).fanouts = [] ∧ (w'.client c).joined = (w'.taken p).length)

/-- A queue, of which another takes. -/
def KeepsQueue (w w' : World) (c : ℕ) : Prop :=
  (w'.client c).written = (w.client c).written ∧
    ∃ l, (w'.client c).sendCh = (w.client c).sendCh ++ l ∧ (w'.client c).queued = (w.client c).queued ++ l

section Frames

variable {w w' : World} {g : Doing} {process : Option ℕ}

theorem World.expected_eq {c : ℕ} (htaken : w'.taken (w.client c).process = w.taken (w.client c).process)
    (hwho : (w'.client c).process = (w.client c).process ∧ (w'.client c).userID = (w.client c).userID ∧
      (w'.client c).joined = (w.client c).joined) : w'.expected c = w.expected c := by
  unfold World.expected
  rw [hwho.1, hwho.2.1, hwho.2.2, htaken]

theorem World.Owes.keep {p : ℕ} {owed : ℕ → List ℕ} (ho : w.Owes p owed) (hg : Grows w w') (hp : KeepsProcess w w' p)
    (hnew : ∀ c, w.added ≤ c → owed c = []) : w'.Owes p owed := by
  intro c hc hcp
  rcases hp.clients c hc hcp with ⟨hold, hfan, hopen⟩ | ⟨hfresh, hfan, hjoined⟩
  · have hwho := hg.who c hold
    have hprocess : (w.client c).process = p := hwho.1.symm.trans hcp
    obtain ⟨hsub, heq⟩ := ho c hold hprocess
    have hexp : w'.expected c = w.expected c := World.expected_eq (by rw [hprocess]; exact hp.taken) hwho
    rw [hfan, hexp]
    exact ⟨hsub, fun h => heq (hopen h)⟩
  · have hexp : w'.expected c = [] := by
      unfold World.expected
      rw [hcp, hjoined, List.drop_length]
      rfl
    rw [hfan, hnew c hfresh, hexp]
    exact ⟨List.Sublist.refl _, fun _ => rfl⟩

theorem Addressed.keep {userID : String} {f : Frame} (h : Addressed w userID f) (hg : Grows w w') : Addressed w' userID f := by
  unfold Addressed at h ⊢
  split at h
  · exact h
  · obtain ⟨e, he, hmem⟩ := h
    exact ⟨e, hg.answers e he, hmem⟩
  · obtain ⟨e, he, hi, hmem⟩ := h
    exact ⟨e, hg.answers e he, hg.published _ e hi, hmem⟩

theorem Fine.keep {c : ℕ} (hf : Fine w c) (hg : Grows w w') (hclient : w'.client c = w.client c)
    (htaken : w.taken (w.client c).process <+: w'.taken (w.client c).process) : Fine w' c := by
  obtain ⟨more, hmore⟩ := htaken
  refine ⟨?_, ?_, ?_, ?_, fun hs => ?_, ?_⟩
  · rw [hclient, ← hmore, List.length_append]
    exact Nat.le_add_right_of_le hf.joined
  · unfold World.expected
    rw [hclient, ← hmore, List.drop_append_of_le_length hf.joined, List.flatMap_append]
    exact hf.fanouts.trans (List.sublist_append_left _ _)
  · rw [hclient]
    exact fun f hq => (hf.addressed f hq).keep hg
  · rw [hclient]
    exact hf.written
  · rw [hclient]
    refine hf.unspawned ?_
    cases h : w.spawned c with
    | false => rfl
    | true => cases hs.symm.trans (hg.spawned c h)
  · rw [hclient]
    exact hf.done

theorem keepsQueue_same {c : ℕ} (hclient : w'.client c = w.client c) : KeepsQueue w w' c := by
  rw [KeepsQueue, hclient]
  exact ⟨rfl, [], (List.append_nil _).symm, (List.append_nil _).symm⟩

theorem Casting.keep {e : Emission} {o : Origin} {todo : List ℕ} (hk : Casting w process e o todo) (hg : Grows w w')
    (hp : ∀ p, process = some p → KeepsProcess w w' p) : Casting w' process e o todo := by
  obtain ⟨he, htodo, ho⟩ := hk
  refine ⟨hg.answers e he, fun c hc => ⟨Nat.lt_of_lt_of_le (htodo c hc).1 hg.added, ?_⟩, ?_⟩
  · rw [(hg.who c (htodo c hc).1).2.1]
    exact (htodo c hc).2
  · cases o with
    | here | reply => exact ho
    | fanout i =>
      obtain ⟨hi, p, hprocess, hclients, howes⟩ := ho
      refine ⟨hg.published i e hi, p, hprocess, fun c hc => ?_, howes.keep hg (hp p hprocess) fun c hc => ?_⟩
      · rw [(hg.who c (htodo c hc).1).1]
        exact hclients c hc
      · rw [List.count_eq_zero.2 fun hmem => absurd (htodo c hmem).1 (Nat.not_lt.2 hc)]
        rfl

theorem Place.Known.keep {pl : Place} (hk : pl.Known w process) (hg : Grows w w')
    (hp : ∀ p, process = some p → KeepsProcess w w' p) : pl.Known w' process := by
  cases pl with
  | idle => exact fun p hprocess => (hk p hprocess).keep hg (hp p hprocess) fun _ _ => rfl
  | casting e o c todo => exact Casting.keep hk hg hp
  | holds e o =>
    obtain ⟨he, ho⟩ := hk
    refine ⟨hg.answers e he, ?_⟩
    cases o with
    | here | reply => exact ho
    | fanout i =>
      obtain ⟨p, hprocess, howes, hi, hcursor, hlast⟩ := ho
      have hkeep := hp p hprocess
      refine ⟨p, hprocess, howes.keep hg hkeep fun _ _ => rfl, hg.published i e hi, ?_, ?_⟩
      · rw [hkeep.cursor]
        exact hcursor
      · rw [hkeep.taken]
        exact hlast

theorem WriterAt.Known.keep {wr : WriterAt} (hk : wr.Known w) (hg : Grows w w')
    (hq : ∀ c, wr.on = some c → c < w.added → KeepsQueue w w' c) : wr.Known w' := by
  have hall : ∀ {c : ℕ} {l : List Frame}, wr.on = some c → c < w.added → w.spawned c = true →
      (w.client c).written ++ (l ++ (w.client c).sendCh) = (w.client c).queued →
      c < w'.added ∧ w'.spawned c = true ∧ (w'.client c).written ++ (l ++ (w'.client c).sendCh) = (w'.client c).queued := by
    intro c l hon hc hs hqueue
    obtain ⟨hwritten, more, hsend, hqueued⟩ := hq c hon hc
    refine ⟨Nat.lt_of_lt_of_le hc hg.added, hg.spawned c hs, ?_⟩
    rw [hwritten, hsend, hqueued, ← hqueue, List.append_assoc, List.append_assoc]
  cases wr with
  | off | stopped => trivial
  | waiting c => exact hall (l := []) rfl hk.1 hk.2.1 hk.2.2
  | holding c f => exact hall (l := [f]) rfl hk.1 hk.2.1 hk.2.2

theorem Knows.keep (hk : Knows w g) (hg : Grows w w') (hp : ∀ p, g.process = some p → KeepsProcess w w' p)
    (hq : ∀ c, g.writer.on = some c → c < w.added → KeepsQueue w w' c)
    (hd : ∀ c, g.closing = some c → c < w.added → (w'.client c).done = (w.client c).done) : Knows w' g where
  subscribed p hprocess := hg.subscribed p (hk.subscribed p hprocess)
  socket c hc := Nat.lt_of_lt_of_le (hk.socket c hc) hg.added
  place := hk.place.keep hg hp
  writer := hk.writer.keep hg hq
  closing c hc := by
    obtain ⟨hadded, hclosed, hdone⟩ := hk.closing c hc
    exact ⟨Nat.lt_of_lt_of_le hadded hg.added, hg.closed c hclosed, (hd c hc hadded).trans hdone⟩

end Frames

/-! ## The steps -/

/-- What a step has to keep: what holds at all times, what the goroutine knows, and what the others know. -/
structure Stepped (w : World) (g : Doing) (w' : World) (g' : Doing) : Prop where
  sound : Sound w'
  own : Knows w' g'
  others : ∀ g₂, g.Apart g₂ → Knows w g₂ → Knows w' g₂

section Steps

variable {w w' : World} {g g' : Doing} {c : ℕ}

/-! ### Steps that leave the sockets alone -/

/-- The sockets, and what their processes have taken up, are as they were. -/
structure SameSockets (w w' : World) : Prop where
  client : w'.client = w.client
  added : w'.added = w.added
  users : w'.users = w.users
  taken : w'.taken = w.taken

theorem SameSockets.keepsProcess {p : ℕ} (h : SameSockets w w') (hcursor : w'.cursor p = w.cursor p) : KeepsProcess w w' p where
  taken := by rw [h.taken]
  cursor := hcursor
  clients c hc _ := by
    refine .inl ⟨by rwa [h.added] at hc, by rw [h.client], fun hopen => ?_⟩
    unfold World.Open at hopen ⊢
    rwa [h.client, h.users] at hopen

theorem SameSockets.fine (h : SameSockets w w') (hg : Grows w w') (hw : Sound w) : ∀ c < w'.added, Fine w' c := by
  intro c hc
  rw [h.added] at hc
  exact (hw.fine c hc).keep hg (by rw [h.client]) (h.taken ▸ List.prefix_rfl)

theorem SameSockets.grows (h : SameSockets w w') (hanswers : ∀ e ∈ w.answers, e ∈ w'.answers)
    (hpublished : ∀ (i : ℕ) (e : Emission), w.published[i]? = some e → w'.published[i]? = some e)
    (hsubscribed : ∀ p, w.subscribed p = true → w'.subscribed p = true)
    (hspawned : ∀ c, w.spawned c = true → w'.spawned c = true) : Grows w w' where
  added := by rw [h.added]
  answers := hanswers
  published := hpublished
  subscribed := hsubscribed
  spawned := hspawned
  who c _ := by rw [h.client]; exact ⟨rfl, rfl, rfl⟩
  closed c hc := by rwa [h.client]

theorem SameSockets.knows (h : SameSockets w w') (hg : Grows w w') (hcursor : ∀ p, g.process = some p → w'.cursor p = w.cursor p)
    (hk : Knows w g) : Knows w' g :=
  hk.keep hg (fun p hp => h.keepsProcess (hcursor p hp)) (fun c _ _ => keepsQueue_same (by rw [h.client]))
    fun c _ _ => by rw [h.client]

theorem Stepped.same (hw : Sound w) (hk : Knows w g') : Stepped w g w g' := ⟨hw, hk, fun _ _ h => h⟩

/-! ### A step that is about one socket -/

/-- What a socket may be changed to. -/
structure Fits (w : World) (c : ℕ) (x : Client) : Prop where
  process : x.process = (w.client c).process
  userID : x.userID = (w.client c).userID
  joined : x.joined = (w.client c).joined
  fanouts : x.fanouts.Sublist (w.expected c)
  addressed : ∀ f ∈ x.queued, Addressed w (w.client c).userID f
  written : x.written <+: x.queued
  unspawned : w.spawned c = false → x.written = [] ∧ x.sendCh = x.queued
  done : x.done = true → x.closed = true
  closed : (w.client c).closed = true → x.closed = true

@[simp] theorem setClient_self (w : World) (c : ℕ) (x : Client) : (w.setClient c x).client c = x := Function.update_self _ _ _

theorem setClient_other {c' : ℕ} (h : c' ≠ c) (w : World) (x : Client) : (w.setClient c x).client c' = w.client c' :=
  Function.update_of_ne h _ _

theorem Fits.who {x : Client} (hx : Fits w c x) (c' : ℕ) : ((w.setClient c x).client c').process = (w.client c').process ∧
    ((w.setClient c x).client c').userID = (w.client c').userID ∧ ((w.setClient c x).client c').joined = (w.client c').joined := by
  by_cases h : c' = c
  · rw [h, setClient_self]
    exact ⟨hx.process, hx.userID, hx.joined⟩
  · rw [setClient_other h]
    exact ⟨rfl, rfl, rfl⟩

theorem Fits.expected {x : Client} (hx : Fits w c x) (c' : ℕ) : (w.setClient c x).expected c' = w.expected c' :=
  World.expected_eq rfl (hx.who c')

theorem Fits.grows {x : Client} (hx : Fits w c x) : Grows w (w.setClient c x) where
  added := Nat.le_refl _
  answers _ h := h
  published _ _ h := h
  subscribed _ h := h
  spawned _ h := h
  who c' _ := hx.who c'
  closed c' hc' := by
    by_cases h : c' = c
    · rw [h, setClient_self]
      exact hx.closed (h ▸ hc')
    · rwa [setClient_other h]

theorem Fits.sound {x : Client} (hx : Fits w c x) (hw : Sound w) (hc : c < w.added) : Sound (w.setClient c x) where
  unused c' hc' := by rw [setClient_other (by rintro rfl; exact absurd hc (Nat.not_lt.2 hc'))]; exact hw.unused c' hc'
  rows r hr := by rw [(hx.who r.2.2).1, (hx.who r.2.2).2.1]; exact hw.rows r hr
  nodup := hw.nodup
  fine c' hc' := by
    by_cases h : c' = c
    · subst h
      have hjoined := (hw.fine c' hc').joined
      rw [← hx.process, ← hx.joined] at hjoined
      refine ⟨?_, ?_, ?_, ?_, ?_, ?_⟩ <;> rw [setClient_self]
      · exact hjoined
      · rw [hx.expected]
        exact hx.fanouts
      · rw [hx.userID]
        exact hx.addressed
      · exact hx.written
      · exact hx.unspawned
      · exact hx.done
    · exact (hw.fine c' hc').keep hx.grows (setClient_other h _ _) List.prefix_rfl
  untaken := hw.untaken
  taken := hw.taken
  published := hw.published
  calm := hw.calm

theorem Fits.keepsProcess {x : Client} (hx : Fits w c x) {p : ℕ}
    (hfan : x.fanouts = (w.client c).fanouts ∨ (w.client c).process ≠ p) : KeepsProcess w (w.setClient c x) p where
  taken := rfl
  cursor := rfl
  clients c' hc' hp := by
    refine .inl ⟨hc', ?_, fun ho => ⟨ho.1, ?_⟩⟩
    · by_cases h : c' = c
      · rw [h, setClient_self] at hp ⊢
        exact hfan.resolve_right fun hne => hne (hx.process.symm.trans hp)
      · rw [setClient_other h]
    · cases hclosed : (w.client c').closed with
      | false => rfl
      | true => cases ho.2.symm.trans (hx.grows.closed c' hclosed)

theorem Fits.knows {x : Client} (hx : Fits w c x) {g₂ : Doing} (hk : Knows w g₂)
    (hfan : ∀ p, g₂.process = some p → x.fanouts = (w.client c).fanouts ∨ (w.client c).process ≠ p)
    (hqueue : g₂.writer.on = some c → KeepsQueue w (w.setClient c x) c)
    (hdone : g₂.closing = some c → x.done = (w.client c).done) : Knows (w.setClient c x) g₂ := by
  refine hk.keep hx.grows (fun p hp => hx.keepsProcess (hfan p hp)) (fun c' hc' _ => ?_) fun c' hc' _ => ?_
  · by_cases h : c' = c
    · subst h
      exact hqueue hc'
    · exact keepsQueue_same (setClient_other h _ _)
  · by_cases h : c' = c
    · subst h
      rw [setClient_self]
      exact hdone hc'
    · rw [setClient_other h]

theorem Fits.stepped {x : Client} (hx : Fits w c x) (hw : Sound w) (hc : c < w.added) (hown : Knows (w.setClient c x) g')
    (hfan : x.fanouts = (w.client c).fanouts ∨ g.process = some (w.client c).process)
    (hqueue : KeepsQueue w (w.setClient c x) c ∨ g.writer.on = some c)
    (hdone : x.done = (w.client c).done ∨ g.closing = some c) : Stepped w g (w.setClient c x) g' where
  sound := hx.sound hw hc
  own := hown
  others g₂ hapart hk := by
    refine hx.knows hk (fun p hp => ?_) (fun hon => ?_) fun hcl => ?_
    · refine hfan.imp_right fun hprocess heq => hapart.process _ hprocess ?_
      rw [hp, heq]
    · exact hqueue.resolve_right fun hon' => hapart.writer _ hon' hon
    · exact hdone.resolve_right fun hcl' => hapart.closing _ hcl' hcl

/-- A socket whose flags alone are changed. -/
theorem fits_flags (hw : Sound w) (hc : c < w.added) {closed connClosed done : Bool}
    (hclosed : (w.client c).closed = true → closed = true) (hdone : done = true → closed = true) :
    Fits w c { w.client c with closed := closed, connClosed := connClosed, done := done } where
  process := rfl
  userID := rfl
  joined := rfl
  fanouts := (hw.fine c hc).fanouts
  addressed := (hw.fine c hc).addressed
  written := (hw.fine c hc).written
  unspawned := (hw.fine c hc).unspawned
  done := hdone
  closed := hclosed

theorem keepsQueue_flags {closed connClosed done : Bool} :
    KeepsQueue w (w.setClient c { w.client c with closed := closed, connClosed := connClosed, done := done }) c := by
  refine ⟨by rw [setClient_self], [], ?_, ?_⟩ <;> rw [setClient_self, List.append_nil]

/-! ### Broadcasts -/

theorem Place.known_cast {process : Option ℕ} {e : Emission} {o : Origin} :
    ∀ {todo : List ℕ}, Casting w process e o todo → (Place.cast e o todo).Known w process
  | [], hk => by
    intro p hprocess
    obtain ⟨-, -, ho⟩ := hk
    cases o with
    | here | reply => cases hprocess.symm.trans ho
    | fanout i =>
      obtain ⟨-, p', hprocess', -, howes⟩ := ho
      obtain rfl := Option.some.inj (hprocess'.symm.trans hprocess)
      exact howes
  | _ :: _, hk => hk

/-- A socket that is closed is owed nothing. -/
theorem Casting.skip {process : Option ℕ} {e : Emission} {o : Origin} {todo : List ℕ} (hk : Casting w process e o (c :: todo))
    (hclosed : (w.client c).closed = true) : Casting w process e o todo := by
  obtain ⟨he, htodo, ho⟩ := hk
  refine ⟨he, fun c' hc' => htodo c' (List.mem_cons_of_mem _ hc'), ?_⟩
  cases o with
  | here | reply => exact ho
  | fanout i =>
    obtain ⟨hi, p, hprocess, hclients, howes⟩ := ho
    refine ⟨hi, p, hprocess, fun c' hc' => hclients c' (List.mem_cons_of_mem _ hc'), fun c' hc' hp => ?_⟩
    obtain ⟨hsub, heq⟩ := howes c' hc' hp
    dsimp only at hsub heq ⊢
    by_cases h : c = c'
    · subst h
      rw [List.count_cons_self, List.replicate_succ'] at hsub
      rw [← List.append_assoc] at hsub
      exact ⟨(List.sublist_append_left _ _).trans hsub, fun hopen => by rw [hopen.2] at hclosed; cases hclosed⟩
    · rw [List.count_cons_of_ne h] at hsub heq
      exact ⟨hsub, heq⟩

/-- The socket at hand is found closed, or closes. -/
theorem Knows.dealt (hk : Knows w g) (hclosed : ∀ e o c todo, g.place = .casting e o c todo → (w.client c).closed = true) :
    Knows w g.dealt := by
  unfold Doing.dealt
  split
  · rename_i e o c todo hplace
    have hplace' := hk.place
    rw [hplace] at hplace'
    exact ⟨hk.subscribed, hk.socket, Place.known_cast (Casting.skip hplace' (hclosed e o c todo hplace)), hk.writer, hk.closing⟩
  · exact hk
  · exact hk

theorem dealt_casting {e : Emission} {o : Origin} {todo : List ℕ} (h : g.place = .casting e o c todo) :
    g.dealt = { g with place := .cast e o todo } := by rw [Doing.dealt, h]

/-! ### One step of each kind -/

theorem stepped_loadClosed (hw : Sound w) (hk : Knows w g) (hl : ∃ e o todo, g.place = .casting e o c todo) :
    Stepped w g w (g.step ⟨.loadClosed c, (w.client c).closed⟩) := by
  cases hclosed : (w.client c).closed with
  | false => exact .same hw hk
  | true =>
    refine .same hw (hk.dealt fun e o c' todo hplace => ?_)
    obtain ⟨e', o', todo', hplace'⟩ := hl
    cases hplace.symm.trans hplace'
    exact hclosed

theorem casting_added {process : Option ℕ} {e : Emission} {o : Origin} {todo : List ℕ} (hplace : g.place = .casting e o c todo)
    (hk : g.place.Known w process) : c < w.added := by
  rw [hplace] at hk
  exact (hk.2.1 c List.mem_cons_self).1

theorem socket_added (hk : Knows w g) (h : g.socket = some c ∨ ∃ e o todo, g.place = .casting e o c todo) : c < w.added := by
  rcases h with h | ⟨e, o, todo, h⟩
  · exact hk.socket c h
  · exact casting_added h hk.place

theorem keepsQueue_push {f : Frame} : KeepsQueue w (w.setClient c ((w.client c).push f)) c := by
  refine ⟨by rw [setClient_self]; rfl, [f], ?_, ?_⟩ <;> rw [setClient_self] <;> rfl

theorem push_fanouts (x : Client) {f : Frame} : (x.push f).fanouts = x.fanouts ++ f.fanout?.toList := by
  unfold Client.fanouts Client.push
  rw [List.filterMap_append]
  cases hf : f.fanout? <;> simp [hf]

theorem push_fanouts_same (x : Client) {f : Frame} (hf : ∀ i, f.origin ≠ .fanout i) : (x.push f).fanouts = x.fanouts := by
  have hnone : f.fanout? = none := by
    unfold Frame.fanout?
    split
    · rename_i i hi
      exact absurd hi (hf i)
    · rfl
    · rfl
  rw [push_fanouts, hnone, Option.toList_none, List.append_nil]

theorem fits_push {f : Frame} (hw : Sound w) (hc : c < w.added) (hfan : ((w.client c).push f).fanouts.Sublist (w.expected c))
    (haddressed : Addressed w (w.client c).userID f) :
    Fits w c ((w.client c).push f) where
  process := rfl
  userID := rfl
  joined := rfl
  fanouts := hfan
  addressed f' hf' := by
    rcases List.mem_append.1 hf' with hf' | hf'
    · exact (hw.fine c hc).addressed f' hf'
    · rw [List.mem_singleton.1 hf']
      exact haddressed
  written := ((hw.fine c hc).written).trans (List.prefix_append _ _)
  unspawned hs := by
    obtain ⟨hwritten, hsend⟩ := (hw.fine c hc).unspawned hs
    exact ⟨hwritten, congrArg (· ++ [f]) hsend⟩
  done := (hw.fine c hc).done
  closed h := h

/-- A frame of the socket's own handler is queued. -/
theorem stepped_reply {f : Frame} (hw : Sound w) (hk : Knows w g) (hc : c < w.added) (hf : f.origin = .reply)
    (hpayload : f.payload ∈ replies) : Stepped w g (w.setClient c ((w.client c).push f)) g := by
  have hfan := push_fanouts_same (w.client c) (f := f) fun i hi => by rw [hf] at hi; cases hi
  have hx : Fits w c ((w.client c).push f) := fits_push hw hc (by rw [hfan]; exact (hw.fine c hc).fanouts) (by
    rw [Addressed, hf]
    exact hpayload)
  exact hx.stepped hw hc (hx.knows hk (fun _ _ => .inl hfan) (fun _ => keepsQueue_push) fun _ => rfl) (.inl hfan)
    (.inl keepsQueue_push) (.inl rfl)

/-- What the process owes is less by the frame that has been queued. -/
theorem Casting.push {process : Option ℕ} {e : Emission} {f : Frame} {todo : List ℕ} (hk : Casting w process e f.origin (c :: todo))
    (hx : Fits w c ((w.client c).push f)) : Casting (w.setClient c ((w.client c).push f)) process e f.origin todo := by
  obtain ⟨he, htodo, ho⟩ := hk
  refine ⟨he, fun c' hc' => ?_, ?_⟩
  · rw [(hx.who c').2.1]
    exact htodo c' (List.mem_cons_of_mem _ hc')
  cases horigin : f.origin with
  | here | reply =>
    rw [horigin] at ho
    exact ho
  | fanout i =>
    rw [horigin] at ho
    obtain ⟨hi, p, hprocess, hclients, howes⟩ := ho
    have hclosed : ∀ c', ((w.setClient c ((w.client c).push f)).client c').closed = (w.client c').closed := by
      intro c'
      by_cases h : c' = c
      · rw [h, setClient_self]
        rfl
      · rw [setClient_other h]
    refine ⟨hi, p, hprocess, fun c' hc' => ?_, fun c' hc' hp => ?_⟩
    · rw [(hx.who c').1]
      exact hclients c' (List.mem_cons_of_mem _ hc')
    · rw [(hx.who c').1] at hp
      obtain ⟨hsub, heq⟩ := howes c' hc' hp
      have hall : ((w.setClient c ((w.client c).push f)).client c').fanouts ++ List.replicate (todo.count c') i =
          (w.client c').fanouts ++ List.replicate ((c :: todo).count c') i := by
        by_cases h : c' = c
        · subst h
          rw [setClient_self, push_fanouts, Frame.fanout?, horigin, List.count_cons_self, List.replicate_succ, List.append_assoc]
          rfl
        · rw [setClient_other h, List.count_cons_of_ne (Ne.symm h)]
      rw [hx.expected]
      dsimp only
      rw [hall]
      exact ⟨hsub, fun hopen => heq ⟨hopen.1, (hclosed c').symm.trans hopen.2⟩⟩

/-- A frame is put in the queue of the socket at hand. -/
theorem stepped_cast {e : Emission} {f : Frame} {todo : List ℕ} (hw : Sound w) (hk : Knows w g)
    (hplace : g.place = .casting e f.origin c todo) (hf : f.origin ≠ .reply) (hpayload : f.payload = e.payload) :
    Stepped w g (w.setClient c ((w.client c).push f)) g.dealt := by
  have hcast : Casting w g.process e f.origin (c :: todo) := by
    have h := hk.place
    rwa [hplace] at h
  obtain ⟨he, htodo, ho⟩ := hcast
  obtain ⟨hc, huser⟩ := htodo c List.mem_cons_self
  -- the frame is of a fan-out of this socket's process, which owes it, or of none
  have hfan : Addressed w (w.client c).userID f ∧ ((w.client c).push f).fanouts.Sublist (w.expected c) ∧
      (((w.client c).push f).fanouts = (w.client c).fanouts ∨ g.process = some (w.client c).process) := by
    unfold Addressed
    cases horigin : f.origin with
    | reply => exact absurd horigin hf
    | here =>
      have hsame := push_fanouts_same (w.client c) (f := f) fun i hi => by rw [horigin] at hi; cases hi
      rw [hsame]
      exact ⟨⟨e, he, huser, hpayload⟩, (hw.fine c hc).fanouts, .inl rfl⟩
    | fanout i =>
      rw [horigin] at ho
      obtain ⟨hi, p, hprocess, hclients, howes⟩ := ho
      have hcp : (w.client c).process = p := hclients c List.mem_cons_self
      have hsub := (howes c hc hcp).1
      dsimp only at hsub
      rw [List.count_cons_self, List.replicate_succ, List.append_cons] at hsub
      rw [push_fanouts, Frame.fanout?, horigin, hcp]
      exact ⟨⟨e, he, hi, huser, hpayload⟩, (List.sublist_append_left _ _).trans hsub, .inr hprocess⟩
  obtain ⟨haddressed, hsub, hfan⟩ := hfan
  have hx : Fits w c ((w.client c).push f) := fits_push hw hc hsub haddressed
  rw [dealt_casting hplace]
  refine hx.stepped hw hc ?_ hfan (.inl keepsQueue_push) (.inl rfl)
  have hidle : Knows w { g with process := none, place := .idle } :=
    ⟨fun p hp => by (cases hp), hk.socket, fun p hp => by (cases hp), hk.writer, hk.closing⟩
  have hkept := hx.knows hidle (fun p hp => by cases hp) (fun _ => keepsQueue_push) fun _ => rfl
  exact ⟨hk.subscribed, hkept.socket, Place.known_cast (Casting.push ⟨he, htodo, ho⟩ hx), hkept.writer, hkept.closing⟩

theorem stepped_offer {size : ℕ} {f : Frame} {r : Offered} (hw : Sound w) (hk : Knows w g)
    (hl : (f.origin = .reply ∧ f.payload ∈ replies ∧ g.socket = some c) ∨
      ∃ e todo, g.place = .casting e f.origin c todo ∧ f.origin ≠ .reply ∧ f.payload = e.payload)
    (he : Op.Exec size (.offer c f) w r w') : Stepped w g w' (g.step ⟨.offer c f, r⟩) := by
  rcases hl with ⟨hf, hpayload, hsocket⟩ | ⟨e, todo, hplace, hf, hpayload⟩
  · have hstep : g.step ⟨.offer c f, r⟩ = g := by
      rw [Doing.step]
      exact if_pos (Or.inl hf)
    rw [hstep]
    rcases he with ⟨-, -, rfl⟩ | ⟨-, -, rfl⟩ | ⟨-, -, -, rfl⟩
    · exact .same hw hk
    · exact stepped_reply hw hk (hk.socket c hsocket) hf hpayload
    · exact .same hw hk
  · have hstep : r ≠ .full → g.step ⟨.offer c f, r⟩ = g.dealt := by
      intro hr
      rw [Doing.step]
      exact if_neg (by simp [hf, hr])
    rcases he with ⟨rfl, hdone, rfl⟩ | ⟨rfl, -, rfl⟩ | ⟨rfl, -, -, rfl⟩
    · rw [hstep (by decide)]
      refine .same hw (hk.dealt fun e' o' c' todo' hplace' => ?_)
      cases hplace'.symm.trans hplace
      exact (hw.fine c (casting_added hplace hk.place)).done hdone
    · rw [hstep (by decide)]
      exact stepped_cast hw hk hplace hf hpayload
    · have hfull : g.step ⟨.offer c f, .full⟩ = g := by
        rw [Doing.step]
        exact if_pos (Or.inr rfl)
      rw [hfull]
      exact .same hw hk

/-- The socket is closed, by this goroutine or before. -/
theorem stepped_casClosed (hw : Sound w) (hk : Knows w g) (hl : g.closing = none ∧
    ((g.place = .idle ∧ g.socket = some c) ∨ ∃ e o todo, g.place = .casting e o c todo)) :
    Stepped w g (w.setClient c { w.client c with closed := true }) (g.step ⟨.casClosed c, !(w.client c).closed⟩) := by
  obtain ⟨-, hl⟩ := hl
  have hc : c < w.added := socket_added hk (hl.imp_left (·.2))
  have hx : Fits w c { w.client c with closed := true } := fits_flags hw hc (fun _ => rfl) fun _ => rfl
  refine hx.stepped hw hc ?_ (.inl rfl) (.inl keepsQueue_flags) (.inl rfl)
  have hkept := (hx.knows hk (fun _ _ => .inl rfl) (fun _ => keepsQueue_flags) fun _ => rfl).dealt fun e o c' todo hplace => by
    rcases hl with ⟨hidle, -⟩ | ⟨e', o', todo', hplace'⟩
    · cases hplace.symm.trans hidle
    · cases hplace.symm.trans hplace'
      rw [setClient_self]
  refine ⟨hkept.subscribed, hkept.socket, hkept.place, hkept.writer, fun c' hc' => ?_⟩
  cases hclosed : (w.client c).closed with
  | true =>
    rw [hclosed] at hc'
    cases hc'
  | false =>
    rw [hclosed] at hc'
    obtain rfl := Option.some.inj hc'
    refine ⟨hc, by rw [setClient_self], ?_⟩
    rw [setClient_self]
    cases hdone : (w.client c).done with
    | false => rfl
    | true => cases hclosed.symm.trans ((hw.fine c hc).done hdone)

theorem stepped_closeConn (hw : Sound w) (hk : Knows w g) (hl : g.closing = some c ∨ g.socket = some c) :
    Stepped w g (w.setClient c { w.client c with connClosed := true }) g := by
  have hc : c < w.added := hl.elim (fun h => (hk.closing c h).1) (hk.socket c)
  have hx : Fits w c { w.client c with connClosed := true } := fits_flags hw hc (fun h => h) (hw.fine c hc).done
  exact hx.stepped hw hc (hx.knows hk (fun _ _ => .inl rfl) (fun _ => keepsQueue_flags) fun _ => rfl) (.inl rfl)
    (.inl keepsQueue_flags) (.inl rfl)

/-- A channel is closed by the one that has set its flag, and once. -/
theorem stepped_closeDone (hw : Sound w) (hk : Knows w g) (hl : g.closing = some c) :
    Stepped w g { w.setClient c { w.client c with done := true } with panicked := w.panicked || (w.client c).done }
      (g.step ⟨.closeDone c, ()⟩) := by
  obtain ⟨hc, hclosed, hdone⟩ := hk.closing c hl
  have hcalm : (w.panicked || (w.client c).done) = w.panicked := by rw [hdone, Bool.or_false]
  rw [hcalm]
  change Stepped w g (w.setClient c { w.client c with done := true }) { g with closing := none }
  have hx : Fits w c { w.client c with done := true } := fits_flags hw hc (fun h => h) fun _ => hclosed
  have hnone : Knows w { g with closing := none } := ⟨hk.subscribed, hk.socket, hk.place, hk.writer, fun c hc => by (cases hc)⟩
  exact hx.stepped hw hc (hx.knows hnone (fun _ _ => .inl rfl) (fun _ => keepsQueue_flags) fun hc => by (cases hc)) (.inl rfl)
    (.inl keepsQueue_flags) (.inr hl)

theorem stepped_spawn (hw : Sound w) (hk : Knows w g) (hc : c < w.added) (hs : w.spawned c = false) :
    Stepped w g { w with spawned := Function.update w.spawned c true } (g.step ⟨.spawn c, ()⟩) := by
  have hsame : SameSockets w { w with spawned := Function.update w.spawned c true } := ⟨rfl, rfl, rfl, rfl⟩
  have hmore : ∀ c', w.spawned c' = true → Function.update w.spawned c true c' = true := by
    intro c' hc'
    by_cases h : c' = c
    · rw [h, Function.update_self]
    · rwa [Function.update_of_ne h]
  have hgrows := hsame.grows (fun _ h => h) (fun _ _ h => h) (fun _ h => h) hmore
  have hkept : ∀ g₂, Knows w g₂ → Knows { w with spawned := Function.update w.spawned c true } g₂ :=
    fun g₂ => hsame.knows hgrows fun _ _ => rfl
  have hown := hkept g hk
  refine ⟨⟨hw.unused, hw.rows, hw.nodup, hsame.fine hgrows hw, hw.untaken, hw.taken, hw.published, hw.calm⟩,
    ⟨hown.subscribed, fun c' hc' => ?_, hown.place, ?_, hown.closing⟩, fun g₂ _ => hkept g₂⟩
  · obtain rfl := Option.some.inj hc'
    exact hc
  · obtain ⟨hwritten, hsend⟩ := (hw.fine c hc).unspawned hs
    refine ⟨hc, Function.update_self _ _ _, ?_⟩
    change (w.client c).written ++ (w.client c).sendCh = (w.client c).queued
    rw [hwritten, hsend, List.nil_append]

theorem stepped_await {size : ℕ} {r : Woken} (hw : Sound w) (hk : Knows w g) (hl : g.writer = .waiting c)
    (he : Op.Exec size (.await c) w r w') : Stepped w g w' (g.step ⟨.await c, r⟩) := by
  rcases he with ⟨rfl, -, rfl⟩ | ⟨rfl, rfl⟩ | ⟨f, rest, rfl, hsend, rfl⟩
  · exact .same hw hk
  · exact .same hw hk
  · have hwriter := hk.writer
    rw [hl] at hwriter
    obtain ⟨hc, hspawned, hqueue⟩ := hwriter
    have hx : Fits w c { w.client c with sendCh := rest } :=
      ⟨rfl, rfl, rfl, (hw.fine c hc).fanouts, (hw.fine c hc).addressed, (hw.fine c hc).written, fun hs =>
        (by cases hspawned.symm.trans hs),
        (hw.fine c hc).done, fun h => h⟩
    have hstep : g.step ⟨.await c, .msg f⟩ = { g with writer := .holding c f } := by
      change g.wake f = _
      rw [Doing.wake, hl]
    have hoff : Knows w { g with writer := .off } := ⟨hk.subscribed, hk.socket, hk.place, trivial, hk.closing⟩
    have hkept := hx.knows hoff (fun _ _ => .inl rfl) (fun hon => by cases hon) fun _ => rfl
    rw [hstep]
    refine hx.stepped hw hc ⟨hkept.subscribed, hkept.socket, hkept.place, ⟨hc, hspawned, ?_⟩, hkept.closing⟩ (.inl rfl)
      (.inr (by rw [hl]; rfl)) (.inl rfl)
    rw [setClient_self, ← hqueue, hsend]

theorem stepped_write {size : ℕ} {f : Option Frame} {r : Bool} (hw : Sound w) (hk : Knows w g)
    (hl : ∀ f', f = some f' → g.writer = .holding c f') (he : Op.Exec size (.write c f) w r w') :
    Stepped w g w' (g.step ⟨.write c f, r⟩) := by
  cases f with
  | none =>
    rcases he with ⟨-, rfl⟩ | ⟨-, rfl⟩
    · exact .same hw hk
    · have hsame : w.setClient c { w.client c with written := (w.client c).written ++ (none : Option Frame).toList } = w := by
        unfold World.setClient
        rw [Option.toList_none, List.append_nil, Function.update_eq_self]
      rw [hsame]
      exact .same hw hk
  | some f =>
    have hwriter := hk.writer
    rw [hl f rfl] at hwriter
    obtain ⟨hc, hspawned, hqueue⟩ := hwriter
    have hstep : g.step ⟨.write c (some f), r⟩ = { g with writer := if r then .waiting c else .stopped } := by
      change g.wrote r = _
      rw [Doing.wrote, hl f rfl]
    rw [hstep]
    rcases he with ⟨rfl, rfl⟩ | ⟨-, rfl⟩
    · exact .same hw ⟨hk.subscribed, hk.socket, hk.place, trivial, hk.closing⟩
    · have htaken : (w.client c).written ++ [f] ++ (w.client c).sendCh = (w.client c).queued := by
        rw [List.append_assoc]
        exact hqueue
      have hx : Fits w c { w.client c with written := (w.client c).written ++ (some f).toList } :=
        ⟨rfl, rfl, rfl, (hw.fine c hc).fanouts, (hw.fine c hc).addressed, ⟨(w.client c).sendCh, htaken⟩,
          fun hs => (by cases hspawned.symm.trans hs), (hw.fine c hc).done, fun h => h⟩
      have hoff : Knows w { g with writer := .off } := ⟨hk.subscribed, hk.socket, hk.place, trivial, hk.closing⟩
      have hkept := hx.knows hoff (fun _ _ => .inl rfl) (fun hon => by cases hon) fun _ => rfl
      refine hx.stepped hw hc ⟨hkept.subscribed, hkept.socket, hkept.place, ?_, hkept.closing⟩ (.inl rfl)
        (.inr (by rw [hl f rfl]; rfl)) (.inl rfl)
      cases r with
      | false => trivial
      | true =>
        refine ⟨hc, hspawned, ?_⟩
        rw [setClient_self]
        exact htaken

theorem stepped_request {q : ChatRequest} {r : Option Emission} (hw : Sound w) (hk : Knows w g) (hl : g.process = none) :
    Stepped w g { w with answers := w.answers ++ r.toList } (g.step ⟨.request q, r⟩) := by
  have hsame : SameSockets w { w with answers := w.answers ++ r.toList } := ⟨rfl, rfl, rfl, rfl⟩
  have hmore : ∀ e ∈ w.answers, e ∈ w.answers ++ r.toList := fun e he => List.mem_append_left _ he
  have hgrows := hsame.grows hmore (fun _ _ h => h) (fun _ h => h) fun _ h => h
  have hkept : ∀ g₂, Knows w g₂ → Knows { w with answers := w.answers ++ r.toList } g₂ :=
    fun g₂ => hsame.knows hgrows fun _ _ => rfl
  refine ⟨⟨hw.unused, hw.rows, hw.nodup, hsame.fine hgrows hw, hw.untaken, hw.taken, fun e he => hmore e (hw.published e he),
    hw.calm⟩, ?_, fun g₂ _ => hkept g₂⟩
  have hown := hkept g hk
  cases r with
  | none => exact hown
  | some e =>
    exact ⟨hown.subscribed, hown.socket, ⟨List.mem_append_right _ (List.mem_singleton.2 rfl), hl⟩, hown.writer, hown.closing⟩

theorem getElem?_append_some {l more : List Emission} {i : ℕ} {e : Emission} (h : l[i]? = some e) : (l ++ more)[i]? = some e := by
  obtain ⟨hlt, -⟩ := List.getElem?_eq_some_iff.1 h
  rw [List.getElem?_append_left hlt]
  exact h

theorem stepped_publish {e : Emission} {r : Bool} (hw : Sound w) (hk : Knows w g) (hl : g.place = .holds e .here)
    (he : w' = w ∨ w' = { w with published := w.published ++ [e] }) : Stepped w g w' (g.step ⟨.publish e, r⟩) := by
  have hplace := hk.place
  rw [hl] at hplace
  obtain ⟨hanswer, hnone⟩ := hplace
  have hstep : ∀ {w'}, Knows w' g → Knows w' (g.step ⟨.publish e, r⟩) := by
    intro w' hk
    cases r with
    | false => exact hk
    | true => exact ⟨hk.subscribed, hk.socket, fun p hp => (by cases hp.symm.trans hnone), hk.writer, hk.closing⟩
  rcases he with rfl | rfl
  · exact .same hw (hstep hk)
  · have hsame : SameSockets w { w with published := w.published ++ [e] } := ⟨rfl, rfl, rfl, rfl⟩
    have hgrows := hsame.grows (fun _ h => h) (fun _ _ h => getElem?_append_some h) (fun _ h => h) fun _ h => h
    have hkept : ∀ g₂, Knows w g₂ → Knows { w with published := w.published ++ [e] } g₂ :=
      fun g₂ => hsame.knows hgrows fun _ _ => rfl
    refine ⟨⟨hw.unused, hw.rows, hw.nodup, hsame.fine hgrows hw, hw.untaken, fun p => ⟨(hw.taken p).1, fun x hx => ?_⟩,
      fun e' he' => ?_, hw.calm⟩, hstep (hkept g hk), fun g₂ _ => hkept g₂⟩
    · obtain ⟨hcursor, e', hp, husers⟩ := (hw.taken p).2 x hx
      exact ⟨hcursor, e', getElem?_append_some hp, husers⟩
    · rcases List.mem_append.1 he' with he' | he'
      · exact hw.published e' he'
      · rw [List.mem_singleton.1 he']
        exact hanswer

theorem stepped_subscribe {p : ℕ} (hw : Sound w) (hk : Knows w g) (hl : g.process = none ∧ g.place = .idle)
    (hs : w.subscribed p = false) :
    Stepped w g { w with subscribed := Function.update w.subscribed p true } (g.step ⟨.subscribe p, ()⟩) := by
  have hsame : SameSockets w { w with subscribed := Function.update w.subscribed p true } := ⟨rfl, rfl, rfl, rfl⟩
  have hmore : ∀ p', w.subscribed p' = true → Function.update w.subscribed p true p' = true := by
    intro p' hp'
    by_cases h : p' = p
    · rw [h, Function.update_self]
    · rwa [Function.update_of_ne h]
  have hgrows := hsame.grows (fun _ h => h) (fun _ _ h => h) hmore fun _ h => h
  have hkept : ∀ g₂, Knows w g₂ → Knows { w with subscribed := Function.update w.subscribed p true } g₂ :=
    fun g₂ => hsame.knows hgrows fun _ _ => rfl
  have hown := hkept g hk
  refine ⟨⟨hw.unused, hw.rows, hw.nodup, hsame.fine hgrows hw, fun p' hp' => hw.untaken p' ?_, hw.taken, hw.published, hw.calm⟩,
    ⟨fun p' hp' => ?_, hown.socket, ?_, hown.writer, hown.closing⟩, fun g₂ _ => hkept g₂⟩
  · cases h : w.subscribed p' with
    | false => rfl
    | true => cases hp'.symm.trans (hmore p' h)
  · obtain rfl := Option.some.inj hp'
    exact Function.update_self _ _ _
  · -- the process has taken up nothing yet
    change g.place.Known _ (some p)
    rw [hl.2]
    intro p' hp' c hc hcp
    obtain rfl := Option.some.inj hp'
    have hnone : w.expected c = [] := by
      unfold World.expected
      rw [show (w.client c).process = p from hcp, hw.untaken p hs, List.drop_nil]
      rfl
    have hfan := (hw.fine c hc).fanouts
    rw [hnone, List.sublist_nil] at hfan
    change ((w.client c).fanouts ++ []).Sublist (w.expected c) ∧ (_ → (w.client c).fanouts ++ [] = w.expected c)
    rw [hfan, hnone]
    exact ⟨List.Sublist.refl _, fun _ => rfl⟩

theorem stepped_next {p i : ℕ} {e : Emission} (hw : Sound w) (hk : Knows w g) (hl : g.process = some p ∧ g.place = .idle)
    (hcursor : w.cursor p ≤ i) (he : w.published[i]? = some e) :
    Stepped w g { w with cursor := Function.update w.cursor p (i + 1) } (g.step ⟨.next p, (i, e)⟩) := by
  have hsame : SameSockets w { w with cursor := Function.update w.cursor p (i + 1) } := ⟨rfl, rfl, rfl, rfl⟩
  have hgrows := hsame.grows (fun _ h => h) (fun _ _ h => h) (fun _ h => h) fun _ h => h
  have hidle : w.Owes p fun _ => [] := by
    have hplace := hk.place
    rw [hl.2] at hplace
    exact hplace p hl.1
  have hbefore : ∀ x ∈ w.taken p, x.1 < i := fun x hx => Nat.lt_of_lt_of_le ((hw.taken p).2 x hx).1 hcursor
  refine ⟨⟨hw.unused, hw.rows, hw.nodup, hsame.fine hgrows hw, hw.untaken,
    fun p' => ⟨(hw.taken p').1, fun x hx => ⟨?_, ((hw.taken p').2 x hx).2⟩⟩, hw.published, hw.calm⟩,
    ⟨hk.subscribed, hk.socket, ?_, hk.writer, hk.closing⟩, fun g₂ hapart hk₂ => hsame.knows hgrows (fun p' hp' => ?_) hk₂⟩
  · change x.1 < Function.update w.cursor p (i + 1) p'
    by_cases h : p' = p
    · subst h
      rw [Function.update_self]
      exact Nat.lt_succ_of_lt (hbefore x hx)
    · rw [Function.update_of_ne h]
      exact ((hw.taken p').2 x hx).1
  · change (if e.userIDs.isEmpty then Place.idle else .holds e (.fanout i)).Known _ g.process
    split
    · intro p' hp'
      obtain rfl := Option.some.inj (hp'.symm.trans hl.1)
      exact hidle
    · refine ⟨hw.published e (List.mem_of_getElem? he), p, hl.1, hidle, he, ?_, hbefore⟩
      change i < Function.update w.cursor p (i + 1) p
      rw [Function.update_self]
      exact Nat.lt_succ_self i
  · refine Function.update_of_ne ?_ _ _
    rintro rfl
    exact hapart.process _ hl.1 hp'

section Add

variable {p : ℕ} {userID : String}

theorem addClient_self (hw : Sound w) : (w.addClient p userID).client w.added =
    { process := p, userID := userID, joined := (w.taken p).length } := by
  unfold World.addClient
  rw [hw.unused w.added (Nat.le_refl _)]
  exact setClient_self _ _ _

theorem addClient_other (h : c ≠ w.added) : (w.addClient p userID).client c = w.client c := setClient_other h _ _

theorem added_of_ne (hc : c < (w.addClient p userID).added) (h : c ≠ w.added) : c < w.added :=
  Nat.lt_of_le_of_ne (Nat.le_of_lt_succ hc) h

theorem grows_addClient (hw : Sound w) : Grows w (w.addClient p userID) where
  added := Nat.le_succ _
  answers _ h := h
  published _ _ h := h
  subscribed _ h := h
  spawned _ h := h
  who c hc := by
    rw [addClient_other (Nat.ne_of_lt hc)]
    exact ⟨rfl, rfl, rfl⟩
  closed c hc := by
    by_cases h : c = w.added
    · rw [h, hw.unused w.added (Nat.le_refl _)] at hc
      cases hc
    · rwa [addClient_other h]

theorem keepsProcess_addClient (hw : Sound w) (q : ℕ) : KeepsProcess w (w.addClient p userID) q where
  taken := rfl
  cursor := rfl
  clients c hc hq := by
    by_cases h : c = w.added
    · subst h
      rw [addClient_self hw] at hq ⊢
      exact .inr ⟨Nat.le_refl _, rfl, congrArg (fun q => (w.taken q).length) hq⟩
    · rw [addClient_other h]
      refine .inl ⟨added_of_ne hc h, rfl, ?_⟩
      rintro ⟨⟨q', u, hmem⟩, hclosed⟩
      rw [addClient_other h] at hclosed
      rcases List.mem_cons.1 hmem with heq | hmem
      · cases heq
        exact absurd rfl h
      · exact ⟨⟨q', u, hmem⟩, hclosed⟩

theorem Knows.addClient (hk : Knows w g) (hw : Sound w) : Knows (w.addClient p userID) g := by
  refine hk.keep (grows_addClient hw) (fun q _ => keepsProcess_addClient hw q) (fun c _ hc => ?_) fun c _ hc => ?_
  · exact keepsQueue_same (addClient_other (Nat.ne_of_lt hc))
  · rw [addClient_other (Nat.ne_of_lt hc)]

theorem Sound.addClient (hw : Sound w) : Sound (w.addClient p userID) where
  unused c hc := by
    rw [addClient_other (Nat.ne_of_gt hc)]
    exact hw.unused c (Nat.le_of_succ_le hc)
  rows x hx := by
    rcases List.mem_cons.1 hx with rfl | hx
    · rw [addClient_self hw]
      exact ⟨Nat.lt_succ_self _, rfl, rfl⟩
    · obtain ⟨hc, hwho⟩ := hw.rows x hx
      rw [addClient_other (Nat.ne_of_lt hc)]
      exact ⟨Nat.lt_succ_of_lt hc, hwho⟩
  nodup := List.nodup_cons.2 ⟨fun hmem => Nat.lt_irrefl _ (hw.rows _ hmem).1, hw.nodup⟩
  fine c hc := by
    by_cases h : c = w.added
    · subst h
      have hself : (w.addClient p userID).client w.added = _ := addClient_self hw
      refine ⟨?_, ?_, ?_, hself ▸ List.prefix_rfl, ?_, ?_⟩ <;> rw [hself]
      · exact Nat.le_refl _
      · exact List.nil_sublist _
      · exact fun f hf => absurd hf List.not_mem_nil
      · exact fun _ => ⟨rfl, rfl⟩
      · exact fun hd => by cases hd
    · exact (hw.fine c (added_of_ne hc h)).keep (grows_addClient hw) (addClient_other h) List.prefix_rfl
  untaken := hw.untaken
  taken := hw.taken
  published := hw.published
  calm := hw.calm

theorem stepped_add (hw : Sound w) (hk : Knows w g) : Stepped w g (w.addClient p userID) (g.step ⟨.add p userID, w.added⟩) := by
  have hown : Knows (w.addClient p userID) g := hk.addClient hw
  refine ⟨hw.addClient, ⟨hown.subscribed, fun c hc => ?_, hown.place, hown.writer, hown.closing⟩, fun g₂ _ hk₂ => hk₂.addClient hw⟩
  obtain rfl := Option.some.inj hc
  exact Nat.lt_succ_self _

end Add

theorem stepped_remove {p : ℕ} {userID : String} (hw : Sound w) (hk : Knows w g) :
    Stepped w g { w with users := w.users.filter (· ≠ (p, userID, c)) } g := by
  have hless : ∀ x ∈ w.users.filter (· ≠ (p, userID, c)), x ∈ w.users := fun x hx => (List.mem_filter.1 hx).1
  have hgrows : Grows w { w with users := w.users.filter (· ≠ (p, userID, c)) } :=
    ⟨Nat.le_refl _, fun _ h => h, fun _ _ h => h, fun _ h => h, fun _ h => h, fun _ _ => ⟨rfl, rfl, rfl⟩, fun _ h => h⟩
  have hkept : ∀ g₂, Knows w g₂ → Knows { w with users := w.users.filter (· ≠ (p, userID, c)) } g₂ := by
    refine fun g₂ hk₂ => hk₂.keep hgrows (fun q _ => ⟨rfl, rfl, fun c' hc' _ => .inl ⟨hc', rfl, ?_⟩⟩)
      (fun c _ _ => keepsQueue_same rfl) fun _ _ _ => rfl
    rintro ⟨⟨q, u, hmem⟩, hclosed⟩
    exact ⟨⟨q, u, hless _ hmem⟩, hclosed⟩
  exact ⟨⟨hw.unused, fun x hx => hw.rows x (hless x hx), hw.nodup.filter _,
    fun c hc => (hw.fine c hc).keep hgrows rfl List.prefix_rfl, hw.untaken, hw.taken, hw.published, hw.calm⟩, hkept g hk,
    fun g₂ _ => hkept g₂⟩

/-! ### The targets of a broadcast -/

theorem mem_sockets {p : ℕ} {u : String} : c ∈ w.sockets p u ↔ (p, u, c) ∈ w.users := by
  unfold World.sockets
  simp only [List.mem_map, List.mem_filter, Bool.and_eq_true, beq_iff_eq]
  constructor
  · rintro ⟨⟨p', u', c'⟩, ⟨hmem, rfl, rfl⟩, rfl⟩
    exact hmem
  · exact fun hmem => ⟨(p, u, c), ⟨hmem, rfl, rfl⟩, rfl⟩

theorem count_sockets (hw : Sound w) (p : ℕ) (u : String) :
    (w.sockets p u).count c = if (p, u, c) ∈ w.users then 1 else 0 := by
  have hnodup : (w.sockets p u).Nodup := by
    refine List.Nodup.map_on ?_ (hw.nodup.filter _)
    intro x hx y hy heq
    simp only [List.mem_filter, Bool.and_eq_true, beq_iff_eq] at hx hy
    exact Prod.ext (hx.2.1.trans hy.2.1.symm) (Prod.ext (hx.2.2.trans hy.2.2.symm) heq)
  rw [hnodup.count]
  simp only [mem_sockets]

/-- A socket is a target once for every time its user is named, if it is in the hub. -/
theorem count_targets (hw : Sound w) {p : ℕ} {us : List String} {css : List (List ℕ)}
    (hcss : List.Forall₂ (fun u l => l.Perm (w.sockets p u)) us css) :
    css.flatten.count c = if (p, (w.client c).userID, c) ∈ w.users then us.count (w.client c).userID else 0 := by
  induction hcss with
  | nil => rw [List.flatten_nil, List.count_nil, List.count_nil, ite_self]
  | @cons u l us css hl _ ih =>
    rw [List.flatten_cons, List.count_append, hl.count_eq, count_sockets hw, ih]
    by_cases hmem : (p, u, c) ∈ w.users
    · have hu : (w.client c).userID = u := (hw.rows _ hmem).2.2
      rw [hu, if_pos hmem, if_pos hmem, if_pos hmem, List.count_cons_self, Nat.add_comm]
    · rw [if_neg hmem, Nat.zero_add]
      by_cases hown : (p, (w.client c).userID, c) ∈ w.users
      · rw [if_pos hown, if_pos hown, List.count_cons_of_ne]
        rintro rfl
        exact hmem hown
      · rw [if_neg hown, if_neg hown]

theorem mem_targets {p : ℕ} {us : List String} {css : List (List ℕ)}
    (hcss : List.Forall₂ (fun u l => l.Perm (w.sockets p u)) us css) (hc : c ∈ css.flatten) : ∃ u ∈ us, (p, u, c) ∈ w.users := by
  obtain ⟨l, hl, hcl⟩ := List.mem_flatten.1 hc
  induction hcss with
  | nil => cases hl
  | cons hp hrest ih =>
    rcases List.mem_cons.1 hl with rfl | hl
    · exact ⟨_, List.mem_cons_self, mem_sockets.1 (hp.subset hcl)⟩
    · obtain ⟨u, hu, hmem⟩ := ih (List.mem_flatten.2 ⟨l, hl, hcl⟩) hl
      exact ⟨u, List.mem_cons_of_mem _ hu, hmem⟩

section TakeUp

variable {p i : ℕ} {us : List String}

theorem expected_takeUp (hw : Sound w) (hc : c < w.added) : (w.takeUp p us (.fanout i)).expected c =
    w.expected c ++ if (w.client c).process = p then List.replicate (us.count (w.client c).userID) i else [] := by
  unfold World.expected World.takeUp
  dsimp only
  split
  · rename_i h
    subst h
    rw [Function.update_self, List.drop_append_of_le_length ((hw.fine c hc).joined), List.flatMap_append, List.flatMap_singleton]
  · rename_i h
    rw [Function.update_of_ne h, List.append_nil]

theorem grows_takeUp : Grows w (w.takeUp p us (.fanout i)) :=
  ⟨Nat.le_refl _, fun _ h => h, fun _ _ h => h, fun _ h => h, fun _ h => h, fun _ _ => ⟨rfl, rfl, rfl⟩, fun _ h => h⟩

theorem taken_takeUp_self : (w.takeUp p us (.fanout i)).taken p = w.taken p ++ [(i, us)] := Function.update_self _ _ _

theorem taken_takeUp_other {q : ℕ} (h : q ≠ p) : (w.takeUp p us (.fanout i)).taken q = w.taken q := Function.update_of_ne h _ _

/-- What is known apart from a process's fan-outs stays known when it takes one up. -/
theorem Knows.takeUp (hk : Knows w g) (hother : g.process ≠ some p) : Knows (w.takeUp p us (.fanout i)) g := by
  refine hk.keep grows_takeUp (fun q hq => ⟨taken_takeUp_other ?_, rfl, fun c hc _ => .inl ⟨hc, rfl, fun hopen => hopen⟩⟩)
    (fun c _ _ => keepsQueue_same rfl) fun c _ _ => rfl
  rintro rfl
  exact hother hq

theorem Sound.takeUp (hw : Sound w) (hsubscribed : w.subscribed p = true) (hlast : ∀ x ∈ w.taken p, x.1 < i)
    (hcursor : i < w.cursor p) (hpublished : ∃ e, w.published[i]? = some e ∧ e.userIDs = us) :
    Sound (w.takeUp p us (.fanout i)) where
  unused := hw.unused
  rows := hw.rows
  nodup := hw.nodup
  fine c hc := by
    refine (hw.fine c hc).keep grows_takeUp rfl ?_
    by_cases h : (w.client c).process = p
    · rw [h, taken_takeUp_self]
      exact List.prefix_append _ _
    · exact (taken_takeUp_other h).symm ▸ List.prefix_rfl
  untaken q hq := by
    rw [taken_takeUp_other]
    · exact hw.untaken q hq
    · rintro rfl
      cases hsubscribed.symm.trans hq
  taken q := by
    by_cases h : q = p
    · subst h
      rw [taken_takeUp_self]
      refine ⟨List.pairwise_append.2 ⟨(hw.taken q).1, List.pairwise_singleton _ _, fun x hx y hy => ?_⟩, fun x hx => ?_⟩
      · rw [List.mem_singleton.1 hy]
        exact hlast x hx
      · rcases List.mem_append.1 hx with hx | hx
        · exact (hw.taken q).2 x hx
        · rw [List.mem_singleton.1 hx]
          exact ⟨hcursor, hpublished⟩
    · rw [taken_takeUp_other h]
      exact hw.taken q
  published := hw.published
  calm := hw.calm

/-- The process owes the fan-out to each of its targets, as often as they are among them. -/
theorem World.Owes.takeUp {css : List (List ℕ)} (ho : w.Owes p fun _ => []) (hw : Sound w)
    (hcss : List.Forall₂ (fun u l => l.Perm (w.sockets p u)) us css) :
    (w.takeUp p us (.fanout i)).Owes p fun c => List.replicate (css.flatten.count c) i := by
  intro c hc hcp
  have hcp : (w.client c).process = p := hcp
  obtain ⟨hsub, heq⟩ := ho c hc hcp
  rw [List.append_nil] at hsub heq
  dsimp only
  rw [expected_takeUp hw hc, if_pos hcp, count_targets hw hcss]
  change ((w.client c).fanouts ++ _).Sublist _ ∧ (w.Open c → (w.client c).fanouts ++ _ = _)
  split
  · exact ⟨List.Sublist.append hsub (List.Sublist.refl _), fun hopen => by rw [heq hopen]⟩
  · rename_i hnot
    refine ⟨?_, fun hopen => ?_⟩
    · rw [List.replicate_zero, List.append_nil]
      exact hsub.trans (List.sublist_append_left _ _)
    · obtain ⟨⟨q, u, hmem⟩, -⟩ := hopen
      obtain ⟨-, hq, hu⟩ := hw.rows _ hmem
      dsimp only at hq hu
      rw [← hq, ← hu, hcp] at hmem
      exact absurd hmem hnot

end TakeUp

theorem stepped_targets {size p : ℕ} {us : List String} {o : Origin} {cs : List ℕ} (hw : Sound w) (hk : Knows w g)
    (hl : (∃ e, g.place = .holds e o ∧ e.userIDs = us) ∧ ∀ i, o = .fanout i → g.process = some p)
    (he : Op.Exec size (.targets p us o) w cs w') : Stepped w g w' (g.step ⟨.targets p us o, cs⟩) := by
  obtain ⟨⟨e, hplace, rfl⟩, hprocess⟩ := hl
  obtain ⟨⟨css, hcss, rfl⟩, rfl⟩ := he
  have hstep : g.step ⟨.targets p e.userIDs o, css.flatten⟩ = { g with place := .cast e o css.flatten } := by
    change g.cast _ = _
    rw [Doing.cast, hplace]
  have hholds := hk.place
  rw [hplace] at hholds
  obtain ⟨hanswer, ho⟩ := hholds
  have htargets : ∀ c ∈ css.flatten, c < w.added ∧ (w.client c).process = p ∧ (w.client c).userID ∈ e.userIDs := by
    intro c hc
    obtain ⟨u, hu, hmem⟩ := mem_targets hcss hc
    obtain ⟨hadded, hproc, huser⟩ := hw.rows _ hmem
    exact ⟨hadded, hproc, huser ▸ hu⟩
  rw [hstep]
  cases o with
  | here | reply =>
    exact .same hw ⟨hk.subscribed, hk.socket,
      Place.known_cast ⟨hanswer, fun c hc => ⟨(htargets c hc).1, (htargets c hc).2.2⟩, ho⟩, hk.writer, hk.closing⟩
  | fanout i =>
    obtain ⟨q, hq, howes, hpublished, hcursor, hlast⟩ := ho
    have hown := hprocess i rfl
    obtain rfl := Option.some.inj (hq.symm.trans hown)
    have hidle : Knows w { g with process := none, place := .idle } :=
      ⟨fun p hp => by (cases hp), hk.socket, fun p hp => by (cases hp), hk.writer, hk.closing⟩
    have hkept : Knows (w.takeUp q e.userIDs (.fanout i)) { g with process := none, place := .idle } :=
      hidle.takeUp fun h => by cases h
    refine ⟨hw.takeUp (hk.subscribed q hown) hlast hcursor ⟨e, hpublished, rfl⟩, ?_, fun g₂ hapart hk₂ =>
      hk₂.takeUp (hapart.process q hown)⟩
    exact ⟨hk.subscribed, hkept.socket, Place.known_cast ⟨hanswer, fun c hc => ⟨(htargets c hc).1, (htargets c hc).2.2⟩,
      hpublished, q, hown, fun c hc => (htargets c hc).2.1, howes.takeUp hw hcss⟩, hkept.writer, hkept.closing⟩

end Steps

end Agregator.ChatHub
