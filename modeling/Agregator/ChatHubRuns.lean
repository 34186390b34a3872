import Agregator.ChatHubKnows
import Agregator.ConcOwn
import Agregator.ConcPlay
/-!
# ChatHubRuns — what the sockets of the chat are sent

However the handlers, the subscriptions and the `writeLoop`s of the gateway's processes interleave, a connection is given what was
queued for its socket, in order, and that is for its user (`frames_addressed`); and a socket that stays open misses none of the
fan-outs its process takes up (`fanouts_delivered`).
-/
namespace Agregator.ChatHub

open Conc

section Run

variable {toLower : String → String} {nats : ℕ → Bool} {size : ℕ}

theorem stepped {w w' : World} {h : List (Event Op Op.Res)} {o : Op} {r : o.Res} (hw : Sound w) (hk : Knows w (doing h))
    (hl : Lawful h o) (he : Op.Exec size o w r w') : Stepped w (doing h) w' ((doing h).step ⟨o, r⟩) := by
  cases o with
  | add p userID =>
    obtain ⟨rfl, rfl⟩ := he
    exact stepped_add hw hk
  | remove p userID c =>
    obtain rfl := he
    exact stepped_remove hw hk
  | targets p us o => exact stepped_targets hw hk hl he
  | loadClosed c =>
    obtain ⟨rfl, rfl⟩ := he
    exact stepped_loadClosed hw hk hl
  | offer c f => exact stepped_offer hw hk hl he
  | casClosed c =>
    obtain ⟨rfl, rfl⟩ := he
    exact stepped_casClosed hw hk hl
  | closeConn c =>
    obtain rfl := he
    exact stepped_closeConn hw hk hl
  | closeDone c =>
    obtain rfl := he
    exact stepped_closeDone hw hk hl
  | spawn c =>
    obtain ⟨hc, hs, rfl⟩ := he
    exact stepped_spawn hw hk hc hs
  | await c => exact stepped_await hw hk hl he
  | write c f =>
    cases f with
    | none => exact stepped_write hw hk (fun f hf => by cases hf) he
    | some f =>
      refine stepped_write hw hk (fun f' hf => ?_) he
      rw [← Option.some.inj hf]
      exact hl
  | read c =>
    obtain ⟨-, rfl⟩ := he
    exact .same hw hk
  | allow key =>
    obtain rfl := he
    exact .same hw hk
  | request q =>
    obtain rfl := he
    exact stepped_request hw hk hl
  | publish e => exact stepped_publish hw hk hl he
  | subscribe p =>
    obtain ⟨hs, rfl⟩ := he
    exact stepped_subscribe hw hk hl hs
  | next p =>
    obtain ⟨i, e⟩ := r
    obtain ⟨hcursor, he, rfl⟩ := he
    exact stepped_next hw hk hl hcursor he

/-! ## What a goroutine has to itself -/

/-- What a goroutine has to itself after an event it had before, or the event has drawn it. -/
structure Draws (g g' : Doing) (e : Event Op Op.Res) : Prop where
  process : ∀ q, g'.process = some q → g.process = some q ∨ e = ⟨.subscribe q, ()⟩
  writer : ∀ c, g'.writer.on = some c → g.writer.on = some c ∨ e = ⟨.spawn c, ()⟩
  closing : ∀ c, g'.closing = some c → g.closing = some c ∨ e = ⟨.casClosed c, true⟩

theorem draws_nothing {g g' : Doing} (e : Event Op Op.Res) (hp : g'.process = g.process)
    (hw : ∀ c, g'.writer.on = some c → g.writer.on = some c) (hc : g'.closing = g.closing) : Draws g g' e where
  process _ h := .inl (hp ▸ h)
  writer c h := .inl (hw c h)
  closing _ h := .inl (hc ▸ h)

theorem draws_dealt (g : Doing) (e : Event Op Op.Res) : Draws g g.dealt e := by
  unfold Doing.dealt
  split <;> exact draws_nothing e rfl (fun _ h => h) rfl

theorem draws_cast (g : Doing) (cs : List ℕ) (e : Event Op Op.Res) : Draws g (g.cast cs) e := by
  unfold Doing.cast
  split <;> exact draws_nothing e rfl (fun _ h => h) rfl

theorem draws_wake (g : Doing) (f : Frame) (e : Event Op Op.Res) : Draws g (g.wake f) e := by
  unfold Doing.wake
  split
  · rename_i hw
    exact draws_nothing e rfl (fun c hc => by rw [hw]; exact hc) rfl
  all_goals exact draws_nothing e rfl (fun _ h => h) rfl

theorem draws_wrote (g : Doing) (r : Bool) (e : Event Op Op.Res) : Draws g (g.wrote r) e := by
  unfold Doing.wrote
  split
  · rename_i hw
    refine draws_nothing e rfl (fun c hc => ?_) rfl
    rw [hw]
    cases r with
    | true => exact hc
    | false => cases hc
  all_goals exact draws_nothing e rfl (fun _ h => h) rfl

theorem draws_step (g : Doing) (e : Event Op Op.Res) : Draws g (g.step e) e := by
  unfold Doing.step
  split
  case h_1 => exact ⟨fun p h => .inr (by rw [Option.some.inj h]), fun c h => .inl h, fun c h => .inl h⟩
  case h_5 => exact draws_cast g _ _
  case h_6 => exact draws_dealt g _
  case h_7 =>
    split
    · exact draws_nothing _ rfl (fun _ h => h) rfl
    · exact draws_dealt g _
  case h_8 c r =>
    have hdealt := draws_dealt g ⟨.casClosed c, r⟩
    refine ⟨hdealt.process, hdealt.writer, fun c' h => ?_⟩
    cases r with
    | false => cases h
    | true => exact .inr (by rw [Option.some.inj h])
  case h_9 => exact ⟨fun p h => .inl h, fun c h => .inl h, fun c h => by cases h⟩
  case h_11 => exact ⟨fun p h => .inl h, fun c h => .inr (by rw [Option.some.inj h]), fun c h => .inl h⟩
  case h_12 => exact draws_wake g _ _
  case h_13 => exact draws_wrote g _ _
  all_goals exact draws_nothing _ rfl (fun _ h => h) rfl

theorem drawn (h : List (Event Op Op.Res)) :
    (∀ p, (doing h).process = some p → ⟨.subscribe p, ()⟩ ∈ h) ∧ (∀ c, (doing h).writer.on = some c → ⟨.spawn c, ()⟩ ∈ h) ∧
      ∀ c, (doing h).closing = some c → ⟨.casClosed c, true⟩ ∈ h := by
  induction h using List.reverseRecOn with
  | nil => exact ⟨fun _ h => (by cases h), fun _ h => (by cases h), fun _ h => (by cases h)⟩
  | append_singleton h e ih =>
    have hdraws := draws_step (doing h) e
    have hmem : ∀ e', e' ∈ h ∨ e = e' → e' ∈ h ++ [e] := fun e' he => he.elim (List.mem_append_left _)
      fun he => List.mem_append_right _ (List.mem_singleton.2 he.symm)
    rw [doing_snoc]
    exact ⟨fun p hs => hmem _ ((hdraws.process p hs).imp_left (ih.1 p)),
      fun c hs => hmem _ ((hdraws.writer c hs).imp_left (ih.2.1 c)),
      fun c hs => hmem _ ((hdraws.closing c hs).imp_left (ih.2.2 c))⟩

/-- A flag that has been set stays set, and what the chat service has answered it answers to a request. -/
theorem Op.Exec.lasts {o : Op} {w w' : World} {r : o.Res} (he : Op.Exec size o w r w') :
    (∀ p, w.subscribed p = true → w'.subscribed p = true) ∧ (∀ c, w.spawned c = true → w'.spawned c = true) ∧
      (∀ c, (w.client c).closed = true → (w'.client c).closed = true) ∧
      ∀ e ∈ w'.answers, e ∈ w.answers ∨ ∃ q, (⟨o, r⟩ : Event Op Op.Res) = ⟨.request q, some e⟩ := by
  have hset : ∀ {c : ℕ} {x : Client}, ((w.client c).closed = true → x.closed = true) → ∀ c',
      (w.client c').closed = true → ((w.setClient c x).client c').closed = true := by
    intro c x hx c' hc'
    by_cases h : c' = c
    · subst h
      rw [setClient_self]
      exact hx hc'
    · rwa [setClient_other h]
  have hflag : ∀ {f : ℕ → Bool} {i : ℕ}, ∀ j, f j = true → Function.update f i true j = true := by
    intro f i j hj
    by_cases h : j = i
    · rw [h, Function.update_self]
    · rwa [Function.update_of_ne h]
  have hnone : ∀ e ∈ w.answers, e ∈ w.answers ∨ ∃ q, (⟨o, r⟩ : Event Op Op.Res) = ⟨.request q, some e⟩ := fun _ h => .inl h
  cases o with
  | add p userID =>
    obtain ⟨rfl, rfl⟩ := he
    exact ⟨fun _ h => h, fun _ h => h, hset fun h => h, hnone⟩
  | targets p us o =>
    obtain ⟨-, rfl⟩ := he
    cases o <;> exact ⟨fun _ h => h, fun _ h => h, fun _ h => h, hnone⟩
  | offer c f =>
    rcases he with ⟨-, -, rfl⟩ | ⟨-, -, rfl⟩ | ⟨-, -, -, rfl⟩
    · exact ⟨fun _ h => h, fun _ h => h, fun _ h => h, hnone⟩
    · exact ⟨fun _ h => h, fun _ h => h, hset fun h => h, hnone⟩
    · exact ⟨fun _ h => h, fun _ h => h, fun _ h => h, hnone⟩
  | casClosed c =>
    obtain ⟨-, rfl⟩ := he
    exact ⟨fun _ h => h, fun _ h => h, hset fun _ => rfl, hnone⟩
  | closeConn c | closeDone c =>
    obtain rfl := he
    exact ⟨fun _ h => h, fun _ h => h, hset fun h => h, hnone⟩
  | spawn c =>
    obtain ⟨-, -, rfl⟩ := he
    exact ⟨fun _ h => h, hflag, fun _ h => h, hnone⟩
  | await c =>
    rcases he with ⟨-, -, rfl⟩ | ⟨-, rfl⟩ | ⟨f, rest, -, -, rfl⟩
    · exact ⟨fun _ h => h, fun _ h => h, fun _ h => h, hnone⟩
    · exact ⟨fun _ h => h, fun _ h => h, fun _ h => h, hnone⟩
    · exact ⟨fun _ h => h, fun _ h => h, hset fun h => h, hnone⟩
  | write c f =>
    rcases he with ⟨-, rfl⟩ | ⟨-, rfl⟩
    · exact ⟨fun _ h => h, fun _ h => h, fun _ h => h, hnone⟩
    · exact ⟨fun _ h => h, fun _ h => h, hset fun h => h, hnone⟩
  | loadClosed c | read c =>
    obtain ⟨-, rfl⟩ := he
    exact ⟨fun _ h => h, fun _ h => h, fun _ h => h, hnone⟩
  | remove p userID c | allow key =>
    obtain rfl := he
    exact ⟨fun _ h => h, fun _ h => h, fun _ h => h, hnone⟩
  | request q =>
    obtain rfl := he
    refine ⟨fun _ h => h, fun _ h => h, fun _ h => h, fun e hmem => (List.mem_append.1 hmem).imp_right fun hmem => ⟨q, ?_⟩⟩
    rw [Option.mem_toList.1 hmem]
  | publish e => rcases he with rfl | rfl <;> exact ⟨fun _ h => h, fun _ h => h, fun _ h => h, hnone⟩
  | subscribe p =>
    obtain ⟨-, rfl⟩ := he
    exact ⟨hflag, fun _ h => h, fun _ h => h, hnone⟩
  | next p =>
    obtain ⟨-, -, rfl⟩ := he
    exact ⟨fun _ h => h, fun _ h => h, fun _ h => h, hnone⟩

variable {p : Config World Call Op Op.Res Unit}

/-- Two goroutines that have drawn nothing of each other's. -/
def Strangers (h h' : List (Event Op Op.Res)) : Prop := (doing h).Apart (doing h')

theorem apart (w : World) (ts₁ : List (Thread Call Op Op.Res Unit)) (t : Thread Call Op Op.Res Unit)
    (ts₂ : List (Thread Call Op Op.Res Unit)) (h : (sys toLower nats size).Reach anyStep .fresh ⟨w, ts₁ ++ t :: ts₂⟩) :
    ∀ t' ∈ ts₁ ++ ts₂, Strangers t.did t'.did := by
  have hclosed : ∀ c, ∀ (o : Op) w r w', Op.Exec size o w r w' → (⟨o, r⟩ : Event Op Op.Res) = ⟨.casClosed c, true⟩ →
      ¬ (w.client c).closed = true ∧ (w'.client c).closed = true := by
    intro c o w r w' he heq
    obtain ⟨rfl, hr⟩ := Sigma.mk.inj heq
    obtain rfl := eq_of_heq hr
    obtain ⟨hopen, rfl⟩ := he
    rw [setClient_self]
    refine ⟨fun h => ?_, rfl⟩
    rw [h] at hopen
    cases hopen
  have hsubscribed : ∀ q, ∀ (o : Op) w r w', Op.Exec size o w r w' → (⟨o, r⟩ : Event Op Op.Res) = ⟨.subscribe q, ()⟩ →
      ¬ w.subscribed q = true ∧ w'.subscribed q = true := by
    intro q o w r w' he heq
    obtain ⟨rfl, hr⟩ := Sigma.mk.inj heq
    obtain ⟨hnot, rfl⟩ := he
    exact ⟨fun h => (by cases hnot.symm.trans h), Function.update_self _ _ _⟩
  have hspawned : ∀ c, ∀ (o : Op) w r w', Op.Exec size o w r w' → (⟨o, r⟩ : Event Op Op.Res) = ⟨.spawn c, ()⟩ →
      ¬ w.spawned c = true ∧ w'.spawned c = true := by
    intro c o w r w' he heq
    obtain ⟨rfl, hr⟩ := Sigma.mk.inj heq
    obtain ⟨-, hnot, rfl⟩ := he
    exact ⟨fun h => (by cases hnot.symm.trans h), Function.update_self _ _ _⟩
  intro t' ht'
  refine ⟨fun q hq hq' => ?_, fun c hc hc' => ?_, fun c hc hc' => ?_⟩
  · exact h.once_others (E := fun e => e = ⟨.subscribe q, ()⟩) (F := fun w => w.subscribed q = true) (hsubscribed q)
      (fun o w r w' he => (Op.Exec.lasts he).1 q) (fun _ _ he _ => False.elim he)
      ⟨_, (drawn t.did).1 q hq, rfl⟩ t' ht' _ ((drawn t'.did).1 q hq') rfl
  · exact h.once_others (E := fun e => e = ⟨.spawn c, ()⟩) (F := fun w => w.spawned c = true) (hspawned c)
      (fun o w r w' he => (Op.Exec.lasts he).2.1 c) (fun _ _ he _ => False.elim he)
      ⟨_, (drawn t.did).2.1 c hc, rfl⟩ t' ht' _ ((drawn t'.did).2.1 c hc') rfl
  · exact h.once_others (E := fun e => e = ⟨.casClosed c, true⟩) (F := fun w => (w.client c).closed = true) (hclosed c)
      (fun o w r w' he => (Op.Exec.lasts he).2.2.1 c) (fun _ _ he _ => False.elim he)
      ⟨_, (drawn t.did).2.2 c hc, rfl⟩ t' ht' _ ((drawn t'.did).2.2 c hc') rfl

/-! ## Runs -/

theorem sound_fresh : Sound .fresh where
  unused _ _ := rfl
  rows _ hx := absurd hx List.not_mem_nil
  nodup := List.nodup_nil
  fine _ hc := absurd hc (Nat.not_lt_zero _)
  untaken _ _ := rfl
  taken _ := ⟨List.Pairwise.nil, fun _ hx => absurd hx List.not_mem_nil⟩
  published _ he := absurd he List.not_mem_nil
  calm := rfl

theorem knows_nothing (w : World) : Knows w {} :=
  ⟨fun _ h => by (cases h), fun _ h => by (cases h), fun _ h => by (cases h), trivial, fun _ h => by (cases h)⟩

/-- **What holds at all times does, and every goroutine knows what its place says.** -/
theorem known (h : (sys toLower nats size).Reach anyStep .fresh p) :
    Sound p.world ∧ ∀ t ∈ p.threads, Knows p.world (doing t.did) := by
  refine h.known (I := Sound) (K := fun _ w h => Knows w (doing h)) (P := fun _ => Lawful)
    (fun c => (prog_obeys toLower nats size c).after) apart sound_fresh (fun _ w _ _ => knows_nothing w) ?_
    (fun _ _ _ he => False.elim he)
  intro w w' c h o r hw hk hl he
  have hstep := stepped hw hk hl he
  refine ⟨hstep.sound, ?_, fun c' h' hapart hk' => hstep.others _ hapart hk'⟩
  rw [doing_snoc]
  exact hstep.own

/-- What the chat service has answered it has answered to a request. -/
theorem answered {e : Emission} (h : (sys toLower nats size).Reach anyStep .fresh p) (he : e ∈ p.world.answers) :
    ∃ t ∈ p.threads, ∃ q, (⟨.request q, some e⟩ : Event Op Op.Res) ∈ t.did := by
  obtain ⟨t, ht, ev, hev, q, rfl⟩ := h.author (F := fun w => e ∈ w.answers)
    (E := fun ev => ∃ q, ev = (⟨.request q, some e⟩ : Event Op Op.Res)) (fun hmem => absurd hmem List.not_mem_nil)
    (fun o w r w' he => (Op.Exec.lasts he).2.2.2 e)
    (fun _ _ he _ => False.elim he) he
  exact ⟨t, ht, q, hev⟩

/-- **What a connection is given is for its user.**  It is a part, from the start and in order, of what was queued for its socket:
replies of the socket's own handler, and frames that the chat service has answered to a request with this user among the
participants.  No channel is closed twice. -/
theorem frames_addressed (h : (sys toLower nats size).Reach anyStep .fresh p) :
    p.world.panicked = false ∧ ∀ c < p.world.added,
      (p.world.client c).written <+: (p.world.client c).queued ∧
      ∀ f ∈ (p.world.client c).queued, (f.origin = .reply ∧ f.payload ∈ replies) ∨
        ∃ e : Emission, (p.world.client c).userID ∈ e.userIDs ∧ f.payload = e.payload ∧
          ∃ t ∈ p.threads, ∃ q, (⟨.request q, some e⟩ : Event Op Op.Res) ∈ t.did := by
  obtain ⟨hw, -⟩ := known h
  refine ⟨hw.calm, fun c hc => ⟨(hw.fine c hc).written, fun f hf => ?_⟩⟩
  have haddressed := (hw.fine c hc).addressed f hf
  unfold Addressed at haddressed
  cases horigin : f.origin with
  | reply =>
    rw [horigin] at haddressed
    exact .inl ⟨rfl, haddressed⟩
  | here =>
    rw [horigin] at haddressed
    obtain ⟨e, he, huser, hpayload⟩ := haddressed
    exact .inr ⟨e, huser, hpayload, answered h he⟩
  | fanout i =>
    rw [horigin] at haddressed
    obtain ⟨e, he, -, huser, hpayload⟩ := haddressed
    exact .inr ⟨e, huser, hpayload, answered h he⟩

/-- A subscription that is between two messages has nothing to send on. -/
theorem between_messages (h : (sys toLower nats size).Reach anyStep .fresh p) {t : Thread Call Op Op.Res Unit} (ht : t ∈ p.threads)
    {q turns k : ℕ} (hcall : t.call = .fanout q turns) (hrest : t.rest = fanout q k) :
    (doing t.did).process = some q ∧ (doing t.did).place = .idle := by
  cases k with
  | zero =>
    have hends := h.ends (Q := fun c h _ => ∀ q turns, c = .fanout q turns → doing h = { process := some q }) (fun c => ?_) t ht
    · rw [hrest] at hends
      rw [hends q turns hcall]
      exact ⟨rfl, rfl⟩
    · cases c with
      | fanout q' turns' =>
        refine Prog.Ends.mono (fun h' _ hq q turns hc => ?_)
          (Prog.Obeys.ends (P := Lawful) (Q := EndsAt { process := some q' }) (p := (sys toLower nats size).prog (.fanout q' turns'))
            ⟨⟨rfl, rfl⟩, fun _ => fanout_obeys rfl rfl rfl turns' rfl⟩)
        cases hc
        exact hq
      | ws _ _ _ | writeLoop _ _ | sendMessage _ _ _ _ | markRead _ _ _ =>
        exact Prog.Ends.of_forall (fun _ _ _ _ hc => by cases hc) _ _
  | succ n =>
    have hafter := h.after (fun c => (prog_obeys toLower nats size c).after) t ht
    rw [hrest] at hafter
    exact hafter.1.1

/-- **A socket that stays open misses nothing.**  A process takes up messages of `chat.fanout` in the order they were published,
each once at most.  Of those it has taken up since a socket was added, the socket's queue has been given a part, in order and none
more often than it names the user; and all of them, if the subscription is not at a message and the socket is still in the hub and
not closed. -/
theorem fanouts_delivered (h : (sys toLower nats size).Reach anyStep .fresh p) :
    (∀ q, (p.world.taken q).Pairwise (·.1 < ·.1) ∧
      ∀ x ∈ p.world.taken q, ∃ e, p.world.published[x.1]? = some e ∧ e.userIDs = x.2) ∧
    ∀ c < p.world.added, (p.world.client c).fanouts.Sublist (p.world.expected c) ∧
      ∀ t ∈ p.threads, ∀ turns k, t.call = .fanout (p.world.client c).process turns →
        t.rest = fanout (p.world.client c).process k → p.world.Open c → (p.world.client c).fanouts = p.world.expected c := by
  obtain ⟨hw, hts⟩ := known h
  refine ⟨fun q => ⟨(hw.taken q).1, fun x hx => ((hw.taken q).2 x hx).2⟩, fun c hc => ⟨(hw.fine c hc).fanouts, ?_⟩⟩
  intro t ht turns k hcall hrest hopen
  obtain ⟨hprocess, hplace⟩ := between_messages h ht hcall hrest
  have hknown := (hts t ht).place
  rw [hplace] at hknown
  have howes := (hknown _ hprocess c hc rfl).2 hopen
  rwa [List.append_nil] at howes

end Run

/-! ## A frame that goes from one process to a socket of another -/

/-- Steps that do not fail, where the chat service answers `e`, every socket read ends, and no subscription misses a message. -/
def Op.turn (size : ℕ) (e : Emission) : (o : Op) → World → Option (o.Res × World)
  | add p userID, w => some (w.added, w.addClient p userID)
  | remove p userID c, w => some ((), { w with users := w.users.filter (· ≠ (p, userID, c)) })
  | targets p userIDs origin, w => some ((userIDs.map (w.sockets p)).flatten, w.takeUp p userIDs origin)
  | loadClosed c, w => some ((w.client c).closed, w)
  | offer c f, w =>
    if (w.client c).sendCh.length < size then some (.sent, w.setClient c ((w.client c).push f))
    else if (w.client c).done then some (.gone, w) else some (.full, w)
  | casClosed c, w => some (!(w.client c).closed, w.setClient c { w.client c with closed := true })
  | closeConn c, w => some ((), w.setClient c { w.client c with connClosed := true })
  | closeDone c, w =>
    some ((), { w.setClient c { w.client c with done := true } with panicked := w.panicked || (w.client c).done })
  | spawn c, w =>
    if c < w.added ∧ w.spawned c = false then some ((), { w with spawned := Function.update w.spawned c true }) else none
  | await c, w =>
    match (w.client c).sendCh with
    | f :: rest => some (.msg f, w.setClient c { w.client c with sendCh := rest })
    | [] => if (w.client c).done then some (.done, w) else none
  | write c f, w =>
    if (w.client c).connClosed then some (false, w)
    else some (true, w.setClient c { w.client c with written := (w.client c).written ++ f.toList })
  | read _, w => some (none, w)
  | allow _, w => some (true, w)
  | request _, w => some (some e, { w with answers := w.answers ++ [e] })
  | publish e, w => some (true, { w with published := w.published ++ [e] })
  | subscribe p, w =>
    if w.subscribed p then none else some ((), { w with subscribed := Function.update w.subscribed p true })
  | next p, w => (w.published[w.cursor p]?).map fun e =>
    ((w.cursor p, e), { w with cursor := Function.update w.cursor p (w.cursor p + 1) })

theorem exec_of_turn {size : ℕ} (e : Emission) (o : Op) (w : World) (r : o.Res) (w' : World)
    (h : o.turn size e w = some (r, w')) : Op.Exec size o w r w' := by
  cases o with
  | add p userID =>
    obtain ⟨rfl, rfl⟩ := Prod.mk.inj (Option.some.inj h)
    exact ⟨rfl, rfl⟩
  | targets p us o =>
    obtain ⟨rfl, rfl⟩ := Prod.mk.inj (Option.some.inj h)
    refine ⟨⟨us.map (w.sockets p), ?_, rfl⟩, rfl⟩
    exact List.forall₂_map_right_iff.2 (List.forall₂_same.2 fun _ _ => List.Perm.refl _)
  | loadClosed c | casClosed c =>
    obtain ⟨rfl, rfl⟩ := Prod.mk.inj (Option.some.inj h)
    exact ⟨rfl, rfl⟩
  | offer c f =>
    simp only [Op.turn] at h
    split at h
    · rename_i hsize
      obtain ⟨rfl, rfl⟩ := Prod.mk.inj (Option.some.inj h)
      exact .inr (.inl ⟨rfl, hsize, rfl⟩)
    · rename_i hsize
      split at h
      · rename_i hdone
        obtain ⟨rfl, rfl⟩ := Prod.mk.inj (Option.some.inj h)
        exact .inl ⟨rfl, hdone, rfl⟩
      · rename_i hdone
        obtain ⟨rfl, rfl⟩ := Prod.mk.inj (Option.some.inj h)
        exact .inr (.inr ⟨rfl, Bool.not_eq_true _ ▸ hdone, Nat.not_lt.1 hsize, rfl⟩)
  | remove p userID c | closeConn c | closeDone c | allow key | request q =>
    obtain ⟨rfl, rfl⟩ := Prod.mk.inj (Option.some.inj h)
    exact rfl
  | spawn c =>
    simp only [Op.turn] at h
    split at h
    · rename_i hc
      obtain ⟨-, rfl⟩ := Prod.mk.inj (Option.some.inj h)
      exact ⟨hc.1, hc.2, rfl⟩
    · cases h
  | await c =>
    simp only [Op.turn] at h
    split at h
    · rename_i f rest hsend
      obtain ⟨rfl, rfl⟩ := Prod.mk.inj (Option.some.inj h)
      exact .inr (.inr ⟨f, rest, rfl, hsend, rfl⟩)
    · split at h
      · rename_i hdone
        obtain ⟨rfl, rfl⟩ := Prod.mk.inj (Option.some.inj h)
        exact .inl ⟨rfl, hdone, rfl⟩
      · cases h
  | write c f =>
    simp only [Op.turn] at h
    split at h
    · obtain ⟨rfl, rfl⟩ := Prod.mk.inj (Option.some.inj h)
      exact .inl ⟨rfl, rfl⟩
    · rename_i hconn
      obtain ⟨rfl, rfl⟩ := Prod.mk.inj (Option.some.inj h)
      exact .inr ⟨Bool.not_eq_true _ ▸ hconn, rfl⟩
  | read c =>
    obtain ⟨rfl, rfl⟩ := Prod.mk.inj (Option.some.inj h)
    exact ⟨fun hne => absurd rfl hne, rfl⟩
  | publish e =>
    obtain ⟨rfl, rfl⟩ := Prod.mk.inj (Option.some.inj h)
    exact .inr rfl
  | subscribe p =>
    simp only [Op.turn] at h
    split at h
    · cases h
    · rename_i hs
      obtain ⟨-, rfl⟩ := Prod.mk.inj (Option.some.inj h)
      exact ⟨Bool.not_eq_true _ ▸ hs, rfl⟩
  | next p =>
    obtain ⟨e, he, hr⟩ := Option.map_eq_some_iff.1 h
    obtain ⟨rfl, rfl⟩ := Prod.mk.inj hr
    exact ⟨Nat.le_refl _, he, rfl⟩

/-- A message of a guest to the owner of a venue. -/
def guestMessage : Emission := ⟨["owner-1", "guest-1"], "\x7b\"event\":\"chat.message.created\"\x7d"⟩

/-- The owner opens a socket at one process, and the guest writes to another. -/
def conversation : List (Move Call Emission) :=
  [.start (.ws 0 "owner-1" 1), .start (.fanout 0 1), .start (.sendMessage 1 "guest-1" "thread-1" (some ("hello", "")))] ++
    List.replicate 2 (.step 0 guestMessage) ++ [.start (.writeLoop 0 2), .step 1 guestMessage] ++
    List.replicate 3 (.step 2 guestMessage) ++ List.replicate 4 (.step 1 guestMessage) ++ List.replicate 5 (.step 3 guestMessage)

/-- A goroutine that has returned. -/
def returned (t : Thread Call Op Op.Res Unit) : Bool :=
  match t.rest with
  | .ret _ => true
  | .call _ _ => false

theorem rest_of_returned {t : Thread Call Op Op.Res Unit} (h : returned t = true) : t.rest = .ret () := by
  unfold returned at h
  split at h
  · rename_i hrest
    exact hrest
  · cases h

/-- The conversation can be had, and the owner is given the message. -/
theorem conversation_run : ∃ p, (sys id (fun _ => true) 64).Reach anyStep .fresh p ∧ p.world.added = 1 ∧ p.world.Open 0 ∧
    (p.world.client 0).process = 0 ∧ (p.world.client 0).written = [⟨connectedFrame, .reply⟩, ⟨guestMessage.payload, .fanout 0⟩] ∧
    ∃ t ∈ p.threads, t.call = .fanout 0 1 ∧ t.rest = fanout 0 0 := by
  have hplay : (play (sys id (fun _ => true) 64).prog (Op.turn 64) conversation ⟨.fresh, []⟩).any (fun x =>
      x.2.world.added == 1 && x.2.world.users == [(0, "owner-1", 0)] && !(x.2.world.client 0).closed &&
      (x.2.world.client 0).process == 0 &&
      (x.2.world.client 0).written == [⟨connectedFrame, .reply⟩, ⟨guestMessage.payload, .fanout 0⟩] &&
      x.2.threads.any fun t => t.call == .fanout 0 1 && returned t) = true := by
    decide +kernel
  obtain ⟨tr, p, ht, hQ⟩ := Sys.Trace.played_to (S := sys id (fun _ => true) 64) (fun _ _ => trivial) exec_of_turn
    conversation hplay
  simp only [Bool.and_eq_true, beq_iff_eq, Bool.not_eq_true'] at hQ
  obtain ⟨⟨⟨⟨⟨hadded, husers⟩, hclosed⟩, hprocess⟩, hwritten⟩, hthread⟩ := hQ
  obtain ⟨t, htm, hreturned⟩ := List.any_eq_true.1 hthread
  obtain ⟨hcall, hreturned⟩ := Bool.and_eq_true_iff.1 hreturned
  refine ⟨p, ht.reach, hadded, ⟨⟨0, "owner-1", ?_⟩, hclosed⟩, hprocess, hwritten, t, htm, beq_iff_eq.1 hcall,
    rest_of_returned hreturned⟩
  rw [husers]
  exact List.mem_cons_self

theorem frames_addressed_conversation : ∃ p, (sys id (fun _ => true) 64).Reach anyStep .fresh p ∧ p.world.panicked = false ∧
    (p.world.client 0).written = [⟨connectedFrame, .reply⟩, ⟨guestMessage.payload, .fanout 0⟩] ∧
    ∃ e : Emission, (p.world.client 0).userID ∈ e.userIDs ∧ guestMessage.payload = e.payload := by
  obtain ⟨p, h, hadded, -, -, hwritten, -⟩ := conversation_run
  obtain ⟨hcalm, hsockets⟩ := frames_addressed h
  obtain ⟨hstart, hframes⟩ := hsockets 0 (by rw [hadded]; exact Nat.zero_lt_one)
  have hqueued : (⟨guestMessage.payload, .fanout 0⟩ : Frame) ∈ (p.world.client 0).queued := by
    refine hstart.subset ?_
    rw [hwritten]
    exact List.mem_cons_of_mem _ List.mem_cons_self
  rcases hframes _ hqueued with ⟨hreply, -⟩ | ⟨e, huser, hpayload, -⟩
  · cases hreply
  · exact ⟨p, h, hcalm, hwritten, e, huser, hpayload⟩

theorem fanouts_delivered_conversation : ∃ p, (sys id (fun _ => true) 64).Reach anyStep .fresh p ∧ p.world.Open 0 ∧
    (p.world.client 0).written = [⟨connectedFrame, .reply⟩, ⟨guestMessage.payload, .fanout 0⟩] ∧
    (p.world.client 0).fanouts = p.world.expected 0 := by
  obtain ⟨p, h, hadded, hopen, hprocess, hwritten, t, ht, hcall, hrest⟩ := conversation_run
  have hall := ((fanouts_delivered h).2 0 (by rw [hadded]; exact Nat.zero_lt_one)).2 t ht 1 0
  rw [hprocess] at hall
  exact ⟨p, h, hopen, hwritten, hall hcall hrest hopen⟩

end Agregator.ChatHub
