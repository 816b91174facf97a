import AudioFork.Lib.LossyPipe
import AudioFork.Session.Chores
import AudioFork.Session.Liveness

/-!
# TextDelivery — what becomes of an application text

A text that `SendText` or `SendDtmf` takes is posted to the shard.  When its turn comes it is sent,
or waits in the pending queue for the next handshake, or is dropped; a pending text may be dropped
later.  Seen from outside this is a lossy pipe: the posted tasks are its back stage, the pending
queue its front stage, the accepted text frames are what it delivered, and `pending_texts_dropped`
counts what it lost.

The order of the texts rests on one fact: an active session with a connection has nothing pending,
so a text that is sent at once overtakes nobody.
-/

namespace AudioFork
namespace Session

open Buffers Protocol Lib

variable {β : Type} {S : ℕ+}

/-! ## The places a text can be -/

/-- The application text in an accepted offer, with the connection that accepted it. -/
def acceptedText (o : Offer β) : Option (Nat × Text) :=
  match o.accepted, o.frame with
  | true, .text text => some (o.conn, text)
  | _, _ => none

/-- The text that a task is to deliver. -/
def postedText : Task → Option Text
  | .deliverText text => some text
  | _ => none

structure Texts where
  posted : List Text
  pending : List Text
  accepted : List (Nat × Text)
  dropped : Nat

def World.texts (w : World β S) : Texts :=
  { posted := w.port.posted.filterMap postedText
    pending := w.session.pendingTexts
    accepted := w.port.wire.filterMap acceptedText
    dropped := w.session.pendingTextsDropped }

namespace Texts

/-- The pending texts are thrown away, and counted. -/
def discard (t : Texts) : Texts :=
  { t with pending := [], dropped := t.dropped + t.pending.length }

/-- The four places make up what was submitted, in order. -/
def Balanced (t : Texts) (submitted : List Text) : Prop :=
  Pipe.Balanced
    { offered := submitted
      back := t.posted
      front := t.pending
      delivered := t.accepted.map Prod.snd }
    { total := submitted.length, refused := 0, lost := t.dropped }

variable {t : Texts} {submitted : List Text}

theorem Balanced.submit (h : t.Balanced submitted) (text : Text) :
    Balanced { t with posted := t.posted ++ [text] } (submitted ++ [text]) := by
  have hoffer := Pipe.Balanced.offer h [text]
  unfold Balanced
  rw [List.length_append]
  exact hoffer

theorem Balanced.discard (h : t.Balanced submitted) : t.discard.Balanced submitted := by
  have hlose := Pipe.Balanced.lose h (Nat.le_refl t.pending.length)
  rw [List.drop_length] at hlose
  exact hlose

/-- The first pending text is accepted. -/
theorem Balanced.accept {text : Text} {rest : List Text}
    (h : Balanced { t with pending := text :: rest } submitted) (c : Nat) :
    Balanced { t with pending := rest, accepted := t.accepted ++ [(c, text)] } submitted := by
  have hpending : text :: rest = [text] ++ rest := rfl
  have hdeliver := Pipe.Balanced.deliver h hpending
  unfold Balanced
  rw [List.map_append]
  exact hdeliver

/-- The first pending text is dropped. -/
theorem Balanced.drop {text : Text} {rest : List Text}
    (h : Balanced { t with pending := text :: rest } submitted) :
    Balanced { t with pending := rest, dropped := t.dropped + 1 } submitted :=
  Pipe.Balanced.lose (n := 1) h (Nat.le_add_left 1 rest.length)

/-- The first posted text joins the pending ones. -/
theorem Balanced.queue {text : Text} {rest : List Text}
    (h : Balanced { t with posted := text :: rest } submitted) :
    Balanced { t with posted := rest, pending := t.pending ++ [text] } submitted := by
  have hposted : text :: rest = [text] ++ rest := rfl
  exact Pipe.Balanced.advance h hposted

/-- The first posted text is dropped. -/
theorem Balanced.refuse {text : Text} {rest : List Text}
    (h : Balanced { t with posted := text :: rest } submitted) :
    Balanced { t with posted := rest, dropped := t.dropped + 1 } submitted := by
  refine Pipe.Balanced.shrink (n := 1) h ?_ ?_
  · exact List.Sublist.append (.refl _) (List.sublist_cons_self text rest)
  · simp only [List.length_cons]
    omega

end Texts

/-! ## Chores -/

/-- Only text frames count. -/
theorem acceptedText_offers {wire offers : List (Offer β)}
    (h : ∀ o ∈ offers, ∀ text, o.frame ≠ .text text) :
    (wire ++ offers).filterMap acceptedText = wire.filterMap acceptedText := by
  have hnone : offers.filterMap acceptedText = [] := by
    refine List.filterMap_eq_nil_iff.mpr ?_
    intro o ho
    unfold acceptedText
    split
    · rename_i text _ hframe
      exact absurd hframe (h o ho text)
    · rfl
  rw [List.filterMap_append, hnone, List.append_nil]

/-- A task that carries no text may leave the queue. -/
theorem postedText_eraseIdx {posted : List Task} {i : Nat}
    (h : ∀ text, posted[i]? ≠ some (.deliverText text)) :
    (posted.eraseIdx i).filterMap postedText = posted.filterMap postedText := by
  induction posted generalizing i with
  | nil => rfl
  | cons task posted ih =>
      cases i with
      | zero =>
          have hnone : postedText task = none := by
            cases task with
            | deliverText text => exact absurd rfl (h text)
            | teardown => rfl
            | applyModify endpoint => rfl
          rw [List.eraseIdx_cons_zero, List.filterMap_cons_none hnone]
      | succ i =>
          rw [List.eraseIdx_cons_succ, List.filterMap_cons, List.filterMap_cons, ih h]

namespace World

variable {env : Env β} {pumps : World β S → Prop} {v w : World β S}

theorem texts_offers (w : World β S) {offers : List (Offer β)}
    (h : ∀ o ∈ offers, ∀ text, o.frame ≠ .text text) :
    { w.texts with accepted := (w.port.wire ++ offers).filterMap acceptedText } = w.texts := by
  rw [acceptedText_offers h]
  rfl

theorem texts_retire : w.retire.texts = w.texts.discard := by
  rcases finalize_writes { w with session.state := .dead } with ⟨_, _, -, hwrites⟩
  unfold retire
  rw [hwrites]
  rfl

theorem texts_hangUp (w : World β S) :
    w.hangUp.texts = w.texts ∨ w.hangUp.texts = w.texts.discard :=
  hangUp_ends (P := fun u => u.texts = w.texts ∨ u.texts = w.texts.discard) (Or.inr texts_retire)
    fun _ => Or.inl rfl

theorem texts_aside (h : Aside w v) : v.texts = w.texts := by
  rcases h with ⟨_, _, _, _, _, _, _, -, rfl⟩
  rfl

theorem texts_drainTick : (w.drainTick env).2.texts = w.texts := by
  rcases drainTick_writes env w with ⟨_, _, _, _, _, _, audio, byes, haudio, hbyes, hwrites⟩
  rw [hwrites]
  have hquiet : ∀ o ∈ audio ++ byes, ∀ text, o.frame ≠ .text text := by
    intro o ho text
    rcases List.mem_append.mp ho with ho | ho
    · rcases (haudio o ho).2 with ⟨bytes, hframe⟩
      simp [hframe]
    · simp [(hbyes o ho).2]
  rw [List.append_assoc]
  exact texts_offers w hquiet

/-- A chore leaves the texts alone or throws the pending ones away. -/
theorem texts_chore (hchore : Chore env pumps w v) : v.texts = w.texts ∨ v.texts = w.texts.discard := by
  have hside : Aside w v → v.texts = w.texts ∨ v.texts = w.texts.discard :=
    fun haside => Or.inl (texts_aside haside)
  cases hchore with
  | takeTask i htask =>
      refine Or.inl ?_
      show { w.texts with posted := (w.port.posted.eraseIdx i).filterMap postedText } = w.texts
      rw [postedText_eraseIdx htask]
      rfl
  | post task htask =>
      refine Or.inl ?_
      show { w.texts with posted := (w.port.posted ++ [task]).filterMap postedText } = w.texts
      have hnone : [task].filterMap postedText = [] := by
        cases task with
        | deliverText text => exact absurd rfl (htask text)
        | teardown => rfl
        | applyModify endpoint => rfl
      rw [List.filterMap_append, hnone, List.append_nil]
      rfl
  | flushToConnection _ =>
      rcases flushToConnection_writes env w with ⟨_, _, _, _, offers, hoffers, hwrites⟩
      refine Or.inl ?_
      rw [hwrites]
      refine texts_offers w ?_
      intro o ho text
      rcases (hoffers o ho).2 with ⟨bytes, hframe⟩
      simp [hframe]
  | receive bytes _ => exact hside (aside_receive env w _ bytes)
  | pumpPlayback => exact hside (aside_pumpPlayback w)
  | handleClear _ => exact hside (aside_handleClear w _)
  | unsupported detail => exact hside (aside_unsupported w detail)
  | noteRefused => exact hside (aside_noteRefused w)
  | refuseHello c hello _ _ => exact Or.inl (texts_offers w (by simp))
  | abandonSocket _ => exact hside (aside_abandonSocket w)
  | hangUp _ => exact texts_hangUp w
  | drainTurn _ _ =>
      unfold drainTurn
      split
      · rcases texts_hangUp (w.drainTick env).2 with hsame | hdiscard
        · exact Or.inl (hsame.trans texts_drainTick)
        · exact Or.inr (hdiscard.trans (congrArg Texts.discard texts_drainTick))
      · exact Or.inl texts_drainTick
  | retire _ => exact Or.inr texts_retire
  | _ => exact Or.inl rfl

/-- Active with a connection: what is sent now goes out. -/
def Open (w : World β S) : Prop := w.session.state = .active ∧ w.session.connection ≠ none

/-- No chore opens a session. -/
theorem open_chore (hchore : Chore env pumps w v) (hopen : v.Open) : w.Open := by
  have hhangUp : ∀ u : World β S, ¬u.hangUp.Open := by
    intro u hu
    have hstate : u.lifecycle.hangUp.state = .active := by
      rw [← lifecycle_hangUp]
      exact hu.1
    unfold Lifecycle.hangUp at hstate
    split at hstate <;> cases hstate
  have hsame : v.lifecycle = w.lifecycle → w.Open := by
    intro hlife
    unfold Open
    rw [← lifecycle_state, ← lifecycle_connection, ← hlife]
    exact hopen
  cases hchore with
  | emit type detail hpassing =>
      refine hsame (lifecycle_emit w detail ?_)
      rintro rfl
      cases hpassing
  | drainHandoffRing _ => exact hsame (lifecycle_drainHandoffRing env w)
  | flushToConnection _ => exact hsame (lifecycle_flushToConnection env w)
  | receive bytes _ => exact hsame (lifecycle_receive env w _ bytes)
  | pumpPlayback => exact hsame (lifecycle_pumpPlayback w)
  | handleClear _ => exact hsame (lifecycle_handleClear w _)
  | unsupported detail => exact hsame (lifecycle_unsupported w detail)
  | redial _ => cases hopen.1
  | noteRefused =>
      rcases noteRefused_writes w with ⟨_, -, hwrites⟩
      rw [hwrites] at hopen
      exact absurd rfl hopen.2
  | abandonSocket _ =>
      rcases abandonSocket_writes w with ⟨_, -, hwrites⟩
      rw [hwrites] at hopen
      exact absurd rfl hopen.2
  | retry _ => cases hopen.1
  | hangUp _ => exact absurd hopen (hhangUp w)
  | startDrain _ => cases hopen.1
  | drainTurn hstate _ =>
      unfold drainTurn at hopen
      split at hopen
      · exact absurd hopen (hhangUp _)
      · have hactive : w.session.state = .active :=
          (congrArg Lifecycle.state (lifecycle_drainTick env w)).symm.trans hopen.1
        rw [hstate] at hactive
        cases hactive
  | retire _ =>
      have hdead : w.retire.session.state = .dead := congrArg Lifecycle.state (lifecycle_retire w)
      have hactive := hopen.1
      rw [hdead] at hactive
      cases hactive
  | _ => exact hopen

/-! ## Invariant -/

structure TextsKept (submitted : List Text) (w : World β S) : Prop where
  balanced : w.texts.Balanced submitted
  bounded : w.session.pendingTexts.length ≤ maxPendingTexts
  flushed : w.Open → w.session.pendingTexts = []

namespace TextsKept

variable {submitted : List Text}

theorem chore (h : TextsKept submitted w) (hchore : Chore env pumps w v) : TextsKept submitted v := by
  rcases texts_chore hchore with hsame | hdiscard
  · have hpending : v.session.pendingTexts = w.session.pendingTexts := congrArg Texts.pending hsame
    refine ⟨hsame ▸ h.balanced, hpending ▸ h.bounded, ?_⟩
    intro hopen
    exact hpending.trans (h.flushed (open_chore hchore hopen))
  · have hpending : v.session.pendingTexts = [] := congrArg Texts.pending hdiscard
    refine ⟨hdiscard ▸ h.balanced.discard, ?_, fun _ => hpending⟩
    rw [hpending]
    exact Nat.zero_le _

theorem chores (h : TextsKept submitted w) (hchores : Chores env pumps w v) : TextsKept submitted v :=
  hchores.preserves (fun _ _ hchore hkept => hkept.chore hchore) h

end TextsKept

/-! ## Occasions -/

/-- `SendText` in one step: the text is accepted, or refused and counted. -/
theorem texts_sendOrDrop (env : Env β) (w : World β S) (c : Nat) (text : Text) :
    (w.sendOrDrop env c text).texts =
        { w.texts with accepted := w.texts.accepted ++ [(c, text)] } ∨
      (w.sendOrDrop env c text).texts = { w.texts with dropped := w.texts.dropped + 1 } := by
  unfold sendOrDrop send
  simp only
  cases haccepts : env.accepts w.port.conns c w.port.wire.length (.text text) with
  | true =>
      refine Or.inl ?_
      simp [texts, acceptedText]
  | false =>
      refine Or.inr ?_
      simp [texts, acceptedText]

/-- The flush of the pending texts, as if each left the queue when it is sent. -/
theorem balanced_foldl_sendOrDrop {submitted : List Text} (c : Nat) (pending : List Text)
    (h : Texts.Balanced { w.texts with pending := pending } submitted) :
    Texts.Balanced { (pending.foldl (sendOrDrop env c) w).texts with pending := [] } submitted := by
  induction pending generalizing w with
  | nil => exact h
  | cons text pending ih =>
      refine ih (w := w.sendOrDrop env c text) ?_
      rcases texts_sendOrDrop env w c text with haccepted | hdropped
      · rw [haccepted]
        exact h.accept c
      · rw [hdropped]
        exact h.drop

theorem balanced_flushPendingTexts {submitted : List Text} (h : w.texts.Balanced submitted) :
    (w.flushPendingTexts env).texts.Balanced submitted := by
  unfold flushPendingTexts
  simp only
  split
  · exact balanced_foldl_sendOrDrop _ _ h
  · exact h.discard

namespace TextsKept

variable {submitted : List Text}

theorem greet (h : TextsKept submitted w) (c : Nat) (hello : Text) :
    TextsKept submitted (w.greet env c hello) := by
  let active : World β S := { w with session.state := .active }
  have hhello : (active.send env c (.hello hello)).2.texts = w.texts :=
    texts_offers w (by simp)
  have hannounce : ((active.send env c (.hello hello)).2.announce env c).texts = w.texts := by
    rcases announce_writes env (active.send env c (.hello hello)).2 c with
      ⟨_, _, _, _, offers, _, hoffers, -, hwrites⟩
    rw [hwrites, ← hhello]
    refine texts_offers (active.send env c (.hello hello)).2 ?_
    intro o ho text
    rcases (hoffers o ho).2 with ⟨payload, hframe⟩
    simp [hframe]
  have hpending : (w.greet env c hello).session.pendingTexts = [] := by
    rcases flushPendingTexts_writes env ((active.send env c (.hello hello)).2.announce env c) with
      ⟨_, _, -, hwrites⟩
    exact congrArg (fun v : World β S => v.session.pendingTexts) hwrites
  refine ⟨?_, ?_, fun _ => hpending⟩
  · refine balanced_flushPendingTexts ?_
    rw [hannounce]
    exact h.balanced
  · rw [hpending]
    exact Nat.zero_le _

/-- A text waits for the next handshake; a full queue loses its oldest one. -/
theorem queueText {text : Text} {rest : List Text}
    (h : Texts.Balanced { w.texts with posted := text :: rest } submitted)
    (hposted : w.texts.posted = rest) (hbounded : w.session.pendingTexts.length ≤ maxPendingTexts)
    (hopen : ¬w.Open) : TextsKept submitted (w.queueText text) := by
  have hposted' : w.texts = { w.texts with posted := rest } := by rw [← hposted]
  unfold World.queueText
  split
  · rename_i hfull
    refine ⟨?_, ?_, fun hv => absurd hv hopen⟩
    · cases hpending : w.session.pendingTexts with
      | nil =>
          rw [hpending] at hfull
          exact absurd hfull (by simp [maxPendingTexts])
      | cons oldest newer =>
          have hdrop : Texts.Balanced
              { w.texts with
                posted := text :: rest
                pending := newer
                dropped := w.texts.dropped + 1 } submitted := by
            have hcons : Texts.Balanced
                { w.texts with posted := text :: rest, pending := oldest :: newer } submitted := by
              rw [← hpending]
              exact h
            exact hcons.drop (t := { w.texts with posted := text :: rest })
          have hqueue := hdrop.queue
            (t := { w.texts with pending := newer, dropped := w.texts.dropped + 1 })
          show Texts.Balanced
            { w.texts with
              pending := (oldest :: newer).drop 1 ++ [text]
              dropped := w.texts.dropped + 1 } submitted
          rw [hposted']
          exact hqueue
    · show (w.session.pendingTexts.drop 1 ++ [text]).length ≤ maxPendingTexts
      rw [List.length_append, List.length_drop, List.length_singleton]
      unfold maxPendingTexts at hfull hbounded ⊢
      omega
  · rename_i hroom
    refine ⟨?_, ?_, fun hv => absurd hv hopen⟩
    · show Texts.Balanced { w.texts with pending := w.session.pendingTexts ++ [text] } submitted
      rw [hposted']
      exact h.queue
    · show (w.session.pendingTexts ++ [text]).length ≤ maxPendingTexts
      rw [List.length_append, List.length_singleton]
      omega

/-- The text at the head of the shard's queue is delivered. -/
theorem deliver {text : Text} {tasks : List Task} (h : TextsKept submitted w)
    (hposted : w.port.posted = .deliverText text :: tasks) :
    TextsKept submitted ((w.takeTask 0).deliverText env text) := by
  have htasks : (w.takeTask 0).texts = { w.texts with posted := tasks.filterMap postedText } := by
    show { w.texts with posted := (w.port.posted.eraseIdx 0).filterMap postedText } = _
    rw [hposted]
    rfl
  have hbalanced : Texts.Balanced
      { (w.takeTask 0).texts with posted := text :: (w.takeTask 0).texts.posted } submitted := by
    have hbefore := h.balanced
    rw [htasks]
    unfold texts at hbefore ⊢
    rw [hposted] at hbefore
    exact hbefore
  have hqueue : ¬w.Open → TextsKept submitted ((w.takeTask 0).queueText text) :=
    fun hopen => queueText hbalanced rfl h.bounded hopen
  -- outside the live states the text is refused where it stands
  have hrefuse : ¬w.Open → TextsKept submitted
      { w.takeTask 0 with
        session.pendingTextsDropped := (w.takeTask 0).session.pendingTextsDropped + 1 } :=
    fun hopen => ⟨hbalanced.refuse, h.bounded, fun hv => absurd hv hopen⟩
  unfold deliverText
  split
  · rename_i hactive
    split
    · rename_i c hconn
      have hopen : w.Open := ⟨hactive, by rw [show w.session.connection = some c from hconn]; simp⟩
      have hpending : (w.takeTask 0).texts.pending = [] := h.flushed hopen
      have hfirst : Texts.Balanced { (w.takeTask 0).texts with pending := [text] } submitted := by
        have hqueued := hbalanced.queue
        rw [hpending] at hqueued
        exact hqueued
      have hkept : ((w.takeTask 0).sendOrDrop env c text).session.pendingTexts = [] := by
        rcases sendOrDrop_writes env (w.takeTask 0) c text with ⟨_, hwrites⟩
        rw [hwrites]
        exact hpending
      refine ⟨?_, by rw [hkept]; exact Nat.zero_le _, fun _ => hkept⟩
      rcases texts_sendOrDrop env (w.takeTask 0) c text with haccepted | hdropped
      · have haccept := hfirst.accept c
        rw [← hpending] at haccept
        rw [haccepted]
        exact haccept
      · have hdrop := hfirst.drop
        rw [← hpending] at hdrop
        rw [hdropped]
        exact hdrop
    · rename_i hconn
      exact hqueue fun hopen => hopen.2 hconn
  all_goals
    rename_i hstate
    have hopen : ¬w.Open := fun hopen => by
      have hactive : (w.takeTask 0).session.state = .active := hopen.1
      rw [hstate] at hactive
      cases hactive
    first
      | exact hqueue hopen
      | exact hrefuse hopen

/-- A session that is not active may be given a connection. -/
theorem adopt (h : TextsKept submitted w) (hstate : w.session.state ≠ .active) :
    TextsKept submitted w.adopt :=
  ⟨h.balanced, h.bounded, fun hopen => absurd hopen.1 hstate⟩

theorem applyModify (h : TextsKept submitted w) (endpoint : Endpoint) :
    TextsKept submitted (w.applyModify env endpoint) := by
  unfold World.applyModify
  split
  · rcases leave_writes env
      { w with session.params.endpoint := endpoint, session.endpointChanged := true } with
      ⟨_, offers, -, hoffers, hwrites⟩
    rw [hwrites]
    refine ⟨?_, h.bounded, fun hopen => absurd rfl hopen.2⟩
    have hbyes : ∀ o ∈ offers, ∀ text, o.frame ≠ .text text := by
      intro o ho text
      simp [(hoffers o ho).2]
    have hsame := texts_offers w hbyes
    have hbalanced := h.balanced
    rw [← hsame] at hbalanced
    exact hbalanced
  · exact h

theorem noteClosed (h : TextsKept submitted w) (connectFailed : Bool) :
    TextsKept submitted (w.noteClosed env connectFailed) := by
  rcases noteClosed_writes env w connectFailed with ⟨_, _, _, -, hwrites⟩
  rw [hwrites]
  exact ⟨h.balanced, h.bounded, fun hopen => absurd rfl hopen.2⟩

theorem pushAudio (h : TextsKept submitted w) (pcm : List β) :
    TextsKept submitted (w.pushAudio pcm) := by
  rcases pushAudio_writes w pcm with ⟨_, _, _, _, _, hwrites⟩
  rw [hwrites]
  exact ⟨h.balanced, h.bounded, h.flushed⟩

theorem submit (h : TextsKept submitted w) (text : Text) :
    TextsKept (submitted ++ [text]) (w.post (.deliverText text)) := by
  refine ⟨?_, h.bounded, h.flushed⟩
  have hposted : (w.post (.deliverText text)).texts =
      { w.texts with posted := w.texts.posted ++ [text] } := by
    simp [texts, post, postedText]
  rw [hposted]
  exact h.balanced.submit text

end TextsKept

end World

/-! ## Runs -/

/-- The text of a `SendText` or `SendDtmf` that returns true. -/
def submits (env : Env β) (w : World β S) : Step β → Option Text
  | .sendText text => if w.session.state.live then some text else none
  | .sendDtmf digit durationMs =>
      match encodeDtmf env.json digit durationMs with
      | none => none
      | some text => if w.session.state.live then some text else none
  | _ => none

/-- The shard runs its tasks in the order in which they were posted. -/
def fifo : Step β → Bool
  | .runPosted i => decide (i = 0)
  | _ => true

/-- A session together with the texts it has taken so far. -/
structure Logged (β : Type) (S : ℕ+) where
  world : World β S
  submitted : List Text

def Logged.step (env : Env β) (l : Logged β S) (s : Step β) : Logged β S :=
  { world := Session.step env l.world s
    submitted := l.submitted ++ (submits env l.world s).toList }

/-- A text is taken exactly when its submission is the occasion of the step. -/
theorem submits_iff {env : Env β} {w : World β S} {s : Step β} {text : Text} :
    submits env w s = some text ↔ occasion env w s = .submit text := by
  constructor
  · intro h
    have hlive : ∀ text', (if w.session.state.live then some text' else none) = some text →
        submission w text' = .submit text := by
      intro text' htext
      unfold submission
      split at htext
      · rename_i hlive
        cases htext
        rw [if_pos hlive]
      · cases htext
    cases s with
    | sendText text' => exact hlive text' h
    | sendDtmf digit durationMs =>
        simp only [submits, occasion] at h ⊢
        cases hdtmf : encodeDtmf env.json digit durationMs with
        | none => simp [hdtmf] at h
        | some text' =>
            rw [hdtmf] at h
            exact hlive text' h
    | _ => cases h
  · intro h
    have harises := occasion_arises env w s
    rw [h] at harises
    rcases harises with ⟨hlive, rfl | ⟨digit, durationMs, rfl, htext⟩⟩
    · simp [submits, hlive]
    · simp [submits, htext, hlive]

theorem textsKept_step {env : Env β} {w : World β S} {submitted : List Text} {s : Step β}
    (h : w.TextsKept submitted) (hstart : s = .start → w.session.state = .connecting)
    (hfifo : fifo s = true) :
    (step env w s).TextsKept (submitted ++ (submits env w s).toList) := by
  have hpreamble : (preamble w s).TextsKept submitted := h.chores (chores_preamble env w s)
  have harises := occasion_arises env w s
  have hnone : (∀ text, occasion env w s ≠ .submit text) →
      submitted ++ (submits env w s).toList = submitted := by
    intro hother
    have hsubmits : submits env w s = none :=
      Option.eq_none_iff_forall_ne_some.mpr fun text htext => hother text (submits_iff.mp htext)
    rw [hsubmits, Option.toList_none, List.append_nil]
  refine World.TextsKept.chores ?_ (chores_step env w s)
  cases hoccasion : occasion env w s with
  | submit text =>
      rw [submits_iff.mpr hoccasion]
      exact hpreamble.submit text
  | none =>
      rw [hnone (by simp [hoccasion])]
      exact hpreamble
  | adopt =>
      rw [hnone (by simp [hoccasion])]
      rw [hoccasion] at harises
      refine hpreamble.adopt ?_
      -- a session dials in `connecting` only
      have hconnecting : (preamble w s).session.state = .connecting := by
        rcases harises with rfl | ⟨rfl, hstate⟩
        · exact hstart rfl
        · simp only [preamble, if_pos hstate]
      rw [hconnecting]
      decide
  | closed connectFailed =>
      rw [hnone (by simp [hoccasion])]
      exact hpreamble.noteClosed connectFailed
  | greet c hello =>
      rw [hnone (by simp [hoccasion])]
      exact hpreamble.greet c hello
  | modify endpoint =>
      rw [hnone (by simp [hoccasion])]
      exact hpreamble.applyModify endpoint
  | deliver i text =>
      rw [hnone (by simp [hoccasion])]
      rw [hoccasion] at harises
      rcases harises with ⟨rfl, htask⟩
      obtain rfl : i = 0 := by simpa [fifo] using hfifo
      have hsame : preamble w (.runPosted 0) = w := by simp only [preamble, htask]
      rw [hsame]
      cases hposted : w.port.posted with
      | nil => simp [hposted] at htask
      | cons task tasks =>
          obtain rfl : task = .deliverText text := by simpa [hposted] using htask
          exact h.deliver hposted
  | push pcm =>
      rw [hnone (by simp [hoccasion])]
      exact hpreamble.pushAudio pcm

/-! ## What became of each text -/

/-- Where a text is that was not dropped. -/
inductive Place
  | accepted (conn : Nat)
  | pending
  | posted
  deriving DecidableEq, Repr

/-- The connection of a text that was accepted. -/
def acceptedAt : Place × Text → Option (Nat × Text)
  | (.accepted c, text) => some (c, text)
  | _ => none

/-- A text that is at one of the other places. -/
def textAt (place : Place) (e : Place × Text) : Option Text :=
  if e.1 = place then some e.2 else none

/-- Every submitted text is at one place or was dropped, and this accounts, in the order of
submission, for the accepted text frames, the pending queue and the posted tasks, and for the
counter. -/
structure Accounted (w : World β S) (submitted : List Text) (places : List (Option Place)) :
    Prop where
  each : places.length = submitted.length
  accepted : (labelled places submitted).filterMap acceptedAt = w.port.wire.filterMap acceptedText
  pending : (labelled places submitted).filterMap (textAt .pending) = w.session.pendingTexts
  posted :
    (labelled places submitted).filterMap (textAt .posted) = w.port.posted.filterMap postedText
  dropped : places.countP Option.isNone = w.session.pendingTextsDropped

theorem accounted_of_balanced {w : World β S} {submitted : List Text}
    (h : w.texts.Balanced submitted) : ∃ places, Accounted w submitted places := by
  let accepted := w.texts.accepted.map fun e => (Place.accepted e.1, e.2)
  let pending := w.texts.pending.map fun text => (Place.pending, text)
  let posted := w.texts.posted.map fun text => (Place.posted, text)
  have hparts : (accepted ++ (pending ++ posted)).map Prod.snd =
      w.texts.accepted.map Prod.snd ++ (w.texts.pending ++ w.texts.posted) := by
    simp [accepted, pending, posted, Function.comp_def]
  have hsublist : List.Sublist ((accepted ++ (pending ++ posted)).map Prod.snd) submitted := by
    rw [hparts]
    exact h.1
  rcases exists_labels hsublist with ⟨places, hlength, hplaces, hcount⟩
  refine ⟨places, hlength, ?_, ?_, ?_, ?_⟩
  · rw [hplaces]
    simp [accepted, pending, posted, acceptedAt, Function.comp_def, World.texts]
  · rw [hplaces]
    simp [accepted, pending, posted, textAt, Function.comp_def, World.texts]
  · rw [hplaces]
    simp [accepted, pending, posted, textAt, Function.comp_def, World.texts]
  · -- what has no place is what the counter counts
    have htotal := h.2
    simp only [accepted, pending, posted, List.length_append, List.length_map] at hcount htotal
    show _ = w.texts.dropped
    omega

/-- In a run with a FIFO shard every text that was taken is accounted for, the pending queue is
bounded, and it is empty while the session is active with a connection. -/
theorem texts_never_lost_silently {env : Env β} {params : ForkParams} {tuning : Tuning}
    {onFinished : Bool} {supply : SlabSupply} {w₀ : World β S} {l : Logged β S}
    (hcreate : World.create params tuning onFinished supply = some w₀)
    (hrun : Run (Logged.step env) (fun l s => contract l.world s = true ∧ fifo s = true)
      { world := w₀, submitted := [] } l) :
    (∃ places, Accounted l.world l.submitted places) ∧
      l.world.session.pendingTexts.length ≤ World.maxPendingTexts ∧
      (l.world.session.state = .active → l.world.session.connection ≠ none →
        l.world.session.pendingTexts = []) := by
  have hworld : ∀ a, Run (Logged.step env) (fun l s => contract l.world s = true ∧ fifo s = true)
      { world := w₀, submitted := [] } a → a.world.lifecycle.Reachable onFinished := by
    intro a ha
    have hsteps : Run (step env) (fun w s => contract w s = true) w₀ a.world :=
      ha.simulates Logged.world (fun _ s => s) (fun _ _ => rfl) fun _ _ hguard => hguard.1
    exact reachable_of_run hcreate hsteps
  have hkept : l.world.TextsKept l.submitted := by
    refine hrun.invariant_with (I := fun l => l.world.TextsKept l.submitted) hworld ?_ ?_
    · rcases World.create_spec hcreate with ⟨ring, path, rate, channels, -, -, -, rfl⟩
      exact ⟨⟨List.Sublist.refl _, rfl⟩, Nat.zero_le _, fun _ => rfl⟩
    · intro a s hreachable ha hguard
      refine textsKept_step ha ?_ hguard.2
      rintro rfl
      exact (connecting_of_reachable hreachable hguard.1).1
  exact ⟨accounted_of_balanced hkept.balanced, hkept.bounded,
    fun hactive hconn => hkept.flushed ⟨hactive, hconn⟩⟩

/-- One text waits for the handshake and is flushed, the next is sent at once, a third is still
posted. -/
theorem texts_never_lost_silently_sample :
    let l := exec (Logged.step Sample.env) { world := Sample.fork, submitted := [] }
      [.sendText (ascii "a"), .start, .runPosted 0, .onConnected 0, .sendText (ascii "b"),
        .runPosted 0, .sendText (ascii "c")]
    l.submitted = [ascii "a", ascii "b", ascii "c"] ∧
      l.world.port.wire.filterMap acceptedText = [(0, ascii "a"), (0, ascii "b")] ∧
      (∃ places, Accounted l.world l.submitted places) ∧
      l.world.session.pendingTexts.length ≤ World.maxPendingTexts ∧
      (l.world.session.state = .active → l.world.session.connection ≠ none →
        l.world.session.pendingTexts = []) :=
  ⟨by decide +kernel, by decide +kernel,
    texts_never_lost_silently Sample.create_fork (Run.of_exec (by decide +kernel))⟩

end Session
end AudioFork
