import Mathlib.Data.List.Induction
import AudioFork.Lib.KeyedTrace
import AudioFork.Session.Liveness

/-!
# WireOrder — what a server sees, frame by frame

On every connection the frames that were accepted follow one protocol: a hello, at most one resume,
any mix of audio and texts, at most one bye.  `Phase.next` is its automaton, run per connection over
the one log of offers (`wirePhase`).

A session keeps to it as long as two branches are not taken: an `OnConnected` whose hello has no
encoding drains a connection that was never greeted, and a modify in `reconnecting` says bye to the
connection whose hello was refused.
-/

namespace AudioFork
namespace Session

open Lib Buffers Protocol

variable {β : Type} {S : ℕ+}

inductive FrameKind
  | hello
  | resume
  | audio
  | text
  | bye
  deriving DecidableEq, Repr

def kindOf : Frame β → FrameKind
  | .hello _ => .hello
  | .resume _ => .resume
  | .audio _ => .audio
  | .text _ => .text
  | .bye _ => .bye

/-- The accepted frames, in time order, with their connections. -/
def accepted (wire : List (Offer β)) : List (Nat × FrameKind) :=
  wire.filterMap fun o => if o.accepted then some (o.conn, kindOf o.frame) else none

/-- The kinds of the frames that connection `c` accepted. -/
def acceptedOn (wire : List (Offer β)) (c : Nat) : List FrameKind := project (accepted wire) c

/-! ## The protocol -/

/-- Hello, at most one resume, audio and texts, at most one bye; or nothing yet. -/
def WellOrdered (kinds : List FrameKind) : Prop :=
  kinds = [] ∨ ∃ resume body bye, kinds = .hello :: (resume ++ body ++ bye) ∧
    (resume = [] ∨ resume = [.resume]) ∧ (∀ k ∈ body, k = .audio ∨ k = .text) ∧
    (bye = [] ∨ bye = [.bye])

/-- How far a connection has come. -/
inductive Phase
  | silent
  | greeted
  | streaming
  | parted
  deriving DecidableEq, Repr

namespace Phase

def next : Phase → FrameKind → Option Phase
  | .silent, .hello => some .greeted
  | .greeted, .resume => some .streaming
  | .greeted, .audio => some .streaming
  | .greeted, .text => some .streaming
  | .greeted, .bye => some .parted
  | .streaming, .audio => some .streaming
  | .streaming, .text => some .streaming
  | .streaming, .bye => some .parted
  | _, _ => none

/-- The phases in which audio and texts may follow. -/
def Open (p : Phase) : Prop := p = .greeted ∨ p = .streaming

theorem Open.next_bye {p : Phase} (h : p.Open) : p.next .bye = some .parted := by
  rcases h with rfl | rfl <;> rfl

/-- The frames that lead to a phase. -/
def Trace : Phase → List FrameKind → Prop
  | .silent, kinds => kinds = []
  | .greeted, kinds => kinds = [.hello]
  | .streaming, kinds => ∃ resume body, kinds = .hello :: (resume ++ body) ∧
      (resume = [] ∨ resume = [.resume]) ∧ ∀ k ∈ body, k = .audio ∨ k = .text
  | .parted, kinds => ∃ resume body, kinds = .hello :: (resume ++ body ++ [.bye]) ∧
      (resume = [] ∨ resume = [.resume]) ∧ ∀ k ∈ body, k = .audio ∨ k = .text

theorem Trace.next {p q : Phase} {kinds : List FrameKind} {k : FrameKind} (h : p.Trace kinds)
    (hnext : p.next k = some q) : q.Trace (kinds ++ [k]) := by
  cases p with
  | silent =>
      cases k <;> cases hnext
      rw [show kinds = [] from h]
      rfl
  | greeted =>
      have hkinds : kinds = [.hello] := h
      subst hkinds
      cases k <;> cases hnext
      · exact ⟨[.resume], [], rfl, Or.inr rfl, by simp⟩
      · exact ⟨[], [.audio], rfl, Or.inl rfl, by simp⟩
      · exact ⟨[], [.text], rfl, Or.inl rfl, by simp⟩
      · exact ⟨[], [], rfl, Or.inl rfl, by simp⟩
  | streaming =>
      rcases h with ⟨resume, body, rfl, hresume, hbody⟩
      cases k <;> cases hnext
      · refine ⟨resume, body ++ [.audio], by simp, hresume, ?_⟩
        intro k hk
        rcases List.mem_append.mp hk with hk | hk
        · exact hbody k hk
        · exact Or.inl (List.mem_singleton.mp hk)
      · refine ⟨resume, body ++ [.text], by simp, hresume, ?_⟩
        intro k hk
        rcases List.mem_append.mp hk with hk | hk
        · exact hbody k hk
        · exact Or.inr (List.mem_singleton.mp hk)
      · exact ⟨resume, body, by simp, hresume, hbody⟩
  -- nothing may follow a bye
  | parted => cases k <;> cases hnext

theorem Trace.wellOrdered {p : Phase} {kinds : List FrameKind} (h : p.Trace kinds) :
    WellOrdered kinds := by
  cases p with
  | silent => exact Or.inl h
  | greeted =>
      have hkinds : kinds = [.hello] := h
      exact Or.inr ⟨[], [], [], hkinds, Or.inl rfl, by simp, Or.inl rfl⟩
  | streaming =>
      rcases h with ⟨resume, body, rfl, hresume, hbody⟩
      exact Or.inr ⟨resume, body, [], by simp, hresume, hbody, Or.inl rfl⟩
  | parted =>
      rcases h with ⟨resume, body, rfl, hresume, hbody⟩
      exact Or.inr ⟨resume, body, [.bye], rfl, hresume, hbody, Or.inr rfl⟩

/-- The automaton accepts only well ordered frames. -/
theorem trace_of_run {kinds : List FrameKind} {p : Phase}
    (h : kinds.foldlM next .silent = some p) : p.Trace kinds := by
  induction kinds using List.reverseRecOn generalizing p with
  | nil =>
      cases h
      rfl
  | append_singleton kinds k ih =>
      rw [List.foldlM_append] at h
      cases hkinds : kinds.foldlM next .silent with
      | none => simp [hkinds] at h
      | some q =>
          have hnext : q.next k = some p := by simpa [hkinds] using h
          exact (ih hkinds).next hnext

end Phase

/-- The phase of connection `c`. -/
def wirePhase (wire : List (Offer β)) (c : Nat) : Option Phase :=
  phase Phase.next .silent (accepted wire) c

theorem wellOrdered_of_wirePhase {wire : List (Offer β)} {c : Nat} {p : Phase}
    (h : wirePhase wire c = some p) : WellOrdered (acceptedOn wire c) :=
  (Phase.trace_of_run h).wellOrdered

/-! ## Offers -/

theorem accepted_append (wire offers : List (Offer β)) :
    accepted (wire ++ offers) = accepted wire ++ accepted offers := by
  simp [accepted]

/-- An offer of a frame, with its answer. -/
theorem accepted_offer (c : Nat) (f : Frame β) (ok : Bool) :
    accepted [{ conn := c, frame := f, accepted := ok }] =
      if ok then [(c, kindOf f)] else [] := by
  cases ok <;> simp [accepted]

theorem mem_accepted {offers : List (Offer β)} {e : Nat × FrameKind} (h : e ∈ accepted offers) :
    ∃ o ∈ offers, e = (o.conn, kindOf o.frame) := by
  rcases List.mem_filterMap.mp h with ⟨o, ho, hsome⟩
  refine ⟨o, ho, ?_⟩
  split at hsome
  · exact (Option.some.inj hsome).symm
  · cases hsome

theorem wirePhase_other {wire offers : List (Offer β)} {c : Nat}
    (h : ∀ o ∈ offers, o.conn ≠ c) : wirePhase (wire ++ offers) c = wirePhase wire c := by
  unfold wirePhase
  rw [accepted_append]
  refine phase_append_other ?_
  intro e he
  rcases mem_accepted he with ⟨o, ho, rfl⟩
  exact h o ho

theorem wirePhase_refused {wire : List (Offer β)} {f : Frame β} (a c : Nat) :
    wirePhase (wire ++ [{ conn := a, frame := f, accepted := false }]) c = wirePhase wire c := by
  unfold wirePhase
  rw [accepted_append, accepted_offer]
  simp

theorem wirePhase_accepted {wire : List (Offer β)} {f : Frame β} (c : Nat) :
    wirePhase (wire ++ [{ conn := c, frame := f, accepted := true }]) c =
      (wirePhase wire c).bind fun p => p.next (kindOf f) := by
  unfold wirePhase
  rw [accepted_append, accepted_offer]
  exact phase_append_one _

/-- Audio and texts keep an open connection open. -/
theorem wirePhase_stream {wire offers : List (Offer β)} {c : Nat}
    (hkinds : ∀ o ∈ offers, kindOf o.frame = .audio ∨ kindOf o.frame = .text)
    (h : ∃ p, wirePhase wire c = some p ∧ p.Open) :
    ∃ p, wirePhase (wire ++ offers) c = some p ∧ p.Open := by
  unfold wirePhase
  rw [accepted_append]
  refine phase_append_within ?_ h
  intro p hp e he _
  rcases mem_accepted he with ⟨o, ho, rfl⟩
  refine ⟨.streaming, ?_, Or.inr rfl⟩
  rcases hp with rfl | rfl <;> rcases hkinds o ho with hk | hk <;> rw [hk] <;> rfl

/-! ## What the state of a session says about the wire -/

structure WireOk (l : Lifecycle) (wire : List (Offer β)) (byeSent : Bool) : Prop where
  /-- A connection that does not exist yet was sent nothing. -/
  unsent : ∀ c, l.conns.length ≤ c → wirePhase wire c = some .silent
  ordered : ∀ c, ∃ p, wirePhase wire c = some p
  held : ∀ c, l.connection = some c → c < l.conns.length
  waiting : l.state = .connecting → ∀ c, l.connection = some c →
    wirePhase wire c = some .silent ∧ isConnected l.conns c = false
  lost : l.state = .reconnecting → ∀ c, l.connection = some c → wirePhase wire c = some .silent
  greeted : l.state = .active ∨ l.state = .draining → ∀ c, l.connection = some c →
    ∃ p, wirePhase wire c = some p ∧ p.Open
  noBye : l.state ≠ .closing → l.state ≠ .dead → byeSent = false

namespace WireOk

variable {l l' : Lifecycle} {wire : List (Offer β)} {byeSent : Bool}

/-- A session without a connection owes the wire nothing. -/
theorem detached (h : WireOk l wire byeSent) (hlen : l'.conns.length = l.conns.length)
    (hconn : l'.connection = none)
    (hbye : l'.state ≠ .closing → l'.state ≠ .dead → byeSent = false) :
    WireOk l' wire byeSent where
  unsent := by
    intro c hc
    exact h.unsent c (hlen ▸ hc)
  ordered := h.ordered
  held := by simp [hconn]
  waiting := by simp [hconn]
  lost := by simp [hconn]
  greeted := by simp [hconn]
  noBye := hbye

/-- A session that is closing, or dead, sends nothing any more. -/
theorem finished (h : WireOk l wire byeSent) (hlen : l'.conns.length = l.conns.length)
    (hheld : ∀ c, l'.connection = some c → l.connection = some c)
    (hstate : l'.state = .closing ∨ l'.state = .dead) (byeSent' : Bool) :
    WireOk l' wire byeSent' where
  unsent := by
    intro c hc
    exact h.unsent c (hlen ▸ hc)
  ordered := h.ordered
  held := by
    intro c hc
    rw [hlen]
    exact h.held c (hheld c hc)
  waiting := by
    rcases hstate with hstate | hstate <;> simp [hstate]
  lost := by
    rcases hstate with hstate | hstate <;> simp [hstate]
  greeted := by
    rcases hstate with hstate | hstate <;> simp [hstate]
  noBye := by
    rcases hstate with hstate | hstate <;> simp [hstate]

theorem retire (h : WireOk l wire byeSent) (byeSent' : Bool) : WireOk l.retire wire byeSent' := by
  refine h.finished ?_ ?_ (Or.inr rfl) byeSent'
  · rfl
  · simp [Lifecycle.retire]

theorem hangUp (h : WireOk l wire byeSent) (byeSent' : Bool) : WireOk l.hangUp wire byeSent' := by
  unfold Lifecycle.hangUp
  cases hconn : l.connection with
  | none => exact h.retire byeSent'
  | some c =>
      refine h.finished ?_ ?_ (Or.inl rfl) byeSent'
      · simp [Lifecycle.close]
      · exact fun _ ha => ha

theorem abandonSocket (h : WireOk l wire byeSent) : WireOk l.abandonSocket wire byeSent := by
  unfold Lifecycle.abandonSocket
  split
  · exact h
  · exact h.detached (by simp [Lifecycle.close]) rfl h.noBye

/-- Losing the connection that was just forgotten. -/
theorem lose (h : WireOk l wire byeSent) (hconn : l.connection = none) :
    WireOk l.lose wire byeSent := by
  unfold Lifecycle.lose
  split <;> rename_i hstate
  · exact h.detached rfl hconn fun _ _ => h.noBye (by simp [hstate]) (by simp [hstate])
  · exact h.detached rfl hconn fun _ _ => h.noBye (by simp [hstate]) (by simp [hstate])
  · exact h.hangUp byeSent
  · exact h.retire byeSent
  · exact h
  · exact h

/-- A new connection starts silent, whatever became of the one before. -/
theorem connect (h : WireOk l wire false) (hconns : l'.conns = l.conns)
    (hstate : l'.state = .connecting) (answer : ConnectAnswer) (endpoint : Endpoint)
    (maxQueuedBytes : Nat) :
    WireOk (l'.connect answer endpoint maxQueuedBytes) wire false := by
  have hforgotten : WireOk { l' with connection := none } wire false :=
    h.detached (congrArg List.length hconns) rfl fun _ _ => rfl
  unfold Lifecycle.connect
  cases answer with
  | null => exact hforgotten.lose rfl
  | closedThenNull connectFailed =>
      -- `OnClosed` was delivered inside `Connect`, which then returned null: two losses in a row
      have hlost := hforgotten.lose rfl
      refine lose ?_ rfl
      exact hlost.detached rfl rfl fun _ _ => rfl
  | returned =>
      exact
        { unsent := by
            intro c hc
            refine h.unsent c ?_
            have hlen : l'.conns.length + 1 ≤ c := by simpa using hc
            rw [← hconns]
            omega
          ordered := h.ordered
          held := by
            intro c hc
            cases hc
            simp
          waiting := by
            intro _ c hc
            cases hc
            refine ⟨h.unsent _ (Nat.le_of_eq (congrArg List.length hconns).symm), ?_⟩
            simp [isConnected]
          lost := by simp [hstate]
          greeted := by simp [hstate]
          noBye := fun _ _ => rfl }

/-- Audio and texts on the current connection. -/
theorem stream (h : WireOk l wire byeSent) (hstate : l.state = .active ∨ l.state = .draining)
    {offers : List (Offer β)} (hconn : ∀ o ∈ offers, l.connection = some o.conn)
    (hkinds : ∀ o ∈ offers, kindOf o.frame = .audio ∨ kindOf o.frame = .text) :
    WireOk l (wire ++ offers) byeSent := by
  -- the offers all go to the current connection, so no other one moves
  have hother : ∀ c, l.connection ≠ some c → wirePhase (wire ++ offers) c = wirePhase wire c := by
    intro c hc
    refine wirePhase_other ?_
    intro o ho heq
    exact hc (heq ▸ hconn o ho)
  have hopen : ∀ c, l.connection = some c →
      ∃ p, wirePhase (wire ++ offers) c = some p ∧ p.Open :=
    fun c hc => wirePhase_stream hkinds (h.greeted hstate c hc)
  exact
    { unsent := by
        intro c hc
        rw [hother c]
        · exact h.unsent c hc
        · intro hcurrent
          exact absurd (h.held c hcurrent) (Nat.not_lt.mpr hc)
      ordered := by
        intro c
        by_cases hc : l.connection = some c
        · rcases hopen c hc with ⟨p, hp, _⟩
          exact ⟨p, hp⟩
        · rw [hother c hc]
          exact h.ordered c
      held := h.held
      waiting := by
        rcases hstate with hstate | hstate <;> simp [hstate]
      lost := by
        rcases hstate with hstate | hstate <;> simp [hstate]
      greeted := fun _ => hopen
      noBye := h.noBye }

/-- A frame that is refused leaves no trace. -/
theorem refused (h : WireOk l wire byeSent) (c : Nat) (f : Frame β) :
    WireOk l (wire ++ [{ conn := c, frame := f, accepted := false }]) byeSent where
  unsent := by
    intro a ha
    rw [wirePhase_refused]
    exact h.unsent a ha
  ordered := by
    intro a
    rw [wirePhase_refused]
    exact h.ordered a
  held := h.held
  waiting := by
    intro hstate a ha
    rw [wirePhase_refused]
    exact h.waiting hstate a ha
  lost := by
    intro hstate a ha
    rw [wirePhase_refused]
    exact h.lost hstate a ha
  greeted := by
    intro hstate a ha
    rw [wirePhase_refused]
    exact h.greeted hstate a ha
  noBye := h.noBye

/-- A frame that takes the current connection to another phase. -/
theorem moved (h : WireOk l wire byeSent) {c : Nat} (hconn : l.connection = some c) {p q : Phase}
    (hp : wirePhase wire c = some p) {f : Frame β} (hnext : p.next (kindOf f) = some q)
    (hlen : l'.conns.length = l.conns.length)
    (hheld : ∀ a, l'.connection = some a → a = c)
    (hpast : l'.state ≠ .connecting ∧ l'.state ≠ .reconnecting)
    (hopen : l'.state = .active ∨ l'.state = .draining → l'.connection = some c → q.Open)
    (byeSent' : Bool) (hbye : l'.state ≠ .closing → l'.state ≠ .dead → byeSent' = false) :
    WireOk l' (wire ++ [{ conn := c, frame := f, accepted := true }]) byeSent' := by
  have hlt : c < l.conns.length := h.held c hconn
  have hq : wirePhase (wire ++ [{ conn := c, frame := f, accepted := true }]) c = some q := by
    rw [wirePhase_accepted, hp]
    exact hnext
  have hother : ∀ a, a ≠ c →
      wirePhase (wire ++ [{ conn := c, frame := f, accepted := true }]) a = wirePhase wire a := by
    intro a ha
    refine wirePhase_other ?_
    intro o ho
    rw [List.mem_singleton.mp ho]
    exact fun heq => ha heq.symm
  exact
    { unsent := by
        intro a ha
        rw [hlen] at ha
        rw [hother a (by omega)]
        exact h.unsent a ha
      ordered := by
        intro a
        by_cases ha : a = c
        · exact ⟨q, ha ▸ hq⟩
        · rw [hother a ha]
          exact h.ordered a
      held := by
        intro a ha
        rw [hlen, hheld a ha]
        exact hlt
      waiting := fun hwaiting => absurd hwaiting hpast.1
      lost := fun hlost => absurd hlost hpast.2
      greeted := by
        intro hstate a ha
        have hac := hheld a ha
        subst hac
        exact ⟨q, hq, hopen hstate ha⟩
      noBye := hbye }

/-- The hello is refused: the connection stays silent, and the session waits to reconnect with it. -/
theorem refusedHello (h : WireOk l wire byeSent) (hstate : l.state = .connecting)
    (hlen : l'.conns.length = l.conns.length) (hconn : l'.connection = l.connection)
    (hstate' : l'.state = .reconnecting) : WireOk l' wire byeSent where
  unsent := by
    intro c hc
    exact h.unsent c (hlen ▸ hc)
  ordered := h.ordered
  held := by
    intro c hc
    rw [hlen]
    exact h.held c (hconn ▸ hc)
  waiting := by simp [hstate']
  lost := by
    intro _ c hc
    exact (h.waiting hstate c (hconn ▸ hc)).1
  greeted := by simp [hstate']
  noBye := fun _ _ => h.noBye (by simp [hstate]) (by simp [hstate])

end WireOk

/-! ## What each function puts on the wire -/

namespace World

/-- The log of offers and the bye flag. -/
def wiring (w : World β S) : List (Offer β) × Bool := (w.port.wire, w.session.byeSent)

variable (env : Env β) (w : World β S)

theorem wiring_pumpPlayback : w.pumpPlayback.wiring = w.wiring := by
  rcases pumpPlayback_local w with ⟨_, _, _, _, hwrites⟩
  rw [hwrites]
  rfl

theorem wiring_moveAudio : (w.moveAudio env).wiring = w.wiring := by
  unfold moveAudio
  rw [wiring_pumpPlayback]
  rfl

theorem wiring_finalize : w.finalize.wiring = w.wiring := by
  rcases finalize_writes w with ⟨supply, events, -, hwrites⟩
  rw [hwrites]
  rfl

theorem wiring_hangUp : w.hangUp.wiring = w.wiring := by
  unfold hangUp
  split
  · exact wiring_finalize _
  · rfl

theorem wiring_lose : w.lose.wiring = w.wiring := by
  unfold lose
  split
  · rfl
  · rfl
  · exact wiring_hangUp w
  · exact wiring_finalize _
  · rfl
  · rfl

theorem wiring_noteClosed (connectFailed : Bool) :
    (w.noteClosed env connectFailed).wiring = w.wiring := by
  rcases noteClosed_writes env w connectFailed with ⟨since, clockReads, events, -, hwrites⟩
  rw [hwrites]
  rfl

theorem wiring_noteRefused : w.noteRefused.wiring = w.wiring := by
  rcases noteRefused_writes w with ⟨events, -, hwrites⟩
  rw [hwrites]
  rfl

theorem wiring_connect : (w.connect env).wiring = w.wiring := by
  unfold connect
  cases env.connect w.port.connects with
  | returned => rfl
  | null =>
      simp only
      rw [wiring_lose, wiring_noteRefused]
      rfl
  | closedThenNull connectFailed =>
      simp only
      rw [wiring_lose, wiring_noteRefused, wiring_lose, wiring_noteClosed]
      rfl

theorem wiring_abandonSocket : w.abandonSocket.wiring = w.wiring := by
  rcases abandonSocket_writes w with ⟨_, -, hwrites⟩
  rw [hwrites]
  rfl

theorem wiring_unsupported (detail : Text) : (w.unsupported detail).wiring = w.wiring := by
  rcases unsupported_writes w detail with ⟨events, -, hwrites⟩
  rw [hwrites]
  rfl

theorem wiring_handleClear (path : PlaybackPath β S) : (w.handleClear path).wiring = w.wiring := by
  rcases handleClear_writes w path with ⟨paused, pauses, hwrites⟩
  rw [hwrites]
  rfl

theorem wiring_playbackControl {control : PlaybackPath β S → World β S → World β S}
    (h : ∀ path, (control path w).wiring = w.wiring) :
    (w.playbackControl control).wiring = w.wiring := by
  unfold playbackControl
  split
  · exact wiring_unsupported w _
  · exact h _

theorem wiring_onBinary (bytes : List β) : (w.onBinary env bytes).wiring = w.wiring := by
  unfold onBinary
  split
  · rfl
  · split
    · exact wiring_unsupported w _
    · rename_i path _
      rcases receive_writes env w path bytes with ⟨dropped, started, events, -, hwrites⟩
      rw [wiring_pumpPlayback, hwrites]
      rfl

theorem wire_flushToConnection :
    ∃ offers, (w.flushToConnection env).wiring = (w.port.wire ++ offers, w.session.byeSent) ∧
      ∀ o ∈ offers, w.session.connection = some o.conn ∧ kindOf o.frame = .audio := by
  rcases flushToConnection_writes env w with ⟨_, _, _, _, offers, hoffers, hwrites⟩
  refine ⟨offers, by rw [hwrites]; rfl, ?_⟩
  intro o ho
  rcases hoffers o ho with ⟨hconn, bytes, hframe⟩
  exact ⟨hconn, by rw [hframe]; rfl⟩

variable {w} in
theorem wiring_send {c : Nat} {f : Frame β} {ok : Bool} (h : (w.send env c f).1 = ok) :
    (w.send env c f).2.wiring =
      (w.port.wire ++ [{ conn := c, frame := f, accepted := ok }], w.session.byeSent) := by
  subst h
  rfl

theorem wire_flushPendingTexts :
    ∃ offers, (w.flushPendingTexts env).wiring = (w.port.wire ++ offers, w.session.byeSent) ∧
      ∀ o ∈ offers, w.session.connection = some o.conn ∧ kindOf o.frame = .text := by
  rcases flushPendingTexts_writes env w with ⟨_, offers, hoffers, hwrites⟩
  refine ⟨offers, by rw [hwrites]; rfl, ?_⟩
  intro o ho
  rcases hoffers o ho with ⟨hconn, text, hframe⟩
  exact ⟨hconn, by rw [hframe]; rfl⟩

/-- A resume, or nothing. -/
theorem wire_announce (c : Nat) :
    (w.announce env c).wiring = w.wiring ∨
      ∃ payload ok, (w.announce env c).wiring =
        (w.port.wire ++ [{ conn := c, frame := .resume payload, accepted := ok }],
          w.session.byeSent) := by
  have hsettle : ∀ v : World β S,
      World.wiring { v.settleEndpoint with session.disconnectedAt := none } = v.wiring := by
    intro v
    unfold settleEndpoint
    split <;> rfl
  unfold announce
  simp only
  rw [hsettle]
  split
  · right
    unfold sendResume resumeGap
    cases w.session.disconnectedAt with
    | none => exact ⟨_, _, rfl⟩
    | some since => exact ⟨_, _, rfl⟩
  · exact Or.inl rfl

/-- A drain tick flushes, and then says bye at most once; an accepted bye ends the drain. -/
theorem wire_drainTick (h : w.session.byeSent = false) :
    ((w.drainTick env).2.wiring = (w.flushToConnection env).wiring) ∨
      (∃ c payload, w.session.connection = some c ∧
        (w.drainTick env).2.wiring =
          ((w.flushToConnection env).port.wire ++
            [{ conn := c, frame := .bye payload, accepted := false }], false)) ∨
      ∃ c payload, w.session.connection = some c ∧ (w.drainTick env).1 = true ∧
        (w.drainTick env).2.wiring =
          ((w.flushToConnection env).port.wire ++
            [{ conn := c, frame := .bye payload, accepted := true }], true) := by
  rcases wire_flushToConnection env w with ⟨offers, hflush, -⟩
  have hbye : (w.flushToConnection env).session.byeSent = false :=
    (congrArg Prod.snd hflush).trans h
  have hconn : (w.flushToConnection env).session.connection = w.session.connection :=
    congrArg Lifecycle.connection (lifecycle_flushToConnection env w)
  rw [← hconn]
  unfold drainTick
  simp only
  generalize w.flushToConnection env = v at hbye
  -- reading the clock touches neither the wire nor the bye flag
  rcases drainExpired_writes env v with ⟨n, hv⟩
  rw [hv]
  unfold sayBye
  simp only
  cases hc : v.session.connection with
  | none => exact Or.inl rfl
  | some c =>
      simp only
      split
      · rename_i hdrained
        right
        unfold send
        simp only
        generalize env.accepts v.port.conns c v.port.wire.length _ = ok
        cases ok with
        | false => exact Or.inl ⟨c, _, rfl, rfl⟩
        | true => exact Or.inr ⟨c, _, rfl, by simp [hdrained.1], rfl⟩
      · exact Or.inl rfl

end World

/-! ## Steps -/

/-- The wire is in the order that the state of the session promises. -/
def World.WireOk (w : World β S) : Prop :=
  Session.WireOk w.lifecycle w.port.wire w.session.byeSent

/-- A connection refuses frames before its `OnConnected` and after `Close`. -/
def Polite (env : Env β) : Prop :=
  ∀ n k f, env.accept n k f = true → k.connected = true ∧ k.closeCalled = false

theorem Polite.connected {env : Env β} (h : Polite env) {conns : List Conn} {c n : Nat}
    {f : Frame β} (haccepts : env.accepts conns c n f = true) : isConnected conns c = true := by
  unfold Env.accepts at haccepts
  cases hk : conns[c]? with
  | none => simp [hk] at haccepts
  | some k =>
      rw [hk] at haccepts
      simp [isConnected, hk, (h n k f haccepts).1]

namespace World

variable {env : Env β} {w v : World β S}

/-- The invariant sees a world only through its lifecycle and its wiring. -/
theorem WireOk.of_views {l : Lifecycle} {wire : List (Offer β)} {byeSent : Bool}
    (h : Session.WireOk l wire byeSent) (hl : w.lifecycle = l) (hw : w.wiring = (wire, byeSent)) :
    w.WireOk := by
  have hwire : w.port.wire = wire := congrArg Prod.fst hw
  have hbye : w.session.byeSent = byeSent := congrArg Prod.snd hw
  unfold World.WireOk
  rw [hl, hwire, hbye]
  exact h

theorem WireOk.same (h : w.WireOk) (hl : v.lifecycle = w.lifecycle) (hw : v.wiring = w.wiring) :
    v.WireOk :=
  .of_views h hl hw

theorem WireOk.hangUp (h : w.WireOk) : w.hangUp.WireOk :=
  .of_views (Session.WireOk.hangUp h _) (lifecycle_hangUp w) (wiring_hangUp w)

theorem WireOk.retire (h : w.WireOk) : w.retire.WireOk :=
  .of_views (Session.WireOk.retire h _) (lifecycle_retire w) (wiring_finalize _)

/-- `BeginConnect`, in a world `v` that differs from `w` in its state alone. -/
theorem WireOk.connect (h : w.WireOk) (hnoBye : w.session.byeSent = false)
    (hconns : v.port.conns = w.port.conns) (hwiring : v.wiring = w.wiring)
    (hstate : v.session.state = .connecting) : (v.connect env).WireOk := by
  refine .of_views ?_ (lifecycle_connect env v) ((wiring_connect env v).trans hwiring)
  have hok : Session.WireOk w.lifecycle w.port.wire w.session.byeSent := h
  rw [hnoBye] at hok ⊢
  exact hok.connect hconns hstate _ _ _

theorem WireOk.flush (h : w.WireOk)
    (hstate : w.session.state = .active ∨ w.session.state = .draining) :
    (w.flushToConnection env).WireOk := by
  rcases wire_flushToConnection env w with ⟨offers, hwire, hoffers⟩
  refine .of_views ?_ (lifecycle_flushToConnection env w) hwire
  refine Session.WireOk.stream h hstate ?_ ?_
  · exact fun o ho => (hoffers o ho).1
  · exact fun o ho => Or.inl (hoffers o ho).2

theorem WireOk.moveAudio (h : w.WireOk) : (w.moveAudio env).WireOk :=
  h.same (lifecycle_moveAudio env w) (wiring_moveAudio env w)

/-- The bye that ends a drain: the connection has been greeted, and nothing follows. -/
theorem WireOk.parted {wire : List (Offer β)} {byeSent : Bool} {c : Nat}
    (h : Session.WireOk w.lifecycle wire byeSent) (hstate : w.session.state = .draining)
    (hconn : w.session.connection = some c) (payload : Text) :
    Session.WireOk w.lifecycle.hangUp
      (wire ++ [{ conn := c, frame := .bye payload, accepted := true }]) true := by
  rcases h.greeted (Or.inr hstate) c hconn with ⟨p, hp, hopen⟩
  rw [Lifecycle.hangUp_some (l := w.lifecycle) hconn]
  refine h.moved (f := .bye payload) hconn hp hopen.next_bye ?_ ?_ ?_ ?_ true ?_
  · simp [Lifecycle.close]
  · exact fun a ha => Option.some.inj (ha.symm.trans hconn)
  · simp
  · simp
  · simp

theorem WireOk.drainTick (env : Env β) (h : w.WireOk)
    (hstate : w.session.state = .draining) :
    if (w.drainTick env).1 then (w.drainTick env).2.hangUp.WireOk
    else (w.drainTick env).2.WireOk := by
  have hsent : w.session.byeSent = false :=
    h.noBye (by simp [lifecycle, hstate]) (by simp [lifecycle, hstate])
  have hlife : (w.drainTick env).2.lifecycle = w.lifecycle := lifecycle_drainTick env w
  have hflife : (w.flushToConnection env).lifecycle = w.lifecycle :=
    lifecycle_flushToConnection env w
  have hbye : (w.flushToConnection env).session.byeSent = false := by
    rcases wire_flushToConnection env w with ⟨offers, hwire, -⟩
    exact (congrArg Prod.snd hwire).trans hsent
  have hflush : Session.WireOk w.lifecycle (w.flushToConnection env).port.wire false := by
    have hok : (w.flushToConnection env).WireOk := h.flush (Or.inr hstate)
    unfold World.WireOk at hok
    rwa [hflife, hbye] at hok
  -- unless the bye was accepted, hanging up and going on both keep the invariant
  have hboth : (w.drainTick env).2.WireOk →
      if (w.drainTick env).1 then (w.drainTick env).2.hangUp.WireOk
      else (w.drainTick env).2.WireOk := by
    intro htick
    split
    · exact htick.hangUp
    · exact htick
  rcases wire_drainTick env w hsent with hsame | ⟨c, payload, hconn, hwire⟩ |
      ⟨c, payload, hconn, hover, hwire⟩
  · exact hboth (.of_views hflush hlife (hsame.trans (congrArg (Prod.mk _) hbye)))
  · exact hboth (.of_views (hflush.refused c (.bye payload)) hlife hwire)
  · rw [if_pos hover]
    have hview : (w.drainTick env).2.hangUp.lifecycle = w.lifecycle.hangUp := by
      rw [lifecycle_hangUp, hlife]
    exact .of_views (WireOk.parted hflush hstate hconn payload) hview
      ((wiring_hangUp _).trans hwire)

theorem WireOk.pump (h : w.WireOk) : (w.pump env).WireOk := by
  have hmove : (w.moveAudio env).WireOk := h.moveAudio
  have hstate : (w.moveAudio env).session.state = w.session.state :=
    congrArg Lifecycle.state (lifecycle_moveAudio env w)
  rw [pump_eq]
  cases hs : w.session.state with
  | active => exact (hmove.flush (Or.inl (hstate.trans hs))).same rfl rfl
  | draining =>
      have htick := hmove.drainTick env (hstate.trans hs)
      unfold drainOver
      simp only
      split <;> rename_i hover
      · rw [if_pos hover] at htick
        exact htick
      · rw [if_neg hover] at htick
        exact htick
  | _ => exact hmove

theorem WireOk.teardown (h : w.WireOk) : (w.teardown env).WireOk := by
  unfold World.teardown
  cases hs : w.session.state with
  | connecting => exact h.hangUp
  | active =>
      -- the connection was greeted while active, so it may be drained
      have hdrain : (w.startDrain env).WireOk :=
        { unsent := h.unsent
          ordered := h.ordered
          held := h.held
          waiting := by
            intro hstate
            cases hstate
          lost := by
            intro hstate
            cases hstate
          greeted := fun _ => h.greeted (Or.inl hs)
          noBye := fun _ _ => h.noBye (by simp [lifecycle, hs]) (by simp [lifecycle, hs]) }
      show (w.drain env).WireOk
      unfold World.drain
      split
      · exact hdrain.retire
      · exact hdrain.pump
  | reconnecting => exact h.retire
  | draining => exact h
  | closing => exact h
  | dead => exact h

theorem WireOk.deliverText (h : w.WireOk) (text : Text) : (w.deliverText env text).WireOk := by
  rcases deliverText_writes env w text with ⟨_, _, offers, hoffers, hwrites⟩
  cases offers with
  | nil =>
      refine h.same (lifecycle_deliverText env w text) ?_
      rw [hwrites, List.append_nil]
      rfl
  | cons o offers =>
      -- a text goes out in `active` only, where the connection is open
      have hstate : w.session.state = .active := (hoffers o List.mem_cons_self).1
      refine .of_views ?_ (lifecycle_deliverText env w text) (congrArg World.wiring hwrites)
      refine Session.WireOk.stream h (Or.inl hstate) ?_ ?_
      · exact fun a ha => (hoffers a ha).2.1
      · intro a ha
        rcases (hoffers a ha).2.2 with ⟨text, hframe⟩
        exact Or.inr (by rw [hframe]; rfl)

/-- After an accepted hello the connection may get a resume, the pending texts and audio. -/
theorem WireOk.greet (h : w.WireOk) (hstate : w.session.state = .active) {c : Nat}
    (hconn : w.session.connection = some c) (hphase : wirePhase w.port.wire c = some .greeted) :
    (((w.announce env c).flushPendingTexts env).pump env).WireOk := by
  have hannounce : (w.announce env c).WireOk := by
    rcases wire_announce env w c with hsame | ⟨payload, ok, hwire⟩
    · exact h.same (lifecycle_announce env w c) hsame
    · refine .of_views ?_ (lifecycle_announce env w c) hwire
      cases ok with
      | false => exact Session.WireOk.refused h c _
      | true =>
          refine Session.WireOk.moved h hconn hphase (q := .streaming) rfl rfl ?_ ?_ ?_ _ h.noBye
          · exact fun a ha => Option.some.inj (ha.symm.trans hconn)
          · simp [lifecycle, hstate]
          · exact fun _ _ => Or.inr rfl
  have hactive : (w.announce env c).session.state = .active :=
    (congrArg Lifecycle.state (lifecycle_announce env w c)).trans hstate
  have htexts : ((w.announce env c).flushPendingTexts env).WireOk := by
    rcases wire_flushPendingTexts env (w.announce env c) with ⟨offers, hwire, hoffers⟩
    refine .of_views ?_ (lifecycle_flushPendingTexts env _) hwire
    refine Session.WireOk.stream hannounce (Or.inl hactive) ?_ ?_
    · exact fun o ho => (hoffers o ho).1
    · exact fun o ho => Or.inr (hoffers o ho).2
  exact htexts.pump

/-- The handshake, for a session that was `connecting` as `l` a moment ago. -/
theorem WireOk.notifyConnected {l : Lifecycle}
    (h : Session.WireOk l w.port.wire w.session.byeSent) (hl : l.state = .connecting)
    (hlen : w.port.conns.length = l.conns.length) (hsame : l.connection = w.session.connection)
    (hstate : w.session.state = .active)
    (hblind : w.hello env = none → w.session.connection = none) :
    (w.notifyConnected env).WireOk := by
  have hnoBye : w.session.byeSent = false := h.noBye (by simp [hl]) (by simp [hl])
  cases hhello : w.hello env with
  | none =>
      -- there is nothing to drain: the session dies without a word
      rw [notifyConnected_invalid env hhello]
      refine WireOk.teardown ?_
      exact h.detached hlen (hblind hhello) fun _ _ => hnoBye
  | some hello =>
      cases hconn : w.session.connection with
      | none =>
          rw [notifyConnected_unheld env hhello hconn]
          refine .of_views ?_ (lifecycle_lose _) (wiring_lose _)
          rw [lifecycle_emit _ _ (by decide), Lifecycle.lose_active hstate]
          exact h.detached hlen hconn fun _ _ => hnoBye
      | some c =>
          have hsilent := (h.waiting hl c (hsame.trans hconn)).1
          cases hsend : (w.send env c (.hello hello)).1 with
          | false =>
              rw [notifyConnected_refused env hhello hconn hsend]
              have hwire := wiring_send env hsend
              refine .of_views ?_ (lifecycle_lose _) ((wiring_lose _).trans hwire)
              rw [lifecycle_emit _ _ (by decide), lifecycle_send, Lifecycle.lose_active hstate]
              exact (h.refused c (.hello hello)).refusedHello hl hlen hsame.symm rfl
          | true =>
              rw [notifyConnected_greeted env hhello hconn hsend]
              have hwire := wiring_send env hsend
              have hphase : wirePhase (w.send env c (.hello hello)).2.wiring.1 c =
                  some .greeted := by
                rw [hwire, wirePhase_accepted, hsilent]
                rfl
              refine WireOk.greet (w := (w.send env c (.hello hello)).2) ?_ hstate hconn hphase
              refine .of_views ?_ (lifecycle_send env w c _) hwire
              refine h.moved (hsame.trans hconn) hsilent (q := .greeted) rfl hlen ?_ ?_ ?_ _ ?_
              · exact fun a ha => Option.some.inj (ha.symm.trans hconn)
              · simp [lifecycle, hstate]
              · exact fun _ _ => Or.inl rfl
              · exact fun _ _ => hnoBye

theorem WireOk.onConnected (h : w.WireOk) (c : Nat)
    (hblind : w.session.state = .connecting → w.hello env = none → w.session.connection = none) :
    ((w.markConnected c).onConnected env).WireOk := by
  by_cases hstate : w.session.state = .connecting
  · rw [onConnected_connecting env (w := w.markConnected c) hstate]
    refine WireOk.notifyConnected h hstate ?_ rfl rfl (hblind hstate)
    simp [markConnected, lifecycle]
  · rw [onConnected_late env (w := w.markConnected c) hstate]
    refine .of_views ?_ (lifecycle_abandonSocket _) (wiring_abandonSocket _)
    refine Session.WireOk.abandonSocket ?_
    exact
      { unsent := fun a ha => h.unsent a (by simpa [lifecycle, markConnected] using ha)
        ordered := h.ordered
        held := fun a ha => by simpa [lifecycle, markConnected] using h.held a ha
        waiting := fun hconnecting => absurd hconnecting hstate
        lost := h.lost
        greeted := h.greeted
        noBye := h.noBye }

/-- A live session that holds a connection which is up has greeted it, unless it waits to
reconnect. -/
theorem WireOk.active_of_up (h : w.WireOk) (hlive : w.session.state.live = true) {c : Nat}
    (hconn : w.session.connection = some c) (hup : isConnected w.port.conns c = true)
    (hungreeted : w.session.state = .reconnecting → w.session.connection = none) :
    w.session.state = .active := by
  cases hs : w.session.state with
  | active => rfl
  | connecting =>
      have hdown := (h.waiting hs c hconn).2
      rw [show isConnected w.lifecycle.conns c = true from hup] at hdown
      cases hdown
  | reconnecting =>
      rw [hungreeted hs] at hconn
      cases hconn
  | draining =>
      rw [hs] at hlive
      cases hlive
  | closing =>
      rw [hs] at hlive
      cases hlive
  | dead =>
      rw [hs] at hlive
      cases hlive

/-- A modify says bye only to a connection that was greeted, or that cannot hear it yet. -/
theorem WireOk.leave (h : w.WireOk) (hpolite : Polite env) (hlive : w.session.state.live = true)
    (hungreeted : w.session.state = .reconnecting → w.session.connection = none) :
    (w.leave env).WireOk := by
  have hlife : (w.leave env).lifecycle = w.lifecycle.abandonSocket := lifecycle_leave env w
  cases hconn : w.session.connection with
  | none =>
      unfold World.leave
      rw [hconn]
      exact h
  | some c =>
      have hleft : (w.leave env).wiring = (w.send env c (.bye (encodeBye env.json))).2.wiring := by
        unfold World.leave
        rw [hconn]
        rfl
      cases hsend : (w.send env c (.bye (encodeBye env.json))).1 with
      | false =>
          refine .of_views ?_ hlife (hleft.trans (wiring_send env hsend))
          exact (Session.WireOk.refused h c _).abandonSocket
      | true =>
          -- a polite connection that accepts a bye is up
          have hup : isConnected w.port.conns c = true := hpolite.connected hsend
          have hactive : w.session.state = .active := h.active_of_up hlive hconn hup hungreeted
          rcases h.greeted (Or.inl hactive) c hconn with ⟨p, hp, hopen⟩
          refine .of_views ?_ hlife (hleft.trans (wiring_send env hsend))
          rw [Lifecycle.abandonSocket_some (l := w.lifecycle) hconn]
          refine Session.WireOk.moved (f := .bye (encodeBye env.json)) h hconn hp hopen.next_bye ?_ ?_
            ?_ ?_ _ ?_
          · simp [Lifecycle.close]
          · simp
          · simp [Lifecycle.close, lifecycle, hactive]
          · simp
          · exact fun _ _ => h.noBye (by simp [lifecycle, hactive]) (by simp [lifecycle, hactive])

end World

/-- The step is an `OnConnected` in `connecting` that finds a connection but no encoding for the
hello, and so drains a connection that was never greeted. -/
def drainsUngreeted (env : Env β) (w : World β S) : Step β → Bool
  | .onConnected _ =>
      w.session.state = .connecting && w.session.connection.isSome && (w.hello env).isNone
  | _ => false

/-- The step runs a modify in `reconnecting` while a connection, whose hello was refused, is still
held. -/
def partsUngreeted (w : World β S) : Step β → Bool
  | .runPosted i =>
      w.session.state = .reconnecting && w.session.connection.isSome &&
        match w.port.posted[i]? with
        | some (.applyModify _) => true
        | _ => false
  | _ => false

theorem wireOk_runPosted {env : Env β} {w : World β S} (h : w.WireOk) (hpolite : Polite env)
    (i : Nat) (hparts : partsUngreeted w (.runPosted i) = false) :
    (step env w (.runPosted i)).WireOk := by
  have htaken : (w.takeTask i).WireOk := h.same rfl rfl
  cases htask : w.port.posted[i]? with
  | none =>
      rw [step_runPosted_none env htask]
      exact h
  | some task =>
      rw [step_runPosted_some env htask]
      cases task with
      | teardown =>
          show (World.fire env .teardown (w.takeTask i)).WireOk
          rw [World.fire_teardown]
          exact htaken.teardown
      | deliverText text => exact htaken.deliverText text
      | applyModify endpoint =>
          show (World.applyModify env endpoint (w.takeTask i)).WireOk
          unfold World.applyModify
          split
          · rename_i hlive
            refine World.WireOk.leave (htaken.same rfl rfl) hpolite hlive ?_
            intro hstate
            have hstate' : w.session.state = .reconnecting := hstate
            have hnone : w.session.connection = none := by
              simpa [partsUngreeted, hstate', htask] using hparts
            exact hnone
          · exact htaken

theorem wireOk_onText {env : Env β} {w : World β S} (h : w.WireOk) (c : Nat) (text : Text) :
    (step env w (.onText c text)).WireOk := by
  simp only [step, World.onText]
  cases parseServerMessage env.json text with
  | serverDisconnect =>
      simp only
      rw [World.fire_teardown]
      refine World.WireOk.teardown ?_
      exact h.same (World.lifecycle_emit w _ (by decide)) rfl
  | relayToApp payload => exact h.same (World.lifecycle_emit w payload (by decide)) rfl
  | invalidMessage reason => exact h.same (World.lifecycle_emit w reason (by decide)) rfl
  | startPlayback sampleRate channels =>
      exact h.same
        (World.lifecycle_playbackControl w fun _ =>
          World.lifecycle_handlePlaybackStart w sampleRate channels)
        (World.wiring_playbackControl w fun _ => rfl)
  | clearPlayback =>
      exact h.same (World.lifecycle_playbackControl w (World.lifecycle_handleClear w))
        (World.wiring_playbackControl w (World.wiring_handleClear w))
  | playbackMark name =>
      exact h.same (World.lifecycle_playbackControl w fun _ => rfl)
        (World.wiring_playbackControl w fun _ => rfl)

theorem wireOk_retryTimer {env : Env β} {w : World β S} (h : w.WireOk) :
    (step env w .retryTimer).WireOk := by
  show (w.takeTimer.fire env .retryTimerFired).WireOk
  by_cases hstate : w.session.state = .reconnecting
  · have hnoBye : w.session.byeSent = false :=
      h.noBye (by simp [World.lifecycle, hstate]) (by simp [World.lifecycle, hstate])
    rw [World.fire_retryTimerFired env (w := w.takeTimer) hstate]
    exact h.connect hnoBye rfl rfl rfl
  · rw [World.fire_retryTimerFired_stale env (w := w.takeTimer) hstate]
    exact
      { unsent := h.unsent
        ordered := h.ordered
        held := h.held
        waiting := h.waiting
        lost := h.lost
        greeted := h.greeted
        noBye := h.noBye }

theorem wireOk_onClosed {env : Env β} {w : World β S} (h : w.WireOk) (c : Nat)
    (connectFailed : Bool) : (step env w (.onClosed c connectFailed)).WireOk := by
  show ((w.markClosed c).onClosed env connectFailed).WireOk
  have hwire : ((w.markClosed c).onClosed env connectFailed).wiring = w.wiring := by
    rw [World.onClosed_eq, World.wiring_lose, World.wiring_noteClosed]
    rfl
  refine .of_views ?_ (World.lifecycle_onClosed env _ connectFailed) hwire
  refine WireOk.lose ?_ rfl
  refine WireOk.detached h ?_ rfl h.noBye
  simp [World.markClosed, World.lifecycle]

/-- One step keeps the wire in order, unless it takes one of the two branches. -/
theorem wireOk_step {env : Env β} {w : World β S} {callback : Bool} (h : w.WireOk)
    (hreach : w.lifecycle.Reachable callback) (hpolite : Polite env) {s : Step β}
    (hcontract : contract w s = true) (hdrains : drainsUngreeted env w s = false)
    (hparts : partsUngreeted w s = false) : (step env w s).WireOk := by
  have hquiet : (step env w s).lifecycle = w.lifecycle → (step env w s).wiring = w.wiring →
      (step env w s).WireOk := h.same
  cases s with
  | start =>
      show (World.beginConnectWith _ env _).WireOk
      rw [World.beginConnect_eq]
      have hfresh : w.lifecycle = .initial callback := by
        rcases hreach with hinit | hsound
        · exact hinit
        · have hstarted : w.started = true := hsound.started
          simp [contract, hstarted] at hcontract
      have hstate : w.session.state = .connecting := congrArg Lifecycle.state hfresh
      have hnoBye : w.session.byeSent = false :=
        h.noBye (by simp [World.lifecycle, hstate]) (by simp [World.lifecycle, hstate])
      exact h.connect hnoBye rfl rfl hstate
  | pump => exact h.pump
  | stop | sendText _ | sendDtmf _ _ | modify _ => exact step_posts rfl fun _ => h.same rfl rfl
  | runPosted i => exact wireOk_runPosted h hpolite i hparts
  | retryTimer => exact wireOk_retryTimer h
  | onConnected c =>
      refine h.onConnected c ?_
      intro hstate hhello
      simpa [drainsUngreeted, hstate, hhello] using hdrains
  | onText c text => exact wireOk_onText h c text
  | onBinary c bytes =>
      exact hquiet (World.lifecycle_onBinary env w bytes) (World.wiring_onBinary env w bytes)
  | onClosed c connectFailed => exact wireOk_onClosed h c connectFailed
  | pushAudio pcm =>
      refine hquiet (World.lifecycle_pushAudio w pcm) ?_
      simp only [step, World.pushAudio]
      split <;> rfl
  | setPaused paused => exact hquiet rfl rfl
  | readPlayback count => exact hquiet rfl rfl

/-! ## The order of frames on every connection -/

/-- On every connection the accepted frames are in order. -/
def WireOrdered (w : World β S) : Prop := ∀ c, WellOrdered (acceptedOn w.port.wire c)

theorem wireOk_initial {w : World β S} {callback : Bool} (hl : w.lifecycle = .initial callback)
    (hw : w.wiring = ([], false)) : w.WireOk := by
  refine .of_views ?_ hl hw
  exact
    { unsent := fun _ _ => rfl
      ordered := fun _ => ⟨.silent, rfl⟩
      held := by simp [Lifecycle.initial]
      waiting := by simp [Lifecycle.initial]
      lost := by simp [Lifecycle.initial]
      greeted := by simp [Lifecycle.initial]
      noBye := fun _ _ => rfl }

theorem wiring_create {params : ForkParams} {tuning : Tuning} {onFinished : Bool}
    {supply : SlabSupply} {w : World β S}
    (h : World.create params tuning onFinished supply = some w) : w.wiring = ([], false) := by
  rcases World.create_spec h with ⟨ring, path, rate, channels, -, -, -, rfl⟩
  rfl

theorem wire_ordered {env : Env β} {params : ForkParams} {tuning : Tuning} {onFinished : Bool}
    {supply : SlabSupply} {w₀ w : World β S} (hpolite : Polite env)
    (hcreate : World.create params tuning onFinished supply = some w₀)
    (hrun : Run (step env)
      (fun v s => contract v s = true ∧ drainsUngreeted env v s = false ∧
        partsUngreeted v s = false) w₀ w) : WireOrdered w := by
  have hboth : w.lifecycle.Reachable onFinished ∧ w.WireOk := by
    refine hrun.invariant (I := fun v => v.lifecycle.Reachable onFinished ∧ v.WireOk) ?_ ?_
    · exact ⟨Or.inl (lifecycle_create hcreate),
        wireOk_initial (lifecycle_create hcreate) (wiring_create hcreate)⟩
    · intro v s hv hs
      refine ⟨?_, wireOk_step hv.2 hv.1 hpolite hs.1 hs.2.1 hs.2.2⟩
      rw [lifecycle_step]
      exact hv.1.step (allows_of_contract hs.1)
  intro c
  rcases hboth.2.ordered c with ⟨p, hp⟩
  exact wellOrdered_of_wirePhase hp

theorem polite_sample : Polite Sample.env := by
  intro n k f h
  have hboth : (k.connected && !k.closeCalled) = true := h
  simpa using hboth

theorem wire_ordered_sample :
    WireOrdered
      (exec (step Sample.env) Sample.fork
        [.start, .pushAudio [1, 2, 3], .onConnected 0, .sendText (ascii "hi"), .runPosted 0,
          .modify Sample.otherEndpoint, .runPosted 0, .onClosed 0 false, .retryTimer,
          .onConnected 1, .stop, .runPosted 0]) :=
  wire_ordered polite_sample Sample.create_fork (Run.of_exec (by decide))

/-- The parameters of a fork without a call id, for which there is no hello. -/
def namelessParams : ForkParams := { Sample.params with callUuid := [] }

def namelessFork : World UInt8 Sample.slabBytes :=
  (World.create namelessParams Sample.tuning true Sample.supply).get rfl

/-- The hello has no encoding; what was pushed before the connection came up, and the bye, go out on
it all the same. -/
theorem unencodable_hello_streams_blind :
    let w := exec (step Sample.env) namelessFork [.start, .pushAudio [1, 2, 3], .onConnected 0]
    Polite Sample.env ∧
      World.create namelessParams Sample.tuning true Sample.supply = some namelessFork ∧
        Run (step Sample.env) (fun v s => contract v s = true) namelessFork w ∧
          ¬ WireOrdered w := by
  refine ⟨polite_sample, rfl, Run.of_exec (by decide +kernel), ?_⟩
  have hsent : acceptedOn (exec (step Sample.env) namelessFork
      [.start, .pushAudio [1, 2, 3], .onConnected 0]).port.wire 0 = [.audio, .bye] := by
    decide +kernel
  intro h
  have hordered : WellOrdered [.audio, .bye] := hsent ▸ h 0
  rcases hordered with hnil | ⟨resume, body, bye, hkinds, -⟩
  · cases hnil
  · cases hkinds

end Session
end AudioFork
