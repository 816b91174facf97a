import AudioFork.Session.Chores
import AudioFork.Session.Conservation

/-!
# Resume — what a resume reports

A session counts the audio it drops twice: in `buffer_dropped_bytes` for good, and in
`dropped_since_resume_` towards the next resume.  A `Ledger` is what an outside observer keeps about
the same run: where the counter stood at the last report, whether a modify is waiting for its connect,
and when the server was lost.  The module shows that every resume carries what the ledger says, and
that the reported stretches of the counter lie side by side.
-/

namespace AudioFork
namespace Session

open Buffers Protocol Lib

variable {β : Type} {S : ℕ+}

/-! ## The session's own books -/

def isResume (o : Offer β) : Bool :=
  match o.frame with
  | .resume _ => true
  | _ => false

structure ResumeBooks (β : Type) where
  /-- The resumes offered so far, on any connection. -/
  frames : List (Offer β)
  /-- The resume events reported so far. -/
  events : List ForkEvent
  dropped : Nat
  sinceResume : Nat
  endpointChanged : Bool
  disconnectedAt : Option Nat

def World.resumeBooks (w : World β S) : ResumeBooks β :=
  { frames := w.port.wire.filter isResume
    events := w.events.filter fun e => e.type = .resume
    dropped := w.session.outbound.bufferDroppedBytes
    sinceResume := w.session.outbound.droppedSinceResume
    endpointChanged := w.session.endpointChanged
    disconnectedAt := w.session.disconnectedAt }

namespace ResumeBooks

/-- `n` bytes are lost. -/
def lose (b : ResumeBooks β) (n : Nat) : ResumeBooks β :=
  { b with dropped := b.dropped + n, sinceResume := b.sinceResume + n }

theorem lose_lose (b : ResumeBooks β) (n m : Nat) : (b.lose n).lose m = b.lose (n + m) := by
  simp only [lose, Nat.add_assoc]

end ResumeBooks

namespace World

variable {env : Env β} {v w : World β S}

/-- Only resumes count, among the frames as among the events. -/
theorem resumeBooks_quiet (w : World β S) {offers : List (Offer β)} {events : List ForkEvent}
    (hoffers : ∀ o ∈ offers, isResume o = false) (hevents : ∀ e ∈ events, e.type ≠ .resume) :
    { w.resumeBooks with
      frames := (w.port.wire ++ offers).filter isResume
      events := (w.events ++ events).filter fun e => e.type = .resume } = w.resumeBooks := by
  have hframes : offers.filter isResume = [] := by
    rw [List.filter_eq_nil_iff]
    intro o ho
    simp [hoffers o ho]
  have hreports : (events.filter fun e => e.type = .resume) = [] := by
    rw [List.filter_eq_nil_iff]
    intro e he
    simp [hevents e he]
  rw [List.filter_append, List.filter_append, hframes, hreports, List.append_nil, List.append_nil]
  rfl

theorem resumeBooks_report (w : World β S) {events : List ForkEvent}
    (hevents : ∀ e ∈ events, e.type ≠ .resume) :
    { w.resumeBooks with
      events := (w.events ++ events).filter fun e => e.type = .resume } = w.resumeBooks := by
  have hnone : ∀ o ∈ ([] : List (Offer β)), isResume o = false := by simp
  have hquiet := resumeBooks_quiet w hnone hevents
  rw [List.append_nil] at hquiet
  exact hquiet

theorem resumeBooks_offer (w : World β S) {offers : List (Offer β)}
    (hoffers : ∀ o ∈ offers, isResume o = false) :
    { w.resumeBooks with frames := (w.port.wire ++ offers).filter isResume } = w.resumeBooks := by
  have hnone : ∀ e ∈ ([] : List ForkEvent), e.type ≠ .resume := by simp
  have hquiet := resumeBooks_quiet w hoffers hnone
  rw [List.append_nil] at hquiet
  exact hquiet

theorem resumeBooks_retire : w.retire.resumeBooks = w.resumeBooks := by
  rcases finalize_writes { w with session.state := .dead } with ⟨_, events, hevents, hwrites⟩
  unfold retire
  rw [hwrites]
  have hquiet : ∀ e ∈ events ++ [forkEvent w.session.params .stop []], e.type ≠ .resume := by
    intro e he
    rcases List.mem_append.mp he with he | he
    · simp [hevents e he]
    · rw [List.mem_singleton.mp he]
      simp [forkEvent]
  rw [List.append_assoc]
  exact resumeBooks_report w hquiet

theorem resumeBooks_hangUp (w : World β S) : w.hangUp.resumeBooks = w.resumeBooks :=
  hangUp_ends (P := fun u => u.resumeBooks = w.resumeBooks) resumeBooks_retire fun _ => rfl

/-- What is reported in passing is no resume. -/
theorem resumeBooks_aside (h : Aside w v) : v.resumeBooks = w.resumeBooks := by
  rcases h with ⟨_, _, _, _, _, _, events, hevents, rfl⟩
  refine resumeBooks_report w ?_
  intro e he hresume
  have hpassing := hevents e he
  rw [hresume] at hpassing
  cases hpassing

theorem resumeBooks_drainTick : (w.drainTick env).2.resumeBooks = w.resumeBooks := by
  rcases drainTick_writes env w with ⟨_, _, _, _, _, _, audio, byes, haudio, hbyes, hwrites⟩
  rw [hwrites, List.append_assoc]
  refine resumeBooks_offer w ?_
  intro o ho
  rcases List.mem_append.mp ho with ho | ho
  · rcases (haudio o ho).2 with ⟨bytes, hframe⟩
    simp [isResume, hframe]
  · simp [isResume, (hbyes o ho).2]

/-- A chore sends no resume; what it loses it counts in both counters. -/
theorem resumeBooks_chore {pumps : World β S → Prop} (hchore : Chore env pumps w v) :
    ∃ n, v.resumeBooks = w.resumeBooks.lose n := by
  have hquiet : v.resumeBooks = w.resumeBooks → ∃ n, v.resumeBooks = w.resumeBooks.lose n :=
    fun hsame => ⟨0, hsame⟩
  have hside : Aside w v → ∃ n, v.resumeBooks = w.resumeBooks.lose n :=
    fun haside => hquiet (resumeBooks_aside haside)
  cases hchore with
  | emit type detail hpassing => exact hside (aside_emit w hpassing detail)
  | drainHandoffRing _ =>
      rcases drainHandoffRing_writes env w with ⟨_, _, _, _, _, lost, _, _, events, hevents, hwrites⟩
      refine ⟨lost, ?_⟩
      rw [hwrites]
      have hquiet : ∀ e ∈ events, e.type ≠ .resume := by
        intro e he
        rcases hevents e he with htype | htype <;> simp [htype]
      exact congrArg (fun b => b.lose lost) (resumeBooks_report w hquiet)
  | flushToConnection _ =>
      rcases flushToConnection_writes env w with ⟨_, _, _, _, offers, hoffers, hwrites⟩
      refine hquiet ?_
      rw [hwrites]
      refine resumeBooks_offer w ?_
      intro o ho
      rcases (hoffers o ho).2 with ⟨bytes, hframe⟩
      simp [isResume, hframe]
  | restoreCapIfDrained _ =>
      rcases restoreCapIfDrained_writes w with ⟨_, _, _, hwrites⟩
      exact hquiet (by rw [hwrites]; rfl)
  | receive bytes _ => exact hside (aside_receive env w _ bytes)
  | pumpPlayback => exact hside (aside_pumpPlayback w)
  | handlePlaybackStart sampleRate channels =>
      exact hside (aside_handlePlaybackStart w sampleRate channels)
  | handleClear _ => exact hside (aside_handleClear w _)
  | unsupported detail => exact hside (aside_unsupported w detail)
  | noteRefused => exact hside (aside_noteRefused w)
  | refuseHello c hello _ _ => exact hquiet (resumeBooks_offer w (by simp [isResume]))
  | abandonSocket _ => exact hside (aside_abandonSocket w)
  | retry _ =>
      exact hquiet (resumeBooks_report w (by simp [forkEvent]))
  | hangUp _ => exact hquiet (resumeBooks_hangUp w)
  | drainTurn _ _ =>
      exact hquiet (drainTurn_ends (P := fun u => u.resumeBooks = w.resumeBooks) resumeBooks_drainTick
        (resumeBooks_hangUp _).trans)
  | retire _ => exact hquiet resumeBooks_retire
  | _ => exact hquiet rfl

theorem resumeBooks_chores {pumps : World β S → Prop} (hchores : Chores env pumps w v) :
    ∃ n, v.resumeBooks = w.resumeBooks.lose n := by
  refine hchores.preserves (I := fun u => ∃ n, u.resumeBooks = w.resumeBooks.lose n) ?_ ⟨0, rfl⟩
  rintro a b hchore ⟨n, hn⟩
  rcases resumeBooks_chore hchore with ⟨m, hm⟩
  exact ⟨n + m, by rw [hm, hn, ResumeBooks.lose_lose]⟩

/-! ## The handshake -/

/-- A handshake that resumes: the server knows this stream. -/
def resumes (w : World β S) : Bool := w.session.reconnecting && !w.session.endpointChanged

/-- The milliseconds since the server was lost, as the next reading of the clock has it. -/
def gapMs (env : Env β) (w : World β S) : Nat :=
  match w.session.disconnectedAt with
  | none => 0
  | some since => (env.now w.port.clockReads - since) / nanosPerMilli

/-- What has been dropped since the last report, in milliseconds. -/
def droppedMs (w : World β S) : Nat :=
  bytesToMs w.session.params w.session.outbound.droppedSinceResume

/-- The resume frame and the resume event of a handshake on connection `c`. -/
def resumeFrame (env : Env β) (c : Nat) (ok : Bool) (w : World β S) : Offer β :=
  { conn := c
    frame := .resume (encodeResume env.json (w.gapMs env) w.droppedMs)
    accepted := ok }

def resumeEvent (env : Env β) (w : World β S) : ForkEvent :=
  { forkEvent w.session.params .resume [] with
    gapMs := w.gapMs env
    droppedMs := w.droppedMs }

theorem resumeBooks_sendResume (env : Env β) (w : World β S) (c : Nat) :
    ∃ ok, (w.sendResume env c).resumeBooks =
      { w.resumeBooks with
        frames := w.resumeBooks.frames ++ [w.resumeFrame env c ok]
        events := w.resumeBooks.events ++ [w.resumeEvent env]
        sinceResume := 0 } := by
  refine ⟨env.accepts w.port.conns c w.port.wire.length
    (.resume (encodeResume env.json (w.gapMs env) w.droppedMs)), ?_⟩
  unfold sendResume resumeGap
  cases hsince : w.session.disconnectedAt with
  | none =>
      simp [resumeBooks, send, isResume, forkEvent, resumeFrame, resumeEvent, gapMs, droppedMs, hsince]
  | some since =>
      simp [resumeBooks, send, now, isResume, forkEvent, resumeFrame, resumeEvent, gapMs, droppedMs,
        hsince]

theorem resumeBooks_settle (w : World β S) :
    World.resumeBooks { w.settleEndpoint with session.disconnectedAt := none } =
      { w.resumeBooks with
        sinceResume := if w.session.endpointChanged then 0 else w.resumeBooks.sinceResume
        endpointChanged := false
        disconnectedAt := none } := by
  unfold settleEndpoint
  cases hchanged : w.session.endpointChanged <;> simp [resumeBooks, hchanged]

/-- A greeting settles the books: a resume reports the drops, a modify writes them off. -/
theorem resumeBooks_announce (env : Env β) (w : World β S) (c : Nat) :
    (w.resumes = true ∧ ∃ ok, (w.announce env c).resumeBooks =
        { w.resumeBooks with
          frames := w.resumeBooks.frames ++ [w.resumeFrame env c ok]
          events := w.resumeBooks.events ++ [w.resumeEvent env]
          sinceResume := 0
          endpointChanged := false
          disconnectedAt := none }) ∨
      w.resumes = false ∧ (w.announce env c).resumeBooks =
        { w.resumeBooks with
          sinceResume := if w.session.endpointChanged then 0 else w.resumeBooks.sinceResume
          endpointChanged := false
          disconnectedAt := none } := by
  unfold announce
  simp only
  split
  · rename_i hresumes
    refine Or.inl ⟨by simp [resumes, hresumes], ?_⟩
    rcases resumeBooks_sendResume env w c with ⟨ok, hsent⟩
    have hsame : (w.sendResume env c).session.endpointChanged = false :=
      (congrArg ResumeBooks.endpointChanged hsent).trans hresumes.2
    refine ⟨ok, ?_⟩
    rw [resumeBooks_settle, hsent, hsame]
    rfl
  · rename_i hresumes
    refine Or.inr ⟨by simpa [resumes] using hresumes, ?_⟩
    rw [resumeBooks_settle, show (w.emit .connect []).resumeBooks = w.resumeBooks from
      resumeBooks_report w (by simp [forkEvent])]
    rfl

theorem resumeBooks_greet (env : Env β) (w : World β S) (c : Nat) (hello : Text) :
    (w.resumes = true ∧ ∃ ok, (w.greet env c hello).resumeBooks =
        { w.resumeBooks with
          frames := w.resumeBooks.frames ++ [w.resumeFrame env c ok]
          events := w.resumeBooks.events ++ [w.resumeEvent env]
          sinceResume := 0
          endpointChanged := false
          disconnectedAt := none }) ∨
      w.resumes = false ∧ (w.greet env c hello).resumeBooks =
        { w.resumeBooks with
          sinceResume := if w.session.endpointChanged then 0 else w.resumeBooks.sinceResume
          endpointChanged := false
          disconnectedAt := none } := by
  let greeted : World β S := (send env { w with session.state := .active } c (.hello hello)).2
  have hhello : greeted.resumeBooks = w.resumeBooks := resumeBooks_offer w (by simp [isResume])
  have htexts : (w.greet env c hello).resumeBooks = (greeted.announce env c).resumeBooks := by
    rcases flushPendingTexts_writes env (greeted.announce env c) with ⟨_, offers, hoffers, hwrites⟩
    refine (congrArg World.resumeBooks hwrites).trans (resumeBooks_offer (greeted.announce env c) ?_)
    intro o ho
    rcases (hoffers o ho).2 with ⟨text, hframe⟩
    simp [isResume, hframe]
  rw [htexts, ← hhello]
  exact resumeBooks_announce env greeted c

end World

/-! ## The ledger of an observer -/

/-- A stretch of `buffer_dropped_bytes` that was settled: reported in a resume, or written off. -/
structure Span where
  first : Nat
  last : Nat
  reported : Bool
  deriving DecidableEq, Repr

structure Ledger where
  /-- Where the counter stood at the last resume or post-modify connect. -/
  base : Nat
  /-- A modify was applied since the last completed hello. -/
  modified : Bool
  /-- When the first `OnClosed` since the last completed hello was delivered. -/
  closedAt : Option Nat
  spans : List Span

namespace Ledger

def initial : Ledger := { base := 0, modified := false, closedAt := none, spans := [] }

/-- The counter stands at `dropped`, and what it counted since `base` is settled. -/
def settle (k : Ledger) (dropped : Nat) (reported : Bool) : Ledger :=
  { k with
    base := dropped
    spans := k.spans ++ [{ first := k.base, last := dropped, reported := reported }] }

/-- What the observer writes down about a step: the time of the first `OnClosed`, an applied modify,
and a completed hello, with which a post-modify connect or a resume settles the drops. -/
def note (env : Env β) (w : World β S) (s : Step β) (k : Ledger) : Ledger :=
  match occasion env w s with
  | .closed _ => { k with closedAt := k.closedAt.or (some (env.now w.port.clockReads)) }
  | .modify _ => { k with modified := true }
  | .greet _ _ =>
      let dropped := w.session.outbound.bufferDroppedBytes
      let done :=
        if k.modified then
          k.settle dropped false
        else if w.resumeBooks.frames.length < (step env w s).resumeBooks.frames.length then
          k.settle dropped true
        else
          k
      { done with modified := false, closedAt := none }
  | _ => k

/-- The milliseconds from the first `OnClosed` to the next reading of the clock. -/
def gapMs (env : Env β) (w : World β S) (k : Ledger) : Nat :=
  match k.closedAt with
  | none => 0
  | some t => (env.now w.port.clockReads - t) / World.nanosPerMilli

/-- The milliseconds of audio dropped since the counter stood at `base`. -/
def droppedMs (w : World β S) (k : Ledger) : Nat :=
  1000 * (w.session.outbound.bufferDroppedBytes - k.base) / w.session.params.format.bytesPerSecond

/-- The spans lie side by side and cover what was counted up to a point. -/
def Tiles : Nat → List Span → Nat → Prop
  | lo, [], hi => lo = hi
  | lo, span :: spans, hi => span.first = lo ∧ lo ≤ span.last ∧ Tiles span.last spans hi

theorem Tiles.snoc {lo hi : Nat} {spans : List Span} (h : Tiles lo spans hi) {span : Span}
    (hfirst : span.first = hi) (hlast : hi ≤ span.last) :
    Tiles lo (spans ++ [span]) span.last := by
  induction spans generalizing lo with
  | nil =>
      subst h
      exact ⟨hfirst, hlast, rfl⟩
  | cons first spans ih => exact ⟨h.1, h.2.1, ih h.2.2⟩

/-- The ledger agrees with the session's own books. -/
structure Agrees (k : Ledger) (b : ResumeBooks β) : Prop where
  drops : b.sinceResume + k.base = b.dropped
  modified : b.endpointChanged = k.modified
  closedAt : b.disconnectedAt = k.closedAt
  tiles : Tiles 0 k.spans k.base

variable {k : Ledger} {b : ResumeBooks β}

theorem Agrees.lose (h : k.Agrees b) (n : Nat) : k.Agrees (b.lose n) where
  drops := by
    have hdrops := h.drops
    simp only [ResumeBooks.lose]
    omega
  modified := h.modified
  closedAt := h.closedAt
  tiles := h.tiles

/-- A settled ledger agrees with books that start anew. -/
theorem Agrees.settle (h : k.Agrees b) (reported : Bool) {b' : ResumeBooks β}
    (hsince : b'.sinceResume = 0) (hdropped : b'.dropped = b.dropped)
    (hchanged : b'.endpointChanged = false) (hdisconnected : b'.disconnectedAt = none) :
    Agrees { k.settle b.dropped reported with modified := false, closedAt := none } b' where
  drops := by
    show b'.sinceResume + b.dropped = b'.dropped
    omega
  modified := hchanged
  closedAt := hdisconnected
  tiles := by
    have hdrops := h.drops
    have hle : k.base ≤ b.dropped := by omega
    exact h.tiles.snoc rfl hle

/-- What the session puts in a resume is what the ledger says. -/
theorem Agrees.gapMs {w : World β S} (h : k.Agrees w.resumeBooks) (env : Env β) :
    w.gapMs env = k.gapMs env w := by
  unfold World.gapMs Ledger.gapMs
  rw [show w.session.disconnectedAt = k.closedAt from h.closedAt]

theorem Agrees.droppedMs {w : World β S} (h : k.Agrees w.resumeBooks) :
    w.droppedMs = k.droppedMs w := by
  have hsince : w.session.outbound.droppedSinceResume =
      w.session.outbound.bufferDroppedBytes - k.base := by
    have hdrops : w.session.outbound.droppedSinceResume + k.base =
      w.session.outbound.bufferDroppedBytes := h.drops
    omega
  unfold World.droppedMs bytesToMs Ledger.droppedMs
  rw [hsince, Nat.mul_comm 1000]
  split
  · rename_i hzero
    rw [hzero, Nat.div_zero]
  · rfl

end Ledger

/-! ## Steps -/

section

variable {env : Env β} {w : World β S} {s : Step β} {k : Ledger}

theorem resumeBooks_preamble (w : World β S) (s : Step β) :
    (preamble w s).resumeBooks = w.resumeBooks := by
  unfold preamble
  split
  · rfl
  · split <;> rfl
  · rfl
  · rfl
  · split <;> rfl
  · rfl

theorem clockReads_preamble (w : World β S) (s : Step β) :
    (preamble w s).port.clockReads = w.port.clockReads := by
  unfold preamble
  split
  · rfl
  · split <;> rfl
  · rfl
  · rfl
  · split <;> rfl
  · rfl

theorem resumeBooks_noteClosed (w : World β S) (connectFailed : Bool) :
    (w.noteClosed env connectFailed).resumeBooks =
      { w.resumeBooks with
        disconnectedAt := w.session.disconnectedAt.or (some (env.now w.port.clockReads)) } := by
  unfold World.noteClosed
  simp only
  split
  · rename_i since hsince
    split <;> simp [World.resumeBooks, World.emit, forkEvent, hsince]
  · rename_i hsince
    split <;> simp [World.resumeBooks, World.emit, World.now, forkEvent, hsince]

theorem resumeBooks_applyModify (w : World β S) (endpoint : Endpoint)
    (hlive : w.session.state.live = true) :
    (w.applyModify env endpoint).resumeBooks = { w.resumeBooks with endpointChanged := true } := by
  unfold World.applyModify
  rw [if_pos hlive]
  rcases World.leave_writes env
    { w with session.params.endpoint := endpoint, session.endpointChanged := true } with
    ⟨_, offers, -, hoffers, hwrites⟩
  rw [hwrites]
  refine World.resumeBooks_offer
    { w with session.params.endpoint := endpoint, session.endpointChanged := true } ?_
  intro o ho
  simp [isResume, (hoffers o ho).2]

theorem resumeBooks_pushAudio (w : World β S) (pcm : List β) :
    (w.pushAudio pcm).resumeBooks = w.resumeBooks := by
  rcases World.pushAudio_writes w pcm with ⟨_, _, _, _, _, hwrites⟩
  rw [hwrites]
  rfl

theorem resumeBooks_deliverText (w : World β S) (text : Text) :
    (w.deliverText env text).resumeBooks = w.resumeBooks := by
  rcases World.deliverText_writes env w text with ⟨_, _, offers, hoffers, hwrites⟩
  rw [hwrites]
  refine World.resumeBooks_offer w ?_
  intro o ho
  rcases (hoffers o ho).2.2 with ⟨text, hframe⟩
  simp [isResume, hframe]

/-- An occasion that is no completed hello sends no resume and reports none.  An `OnClosed` sets the
time the server was lost, and an applied modify is remembered. -/
theorem resumeBooks_perform (env : Env β) (w : World β S) (s : Step β)
    (hgreet : ∀ c hello, occasion env w s ≠ .greet c hello) :
    ((preamble w s).perform env (occasion env w s)).resumeBooks =
      { w.resumeBooks with
        endpointChanged :=
          match occasion env w s with
          | .modify _ => true
          | _ => w.session.endpointChanged
        disconnectedAt :=
          match occasion env w s with
          | .closed _ => w.session.disconnectedAt.or (some (env.now w.port.clockReads))
          | _ => w.session.disconnectedAt } := by
  have hbefore := resumeBooks_preamble w s
  have harises := occasion_arises env w s
  cases hoccasion : occasion env w s with
  | none => exact hbefore
  | adopt => exact hbefore
  | submit text => exact hbefore
  | deliver i text => exact (resumeBooks_deliverText _ text).trans hbefore
  | push pcm => exact (resumeBooks_pushAudio _ pcm).trans hbefore
  | closed connectFailed =>
      have hclosed : ((preamble w s).noteClosed env connectFailed).resumeBooks = _ :=
        resumeBooks_noteClosed (preamble w s) connectFailed
      have hsince : (preamble w s).session.disconnectedAt = w.session.disconnectedAt :=
        congrArg ResumeBooks.disconnectedAt hbefore
      rw [hbefore, clockReads_preamble, hsince] at hclosed
      exact hclosed
  | modify endpoint =>
      rw [hoccasion] at harises
      rcases harises with ⟨i, rfl, htask, hlive⟩
      have hsame : preamble w (.runPosted i) = w.takeTask i := by simp only [preamble, htask]
      rw [hsame]
      exact resumeBooks_applyModify (w.takeTask i) endpoint hlive
  | greet c hello => exact absurd hoccasion (hgreet c hello)

/-- Either the step sends no resume and reports none, or it does both once, with the figures of the
ledger, and the stretch they cover is settled. -/
def ResumeStep (env : Env β) (k : Ledger) (w : World β S) (s : Step β) : Prop :=
  (step env w s).resumeBooks.frames = w.resumeBooks.frames ∧
      (step env w s).resumeBooks.events = w.resumeBooks.events ∧
      ((k.note env w s).spans.filter Span.reported) = k.spans.filter Span.reported ∨
    ∃ c ok,
      (step env w s).resumeBooks.frames = w.resumeBooks.frames ++
          [{ conn := c
             frame := .resume (encodeResume env.json (k.gapMs env w) (k.droppedMs w))
             accepted := ok }] ∧
        (step env w s).resumeBooks.events = w.resumeBooks.events ++
          [{ forkEvent w.session.params .resume [] with
             gapMs := k.gapMs env w
             droppedMs := k.droppedMs w }] ∧
        (k.note env w s).spans = k.spans ++
          [{ first := k.base, last := w.session.outbound.bufferDroppedBytes, reported := true }]

/-- A step without a completed hello. -/
theorem ledger_other (h : k.Agrees w.resumeBooks)
    (hgreet : ∀ c hello, occasion env w s ≠ .greet c hello) :
    ResumeStep env k w s ∧ (k.note env w s).Agrees (step env w s).resumeBooks := by
  rcases World.resumeBooks_chores (chores_step env w s) with ⟨n, hstep⟩
  rw [resumeBooks_perform env w s hgreet] at hstep
  have hclosedAt : w.session.disconnectedAt = k.closedAt := h.closedAt
  have hspans : (k.note env w s).spans = k.spans := by
    unfold Ledger.note
    split
    · rfl
    · rfl
    · rename_i c hello hoccasion
      exact absurd hoccasion (hgreet c hello)
    · rfl
  refine ⟨Or.inl ⟨by rw [hstep]; rfl, by rw [hstep]; rfl, by rw [hspans]⟩, ?_⟩
  rw [hstep]
  refine Ledger.Agrees.lose ?_ n
  unfold Ledger.note
  cases hoccasion : occasion env w s with
  | closed connectFailed => exact ⟨h.drops, h.modified, by rw [hclosedAt], h.tiles⟩
  | modify endpoint => exact ⟨h.drops, rfl, h.closedAt, h.tiles⟩
  | greet c hello => exact absurd hoccasion (hgreet c hello)
  | _ => exact h

/-- A completed hello: a resume reports, a modify writes off, the first connect leaves all as it is. -/
theorem ledger_greet {a c : Nat} {hello : Text} {n : Nat} (h : k.Agrees w.resumeBooks)
    (hoccasion : occasion env w (.onConnected a) = .greet c hello)
    (hstep : (step env w (.onConnected a)).resumeBooks =
      ((w.markConnected a).greet env c hello).resumeBooks.lose n) :
    ResumeStep env k w (.onConnected a) ∧
      (k.note env w (.onConnected a)).Agrees (step env w (.onConnected a)).resumeBooks := by
  have hmodified : w.session.endpointChanged = k.modified := h.modified
  unfold ResumeStep Ledger.note
  rw [hoccasion]
  simp only
  rcases World.resumeBooks_greet env (w.markConnected a) c hello with
    ⟨hresumes, ok, hbooks⟩ | ⟨hresumes, hbooks⟩
  · have hsame : k.modified = false := by
      rw [← hmodified]
      have hboth : w.session.reconnecting = true ∧ w.session.endpointChanged = false := by
        simpa [World.resumes, World.markConnected] using hresumes
      exact hboth.2
    have hlonger : w.resumeBooks.frames.length <
        (step env w (.onConnected a)).resumeBooks.frames.length := by
      rw [hstep, hbooks]
      show _ < (w.resumeBooks.frames ++ [_]).length
      rw [List.length_append]
      exact Nat.lt_succ_self _
    rw [if_neg (by simp [hsame]), if_pos hlonger, hstep, hbooks]
    refine ⟨Or.inr ⟨c, ok, ?_, ?_, rfl⟩, ?_⟩
    · rw [← h.gapMs env, ← h.droppedMs]
      rfl
    · rw [← h.gapMs env, ← h.droppedMs]
      rfl
    · refine Ledger.Agrees.lose ?_ n
      exact h.settle true rfl rfl rfl rfl
  · have hequal : ¬w.resumeBooks.frames.length <
        (step env w (.onConnected a)).resumeBooks.frames.length := by
      rw [hstep, hbooks]
      exact Nat.lt_irrefl _
    cases hchanged : k.modified with
    | true =>
        have hreset : (w.markConnected a).session.endpointChanged = true := hmodified.trans hchanged
        rw [if_pos rfl, hstep, hbooks, hreset]
        refine ⟨Or.inl ⟨rfl, rfl, ?_⟩, ?_⟩
        · simp [Ledger.settle]
        · refine Ledger.Agrees.lose ?_ n
          exact h.settle false rfl rfl rfl rfl
    | false =>
        have hkept : (w.markConnected a).session.endpointChanged = false := hmodified.trans hchanged
        rw [if_neg (by simp), if_neg hequal, hstep, hbooks, hkept]
        refine ⟨Or.inl ⟨rfl, rfl, rfl⟩, ?_⟩
        refine Ledger.Agrees.lose ?_ n
        exact ⟨h.drops, rfl, rfl, h.tiles⟩

theorem ledger_step (h : k.Agrees w.resumeBooks) (s : Step β) :
    ResumeStep env k w s ∧ (k.note env w s).Agrees (step env w s).resumeBooks := by
  by_cases hgreet : ∃ c hello, occasion env w s = .greet c hello
  · rcases hgreet with ⟨c, hello, hoccasion⟩
    rcases World.resumeBooks_chores (chores_step env w s) with ⟨n, hstep⟩
    have harises := occasion_arises env w s
    rw [hoccasion] at hstep harises
    rcases harises with ⟨a, rfl, -⟩
    exact ledger_greet h hoccasion hstep
  · refine ledger_other h ?_
    intro c hello hoccasion
    exact hgreet ⟨c, hello, hoccasion⟩

end

/-! ## Runs -/

/-- A session and its observer. -/
structure Observed (β : Type) (S : ℕ+) where
  world : World β S
  ledger : Ledger

def Observed.step (env : Env β) (o : Observed β S) (s : Step β) : Observed β S :=
  { world := Session.step env o.world s
    ledger := o.ledger.note env o.world s }

/-- In every run each resume carries the drops and the gap of an observer's ledger, and what was
reported or written off covers the counter without gap or overlap up to the last report. -/
theorem resume_accounts {env : Env β} {params : ForkParams} {tuning : Tuning} {onFinished : Bool}
    {supply : SlabSupply} {w₀ : World β S} {o : Observed β S}
    (hcreate : World.create params tuning onFinished supply = some w₀)
    (hrun : Run (Observed.step env) (fun _ _ => True) { world := w₀, ledger := .initial } o) :
    (∀ s, ResumeStep env o.ledger o.world s) ∧
      Ledger.Tiles 0 o.ledger.spans o.ledger.base ∧
      o.ledger.base ≤ o.world.session.outbound.bufferDroppedBytes := by
  have hagrees : o.ledger.Agrees o.world.resumeBooks := by
    refine hrun.invariant (I := fun o => o.ledger.Agrees o.world.resumeBooks) ?_
      fun _ s ha _ => (ledger_step ha s).2
    rcases World.create_spec hcreate with ⟨ring, path, rate, channels, -, -, -, rfl⟩
    exact ⟨rfl, rfl, rfl, rfl⟩
  have hdrops : o.world.session.outbound.droppedSinceResume + o.ledger.base =
    o.world.session.outbound.bufferDroppedBytes := hagrees.drops
  exact ⟨fun s => (ledger_step hagrees s).1, hagrees.tiles, by omega⟩

/-- A fork with one slab loses its server and then 28 bytes; the resume reports a millisecond. -/
theorem resume_accounts_tight :
    let o := exec (Observed.step Sample.env) { world := tightFork, ledger := .initial }
      [.start, .onConnected 0, .onClosed 0 false, .pushAudio (List.replicate 16 1), .pump,
        .pushAudio (List.replicate 16 2), .pump, .retryTimer, .onConnected 1]
    o.ledger.spans = [{ first := 0, last := 28, reported := true }] ∧
      (o.world.resumeBooks.events.map fun e => (e.gapMs, e.droppedMs)) = [(0, 1)] ∧
      (∀ s, ResumeStep Sample.env o.ledger o.world s) ∧
      Ledger.Tiles 0 o.ledger.spans o.ledger.base ∧
      o.ledger.base ≤ o.world.session.outbound.bufferDroppedBytes :=
  ⟨by decide +kernel, by decide +kernel,
    resume_accounts create_tightFork (Run.of_exec (by decide +kernel))⟩

end Session
end AudioFork
