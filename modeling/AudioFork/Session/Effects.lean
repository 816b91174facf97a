import AudioFork.Session.Transitions

/-!
# Effects — what each function of a session writes

Later modules look at a session through views: its lifecycle, its audio, its wire.  Here every
function that branches is described once, as a single update of the world.  Where no view depends on
what is written, the value is left open.  That a function keeps a view, or changes it in one place,
then holds by definition.
-/

namespace AudioFork
namespace Session

open Buffers Protocol

variable {β : Type} {S : ℕ+}

/-- From `f` to `g` audio was offered on connection `c`, and nothing but the buffer changed. -/
def Flush.Offers (c : Nat) (f g : Flush β S) : Prop :=
  ∃ buffer sentBytes bufferedBytes supply offers,
    (∀ o ∈ offers, o.conn = c ∧ ∃ bytes, o.frame = .audio bytes) ∧
    g =
      { outbound :=
          { f.outbound with
            buffer := buffer
            sentBytes := sentBytes
            bufferedBytes := bufferedBytes }
        supply := supply
        wire := f.wire ++ offers }

/-- From `d` to `d'` audio went from the ring to the buffer.  Nothing but degraded episodes and overruns
was reported, and what was lost is counted twice: for good, and towards the next resume. -/
def Drain.Fills (d d' : Drain β S) : Prop :=
  ∃ ring buffer dropping poolStarved degraded lost bufferedBytes supply events,
    (∀ e ∈ events, e.type = .degraded ∨ e.type = .overrun) ∧
    d' =
      { outbound :=
          { d.outbound with
            ring := ring
            buffer := buffer
            dropping := dropping
            poolStarved := poolStarved
            degraded := degraded
            droppedSinceResume := d.outbound.droppedSinceResume + lost
            bufferDroppedBytes := d.outbound.bufferDroppedBytes + lost
            bufferedBytes := bufferedBytes }
        supply := supply
        events := d.events ++ events }

namespace World

variable (env : Env β) (w : World β S)

/-! ## Texts -/

theorem queueText_writes (text : Text) :
    ∃ texts dropped, w.queueText text =
      { w with session.pendingTexts := texts, session.pendingTextsDropped := dropped } := by
  unfold queueText
  split
  · exact ⟨_, _, rfl⟩
  · exact ⟨_, w.session.pendingTextsDropped, rfl⟩

theorem sendOrDrop_writes (c : Nat) (text : Text) :
    ∃ dropped, w.sendOrDrop env c text =
      { (w.send env c (.text text)).2 with session.pendingTextsDropped := dropped } := by
  unfold sendOrDrop
  cases hsend : w.send env c (.text text) with
  | mk ok v =>
      cases ok with
      | true => exact ⟨v.session.pendingTextsDropped, rfl⟩
      | false => exact ⟨v.session.pendingTextsDropped + 1, rfl⟩

theorem foldl_sendOrDrop_writes (c : Nat) (texts : List Text) :
    ∃ dropped offers, (∀ o ∈ offers, o.conn = c ∧ ∃ text, o.frame = .text text) ∧
      texts.foldl (sendOrDrop env c) w =
        { w with
          session.pendingTextsDropped := dropped
          port.wire := w.port.wire ++ offers } := by
  induction texts generalizing w with
  | nil => exact ⟨w.session.pendingTextsDropped, [], by simp, by rw [List.append_nil]; rfl⟩
  | cons text texts ih =>
      rcases sendOrDrop_writes env w c text with ⟨_, hfirst⟩
      rcases ih (w.sendOrDrop env c text) with ⟨dropped, offers, hoffers, hrest⟩
      let first : Offer β :=
        { conn := c
          frame := .text text
          accepted := env.accepts w.port.conns c w.port.wire.length (.text text) }
      refine ⟨dropped, first :: offers, ?_, ?_⟩
      · intro o ho
        rcases List.mem_cons.mp ho with rfl | ho
        · exact ⟨rfl, text, rfl⟩
        · exact hoffers o ho
      · rw [List.foldl_cons, hrest, hfirst, List.append_cons w.port.wire first offers]
        rfl

theorem flushPendingTexts_writes :
    ∃ dropped offers,
      (∀ o ∈ offers, w.session.connection = some o.conn ∧ ∃ text, o.frame = .text text) ∧
      w.flushPendingTexts env =
        { w with
          session.pendingTexts := []
          session.pendingTextsDropped := dropped
          port.wire := w.port.wire ++ offers } := by
  unfold flushPendingTexts
  simp only
  split
  · rename_i c hconn
    rcases foldl_sendOrDrop_writes env w c w.session.pendingTexts with
      ⟨dropped, offers, hoffers, hwrites⟩
    refine ⟨dropped, offers, ?_, by rw [hwrites]⟩
    intro o ho
    exact ⟨hconn.trans (congrArg some (hoffers o ho).1.symm), (hoffers o ho).2⟩
  · exact ⟨_, [], by simp, by rw [List.append_nil]⟩

theorem deliverText_writes (text : Text) :
    ∃ texts dropped offers,
      (∀ o ∈ offers, w.session.state = .active ∧ w.session.connection = some o.conn ∧
        ∃ text, o.frame = .text text) ∧
      w.deliverText env text =
        { w with
          session.pendingTexts := texts
          session.pendingTextsDropped := dropped
          port.wire := w.port.wire ++ offers } := by
  have hqueue : ∃ texts dropped offers,
      (∀ o ∈ offers, w.session.state = .active ∧ w.session.connection = some o.conn ∧
        ∃ text, o.frame = .text text) ∧
      w.queueText text =
        { w with
          session.pendingTexts := texts
          session.pendingTextsDropped := dropped
          port.wire := w.port.wire ++ offers } := by
    rcases queueText_writes w text with ⟨texts, dropped, hwrites⟩
    exact ⟨texts, dropped, [], by simp, by rw [List.append_nil]; exact hwrites⟩
  have hdrop : ∃ texts dropped offers,
      (∀ o ∈ offers, w.session.state = .active ∧ w.session.connection = some o.conn ∧
        ∃ text, o.frame = .text text) ∧
      { w with session.pendingTextsDropped := w.session.pendingTextsDropped + 1 } =
        { w with
          session.pendingTexts := texts
          session.pendingTextsDropped := dropped
          port.wire := w.port.wire ++ offers } :=
    ⟨w.session.pendingTexts, _, [], by simp, by rw [List.append_nil]⟩
  unfold deliverText
  split
  · rename_i hactive
    split
    · rename_i c hconn
      rcases sendOrDrop_writes env w c text with ⟨dropped, hwrites⟩
      refine ⟨w.session.pendingTexts, dropped, [_], ?_, hwrites⟩
      intro o ho
      rw [List.mem_singleton.mp ho]
      exact ⟨hactive, hconn, text, rfl⟩
    · exact hqueue
  · exact hqueue
  · exact hqueue
  · exact hdrop
  · exact hdrop
  · exact hdrop

/-! ## Outbound audio -/

theorem pushAudio_writes (pcm : List β) :
    ∃ ring pausedBytes mediaDroppedBytes offered handed, w.pushAudio pcm =
      { w with
        session.outbound.ring := ring
        session.outbound.pausedBytes := pausedBytes
        session.outbound.mediaDroppedBytes := mediaDroppedBytes
        offered := offered
        handed := handed } := by
  have hpush : ∀ o : Outbound β S, ∃ ring pausedBytes mediaDroppedBytes, (o.push pcm).2 =
      { o with
        ring := ring
        pausedBytes := pausedBytes
        mediaDroppedBytes := mediaDroppedBytes } := by
    intro o
    unfold Outbound.push
    split
    · exact ⟨o.ring, _, o.mediaDroppedBytes, rfl⟩
    · split
      · exact ⟨o.ring, o.pausedBytes, _, rfl⟩
      · exact ⟨_, o.pausedBytes, o.mediaDroppedBytes, rfl⟩
  rcases hpush w.session.outbound with ⟨ring, pausedBytes, mediaDroppedBytes, hwrites⟩
  unfold pushAudio
  split
  · cases hpushed : w.session.outbound.push pcm with
    | mk accepted outbound =>
        rw [hpushed] at hwrites
        simp only at hwrites
        subst hwrites
        exact ⟨ring, pausedBytes, mediaDroppedBytes, _, _, rfl⟩
  · exact ⟨w.session.outbound.ring, w.session.outbound.pausedBytes,
      w.session.outbound.mediaDroppedBytes, w.offered, w.handed, rfl⟩

/-- The flush loop offers audio on its connection and touches nothing but the buffer. -/
theorem flush_loop_writes (accepts : Nat → Frame β → Bool) (c coalesce fuel sent : Nat)
    (f : Flush β S) : f.Offers c (Flush.loop accepts c coalesce fuel sent f) := by
  have hoffer : ∀ {offers : List (Offer β)} {chunk : List β} {accepted : Bool},
      (∀ o ∈ offers, o.conn = c ∧ ∃ bytes, o.frame = .audio bytes) →
      ∀ o ∈ offers ++ [{ conn := c, frame := .audio chunk, accepted := accepted }],
        o.conn = c ∧ ∃ bytes, o.frame = .audio bytes := by
    intro offers chunk accepted hoffers o ho
    rcases List.mem_append.mp ho with ho | ho
    · exact hoffers o ho
    · rw [List.mem_singleton.mp ho]
      exact ⟨rfl, chunk, rfl⟩
  have hstart : f.Offers c f :=
    ⟨f.outbound.buffer, f.outbound.sentBytes, f.outbound.bufferedBytes, f.supply, [], by simp,
      by rw [List.append_nil]⟩
  refine Flush.loop_keeps (P := fun g => f.Offers c g) ?_ ?_ ?_ fuel sent hstart
  · rintro _ _ ⟨buffer, sentBytes, bufferedBytes, supply, offers, hoffers, rfl⟩ -
    exact ⟨buffer, sentBytes, bufferedBytes, supply, _, hoffer hoffers,
      by rw [Flush.refused, List.append_assoc]⟩
  · rintro _ _ ⟨buffer, sentBytes, bufferedBytes, supply, offers, hoffers, rfl⟩ -
    exact ⟨_, _, bufferedBytes, _, _, hoffer hoffers, by rw [Flush.taken, List.append_assoc]⟩
  · rintro _ ⟨buffer, sentBytes, bufferedBytes, supply, offers, hoffers, rfl⟩
    exact ⟨buffer, sentBytes, _, supply, offers, hoffers, rfl⟩

theorem flushToConnection_writes :
    ∃ buffer sentBytes bufferedBytes supply offers,
      (∀ o ∈ offers, w.session.connection = some o.conn ∧ ∃ bytes, o.frame = .audio bytes) ∧
      w.flushToConnection env =
        { w with
          session.outbound.buffer := buffer
          session.outbound.sentBytes := sentBytes
          session.outbound.bufferedBytes := bufferedBytes
          supply := supply
          port.wire := w.port.wire ++ offers } := by
  unfold flushToConnection
  split
  · exact ⟨w.session.outbound.buffer, w.session.outbound.sentBytes,
      w.session.outbound.bufferedBytes, w.supply, [], by simp, by rw [List.append_nil]⟩
  · rename_i c hconn
    rcases flush_loop_writes (env.accepts w.port.conns c) c w.session.tuning.coalesceMaxBytes
      (w.session.outbound.buffer.size + 1) 0
      { outbound := w.session.outbound, supply := w.supply, wire := w.port.wire } with
      ⟨buffer, sentBytes, bufferedBytes, supply, offers, hoffers, hwrites⟩
    refine ⟨buffer, sentBytes, bufferedBytes, supply, offers, ?_, by rw [hwrites]⟩
    intro o ho
    exact ⟨hconn.trans (congrArg some (hoffers o ho).1.symm), (hoffers o ho).2⟩

theorem restoreCapIfDrained_writes :
    ∃ buffer degraded supply, w.restoreCapIfDrained =
      { w with
        session.outbound.buffer := buffer
        session.outbound.degraded := degraded
        supply := supply } := by
  have hrestore : ∀ (o : Outbound β S) (p : SlabSupply), ∃ buffer degraded supply,
      o.restoreCapIfDrained w.session.tuning p =
        ({ o with buffer := buffer, degraded := degraded }, supply) := by
    intro o p
    rcases o.restoreCapIfDrained_cases w.session.tuning p with hkept | ⟨-, -, hrestored⟩
    · exact ⟨o.buffer, o.degraded, p, hkept⟩
    · exact ⟨_, false, _, hrestored⟩
  rcases hrestore w.session.outbound w.supply with ⟨buffer, degraded, supply, hwrites⟩
  unfold restoreCapIfDrained
  rw [hwrites]
  exact ⟨buffer, degraded, supply, rfl⟩

theorem drain_store_writes (others : Nat → Nat → Nat) (params : ForkParams) (tuning : Tuning)
    (d : Drain β S) (bytes : List β) :
    ∃ buffer poolStarved degraded shed supply events, (∀ e ∈ events, e.type = .degraded) ∧
      (d.store others params tuning bytes).2 =
        { outbound :=
            { d.outbound with
              buffer := buffer
              poolStarved := poolStarved
              degraded := degraded
              droppedSinceResume := d.outbound.droppedSinceResume + shed
              bufferDroppedBytes := d.outbound.bufferDroppedBytes + shed }
          supply := supply
          events := d.events ++ events } := by
  unfold Drain.store Drain.degradeIfNewEpisode
  simp only
  split
  · split
    · exact ⟨_, _, d.outbound.degraded, 0, _, [], by simp, by rw [List.append_nil]; rfl⟩
    · exact ⟨_, _, true, _, _, [_], by simp [forkEvent], rfl⟩
  · exact ⟨_, _, d.outbound.degraded, 0, _, [], by simp, by rw [List.append_nil]; rfl⟩

theorem drain_chunk_writes (others : Nat → Nat → Nat) (params : ForkParams) (tuning : Tuning)
    (d : Drain β S) (bytes : List β) :
    ∃ buffer dropping poolStarved degraded lost bufferedBytes supply events,
      (∀ e ∈ events, e.type = .degraded ∨ e.type = .overrun) ∧
      d.chunk others params tuning bytes =
        { outbound :=
            { d.outbound with
              buffer := buffer
              dropping := dropping
              poolStarved := poolStarved
              degraded := degraded
              droppedSinceResume := d.outbound.droppedSinceResume + lost
              bufferDroppedBytes := d.outbound.bufferDroppedBytes + lost
              bufferedBytes := bufferedBytes }
          supply := supply
          events := d.events ++ events } := by
  rcases drain_store_writes others params tuning d bytes with
    ⟨buffer, poolStarved, degraded, shed, supply, events, hevents, hwrites⟩
  have hevents' : ∀ e ∈ events, e.type = .degraded ∨ e.type = .overrun :=
    fun e he => Or.inl (hevents e he)
  unfold Drain.chunk
  cases hstore : d.store others params tuning bytes with
  | mk dropped stored =>
      let overrun : ForkEvent :=
        { forkEvent params .overrun (ascii "send buffer full, dropping oldest audio") with
          droppedMs := bytesToMs params dropped }
      rw [hstore] at hwrites
      simp only at hwrites ⊢
      subst hwrites
      split
      · unfold Drain.emitOverrunIfNewEpisode Drain.countDropped
        split
        · refine ⟨buffer, d.outbound.dropping, poolStarved, degraded, shed + dropped, buffer.size, supply,
            events, hevents', ?_⟩
          simp only [Nat.add_assoc]
        · refine ⟨buffer, true, poolStarved, degraded, shed + dropped, buffer.size, supply,
            events ++ [overrun], ?_, ?_⟩
          · intro e he
            rcases List.mem_append.mp he with he | he
            · exact hevents' e he
            · rw [List.mem_singleton.mp he]
              exact Or.inr rfl
          · simp only [Nat.add_assoc, List.append_assoc]
            rfl
      · exact ⟨buffer, false, poolStarved, degraded, shed, buffer.size, supply, events, hevents', rfl⟩

theorem drain_chunk_ring (others : Nat → Nat → Nat) (params : ForkParams) (tuning : Tuning)
    (d : Drain β S) (bytes : List β) :
    (d.chunk others params tuning bytes).outbound.ring = d.outbound.ring := by
  rcases drain_chunk_writes others params tuning d bytes with ⟨_, _, _, _, _, _, _, _, -, hwrites⟩
  rw [hwrites]

/-- A round takes something out of the ring. -/
theorem drain_round_size (others : Nat → Nat → Nat) (params : ForkParams) (tuning : Tuning)
    {d : Drain β S} (h : d.outbound.ring.bytes ≠ []) :
    (d.round others params tuning).outbound.ring.size < d.outbound.ring.size := by
  have hpos := List.length_pos_iff.mpr h
  unfold Drain.round
  rw [drain_chunk_ring]
  show (d.outbound.ring.bytes.drop Drain.drainChunkBytes).length < d.outbound.ring.bytes.length
  rw [List.length_drop, Drain.drainChunkBytes]
  omega

/-- The drain loop empties the ring into the buffer. -/
theorem drain_loop_writes (others : Nat → Nat → Nat) (params : ForkParams) (tuning : Tuning)
    (fuel : Nat) (d : Drain β S) : d.Fills (Drain.loop others params tuning fuel d) := by
  have hstart : d.Fills d :=
    ⟨d.outbound.ring, d.outbound.buffer, d.outbound.dropping, d.outbound.poolStarved,
      d.outbound.degraded, 0, d.outbound.bufferedBytes, d.supply, [], by simp,
      by rw [List.append_nil]; rfl⟩
  refine Drain.loop_invariant (P := d.Fills) ?_ fuel hstart
  rintro d' ⟨ring, buffer, dropping, poolStarved, degraded, lost, bufferedBytes, supply, events, hevents,
    rfl⟩ -
  unfold Drain.round
  rcases drain_chunk_writes others params tuning _ _ with
    ⟨buffer', dropping', poolStarved', degraded', lost', bufferedBytes', supply', events', hevents',
      hchunk⟩
  rw [hchunk]
  refine ⟨(ring.pop Drain.drainChunkBytes).2, buffer', dropping', poolStarved', degraded', lost + lost',
    bufferedBytes', supply', events ++ events', ?_, ?_⟩
  · intro e he
    rcases List.mem_append.mp he with he | he
    · exact hevents e he
    · exact hevents' e he
  · rw [← Nat.add_assoc, ← Nat.add_assoc, ← List.append_assoc]

theorem drainHandoffRing_writes :
    ∃ ring buffer dropping poolStarved degraded lost bufferedBytes supply events,
      (∀ e ∈ events, e.type = .degraded ∨ e.type = .overrun) ∧
      w.drainHandoffRing env =
        { w with
          session.outbound := { w.session.outbound with
            ring := ring
            buffer := buffer
            dropping := dropping
            poolStarved := poolStarved
            degraded := degraded
            droppedSinceResume := w.session.outbound.droppedSinceResume + lost
            bufferDroppedBytes := w.session.outbound.bufferDroppedBytes + lost
            bufferedBytes := bufferedBytes }
          supply := supply
          events := w.events ++ events } := by
  rcases drain_loop_writes env.others w.session.params w.session.tuning w.session.outbound.ring.size
    { outbound := w.session.outbound, supply := w.supply, events := w.events } with
    ⟨ring, buffer, dropping, poolStarved, degraded, lost, bufferedBytes, supply, events, hevents,
      hwrites⟩
  refine ⟨ring, buffer, dropping, poolStarved, degraded, lost, bufferedBytes, supply, events, hevents,
    ?_⟩
  unfold drainHandoffRing
  rw [hwrites]

/-! ## Draining -/

theorem drainExpired_writes :
    ∃ clockReads, (w.drainExpired env).2 = { w with port.clockReads := clockReads } := by
  unfold drainExpired
  split
  · exact ⟨w.port.clockReads, rfl⟩
  · exact ⟨w.port.clockReads + 1, rfl⟩

theorem sayBye_writes (drained : Bool) :
    ∃ byeSent offers,
      (∀ o ∈ offers, w.session.connection = some o.conn ∧ o.frame = .bye (encodeBye env.json)) ∧
      w.sayBye env drained =
        { w with session.byeSent := byeSent, port.wire := w.port.wire ++ offers } := by
  have hidle : ∃ byeSent offers,
      (∀ o ∈ offers, w.session.connection = some o.conn ∧ o.frame = .bye (encodeBye env.json)) ∧
      w = { w with session.byeSent := byeSent, port.wire := w.port.wire ++ offers } :=
    ⟨w.session.byeSent, [], by simp, by rw [List.append_nil]⟩
  unfold sayBye
  split
  · exact hidle
  · rename_i c hconn
    split
    · refine ⟨_, [_], ?_, rfl⟩
      intro o ho
      rw [List.mem_singleton.mp ho]
      exact ⟨hconn, rfl⟩
    · exact hidle

theorem drainTick_writes :
    ∃ buffer sentBytes bufferedBytes byeSent supply clockReads audio byes,
      (∀ o ∈ audio, w.session.connection = some o.conn ∧ ∃ bytes, o.frame = .audio bytes) ∧
      (∀ o ∈ byes, w.session.connection = some o.conn ∧ o.frame = .bye (encodeBye env.json)) ∧
      (w.drainTick env).2 =
        { w with
          session.outbound.buffer := buffer
          session.outbound.sentBytes := sentBytes
          session.outbound.bufferedBytes := bufferedBytes
          session.byeSent := byeSent
          supply := supply
          port.wire := w.port.wire ++ audio ++ byes
          port.clockReads := clockReads } := by
  rcases flushToConnection_writes env w with
    ⟨buffer, sentBytes, bufferedBytes, supply, audio, haudio, hflush⟩
  rcases drainExpired_writes env (w.flushToConnection env) with ⟨clockReads, hexpired⟩
  rcases sayBye_writes env ((w.flushToConnection env).drainExpired env).2
    (w.flushToConnection env).session.outbound.buffer.empty with ⟨byeSent, byes, hbyes, hbye⟩
  refine ⟨buffer, sentBytes, bufferedBytes, byeSent, supply, clockReads, audio, byes, haudio, ?_, ?_⟩
  · rw [hexpired, hflush] at hbyes
    exact hbyes
  · refine hbye.trans ?_
    rw [hexpired, hflush]

/-! ## The handshake -/

theorem sendResume_writes (c : Nat) :
    ∃ reconnects clockReads offers events,
      (∀ o ∈ offers, o.conn = c ∧ ∃ payload, o.frame = .resume payload) ∧
      (∀ e ∈ events, e.type = .resume) ∧
      w.sendResume env c =
        { w with
          session.reconnecting := false
          session.outbound.droppedSinceResume := 0
          session.reconnects := reconnects
          port.wire := w.port.wire ++ offers
          port.clockReads := clockReads
          events := w.events ++ events } := by
  unfold sendResume resumeGap
  split
  rename_i gapMs v hgap
  split at hgap
  · cases hgap
    exact ⟨_, w.port.clockReads, [_], [_], by simp, by simp [forkEvent], rfl⟩
  · cases hgap
    exact ⟨_, w.port.clockReads + 1, [_], [_], by simp, by simp [forkEvent], rfl⟩

theorem settleEndpoint_writes :
    ∃ reconnecting droppedSinceResume, w.settleEndpoint =
      { w with
        session.endpointChanged := false
        session.reconnecting := reconnecting
        session.outbound.droppedSinceResume := droppedSinceResume } := by
  unfold settleEndpoint
  split
  · exact ⟨_, _, rfl⟩
  · rename_i hsame
    refine ⟨w.session.reconnecting, w.session.outbound.droppedSinceResume, ?_⟩
    rw [← Bool.eq_false_iff.mpr hsame]

theorem announce_writes (c : Nat) :
    ∃ reconnecting droppedSinceResume reconnects clockReads offers events,
      (∀ o ∈ offers, o.conn = c ∧ ∃ payload, o.frame = .resume payload) ∧
      (∀ e ∈ events, e.type = .resume ∨ e.type = .connect) ∧
      w.announce env c =
        { w with
          session.endpointChanged := false
          session.reconnecting := reconnecting
          session.disconnectedAt := none
          session.outbound.droppedSinceResume := droppedSinceResume
          session.reconnects := reconnects
          port.wire := w.port.wire ++ offers
          port.clockReads := clockReads
          events := w.events ++ events } := by
  unfold announce
  simp only
  split
  · rcases sendResume_writes env w c with
      ⟨reconnects, clockReads, offers, events, hoffers, hevents, hwrites⟩
    rcases settleEndpoint_writes (w.sendResume env c) with
      ⟨reconnecting, droppedSinceResume, hsettle⟩
    refine ⟨reconnecting, droppedSinceResume, reconnects, clockReads, offers, events, hoffers,
      fun e he => Or.inl (hevents e he), ?_⟩
    rw [hsettle, hwrites]
  · rcases settleEndpoint_writes (w.emit .connect []) with
      ⟨reconnecting, droppedSinceResume, hsettle⟩
    refine ⟨reconnecting, droppedSinceResume, w.session.reconnects, w.port.clockReads, [],
      [forkEvent w.session.params .connect []], by simp, by simp [forkEvent], ?_⟩
    rw [hsettle, List.append_nil]
    rfl

/-! ## Playback -/

/-- What `PumpPlayback` makes of a path. -/
def pumped (w : World β S) (path : PlaybackPath β S) : PlaybackPath β S × SlabSupply :=
  path.pumped w.session.tuning.playbackHandoffBytes w.supply

theorem flowControl_writes (c inFlight : Nat) :
    ∃ paused pauses, w.flowControl c inFlight =
      { w with session.playback.receivePaused := paused, port.receivePauses := pauses } := by
  unfold flowControl
  split
  · exact ⟨_, _, rfl⟩
  · split
    · exact ⟨_, _, rfl⟩
    · exact ⟨w.session.playback.receivePaused, w.port.receivePauses, rfl⟩

variable {w} in
theorem pumpPlayback_none (h : w.session.playback.path = none) : w.pumpPlayback = w := by
  unfold pumpPlayback
  rw [h]

variable {w} in
theorem pumpPlayback_writes {path : PlaybackPath β S} (h : w.session.playback.path = some path) :
    ∃ bufferedBytes paused pauses names, w.pumpPlayback =
      { w with
        session.playback.path := some (w.pumped path).1
        session.playback.bufferedBytes := bufferedBytes
        session.playback.receivePaused := paused
        port.receivePauses := pauses
        supply := (w.pumped path).2
        events := w.events ++ List.map (forkEvent w.session.params .mark) names } := by
  unfold pumpPlayback
  rw [h]
  simp only
  split
  · exact ⟨_, w.session.playback.receivePaused, w.port.receivePauses, _, rfl⟩
  · rename_i c hconn
    rcases flowControl_writes _ c _ with ⟨paused, pauses, hflow⟩
    rw [hflow]
    exact ⟨_, paused, pauses, _, rfl⟩

/-- With or without a path, `PumpPlayback` keeps to the playback side and reports marks only. -/
theorem pumpPlayback_local :
    ∃ playback pauses supply names, w.pumpPlayback =
      { w with
        session.playback := playback
        port.receivePauses := pauses
        supply := supply
        events := w.events ++ List.map (forkEvent w.session.params .mark) names } := by
  cases hpath : w.session.playback.path with
  | none =>
      rw [pumpPlayback_none hpath]
      exact ⟨w.session.playback, w.port.receivePauses, w.supply, [], by simp⟩
  | some path =>
      rcases pumpPlayback_writes hpath with ⟨_, _, _, _, hwrites⟩
      exact ⟨_, _, _, _, hwrites⟩

theorem outbound_pumpPlayback :
    w.pumpPlayback.session.outbound = w.session.outbound := by
  rcases pumpPlayback_local w with ⟨_, _, _, _, hwrites⟩
  rw [hwrites]

theorem unsupported_writes (detail : Text) :
    ∃ events, (∀ e ∈ events, e.type = .error) ∧ w.unsupported detail =
      { w with
        session.unsupportedInbound := w.session.unsupportedInbound + 1
        events := w.events ++ events } := by
  unfold unsupported
  simp only
  split
  · exact ⟨[forkEvent w.session.params .error detail], by simp [forkEvent], rfl⟩
  · exact ⟨[], by simp, by rw [List.append_nil]⟩

theorem handleClear_writes (path : PlaybackPath β S) :
    ∃ paused pauses, w.handleClear path =
      { w with
        session.playback := { w.session.playback with
          path := some { path with jitter := (path.jitter.clear w.supply).1 }
          generation := w.session.playback.generation + 1
          bufferedBytes := 0
          bargeIns := w.session.playback.bargeIns + 1
          started := false
          receivePaused := paused }
        port.receivePauses := pauses
        supply := (path.jitter.clear w.supply).2
        events := w.events ++ [forkEvent w.session.params .playbackCleared []] } := by
  unfold handleClear
  simp only
  split
  · exact ⟨w.session.playback.receivePaused, w.port.receivePauses, rfl⟩
  · split
    · exact ⟨_, _, rfl⟩
    · exact ⟨w.session.playback.receivePaused, w.port.receivePauses, rfl⟩

theorem receive_writes (path : PlaybackPath β S) (bytes : List β) :
    ∃ dropped started events, (∀ e ∈ events, e.type = .error ∨ e.type = .playbackStart) ∧
      w.receive env path bytes =
        { w with
          session.playback := { w.session.playback with
            path := some { path with jitter := (path.jitter.append env.others w.supply bytes).2.1 }
            bytesReceived := w.session.playback.bytesReceived + bytes.length
            bytesDropped := dropped
            started := started }
          supply := (path.jitter.append env.others w.supply bytes).2.2
          events := w.events ++ events } := by
  let overflow := forkEvent w.session.params .error
    (ascii "playback buffer overflowed, audio discarded")
  let begins := forkEvent w.session.params .playbackStart []
  let dropped := w.session.playback.bytesDropped +
    (path.jitter.append env.others w.supply bytes).1
  unfold receive
  simp only
  split
  · split
    · refine ⟨dropped, true, [overflow] ++ [begins], by simp [overflow, begins, forkEvent], ?_⟩
      rw [← List.append_assoc]
      rfl
    · exact ⟨dropped, w.session.playback.started, [overflow], by simp [overflow, forkEvent], rfl⟩
  · split
    · exact ⟨w.session.playback.bytesDropped, true, [begins], by simp [begins, forkEvent], rfl⟩
    · exact ⟨w.session.playback.bytesDropped, w.session.playback.started, [], by simp,
        by rw [List.append_nil]⟩

/-- A read takes from the handoff ring and keeps the media thread's counters. -/
theorem readPlayback_writes (count : Nat) :
    ∃ path mediaGeneration bytesPlayed underruns, w.readPlayback count =
      { w with
        session.playback.path := path
        session.playback.mediaGeneration := mediaGeneration
        session.playback.bytesPlayed := bytesPlayed
        session.playback.underruns := underruns } := by
  have hread : ∀ p : Playback β S, ∃ path mediaGeneration bytesPlayed underruns,
      (p.read count).2 =
        { p with
          path := path
          mediaGeneration := mediaGeneration
          bytesPlayed := bytesPlayed
          underruns := underruns } := by
    intro p
    unfold Playback.read
    split
    · exact ⟨p.path, p.mediaGeneration, p.bytesPlayed, p.underruns, rfl⟩
    · split
      · exact ⟨p.path, p.mediaGeneration, p.bytesPlayed, p.underruns, rfl⟩
      · split
        · exact ⟨_, _, p.bytesPlayed, p.underruns, rfl⟩
        · simp only
          split
          · exact ⟨_, p.mediaGeneration, p.bytesPlayed, _, rfl⟩
          · exact ⟨_, p.mediaGeneration, _, p.underruns, rfl⟩
  rcases hread w.session.playback with ⟨path, mediaGeneration, bytesPlayed, underruns, hwrites⟩
  refine ⟨path, mediaGeneration, bytesPlayed, underruns, ?_⟩
  unfold readPlayback
  rw [hwrites]

/-! ## Sockets -/

theorem abandonSocket_writes :
    ∃ conns, conns.length = w.port.conns.length ∧
      w.abandonSocket = { w with session.connection := none, port.conns := conns } := by
  unfold abandonSocket
  split
  · rename_i hconn
    refine ⟨w.port.conns, rfl, ?_⟩
    rw [← hconn]
  · exact ⟨_, List.length_modify _ _ _, rfl⟩

/-- The bye of a modify is offered on the connection that is given up. -/
theorem leave_writes :
    ∃ conns offers, conns.length = w.port.conns.length ∧
      (∀ o ∈ offers, w.session.connection = some o.conn ∧ o.frame = .bye (encodeBye env.json)) ∧
      w.leave env =
        { w with
          session.connection := none
          port.conns := conns
          port.wire := w.port.wire ++ offers } := by
  unfold leave
  split
  · rename_i hconn
    refine ⟨w.port.conns, [], rfl, by simp, ?_⟩
    rw [List.append_nil, ← hconn]
  · rename_i c hconn
    refine ⟨_, [_], List.length_modify _ _ _, ?_, rfl⟩
    intro o ho
    rw [List.mem_singleton.mp ho]
    exact ⟨hconn, rfl⟩

theorem applyModify_writes (endpoint : Endpoint) :
    ∃ endpoint' endpointChanged connection conns offers,
      (∀ o ∈ offers, o.frame = .bye (encodeBye env.json)) ∧
      w.applyModify env endpoint =
        { w with
          session.params.endpoint := endpoint'
          session.endpointChanged := endpointChanged
          session.connection := connection
          port.conns := conns
          port.wire := w.port.wire ++ offers } := by
  unfold applyModify
  split
  · rcases leave_writes env
      { w with session.params.endpoint := endpoint, session.endpointChanged := true } with
      ⟨conns, offers, -, hoffers, hwrites⟩
    exact ⟨_, _, _, conns, offers, fun o ho => (hoffers o ho).2, hwrites⟩
  · exact ⟨_, _, _, _, [], by simp, by rw [List.append_nil]⟩

theorem noteClosed_writes (connectFailed : Bool) :
    ∃ since clockReads events, (∀ e ∈ events, e.type = .connectFailed) ∧
      w.noteClosed env connectFailed =
        { w with
          session.connection := none
          session.disconnectedAt := since
          port.clockReads := clockReads
          events := w.events ++ events } := by
  let failed := forkEvent w.session.params .connectFailed []
  have hfailed : ∀ e ∈ [failed], e.type = .connectFailed := by simp [failed, forkEvent]
  unfold noteClosed
  simp only
  split
  · split
    · exact ⟨w.session.disconnectedAt, w.port.clockReads, [failed], hfailed, rfl⟩
    · exact ⟨w.session.disconnectedAt, w.port.clockReads, [], by simp, by rw [List.append_nil]⟩
  · split
    · exact ⟨_, w.port.clockReads + 1, [failed], hfailed, rfl⟩
    · exact ⟨_, w.port.clockReads + 1, [], by simp, by rw [List.append_nil]; rfl⟩

theorem noteRefused_writes :
    ∃ events, (∀ e ∈ events, e.type = .connectFailed) ∧
      w.noteRefused = { w with session.connection := none, events := w.events ++ events } := by
  unfold noteRefused
  simp only
  split
  · exact ⟨[forkEvent w.session.params .connectFailed []], by simp [forkEvent], rfl⟩
  · exact ⟨[], by simp, by rw [List.append_nil]⟩

/-! ## The end -/

/-- `Finalize` empties the buffers, reports `stop` last, and runs the callback if there is one. -/
theorem finalize_writes :
    ∃ supply events, (∀ e ∈ events, e.type = .playbackStop) ∧
      w.finalize =
        { w with
          session.outbound.buffer := (w.session.outbound.buffer.clear w.supply).1
          session.pendingTexts := []
          session.pendingTextsDropped :=
            w.session.pendingTextsDropped + w.session.pendingTexts.length
          session.playback.path := w.session.playback.path.map fun path =>
            { path with jitter := (path.jitter.clear w.supply).1 }
          session.connection := none
          session.onFinished := false
          supply := supply
          events := w.events ++ events ++ [forkEvent w.session.params .stop []]
          finishedRuns := if w.session.onFinished then w.finishedRuns + 1 else w.finishedRuns } := by
  let supply := (w.session.outbound.buffer.clear w.supply).2
  let stopped := forkEvent w.session.params .playbackStop []
  have hrun : ∀ v : World β S,
      (if v.session.onFinished then
        { v with session.onFinished := false, finishedRuns := v.finishedRuns + 1 }
      else
        v) =
        { v with
          session.onFinished := false
          finishedRuns := if v.session.onFinished then v.finishedRuns + 1 else v.finishedRuns } := by
    intro v
    split
    · rfl
    · rename_i hnone
      rw [← Bool.eq_false_iff.mpr hnone]
  unfold finalize
  simp only
  rw [hrun]
  cases hpath : w.session.playback.path with
  | none =>
      simp only
      refine ⟨supply, [], by simp, ?_⟩
      rw [List.append_nil, Option.map_none, ← hpath]
      rfl
  | some path =>
      simp only
      split
      · exact ⟨(path.jitter.clear supply).2, [stopped], by simp [stopped, forkEvent], rfl⟩
      · exact ⟨(path.jitter.clear supply).2, [], by simp, by rw [List.append_nil]; rfl⟩

end World

/-- The calls that do no more than post a task. -/
def Step.posts : Step β → Bool
  | .stop | .sendText _ | .sendDtmf _ _ | .modify _ => true
  | _ => false

/-- What holds whatever is posted holds after such a call. -/
theorem step_posts {env : Env β} {w : World β S} {s : Step β} {P : World β S → Prop}
    (hs : s.posts = true) (h : ∀ posted, P { w with port.posted := posted }) :
    P (step env w s) := by
  -- a session on its way out posts nothing, and neither does a digit without an encoding
  have hsend : ∀ text, P (w.sendText text) := by
    intro text
    unfold World.sendText
    split <;> exact h _
  cases s with
  | stop => exact h _
  | sendText text => exact hsend text
  | sendDtmf digit durationMs =>
      simp only [step, World.sendDtmf]
      split
      · exact h _
      · exact hsend _
  | modify endpoint =>
      simp only [step, World.modify]
      split <;> exact h _
  | _ => cases hs

end Session
end AudioFork
