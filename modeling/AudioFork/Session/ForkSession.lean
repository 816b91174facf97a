import AudioFork.Session.Outbound
import AudioFork.Session.Playback
import AudioFork.Session.State

/-!
# ForkSession — one fork of one call

The members of `ForkSession`, and the functions of it that move audio, by explicit state passing
over a `World`: the session together with the port, the slab pool and the event sink it acts on.
Functions that lead back into `Apply` take it as an argument; the knot is tied in `Driver`.  Its
counters are `uint64_t` in the source and `Nat` here: no run counts to 2^64.
-/

namespace AudioFork
namespace Session

open Buffers Protocol

variable {β : Type} {S : ℕ+}

structure ForkSession (β : Type) (S : ℕ+) where
  params : ForkParams
  tuning : Tuning
  state : SessionState
  outbound : Outbound β S
  playback : Playback β S
  unsupportedInbound : Nat
  connection : Option Nat
  /-- Whether a callback is installed in `on_finished_`. -/
  onFinished : Bool
  pendingTexts : List Text
  pendingTextsDropped : Nat
  reconnecting : Bool
  endpointChanged : Bool
  byeSent : Bool
  disconnectedAt : Option Nat
  drainDeadline : Option Nat
  reconnects : Nat

/-- The session and what it acts on.  The last two fields are history: the bytes offered to
`PushAudio` in the live states, and those the handoff ring took. -/
structure World (β : Type) (S : ℕ+) where
  session : ForkSession β S
  port : Port β
  supply : SlabSupply
  events : List ForkEvent
  finishedRuns : Nat
  started : Bool
  offered : Nat
  handed : List β

/-! ## Create -/

namespace ForkSession

def initial (params : ForkParams) (tuning : Tuning) (onFinished : Bool) (ring : SpscByteRing β)
    (path : Option (PlaybackPath β S)) (rate channels : Nat) : ForkSession β S :=
  { params := params
    tuning := tuning
    state := .connecting
    outbound :=
      { ring := ring
        buffer := .create tuning.sendCapBytes
        paused := false
        dropping := false
        poolStarved := false
        degraded := false
        droppedSinceResume := 0
        mediaDroppedBytes := 0
        bufferDroppedBytes := 0
        sentBytes := 0
        bufferedBytes := 0
        pausedBytes := 0 }
    playback :=
      { path := path
        generation := 0
        mediaGeneration := 0
        rate := rate
        channels := channels
        started := false
        receivePaused := false
        bytesReceived := 0
        bytesPlayed := 0
        underruns := 0
        bargeIns := 0
        bufferedBytes := 0
        bytesDropped := 0 }
    unsupportedInbound := 0
    connection := none
    onFinished := onFinished
    pendingTexts := []
    pendingTextsDropped := 0
    reconnecting := false
    endpointChanged := false
    byeSent := false
    disconnectedAt := none
    drainDeadline := none
    reconnects := 0 }

def create (params : ForkParams) (tuning : Tuning) (onFinished : Bool) :
    Option (ForkSession β S) :=
  if tuning.sendCapBytes = 0 ∨ tuning.handoffBytes = 0 ∨ tuning.coalesceMaxBytes = 0 then
    none
  else
    match SpscByteRing.create tuning.handoffBytes with
    | none => none
    | some ring =>
        if tuning.playbackHighWatermarkBytes > 0 ∧ tuning.playbackHandoffBytes > 0 then
          match SpscByteRing.create tuning.playbackHandoffBytes with
          | none => none
          | some playbackRing =>
              some (initial params tuning onFinished ring
                (some
                  { jitter := .create (tuning.playbackHighWatermarkBytes * 2)
                    ring := playbackRing })
                params.format.sampleRate 1)
        else
          some (initial params tuning onFinished ring none 0 0)

end ForkSession

/-- A session that `Create` returned, before `Start`. -/
def World.create (params : ForkParams) (tuning : Tuning) (onFinished : Bool)
    (supply : SlabSupply) : Option (World β S) :=
  match ForkSession.create params tuning onFinished with
  | none => none
  | some session =>
      some
        { session := session
          port := .initial
          supply := supply
          events := []
          finishedRuns := 0
          started := false
          offered := 0
          handed := [] }

/-- What `Create` returns: empty buffers under caps that are not zero, and a jitter buffer of two high
watermarks if there is one. -/
theorem World.create_eq {params : ForkParams} {tuning : Tuning} {onFinished : Bool}
    {supply : SlabSupply} {w : World β S}
    (h : World.create params tuning onFinished supply = some w) :
    ∃ ring path rate channels, ring.bytes = [] ∧ tuning.sendCapBytes ≠ 0 ∧
      (∀ p, path = some p → p.jitter = .create (tuning.playbackHighWatermarkBytes * 2) ∧
        p.ring.bytes = [] ∧ 0 < tuning.playbackHighWatermarkBytes) ∧
      w = { session := .initial params tuning onFinished ring path rate channels
            port := .initial
            supply := supply
            events := []
            finishedRuns := 0
            started := false
            offered := 0
            handed := [] } := by
  unfold World.create ForkSession.create at h
  split at h <;> rename_i hsession
  · cases h
  · cases h
    split at hsession
    · cases hsession
    · rename_i hcaps
      have hcap : tuning.sendCapBytes ≠ 0 := fun hzero => hcaps (Or.inl hzero)
      split at hsession
      · cases hsession
      · rename_i ring hcreate
        have hring := SpscByteRing.bytes_create hcreate
        split at hsession
        · rename_i hplays
          split at hsession
          · cases hsession
          · rename_i playbackRing hplayback
            cases hsession
            refine ⟨ring, _, _, _, hring, hcap, ?_, rfl⟩
            rintro p ⟨⟩
            exact ⟨rfl, SpscByteRing.bytes_create hplayback, hplays.1⟩
        · -- playback is off
          cases hsession
          refine ⟨ring, none, _, _, hring, hcap, ?_, rfl⟩
          intro p hp
          cases hp

/-- What most invariants need of it: empty buffers, and caps that are not zero. -/
theorem World.create_spec {params : ForkParams} {tuning : Tuning} {onFinished : Bool}
    {supply : SlabSupply} {w : World β S}
    (h : World.create params tuning onFinished supply = some w) :
    ∃ ring path rate channels, ring.bytes = [] ∧ tuning.sendCapBytes ≠ 0 ∧
      (∀ p, path = some p → p.jitter.content = [] ∧ p.ring.bytes = []) ∧
      w = { session := .initial params tuning onFinished ring path rate channels
            port := .initial
            supply := supply
            events := []
            finishedRuns := 0
            started := false
            offered := 0
            handed := [] } := by
  rcases create_eq h with ⟨ring, path, rate, channels, hring, hcap, hpath, hw⟩
  refine ⟨ring, path, rate, channels, hring, hcap, ?_, hw⟩
  intro p hp
  rcases hpath p hp with ⟨hjitter, hempty, -⟩
  rw [hjitter]
  exact ⟨rfl, hempty⟩

/-! ## Primitives -/

namespace World

def emit (type : ForkEventType) (detail : Text) (w : World β S) : World β S :=
  { w with events := w.events ++ [forkEvent w.session.params type detail] }

/-- `clock_.Now()`. -/
def now (env : Env β) (w : World β S) : Nat × World β S :=
  (env.now w.port.clockReads, { w with port.clockReads := w.port.clockReads + 1 })

/-- `SendText` or `SendBinary` on connection `c`. -/
def send (env : Env β) (w : World β S) (c : Nat) (f : Frame β) : Bool × World β S :=
  let ok := env.accepts w.port.conns c w.port.wire.length f
  (ok, { w with port.wire := w.port.wire ++ [{ conn := c, frame := f, accepted := ok }] })

/-- `Close` on connection `c`. -/
def close (w : World β S) (c : Nat) : World β S :=
  { w with port := w.port.close c }

/-- `OnEvent`, then `Apply` on the action it answers with. -/
def fireWith (rec : SessionAction → World β S → World β S) (e : SessionEvent) (w : World β S) :
    World β S :=
  rec (sessionTransitionFor w.session.state e).action
    { w with session.state := (sessionTransitionFor w.session.state e).next }

/-! ## Audio -/

def drainHandoffRing (env : Env β) (w : World β S) : World β S :=
  match Drain.loop env.others w.session.params w.session.tuning w.session.outbound.ring.size
      { outbound := w.session.outbound, supply := w.supply, events := w.events } with
  | { outbound, supply, events } =>
      { w with session.outbound := outbound, supply := supply, events := events }

def flushToConnection (env : Env β) (w : World β S) : World β S :=
  match w.session.connection with
  | none => w
  | some c =>
      match Flush.loop (env.accepts w.port.conns c) c w.session.tuning.coalesceMaxBytes
          (w.session.outbound.buffer.size + 1) 0
          { outbound := w.session.outbound, supply := w.supply, wire := w.port.wire } with
      | { outbound, supply, wire } =>
          { w with session.outbound := outbound, supply := supply, port.wire := wire }

def restoreCapIfDrained (w : World β S) : World β S :=
  match w.session.outbound.restoreCapIfDrained w.session.tuning w.supply with
  | (outbound, supply) => { w with session.outbound := outbound, supply := supply }

/-- The watermarks count everything unplayed, buffer and handoff ring. -/
def flowControl (c inFlight : Nat) (w : World β S) : World β S :=
  if w.session.playback.receivePaused = false ∧
      inFlight ≥ w.session.tuning.playbackHighWatermarkBytes then
    { w with
      session.playback.receivePaused := true
      port.receivePauses := w.port.receivePauses ++ [(c, true)] }
  else if w.session.playback.receivePaused ∧
      inFlight ≤ w.session.tuning.playbackLowWatermarkBytes then
    { w with
      session.playback.receivePaused := false
      port.receivePauses := w.port.receivePauses ++ [(c, false)] }
  else
    w

def pumpPlayback (w : World β S) : World β S :=
  match w.session.playback.path with
  | none => w
  | some path =>
      match path.transfer w.session.tuning.playbackHandoffBytes path.jitter.size w.supply with
      | (path, supply) =>
          match path.jitter.takeReachedMarks with
          | (names, jitter) =>
              let w := { w with
                session.playback.path := some { path with jitter := jitter }
                session.playback.bufferedBytes := jitter.size
                supply := supply
                events := w.events ++ names.map (forkEvent w.session.params .mark) }
              match w.session.connection with
              | none => w
              | some c => w.flowControl c (jitter.size + path.ring.size)

/-- `drain_deadline_.has_value() && clock_.Now() >= *drain_deadline_`. -/
def drainExpired (env : Env β) (w : World β S) : Bool × World β S :=
  match w.session.drainDeadline with
  | none => (false, w)
  | some deadline =>
      match w.now env with
      | (now, w) => (decide (now ≥ deadline), w)

/-- Bye, once everything is out. -/
def sayBye (env : Env β) (drained : Bool) (w : World β S) : World β S :=
  match w.session.connection with
  | none => w
  | some c =>
      if drained ∧ w.session.byeSent = false then
        match w.send env c (.bye (encodeBye env.json)) with
        | (ok, w) => { w with session.byeSent := ok }
      else
        w

/-- The drain branch of `Pump`: flush, say bye, and report whether the drain is over. -/
def drainTick (env : Env β) (w : World β S) : Bool × World β S :=
  let w := w.flushToConnection env
  let drained := w.session.outbound.buffer.empty
  match w.drainExpired env with
  | (expired, w) =>
      let w := w.sayBye env drained
      ((drained && w.session.byeSent) || expired, w)

def pumpWith (rec : SessionAction → World β S → World β S) (env : Env β) (w : World β S) :
    World β S :=
  let w := (w.drainHandoffRing env).pumpPlayback
  match w.session.state with
  | .active => (w.flushToConnection env).restoreCapIfDrained
  | .draining =>
      match w.drainTick env with
      | (true, w) => fireWith rec .drainComplete w
      | (false, w) => w
  | _ => w

end World

end Session
end AudioFork
