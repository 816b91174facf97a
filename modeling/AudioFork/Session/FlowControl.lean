import AudioFork.Lib.KeyedTrace
import AudioFork.Session.Chores

/-!
# FlowControl — which socket is paused

`receive_paused_` belongs to the session, the pause itself to a socket.  The two agree as long as the
flag is down whenever a connection is adopted: every call of `SetReceivePaused` goes to the current
connection and carries the new value of the flag (`Flow.Agrees`).  A connection adopted while the
flag is up is not paused and never will be, because the session believes it is.
-/

namespace AudioFork
namespace Session

open Buffers Protocol Lib

variable {β : Type} {S : ℕ+}

/-- The argument of the last `SetReceivePaused` on connection `c`; `false` if there was none. -/
def pausedOn (calls : List (Nat × Bool)) (c : Nat) : Bool := (project calls c).getLastD false

theorem pausedOn_same (calls : List (Nat × Bool)) (c : Nat) (paused : Bool) :
    pausedOn (calls ++ [(c, paused)]) c = paused := by
  have hone : project [(c, paused)] c = [paused] := by simp [project]
  rw [pausedOn, project_append, hone, List.getLastD_concat]

theorem pausedOn_unknown {calls : List (Nat × Bool)} {c : Nat} (h : ∀ e ∈ calls, e.1 < c) :
    pausedOn calls c = false := by
  have hnone : project calls c = [] := project_of_other fun e he => Nat.ne_of_lt (h e he)
  rw [pausedOn, hnone]
  rfl

/-! ## The flag and the calls -/

structure Flow where
  connection : Option Nat
  /-- How many connections there are; the next one gets this number. -/
  opened : Nat
  receivePaused : Bool
  receivePauses : List (Nat × Bool)

namespace Flow

structure Agrees (f : Flow) : Prop where
  current : ∀ c, f.connection = some c → c < f.opened ∧ f.receivePaused = pausedOn f.receivePauses c
  known : ∀ e ∈ f.receivePauses, e.1 < f.opened

variable {f : Flow}

theorem Agrees.detach (h : f.Agrees) : Agrees { f with connection := none } where
  current := by
    intro c hc
    cases hc
  known := h.known

/-- A call on the current connection that carries the new flag. -/
theorem Agrees.call (h : f.Agrees) {c : Nat} (hconn : f.connection = some c) (paused : Bool) :
    Agrees
      { f with receivePaused := paused, receivePauses := f.receivePauses ++ [(c, paused)] } where
  current := by
    intro a ha
    obtain rfl : c = a := Option.some.inj (hconn.symm.trans ha)
    exact ⟨(h.current c hconn).1, (pausedOn_same f.receivePauses c paused).symm⟩
  known := by
    intro e he
    rcases List.mem_append.mp he with hold | hnew
    · exact h.known e hold
    · rw [List.mem_singleton.mp hnew]
      exact (h.current c hconn).1

/-- A new connection has had no call, so the flag has to be down. -/
theorem Agrees.adopt (h : f.Agrees) (hflag : f.receivePaused = false) :
    Agrees { f with connection := some f.opened, opened := f.opened + 1 } where
  current := by
    intro c hc
    obtain rfl : f.opened = c := Option.some.inj hc
    exact ⟨Nat.lt_succ_self _, hflag.trans (pausedOn_unknown h.known).symm⟩
  known := fun e he => Nat.lt_succ_of_lt (h.known e he)

end Flow

namespace World

def flow (w : World β S) : Flow :=
  { connection := w.session.connection
    opened := w.port.conns.length
    receivePaused := w.session.playback.receivePaused
    receivePauses := w.port.receivePauses }

/-- A change that keeps the flag and the calls, and keeps the connection or forgets it. -/
def Drifts (w v : World β S) : Prop :=
  v.flow = w.flow ∨ v.flow = { w.flow with connection := none }

theorem Drifts.agrees {w v : World β S} (h : Drifts w v) (hw : w.flow.Agrees) : v.flow.Agrees := by
  rcases h with hsame | hgone
  · exact hsame ▸ hw
  · exact hgone ▸ hw.detach

theorem Drifts.trans {u v w : World β S} (h : Drifts w v) (h' : Drifts v u) : Drifts w u := by
  unfold Drifts at h h' ⊢
  rcases h' with h' | h' <;> rcases h with h | h <;> rw [h', h]
  · exact Or.inl rfl
  · exact Or.inr rfl
  · exact Or.inr rfl
  · exact Or.inr rfl

/-! ## Functions that leave the calls alone -/

section

variable (env : Env β) (w : World β S)

theorem flow_flushPendingTexts : (w.flushPendingTexts env).flow = w.flow := by
  rcases flushPendingTexts_writes env w with ⟨_, _, -, hwrites⟩
  rw [hwrites]
  rfl

theorem flow_announce (c : Nat) : (w.announce env c).flow = w.flow := by
  rcases announce_writes env w c with ⟨_, _, _, _, _, _, -, -, hwrites⟩
  rw [hwrites]
  rfl

theorem flow_greet (c : Nat) (hello : Text) : (w.greet env c hello).flow = w.flow := by
  unfold greet
  rw [flow_flushPendingTexts, flow_announce]
  rfl

theorem flow_deliverText (text : Text) : (w.deliverText env text).flow = w.flow := by
  rcases deliverText_writes env w text with ⟨_, _, _, -, hwrites⟩
  rw [hwrites]
  rfl

theorem flow_close (c : Nat) : (w.close c).flow = w.flow := by
  simp [flow, close, Port.close]

theorem drifts_retire : Drifts w w.retire := by
  rcases finalize_writes { w with session.state := .dead } with ⟨_, _, -, hwrites⟩
  unfold retire
  rw [hwrites]
  exact Or.inr rfl

theorem drifts_hangUp : Drifts w w.hangUp :=
  hangUp_ends (P := Drifts w) (drifts_retire w) fun c => Or.inl (flow_close _ c)

theorem drifts_abandonSocket : Drifts w w.abandonSocket := by
  rcases abandonSocket_writes w with ⟨conns, hlength, hwrites⟩
  rw [hwrites]
  exact Or.inr (by simp [flow, hlength])

theorem drifts_leave : Drifts w (w.leave env) := by
  rcases leave_writes env w with ⟨conns, _, hlength, -, hwrites⟩
  rw [hwrites]
  exact Or.inr (by simp [flow, hlength])

theorem drifts_applyModify (endpoint : Endpoint) : Drifts w (w.applyModify env endpoint) := by
  unfold applyModify
  split
  · exact drifts_leave env
      { w with session.params.endpoint := endpoint, session.endpointChanged := true }
  · exact Or.inl rfl

theorem drifts_noteClosed (connectFailed : Bool) : Drifts w (w.noteClosed env connectFailed) := by
  rcases noteClosed_writes env w connectFailed with ⟨_, _, _, -, hwrites⟩
  rw [hwrites]
  exact Or.inr rfl

theorem drifts_noteRefused : Drifts w w.noteRefused := by
  rcases noteRefused_writes w with ⟨_, -, hwrites⟩
  rw [hwrites]
  exact Or.inr rfl

theorem flow_flushToConnection : (w.flushToConnection env).flow = w.flow := by
  rcases flushToConnection_writes env w with ⟨_, _, _, _, _, -, hwrites⟩
  rw [hwrites]
  rfl

theorem drifts_drainTurn : Drifts w (w.drainTurn env) := by
  have htick : (w.drainTick env).2.flow = w.flow := by
    rcases drainTick_writes env w with ⟨_, _, _, _, _, _, _, _, -, -, hwrites⟩
    rw [hwrites]
    rfl
  exact drainTurn_ends (P := Drifts w) (Or.inl htick) fun h => Drifts.trans h (drifts_hangUp _)

theorem flow_unsupported (detail : Text) : (w.unsupported detail).flow = w.flow := by
  rcases unsupported_writes w detail with ⟨_, -, hwrites⟩
  rw [hwrites]
  rfl

theorem flow_receive (path : PlaybackPath β S) (bytes : List β) :
    (w.receive env path bytes).flow = w.flow := by
  rcases receive_writes env w path bytes with ⟨_, _, _, -, hwrites⟩
  rw [hwrites]
  rfl

theorem flow_pushAudio (pcm : List β) : (w.pushAudio pcm).flow = w.flow := by
  rcases pushAudio_writes w pcm with ⟨_, _, _, _, _, hwrites⟩
  rw [hwrites]
  rfl

theorem flow_readPlayback (count : Nat) : (w.readPlayback count).flow = w.flow := by
  rcases readPlayback_writes w count with ⟨_, _, _, _, hwrites⟩
  rw [hwrites]
  rfl

end

/-! ## Functions that call -/

section

variable {w : World β S}

theorem agrees_flowControl (h : w.flow.Agrees) {c : Nat} (hconn : w.session.connection = some c)
    (inFlight : Nat) : (w.flowControl c inFlight).flow.Agrees := by
  unfold flowControl
  split
  · exact h.call hconn true
  · split
    · exact h.call hconn false
    · exact h

/-- `PumpPlayback` before it looks at the watermarks. -/
def handedOver (w : World β S) (path : PlaybackPath β S) : World β S :=
  let moved := path.transfer w.session.tuning.playbackHandoffBytes path.jitter.size w.supply
  { w with
    session.playback.path := some (w.pumped path).1
    session.playback.bufferedBytes := (w.pumped path).1.jitter.size
    supply := (w.pumped path).2
    events := w.events ++
      moved.1.jitter.takeReachedMarks.1.map (forkEvent w.session.params .mark) }

theorem pumpPlayback_some {path : PlaybackPath β S} (hpath : w.session.playback.path = some path) :
    w.pumpPlayback =
      match w.session.connection with
      | none => w.handedOver path
      | some c =>
          (w.handedOver path).flowControl c
            ((w.pumped path).1.jitter.size + (w.pumped path).1.ring.size) := by
  unfold pumpPlayback
  rw [hpath]
  rfl

theorem agrees_pumpPlayback (h : w.flow.Agrees) : w.pumpPlayback.flow.Agrees := by
  cases hpath : w.session.playback.path with
  | none =>
      rw [pumpPlayback_none hpath]
      exact h
  | some path =>
      rw [pumpPlayback_some hpath]
      split
      · exact h
      · rename_i c hconn
        exact agrees_flowControl (w := w.handedOver path) h hconn _

theorem agrees_handleClear (h : w.flow.Agrees) (path : PlaybackPath β S) :
    (w.handleClear path).flow.Agrees := by
  unfold handleClear
  simp only
  split
  · exact h
  · rename_i c hconn
    split
    · exact h.call hconn false
    · exact h

end

/-- Above both watermarks the current connection is paused. -/
def Held (w : World β S) : Prop :=
  ∀ c ∈ w.session.connection, ∀ path ∈ w.session.playback.path,
    w.session.tuning.playbackHighWatermarkBytes ≤ path.jitter.size + path.ring.size →
    w.session.tuning.playbackLowWatermarkBytes < path.jitter.size + path.ring.size →
    pausedOn w.port.receivePauses c = true

instance Held.decidable (w : World β S) : Decidable w.Held :=
  inferInstanceAs (Decidable (∀ c ∈ w.session.connection, ∀ path ∈ w.session.playback.path, _ → _))

/-- The flag is up after flow control has seen a fill level above both watermarks. -/
theorem receivePaused_flowControl (w : World β S) (c : Nat) {inFlight : Nat}
    (hhigh : w.session.tuning.playbackHighWatermarkBytes ≤ inFlight)
    (hlow : w.session.tuning.playbackLowWatermarkBytes < inFlight) :
    (w.flowControl c inFlight).session.playback.receivePaused = true := by
  unfold flowControl
  split
  · rfl
  · rename_i hup
    split
    · rename_i hdown
      exact absurd hdown.2 (Nat.not_le.mpr hlow)
    · simpa [hhigh] using hup

theorem path_flowControl (w : World β S) (c inFlight : Nat) :
    (w.flowControl c inFlight).session.playback.path = w.session.playback.path := by
  rcases flowControl_writes w c inFlight with ⟨_, _, hwrites⟩
  rw [hwrites]

theorem tuning_flowControl (w : World β S) (c inFlight : Nat) :
    (w.flowControl c inFlight).session.tuning = w.session.tuning := by
  rcases flowControl_writes w c inFlight with ⟨_, _, hwrites⟩
  rw [hwrites]

theorem held_pumpPlayback {w : World β S} (h : w.flow.Agrees) : Held w.pumpPlayback := by
  have hagrees : w.pumpPlayback.flow.Agrees := agrees_pumpPlayback h
  intro c hconn path hpath hhigh hlow
  have hcall := (hagrees.current c hconn).2
  refine hcall.symm.trans ?_
  show w.pumpPlayback.session.playback.receivePaused = true
  cases hbefore : w.session.playback.path with
  | none =>
      rw [pumpPlayback_none hbefore, hbefore] at hpath
      cases hpath
  | some before =>
      have hpump := pumpPlayback_some hbefore
      cases hheld : w.session.connection with
      | none =>
          -- without a connection nothing is called, and there is nothing to prove
          rw [hheld] at hpump
          rw [hpump] at hconn
          exact absurd (hheld.symm.trans hconn) (by simp)
      | some a =>
          rw [hheld] at hpump
          rw [hpump, path_flowControl] at hpath
          obtain rfl : (w.pumped before).1 = path := Option.some.inj hpath
          rw [hpump, tuning_flowControl] at hhigh hlow
          rw [hpump]
          exact receivePaused_flowControl (w.handedOver before) a hhigh hlow

/-! ## Steps -/

theorem agrees_chore {env : Env β} {pumps : World β S → Prop} {w v : World β S}
    (hchore : Chore env pumps w v)
    (h : w.flow.Agrees) : v.flow.Agrees := by
  cases hchore with
  | setStarted => exact h
  | takeTimer => exact h
  | takeTask i _ => exact h
  | post task _ => exact h
  | markConnected c => exact (Drifts.agrees (Or.inl (by simp [flow, World.markConnected])) h)
  | markClosed c => exact (Drifts.agrees (Or.inl (by simp [flow, World.markClosed])) h)
  | countConnect => exact h
  | emit type detail _ => exact h
  | setPaused paused => exact h
  | drainHandoffRing _ => exact h
  | flushToConnection _ => exact (flow_flushToConnection env w).symm ▸ h
  | restoreCapIfDrained _ => exact h
  | receive bytes _ => exact (flow_receive env w _ bytes).symm ▸ h
  | pumpPlayback => exact agrees_pumpPlayback h
  | readPlayback count => exact (flow_readPlayback w count).symm ▸ h
  | handlePlaybackStart sampleRate channels => exact h
  | handleClear _ => exact agrees_handleClear h _
  | handleMark name _ => exact h
  | unsupported detail => exact (flow_unsupported w detail).symm ▸ h
  | redial _ => exact h
  | noteRefused => exact (drifts_noteRefused w).agrees h
  | refuseHello c hello _ _ => exact h
  | abandonSocket _ => exact (drifts_abandonSocket w).agrees h
  | retry _ => exact h
  | hangUp _ => exact (drifts_hangUp w).agrees h
  | startDrain _ => exact h
  | drainTurn _ _ => exact (drifts_drainTurn env w).agrees h
  | retire _ => exact (drifts_retire w).agrees h

theorem agrees_chores {env : Env β} {pumps : World β S → Prop} {w v : World β S}
    (hchores : Chores env pumps w v)
    (h : w.flow.Agrees) : v.flow.Agrees :=
  hchores.preserves (fun _ _ hchore => agrees_chore hchore) h

theorem agrees_perform {env : Env β} {w : World β S} (h : w.flow.Agrees) {o : Occasion β}
    (hadopt : o = .adopt → w.session.playback.receivePaused = false) :
    (w.perform env o).flow.Agrees := by
  cases o with
  | none => exact h
  | adopt =>
      have hadopted : w.adopt.flow =
          { w.flow with connection := some w.flow.opened, opened := w.flow.opened + 1 } := by
        simp [flow, adopt, Port.opened]
      show w.adopt.flow.Agrees
      rw [hadopted]
      exact h.adopt (hadopt rfl)
  | closed connectFailed => exact (drifts_noteClosed env w connectFailed).agrees h
  | greet c hello => exact (flow_greet env w c hello).symm ▸ h
  | modify endpoint => exact (drifts_applyModify env w endpoint).agrees h
  | submit text => exact h
  | deliver i text => exact (flow_deliverText env (w.takeTask i) text).symm ▸ h
  | push pcm => exact (flow_pushAudio w pcm).symm ▸ h

end World

/-- The preamble of a step leaves the flag alone. -/
theorem receivePaused_preamble (w : World β S) (s : Step β) :
    (preamble w s).session.playback.receivePaused = w.session.playback.receivePaused := by
  unfold preamble
  split
  · rfl
  · split <;> rfl
  · rfl
  · rfl
  · split <;> rfl
  · rfl

/-- The session adopts a connection while it believes the socket is paused. -/
def adoptsPaused (env : Env β) (w : World β S) (s : Step β) : Bool :=
  match occasion env w s with
  | .adopt => w.session.playback.receivePaused
  | _ => false

theorem agrees_step {env : Env β} {w : World β S} (h : w.flow.Agrees) {s : Step β}
    (hadopt : adoptsPaused env w s = false) : (step env w s).flow.Agrees := by
  refine World.agrees_chores (chores_step env w s) ?_
  refine World.agrees_perform (World.agrees_chores (chores_preamble env w s) h) ?_
  intro hoccasion
  rw [receivePaused_preamble]
  simpa [adoptsPaused, hoccasion] using hadopt

/-! ## Where `PumpPlayback` returns -/

/-- The worlds in which a call of `PumpPlayback` returns during a step. -/
def pumpPlaybackReturns (env : Env β) (w : World β S) (s : Step β) : List (World β S) :=
  (pumpCalls env w s).map (World.moveAudio env) ++
    match s with
    | .onBinary _ bytes =>
        match w.session.playback.path with
        | none => []
        | some path => if bytes.isEmpty then [] else [(w.receive env path bytes).pumpPlayback]
    | _ => []

section

variable {env : Env β} {w : World β S}

theorem agrees_pumpCalls (h : w.flow.Agrees) (s : Step β) :
    ∀ v ∈ pumpCalls env w s, v.flow.Agrees := by
  intro v hv
  refine Readies.pumpCalls (P := fun u => u.flow.Agrees) ⟨?_, ?_, ?_, ?_, ?_⟩ hv h
  · exact fun _ hu => hu
  · exact fun _ _ hu => hu
  · intro u c _ hu
    have hmark := World.agrees_chore (.markConnected c : World.Chore env (fun _ => True) u _) hu
    exact hmark
  · exact fun _ hu => hu
  · intro u c hello hu
    rw [World.flow_flushPendingTexts, World.flow_announce]
    exact hu

theorem held_pumpPlaybackReturns (h : w.flow.Agrees) (s : Step β) :
    ∀ v ∈ pumpPlaybackReturns env w s, v.Held := by
  intro v hv
  rcases List.mem_append.mp hv with hv | hv
  · rcases List.mem_map.mp hv with ⟨u, hu, rfl⟩
    exact World.held_pumpPlayback (w := u.drainHandoffRing env) (agrees_pumpCalls h s u hu)
  · split at hv
    · split at hv
      · simp at hv
      · split at hv
        · simp at hv
        · rw [List.mem_singleton.mp hv]
          refine World.held_pumpPlayback ?_
          rw [World.flow_receive]
          exact h
    · simp at hv

/-- The session's flag is the last thing the current connection was told. -/
def FlagAgrees (w : World β S) : Prop :=
  ∀ c ∈ w.session.connection,
    w.session.playback.receivePaused = pausedOn w.port.receivePauses c

instance FlagAgrees.decidable (w : World β S) : Decidable (FlagAgrees w) :=
  inferInstanceAs (Decidable (∀ c ∈ w.session.connection, _))

end

/-- In a run in which no connection is adopted while the flag is up, the flag agrees with the current
connection in every state, and whenever `PumpPlayback` returns above both watermarks that connection
is paused. -/
theorem flow_control_agrees {env : Env β} {params : ForkParams} {tuning : Tuning} {onFinished : Bool}
    {supply : SlabSupply} {w₀ w : World β S}
    (hcreate : World.create params tuning onFinished supply = some w₀)
    (hrun : Run (step env) (fun v s => adoptsPaused env v s = false) w₀ w) :
    FlagAgrees w ∧ ∀ s, ∀ v ∈ pumpPlaybackReturns env w s, v.Held := by
  have hagrees : w.flow.Agrees := by
    refine hrun.invariant (I := fun v => v.flow.Agrees) ?_ fun _ _ hv hs => agrees_step hv hs
    rcases World.create_spec hcreate with ⟨ring, path, rate, channels, -, -, -, rfl⟩
    refine ⟨?_, ?_⟩
    · intro c hc
      cases hc
    · intro e he
      cases he
  exact ⟨fun c hc => (hagrees.current c hc).2, fun s => held_pumpPlaybackReturns hagrees s⟩

/-- A fork that is paused by a burst, plays it out, is resumed, loses its server and reconnects. -/
theorem flow_control_agrees_sample :
    let w := exec (step Sample.env) Sample.fork
      [.start, .onConnected 0, .onBinary 0 (List.replicate 32 7), .readPlayback 16, .pump,
        .readPlayback 16, .pump, .onClosed 0 false, .retryTimer, .onConnected 1]
    w.port.receivePauses = [(0, true), (0, false)] ∧ w.session.connection = some 1 ∧ FlagAgrees w ∧
      ∀ s, ∀ v ∈ pumpPlaybackReturns Sample.env w s, v.Held :=
  ⟨by decide +kernel, by decide +kernel,
    flow_control_agrees Sample.create_fork (Run.of_exec (by decide +kernel))⟩

/-- The server is lost while its socket is paused: the connection that takes its place is not paused,
and the pump of its handshake, 32 bytes above the low watermark of 8, leaves it so. -/
theorem reconnect_forgets_pause :
    let burst : List (Step UInt8) :=
      [.start, .onConnected 0, .onBinary 0 (List.replicate 32 7), .onClosed 0 false, .retryTimer]
    let w := exec (step Sample.env) Sample.fork burst
    Run (step Sample.env) (fun v s => contract v s = true) Sample.fork w ∧
      contract w (.onConnected 1) = true ∧ ¬ FlagAgrees w ∧
      ¬ ∀ v ∈ pumpPlaybackReturns Sample.env w (.onConnected 1), v.Held :=
  ⟨Run.of_exec (by decide +kernel), by decide +kernel, by decide +kernel, by decide +kernel⟩

end Session
end AudioFork
