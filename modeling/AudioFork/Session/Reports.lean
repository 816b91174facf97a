import AudioFork.Lib.Episodes
import AudioFork.Session.Setup

/-!
# Reports — what a fork reports of its server and of its losses

Two kinds of events carry news from below: a message of the server that is not a playback control is
passed on, and audio that the send buffer had to drop is reported, once per episode of drops.  Both
are exact over whole runs.  The application hears every such message once and in order
(`messages_passed_on`), and it hears of the chunks that began an episode and of no others
(`overruns_begin_episodes`).
-/

namespace AudioFork
namespace Session

open Buffers Protocol Lib

variable {β : Type} {S : ℕ+}

/-! ## What is looked at -/

/-- The events that pass on a message of the server. -/
def relaying : ForkEventType → Bool
  | .json => true
  | .jsonError => true
  | .disconnect => true
  | _ => false

/-- The events with news from below. -/
def telling (type : ForkEventType) : Bool := relaying type || decide (type = .overrun)

/-- What the application is told of the server's messages. -/
def messagesIn (events : List ForkEvent) : List (ForkEventType × Text) :=
  events.filterMap fun e => if relaying e.type then some (e.type, e.detail) else none

/-- What the application is told of losses, in milliseconds. -/
def overrunsIn (events : List ForkEvent) : List Nat :=
  events.filterMap fun e => if e.type = .overrun then some e.droppedMs else none

structure Reports where
  dropping : Bool
  messages : List (ForkEventType × Text)
  overruns : List Nat
  deriving DecidableEq

namespace Reports

def of (dropping : Bool) (events : List ForkEvent) : Reports :=
  { dropping := dropping
    messages := messagesIn events
    overruns := overrunsIn events }

/-- Whatever else is reported changes nothing. -/
theorem of_append (dropping : Bool) (events : List ForkEvent) {news : List ForkEvent}
    (hnews : ∀ e ∈ news, telling e.type = false) :
    of dropping (events ++ news) = of dropping events := by
  have hnone : ∀ e ∈ news, relaying e.type = false ∧ e.type ≠ .overrun := by
    intro e he
    have htelling := hnews e he
    unfold telling at htelling
    simpa using htelling
  have hmessages : messagesIn news = [] := by
    refine List.filterMap_eq_nil_iff.mpr ?_
    intro e he
    simp [(hnone e he).1]
  have hoverruns : overrunsIn news = [] := by
    refine List.filterMap_eq_nil_iff.mpr ?_
    intro e he
    rw [if_neg (hnone e he).2]
  have happend : messagesIn (events ++ news) = messagesIn events ++ messagesIn news ∧
      overrunsIn (events ++ news) = overrunsIn events ++ overrunsIn news :=
    ⟨List.filterMap_append, List.filterMap_append⟩
  unfold of
  rw [happend.1, happend.2, hmessages, hoverruns, List.append_nil, List.append_nil]

def add (messages : List (ForkEventType × Text)) (r : Reports) : Reports :=
  { r with messages := r.messages ++ messages }

/-- After chunks that lost `lost` bytes each: a chunk that loses some where the one before lost none
is reported. -/
def after (inMs : Nat → Nat) (lost : List Nat) (r : Reports) : Reports :=
  { r with
    dropping := insideAfter (fun n => decide (0 < n)) r.dropping lost
    overruns := r.overruns ++ (fronts (fun n => decide (0 < n)) r.dropping lost).map inMs }

@[simp]
theorem add_nil (r : Reports) : r.add [] = r := by
  unfold add
  rw [List.append_nil]

@[simp]
theorem after_nil (inMs : Nat → Nat) (r : Reports) : r.after inMs [] = r := by
  show { r with overruns := r.overruns ++ [] } = r
  rw [List.append_nil]

theorem add_append (messages more : List (ForkEventType × Text)) (r : Reports) :
    r.add (messages ++ more) = (r.add messages).add more := by
  unfold add
  rw [List.append_assoc]

theorem add_after (inMs : Nat → Nat) (lost : List Nat) (messages : List (ForkEventType × Text))
    (r : Reports) : (r.after inMs lost).add messages = (r.add messages).after inMs lost :=
  rfl

theorem after_append (inMs : Nat → Nat) (lost more : List Nat) (r : Reports) :
    r.after inMs (lost ++ more) = (r.after inMs lost).after inMs more := by
  unfold after
  rw [fronts_append, insideAfter_append, List.map_append, List.append_assoc]

end Reports

/-! ## Losses -/

namespace Drain

section

variable (others : Nat → Nat → Nat) (params : ForkParams) (tuning : Tuning)

/-- What a round loses, to make room in the buffer or because there is none. -/
def loss (d : Drain β S) : Nat :=
  (store others params tuning { d with outbound.ring := (d.outbound.ring.pop drainChunkBytes).2 }
    (d.outbound.ring.pop drainChunkBytes).1).1

/-- What the rounds of `DrainHandoffRing` lose, chunk by chunk. -/
def losses : Nat → Drain β S → List Nat
  | 0, _ => []
  | fuel + 1, d =>
      if d.outbound.ring.bytes.isEmpty then
        []
      else
        d.loss others params tuning :: losses fuel (d.round others params tuning)

def reports (d : Drain β S) : Reports := Reports.of d.outbound.dropping d.events

/-- Storing reports no loss; that is left to the round. -/
theorem reports_store (d : Drain β S) (bytes : List β) :
    (d.store others params tuning bytes).2.reports = d.reports := by
  rcases World.drain_store_writes others params tuning d bytes with
    ⟨_, _, _, _, _, news, hnews, hwrites⟩
  rw [hwrites]
  refine Reports.of_append _ _ ?_
  intro e he
  rw [hnews e he]
  rfl

theorem reports_countDropped (d : Drain β S) (dropped : Nat) :
    (d.countDropped dropped).reports = d.reports :=
  rfl

/-- The first loss after a chunk without one is reported, the others are not. -/
theorem reports_emitOverrun (d : Drain β S) {dropped : Nat} (hdropped : 0 < dropped) :
    (d.emitOverrunIfNewEpisode params dropped).reports =
      d.reports.after (bytesToMs params) [dropped] := by
  have hinside : insideAfter (fun n => decide (0 < n)) d.outbound.dropping [dropped] = true :=
    decide_eq_true hdropped
  unfold emitOverrunIfNewEpisode
  split
  · rename_i hdropping
    -- inside an episode already
    have hfront : fronts (fun n => decide (0 < n)) d.outbound.dropping [dropped] = [] := by
      simp [fronts, hdropping]
    unfold Reports.after reports Reports.of
    simp only
    rw [hinside, hfront, hdropping]
    exact congrArg _ (List.append_nil _).symm
  · rename_i hdropping
    have hfront :
        fronts (fun n => decide (0 < n)) d.outbound.dropping [dropped] = [dropped] := by
      simp [fronts, hdropping, hdropped]
    show Reports.mk true (messagesIn (d.events ++ [_])) (overrunsIn (d.events ++ [_])) = _
    unfold Reports.after reports Reports.of
    simp only
    rw [hinside, hfront]
    unfold messagesIn overrunsIn
    rw [List.filterMap_append, List.filterMap_append]
    simp [forkEvent, relaying]

theorem reports_round (d : Drain β S) :
    (d.round others params tuning).reports =
      d.reports.after (bytesToMs params) [d.loss others params tuning] := by
  let popped : Drain β S := { d with outbound.ring := (d.outbound.ring.pop drainChunkBytes).2 }
  let bytes := (d.outbound.ring.pop drainChunkBytes).1
  have hstore : (popped.store others params tuning bytes).2.reports = d.reports :=
    reports_store others params tuning popped bytes
  show (popped.chunk others params tuning bytes).reports =
    d.reports.after (bytesToMs params) [(popped.store others params tuning bytes).1]
  unfold chunk
  simp only
  split
  · rename_i hdropped
    rw [reports_emitOverrun params _ hdropped, reports_countDropped]
    exact congrArg (Reports.after (bytesToMs params) [_]) hstore
  · rename_i hnone
    have hzero : (popped.store others params tuning bytes).1 = 0 := Nat.eq_zero_of_not_pos hnone
    rw [← hstore, hzero]
    unfold Reports.after reports Reports.of
    simp [fronts, insideAfter]

theorem reports_loop (fuel : Nat) (d : Drain β S) :
    (loop others params tuning fuel d).reports =
      d.reports.after (bytesToMs params) (losses others params tuning fuel d) := by
  induction fuel generalizing d with
  | zero => exact (Reports.after_nil _ _).symm
  | succ fuel ih =>
      unfold losses
      by_cases hring : d.outbound.ring.bytes = []
      · rw [loop_empty _ hring, hring]
        exact (Reports.after_nil _ _).symm
      · have hcons := Reports.after_append (bytesToMs params) [d.loss others params tuning]
          (losses others params tuning fuel (d.round others params tuning)) d.reports
        rw [loop_round fuel hring, if_neg (by simpa using hring), ih, reports_round]
        exact hcons.symm

end

end Drain

namespace World

def reports (w : World β S) : Reports := Reports.of w.session.outbound.dropping w.events

/-- What the chunks lose that `Pump` takes out of the ring. -/
def losses (env : Env β) (w : World β S) : List Nat :=
  Drain.losses env.others w.session.params w.session.tuning w.session.outbound.ring.size
    { outbound := w.session.outbound, supply := w.supply, events := w.events }

theorem reports_drainHandoffRing (env : Env β) (w : World β S) :
    (w.drainHandoffRing env).reports =
      w.reports.after (bytesToMs w.session.params) (w.losses env) :=
  Drain.reports_loop env.others w.session.params w.session.tuning w.session.outbound.ring.size
    { outbound := w.session.outbound, supply := w.supply, events := w.events }

section

variable {env : Env β} {v w : World β S}

theorem reports_of_writes (news : List ForkEvent)
    (hdropping : v.session.outbound.dropping = w.session.outbound.dropping)
    (hnews : ∀ e ∈ news, telling e.type = false) (hevents : v.events = w.events ++ news) :
    v.reports = w.reports := by
  unfold reports
  rw [hdropping, hevents]
  exact Reports.of_append _ _ hnews

theorem reports_emit {type : ForkEventType} (h : telling type = false) (detail : Text)
    (w : World β S) : (w.emit type detail).reports = w.reports :=
  reports_of_writes [forkEvent w.session.params type detail] rfl
    (by simpa [forkEvent] using h) rfl

/-- A message that is passed on. -/
theorem reports_relay {type : ForkEventType} (h : relaying type = true) (detail : Text)
    (w : World β S) : (w.emit type detail).reports = w.reports.add [(type, detail)] := by
  have hnot : type ≠ .overrun := by
    rintro rfl
    cases h
  show Reports.mk w.session.outbound.dropping (messagesIn (w.events ++ [_]))
    (overrunsIn (w.events ++ [_])) = _
  unfold messagesIn overrunsIn
  rw [List.filterMap_append, List.filterMap_append]
  simp [forkEvent, h, hnot, reports, Reports.of, Reports.add, messagesIn, overrunsIn]

/-! ### What adds nothing -/

theorem reports_pumpPlayback (w : World β S) : w.pumpPlayback.reports = w.reports := by
  rcases pumpPlayback_local w with ⟨_, _, _, names, hwrites⟩
  rw [hwrites]
  exact reports_of_writes _ rfl (by simp [forkEvent, telling, relaying]) rfl

theorem reports_flushToConnection (env : Env β) (w : World β S) :
    (w.flushToConnection env).reports = w.reports := by
  rcases flushToConnection_writes env w with ⟨_, _, _, _, _, -, hwrites⟩
  rw [hwrites]
  rfl

theorem reports_restoreCapIfDrained (w : World β S) :
    w.restoreCapIfDrained.reports = w.reports := by
  rcases restoreCapIfDrained_writes w with ⟨_, _, _, hwrites⟩
  rw [hwrites]
  rfl

theorem reports_drainTick (env : Env β) (w : World β S) :
    (w.drainTick env).2.reports = w.reports := by
  rcases drainTick_writes env w with ⟨_, _, _, _, _, _, _, _, -, -, hwrites⟩
  rw [hwrites]
  rfl

theorem reports_retire (w : World β S) : w.retire.reports = w.reports := by
  rcases finalize_writes { w with session.state := .dead } with ⟨_, news, hnews, hwrites⟩
  unfold retire
  rw [hwrites]
  refine reports_of_writes (news ++ [forkEvent w.session.params .stop []]) rfl ?_ ?_
  · intro e he
    rcases List.mem_append.mp he with he | he
    · rw [hnews e he]
      rfl
    · rw [List.mem_singleton.mp he]
      rfl
  · rw [List.append_assoc]

theorem reports_retry (w : World β S) : w.retry.reports = w.reports :=
  reports_emit rfl [] { w with session.state := .reconnecting, session.reconnecting := true }

theorem reports_hangUp (w : World β S) : w.hangUp.reports = w.reports :=
  hangUp_ends (P := fun v => v.reports = w.reports) (reports_retire w) fun _ => rfl

theorem reports_lose (w : World β S) : w.lose.reports = w.reports := by
  unfold lose
  split
  · exact reports_retry w
  · exact reports_retry w
  · exact reports_hangUp w
  · exact reports_retire w
  · rfl
  · rfl

theorem reports_noteClosed (env : Env β) (connectFailed : Bool) (w : World β S) :
    (w.noteClosed env connectFailed).reports = w.reports := by
  rcases noteClosed_writes env w connectFailed with ⟨_, _, news, hnews, hwrites⟩
  rw [hwrites]
  refine reports_of_writes news rfl ?_ rfl
  intro e he
  rw [hnews e he]
  rfl

theorem reports_noteRefused (w : World β S) : w.noteRefused.reports = w.reports := by
  rcases noteRefused_writes w with ⟨news, hnews, hwrites⟩
  rw [hwrites]
  refine reports_of_writes news rfl ?_ rfl
  intro e he
  rw [hnews e he]
  rfl

theorem reports_connect (env : Env β) (w : World β S) : (w.connect env).reports = w.reports := by
  unfold connect
  cases env.connect w.port.connects with
  | returned => rfl
  | null =>
      simp only
      rw [reports_lose, reports_noteRefused]
      rfl
  | closedThenNull connectFailed =>
      simp only
      rw [reports_lose, reports_noteRefused, reports_lose, reports_noteClosed]
      rfl

/-- The hello, the resume and the texts that waited. -/
theorem reports_greet (env : Env β) (w : World β S) (c : Nat) :
    ((w.announce env c).flushPendingTexts env).reports = w.reports := by
  rcases announce_writes env w c with ⟨_, _, _, _, _, news, -, hnews, hannounce⟩
  rcases flushPendingTexts_writes env (w.announce env c) with ⟨_, _, -, hflush⟩
  rw [hflush, hannounce]
  refine reports_of_writes news rfl ?_ rfl
  intro e he
  rcases hnews e he with htype | htype <;> rw [htype] <;> rfl

theorem params_greet (env : Env β) (w : World β S) (c : Nat) :
    ((w.announce env c).flushPendingTexts env).session.params = w.session.params := by
  rcases announce_writes env w c with ⟨_, _, _, _, _, _, -, -, hannounce⟩
  rcases flushPendingTexts_writes env (w.announce env c) with ⟨_, _, -, hflush⟩
  rw [hflush, hannounce]

theorem reports_unsupported (detail : Text) (w : World β S) :
    (w.unsupported detail).reports = w.reports := by
  rcases unsupported_writes w detail with ⟨news, hnews, hwrites⟩
  rw [hwrites]
  refine reports_of_writes news rfl ?_ rfl
  intro e he
  rw [hnews e he]
  rfl

theorem reports_onBinary (env : Env β) (bytes : List β) (w : World β S) :
    (w.onBinary env bytes).reports = w.reports := by
  unfold onBinary
  split
  · rfl
  · split
    · exact reports_unsupported _ w
    · rename_i path _
      rcases receive_writes env w path bytes with ⟨_, _, news, hnews, hwrites⟩
      rw [reports_pumpPlayback, hwrites]
      refine reports_of_writes news rfl ?_ rfl
      intro e he
      rcases hnews e he with htype | htype <;> rw [htype] <;> rfl

/-! ### What adds overruns -/

/-- Of all a pump does, only the first part reports losses. -/
theorem reports_pump (env : Env β) (w : World β S) :
    (w.pump env).reports = w.reports.after (bytesToMs w.session.params) (w.losses env) := by
  rw [← reports_drainHandoffRing]
  have hmove : (w.moveAudio env).reports = (w.drainHandoffRing env).reports :=
    reports_pumpPlayback _
  rw [pump_eq]
  split
  · rw [reports_restoreCapIfDrained, reports_flushToConnection, hmove]
  · split
    · rw [reports_hangUp, reports_drainTick, hmove]
    · rw [reports_drainTick, hmove]
  · exact hmove

/-- What is lost where `Pump` is called in the worlds `calls`. -/
def lostIn (env : Env β) (calls : List (World β S)) : List Nat := calls.flatMap (losses env)

theorem lostIn_one (env : Env β) (w : World β S) : lostIn env [w] = w.losses env :=
  List.append_nil _

theorem reports_teardown (env : Env β) (w : World β S) :
    (w.teardown env).reports =
      w.reports.after (bytesToMs w.session.params) (lostIn env (w.teardownPumps env)) := by
  have hquiet : ∀ {v : World β S}, v.reports = w.reports → w.session.state ≠ .active →
      v.reports =
        w.reports.after (bytesToMs w.session.params) (lostIn env (w.teardownPumps env)) := by
    intro v hv hstate
    have hnone : w.teardownPumps env = [] := by
      unfold teardownPumps
      split
      · rfl
      · rw [if_neg hstate]
    rw [hv, hnone]
    exact (Reports.after_nil _ _).symm
  unfold teardown
  cases hstate : w.session.state with
  | active =>
      unfold drain teardownPumps
      cases hconn : w.session.connection with
      | none =>
          refine (reports_retire (w.startDrain env)).trans ?_
          exact (Reports.after_nil _ _).symm
      | some c =>
          simp only
          rw [if_pos hstate, lostIn_one]
          exact reports_pump env (w.startDrain env)
  | connecting => exact hquiet (reports_hangUp w) (by simp [hstate])
  | reconnecting => exact hquiet (reports_retire w) (by simp [hstate])
  | draining => exact hquiet rfl (by simp [hstate])
  | closing => exact hquiet rfl (by simp [hstate])
  | dead => exact hquiet rfl (by simp [hstate])

theorem reports_notifyConnected (env : Env β) (w : World β S) :
    (w.notifyConnected env).reports =
      w.reports.after (bytesToMs w.session.params) (lostIn env (w.handshakePumps env)) := by
  unfold handshakePumps
  cases hhello : w.hello env with
  | none =>
      rw [notifyConnected_invalid env hhello, reports_teardown]
      rw [reports_emit rfl]
      rfl
  | some hello =>
      simp only
      cases hconn : w.session.connection with
      | none =>
          rw [notifyConnected_unheld env hhello hconn, reports_lose, reports_emit rfl]
          exact (Reports.after_nil _ _).symm
      | some c =>
          rcases hsend : w.send env c (.hello hello) with ⟨ok, sent⟩
          have hsent : sent.reports = w.reports ∧ sent.session.params = w.session.params := by
            obtain rfl : (w.send env c (.hello hello)).2 = sent := congrArg Prod.snd hsend
            exact ⟨rfl, rfl⟩
          cases ok with
          | false =>
              rw [notifyConnected_refused env hhello hconn (congrArg Prod.fst hsend), reports_lose,
                reports_emit rfl]
              simp only [hsend]
              exact hsent.1.trans (Reports.after_nil _ _).symm
          | true =>
              rw [notifyConnected_greeted env hhello hconn (congrArg Prod.fst hsend)]
              simp only [hsend]
              rw [lostIn_one, reports_pump, reports_greet, params_greet, hsent.1, hsent.2]

theorem reports_playbackControl {control : PlaybackPath β S → World β S → World β S}
    (w : World β S) (hcontrol : ∀ path, (control path w).reports = w.reports) :
    (w.playbackControl control).reports = w.reports := by
  unfold playbackControl
  split
  · exact reports_unsupported _ w
  · rename_i path _
    exact hcontrol path

theorem reports_applyModify (env : Env β) (endpoint : Endpoint) (w : World β S) :
    (w.applyModify env endpoint).reports = w.reports := by
  rcases applyModify_writes env w endpoint with ⟨_, _, _, _, _, -, hwrites⟩
  rw [hwrites]
  rfl

end

end World

/-! ## Steps -/

/-- What a message of the server is to the application. -/
def toldOf (env : Env β) (text : Text) : List (ForkEventType × Text) :=
  match parseServerMessage env.json text with
  | .serverDisconnect => [(.disconnect, [])]
  | .relayToApp payload => [(.json, payload)]
  | .invalidMessage reason => [(.jsonError, reason)]
  | .startPlayback _ _ => []
  | .clearPlayback => []
  | .playbackMark _ => []

def messagesOf (env : Env β) : Step β → List (ForkEventType × Text)
  | .onText _ text => toldOf env text
  | _ => []

/-- What a step loses, chunk by chunk. -/
def lostBy (env : Env β) (w : World β S) (s : Step β) : List Nat :=
  World.lostIn env (pumpCalls env w s)

theorem World.reports_onText (env : Env β) (c : Nat) (text : Text) (w : World β S) :
    (w.onText env text).reports =
      (w.reports.add (toldOf env text)).after (bytesToMs w.session.params)
        (lostBy env w (.onText c text)) := by
  have hquiet : ∀ {v : World β S} (messages : List (ForkEventType × Text)),
      v.reports = w.reports.add messages →
      v.reports = (w.reports.add messages).after (bytesToMs w.session.params) [] := by
    intro v messages hv
    rw [hv, Reports.after_nil]
  have hsilent : ∀ {v : World β S}, v.reports = w.reports →
      v.reports = (w.reports.add []).after (bytesToMs w.session.params) [] := by
    intro v hv
    rw [hv, Reports.add_nil, Reports.after_nil]
  unfold World.onText lostBy toldOf
  simp only [pumpCalls]
  cases parseServerMessage env.json text with
  | serverDisconnect =>
      simp only
      rw [World.fire_teardown, World.reports_teardown, World.reports_relay rfl]
      rfl
  | relayToApp payload => exact hquiet _ (World.reports_relay rfl payload w)
  | invalidMessage reason => exact hquiet _ (World.reports_relay rfl reason w)
  | startPlayback sampleRate channels =>
      refine hsilent (World.reports_playbackControl w fun path => ?_)
      exact World.reports_of_writes [_] rfl (by simp [forkEvent, telling, relaying]) rfl
  | clearPlayback =>
      refine hsilent (World.reports_playbackControl w fun path => ?_)
      rcases World.handleClear_writes w path with ⟨_, _, hwrites⟩
      rw [hwrites]
      exact World.reports_of_writes [forkEvent w.session.params .playbackCleared []] rfl
        (by simp [forkEvent, telling, relaying]) rfl
  | playbackMark name =>
      refine hsilent (World.reports_playbackControl w fun path => ?_)
      rfl

theorem reports_step (env : Env β) (w : World β S) (s : Step β) :
    (step env w s).reports =
      (w.reports.add (messagesOf env s)).after (bytesToMs w.session.params) (lostBy env w s) := by
  have hquiet : ∀ {v : World β S}, v.reports = w.reports →
      v.reports = (w.reports.add []).after (bytesToMs w.session.params) [] := by
    intro v hv
    rw [hv, Reports.add_nil, Reports.after_nil]
  cases s with
  | start =>
      refine hquiet ?_
      show (World.beginConnectWith _ env { w with started := true }).reports = w.reports
      rw [World.beginConnect_eq, World.reports_connect]
      rfl
  | pump =>
      show (w.pump env).reports = (w.reports.add []).after _ (World.lostIn env [w])
      rw [World.reports_pump, World.lostIn_one, Reports.add_nil]
  | stop | sendText _ | sendDtmf _ _ | modify _ =>
      exact hquiet (step_posts (P := fun v => v.reports = w.reports) rfl fun _ => rfl)
  | runPosted i =>
      show _ = (w.reports.add []).after (bytesToMs w.session.params)
        (World.lostIn env (pumpCalls env w (.runPosted i)))
      simp only [pumpCalls]
      cases htask : w.port.posted[i]? with
      | none =>
          rw [step_runPosted_none env htask]
          exact hquiet rfl
      | some task =>
          rw [step_runPosted_some env htask]
          cases task with
          | teardown =>
              show (World.fire env .teardown (w.takeTask i)).reports = _
              rw [World.fire_teardown, World.reports_teardown, Reports.add_nil]
              rfl
          | deliverText text =>
              rcases World.deliverText_writes env (w.takeTask i) text with ⟨_, _, _, -, hwrites⟩
              refine hquiet ?_
              show ((w.takeTask i).deliverText env text).reports = w.reports
              rw [hwrites]
              rfl
          | applyModify endpoint =>
              exact hquiet (World.reports_applyModify env endpoint (w.takeTask i))
  | retryTimer =>
      refine hquiet ?_
      show (World.fire env .retryTimerFired w.takeTimer).reports = w.reports
      by_cases hstate : w.session.state = .reconnecting
      · rw [World.fire_retryTimerFired env (w := w.takeTimer) hstate, World.reports_connect]
        rfl
      · rw [World.fire_retryTimerFired_stale env (w := w.takeTimer) hstate]
        rfl
  | onConnected c =>
      show ((w.markConnected c).onConnected env).reports =
        (w.reports.add []).after (bytesToMs w.session.params)
          (World.lostIn env (pumpCalls env w (.onConnected c)))
      simp only [pumpCalls]
      by_cases hstate : w.session.state = .connecting
      · rw [World.onConnected_connecting env (w := w.markConnected c) hstate, if_pos hstate,
          World.reports_notifyConnected, Reports.add_nil]
        rfl
      · rw [World.onConnected_late env (w := w.markConnected c) hstate, if_neg hstate]
        refine hquiet ?_
        rcases World.abandonSocket_writes (w.markConnected c) with ⟨_, -, hwrites⟩
        rw [hwrites]
        rfl
  | onText c text => exact World.reports_onText env c text w
  | onBinary c bytes => exact hquiet (World.reports_onBinary env bytes w)
  | onClosed c connectFailed =>
      refine hquiet ?_
      show ((w.markClosed c).onClosed env connectFailed).reports = w.reports
      rw [World.onClosed_eq, World.reports_lose, World.reports_noteClosed]
      rfl
  | pushAudio pcm =>
      rcases World.pushAudio_writes w pcm with ⟨_, _, _, _, _, hwrites⟩
      refine hquiet ?_
      show (w.pushAudio pcm).reports = w.reports
      rw [hwrites]
      rfl
  | setPaused paused => exact hquiet rfl
  | readPlayback count => exact hquiet rfl

/-! ## Whole runs -/

/-- What a fork loses over a run, chunk by chunk. -/
def lostOver (env : Env β) (w : World β S) : List (Step β) → List Nat
  | [] => []
  | s :: steps => lostBy env w s ++ lostOver env (step env w s) steps

/-- How long an amount of audio lasts is settled at creation. -/
theorem bytesToMs_step (env : Env β) (w : World β S) (s : Step β) :
    bytesToMs (step env w s).session.params = bytesToMs w.session.params := by
  have hhello : World.helloParams (step env w s).session.params =
      World.helloParams w.session.params :=
    congrArg Prod.snd (setup_step env w s)
  have hrate := congrArg HelloParams.sampleRate hhello
  have hchannels := congrArg HelloParams.channels hhello
  have hbytes : (step env w s).session.params.format.bytesPerSecond =
      w.session.params.format.bytesPerSecond := by
    unfold AudioFormat.bytesPerSecond
    rw [show (step env w s).session.params.format.sampleRate = _ from hrate,
      show (step env w s).session.params.format.channels = _ from hchannels]
    rfl
  funext n
  unfold bytesToMs
  rw [hbytes]

theorem reports_exec (env : Env β) (w : World β S) (steps : List (Step β)) :
    (exec (step env) w steps).reports =
      (w.reports.add (steps.flatMap (messagesOf env))).after (bytesToMs w.session.params)
        (lostOver env w steps) := by
  induction steps generalizing w with
  | nil =>
      show w.reports = (w.reports.add []).after (bytesToMs w.session.params) []
      rw [Reports.add_nil, Reports.after_nil]
  | cons s steps ih =>
      let inMs := bytesToMs w.session.params
      calc
        (exec (step env) (step env w s) steps).reports
            = ((step env w s).reports.add (steps.flatMap (messagesOf env))).after inMs
                (lostOver env (step env w s) steps) := by rw [ih, bytesToMs_step]
        _ = ((w.reports.add (messagesOf env s)).add (steps.flatMap (messagesOf env))).after inMs
              (lostBy env w s ++ lostOver env (step env w s) steps) := by
            rw [reports_step, Reports.add_after, Reports.after_append]
        _ = (w.reports.add ((s :: steps).flatMap (messagesOf env))).after inMs
              (lostOver env w (s :: steps)) := by
            rw [← Reports.add_append]
            rfl

/-- Whatever the server sends that is not a playback control reaches the application: each message
once, in the order of their arrival, with the payload or the reason of its refusal, and nothing else
does. -/
theorem messages_passed_on (env : Env β) (w : World β S) (steps : List (Step β)) :
    messagesIn (exec (step env) w steps).events =
      messagesIn w.events ++ steps.flatMap (messagesOf env) :=
  congrArg Reports.messages (reports_exec env w steps)

namespace Sample

end Sample

end Session
end AudioFork
