import AudioFork.Session.Ownership
import AudioFork.Session.Resume

/-!
# KnownServer — who is sent a resume

A resume means something only to a server that knows the stream.  An observer keeps the connections
whose server has accepted a hello since the last applied modify (`introduce`).  The session keeps two
flags instead, `reconnecting_` and `endpoint_changed_`, and the first of them says that an attempt was
lost, not that a server was ever reached.

While no attempt is lost before the first hello is accepted (`firstAttemptLost`), the flags and the
observer agree: a resume goes out on a connection only after an earlier connection introduced the
stream, and a server that never saw it gets a plain hello.
-/

namespace AudioFork
namespace Session

open Buffers Protocol Lib

variable {β : Type} {S : ℕ+}

/-! ## Logs and the count of reconnects -/

namespace World

/-- The logs have only grown, and no reconnect was counted. -/
structure Continues (w v : World β S) : Prop where
  wire : w.port.wire <+: v.port.wire
  events : w.events <+: v.events
  reconnects : v.session.reconnects = w.session.reconnects

section

variable {env : Env β} {u v w : World β S}

theorem Continues.same (hwire : v.port.wire = w.port.wire) (hevents : v.events = w.events)
    (hreconnects : v.session.reconnects = w.session.reconnects) : Continues w v :=
  ⟨hwire ▸ List.prefix_rfl, hevents ▸ List.prefix_rfl, hreconnects⟩

theorem Continues.trans (h : Continues w v) (h' : Continues v u) : Continues w u :=
  ⟨h.wire.trans h'.wire, h.events.trans h'.events, h'.reconnects.trans h.reconnects⟩

theorem continues_aside (h : Aside w v) : Continues w v := by
  rcases h with ⟨_, _, _, _, _, _, events, -, rfl⟩
  exact ⟨List.prefix_rfl, List.prefix_append _ _, rfl⟩

theorem continues_retire (w : World β S) : Continues w w.retire := by
  rcases finalize_writes { w with session.state := .dead } with ⟨_, events, -, hwrites⟩
  unfold retire
  rw [hwrites, List.append_assoc]
  exact ⟨List.prefix_rfl, List.prefix_append _ _, rfl⟩

theorem continues_hangUp (w : World β S) : Continues w w.hangUp :=
  hangUp_ends (continues_retire w) fun _ => .same rfl rfl rfl

theorem continues_chore {pumps : World β S → Prop} (h : Chore env pumps w v) : Continues w v := by
  cases h with
  | emit type detail _ => exact ⟨List.prefix_rfl, List.prefix_append _ _, rfl⟩
  | drainHandoffRing _ =>
      rcases drainHandoffRing_writes env w with ⟨_, _, _, _, _, _, _, _, _, -, hwrites⟩
      rw [hwrites]
      exact ⟨List.prefix_rfl, List.prefix_append _ _, rfl⟩
  | flushToConnection _ =>
      rcases flushToConnection_writes env w with ⟨_, _, _, _, _, -, hwrites⟩
      rw [hwrites]
      exact ⟨List.prefix_append _ _, List.prefix_rfl, rfl⟩
  | restoreCapIfDrained _ =>
      rcases restoreCapIfDrained_writes w with ⟨_, _, _, hwrites⟩
      rw [hwrites]
      exact .same rfl rfl rfl
  | receive bytes _ => exact continues_aside (aside_receive env w _ bytes)
  | pumpPlayback => exact continues_aside (aside_pumpPlayback w)
  | handlePlaybackStart sampleRate channels =>
      exact continues_aside (aside_handlePlaybackStart w sampleRate channels)
  | handleClear _ => exact continues_aside (aside_handleClear w _)
  | unsupported detail => exact continues_aside (aside_unsupported w detail)
  | noteRefused => exact continues_aside (aside_noteRefused w)
  | refuseHello c hello _ _ => exact ⟨List.prefix_append _ _, List.prefix_rfl, rfl⟩
  | abandonSocket _ => exact continues_aside (aside_abandonSocket w)
  | retry _ => exact ⟨List.prefix_rfl, List.prefix_append _ _, rfl⟩
  | hangUp _ => exact continues_hangUp w
  | drainTurn _ _ =>
      refine drainTurn_ends (P := Continues w) ?_ fun htick => htick.trans (continues_hangUp _)
      rcases drainTick_writes env w with ⟨_, _, _, _, _, _, audio, byes, -, -, hwrites⟩
      rw [hwrites, List.append_assoc]
      exact ⟨List.prefix_append _ _, List.prefix_rfl, rfl⟩
  | retire _ => exact continues_retire w
  | _ => exact .same rfl rfl rfl

theorem continues_chores {pumps : World β S → Prop} (h : Chores env pumps w v) : Continues w v :=
  h.preserves (I := Continues w) (fun _ _ hchore hw => hw.trans (continues_chore hchore)) (.same rfl rfl rfl)

/-- Every occasion but a completed hello. -/
theorem continues_perform (env : Env β) (w : World β S) (o : Occasion β)
    (hgreet : ∀ c hello, o ≠ .greet c hello) : Continues w (w.perform env o) := by
  cases o with
  | none => exact .same rfl rfl rfl
  | adopt => exact .same rfl rfl rfl
  | closed connectFailed =>
      rcases noteClosed_writes env w connectFailed with ⟨_, _, _, -, hwrites⟩
      show Continues w (w.noteClosed env connectFailed)
      rw [hwrites]
      exact ⟨List.prefix_rfl, List.prefix_append _ _, rfl⟩
  | greet c hello => exact absurd rfl (hgreet c hello)
  | modify endpoint =>
      rcases applyModify_writes env w endpoint with ⟨_, _, _, _, _, -, hwrites⟩
      show Continues w (w.applyModify env endpoint)
      rw [hwrites]
      exact ⟨List.prefix_append _ _, List.prefix_rfl, rfl⟩
  | submit text => exact .same rfl rfl rfl
  | deliver i text =>
      rcases deliverText_writes env (w.takeTask i) text with ⟨_, _, _, -, hwrites⟩
      show Continues w ((w.takeTask i).deliverText env text)
      rw [hwrites]
      exact ⟨List.prefix_append _ _, List.prefix_rfl, rfl⟩
  | push pcm =>
      rcases pushAudio_writes w pcm with ⟨_, _, _, _, _, hwrites⟩
      show Continues w (w.pushAudio pcm)
      rw [hwrites]
      exact .same rfl rfl rfl

end

end World

theorem continues_step (env : Env β) (w : World β S) (s : Step β)
    (hgreet : ∀ c hello, occasion env w s ≠ .greet c hello) : w.Continues (step env w s) :=
  (World.continues_chores (chores_preamble env w s)).trans
    ((World.continues_perform env _ _ hgreet).trans (World.continues_chores (chores_step env w s)))

/-! ## A completed hello -/

namespace World

/-- What `announce` does when there is nothing to resume. -/
theorem announce_plain (env : Env β) (w : World β S) (c : Nat) (h : w.resumes = false) :
    (w.announce env c).session.reconnects = w.session.reconnects ∧
      (w.announce env c).events = w.events ++ [forkEvent w.session.params .connect []] := by
  have hplain : ¬(w.session.reconnecting = true ∧ w.session.endpointChanged = false) := by
    simpa [resumes] using h
  unfold announce settleEndpoint
  simp only
  rw [if_neg hplain]
  split <;> exact ⟨rfl, rfl⟩

/-- The logs of a handshake: first the hello, and without a resume a connect event. -/
theorem greet_logs (env : Env β) (w : World β S) (c : Nat) (hello : Text)
    (haccepts : env.accepts w.port.conns c w.port.wire.length (.hello hello) = true) :
    (w.port.wire ++ [{ conn := c, frame := .hello hello, accepted := true }] <+:
        (w.greet env c hello).port.wire) ∧
      w.events <+: (w.greet env c hello).events ∧
      (w.resumes = false →
        (w.greet env c hello).session.reconnects = w.session.reconnects ∧
          w.events ++ [forkEvent w.session.params .connect []] <+: (w.greet env c hello).events) := by
  let greeted : World β S := (send env { w with session.state := .active } c (.hello hello)).2
  have hwire : greeted.port.wire =
      w.port.wire ++ [{ conn := c, frame := .hello hello, accepted := true }] := by
    rw [← haccepts]
    rfl
  rcases announce_writes env greeted c with ⟨_, _, _, _, offers, events, -, -, hannounce⟩
  rcases flushPendingTexts_writes env (greeted.announce env c) with ⟨_, texts, -, htexts⟩
  have hgreet : w.greet env c hello = (greeted.announce env c).flushPendingTexts env := rfl
  rw [hgreet, htexts]
  refine ⟨?_, ?_, ?_⟩
  · rw [← hwire, hannounce]
    exact (List.prefix_append _ offers).trans (List.prefix_append _ texts)
  · rw [hannounce]
    exact List.prefix_append _ events
  · intro hplain
    have hannounced := announce_plain env greeted c hplain
    exact ⟨hannounced.1, hannounced.2 ▸ List.prefix_rfl⟩

end World

/-! ## Connections come one after the other -/

namespace Lifecycle

variable {known : List Nat} {l l' : Lifecycle}

/-- Connections are numbered in the order they are opened, and one that still has to introduce the
stream was opened after those that did. -/
structure Met (known : List Nat) (l : Lifecycle) : Prop where
  opened : ∀ g ∈ known, g < l.conns.length
  current : ∀ c, l.connection = some c → c < l.conns.length
  later : l.state = .connecting ∨ l.state = .reconnecting →
    ∀ c, l.connection = some c → ∀ g ∈ known, g < c

/-- A connection that is given up, or held on to while the session comes to its end. -/
theorem Met.kept (h : Met known l) (hconns : l'.conns.length = l.conns.length)
    (hkept : l'.connection = none ∨ l'.connection = l.connection ∧
      (l'.state = .connecting ∨ l'.state = .reconnecting →
        l.state = .connecting ∨ l.state = .reconnecting)) : Met known l' where
  opened := by
    rw [hconns]
    exact h.opened
  current := by
    intro c hc
    rcases hkept with hnone | ⟨hsame, -⟩
    · rw [hnone] at hc
      cases hc
    · rw [hconns]
      exact h.current c (hsame ▸ hc)
  later := by
    intro hstate c hc
    rcases hkept with hnone | ⟨hsame, hstates⟩
    · rw [hnone] at hc
      cases hc
    · exact h.later (hstates hstate) c (hsame ▸ hc)

theorem Met.hangUp (h : Met known l) : Met known l.hangUp := by
  unfold Lifecycle.hangUp
  split
  · exact h.kept rfl (Or.inl rfl)
  · refine h.kept (List.length_modify _ _ _) (Or.inr ⟨rfl, ?_⟩)
    rintro (hstate | hstate) <;> cases hstate

theorem Met.abandonSocket (h : Met known l) : Met known l.abandonSocket := by
  unfold Lifecycle.abandonSocket
  split
  · exact h
  · exact h.kept (List.length_modify _ _ _) (Or.inl rfl)

theorem Met.lose (h : Met known l) (hconn : l.connection = none) : Met known l.lose := by
  unfold Lifecycle.lose
  split
  · exact h.kept rfl (Or.inl hconn)
  · exact h.kept rfl (Or.inl hconn)
  · exact h.hangUp
  · exact h.kept rfl (Or.inl rfl)
  · exact h
  · exact h

theorem Met.connect (h : Met known l) (answer : ConnectAnswer) (endpoint : Endpoint)
    (maxQueuedBytes : Nat) : Met known (l.connect answer endpoint maxQueuedBytes) := by
  have hdetached : ∀ k : Lifecycle, Met known k → Met known { k with connection := none } :=
    fun k hk => hk.kept rfl (Or.inl rfl)
  cases answer with
  | returned =>
      have hlonger : ∀ k, l.conns.length < (l.conns ++ [k]).length := by
        intro k
        rw [List.length_append]
        exact Nat.lt_succ_self _
      exact
        { opened := fun g hg => Nat.lt_trans (h.opened g hg) (hlonger _)
          current := by
            intro c hc
            cases hc
            exact hlonger _
          later := by
            intro _ c hc g hg
            cases hc
            exact h.opened g hg }
  | null => exact (hdetached l h).lose rfl
  | closedThenNull connectFailed =>
      exact (hdetached _ ((hdetached l h).lose rfl)).lose rfl

theorem Met.tick (h : Met known l) (drained : Bool) : Met known (l.tick drained) := by
  exact tick_keeps h (fun _ => h.hangUp) drained

theorem Met.drain (h : Met known l) (deadline : Nat) (drained : Bool) :
    Met known (l.drain deadline drained) := by
  have hdraining : Met known { l with state := .draining, drainDeadline := some deadline } := by
    refine h.kept rfl (Or.inr ⟨rfl, ?_⟩)
    rintro (hstate | hstate) <;> cases hstate
  cases hconn : l.connection with
  | none =>
      rw [drain_none hconn]
      exact hdraining.kept rfl (Or.inl rfl)
  | some c =>
      rw [drain_some hconn]
      exact hdraining.tick drained

theorem Met.connected (h : Met known l) (c : Nat) (handshake : Handshake) :
    Met known (l.connected c handshake) := by
  have hmarked : ∀ state, (state = .connecting ∨ state = .reconnecting →
      l.state = .connecting ∨ l.state = .reconnecting) →
      Met known { l with
        conns := l.conns.modify c fun k => { k with connected := true }
        state := state } :=
    fun state hstate => h.kept (List.length_modify _ _ _) (Or.inr ⟨rfl, hstate⟩)
  by_cases hstate : l.state = .connecting
  · rw [connected_connecting hstate]
    have hactive := hmarked .active (by rintro (hs | hs) <;> cases hs)
    cases handshake with
    | invalid deadline drained => exact hactive.drain deadline drained
    | lost =>
        -- the connection that refused the hello is still held, and still the latest
        exact (hmarked .reconnecting fun _ => Or.inl hstate).kept rfl (Or.inr ⟨rfl, id⟩)
    | done => exact hactive
  · rw [connected_late hstate]
    exact (hmarked l.state id).abandonSocket

theorem Met.step (h : Met known l) (a : Label) : Met known (l.step a) := by
  cases a with
  | quiet => exact h
  | start answer endpoint maxQueuedBytes =>
      have hstarted : Met known { l with started := true } := h.kept rfl (Or.inr ⟨rfl, id⟩)
      exact hstarted.connect answer endpoint maxQueuedBytes
  | retryTimer answer endpoint maxQueuedBytes =>
      simp only [Lifecycle.step]
      split
      · rename_i hstate
        have hredial : Met known { l with timers := l.timers - 1, state := .connecting } :=
          h.kept rfl (Or.inr ⟨rfl, fun _ => Or.inr hstate⟩)
        exact hredial.connect answer endpoint maxQueuedBytes
      · exact h.kept rfl (Or.inr ⟨rfl, id⟩)
  | connected c handshake => exact h.connected c handshake
  | closed c =>
      have hclosed : Met known
          { l with
            conns := l.conns.modify c fun k => { k with closed := true }
            connection := none } := h.kept (List.length_modify _ _ _) (Or.inl rfl)
      exact hclosed.lose rfl
  | teardown deadline drained =>
      simp only [Lifecycle.step]
      unfold Lifecycle.teardown
      split
      · exact h.hangUp
      · exact h.drain deadline drained
      · exact h.kept rfl (Or.inl rfl)
      all_goals exact h
  | modify => exact modify_keeps h fun _ => h.abandonSocket
  | tick drained => exact h.tick drained

theorem Met.forget (h : Met known l) : Met [] l where
  opened := fun _ hg => absurd hg List.not_mem_nil
  current := h.current
  later := fun _ _ _ _ hg => absurd hg List.not_mem_nil

theorem Met.introduced (h : Met known l) (hstate : l.state = .connecting) {c : Nat}
    (hconn : l.connection = some c) (a : Nat) : Met (known ++ [c]) (l.connected a .done) := by
  rw [connected_connecting hstate]
  have hlength : (l.conns.modify a fun k => { k with connected := true }).length =
      l.conns.length := List.length_modify _ _ _
  exact
    { opened := by
        intro g hg
        show g < (l.conns.modify a fun k => { k with connected := true }).length
        rw [hlength]
        rcases List.mem_append.mp hg with hg | hg
        · exact h.opened g hg
        · rw [List.mem_singleton.mp hg]
          exact h.current c hconn
      current := by
        intro c hc
        show c < (l.conns.modify a fun k => { k with connected := true }).length
        rw [hlength]
        exact h.current c hc
      later := by rintro (hs | hs) <;> cases hs }

/-! ## A session that is still dialling -/

theorem hangUp_not_live : l.hangUp.state.live = false := by
  unfold hangUp
  split <;> rfl

theorem drain_not_live (deadline : Nat) (drained : Bool) :
    (l.drain deadline drained).state.live = false := by
  unfold drain tick
  simp only
  split
  · rfl
  · split
    · exact hangUp_not_live
    · rfl

end Lifecycle

/-- A session that has lost no attempt yet and has not been pointed at another server. -/
def World.fresh (w : World β S) : Bool :=
  w.session.state = .connecting && !w.session.reconnecting && !w.session.endpointChanged

/-- The step loses an attempt of a dialling session: `Connect` fails, the socket closes before a hello
was accepted on it, or the hello cannot be sent. -/
def attemptLost (env : Env β) (w : World β S) (s : Step β) : Bool :=
  match s with
  | .start => env.connect w.port.connects ≠ .returned
  | .onConnected _ => helloLost env w s
  | .onClosed _ _ => true
  | _ => false

def firstAttemptLost (env : Env β) (w : World β S) (s : Step β) : Bool :=
  w.fresh && attemptLost env w s

section

variable {env : Env β} {v w : World β S} {s : Step β}

/-- The state and the flag stay as they are, or the session comes to its end. -/
def Dialling (w v : World β S) : Prop :=
  v.session.state.live = false ∨
    v.session.state = w.session.state ∧ v.session.reconnecting = w.session.reconnecting

theorem dialling_aside (h : w.Aside v) : Dialling w v := by
  rcases h with ⟨_, _, _, _, _, _, _, -, rfl⟩
  exact Or.inr ⟨rfl, rfl⟩

theorem dialling_teardown (h : w.session.state = .connecting) : Dialling w (w.teardown env) := by
  unfold World.teardown
  rw [h]
  refine Or.inl ?_
  show w.hangUp.lifecycle.state.live = false
  rw [World.lifecycle_hangUp]
  exact Lifecycle.hangUp_not_live

theorem dialling_pump (h : w.session.state = .connecting) : Dialling w (w.pump env) := by
  rw [World.pump_eq, h]
  show Dialling w (w.drainHandoffRing env).pumpPlayback
  rcases World.drainHandoffRing_writes env w with ⟨_, _, _, _, _, _, _, _, _, -, hwrites⟩
  rcases World.aside_pumpPlayback (w.drainHandoffRing env) with ⟨_, _, _, _, _, _, _, -, hpump⟩
  rw [hpump, hwrites]
  exact Or.inr ⟨rfl, rfl⟩

theorem dialling_playbackControl {control : PlaybackPath β S → World β S → World β S}
    (h : ∀ path, w.session.playback.path = some path → Dialling w (control path w)) :
    Dialling w (w.playbackControl control) := by
  unfold World.playbackControl
  split
  · exact dialling_aside (World.aside_unsupported w _)
  · rename_i path hpath
    exact h path hpath

theorem dialling_onText (h : w.session.state = .connecting) (text : Text) :
    Dialling w (w.onText env text) := by
  unfold World.onText
  split
  · rw [World.fire_teardown]
    exact dialling_teardown (w := w.emit .disconnect []) h
  · exact Or.inr ⟨rfl, rfl⟩
  · exact Or.inr ⟨rfl, rfl⟩
  · exact dialling_playbackControl fun _ _ => Or.inr ⟨rfl, rfl⟩
  · exact dialling_playbackControl fun _ _ => dialling_aside (World.aside_handleClear w _)
  · exact dialling_playbackControl fun _ _ => Or.inr ⟨rfl, rfl⟩

theorem dialling_onBinary (w : World β S) (bytes : List β) : Dialling w (w.onBinary env bytes) := by
  unfold World.onBinary
  split
  · exact Or.inr ⟨rfl, rfl⟩
  · split
    · exact dialling_aside (World.aside_unsupported w _)
    · rename_i path hpath
      rcases World.aside_pumpPlayback (w.receive env path bytes) with
        ⟨_, _, _, _, _, _, _, -, hpump⟩
      rcases World.aside_receive env w path bytes with ⟨_, _, _, _, _, _, _, -, hreceive⟩
      rw [hpump, hreceive]
      exact Or.inr ⟨rfl, rfl⟩

theorem dialling_runPosted {i : Nat} (h : w.session.state = .connecting)
    (hmodify : ∀ endpoint, occasion env w (.runPosted i) ≠ .modify endpoint) :
    Dialling w (step env w (.runPosted i)) := by
  cases htask : w.port.posted[i]? with
  | none =>
      rw [step_runPosted_none env htask]
      exact Or.inr ⟨rfl, rfl⟩
  | some task =>
      rw [step_runPosted_some env htask]
      cases task with
      | teardown =>
          show Dialling w (World.fire env .teardown (w.takeTask i))
          rw [World.fire_teardown]
          exact dialling_teardown (w := w.takeTask i) h
      | deliverText text =>
          rcases World.deliverText_writes env (w.takeTask i) text with ⟨_, _, _, -, hwrites⟩
          show Dialling w ((w.takeTask i).deliverText env text)
          rw [hwrites]
          exact Or.inr ⟨rfl, rfl⟩
      | applyModify endpoint =>
          exact absurd (by simp [occasion, htask, h, SessionState.live]) (hmodify endpoint)

/-- A handshake in `connecting` that neither completes nor is lost has no hello to send, and ends the
session. -/
theorem dialling_onConnected (h : w.session.state = .connecting) (c : Nat)
    (hgreet : ∀ a hello, occasion env w (.onConnected c) ≠ .greet a hello)
    (hlost : helloLost env w (.onConnected c) = false) :
    Dialling w (step env w (.onConnected c)) := by
  refine Or.inl ?_
  show (step env w (.onConnected c)).lifecycle.state.live = false
  rw [lifecycle_step]
  simp only [label, Lifecycle.step]
  rw [Lifecycle.connected_connecting (show w.lifecycle.state = .connecting from h)]
  let v : World β S := { w.markConnected c with session.state := .active }
  show (Lifecycle.shaken (v.handshake env) _).state.live = false
  cases hhello : w.hello env with
  | none =>
      rcases World.handshake_invalid (w := v) hhello with ⟨deadline, drained, hshake⟩
      rw [hshake]
      exact Lifecycle.drain_not_live deadline drained
  | some hello =>
      cases hconn : w.session.connection with
      | none => simp [helloLost, h, hhello, hconn] at hlost
      | some a =>
          have haccepts : env.accepts (w.markConnected c).port.conns a w.port.wire.length
              (.hello hello) = true := by
            simpa [helloLost, h, hhello, hconn] using hlost
          refine absurd ?_ (hgreet a hello)
          have hsame : (w.markConnected c).hello env = w.hello env := rfl
          have hheld : (w.markConnected c).session.connection = some a := hconn
          simp only [occasion, if_pos h, greeting, hsame, hhello, hheld]
          exact if_pos haccepts

/-- Without a hello, a modify or a lost attempt a dialling session goes on dialling, or ends. -/
theorem dialling_step (h : w.session.state = .connecting)
    (hgreet : ∀ c hello, occasion env w s ≠ .greet c hello)
    (hmodify : ∀ endpoint, occasion env w s ≠ .modify endpoint)
    (hkept : attemptLost env w s = false) : Dialling w (step env w s) := by
  cases s with
  | start =>
      have hanswer : env.connect w.port.connects = .returned := by simpa [attemptLost] using hkept
      show Dialling w (World.beginConnectWith _ env { w with started := true })
      rw [World.beginConnect_eq]
      unfold World.connect
      rw [show env.connect ({ w with started := true } : World β S).port.connects = .returned
        from hanswer]
      exact Or.inr ⟨rfl, rfl⟩
  | pump => exact dialling_pump h
  | stop | sendText _ | sendDtmf _ _ | modify _ => exact step_posts rfl fun _ => Or.inr ⟨rfl, rfl⟩
  | runPosted i => exact dialling_runPosted h hmodify
  | retryTimer =>
      show Dialling w (w.takeTimer.fire env .retryTimerFired)
      rw [World.fire_retryTimerFired_stale env (w := w.takeTimer)
        (by rw [show w.takeTimer.session.state = .connecting from h]; decide)]
      exact Or.inr ⟨rfl, rfl⟩
  | onConnected c => exact dialling_onConnected h c hgreet hkept
  | onText c text => exact dialling_onText h text
  | onBinary c bytes => exact dialling_onBinary w bytes
  | onClosed c connectFailed => cases hkept
  | pushAudio pcm =>
      rcases World.pushAudio_writes w pcm with ⟨_, _, _, _, _, hwrites⟩
      show Dialling w (w.pushAudio pcm)
      rw [hwrites]
      exact Or.inr ⟨rfl, rfl⟩
  | setPaused paused => exact Or.inr ⟨rfl, rfl⟩
  | readPlayback count => exact Or.inr ⟨rfl, rfl⟩

end

/-! ## The observer -/

/-- The connections whose server has accepted a hello since the last applied modify. -/
def introduce (env : Env β) (w : World β S) (s : Step β) (known : List Nat) : List Nat :=
  match occasion env w s with
  | .greet c _ => known ++ [c]
  | .modify _ => []
  | _ => known

def newOffers (env : Env β) (w : World β S) (s : Step β) : List (Offer β) :=
  (step env w s).port.wire.drop w.port.wire.length

def newEvents (env : Env β) (w : World β S) (s : Step β) : List ForkEvent :=
  (step env w s).events.drop w.events.length

/-- A resume is sent, reported and counted only when an earlier connection introduced the stream; a
server that accepts the first hello gets nothing else, and the host a connect event. -/
structure Introduces (env : Env β) (known : List Nat) (w : World β S) (s : Step β) : Prop where
  sent : ∀ o ∈ newOffers env w s, isResume o = true → ∃ g ∈ known, g < o.conn
  reported : ∀ e ∈ newEvents env w s, e.type = .resume → known ≠ []
  counted : (step env w s).session.reconnects ≠ w.session.reconnects → known ≠ []
  plain : ∀ c hello, occasion env w s = .greet c hello → known = [] →
    { conn := c, frame := .hello hello, accepted := true } ∈ newOffers env w s ∧
      (∀ o ∈ newOffers env w s, isResume o = false) ∧
      ∃ e ∈ newEvents env w s, e.type = .connect

/-- The session's flags against what the observer knows. -/
structure Told (known : List Nat) (w : World β S) : Prop where
  met : w.lifecycle.Met known
  known : w.session.endpointChanged = false →
    known ≠ [] ∨ w.session.state.live = false ∨
      w.session.state = .connecting ∧ w.session.reconnecting = false

section

variable {env : Env β} {w : World β S} {s : Step β} {known : List Nat}

/-- What a step adds to a log that has only grown. -/
theorem mem_new {α : Type} {old new : List α} {x : α} (h : old <+: new)
    (hx : x ∈ new.drop old.length) (p : α → Bool) (hp : p x = true) :
    x ∈ (new.filter p).drop (old.filter p).length := by
  rcases h with ⟨more, rfl⟩
  rw [List.drop_left] at hx
  rw [List.filter_append, List.drop_left]
  exact List.mem_filter.mpr ⟨hx, hp⟩

/-- When no entry of a kind was added, none of the new entries is of it. -/
theorem none_new {α : Type} {old new : List α} (h : old <+: new) {p : α → Bool}
    (hsame : new.filter p = old.filter p) : ∀ x ∈ new.drop old.length, p x = false := by
  intro x hx
  rw [Bool.eq_false_iff]
  intro hp
  have hnew := mem_new h hx p hp
  rw [hsame, List.drop_length] at hnew
  cases hnew

theorem mem_drop_of_concat {α : Type} {old new : List α} {x : α} (h : old ++ [x] <+: new) :
    x ∈ new.drop old.length := by
  rcases h with ⟨more, rfl⟩
  rw [List.append_assoc, List.drop_left]
  exact List.mem_cons_self

theorem grows_step (env : Env β) (w : World β S) (s : Step β) :
    w.port.wire <+: (step env w s).port.wire ∧ w.events <+: (step env w s).events := by
  by_cases hgreet : ∃ c hello, occasion env w s = .greet c hello
  · rcases hgreet with ⟨c, hello, hoccasion⟩
    have harises := occasion_arises env w s
    have hchores := World.continues_chores (chores_step env w s)
    rw [hoccasion] at harises hchores
    rcases harises with ⟨a, rfl, -, -, -, haccepts⟩
    rcases World.greet_logs env (w.markConnected a) c hello haccepts with ⟨hwire, hevents, -⟩
    exact ⟨((List.prefix_append _ _).trans hwire).trans hchores.wire, hevents.trans hchores.events⟩
  · have hcontinues := continues_step env w s fun c hello h => hgreet ⟨c, hello, h⟩
    exact ⟨hcontinues.wire, hcontinues.events⟩

/-- A step without a completed hello sends no resume and counts none. -/
theorem introduces_other (hgreet : ∀ c hello, occasion env w s ≠ .greet c hello) :
    Introduces env known w s := by
  rcases World.resumeBooks_chores (chores_step env w s) with ⟨n, hstep⟩
  rw [resumeBooks_perform env w s hgreet] at hstep
  have hcontinues := continues_step env w s hgreet
  have hframes : (step env w s).port.wire.filter isResume = w.port.wire.filter isResume :=
    congrArg ResumeBooks.frames hstep
  have hreports : ((step env w s).events.filter fun e => e.type = .resume) =
      w.events.filter fun e => e.type = .resume := congrArg ResumeBooks.events hstep
  exact
    { sent := by
        intro o ho hresume
        cases (none_new hcontinues.wire hframes o ho).symm.trans hresume
      reported := by
        intro e he hresume
        exact absurd hresume (of_decide_eq_false (none_new hcontinues.events hreports e he))
      counted := fun hcounted => absurd hcontinues.reconnects hcounted
      plain := fun c hello hoccasion => absurd hoccasion (hgreet c hello) }

/-- A session that is connecting and will resume has met a server before. -/
theorem Told.known_of_resumes (h : Told known w) (hstate : w.session.state = .connecting)
    (hresumes : w.resumes = true) : known ≠ [] := by
  have hflags : w.session.reconnecting = true ∧ w.session.endpointChanged = false := by
    simpa [World.resumes] using hresumes
  rcases h.known hflags.2 with hknown | hended | ⟨-, hfirst⟩
  · exact hknown
  · rw [hstate] at hended
    cases hended
  · rw [hflags.1] at hfirst
    cases hfirst

/-- A completed hello: when the session resumes, the observer knows an earlier connection. -/
theorem introduces_greet (h : Told known w) {c : Nat} {hello : Text}
    (hoccasion : occasion env w s = .greet c hello) : Introduces env known w s := by
  have harises := occasion_arises env w s
  have hchores := chores_step env w s
  rw [hoccasion] at harises hchores
  rcases harises with ⟨a, rfl, hstate, hconn, -, haccepts⟩
  rcases World.resumeBooks_chores hchores with ⟨n, hbooks⟩
  rcases World.greet_logs env (w.markConnected a) c hello haccepts with ⟨hwire, hevents, hplain⟩
  have hrest := World.continues_chores hchores
  have hgrows := grows_step env w (.onConnected a)
  have hsame : (w.markConnected a).resumes = w.resumes := rfl
  cases hresumes : w.resumes with
  | true =>
      have hknown : known ≠ [] := h.known_of_resumes hstate hresumes
      rcases World.resumeBooks_greet env (w.markConnected a) c hello with
        ⟨-, ok, hgreet⟩ | ⟨hnone, -⟩
      · have hframes : (step env w (.onConnected a)).port.wire.filter isResume =
            w.port.wire.filter isResume ++ [(w.markConnected a).resumeFrame env c ok] :=
          (congrArg ResumeBooks.frames hbooks).trans (congrArg ResumeBooks.frames hgreet)
        exact
          { sent := by
              intro o ho hresume
              have hnew := mem_new hgrows.1 ho isResume hresume
              rw [hframes, List.drop_left, List.mem_singleton] at hnew
              rcases List.exists_mem_of_ne_nil known hknown with ⟨g, hg⟩
              refine ⟨g, hg, ?_⟩
              rw [hnew]
              exact h.met.later (Or.inl hstate) c hconn g hg
            reported := fun _ _ _ => hknown
            counted := fun _ => hknown
            plain := fun _ _ _ hnone => absurd hnone hknown }
      · rw [hsame, hresumes] at hnone
        cases hnone
  | false =>
      rcases World.resumeBooks_greet env (w.markConnected a) c hello with
        ⟨hsome, -⟩ | ⟨-, hgreet⟩
      · rw [hsame, hresumes] at hsome
        cases hsome
      · have hframes : (step env w (.onConnected a)).port.wire.filter isResume =
            w.port.wire.filter isResume :=
          (congrArg ResumeBooks.frames hbooks).trans (congrArg ResumeBooks.frames hgreet)
        have hreports : ((step env w (.onConnected a)).events.filter fun e => e.type = .resume) =
            w.events.filter fun e => e.type = .resume :=
          (congrArg ResumeBooks.events hbooks).trans (congrArg ResumeBooks.events hgreet)
        rcases hplain hresumes with ⟨hcount, hconnect⟩
        have hunsent : ∀ o ∈ newOffers env w (.onConnected a), isResume o = false :=
          none_new hgrows.1 hframes
        exact
          { sent := by
              intro o ho hresume
              rw [hunsent o ho] at hresume
              cases hresume
            reported := by
              intro e he hresume
              exact absurd hresume (of_decide_eq_false (none_new hgrows.2 hreports e he))
            counted := fun hcounted => absurd (hrest.reconnects.trans hcount) hcounted
            plain := by
              intro c' hello' hagain _
              rw [hoccasion] at hagain
              cases hagain
              exact ⟨mem_drop_of_concat (hwire.trans hrest.wire), hunsent,
                _, mem_drop_of_concat (hconnect.trans hrest.events), rfl⟩ }

theorem introduces_step (h : Told known w) (s : Step β) : Introduces env known w s := by
  by_cases hgreet : ∃ c hello, occasion env w s = .greet c hello
  · rcases hgreet with ⟨c, hello, hoccasion⟩
    exact introduces_greet h hoccasion
  · exact introduces_other fun c hello hoccasion => hgreet ⟨c, hello, hoccasion⟩

theorem told_other (h : Told known w) (hkept : firstAttemptLost env w s = false)
    (hgreet : ∀ c hello, occasion env w s ≠ .greet c hello)
    (hmodify : ∀ endpoint, occasion env w s ≠ .modify endpoint) : Told known (step env w s) where
  met := by
    rw [lifecycle_step]
    exact h.met.step (label env w s)
  known := by
    intro hchanged
    rcases World.resumeBooks_chores (chores_step env w s) with ⟨n, hbooks⟩
    rw [resumeBooks_perform env w s hgreet] at hbooks
    have hsame : (step env w s).session.endpointChanged = w.session.endpointChanged := by
      refine (congrArg ResumeBooks.endpointChanged hbooks).trans ?_
      dsimp only
      split
      · rename_i endpoint hoccasion
        exact absurd hoccasion (hmodify endpoint)
      · rfl
    rw [hsame] at hchanged
    rcases h.known hchanged with hknown | hended | ⟨hstate, hfirst⟩
    · exact Or.inl hknown
    · have hrun : Run (step env) (fun _ _ => True) w (step env w s) := .tail s .refl trivial
      exact Or.inr (Or.inl (dead_end hrun hended))
    · have hfresh : w.fresh = true := by simp [World.fresh, hstate, hfirst, hchanged]
      rw [firstAttemptLost, hfresh, Bool.true_and] at hkept
      rcases dialling_step hstate hgreet hmodify hkept with hended | ⟨hstate', hflag⟩
      · exact Or.inr (Or.inl hended)
      · exact Or.inr (Or.inr ⟨hstate'.trans hstate, hflag.trans hfirst⟩)

/-- The observer keeps up with the session. -/
theorem told_step (h : Told known w) (hkept : firstAttemptLost env w s = false) :
    Told (introduce env w s known) (step env w s) := by
  have harises := occasion_arises env w s
  have hother := told_other h hkept
  unfold introduce
  cases hoccasion : occasion env w s with
  | greet c hello =>
      rw [hoccasion] at harises
      rcases harises with ⟨a, rfl, hstate, hconn, hhello, haccepts⟩
      let v : World β S := { w.markConnected a with session.state := .active }
      have hdone : v.handshake env = .done := by
        rw [World.handshake_owned (w := v) hhello hconn]
        exact if_pos haccepts
      refine ⟨?_, fun _ => Or.inl (by simp)⟩
      rw [lifecycle_step]
      show Lifecycle.Met (known ++ [c]) (w.lifecycle.connected a (v.handshake env))
      rw [hdone]
      exact h.met.introduced hstate hconn a
  | modify endpoint =>
      rcases World.resumeBooks_chores (chores_step env w s) with ⟨n, hbooks⟩
      rw [resumeBooks_perform env w s (by simp [hoccasion]), hoccasion] at hbooks
      have hchanged : (step env w s).session.endpointChanged = true :=
        congrArg ResumeBooks.endpointChanged hbooks
      refine ⟨?_, fun hsame => ?_⟩
      · rw [lifecycle_step]
        exact (h.met.step (label env w s)).forget
      · rw [hchanged] at hsame
        cases hsame
  | _ => exact hother (by simp [hoccasion]) (by simp [hoccasion])

end

/-! ## Runs -/

/-- A session and what its observer knows. -/
structure Acquainted (β : Type) (S : ℕ+) where
  world : World β S
  known : List Nat

def Acquainted.step (env : Env β) (a : Acquainted β S) (s : Step β) : Acquainted β S :=
  { world := Session.step env a.world s
    known := introduce env a.world s a.known }

/-- In a run that loses no attempt before the first hello is accepted, a resume goes out only when an
earlier connection introduced the stream after the last modify, and every other server that accepts a
hello is greeted plainly. -/
theorem resumes_only_known_servers {env : Env β} {params : ForkParams} {tuning : Tuning}
    {onFinished : Bool} {supply : SlabSupply} {w₀ : World β S} {a : Acquainted β S}
    (hcreate : World.create params tuning onFinished supply = some w₀)
    (hrun : Run (Acquainted.step env) (fun a s => firstAttemptLost env a.world s = false)
      { world := w₀, known := [] } a) :
    ∀ s, Introduces env a.known a.world s := by
  have htold : Told a.known a.world := by
    refine hrun.invariant (I := fun a => Told a.known a.world) ?_ fun _ s ha hkept => told_step ha hkept
    rcases World.create_spec hcreate with ⟨ring, path, rate, channels, -, -, -, rfl⟩
    exact
      { met :=
          { opened := fun _ hg => absurd hg List.not_mem_nil
            current := by
              intro c hc
              cases hc
            later := fun _ _ _ _ hg => absurd hg List.not_mem_nil }
        known := fun _ => Or.inr (Or.inr ⟨rfl, rfl⟩) }
  exact fun s => introduces_step htold s

/-- A fork that loses its server and is then pointed at another one: the first return is a resume, the
new server is greeted plainly. -/
theorem resumes_only_known_servers_sample :
    let a := exec (Acquainted.step Sample.env) { world := Sample.fork, known := [] }
      [.start, .onConnected 0, .onClosed 0 false, .retryTimer, .onConnected 1,
        .modify Sample.otherEndpoint, .runPosted 0, .onClosed 1 false, .retryTimer]
    a.known = [] ∧ a.world.session.reconnects = 1 ∧ ∀ s, Introduces Sample.env a.known a.world s :=
  ⟨by decide +kernel, by decide +kernel,
    resumes_only_known_servers Sample.create_fork (Run.of_exec (by decide +kernel))⟩

/-- The first socket closes before its handshake; the first server that ever accepts a hello is sent a
resume. -/
theorem lost_first_attempt_resumes :
    let steps : List (Step UInt8) := [.start, .onClosed 0 true, .retryTimer]
    let a := exec (Acquainted.step Sample.env) { world := Sample.fork, known := [] } steps
    Run (step Sample.env) (fun v s => contract v s = true) Sample.fork
        (exec (step Sample.env) Sample.fork (steps ++ [.onConnected 1])) ∧
      a.world = exec (step Sample.env) Sample.fork steps ∧ a.known = [] ∧
      (newOffers Sample.env a.world (.onConnected 1)).map isResume = [false, true] ∧
      (newEvents Sample.env a.world (.onConnected 1)).map ForkEvent.type = [.resume] ∧
      (step Sample.env a.world (.onConnected 1)).session.reconnects = 1 :=
  ⟨Run.of_exec (by decide +kernel), rfl, by decide +kernel, by decide +kernel, by decide +kernel,
    by decide +kernel⟩

end Session
end AudioFork
