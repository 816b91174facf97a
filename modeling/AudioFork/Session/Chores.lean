import AudioFork.Session.Moves

/-!
# Chores — what a step does besides its occasion

A step of a session has at most one *occasion*: a connection is adopted, a socket is gone, a
handshake succeeds, the fork is pointed at another server, a text is submitted or delivered, audio is
pushed.
`occasion` reads it off the world and the step.  Everything else a step does is a `Chore`: moving
audio, giving up a socket, retrying, draining, retiring.

`chores_step` says that a step is its preamble, then its occasion, then chores.  An invariant of runs
is therefore proved with one case per chore and one per occasion, and never looks at the driver.
-/

namespace AudioFork
namespace Session

open Buffers Protocol Lib

variable {β : Type} {S : ℕ+}

/-! ## Chores -/

/-- The events a session reports in passing.  The stop event, the degraded event and the resume event
belong to the functions that emit them. -/
def passing : ForkEventType → Bool
  | .stop => false
  | .degraded => false
  | .resume => false
  | _ => true

namespace World

/-- The drain branch of `Pump`, with what follows when the drain is over. -/
def drainTurn (env : Env β) (w : World β S) : World β S :=
  if (w.drainTick env).1 then (w.drainTick env).2.hangUp else (w.drainTick env).2

/-- One chore.  `pumps` tells in which worlds `Pump` may be called. -/
inductive Chore (env : Env β) (pumps : World β S → Prop) : World β S → World β S → Prop
  -- the books of the port and the shard
  | setStarted {w : World β S} : Chore env pumps w { w with started := true }
  | takeTimer {w : World β S} : Chore env pumps w w.takeTimer
  | takeTask {w : World β S} (i : Nat)
      (h : ∀ text, w.port.posted[i]? ≠ some (.deliverText text)) : Chore env pumps w (w.takeTask i)
  | post {w : World β S} (task : Task) (h : ∀ text, task ≠ .deliverText text) :
      Chore env pumps w (w.post task)
  | markConnected {w : World β S} (c : Nat) : Chore env pumps w (w.markConnected c)
  | markClosed {w : World β S} (c : Nat) : Chore env pumps w (w.markClosed c)
  | countConnect {w : World β S} :
      Chore env pumps w { w with port.connects := w.port.connects + 1 }
  | emit {w : World β S} (type : ForkEventType) (detail : Text) (h : passing type = true) :
      Chore env pumps w (w.emit type detail)
  -- audio on its way out
  | setPaused {w : World β S} (paused : Bool) :
      Chore env pumps w { w with session.outbound.paused := paused }
  | drainHandoffRing {w : World β S} (h : pumps w) : Chore env pumps w (w.drainHandoffRing env)
  | flushToConnection {w : World β S} (h : w.session.state = .active) :
      Chore env pumps w (w.flushToConnection env)
  | restoreCapIfDrained {u w : World β S} (h : u.session.state = .active) (hpump : pumps u)
      (hflushed : w = (u.moveAudio env).flushToConnection env) :
      Chore env pumps w w.restoreCapIfDrained
  -- audio on its way in
  | receive {w : World β S} {path : PlaybackPath β S} (bytes : List β)
      (hpath : w.session.playback.path = some path) : Chore env pumps w (w.receive env path bytes)
  | pumpPlayback {w : World β S} : Chore env pumps w w.pumpPlayback
  | readPlayback {w : World β S} (count : Nat) : Chore env pumps w (w.readPlayback count)
  | handlePlaybackStart {w : World β S} (sampleRate channels : Nat) :
      Chore env pumps w (w.handlePlaybackStart sampleRate channels)
  | handleClear {w : World β S} {path : PlaybackPath β S}
      (hpath : w.session.playback.path = some path) : Chore env pumps w (w.handleClear path)
  | handleMark {w : World β S} {path : PlaybackPath β S} (name : Text)
      (hpath : w.session.playback.path = some path) : Chore env pumps w (w.handleMark path name)
  | unsupported {w : World β S} (detail : Text) : Chore env pumps w (w.unsupported detail)
  -- sockets and teardown
  | redial {w : World β S} (h : w.session.state = .reconnecting) :
      Chore env pumps w { w with session.state := .connecting }
  | noteRefused {w : World β S} : Chore env pumps w w.noteRefused
  | refuseHello {w : World β S} (c : Nat) (hello : Text) (h : w.session.state = .connecting)
      (hsend : (w.send env c (.hello hello)).1 = false) :
      Chore env pumps w (w.send env c (.hello hello)).2
  | abandonSocket {w : World β S} (h : w.session.state ≠ .connecting) : Chore env pumps w w.abandonSocket
  | retry {w : World β S} (h : w.session.state = .connecting ∨ w.session.state = .active) :
      Chore env pumps w w.retry
  | hangUp {w : World β S} (h : w.session.state = .connecting ∨ w.session.state = .draining) :
      Chore env pumps w w.hangUp
  | startDrain {w : World β S} (h : w.session.state = .connecting ∨ w.session.state = .active) :
      Chore env pumps w (w.startDrain env)
  | drainTurn {w : World β S} (h : w.session.state = .draining)
      (hring : w.session.outbound.ring.bytes = []) : Chore env pumps w (w.drainTurn env)
  | retire {w : World β S} (h : w.session.state ≠ .dead) : Chore env pumps w w.retire

/-- Finitely many chores. -/
def Chores (env : Env β) (pumps : World β S → Prop) : World β S → World β S → Prop :=
  Relation.ReflTransGen (Chore env pumps)

namespace Chores

variable {env : Env β} {pumps : World β S → Prop} {u v w : World β S}

theorem none (w : World β S) : Chores env pumps w w := Relation.ReflTransGen.refl

theorem one (h : Chore env pumps w v) : Chores env pumps w v := Relation.ReflTransGen.single h

theorem trans (h : Chores env pumps w v) (h' : Chores env pumps v u) : Chores env pumps w u :=
  Relation.ReflTransGen.trans h h'

theorem andThen (h : Chores env pumps w v) (h' : Chore env pumps v u) : Chores env pumps w u :=
  Relation.ReflTransGen.tail h h'

/-- What every chore preserves, any number of chores preserves. -/
theorem preserves {I : World β S → Prop} (h : Chores env pumps w v)
    (hchore : ∀ a b, Chore env pumps a b → I a → I b) (hw : I w) : I v := by
  induction h with
  | refl => exact hw
  | tail _ hlast ih => exact hchore _ _ hlast ih

end Chores

/-! ## Chores on the side -/

/-- A change of what is heard, of the socket held and of what is reported in passing.  Nothing goes
out, and no book is touched that outlives the socket. -/
def Aside (w v : World β S) : Prop :=
  ∃ playback unsupportedInbound connection conns receivePauses supply events,
    (∀ e ∈ events, passing e.type = true) ∧
      v =
        { w with
          session.playback := playback
          session.unsupportedInbound := unsupportedInbound
          session.connection := connection
          port.conns := conns
          port.receivePauses := receivePauses
          supply := supply
          events := w.events ++ events }

section

variable (env : Env β) (w : World β S)

/-- With nothing to report. -/
theorem aside_silent (playback : Playback β S) (connection : Option Nat) (conns : List Conn) :
    Aside w
      { w with
        session.playback := playback
        session.connection := connection
        port.conns := conns } :=
  ⟨playback, w.session.unsupportedInbound, connection, conns, w.port.receivePauses, w.supply, [],
    by simp, by rw [List.append_nil]⟩

theorem aside_emit {type : ForkEventType} (h : passing type = true) (detail : Text) :
    Aside w (w.emit type detail) :=
  ⟨_, _, _, _, _, _, [forkEvent w.session.params type detail], by simpa [forkEvent] using h, rfl⟩

theorem aside_receive (path : PlaybackPath β S) (bytes : List β) :
    Aside w (w.receive env path bytes) := by
  rcases receive_writes env w path bytes with ⟨_, _, events, hevents, hwrites⟩
  refine ⟨_, _, _, _, _, _, events, ?_, hwrites⟩
  intro e he
  rcases hevents e he with htype | htype <;> rw [htype] <;> rfl

theorem aside_pumpPlayback : Aside w w.pumpPlayback := by
  rcases pumpPlayback_local w with ⟨_, _, _, names, hwrites⟩
  exact ⟨_, _, _, _, _, _, _, by simp [forkEvent, passing], hwrites⟩

theorem aside_handlePlaybackStart (sampleRate channels : Nat) :
    Aside w (w.handlePlaybackStart sampleRate channels) :=
  ⟨_, _, _, _, _, _, _, by simp [forkEvent, passing], rfl⟩

theorem aside_handleClear (path : PlaybackPath β S) : Aside w (w.handleClear path) := by
  rcases handleClear_writes w path with ⟨_, _, hwrites⟩
  exact ⟨_, _, _, _, _, _, _, by simp [forkEvent, passing], hwrites⟩

theorem aside_unsupported (detail : Text) : Aside w (w.unsupported detail) := by
  rcases unsupported_writes w detail with ⟨events, hevents, hwrites⟩
  refine ⟨_, _, _, _, _, _, events, ?_, hwrites⟩
  intro e he
  rw [hevents e he]
  rfl

theorem aside_noteRefused : Aside w w.noteRefused := by
  rcases noteRefused_writes w with ⟨events, hevents, hwrites⟩
  refine ⟨_, _, _, _, _, _, events, ?_, hwrites⟩
  intro e he
  rw [hevents e he]
  rfl

theorem aside_abandonSocket : Aside w w.abandonSocket := by
  rcases abandonSocket_writes w with ⟨conns, -, hwrites⟩
  rw [hwrites]
  exact aside_silent w w.session.playback none conns

end

/-- What a tick of the drain leaves true and hanging up keeps, the turn leaves true. -/
theorem drainTurn_ends {env : Env β} {w : World β S} {P : World β S → Prop}
    (htick : P (w.drainTick env).2)
    (hhangUp : P (w.drainTick env).2 → P (w.drainTick env).2.hangUp) : P (w.drainTurn env) := by
  unfold drainTurn
  split
  · exact hhangUp htick
  · exact htick

end World

/-! ## Calls of `Pump` -/

namespace World

/-- A teardown pumps when it starts a drain. -/
def teardownPumps (env : Env β) (w : World β S) : List (World β S) :=
  match w.session.connection with
  | none => []
  | some _ => if w.session.state = .active then [w.startDrain env] else []

/-- A handshake pumps after an accepted hello, or in the drain that follows parameters without an
encoding. -/
def handshakePumps (env : Env β) (w : World β S) : List (World β S) :=
  match w.hello env with
  | none => (w.emit .error (ascii "invalid fork parameters for hello")).teardownPumps env
  | some hello =>
      match w.session.connection with
      | none => []
      | some c =>
          match w.send env c (.hello hello) with
          | (false, _) => []
          | (true, w) => [(w.announce env c).flushPendingTexts env]

theorem mem_teardownPumps {env : Env β} {w : World β S} (hstate : w.session.state = .active)
    (hconn : w.session.connection ≠ none) : w.startDrain env ∈ w.teardownPumps env := by
  unfold teardownPumps
  split
  · contradiction
  · rw [if_pos hstate]
    exact List.mem_singleton_self _

theorem mem_handshakePumps {env : Env β} {w : World β S} {c : Nat} {hello : Text}
    (hhello : w.hello env = some hello) (hconn : w.session.connection = some c)
    (hsend : (w.send env c (.hello hello)).1 = true) :
    ((w.send env c (.hello hello)).2.announce env c).flushPendingTexts env ∈
      w.handshakePumps env := by
  unfold handshakePumps
  rw [hhello]
  simp only
  rw [hconn]
  simp only
  rcases hsent : w.send env c (.hello hello) with ⟨ok, u⟩
  rw [hsent] at hsend
  obtain rfl : ok = true := hsend
  exact List.mem_singleton_self _

end World

/-- The worlds in which `Pump` is called during a step. -/
def pumpCalls (env : Env β) (w : World β S) : Step β → List (World β S)
  | .pump => [w]
  | .runPosted i =>
      match w.port.posted[i]? with
      | some .teardown => (w.takeTask i).teardownPumps env
      | _ => []
  | .onConnected c =>
      if w.session.state = .connecting then
        World.handshakePumps env { w.markConnected c with session.state := .active }
      else
        []
  | .onText _ text =>
      match parseServerMessage env.json text with
      | .serverDisconnect => (w.emit .disconnect []).teardownPumps env
      | _ => []
  | _ => []

/-! ## The functions of the driver -/

namespace World

/-- What `Drain.loop` pops, it pops until nothing is left. -/
theorem ring_drain_loop (others : Nat → Nat → Nat) (params : ForkParams) (tuning : Tuning) :
    ∀ (fuel : Nat) (d : Drain β S), d.outbound.ring.size ≤ fuel →
      (Drain.loop others params tuning fuel d).outbound.ring.bytes = [] := by
  intro fuel
  induction fuel with
  | zero =>
      intro d hfuel
      exact List.length_eq_zero_iff.mp (Nat.le_zero.mp hfuel)
  | succ fuel ih =>
      intro d hfuel
      by_cases hring : d.outbound.ring.bytes = []
      · rw [Drain.loop_empty _ hring]
        exact hring
      · rw [Drain.loop_round fuel hring]
        have hless := drain_round_size others params tuning hring
        exact ih _ (by omega)

section

variable {pumps : World β S → Prop} (env : Env β) (w : World β S)

theorem ring_moveAudio : (w.moveAudio env).session.outbound.ring.bytes = [] := by
  unfold moveAudio
  rw [outbound_pumpPlayback]
  exact ring_drain_loop env.others w.session.params w.session.tuning _ _ (Nat.le_refl _)

variable {w} in
theorem chores_moveAudio (h : pumps w) : Chores env pumps w (w.moveAudio env) :=
  (Chores.one (.drainHandoffRing h)).andThen .pumpPlayback

variable {w} in
theorem chores_pump (hpump : pumps w) : Chores env pumps w (w.pump env) := by
  have hmove := chores_moveAudio env hpump
  have hstate : (w.moveAudio env).session.state = w.session.state :=
    congrArg Lifecycle.state (lifecycle_moveAudio env w)
  rw [pump_eq]
  split <;> rename_i h
  · have hactive : (w.moveAudio env).session.state = .active := hstate.trans h
    exact (hmove.andThen (.flushToConnection hactive)).andThen (.restoreCapIfDrained h hpump rfl)
  · exact hmove.andThen (.drainTurn (hstate.trans h) (ring_moveAudio env w))
  · exact hmove

theorem chores_lose : Chores env pumps w w.lose := by
  unfold lose
  split <;> rename_i h
  · exact .one (.retry (Or.inl h))
  · exact .one (.retry (Or.inr h))
  · exact .one (.hangUp (Or.inr h))
  · exact .one (.retire (by simp [h]))
  · exact .none w
  · exact .none w

variable {w} in
theorem chores_drain (h : w.session.state = .connecting ∨ w.session.state = .active)
    (hpump : w.session.connection ≠ none → pumps (w.startDrain env)) :
    Chores env pumps w (w.drain env) := by
  have hstart : Chores env pumps w (w.startDrain env) := .one (.startDrain h)
  unfold drain
  split
  · exact hstart.andThen (.retire (by simp [startDrain]))
  · rename_i hconn
    exact hstart.trans (chores_pump env (hpump (by simp [hconn])))

variable {w} in
theorem chores_teardown (hpump : ∀ v ∈ w.teardownPumps env, pumps v) :
    Chores env pumps w (w.teardown env) := by
  unfold teardown
  split <;> rename_i h
  · exact .one (.hangUp (Or.inl h))
  · refine chores_drain env (Or.inr h) ?_
    exact fun hconn => hpump _ (mem_teardownPumps h hconn)
  · exact .one (.retire (by simp [h]))
  · exact .none w
  · exact .none w
  · exact .none w

end

/-! ## Occasions -/

/-- The handshake on connection `c` that its server accepted: hello, resume if there is one to send,
and the texts that were waiting. -/
def greet (env : Env β) (c : Nat) (hello : Text) (w : World β S) : World β S :=
  ((send env { w with session.state := .active } c (.hello hello)).2.announce env c).flushPendingTexts
    env

end World

inductive Occasion (β : Type)
  | none
  | adopt
  | closed (connectFailed : Bool)
  | greet (c : Nat) (hello : Text)
  | modify (endpoint : Endpoint)
  | submit (text : Text)
  | deliver (i : Nat) (text : Text)
  | push (pcm : List β)
  deriving DecidableEq, Repr

/-- What an answer of `Connect` brings. -/
def dialled : ConnectAnswer → Occasion β
  | .returned => .adopt
  | .null => .none
  | .closedThenNull connectFailed => .closed connectFailed

/-- An application text that the session takes. -/
def submission (w : World β S) (text : Text) : Occasion β :=
  if w.session.state.live then .submit text else .none

/-- The handshake, when there is a hello, a connection to send it on, and a server that takes it. -/
def greeting (env : Env β) (w : World β S) : Occasion β :=
  match w.hello env with
  | none => .none
  | some hello =>
      match w.session.connection with
      | none => .none
      | some c =>
          if env.accepts w.port.conns c w.port.wire.length (.hello hello) then
            .greet c hello
          else
            .none

def occasion (env : Env β) (w : World β S) : Step β → Occasion β
  | .start => dialled (env.connect w.port.connects)
  | .retryTimer =>
      if w.session.state = .reconnecting then dialled (env.connect w.port.connects) else .none
  | .onConnected c =>
      if w.session.state = .connecting then greeting env (w.markConnected c) else .none
  | .onClosed _ connectFailed => .closed connectFailed
  | .sendText text => submission w text
  | .sendDtmf digit durationMs =>
      match encodeDtmf env.json digit durationMs with
      | none => .none
      | some text => submission w text
  | .runPosted i =>
      match w.port.posted[i]? with
      | some (.deliverText text) => .deliver i text
      | some (.applyModify endpoint) => if w.session.state.live then .modify endpoint else .none
      | some .teardown => .none
      | none => .none
  | .pushAudio pcm => .push pcm
  | _ => .none

/-- What a step does before its occasion. -/
def preamble (w : World β S) : Step β → World β S
  | .start => { w with started := true, port.connects := w.port.connects + 1 }
  | .retryTimer =>
      if w.session.state = .reconnecting then
        { w.takeTimer with
          session.state := .connecting
          port.connects := w.port.connects + 1 }
      else
        w.takeTimer
  | .onConnected c => w.markConnected c
  | .onClosed c _ => w.markClosed c
  | .runPosted i =>
      match w.port.posted[i]? with
      | some (.deliverText _) => w
      | some (.applyModify _) => w.takeTask i
      | some .teardown => w.takeTask i
      | none => w
  | _ => w

/-- The occasion itself. -/
def World.perform (env : Env β) (w : World β S) : Occasion β → World β S
  | .none => w
  | .adopt => w.adopt
  | .closed connectFailed => w.noteClosed env connectFailed
  | .greet c hello => w.greet env c hello
  | .modify endpoint => w.applyModify env endpoint
  | .submit text => w.post (.deliverText text)
  | .deliver i text => (w.takeTask i).deliverText env text
  | .push pcm => w.pushAudio pcm

/-- When an occasion arises. -/
def Arises (env : Env β) (w : World β S) (s : Step β) : Occasion β → Prop
  | .none => True
  | .adopt => s = .start ∨ s = .retryTimer ∧ w.session.state = .reconnecting
  | .closed connectFailed =>
      (s = .start ∨ s = .retryTimer ∧ w.session.state = .reconnecting) ∨
        ∃ c, s = .onClosed c connectFailed
  | .greet c hello =>
      ∃ a, s = .onConnected a ∧ w.session.state = .connecting ∧ w.session.connection = some c ∧
        w.hello env = some hello ∧
        env.accepts (w.markConnected a).port.conns c w.port.wire.length (.hello hello) = true
  | .modify endpoint =>
      ∃ i, s = .runPosted i ∧ w.port.posted[i]? = some (.applyModify endpoint) ∧
        w.session.state.live = true
  | .submit text =>
      w.session.state.live = true ∧
        (s = .sendText text ∨
          ∃ digit durationMs, s = .sendDtmf digit durationMs ∧
            encodeDtmf env.json digit durationMs = some text)
  | .deliver i text => s = .runPosted i ∧ w.port.posted[i]? = some (.deliverText text)
  | .push pcm => s = .pushAudio pcm

theorem occasion_arises (env : Env β) (w : World β S) (s : Step β) :
    Arises env w s (occasion env w s) := by
  have hdialled : ∀ answer, (s = .start ∨ s = .retryTimer ∧ w.session.state = .reconnecting) →
      Arises env w s (dialled answer) := by
    intro answer hs
    cases answer with
    | returned => exact hs
    | null => trivial
    | closedThenNull connectFailed => exact Or.inl hs
  have hsubmission : ∀ text, (s = .sendText text ∨ ∃ digit durationMs,
      s = .sendDtmf digit durationMs ∧ encodeDtmf env.json digit durationMs = some text) →
      Arises env w s (submission w text) := by
    intro text hs
    unfold submission
    split
    · rename_i hlive
      exact ⟨hlive, hs⟩
    · trivial
  cases s with
  | start => exact hdialled _ (Or.inl rfl)
  | retryTimer =>
      simp only [occasion]
      split
      · rename_i hstate
        exact hdialled _ (Or.inr ⟨rfl, hstate⟩)
      · trivial
  | onConnected a =>
      simp only [occasion, greeting]
      split
      · rename_i hstate
        split
        · trivial
        · rename_i hello hhello
          split
          · trivial
          · rename_i c hconn
            split
            · rename_i haccepts
              exact ⟨a, rfl, hstate, hconn, hhello, haccepts⟩
            · trivial
      · trivial
  | onClosed c connectFailed => exact Or.inr ⟨c, rfl⟩
  | sendText text => exact hsubmission text (Or.inl rfl)
  | sendDtmf digit durationMs =>
      simp only [occasion]
      split
      · trivial
      · rename_i text htext
        exact hsubmission text (Or.inr ⟨digit, durationMs, rfl, htext⟩)
  | runPosted i =>
      simp only [occasion]
      split
      · rename_i htask
        exact ⟨rfl, htask⟩
      · rename_i htask
        split
        · rename_i hlive
          exact ⟨i, rfl, htask, hlive⟩
        · trivial
      · trivial
      · trivial
  | _ => trivial

/-! ## A step is its preamble, its occasion, and chores -/

namespace World

variable {pumps : World β S → Prop} (env : Env β) (w : World β S)

theorem chores_connect :
    Chores env pumps
      (perform env { w with port.connects := w.port.connects + 1 }
        (dialled (env.connect w.port.connects)))
      (w.connect env) := by
  have hrefused : ∀ v : World β S, Chores env pumps v v.noteRefused.lose :=
    fun v => (Chores.one .noteRefused).trans (chores_lose env _)
  unfold connect
  cases env.connect w.port.connects with
  | returned => exact .none _
  | null => exact hrefused _
  | closedThenNull connectFailed => exact (chores_lose env _).trans (hrefused _)

variable {w} in
/-- `OnConnected` in `connecting`.  The state is `active` only in passing unless the handshake
succeeds, so the failures are chores of a session that is still connecting. -/
theorem chores_notifyConnected (h : w.session.state = .connecting)
    (hpump : ∀ v ∈ handshakePumps env { w with session.state := .active }, pumps v) :
    Chores env pumps (w.perform env (greeting env w))
      (notifyConnected env { w with session.state := .active }) := by
  have hlost : ∀ v : World β S, v.session.state = .connecting →
      Chores env pumps v (v.emit .error (ascii "hello could not be sent")).retry :=
    fun v hv => (Chores.one (.emit _ _ rfl)).andThen (.retry (Or.inl hv))
  let active : World β S := { w with session.state := .active }
  have hsame : active.hello env = w.hello env := rfl
  unfold greeting
  cases hhello : w.hello env with
  | none =>
      rw [notifyConnected_invalid env (hsame.trans hhello)]
      have hdrain : Chores env pumps (w.emit .error (ascii "invalid fork parameters for hello"))
          ((w.emit .error (ascii "invalid fork parameters for hello")).drain env) := by
        refine chores_drain env (Or.inl h) ?_
        intro hconn
        refine hpump _ ?_
        unfold handshakePumps
        rw [show active.hello env = none from hhello]
        exact mem_teardownPumps (w := active.emit .error _) rfl hconn
      exact (Chores.one (.emit _ _ rfl)).trans hdrain
  | some hello =>
      cases hconn : w.session.connection with
      | none =>
          rw [notifyConnected_unheld env (w := active) (hsame.trans hhello) hconn]
          exact hlost w h
      | some c =>
          simp only
          split
          · rename_i hsend
            rw [notifyConnected_greeted env (w := active) (hsame.trans hhello) hconn hsend]
            exact chores_pump env (hpump _ (mem_handshakePumps (w := active) hhello hconn hsend))
          · rename_i hsend
            have hrefused : (w.send env c (.hello hello)).1 = false := by
              simpa [send] using hsend
            rw [notifyConnected_refused env (w := active) (hsame.trans hhello) hconn hrefused]
            exact (Chores.one (.refuseHello c hello h hrefused)).trans (hlost _ h)

variable {w} in
theorem chores_onText {c : Nat} {text : Text}
    (hpump : ∀ v ∈ pumpCalls env w (.onText c text), pumps v) :
    Chores env pumps w (w.onText env text) := by
  have hcontrol : ∀ control : PlaybackPath β S → World β S → World β S,
      (∀ path, w.session.playback.path = some path → Chores env pumps w (control path w)) →
        Chores env pumps w (w.playbackControl control) := by
    intro control hcontrol
    unfold playbackControl
    split
    · exact .one (.unsupported _)
    · rename_i path hpath
      exact hcontrol path hpath
  unfold onText
  split
  · rename_i hmessage
    simp only [pumpCalls, hmessage] at hpump
    rw [fire_teardown]
    exact (Chores.one (.emit _ _ rfl)).trans (chores_teardown env hpump)
  · exact .one (.emit _ _ rfl)
  · exact .one (.emit _ _ rfl)
  · exact hcontrol _ fun _ _ => .one (.handlePlaybackStart _ _)
  · exact hcontrol _ fun _ hpath => .one (.handleClear hpath)
  · exact hcontrol _ fun _ hpath => .one (.handleMark _ hpath)

theorem chores_onBinary (bytes : List β) : Chores env pumps w (w.onBinary env bytes) := by
  unfold onBinary
  split
  · exact .none w
  · split
    · exact .one (.unsupported _)
    · rename_i path hpath
      exact (Chores.one (.receive bytes hpath)).andThen .pumpPlayback

end World

/-- The preamble is made of chores, too. -/
theorem chores_preamble (env : Env β) (w : World β S) (s : Step β) :
    w.Chores env (fun v => v ∈ pumpCalls env w s) (preamble w s) := by
  cases s with
  | start => exact (World.Chores.one .setStarted).andThen .countConnect
  | retryTimer =>
      simp only [preamble]
      have htimer : w.Chores env (fun v => v ∈ pumpCalls env w .retryTimer) w.takeTimer :=
        .one .takeTimer
      split
      · rename_i h
        exact (htimer.andThen (.redial h)).andThen .countConnect
      · exact htimer
  | onConnected c => exact .one (.markConnected c)
  | onClosed c connectFailed => exact .one (.markClosed c)
  | runPosted i =>
      simp only [preamble]
      split
      · exact .none w
      · rename_i htask
        exact .one (.takeTask i (by simp [htask]))
      · rename_i htask
        exact .one (.takeTask i (by simp [htask]))
      · exact .none w
  | _ => exact .none w

theorem chores_runPosted {pumps : World β S → Prop} (env : Env β) {w : World β S} {i : Nat}
    (hpump : ∀ v ∈ pumpCalls env w (.runPosted i), pumps v) :
    World.Chores env pumps ((preamble w (.runPosted i)).perform env (occasion env w (.runPosted i)))
      (step env w (.runPosted i)) := by
  simp only [preamble, occasion]
  cases htask : w.port.posted[i]? with
  | none =>
      rw [step_runPosted_none env htask]
      exact .none w
  | some task =>
      rw [step_runPosted_some env htask]
      cases task with
      | teardown =>
          show World.Chores env pumps _ (World.fire env .teardown (w.takeTask i))
          rw [World.fire_teardown]
          simp only [pumpCalls, htask] at hpump
          exact World.chores_teardown env hpump
      | deliverText text => exact .none _
      | applyModify endpoint =>
          simp only
          split
          · exact .none _
          · rename_i hlive
            have hidle : (w.takeTask i).applyModify env endpoint = w.takeTask i := if_neg hlive
            show World.Chores env pumps (w.takeTask i) ((w.takeTask i).applyModify env endpoint)
            rw [hidle]
            exact .none _

theorem chores_step (env : Env β) (w : World β S) (s : Step β) :
    World.Chores env (fun v => v ∈ pumpCalls env w s)
      ((preamble w s).perform env (occasion env w s)) (step env w s) := by
  have hsend : ∀ (pumps : World β S → Prop) (text : Text),
      World.Chores env pumps (w.perform env (submission w text)) (w.sendText text) := by
    intro pumps text
    unfold submission World.sendText
    split
    · exact .none _
    · exact .none _
  cases s with
  | start =>
      show World.Chores env _ _ (World.beginConnectWith _ env { w with started := true })
      rw [World.beginConnect_eq]
      exact World.chores_connect env { w with started := true }
  | pump => exact World.chores_pump env (List.mem_singleton_self w)
  | stop => exact .one (.post _ (by simp))
  | sendText text => exact hsend _ text
  | sendDtmf digit durationMs =>
      simp only [preamble, occasion, step, World.sendDtmf]
      cases encodeDtmf env.json digit durationMs with
      | none => exact .none _
      | some text => exact hsend _ text
  | modify endpoint =>
      show World.Chores env _ w (w.modify endpoint)
      unfold World.modify
      split
      · exact .one (.post _ (by simp))
      · exact .none _
  | runPosted i => exact chores_runPosted env fun _ hv => hv
  | retryTimer =>
      show World.Chores env _ _ (w.takeTimer.fire env .retryTimerFired)
      simp only [preamble, occasion]
      by_cases h : w.session.state = .reconnecting
      · rw [if_pos h, if_pos h, World.fire_retryTimerFired env (w := w.takeTimer) h]
        exact World.chores_connect env { w.takeTimer with session.state := .connecting }
      · rw [if_neg h, if_neg h, World.fire_retryTimerFired_stale env (w := w.takeTimer) h]
        exact .none _
  | onConnected c =>
      show World.Chores env _ _ ((w.markConnected c).onConnected env)
      simp only [preamble, occasion]
      by_cases h : w.session.state = .connecting
      · rw [if_pos h, World.onConnected_connecting env (w := w.markConnected c) h]
        refine World.chores_notifyConnected env (w := w.markConnected c) h ?_
        intro v hv
        simpa only [pumpCalls, if_pos h] using hv
      · rw [if_neg h, World.onConnected_late env (w := w.markConnected c) h]
        exact .one (.abandonSocket h)
  | onText c text => exact World.chores_onText env fun _ hv => hv
  | onBinary c bytes => exact World.chores_onBinary env w bytes
  | onClosed c connectFailed =>
      show World.Chores env _ _ ((w.markClosed c).onClosed env connectFailed)
      rw [World.onClosed_eq]
      exact World.chores_lose env _
  | pushAudio pcm => exact .none _
  | setPaused paused => exact .one (.setPaused paused)
  | readPlayback count => exact .one (.readPlayback count)

/-! ### A call of `Pump` ends its step -/

namespace World

variable {env : Env β} {v w : World β S}

theorem teardown_of_pump (h : v ∈ w.teardownPumps env) : w.teardown env = v.pump env := by
  unfold teardownPumps at h
  split at h
  · cases h
  · rename_i c hconn
    split at h
    · rename_i hactive
      rw [List.mem_singleton.mp h]
      unfold teardown drain
      rw [hactive, hconn]
    · cases h

theorem notifyConnected_of_pump (h : v ∈ w.handshakePumps env) :
    w.notifyConnected env = v.pump env := by
  unfold handshakePumps at h
  split at h
  · rename_i hhello
    rw [notifyConnected_invalid env hhello]
    exact teardown_of_pump h
  · rename_i hello hhello
    split at h
    · cases h
    · rename_i c hconn
      split at h
      · cases h
      · rename_i u hsend
        rw [List.mem_singleton.mp h, notifyConnected_greeted env hhello hconn (by rw [hsend]), hsend]

end World

/-- A call of `Pump` is the last thing a step does. -/
theorem step_of_pumpCall {env : Env β} {v w : World β S} {s : Step β}
    (h : v ∈ pumpCalls env w s) : step env w s = v.pump env := by
  unfold pumpCalls at h
  split at h
  · rw [List.mem_singleton.mp h]
    rfl
  · split at h
    · rename_i htask
      rw [step_runPosted_some env htask]
      show World.fire env .teardown _ = _
      rw [World.fire_teardown]
      exact World.teardown_of_pump h
    · cases h
  · split at h
    · rename_i c hstate
      show (w.markConnected c).onConnected env = _
      rw [World.onConnected_connecting env (w := w.markConnected c) hstate]
      exact World.notifyConnected_of_pump h
    · cases h
  · rename_i c text
    split at h
    · rename_i hmessage
      show w.onText env text = _
      unfold World.onText
      rw [hmessage]
      simp only
      rw [World.fire_teardown]
      exact World.teardown_of_pump h
    · cases h
  · cases h

/-- `P` outlives what a step does before it calls `Pump`. -/
structure Readies (env : Env β) (P : World β S → Prop) : Prop where
  takeTask : ∀ {w} i, P w → P (w.takeTask i)
  emit : ∀ {w} type detail, P w → P (w.emit type detail)
  activate : ∀ {w} c, w.session.state = .connecting → P w →
    P { w.markConnected c with session.state := .active }
  startDrain : ∀ {w}, w.session.state = .active → P w → P (w.startDrain env)
  greet : ∀ {w} c hello, P w →
    P (((w.send env c (.hello hello)).2.announce env c).flushPendingTexts env)

namespace Readies

variable {env : Env β} {P : World β S → Prop} {v w : World β S}

theorem teardownPumps (h : Readies env P) (hv : v ∈ w.teardownPumps env) (hw : P w) : P v := by
  unfold World.teardownPumps at hv
  -- a teardown pumps only when it starts a drain over a connection
  split at hv
  · cases hv
  · split at hv
    · rename_i hactive
      rw [List.mem_singleton.mp hv]
      exact h.startDrain hactive hw
    · cases hv

theorem handshakePumps (h : Readies env P) (hv : v ∈ w.handshakePumps env) (hw : P w) : P v := by
  unfold World.handshakePumps at hv
  split at hv
  · -- a hello without an encoding ends in a teardown
    exact h.teardownPumps hv (h.emit _ _ hw)
  · rename_i hello _
    split at hv
    · cases hv
    · rename_i c _
      split at hv
      · cases hv
      · rename_i u hsend
        obtain rfl : (w.send env c (.hello hello)).2 = u := congrArg Prod.snd hsend
        rw [List.mem_singleton.mp hv]
        exact h.greet c hello hw

/-- When `Pump` is called, `P` still holds. -/
theorem pumpCalls (h : Readies env P) {s : Step β} (hv : v ∈ pumpCalls env w s) (hw : P w) : P v := by
  unfold Session.pumpCalls at hv
  split at hv
  · rw [List.mem_singleton.mp hv]
    exact hw
  · split at hv
    · exact h.teardownPumps hv (h.takeTask _ hw)
    · cases hv
  · split at hv
    · rename_i hconnecting
      exact h.handshakePumps hv (h.activate _ hconnecting hw)
    · cases hv
  · split at hv
    · exact h.teardownPumps hv (h.emit _ _ hw)
    · cases hv
  · cases hv

end Readies

/-- When `Pump` is called, the step has not moved audio yet. -/
theorem audio_pumpCall {env : Env β} {v w : World β S} {s : Step β}
    (h : v ∈ pumpCalls env w s) : v.audio = w.audio := by
  refine Readies.pumpCalls (P := fun u => u.audio = w.audio) ⟨?_, ?_, ?_, ?_, ?_⟩ h rfl
  · exact fun _ hu => hu
  · exact fun _ _ hu => hu
  · intro u c hstate hu
    rw [← hu]
    exact World.audio_alive rfl (by simp) (by rw [hstate]; decide)
  · intro u hstate hu
    rw [← hu]
    exact World.audio_alive rfl (by simp [World.startDrain]) (by rw [hstate]; decide)
  · intro u c hello hu
    rw [World.audio_flushPendingTexts, World.audio_announce, World.audio_send env u c (by simp), hu]

end Session
end AudioFork
