import AudioFork.Session.Chores
import AudioFork.Session.Conservation
import AudioFork.Session.WireOrder

/-!
# GracefulDrain — the bye comes last

A session that is told to stop while it streams drains: every pump flushes, and once the handoff ring
and the send buffer are empty it says bye and hangs up.  This module shows that an accepted bye means
that everything handed over is accounted for, that nothing is offered after it, and that a drain ends
in no other way than by that bye, by its deadline, or for want of a connection.
-/

namespace AudioFork
namespace Session

open Buffers Protocol Lib

variable {β : Type} {S : ℕ+}

/-! ## What was handed over -/

namespace World

/-- Every byte offered in a live state was discarded by a pause, refused by the handoff ring, or
handed over. -/
def Tallied (w : World β S) : Prop :=
  w.session.state ≠ .dead →
    w.offered = w.session.outbound.pausedBytes + w.session.outbound.mediaDroppedBytes +
      w.handed.length

variable {env : Env β} {v w : World β S}

/-- The counters of the media thread. -/
def tally (a : Audio β S) : Bool × Nat × Nat × Nat × List β :=
  (a.dead, a.offered, a.pausedBytes, a.mediaDroppedBytes, a.handed)

theorem Tallied.congr (h : w.Tallied) (hsame : tally v.audio = tally w.audio) : v.Tallied := by
  simp only [tally, audio, Prod.mk.injEq] at hsame
  rcases hsame with ⟨hdead, hoffered, hpaused, hmedia, hhanded⟩
  intro hv
  rw [hoffered, hpaused, hmedia, hhanded]
  refine h ?_
  intro hw
  rw [hw] at hdead
  exact hv (by simpa using hdead)

theorem Tallied.pushAudio (h : w.Tallied) (pcm : List β) : (w.pushAudio pcm).Tallied := by
  unfold World.pushAudio
  split
  · intro hdead
    have hbefore : w.offered = w.session.outbound.pausedBytes +
        w.session.outbound.mediaDroppedBytes + w.handed.length := h hdead
    unfold Outbound.push
    cases hpaused : w.session.outbound.paused with
    | true =>
        simp only [if_true, Bool.true_eq_false, and_false, if_false]
        omega
    | false =>
        cases w.session.outbound.ring.push pcm with
        | mk accepted ring =>
            cases accepted with
            | true =>
                simp only [Bool.false_eq_true, if_false, and_self, if_true, List.length_append]
                omega
            | false =>
                simp only [Bool.false_eq_true, if_false, false_and]
                omega
  · exact h

theorem Tallied.move (hmove : Move env w v) (h : w.Tallied) : v.Tallied := by
  cases hmove with
  | quiet hsame => exact h.congr (congrArg tally hsame)
  | drainHandoffRing _ =>
      rcases drainHandoffRing_writes env w with ⟨_, _, _, _, _, _, _, _, _, -, hwrites⟩
      exact h.congr (by rw [hwrites]; rfl)
  | flushToConnection =>
      rcases flushToConnection_writes env w with ⟨_, _, _, _, _, -, hwrites⟩
      exact h.congr (by rw [hwrites]; rfl)
  | restoreCapIfDrained =>
      rcases restoreCapIfDrained_writes w with ⟨_, _, _, hwrites⟩
      exact h.congr (by rw [hwrites]; rfl)
  | retire =>
      intro hdead
      exact absurd (congrArg Lifecycle.state (lifecycle_retire w)) hdead
  | pushAudio pcm => exact h.pushAudio pcm
  | onBinary _ _ _ => exact h.congr (by rw [audio_pumpPlayback, audio_receive]; rfl)
  | pumpPlayback => exact h.congr (by rw [audio_pumpPlayback]; rfl)
  | handleClear _ => exact h.congr (by rw [audio_handleClear]; rfl)
  | handleMark name _ => exact h
  | readPlayback count => exact h

end World

theorem tallied_step {env : Env β} {w : World β S} (h : w.Tallied) (s : Step β) :
    (step env w s).Tallied := by
  by_cases hdead : w.session.state = .dead
  · exact fun halive => absurd (dead_step hdead s) halive
  · exact (moves_step env (intake_alive hdead s)).preserves
      (fun _ _ hmove => World.Tallied.move hmove) h

/-! ## The drain branch -/

namespace World

variable {env : Env β} {w : World β S}

/-- Nothing that was handed over is left behind, and the last frame on the wire is an accepted bye. -/
structure AllOut (w : World β S) : Prop where
  ring : w.session.outbound.ring.bytes = []
  buffer : w.session.outbound.buffer.content = []
  inOrder : List.Sublist (sentAudio w.port.wire) w.handed
  counted :
    w.handed.length = (sentAudio w.port.wire).length + w.session.outbound.bufferDroppedBytes
  bye : ∃ c payload, w.session.connection = some c ∧
    w.port.wire.getLast? = some { conn := c, frame := .bye payload, accepted := true }

theorem buffer_drainTick :
    (w.drainTick env).2.session.outbound.buffer =
      (w.flushToConnection env).session.outbound.buffer := by
  unfold drainTick
  simp only
  exact congrArg Audio.buffer ((audio_sayBye env _ _).trans (audio_drainExpired env _))

/-- The bye is said with an empty buffer only. -/
theorem empty_of_bye (hbefore : w.session.byeSent = false)
    (hafter : (w.drainTick env).2.session.byeSent = true) :
    (w.drainTick env).2.session.outbound.buffer.empty = true := by
  rw [buffer_drainTick]
  rcases flushToConnection_writes env w with ⟨_, _, _, _, _, -, hflush⟩
  have hbye : (w.flushToConnection env).session.byeSent = false := by
    rw [hflush]
    exact hbefore
  revert hafter
  unfold drainTick
  simp only
  generalize w.flushToConnection env = v at hbye
  rcases drainExpired_writes env v with ⟨_, hexpired⟩
  rw [hexpired]
  unfold sayBye
  split
  · intro hafter
    exact absurd (hbye.symm.trans hafter) (by simp)
  · split
    · rename_i hdrained
      exact fun _ => hdrained.1
    · intro hafter
      exact absurd (hbye.symm.trans hafter) (by simp)

/-- A drain branch that gets its bye accepted is over, and everything is out. -/
theorem allOut_drainTick (hstate : w.session.state ≠ .dead) (hring : w.session.outbound.ring.bytes = [])
    (hconserved : w.Conserved) (htallied : w.Tallied) (hbefore : w.session.byeSent = false)
    (hafter : (w.drainTick env).2.session.byeSent = true) :
    (w.drainTick env).1 = true ∧ (w.drainTick env).2.AllOut := by
  have hmoves : Moves env w (w.drainTick env).2 := moves_drainTick env
  have halive : (w.drainTick env).2.session.state ≠ .dead := by
    rw [show (w.drainTick env).2.session.state = w.session.state from
      congrArg Lifecycle.state (lifecycle_drainTick env w)]
    exact hstate
  rcases hmoves.preserves (fun _ _ hmove => Conserved.move hmove) hconserved halive with
    ⟨-, hbalanced⟩
  have htotal := hmoves.preserves (fun _ _ hmove => Tallied.move hmove) htallied halive
  have hring' : (w.drainTick env).2.session.outbound.ring.bytes = [] := by
    rcases drainTick_writes env w with ⟨_, _, _, _, _, _, _, _, -, -, hwrites⟩
    rw [hwrites]
    exact hring
  have hbuffer : (w.drainTick env).2.session.outbound.buffer.content = [] :=
    (SendBuffer.content_eq_nil_iff_empty _).mp (empty_of_bye hbefore hafter)
  have hconn : (w.drainTick env).2.session.connection = w.session.connection :=
    congrArg Lifecycle.connection (lifecycle_drainTick env w)
  rcases wire_drainTick env w hbefore with hsame | ⟨c, payload, -, hwire⟩ |
      ⟨c, payload, hheld, hover, hwire⟩
  · -- without a new bye the flag is the one from before
    rcases wire_flushToConnection env w with ⟨offers, hflush, -⟩
    have hflag := congrArg Prod.snd (hsame.trans hflush)
    exact absurd (hafter.symm.trans (hflag.trans hbefore)) (by simp)
  · exact absurd (hafter.symm.trans (congrArg Prod.snd hwire)) (by simp)
  · refine ⟨hover, hring', hbuffer, hbalanced.books.1.delivered_sublist, ?_, c, payload,
      hconn.trans hheld, ?_⟩
    · have hbooks := hbalanced.books.2
      simp only [Outbound.pipe, Outbound.meter, hring', hbuffer, List.length_nil] at hbooks
      omega
    · rw [show (w.drainTick env).2.port.wire = _ from congrArg Prod.fst hwire]
      exact List.getLast?_concat

end World

/-! ## Silence after the bye -/

namespace World

variable {env : Env β} {v w : World β S}

theorem teardownRank_hangUp (w : World β S) : 2 ≤ w.hangUp.session.state.teardownRank := by
  have hstate : w.hangUp.session.state = w.lifecycle.hangUp.state :=
    congrArg Lifecycle.state (lifecycle_hangUp w)
  rw [hstate]
  unfold Lifecycle.hangUp
  split
  · exact Nat.le_succ 2
  · exact Nat.le_refl 2

/-- A tick that is not over has left the bye flag alone. -/
theorem byeSent_drainTick (h : (w.drainTick env).1 = false) :
    (w.drainTick env).2.session.byeSent = w.session.byeSent := by
  cases hbefore : w.session.byeSent with
  | false =>
      rcases wire_flushToConnection env w with ⟨_, hflush, -⟩
      rcases wire_drainTick env w hbefore with hsame | ⟨_, _, -, hwire⟩ | ⟨_, _, -, hover, -⟩
      · exact (congrArg Prod.snd (hsame.trans hflush)).trans hbefore
      · exact congrArg Prod.snd hwire
      · rw [h] at hover
        cases hover
  | true =>
      have hidle : ∀ (u : World β S) (drained : Bool), u.session.byeSent = true →
          (u.sayBye env drained).session.byeSent = true := by
        intro u drained hu
        unfold sayBye
        split
        · exact hu
        · simp [hu]
      rcases flushToConnection_writes env w with ⟨_, _, _, _, _, -, hflush⟩
      rcases drainExpired_writes env (w.flushToConnection env) with ⟨_, hexpired⟩
      refine hidle ((w.flushToConnection env).drainExpired env).2 _ ?_
      rw [hexpired, hflush]
      exact hbefore

/-- A change that offers nothing and does not go back, or one from before the closing that sets the
bye flag only when it closes. -/
def Parts (w v : World β S) : Prop :=
  v.wiring = w.wiring ∧ w.session.state.teardownRank ≤ v.session.state.teardownRank ∨
    w.session.state.teardownRank < 2 ∧
      (v.session.byeSent = w.session.byeSent ∨ 2 ≤ v.session.state.teardownRank)

theorem parts_chore {pumps : World β S → Prop} (hchore : Chore env pumps w v) : w.Parts v := by
  have hlive : w.session.state = .connecting ∨ w.session.state = .active →
      w.session.state.teardownRank = 0 := by
    rintro (hstate | hstate) <;> rw [hstate] <;> rfl
  have hside : Aside w v → w.Parts v := by
    rintro ⟨_, _, _, _, _, _, _, -, rfl⟩
    exact Or.inl ⟨rfl, Nat.le_refl _⟩
  cases hchore with
  | emit type detail hpassing => exact hside (aside_emit w hpassing detail)
  | flushToConnection hactive =>
      rcases flushToConnection_writes env w with ⟨_, _, _, _, _, -, hwrites⟩
      rw [hwrites]
      exact Or.inr ⟨by rw [hactive]; decide, Or.inl rfl⟩
  | receive bytes _ => exact hside (aside_receive env w _ bytes)
  | pumpPlayback => exact hside (aside_pumpPlayback w)
  | handleClear _ => exact hside (aside_handleClear w _)
  | unsupported detail => exact hside (aside_unsupported w detail)
  | redial hstate => exact Or.inl ⟨rfl, by rw [hstate]; exact Nat.zero_le _⟩
  | noteRefused => exact hside (aside_noteRefused w)
  | refuseHello c hello hstate _ => exact Or.inr ⟨by rw [hstate]; decide, Or.inl rfl⟩
  | abandonSocket _ => exact hside (aside_abandonSocket w)
  | retry hstate => exact Or.inl ⟨rfl, by rw [hlive hstate]; exact Nat.zero_le _⟩
  | hangUp hstate =>
      refine Or.inl ⟨wiring_hangUp w, Nat.le_trans ?_ (teardownRank_hangUp w)⟩
      rcases hstate with hstate | hstate <;> rw [hstate] <;> decide
  | startDrain hstate => exact Or.inl ⟨rfl, by rw [hlive hstate]; exact Nat.zero_le _⟩
  | drainTurn hstate _ =>
      refine Or.inr ⟨by rw [hstate]; decide, ?_⟩
      unfold drainTurn
      split
      · exact Or.inr (teardownRank_hangUp _)
      · rename_i hgoing
        exact Or.inl (byeSent_drainTick (by simpa using hgoing))
  | retire _ =>
      refine Or.inl ⟨wiring_finalize _, ?_⟩
      rw [show w.retire.session.state = .dead from congrArg Lifecycle.state (lifecycle_retire w)]
      cases w.session.state <;> decide
  | _ => exact Or.inl ⟨rfl, Nat.le_refl _⟩

theorem parts_perform {o : Occasion β}
    (hgreet : ∀ c hello, o = .greet c hello → w.session.state = .connecting) :
    w.Parts (w.perform env o) := by
  cases o with
  | none => exact Or.inl ⟨rfl, Nat.le_refl _⟩
  | adopt => exact Or.inl ⟨rfl, Nat.le_refl _⟩
  | closed connectFailed =>
      rcases noteClosed_writes env w connectFailed with ⟨_, _, _, -, hwrites⟩
      show w.Parts (w.noteClosed env connectFailed)
      rw [hwrites]
      exact Or.inl ⟨rfl, Nat.le_refl _⟩
  | greet c hello =>
      refine Or.inr ⟨by rw [hgreet c hello rfl]; decide, Or.inl ?_⟩
      show (w.greet env c hello).session.byeSent = w.session.byeSent
      unfold greet
      rcases flushPendingTexts_writes env
        ((send env { w with session.state := .active } c (.hello hello)).2.announce env c) with
        ⟨_, _, -, hflush⟩
      rcases announce_writes env (send env { w with session.state := .active } c (.hello hello)).2
        c with ⟨_, _, _, _, _, _, -, -, hannounce⟩
      rw [hflush, hannounce]
      rfl
  | modify endpoint =>
      show w.Parts (w.applyModify env endpoint)
      unfold applyModify
      split
      · rename_i hlive
        rcases leave_writes env
          { w with session.params.endpoint := endpoint, session.endpointChanged := true } with
          ⟨_, _, -, -, hwrites⟩
        rw [hwrites]
        refine Or.inr ⟨?_, Or.inl rfl⟩
        cases hstate : w.session.state <;> simp_all [SessionState.live, SessionState.teardownRank]
      · exact Or.inl ⟨rfl, Nat.le_refl _⟩
  | submit text => exact Or.inl ⟨rfl, Nat.le_refl _⟩
  | deliver i text =>
      rcases deliverText_writes env (w.takeTask i) text with ⟨_, _, offers, hoffers, hwrites⟩
      show w.Parts ((w.takeTask i).deliverText env text)
      rw [hwrites]
      cases offers with
      | nil => exact Or.inl ⟨by rw [List.append_nil]; rfl, Nat.le_refl _⟩
      | cons o offers =>
          have hactive : w.session.state = .active := (hoffers o List.mem_cons_self).1
          exact Or.inr ⟨by rw [hactive]; decide, Or.inl rfl⟩
  | push pcm =>
      rcases pushAudio_writes w pcm with ⟨_, _, _, _, _, hwrites⟩
      show w.Parts (w.pushAudio pcm)
      rw [hwrites]
      exact Or.inl ⟨rfl, Nat.le_refl _⟩

/-- The bye flag is up in `closing` and `dead` only. -/
def Parted (w : World β S) : Prop :=
  w.session.byeSent = true → 2 ≤ w.session.state.teardownRank

theorem Parted.parts (h : w.Parted) (hparts : w.Parts v) : v.Parted := by
  intro hv
  rcases hparts with ⟨hwiring, hrank⟩ | ⟨hrank, hbye | hclosed⟩
  · exact Nat.le_trans (h ((congrArg Prod.snd hwiring).symm.trans hv)) hrank
  · exact absurd (h (hbye.symm.trans hv)) (Nat.not_le.mpr hrank)
  · exact hclosed

theorem silent_parts (h : 2 ≤ w.session.state.teardownRank) (hparts : w.Parts v) :
    2 ≤ v.session.state.teardownRank ∧ v.wiring = w.wiring := by
  rcases hparts with ⟨hwiring, hrank⟩ | ⟨hrank, -⟩
  · exact ⟨Nat.le_trans h hrank, hwiring⟩
  · exact absurd h (Nat.not_le.mpr hrank)

end World

section

variable {env : Env β} {w : World β S}

theorem parts_occasion (env : Env β) (w : World β S) (s : Step β) :
    (preamble w s).Parts ((preamble w s).perform env (occasion env w s)) := by
  refine World.parts_perform ?_
  intro c hello hoccasion
  have harises := occasion_arises env w s
  rw [hoccasion] at harises
  rcases harises with ⟨a, rfl, hstate, -⟩
  exact hstate

theorem parted_step (h : w.Parted) (s : Step β) : (step env w s).Parted := by
  have hparts : ∀ a b : World β S, a.Chore env (fun v => v ∈ pumpCalls env w s) b → a.Parted → b.Parted :=
    fun _ _ hchore ha => ha.parts (World.parts_chore hchore)
  have hpreamble := (chores_preamble env w s).preserves hparts h
  exact (chores_step env w s).preserves hparts (hpreamble.parts (parts_occasion env w s))

/-- A session that is closing or dead offers nothing. -/
theorem silent_step (h : 2 ≤ w.session.state.teardownRank) (s : Step β) :
    2 ≤ (step env w s).session.state.teardownRank ∧ (step env w s).wiring = w.wiring := by
  have hparts : ∀ a b : World β S, a.Chore env (fun v => v ∈ pumpCalls env w s) b →
      2 ≤ a.session.state.teardownRank ∧ a.wiring = w.wiring →
        2 ≤ b.session.state.teardownRank ∧ b.wiring = w.wiring := by
    intro a b hchore ha
    have hsilent := World.silent_parts ha.1 (World.parts_chore hchore)
    exact ⟨hsilent.1, hsilent.2.trans ha.2⟩
  have hpreamble := (chores_preamble env w s).preserves hparts ⟨h, rfl⟩
  refine (chores_step env w s).preserves hparts ?_
  have hoccasion := World.silent_parts hpreamble.1 (parts_occasion env w s)
  exact ⟨hoccasion.1, hoccasion.2.trans hpreamble.2⟩

end

/-! ## How a drain ends -/

namespace Lifecycle

variable {l : Lifecycle}

/-- The session was draining, or began to drain in between, and is not draining any more. -/
def LeavesDraining (l l' : Lifecycle) : Prop :=
  l'.state ≠ .draining ∧
    (l.state = .draining ∨ l.drainDeadline = none ∧ l'.drainDeadline ≠ none)

theorem drainDeadline_hangUp : l.hangUp.drainDeadline = l.drainDeadline := by
  unfold hangUp
  split <;> rfl

theorem drainDeadline_lose : l.lose.drainDeadline = l.drainDeadline := by
  unfold lose
  split
  · rfl
  · rfl
  · exact drainDeadline_hangUp
  · rfl
  · rfl
  · rfl

theorem drainDeadline_connect (answer : ConnectAnswer) (endpoint : Endpoint)
    (maxQueuedBytes : Nat) :
    (l.connect answer endpoint maxQueuedBytes).drainDeadline = l.drainDeadline := by
  cases answer with
  | returned => rfl
  | null => exact drainDeadline_lose (l := { l with connection := none })
  | closedThenNull _ => exact drainDeadline_lose.trans (drainDeadline_lose (l := { l with connection := none }))

theorem drainDeadline_abandonSocket : l.abandonSocket.drainDeadline = l.drainDeadline := by
  unfold abandonSocket
  split <;> rfl

/-- A drain that begins and ends at once had no connection, or was over with its first pump. -/
theorem drain_over {deadline : Nat} {drained : Bool} (h : (l.drain deadline drained).state ≠ .draining) :
    l.connection = none ∨ drained = true := by
  cases hconn : l.connection with
  | none => exact Or.inl rfl
  | some c =>
      rw [drain_some hconn] at h
      cases drained with
      | true => exact Or.inr rfl
      | false => exact absurd rfl h

/-- The labels that begin a drain. -/
def BeginsDrain (l : Lifecycle) (deadline : Nat) (drained : Bool) (a : Label) : Prop :=
  l.state = .active ∧ a = .teardown deadline drained ∨
    ∃ c, l.state = .connecting ∧ a = .connected c (.invalid deadline drained)

/-- Nothing else sets the deadline. -/
theorem drainDeadline_step (l : Lifecycle) (a : Label) :
    (l.step a).drainDeadline = l.drainDeadline ∨
      ∃ deadline drained, l.BeginsDrain deadline drained a := by
  cases a with
  | quiet => exact Or.inl rfl
  | start answer endpoint maxQueuedBytes =>
      exact Or.inl (drainDeadline_connect (l := { l with started := true }) _ _ _)
  | retryTimer answer endpoint maxQueuedBytes =>
      refine Or.inl ?_
      simp only [step]
      split
      · exact drainDeadline_connect (l := { l with timers := l.timers - 1, state := .connecting }) _ _ _
      · rfl
  | connected c handshake =>
      by_cases hstate : l.state = .connecting
      · have hconnected : l.step (.connected c handshake) = _ := connected_connecting hstate c handshake
        rw [hconnected]
        cases handshake with
        | invalid deadline drained => exact Or.inr ⟨deadline, drained, Or.inr ⟨c, hstate, rfl⟩⟩
        | lost => exact Or.inl rfl
        | done => exact Or.inl rfl
      · have hlate : l.step (.connected c handshake) = _ := connected_late hstate c handshake
        rw [hlate]
        exact Or.inl drainDeadline_abandonSocket
  | closed c =>
      exact Or.inl (drainDeadline_lose
        (l := { l with
          conns := l.conns.modify c fun k => { k with closed := true }
          connection := none }))
  | teardown deadline drained =>
      by_cases hactive : l.state = .active
      · exact Or.inr ⟨deadline, drained, Or.inl ⟨hactive, rfl⟩⟩
      · refine Or.inl ?_
        simp only [step, teardown]
        split
        · exact drainDeadline_hangUp
        · contradiction
        all_goals rfl
  | modify =>
      refine Or.inl ?_
      simp only [step]
      split
      · exact drainDeadline_abandonSocket
      · rfl
  | tick drained =>
      refine Or.inl ?_
      simp only [step, tick]
      split
      · split
        · exact drainDeadline_hangUp
        · rfl
      · rfl

/-- A drain that begins and ends in one step had no connection, or was over with its first pump. -/
theorem BeginsDrain.over {deadline : Nat} {drained : Bool} {a : Label}
    (h : l.BeginsDrain deadline drained a) (hleft : (l.step a).state ≠ .draining) :
    l.connection = none ∨ drained = true := by
  rcases h with ⟨hactive, rfl⟩ | ⟨c, hstate, rfl⟩
  · simp only [step, teardown, hactive] at hleft
    exact drain_over hleft
  · have hconnected : l.step (.connected c (.invalid deadline drained)) = _ :=
      connected_connecting hstate c _
    rw [hconnected] at hleft
    exact drain_over
      (l := { l with
        conns := l.conns.modify c fun k => { k with connected := true }
        state := .active }) hleft

/-- A draining session waits for its last pump, or for its socket. -/
theorem draining_left {a : Label} (hstate : l.state = .draining) (hstarted : l.started = true)
    (hallows : l.allows a = true) (hleft : (l.step a).state ≠ .draining) :
    a = .tick true ∨ ∃ c, a = .closed c := by
  cases a with
  | start answer endpoint maxQueuedBytes => simp [allows, hstarted] at hallows
  | connected c handshake =>
      have hlate : l.step (.connected c handshake) = _ :=
        connected_late (by rw [hstate]; decide) c handshake
      rw [hlate, state_abandonSocket] at hleft
      exact absurd hstate hleft
  | closed c => exact Or.inr ⟨c, rfl⟩
  | tick drained =>
      cases drained with
      | true => exact Or.inl rfl
      | false => simp [step, tick, hstate] at hleft
  | quiet => exact absurd hstate hleft
  | retryTimer answer endpoint maxQueuedBytes => simp [step, hstate] at hleft
  | teardown deadline drained => simp [step, teardown, hstate] at hleft
  | modify => simp [step, hstate, SessionState.live] at hleft

/-- The labels that end a drain. -/
theorem leaves_cases {callback : Bool} {a : Label} (hreach : l.Reachable callback)
    (hallows : l.allows a = true) (h : l.LeavesDraining (l.step a)) :
    l.state = .draining ∧ (a = .tick true ∨ ∃ c, a = .closed c) ∨
      (∃ deadline drained, (l.connection = none ∨ drained = true) ∧
        (l.state = .active ∧ a = .teardown deadline drained ∨
          ∃ c, l.state = .connecting ∧ a = .connected c (.invalid deadline drained))) := by
  rcases h with ⟨hleft, hdraining⟩
  rcases drainDeadline_step l a with hsame | ⟨deadline, drained, hbegins⟩
  · -- the deadline was not set, so the session was draining before
    have hstate : l.state = .draining := by
      rcases hdraining with hstate | ⟨hnone, hsome⟩
      · exact hstate
      · exact absurd (hsame.trans hnone) hsome
    have hstarted : l.started = true := by
      rcases hreach with rfl | hsound
      · cases hstate
      · exact hsound.started
    exact Or.inl ⟨hstate, draining_left hstate hstarted hallows hleft⟩
  · exact Or.inr ⟨deadline, drained, hbegins.over hleft, hbegins⟩

end Lifecycle

namespace World

variable {env : Env β} {w : World β S}

/-- The clock showed the drain deadline of `v`, or later, at some reading between `w` and `v`. -/
def Expires (env : Env β) (w v : World β S) : Prop :=
  ∃ n deadline, v.session.drainDeadline = some deadline ∧ w.port.clockReads ≤ n ∧
    n < v.port.clockReads ∧ deadline ≤ env.now n

theorem clockReads_hangUp : w.hangUp.port.clockReads = w.port.clockReads := by
  refine hangUp_ends (P := fun u => u.port.clockReads = w.port.clockReads) ?_ fun _ => rfl
  rcases finalize_writes { w with session.state := .dead } with ⟨_, _, -, hwrites⟩
  unfold retire
  rw [hwrites]

/-- A tick that is over has said bye or has read the clock at the deadline. -/
theorem drainTick_over (h : (w.drainTick env).1 = true) :
    (w.drainTick env).2.session.byeSent = true ∨ w.Expires env (w.drainTick env).2 := by
  rcases flushToConnection_writes env w with ⟨_, _, _, _, _, -, hflush⟩
  have hdeadline : (w.flushToConnection env).session.drainDeadline = w.session.drainDeadline := by
    rw [hflush]
  have hreads : (w.flushToConnection env).port.clockReads = w.port.clockReads := by
    rw [hflush]
  revert h
  unfold drainTick
  simp only
  generalize w.flushToConnection env = v at hdeadline hreads
  intro hover
  rcases Bool.or_eq_true_iff.mp hover with hsaid | hexpired
  · exact Or.inl (Bool.and_eq_true_iff.mp hsaid).2
  · refine Or.inr ?_
    rcases sayBye_writes env (v.drainExpired env).2 v.session.outbound.buffer.empty with
      ⟨_, _, -, hbye⟩
    unfold Expires
    rw [hbye]
    unfold drainExpired at hexpired ⊢
    cases hset : v.session.drainDeadline with
    | none => simp [hset] at hexpired
    | some deadline =>
        simp only [hset, now] at hexpired ⊢
        exact ⟨v.port.clockReads, deadline, rfl, Nat.le_of_eq hreads.symm, Nat.lt_succ_self _,
          by simpa using hexpired⟩

/-- The drain branch of a pump called in `w`, up to and with the bye. -/
def drainBranch (env : Env β) (w : World β S) : World β S := ((w.moveAudio env).drainTick env).2

/-- A pump whose drain is over hangs up, after the bye or at the deadline. -/
theorem pump_over (hstate : w.session.state = .draining) (h : w.drainOver env = true) :
    w.pump env = (w.drainBranch env).hangUp ∧
      ((w.drainBranch env).session.byeSent = true ∨ w.Expires env (w.pump env)) := by
  have hpump : w.pump env = (w.drainBranch env).hangUp := by
    rw [pump_eq, hstate]
    simp only [h, if_true]
    rfl
  have hreads : (w.moveAudio env).port.clockReads = w.port.clockReads :=
    clockReads_pumpPlayback (w := w.drainHandoffRing env)
  have hdeadline : ∀ v : World β S, v.hangUp.session.drainDeadline = v.session.drainDeadline :=
    fun v => (congrArg Lifecycle.drainDeadline (lifecycle_hangUp v)).trans
      Lifecycle.drainDeadline_hangUp
  refine ⟨hpump, ?_⟩
  rw [hpump]
  rcases drainTick_over (w := w.moveAudio env) h with hbye | ⟨n, deadline, hset, hfrom, hto, hnow⟩
  · exact Or.inl hbye
  · refine Or.inr ⟨n, deadline, (hdeadline _).trans hset, ?_, ?_, hnow⟩
    · rw [← hreads]
      exact hfrom
    · rw [clockReads_hangUp]
      exact hto

end World

/-- In step `s` a pump is called in `v`, and its drain branch gets a bye accepted. -/
structure SaysBye (env : Env β) (w : World β S) (s : Step β) (v : World β S) : Prop where
  called : v ∈ pumpCalls env w s
  draining : v.session.state = .draining
  before : v.session.byeSent = false
  after : (v.drainBranch env).session.byeSent = true

/-- What ends a drain: the bye was accepted in this step, or the clock reached the deadline, or there
was no connection when the drain began, or the connection is gone. -/
inductive DrainEnd (env : Env β) (w : World β S) (s : Step β) : Prop
  | bye (v : World β S) (h : SaysBye env w s v)
  | deadline (h : w.Expires env (step env w s))
  | unconnected (hstate : w.session.state ≠ .draining) (h : w.session.connection = none)
  | closed (c : Nat) (connectFailed : Bool) (h : s = .onClosed c connectFailed)

section

variable {env : Env β} {w : World β S} {s : Step β}

/-- A pump of a draining session. -/
structure DrainPump (env : Env β) (w : World β S) (s : Step β) (drained : Bool) (v : World β S) :
    Prop where
  called : v ∈ pumpCalls env w s
  draining : v.session.state = .draining
  answer : v.drainOver env = drained
  later : w.port.clockReads ≤ v.port.clockReads
  byeSent : v.session.byeSent = w.session.byeSent

theorem drainPump_tick {drained : Bool} (h : label env w s = .tick drained)
    (hstate : w.session.state = .draining) : DrainPump env w s drained w := by
  cases s with
  | pump =>
      simp only [label, Lifecycle.Label.tick.injEq] at h
      exact ⟨List.mem_singleton_self w, hstate, h, Nat.le_refl _, rfl⟩
  | runPosted i =>
      simp only [label] at h
      split at h <;> cases h
  | onText c text =>
      simp only [label] at h
      split at h <;> cases h
  | _ => cases h

theorem drainPump_teardown {deadline : Nat} {drained : Bool}
    (h : label env w s = .teardown deadline drained) (hactive : w.session.state = .active)
    {c : Nat} (hconn : w.session.connection = some c) : ∃ v, DrainPump env w s drained v := by
  have hheld : w.session.connection ≠ none := by simp [hconn]
  -- the drain of a world that differs from `w` in the books of the port and the events only
  cases s with
  | runPosted i =>
      simp only [label] at h
      split at h
      · rename_i htask
        cases h
        refine ⟨(w.takeTask i).startDrain env, ?_, rfl, rfl, Nat.le_succ _, rfl⟩
        simp only [pumpCalls, htask]
        exact World.mem_teardownPumps (w := w.takeTask i) hactive hheld
      all_goals cases h
  | onText a text =>
      simp only [label] at h
      split at h
      · rename_i hmessage
        cases h
        refine ⟨(w.emit .disconnect []).startDrain env, ?_, rfl, rfl, Nat.le_succ _, rfl⟩
        simp only [pumpCalls, hmessage]
        exact World.mem_teardownPumps (w := w.emit .disconnect []) hactive hheld
      · cases h
  | _ => cases h

theorem drainPump_connected {a deadline : Nat} {drained : Bool}
    (h : label env w s = .connected a (.invalid deadline drained))
    (hconnecting : w.session.state = .connecting) {c : Nat}
    (hconn : w.session.connection = some c) : ∃ v, DrainPump env w s drained v := by
  cases s with
  | onConnected b =>
      let active : World β S := { w.markConnected b with session.state := .active }
      have hhandshake : active.handshake env = .invalid deadline drained := by
        simp only [label, Lifecycle.Label.connected.injEq] at h
        exact h.2
      let failed := active.emit .error (ascii "invalid fork parameters for hello")
      cases hhello : active.hello env with
      | none =>
          have hdrained : (failed.startDrain env).drainOver env = drained := by
            unfold World.handshake at hhandshake
            rw [hhello] at hhandshake
            simp only [Handshake.invalid.injEq] at hhandshake
            exact hhandshake.2
          refine ⟨failed.startDrain env, ?_, rfl, hdrained, Nat.le_succ _, rfl⟩
          simp only [pumpCalls, if_pos hconnecting]
          show failed.startDrain env ∈ active.handshakePumps env
          unfold World.handshakePumps
          rw [hhello]
          simp only
          have hheld : failed.session.connection = some c := hconn
          exact World.mem_teardownPumps (w := failed) rfl (by simp [hheld])
      | some hello =>
          have hheld : active.session.connection = some c := hconn
          rw [World.handshake_owned hhello hheld] at hhandshake
          split at hhandshake <;> cases hhandshake
  | runPosted i =>
      simp only [label] at h
      split at h <;> cases h
  | onText c text =>
      simp only [label] at h
      split at h <;> cases h
  | _ => cases h

/-- A drain whose pump is over. -/
theorem DrainPump.ended {v : World β S} (h : DrainPump env w s true v)
    (hbye : w.session.byeSent = false) : DrainEnd env w s := by
  have hstep := step_of_pumpCall h.called
  rcases (World.pump_over h.draining h.answer).2 with hsaid | ⟨n, deadline, hset, hfrom, hto, hnow⟩
  · exact .bye v ⟨h.called, h.draining, h.byeSent.trans hbye, hsaid⟩
  · refine .deadline ⟨n, deadline, ?_, Nat.le_trans h.later hfrom, ?_, hnow⟩
    · rw [hstep]
      exact hset
    · rw [hstep]
      exact hto

theorem closed_label {c : Nat} (h : label env w s = .closed c) :
    ∃ connectFailed, s = .onClosed c connectFailed := by
  cases s with
  | onClosed a connectFailed =>
      cases h
      exact ⟨connectFailed, rfl⟩
  | runPosted i =>
      simp only [label] at h
      split at h <;> cases h
  | onText a text =>
      simp only [label] at h
      split at h <;> cases h
  | _ => cases h

theorem drainEnd_of_leaves {callback : Bool} (hreach : w.lifecycle.Reachable callback)
    (hparted : w.Parted) (hcontract : contract w s = true)
    (h : w.lifecycle.LeavesDraining (step env w s).lifecycle) : DrainEnd env w s := by
  have hbye : w.session.state.teardownRank < 2 → w.session.byeSent = false := by
    intro hrank
    cases hsent : w.session.byeSent with
    | false => rfl
    | true => exact absurd (hparted hsent) (Nat.not_le.mpr hrank)
  rw [lifecycle_step] at h
  rcases Lifecycle.leaves_cases hreach (allows_of_contract hcontract) h with
    ⟨hdraining, hlabel⟩ | ⟨deadline, drained, hover, hlabel⟩
  · have hnoBye : w.session.byeSent = false :=
      hbye (by rw [show w.session.state = .draining from hdraining]; decide)
    rcases hlabel with hlabel | ⟨c, hlabel⟩
    · exact (drainPump_tick hlabel hdraining).ended hnoBye
    · rcases closed_label hlabel with ⟨connectFailed, hclosed⟩
      exact .closed c connectFailed hclosed
  · cases hconn : w.session.connection with
    | none =>
        refine .unconnected ?_ hconn
        rcases hlabel with ⟨hactive, -⟩ | ⟨c, hconnecting, -⟩
        · rw [show w.session.state = .active from hactive]
          decide
        · rw [show w.session.state = .connecting from hconnecting]
          decide
    | some c =>
        have hdrained : drained = true := by
          rcases hover with hnone | hdrained
          · exact absurd (hconn.symm.trans hnone) (by simp)
          · exact hdrained
        subst hdrained
        rcases hlabel with ⟨hactive, hlabel⟩ | ⟨a, hconnecting, hlabel⟩
        · rcases drainPump_teardown hlabel hactive hconn with ⟨v, hv⟩
          exact hv.ended (hbye (by rw [show w.session.state = .active from hactive]; decide))
        · rcases drainPump_connected hlabel hconnecting hconn with ⟨v, hv⟩
          exact hv.ended (hbye (by rw [show w.session.state = .connecting from hconnecting]; decide))

/-- An accepted bye leaves nothing behind and ends the step. -/
theorem SaysBye.allOut {v : World β S} (h : SaysBye env w s v) (hconserved : w.Conserved)
    (htallied : w.Tallied) :
    (v.drainBranch env).AllOut ∧ (step env w s).wiring = (v.drainBranch env).wiring := by
  have haudio := audio_pumpCall h.called
  have hmoves : World.Moves env v (v.moveAudio env) := by
    refine World.moves_moveAudio env ?_
    intro hdead
    rw [h.draining] at hdead
    cases hdead
  have hstate : (v.moveAudio env).session.state = .draining :=
    (congrArg Lifecycle.state (World.lifecycle_moveAudio env v)).trans h.draining
  have hbefore : (v.moveAudio env).session.byeSent = false :=
    (congrArg Prod.snd (World.wiring_moveAudio env v)).trans h.before
  rcases World.allOut_drainTick (by rw [hstate]; decide) (World.ring_moveAudio env v)
    (hmoves.preserves (fun _ _ hmove => World.Conserved.move hmove)
      (World.Conserved.move (.quiet haudio : World.Move env w v) hconserved))
    (hmoves.preserves (fun _ _ hmove => World.Tallied.move hmove)
      (World.Tallied.move (.quiet haudio : World.Move env w v) htallied)) hbefore h.after with
    ⟨hover, hout⟩
  refine ⟨hout, ?_⟩
  rw [step_of_pumpCall h.called, (World.pump_over h.draining hover).1]
  exact World.wiring_hangUp _

end

/-- The three promises of a graceful drain, in a state `w`. -/
structure Graceful (env : Env β) (w : World β S) : Prop where
  /-- A bye is accepted only when everything is out, and it ends the step. -/
  byeLast : ∀ s v, SaysBye env w s v →
    (v.drainBranch env).AllOut ∧ (step env w s).wiring = (v.drainBranch env).wiring
  /-- After the bye nothing is offered to any connection. -/
  silent : w.session.byeSent = true →
    ∀ v, Run (step env) (fun u s => contract u s = true) w v → v.port.wire = w.port.wire
  ends : ∀ s, contract w s = true →
    w.lifecycle.LeavesDraining (step env w s).lifecycle → DrainEnd env w s

/-- In every run a drain is graceful. -/
theorem drain_is_graceful {env : Env β} {params : ForkParams} {tuning : Tuning} {onFinished : Bool}
    {supply : SlabSupply} {w₀ w : World β S}
    (hcreate : World.create params tuning onFinished supply = some w₀)
    (hrun : Run (step env) (fun v s => contract v s = true) w₀ w) : Graceful env w := by
  have hconserved : w.Conserved :=
    hrun.invariant (conserved_create hcreate) fun _ s hv _ => conserved_step hv s
  have hparted : w.Parted := by
    refine hrun.invariant ?_ fun _ s hv _ => parted_step hv s
    rcases World.create_spec hcreate with ⟨ring, path, rate, channels, -, -, -, rfl⟩
    intro hbye
    cases hbye
  have htallied : w.Tallied := by
    refine hrun.invariant ?_ fun _ s hv _ => tallied_step hv s
    rcases World.create_spec hcreate with ⟨ring, path, rate, channels, -, -, -, rfl⟩
    exact fun _ => rfl
  refine ⟨fun s v hbye => hbye.allOut hconserved htallied, ?_, fun s hcontract hleaves => ?_⟩
  · intro hbye v hv
    have hsilent : 2 ≤ v.session.state.teardownRank ∧ v.wiring = w.wiring := by
      refine hv.invariant (I := fun u => 2 ≤ u.session.state.teardownRank ∧ u.wiring = w.wiring)
        ⟨hparted hbye, rfl⟩ ?_
      intro u s hu _
      have hstep : 2 ≤ (step env u s).session.state.teardownRank ∧
          (step env u s).wiring = u.wiring := silent_step hu.1 s
      exact ⟨hstep.1, hstep.2.trans hu.2⟩
    exact congrArg Prod.fst hsilent.2
  · exact drainEnd_of_leaves (reachable_of_run hcreate hrun) hparted hcontract hleaves

theorem drain_is_graceful_sample :
    let w := exec (step Sample.env) Sample.fork
      [.start, .onConnected 0, .pushAudio [1, 2, 3], .stop]
    let v := (w.takeTask 0).startDrain Sample.env
    SaysBye Sample.env w (.runPosted 0) v ∧ Graceful Sample.env w :=
  ⟨⟨List.mem_singleton_self _, by decide +kernel, by decide +kernel, by decide +kernel⟩,
    drain_is_graceful Sample.create_fork (Run.of_exec (by decide +kernel))⟩

/-- `PushAudio` takes a byte while the fork is paused; by the time the bye is accepted it was neither
sent nor counted as dropped. -/
theorem paused_audio_accepted_and_gone :
    let paused := exec (step Sample.env) Sample.fork [.start, .onConnected 0, .setPaused true]
    let w := exec (step Sample.env) paused
      [.pushAudio [7], .setPaused false, .stop, .runPosted 0]
    Run (step Sample.env) (fun v s => contract v s = true) Sample.fork w ∧
      paused.session.state.live = true ∧ (paused.session.outbound.push [7]).1 = true ∧
      w.session.byeSent = true ∧ sentAudio w.port.wire = [] ∧
      w.session.outbound.bufferDroppedBytes = 0 :=
  ⟨(Run.of_exec (by decide +kernel)).trans (Run.of_exec (by decide +kernel)), by decide +kernel,
    by decide +kernel, by decide +kernel, by decide +kernel, by decide +kernel⟩

end Session
end AudioFork
