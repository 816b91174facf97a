import AudioFork.Session.Refinement

/-!
# Liveness — no session is wedged, and each is finalized once

In every state of a lifecycle something is still bound to happen: a pending timer, an outstanding
socket or a drain deadline.  `Sound` says so, together with the accounting of the stop event and
the finish callback.  `Base` is the part of it that holds in the middle of a step too.
-/

namespace AudioFork
namespace Session

open Lib Buffers

variable {β : Type} {S : ℕ+}

namespace Lifecycle

variable {callback : Bool} {l : Lifecycle}

/-- The current connection is outstanding, and finalization is counted right. -/
structure Base (callback : Bool) (l : Lifecycle) : Prop where
  started : l.started = true
  current : ∀ c, l.connection = some c → outstanding l.conns c = true
  pending : l.state ≠ .dead → l.stops = 0 ∧ l.finishedRuns = 0 ∧ l.onFinished = callback
  retired : l.state = .dead → l.stops = 1 ∧ l.finishedRuns = if callback then 1 else 0

/-- A retry timer runs in `reconnecting` and in no other state before `dead`. -/
structure Timed (l : Lifecycle) : Prop where
  retrying : l.state = .reconnecting → l.timers = 1
  idle : l.state ≠ .reconnecting → l.state ≠ .dead → l.timers = 0

/-- `Base`, the timers, and what will move the lifecycle out of its state. -/
structure Sound (callback : Bool) (l : Lifecycle) : Prop extends Base callback l, Timed l where
  socket : l.state = .connecting ∨ l.state = .active ∨ l.state = .closing →
    ∃ c, outstanding l.conns c = true
  deadline : l.state = .draining → l.drainDeadline.isSome = true

/-! ## Outcomes -/

theorem Base.retire (h : Base callback l) (hdead : l.state ≠ .dead) : Sound callback l.retire where
  started := h.started
  current := by
    intro c hc
    cases hc
  pending := fun hpending => absurd rfl hpending
  retired := by
    rcases h.pending hdead with ⟨hstops, hfinished, hinstalled⟩
    intro _
    simp [Lifecycle.retire, hstops, hfinished, hinstalled]
  retrying := by
    intro hstate
    cases hstate
  idle := fun _ hpending => absurd rfl hpending
  socket := by
    rintro (hstate | hstate | hstate) <;> cases hstate
  deadline := by
    intro hstate
    cases hstate

theorem Base.retry (h : Base callback l) (hdead : l.state ≠ .dead) (htimers : l.timers = 0) :
    Sound callback l.retry where
  started := h.started
  current := h.current
  pending := fun _ => h.pending hdead
  retired := by
    intro hstate
    cases hstate
  retrying := fun _ => congrArg (· + 1) htimers
  idle := fun hstate => absurd rfl hstate
  socket := by
    rintro (hstate | hstate | hstate) <;> cases hstate
  deadline := by
    intro hstate
    cases hstate

theorem Base.hangUp (h : Base callback l) (hdead : l.state ≠ .dead) (htimers : l.timers = 0) :
    Sound callback l.hangUp := by
  unfold Lifecycle.hangUp
  cases hconn : l.connection with
  | none => exact h.retire hdead
  | some c =>
      -- a socket that was told to close stays outstanding until it reports
      have hcurrent : ∀ a, l.connection = some a → outstanding (l.close c).conns a = true := by
        intro a ha
        simpa [close] using h.current a ha
      exact
        { started := h.started
          current := hcurrent
          pending := fun _ => h.pending hdead
          retired := by
            intro hstate
            cases hstate
          retrying := by
            intro hstate
            cases hstate
          idle := fun _ _ => htimers
          socket := fun _ => ⟨c, hcurrent c hconn⟩
          deadline := by
            intro hstate
            cases hstate }

/-- A state in which nothing has to be pending for the lifecycle to go on. -/
theorem Base.settled (h : Base callback l) (htimed : Timed l)
    (hstate : l.state = .reconnecting ∨ l.state = .dead) : Sound callback l where
  toBase := h
  toTimed := htimed
  socket := by
    rcases hstate with hstate | hstate <;> simp [hstate]
  deadline := by
    rcases hstate with hstate | hstate <;> simp [hstate]

theorem Base.lose (h : Base callback l) (htimed : Timed l) : Sound callback l.lose := by
  unfold Lifecycle.lose
  cases hstate : l.state with
  | connecting => exact h.retry (by simp [hstate]) (htimed.idle (by simp [hstate]) (by simp [hstate]))
  | active => exact h.retry (by simp [hstate]) (htimed.idle (by simp [hstate]) (by simp [hstate]))
  | draining =>
      exact h.hangUp (by simp [hstate]) (htimed.idle (by simp [hstate]) (by simp [hstate]))
  | closing => exact h.retire (by simp [hstate])
  | reconnecting => exact h.settled htimed (Or.inl hstate)
  | dead => exact h.settled htimed (Or.inr hstate)

/-! ## Steps -/

theorem Sound.tick (h : Sound callback l) (drained : Bool) : Sound callback (l.tick drained) := by
  refine tick_keeps h (fun hstate => ?_) drained
  exact h.hangUp (by simp [hstate]) (h.idle (by simp [hstate]) (by simp [hstate]))

theorem Base.drain (h : Base callback l) (hdead : l.state ≠ .dead) (htimers : l.timers = 0)
    (deadline : Nat) (drained : Bool) : Sound callback (l.drain deadline drained) := by
  have hdraining : Sound callback { l with state := .draining, drainDeadline := some deadline } :=
    { started := h.started
      current := h.current
      pending := fun _ => h.pending hdead
      retired := by
        intro hstate
        cases hstate
      retrying := by
        intro hstate
        cases hstate
      idle := fun _ _ => htimers
      socket := by
        rintro (hstate | hstate | hstate) <;> cases hstate
      deadline := fun _ => rfl }
  unfold Lifecycle.drain
  simp only
  split
  · exact hdraining.retire (by simp)
  · exact hdraining.tick drained

theorem Sound.teardown (h : Sound callback l) (deadline : Nat) (drained : Bool) :
    Sound callback (l.teardown deadline drained) := by
  unfold Lifecycle.teardown
  split <;> rename_i hstate
  · exact h.hangUp (by simp [hstate]) (h.idle (by simp [hstate]) (by simp [hstate]))
  · exact h.drain (by simp [hstate]) (h.idle (by simp [hstate]) (by simp [hstate])) _ _
  · -- the pending timer outlives the session and finds it dead
    exact h.retire (by simp [hstate])
  all_goals exact h

theorem Sound.abandonSocket (h : Sound callback l) : Sound callback l.abandonSocket := by
  unfold Lifecycle.abandonSocket
  split
  · exact h
  · exact
      { h with
        current := by
          intro a ha
          cases ha
        socket := by
          intro hstate
          rcases h.socket hstate with ⟨a, ha⟩
          exact ⟨a, by simpa [close] using ha⟩ }

/-- `connect`, from `connecting` and whatever the connection was before. -/
theorem sound_connect (hstarted : l.started = true) (hstate : l.state = .connecting)
    (hpending : l.stops = 0 ∧ l.finishedRuns = 0 ∧ l.onFinished = callback) (htimers : l.timers = 0)
    (answer : ConnectAnswer) (endpoint : Endpoint) (maxQueuedBytes : Nat) :
    Sound callback (l.connect answer endpoint maxQueuedBytes) := by
  have hbase : Base callback { l with connection := none } :=
    { started := hstarted
      current := by
        intro a ha
        cases ha
      pending := fun _ => hpending
      retired := by simp [hstate] }
  have htimed : Timed l :=
    { retrying := by simp [hstate]
      idle := fun _ _ => htimers }
  have hlost : Sound callback (Lifecycle.lose { l with connection := none }) :=
    hbase.lose ⟨htimed.retrying, htimed.idle⟩
  unfold Lifecycle.connect
  cases answer with
  | null => exact hlost
  | closedThenNull connectFailed =>
      -- the socket was lost inside `Connect`, and null is one more loss
      refine Base.lose ?_ ⟨hlost.retrying, hlost.idle⟩
      exact
        { hlost.toBase with
          current := by
            intro a ha
            cases ha }
  | returned =>
      exact
        { started := hstarted
          current := by
            intro a ha
            cases ha
            simp
          pending := hbase.pending
          retired := hbase.retired
          retrying := htimed.retrying
          idle := htimed.idle
          socket := fun _ => ⟨l.conns.length, by simp⟩
          deadline := by simp [hstate] }

theorem Sound.closed (h : Sound callback l) (c : Nat) : Sound callback (l.closed c) := by
  unfold Lifecycle.closed
  refine Base.lose ?_ ⟨h.retrying, h.idle⟩
  exact
    { h.toBase with
      current := by
        intro a ha
        cases ha }

theorem Sound.connected (h : Sound callback l) (c : Nat) (handshake : Handshake) :
    Sound callback (l.connected c handshake) := by
  have hmarked : Sound callback
      { l with conns := l.conns.modify c fun k => { k with connected := true } } :=
    { h with
      current := by
        intro a ha
        simpa using h.current a ha
      socket := by
        intro hstate
        simpa using h.socket hstate }
  by_cases hstate : l.state = .connecting
  · rw [connected_connecting hstate]
    have hpending := h.pending (by simp [hstate])
    have htimers := h.idle (by simp [hstate]) (by simp [hstate])
    have hactive : Sound callback
        { l with
          conns := l.conns.modify c fun k => { k with connected := true }
          state := .active } :=
      { started := h.started
        current := hmarked.current
        pending := fun _ => hpending
        retired := by
          intro hdead
          cases hdead
        retrying := by
          intro hretry
          cases hretry
        idle := fun _ _ => htimers
        socket := fun _ => hmarked.socket (Or.inl hstate)
        deadline := by
          intro hdraining
          cases hdraining }
    cases handshake with
    | invalid deadline drained => exact hactive.drain (by simp) htimers deadline drained
    | lost => exact hactive.retry (by simp) htimers
    | done => exact hactive
  · rw [connected_late hstate]
    exact hmarked.abandonSocket

theorem Sound.retryTimer (h : Sound callback l) (htimer : 0 < l.timers) (answer : ConnectAnswer)
    (endpoint : Endpoint) (maxQueuedBytes : Nat) :
    Sound callback (l.step (.retryTimer answer endpoint maxQueuedBytes)) := by
  simp only [Lifecycle.step]
  split <;> rename_i hstate
  · -- the one timer is the one that fired
    have hnone : l.timers - 1 = 0 := by rw [h.retrying hstate]
    exact sound_connect (l := { l with timers := l.timers - 1, state := .connecting }) h.started rfl
      (h.pending (by simp [hstate])) hnone answer endpoint maxQueuedBytes
  · -- only a timer that outlived its session can fire outside `reconnecting`
    by_cases hdead : l.state = .dead
    · exact Base.settled { h.toBase with } ⟨fun hretry => absurd hretry hstate,
        fun _ hnot => absurd hdead hnot⟩ (Or.inr hdead)
    · have hzero := h.idle hstate hdead
      omega

theorem Sound.step (h : Sound callback l) {a : Label} (ha : l.allows a = true) :
    Sound callback (l.step a) := by
  cases a with
  | quiet => exact h
  | start answer endpoint maxQueuedBytes => simp [allows, h.started] at ha
  | retryTimer answer endpoint maxQueuedBytes =>
      have htimer : 0 < l.timers := by simpa [allows, h.started] using ha
      exact h.retryTimer htimer answer endpoint maxQueuedBytes
  | connected c handshake => exact h.connected c handshake
  | closed c => exact h.closed c
  | teardown deadline drained => exact h.teardown deadline drained
  | modify => exact modify_keeps h fun _ => h.abandonSocket
  | tick drained => exact h.tick drained

/-- Before `Start` nothing has happened; afterwards the lifecycle is sound. -/
def Reachable (callback : Bool) (l : Lifecycle) : Prop := l = initial callback ∨ Sound callback l

theorem Reachable.step (h : Reachable callback l) {a : Label} (ha : l.allows a = true) :
    Reachable callback (l.step a) := by
  rcases h with rfl | h
  · cases a with
    | quiet => exact Or.inl rfl
    | start answer endpoint maxQueuedBytes =>
        refine Or.inr ?_
        exact sound_connect (l := { initial callback with started := true }) rfl rfl ⟨rfl, rfl, rfl⟩
          rfl answer endpoint maxQueuedBytes
    -- before `Start` the shard and the port have nothing to deliver
    | retryTimer answer endpoint maxQueuedBytes => cases ha
    | connected c handshake => cases ha
    | closed c => cases ha
    | teardown deadline drained => cases ha
    | modify => cases ha
    | tick drained => cases ha
  · exact Or.inr (h.step ha)

/-! ## Teardown goes one way -/

theorem teardownRank_hangUp (hdead : l.state ≠ .dead) :
    l.state.teardownRank ≤ l.hangUp.state.teardownRank := by
  unfold hangUp
  split
  · show l.state.teardownRank ≤ 3
    cases l.state <;> decide
  · show l.state.teardownRank ≤ 2
    cases hstate : l.state <;> simp_all [SessionState.teardownRank]

theorem teardownRank_lose : l.state.teardownRank ≤ l.lose.state.teardownRank := by
  unfold lose
  split <;> rename_i hstate
  · rw [hstate]
    exact Nat.zero_le _
  · rw [hstate]
    exact Nat.zero_le _
  · exact teardownRank_hangUp (by simp [hstate])
  · rw [hstate]
    show SessionState.closing.teardownRank ≤ SessionState.dead.teardownRank
    decide
  · exact Nat.le_refl _
  · exact Nat.le_refl _

theorem teardownRank_abandonSocket :
    l.abandonSocket.state.teardownRank = l.state.teardownRank :=
  congrArg SessionState.teardownRank state_abandonSocket

theorem teardownRank_tick (drained : Bool) :
    l.state.teardownRank ≤ (l.tick drained).state.teardownRank := by
  unfold tick
  split
  · rename_i hstate
    split
    · exact teardownRank_hangUp (by simp [hstate])
    · exact Nat.le_refl _
  · exact Nat.le_refl _

theorem teardownRank_connect (answer : ConnectAnswer) (endpoint : Endpoint)
    (maxQueuedBytes : Nat) :
    l.state.teardownRank ≤ (l.connect answer endpoint maxQueuedBytes).state.teardownRank := by
  unfold connect
  cases answer with
  | returned => exact Nat.le_refl _
  | null => exact teardownRank_lose (l := { l with connection := none })
  | closedThenNull connectFailed =>
      refine (teardownRank_lose (l := { l with connection := none })).trans ?_
      exact teardownRank_lose (l := { lose { l with connection := none } with connection := none })

theorem teardownRank_step (a : Label) : l.state.teardownRank ≤ (l.step a).state.teardownRank := by
  cases a with
  | quiet => exact Nat.le_refl _
  | start answer endpoint maxQueuedBytes =>
      exact teardownRank_connect (l := { l with started := true }) answer endpoint maxQueuedBytes
  | retryTimer answer endpoint maxQueuedBytes =>
      simp only [step]
      split
      · rename_i hstate
        rw [hstate]
        exact Nat.zero_le _
      · exact Nat.le_refl _
  | connected c handshake =>
      by_cases hstate : l.state = .connecting
      · rw [hstate]
        exact Nat.zero_le _
      · simp only [step]
        rw [connected_late hstate, teardownRank_abandonSocket]
  | closed c =>
      exact teardownRank_lose
        (l := { l with
          conns := l.conns.modify c fun k => { k with closed := true }
          connection := none })
  | teardown deadline drained =>
      simp only [step, teardown]
      split <;> rename_i hstate
      · exact teardownRank_hangUp (by simp [hstate])
      · rw [hstate]
        exact Nat.zero_le _
      · rw [hstate]
        exact Nat.zero_le _
      all_goals exact Nat.le_refl _
  | modify =>
      simp only [step]
      split
      · exact Nat.le_of_eq teardownRank_abandonSocket.symm
      · exact Nat.le_refl _
  | tick drained => exact teardownRank_tick drained

end Lifecycle

theorem reachable_of_run {env : Env β} {params : ForkParams} {tuning : Tuning} {onFinished : Bool}
    {supply : SlabSupply} {w₀ w : World β S}
    (hcreate : World.create params tuning onFinished supply = some w₀)
    (hrun : Run (step env) (fun w s => contract w s = true) w₀ w) :
    w.lifecycle.Reachable onFinished := by
  have habstract : Run Lifecycle.step (fun l a => l.allows a = true) w₀.lifecycle w.lifecycle :=
    lifecycle_run (fun _ _ h => allows_of_contract h) hrun
  exact habstract.invariant (Or.inl (lifecycle_create hcreate)) fun _ _ hl ha => hl.step ha

/-- In a run of a session whose port and shard keep their promises, a started session is sound. -/
theorem sound_of_run {env : Env β} {params : ForkParams} {tuning : Tuning} {onFinished : Bool}
    {supply : SlabSupply} {w₀ w : World β S}
    (hcreate : World.create params tuning onFinished supply = some w₀)
    (hrun : Run (step env) (fun w s => contract w s = true) w₀ w) (hstarted : w.started = true) :
    w.lifecycle.Sound onFinished := by
  rcases reachable_of_run hcreate hrun with hinit | hsound
  · -- the initial lifecycle is not started
    have hfalse : w.lifecycle.started = false := by rw [hinit]; rfl
    rw [show w.lifecycle.started = w.started from rfl, hstarted] at hfalse
    cases hfalse
  · exact hsound

/-- Before `Start` the session is as it was created. -/
theorem connecting_of_reachable {onFinished : Bool} {w : World β S}
    (h : w.lifecycle.Reachable onFinished) (hstart : contract w .start = true) :
    w.session.state = .connecting ∧ w.session.connection = none := by
  rcases h with hinit | hsound
  · exact ⟨congrArg Lifecycle.state hinit, congrArg Lifecycle.connection hinit⟩
  · have hstarted : w.started = true := hsound.started
    simp [contract, hstarted] at hstart

theorem teardownRank_le_step (env : Env β) (w : World β S) (s : Step β) :
    w.session.state.teardownRank ≤ (step env w s).session.state.teardownRank := by
  rw [show (step env w s).session.state = (step env w s).lifecycle.state from rfl, lifecycle_step]
  exact Lifecycle.teardownRank_step (l := w.lifecycle) _

theorem dead_step {env : Env β} {w : World β S} (h : w.session.state = .dead) (s : Step β) :
    (step env w s).session.state = .dead := by
  have hrank := teardownRank_le_step env w s
  rw [h] at hrank
  cases hstate : (step env w s).session.state <;> simp_all [SessionState.teardownRank]

theorem sound_step {env : Env β} {callback : Bool} {w : World β S} {s : Step β}
    (h : w.lifecycle.Sound callback) (hcontract : contract w s = true) :
    (step env w s).lifecycle.Sound callback := by
  rw [lifecycle_step]
  exact h.step (allows_of_contract hcontract)

/-- Once teardown has begun no run leads back to a live state. -/
theorem dead_end {env : Env β} {guard : World β S → Step β → Prop} {w w' : World β S}
    (hrun : Run (step env) guard w w') (h : w.session.state.live = false) :
    w'.session.state.live = false := by
  have hrank : w.session.state.teardownRank ≤ w'.session.state.teardownRank := by
    refine hrun.invariant
      (I := fun v => w.session.state.teardownRank ≤ v.session.state.teardownRank)
      (Nat.le_refl _) ?_
    exact fun v s hv _ => hv.trans (teardownRank_le_step env v s)
  have hpos : w.session.state.teardownRank ≠ 0 := by
    intro hzero
    rw [(live_iff_teardownRank _).mpr hzero] at h
    cases h
  rw [Bool.eq_false_iff]
  intro hlive
  exact hpos (Nat.le_zero.mp (((live_iff_teardownRank _).mp hlive) ▸ hrank))

/-! ## Drains end -/

namespace World

variable {env : Env β} {w : World β S}

theorem clockReads_pumpPlayback : w.pumpPlayback.port.clockReads = w.port.clockReads := by
  rcases pumpPlayback_local w with ⟨_, _, _, _, hwrites⟩
  rw [hwrites]

theorem clockReads_flushToConnection :
    (w.flushToConnection env).port.clockReads = w.port.clockReads := by
  unfold flushToConnection
  split <;> rfl

/-- A pump that reads the clock at or after the deadline ends the drain. -/
theorem drainOver_of_expired {deadline : Nat} (h : w.session.drainDeadline = some deadline)
    (hnow : deadline ≤ env.now w.port.clockReads) : w.drainOver env = true := by
  have hkept : ((w.moveAudio env).flushToConnection env).session.drainDeadline = some deadline := by
    have hview : ((w.moveAudio env).flushToConnection env).lifecycle = w.lifecycle := by
      rw [lifecycle_flushToConnection, lifecycle_moveAudio]
    exact (congrArg Lifecycle.drainDeadline hview).trans h
  have hclock : ((w.moveAudio env).flushToConnection env).port.clockReads = w.port.clockReads := by
    rw [clockReads_flushToConnection]
    exact clockReads_pumpPlayback
  unfold drainOver drainTick drainExpired
  simp only [hkept, now, hclock]
  simp [hnow]

theorem pump_of_expired {deadline : Nat} (hstate : w.session.state = .draining)
    (h : w.session.drainDeadline = some deadline) (hnow : deadline ≤ env.now w.port.clockReads) :
    (w.pump env).session.state ≠ .draining := by
  have hview := lifecycle_pump env w
  rw [drainOver_of_expired h hnow] at hview
  have hstate' : (w.pump env).session.state = w.lifecycle.hangUp.state := by
    rw [show (w.pump env).session.state = (w.pump env).lifecycle.state from rfl, hview]
    unfold Lifecycle.tick
    rw [show w.lifecycle.state = .draining from hstate]
    rfl
  rw [hstate']
  unfold Lifecycle.hangUp
  split
  · exact SessionState.noConfusion
  · exact SessionState.noConfusion

end World

/-! ## The session is never wedged -/

/-- Something is always pending for a started session, teardown goes one way, and finalization
happens once. -/
structure Unwedged (env : Env β) (callback : Bool) (w : World β S) : Prop where
  current : ∀ c, w.session.connection = some c → outstanding w.port.conns c = true
  retrying : w.session.state = .reconnecting → w.port.timers = 1
  idle : w.session.state = .connecting ∨ w.session.state = .active ∨
    w.session.state = .draining ∨ w.session.state = .closing → w.port.timers = 0
  socket : w.session.state = .connecting ∨ w.session.state = .active ∨
    w.session.state = .closing → ∃ c, outstanding w.port.conns c = true
  drains : w.session.state = .draining → ∃ deadline, w.session.drainDeadline = some deadline ∧
    (deadline ≤ env.now w.port.clockReads → (step env w .pump).session.state ≠ .draining)
  oneWay : ∀ w', Run (step env) (fun v s => contract v s = true) w w' →
    w.session.state.live = false → w'.session.state.live = false
  stopped : stops w.events = if w.session.state = .dead then 1 else 0
  finished : w.finishedRuns = if w.session.state = .dead ∧ callback = true then 1 else 0

theorem never_wedged {env : Env β} {params : ForkParams} {tuning : Tuning} {onFinished : Bool}
    {supply : SlabSupply} {w₀ w : World β S}
    (hcreate : World.create params tuning onFinished supply = some w₀)
    (hrun : Run (step env) (fun v s => contract v s = true) w₀ w) (hstarted : w.started = true) :
    Unwedged env onFinished w := by
  have hsound := sound_of_run hcreate hrun hstarted
  exact
    { current := hsound.current
      retrying := hsound.retrying
      idle := by
        intro hstate
        refine hsound.idle ?_ ?_
        · rcases hstate with h | h | h | h <;> simp [World.lifecycle, h]
        · rcases hstate with h | h | h | h <;> simp [World.lifecycle, h]
      -- a close reported by any of these sockets moves the session on
      socket := hsound.socket
      drains := by
        intro hstate
        rcases Option.isSome_iff_exists.mp (hsound.deadline hstate) with ⟨deadline, hdeadline⟩
        exact ⟨deadline, hdeadline, World.pump_of_expired hstate hdeadline⟩
      oneWay := fun _ hrun' => dead_end hrun'
      stopped := by
        by_cases hdead : w.session.state = .dead
        · rw [if_pos hdead]
          exact (hsound.retired hdead).1
        · rw [if_neg hdead]
          exact (hsound.pending hdead).1
      finished := by
        show w.lifecycle.finishedRuns = _
        by_cases hdead : w.session.state = .dead
        · simpa [hdead] using (hsound.retired hdead).2
        · simpa [hdead] using (hsound.pending hdead).2.1 }

theorem never_wedged_sample :
    Unwedged Sample.env true
      (exec (step Sample.env) Sample.fork [.start, .onConnected 0, .stop, .runPosted 0]) :=
  never_wedged Sample.create_fork (Run.of_exec (by decide)) (by decide)

end Session
end AudioFork
