import AudioFork.Lib.Traces
import AudioFork.Net.Stack
import AudioFork.Session.Parting

/-!
# Completion — every stop is carried through

`Stop` posts a task and returns.  Whether the session dies depends on others: the shard has to run
what was posted and to tick, and lws has to end a connection that was given a timeout.  `Fair` is
what is asked of them, of a schedule that never ends; nothing is asked of the server, of the media
thread or of the order in which anything happens.

The session drains until the deadline at most, then calls `Close` on a connection.  `Close` always
leaves lws with a timeout for it (`WsRun.Timed`), so that a peer that neither reads nor answers does
not hold the session.
-/

namespace AudioFork
namespace Net

open Lib Session

variable {S : ℕ+}

/-! ## Timeouts -/

namespace WsRun

variable {closeDrainTimeoutMs : Nat} {r : WsRun UInt8}

/-- lws was given a timeout for the connection, or told to give it up. -/
def Pressed (closeDrainTimeoutMs : Nat) (r : WsRun UInt8) : Prop :=
  .setTimeoutUs (closeDrainTimeoutMs * WsConnection.lwsUsPerMs) ∈ r.log ∨ .killAsync ∈ r.log

structure Timed (closeDrainTimeoutMs : Nat) (r : WsRun UInt8) : Prop where
  wsi : r.conn.wsi = true
  timeout : r.conn.closeDrainTimeoutMs = closeDrainTimeoutMs
  pressed : r.conn.closeRequested = true → r.Pressed closeDrainTimeoutMs

theorem timed_create (maxQueuedBytes closeDrainTimeoutMs : Nat) :
    Timed closeDrainTimeoutMs (create maxQueuedBytes closeDrainTimeoutMs true) where
  wsi := rfl
  timeout := rfl
  pressed := nofun

/-- A call or callback that is no `Close`. -/
theorem Timed.after (h : r.Timed closeDrainTimeoutMs) {r' : WsRun UInt8}
    (hwsi : r'.conn.wsi = true)
    (htimeout : r'.conn.closeDrainTimeoutMs = r.conn.closeDrainTimeoutMs)
    (hrequested : r'.conn.closeRequested = r.conn.closeRequested)
    (hlog : ∃ effects, r'.log = r.log ++ effects) : r'.Timed closeDrainTimeoutMs where
  wsi := hwsi
  timeout := htimeout.trans h.timeout
  pressed := by
    intro hclose
    rcases hlog with ⟨effects, hlog⟩
    unfold Pressed
    rw [hlog]
    exact (h.pressed (hrequested ▸ hclose)).imp (List.mem_append_left _) (List.mem_append_left _)

theorem Timed.close (h : r.Timed closeDrainTimeoutMs) (lwsPre : Nat) :
    (r.step lwsPre .close).Timed closeDrainTimeoutMs := by
  show (r.after r.conn.close).Timed closeDrainTimeoutMs
  unfold WsConnection.close
  split
  · exact h.after h.wsi rfl rfl ⟨[], rfl⟩
  · refine ⟨h.wsi, h.timeout, fun _ => ?_⟩
    unfold Pressed
    -- an established connection is left to drain; any other is given up at once
    cases r.conn.established with
    | true => exact Or.inl (by simp [WsRun.after, h.wsi, h.timeout])
    | false => exact Or.inr (by simp [WsRun.after, h.wsi])

theorem Timed.step (h : r.Timed closeDrainTimeoutMs) (lwsPre : Nat) (s : WsStep UInt8) :
    (r.step lwsPre s).Timed closeDrainTimeoutMs := by
  have hfinish : ∀ failed, ∃ delivered,
      (r.conn.finish failed).1 = { r.conn with closedDelivered := delivered } := by
    intro failed
    unfold WsConnection.finish
    split
    · exact ⟨true, rfl⟩
    · exact ⟨r.conn.closedDelivered, rfl⟩
  cases s with
  | close => exact h.close lwsPre
  | sendText text =>
      rcases Socket.enqueue_writes lwsPre r.conn text false with ⟨_, _, hwrites⟩
      refine h.after ?_ ?_ ?_ ⟨_, rfl⟩ <;>
        simp only [WsRun.step, WsRun.offered, WsRun.after, WsConnection.sendText, hwrites]
      exact h.wsi
  | sendBinary bytes =>
      rcases Socket.enqueue_writes lwsPre r.conn bytes true with ⟨_, _, hwrites⟩
      refine h.after ?_ ?_ ?_ ⟨_, rfl⟩ <;>
        simp only [WsRun.step, WsRun.offered, WsRun.after, WsConnection.sendBinary, hwrites]
      exact h.wsi
  | setReceivePaused paused => exact h.after h.wsi rfl rfl ⟨_, rfl⟩
  | established => exact h.after rfl rfl rfl ⟨_, rfl⟩
  | writeable written =>
      rcases Socket.writeable_writes lwsPre r.conn written with ⟨_, _, hwrites⟩
      refine h.after ?_ ?_ ?_ ⟨_, rfl⟩ <;> simp only [WsRun.step, WsRun.after, hwrites]
      exact h.wsi
  | receive bytes first final binary =>
      refine h.after ?_ ?_ ?_ ⟨_, rfl⟩ <;>
        simp only [WsRun.step, WsRun.after, WsConnection.receive] <;> split
      all_goals first | exact h.wsi | rfl
  | connectionError =>
      rcases hfinish true with ⟨_, hwrites⟩
      refine h.after ?_ ?_ ?_ ⟨_, rfl⟩ <;> simp only [WsRun.step, WsRun.after, hwrites]
      exact h.wsi
  | closed =>
      rcases hfinish false with ⟨_, hwrites⟩
      refine h.after ?_ ?_ ?_ ⟨_, rfl⟩ <;> simp only [WsRun.step, WsRun.after, hwrites]
      exact h.wsi

end WsRun

namespace Socket

variable {lwsPre closeDrainTimeoutMs : Nat} {socket : Socket}

theorem timed_send (h : socket.run.Timed closeDrainTimeoutMs) (frame : Frame UInt8) :
    (socket.send lwsPre frame).2.run.Timed closeDrainTimeoutMs := by
  unfold send
  split
  · exact h.step lwsPre _
  · exact h

theorem timed_close (h : socket.run.Timed closeDrainTimeoutMs) :
    (socket.close lwsPre).run.Timed closeDrainTimeoutMs := by
  unfold close
  split
  · exact h.step lwsPre .close
  · exact h

theorem timed_obey (h : socket.run.Timed closeDrainTimeoutMs) (offers : List (Offer UInt8))
    (closes : Bool) : (socket.obey lwsPre offers closes).run.Timed closeDrainTimeoutMs := by
  have hsent : (offers.foldl (fun socket o => (socket.send lwsPre o.frame).2) socket).run.Timed
      closeDrainTimeoutMs := by
    induction offers generalizing socket with
    | nil => exact h
    | cons o offers ih =>
        exact ih (timed_send h o.frame)
  unfold obey
  simp only
  split
  · exact timed_close hsent
  · exact hsent

end Socket

namespace Stack

variable {lwsPre closeDrainTimeoutMs : Nat} {env : Env UInt8} {st : Stack S}

def Timely (closeDrainTimeoutMs : Nat) (st : Stack S) : Prop :=
  ∀ socket ∈ st.sockets, socket.run.Timed closeDrainTimeoutMs

theorem Timely.enter (h : st.Timely closeDrainTimeoutMs) (s : Session.Step UInt8) :
    (st.enter lwsPre closeDrainTimeoutMs env s).Timely closeDrainTimeoutMs := by
  intro socket hsocket
  simp only [Stack.enter] at hsocket
  rcases List.mem_mapIdx.mp hsocket with ⟨c, hc, rfl⟩
  refine Socket.timed_obey ?_ _ _
  rcases List.mem_append.mp (List.getElem_mem hc) with hold | hnew
  · exact h _ hold
  · rcases List.mem_map.mp hnew with ⟨k, -, hk⟩
    rw [← hk]
    exact WsRun.timed_create _ _

theorem Timely.step (h : st.Timely closeDrainTimeoutMs) (a : StackStep) :
    (st.step lwsPre closeDrainTimeoutMs env a).Timely closeDrainTimeoutMs := by
  cases a with
  | call s => exact h.enter s
  | lws c s =>
      simp only [Stack.step]
      cases hsocket : st.sockets[c]? with
      | none => exact h
      | some socket =>
          have hnoted : (st.note c (socket.handle lwsPre s).1).Timely closeDrainTimeoutMs := by
            intro other hother
            rcases List.mem_or_eq_of_mem_set hother with hold | hnew
            · exact h other hold
            · rw [hnew]
              exact (h socket (List.mem_of_getElem? hsocket)).step lwsPre s
          simp only
          split
          · exact hnoted
          · exact hnoted.enter _

theorem timely_of_run {w₀ : World UInt8 S}
    (hrun : Run (step lwsPre closeDrainTimeoutMs env)
      (fun st a => st.allowed lwsPre closeDrainTimeoutMs env a = true) ⟨w₀, []⟩ st) :
    st.Timely closeDrainTimeoutMs := by
  refine hrun.invariant (I := Timely closeDrainTimeoutMs) ?_ fun _ a h _ => h.step a
  intro socket hsocket
  cases hsocket

/-- An open connection of the session has a socket that lws has not finished. -/
theorem Ok.unfinished {w₀ : World UInt8 S} (h : Ok lwsPre env w₀ st) {c : Nat}
    (hopen : outstanding st.world.port.conns c = true) :
    ∃ socket, st.sockets[c]? = some socket ∧ socket.run.lws ≠ .finished ∧
      (hungUp st.world.port.conns c = true → socket.run.conn.closeRequested = true) := by
  rcases outstanding_iff.mp hopen with ⟨k, hk, hclosed⟩
  have hlt : c < st.sockets.length := by
    rw [h.coupled.length]
    exact (List.getElem?_eq_some_iff.mp hk).1
  have hsocket := List.getElem?_eq_getElem hlt
  have hcoupled := h.coupled.each c k _ hk hsocket
  refine ⟨_, hsocket, ?_, ?_⟩
  · intro hfinished
    have hgone := hcoupled.sound.closed
    rw [hcoupled.gone, hclosed, hfinished] at hgone
    cases hgone
  · intro hhung
    rcases hungUp_iff.mp hhung with ⟨k', hk', hcalled⟩
    cases hk.symm.trans hk'
    refine (hcoupled.called hcalled).resolve_right ?_
    rw [hclosed]
    nofun

/-! ## Schedules -/

/-- The stack of a new session after `n` steps of a schedule. -/
def onSchedule (lwsPre closeDrainTimeoutMs : Nat) (env : Env UInt8) (w₀ : World UInt8 S)
    (input : Nat → StackStep) : Nat → Stack S :=
  stateAt (step lwsPre closeDrainTimeoutMs env) ⟨w₀, []⟩ input

theorem onSchedule_succ (lwsPre closeDrainTimeoutMs : Nat) (env : Env UInt8) (w₀ : World UInt8 S)
    (input : Nat → StackStep) (n : Nat) :
    onSchedule lwsPre closeDrainTimeoutMs env w₀ input (n + 1) =
      (onSchedule lwsPre closeDrainTimeoutMs env w₀ input n).step lwsPre closeDrainTimeoutMs env
        (input n) :=
  rfl

/-- What the shard and lws owe a session, on a schedule without an end. -/
structure Fair (closeDrainTimeoutMs : Nat) (env : Env UInt8) (states : Nat → Stack S)
    (input : Nat → StackStep) : Prop where
  /-- A teardown that was posted is run. -/
  posted : ∀ t, .teardown ∈ (states t).world.port.posted → ∃ u i, t ≤ u ∧
    input u = .call (.runPosted i) ∧ (states u).world.port.posted[i]? = some .teardown
  /-- While the session drains it is pumped, and the clock goes on. -/
  ticks : ∀ t, (states t).world.session.state = .draining → ∃ u, t ≤ u ∧ input u = .call .pump ∧
    ∀ deadline, (states u).world.session.drainDeadline = some deadline →
      deadline ≤ env.now (states u).world.port.clockReads
  /-- A connection with a timeout comes to its end. -/
  timeouts : ∀ (t c : Nat) (socket : Socket), (states t).sockets[c]? = some socket →
    socket.run.Pressed closeDrainTimeoutMs → ∃ (u : Nat) (socket' : Socket), t ≤ u ∧
      (states u).sockets[c]? = some socket' ∧ socket'.run.lws = .finished

theorem closing_or_dead {state : SessionState} (hlive : state.live = false)
    (hdraining : state ≠ .draining) : state = .closing ∨ state = .dead := by
  cases state with
  | closing => exact Or.inl rfl
  | dead => exact Or.inr rfl
  | draining => exact absurd rfl hdraining
  | _ => cases hlive

theorem pump_ends_drain {w : World UInt8 S} {onFinished : Bool}
    (h : w.lifecycle.Reachable onFinished) (hdraining : w.session.state = .draining)
    (hexpired : ∀ deadline, w.session.drainDeadline = some deadline →
      deadline ≤ env.now w.port.clockReads) :
    (Session.step env w .pump).session.state ≠ .draining := by
  rcases h with hinit | hsound
  · have hstate : w.session.state = .connecting := congrArg Lifecycle.state hinit
    rw [hstate] at hdraining
    cases hdraining
  · rcases Option.isSome_iff_exists.mp (hsound.deadline hdraining) with ⟨deadline, hdeadline⟩
    exact World.pump_of_expired hdraining hdeadline (hexpired deadline hdeadline)

section

variable {params : ForkParams} {tuning : Tuning} {onFinished : Bool} {supply : Buffers.SlabSupply}
  {w₀ : World UInt8 S} (hcreate : World.create params tuning onFinished supply = some w₀)
  {input : Nat → StackStep}
  (hrun : Endless (step lwsPre closeDrainTimeoutMs env)
    (fun st a => st.allowed lwsPre closeDrainTimeoutMs env a = true) ⟨w₀, []⟩ input)

include hcreate hrun

/-- A property of the session that its steps keep under the contract holds from then on. -/
theorem from_then_on {I : World UInt8 S → Prop}
    (hkept : ∀ w s, I w → contract w s = true → I (Session.step env w s)) {t u : Nat} (htu : t ≤ u)
    (ht : I (onSchedule lwsPre closeDrainTimeoutMs env w₀ input t).world) :
    I (onSchedule lwsPre closeDrainTimeoutMs env w₀ input u).world := by
  refine (hrun.run_between htu).invariant_with (I := fun st => I st.world)
    (fun _ hlater => ok_of_run hcreate ((hrun.run t).trans hlater)) ht ?_
  intro st a hok hst hallowed
  rcases hok.world_step hcreate hallowed with hsame | ⟨s, hcontract, hstep⟩
  · rw [hsame]
    exact hst
  · rw [hstep]
    exact hkept _ s hst hcontract

theorem not_live_from_then_on {t u : Nat} (htu : t ≤ u)
    (ht : (onSchedule lwsPre closeDrainTimeoutMs env w₀ input t).world.session.state.live = false) :
    (onSchedule lwsPre closeDrainTimeoutMs env w₀ input u).world.session.state.live = false := by
  refine from_then_on hcreate hrun (I := fun w => w.session.state.live = false) ?_ htu ht
  intro w s hlive hcontract
  have hone : Run (Session.step env) (fun v s => contract v s = true) w (Session.step env w s) :=
    .tail s .refl hcontract
  exact dead_end hone hlive

variable (hfair : Fair closeDrainTimeoutMs env
  (onSchedule lwsPre closeDrainTimeoutMs env w₀ input) input)

include hfair

omit hcreate hrun in
theorem posted_leads_to_teardown :
    LeadsTo (onSchedule lwsPre closeDrainTimeoutMs env w₀ input)
      (fun st => .teardown ∈ st.world.port.posted)
      (fun st => st.world.session.state.live = false) := by
  intro t ht
  rcases hfair.posted t ht with ⟨u, i, htu, hinput, hposted⟩
  refine ⟨u + 1, Nat.le_succ_of_le htu, ?_⟩
  rw [onSchedule_succ, hinput]
  exact not_live_runPosted env hposted

/-- A drain ends with the tick that finds its deadline passed. -/
theorem teardown_leads_to_closing :
    LeadsTo (onSchedule lwsPre closeDrainTimeoutMs env w₀ input)
      (fun st => st.world.session.state.live = false)
      (fun st => st.world.session.state = .closing ∨ st.world.session.state = .dead) := by
  intro t hlive
  by_cases hdraining :
      (onSchedule lwsPre closeDrainTimeoutMs env w₀ input t).world.session.state = .draining
  · rcases hfair.ticks t hdraining with ⟨u, htu, hinput, hexpired⟩
    have hlive' := not_live_from_then_on hcreate hrun htu hlive
    by_cases hstill :
        (onSchedule lwsPre closeDrainTimeoutMs env w₀ input u).world.session.state = .draining
    · refine ⟨u + 1, Nat.le_succ_of_le htu, ?_⟩
      have hover : (onSchedule lwsPre closeDrainTimeoutMs env w₀ input
          (u + 1)).world.session.state ≠ .draining := by
        rw [onSchedule_succ, hinput]
        exact pump_ends_drain (reachable_of_run hcreate (ok_of_run hcreate (hrun.run u)).run) hstill
          hexpired
      exact closing_or_dead (not_live_from_then_on hcreate hrun (Nat.le_succ u) hlive') hover
    · exact ⟨u, htu, closing_or_dead hlive' hstill⟩
  · exact ⟨t, Nat.le_refl t, closing_or_dead hlive hdraining⟩

theorem closing_leads_to_dead :
    LeadsTo (onSchedule lwsPre closeDrainTimeoutMs env w₀ input)
      (fun st => st.world.session.state = .closing) (fun st => st.world.session.state = .dead) := by
  intro t hclosing
  have hok := ok_of_run hcreate (hrun.run t)
  rcases (parting_of_run hcreate hok.run).closing hclosing with ⟨c, hopen, hhung⟩
  rcases hok.unfinished hopen with ⟨socket, hsocket, -, hrequested⟩
  have htimed := timely_of_run (hrun.run t) socket (List.mem_of_getElem? hsocket)
  rcases hfair.timeouts t c socket hsocket (htimed.pressed (hrequested hhung)) with
    ⟨u, socket', htu, hsocket', hfinished⟩
  refine ⟨u, htu, ?_⟩
  -- the socket cannot have ended without the session
  have hwaits := from_then_on hcreate hrun
    (I := fun w => w.session.state = .dead ∨
      w.session.state = .closing ∧ outstanding w.port.conns c = true)
    (by
      rintro w s (hdead | ⟨hstate, hopen⟩) -
      · exact Or.inl (dead_step hdead s)
      · exact Session.closing_step hstate hopen s)
    htu (Or.inr ⟨hclosing, hopen⟩)
  refine hwaits.resolve_right ?_
  rintro ⟨-, hopen'⟩
  rcases (ok_of_run hcreate (hrun.run u)).unfinished hopen' with ⟨socket'', hsocket'', hgoes, -⟩
  cases hsocket'.symm.trans hsocket''
  exact hgoes hfinished

end

/-- After `Stop` the session is dead in the end, for good, and its callback has run once. -/
theorem every_stop_completes {params : ForkParams} {tuning : Tuning} {onFinished : Bool}
    {supply : Buffers.SlabSupply} {w₀ : World UInt8 S} {input : Nat → StackStep}
    (hcreate : World.create params tuning onFinished supply = some w₀)
    (hrun : Endless (step lwsPre closeDrainTimeoutMs env)
      (fun st a => st.allowed lwsPre closeDrainTimeoutMs env a = true) ⟨w₀, []⟩ input)
    (hfair : Fair closeDrainTimeoutMs env
      (onSchedule lwsPre closeDrainTimeoutMs env w₀ input) input)
    {t : Nat} (hstop : input t = .call .stop) :
    ∃ u, t < u ∧ ∀ v, u ≤ v →
      (onSchedule lwsPre closeDrainTimeoutMs env w₀ input v).world.session.state = .dead ∧
        (onSchedule lwsPre closeDrainTimeoutMs env w₀ input v).world.finishedRuns =
          if onFinished then 1 else 0 := by
  have hposted : .teardown ∈
      (onSchedule lwsPre closeDrainTimeoutMs env w₀ input (t + 1)).world.port.posted := by
    rw [onSchedule_succ, hstop]
    exact List.mem_append_right _ (List.mem_singleton.mpr rfl)
  have hleads := ((posted_leads_to_teardown hfair).trans
    (teardown_leads_to_closing hcreate hrun hfair)).trans
      (closing_leads_to_dead hcreate hrun hfair).of_or
  rcases hleads (t + 1) hposted with ⟨u, htu, hdead⟩
  refine ⟨u, htu, fun v huv => ?_⟩
  have hdead' := from_then_on hcreate hrun (I := fun w => w.session.state = .dead)
    (fun w s hw _ => dead_step hw s) huv hdead
  rcases reachable_of_run hcreate (ok_of_run hcreate (hrun.run v)).run with hinit | hsound
  · have hstate := (congrArg Lifecycle.state hinit).symm.trans hdead'
    cases hstate
  · exact ⟨hdead', (hsound.retired hdead').2⟩

end Stack

/-! ## A schedule that is fair -/

namespace Sample

/-- The fork is stopped and parts; from then on nothing happens to it. -/
def schedule : Nat → StackStep := thenAlways farewell (.call (.setPaused false))

def scheduled : Nat → Stack Session.Sample.slabBytes :=
  Stack.onSchedule 4 5000 Session.Sample.env roomyFork schedule

theorem step_setPaused {lwsPre closeDrainTimeoutMs : Nat} {env : Env UInt8} {st : Stack S}
    {paused : Bool} (h : st.world.session.outbound.paused = paused) :
    st.step lwsPre closeDrainTimeoutMs env (.call (.setPaused paused)) = st := by
  have hself : Session.step env st.world (.setPaused paused) = st.world := by
    rw [← h]
    rfl
  have hsockets : (st.sockets.mapIdx fun _ socket => socket) = st.sockets :=
    List.ext_getElem (by simp) (by simp)
  simp only [Stack.step, Stack.enter, hself]
  simp [Stack.dial, Stack.offersTo, Stack.closes, Socket.obey, hsockets]

theorem parted_stays :
    Stack.step 4 5000 Session.Sample.env parted (.call (.setPaused false)) = parted :=
  step_setPaused (by decide +kernel)

theorem endless_schedule :
    Endless (Stack.step 4 5000 Session.Sample.env)
      (fun st a => st.allowed 4 5000 Session.Sample.env a = true) ⟨roomyFork, []⟩ schedule :=
  .of_enabled (by decide +kernel) (by decide +kernel) parted_stays

theorem scheduled_rest {t : Nat} (ht : 10 ≤ t) : scheduled t = parted :=
  stateAt_thenAlways parted_stays ht

theorem fair_schedule : Stack.Fair 5000 Session.Sample.env scheduled schedule where
  posted := by
    intro t ht
    by_cases hend : 10 ≤ t
    · rw [scheduled_rest hend] at ht
      exact absurd ht (by decide +kernel)
    · have honly : ∀ t < 10, .teardown ∈ (scheduled t).world.port.posted → t = 7 := by
        decide +kernel
      rw [honly t (Nat.lt_of_not_le hend) ht]
      exact ⟨7, 0, Nat.le_refl 7, rfl, by decide +kernel⟩
  ticks := by
    intro t ht
    by_cases hend : 10 ≤ t
    · rw [scheduled_rest hend] at ht
      exact absurd ht (by decide +kernel)
    · have hnever : ∀ t < 10, (scheduled t).world.session.state ≠ .draining := by decide +kernel
      exact absurd ht (hnever t (Nat.lt_of_not_le hend))
  timeouts := by
    intro t c socket hsocket _
    have hone : (scheduled t).sockets.length ≤ 1 := by
      by_cases hend : 10 ≤ t
      · rw [scheduled_rest hend]
        decide +kernel
      · have hfirst : ∀ t < 10, (scheduled t).sockets.length ≤ 1 := by decide +kernel
        exact hfirst t (Nat.lt_of_not_le hend)
    have hc : c = 0 := by
      have hlt := (List.getElem?_eq_some_iff.mp hsocket).1
      omega
    have hrest : parted.sockets[0]?.any fun socket => socket.run.lws = .finished := by
      decide +kernel
    rcases (Option.any_eq_true _ _).mp hrest with ⟨socket', hsocket', hfinished⟩
    refine ⟨t + 10, socket', Nat.le_add_right t 10, ?_, of_decide_eq_true hfinished⟩
    rw [scheduled_rest (Nat.le_add_left 10 t), hc]
    exact hsocket'

end Sample

theorem Stack.every_stop_completes_sample :
    ∃ u, 6 < u ∧ ∀ v, u ≤ v → (Sample.scheduled v).world.session.state = .dead ∧
      (Sample.scheduled v).world.finishedRuns = 1 :=
  every_stop_completes Sample.create_roomyFork Sample.endless_schedule Sample.fair_schedule
    (t := 6) rfl

end Net
end AudioFork
