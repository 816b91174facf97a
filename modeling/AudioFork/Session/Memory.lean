import Mathlib.Algebra.Order.BigOperators.Group.List
import AudioFork.Buffers.Holding
import AudioFork.Lib.Holdings
import AudioFork.Session.DrySpell
import AudioFork.Session.Leases
import AudioFork.Session.Setup

/-!
# Memory — the slabs of the forks of one process

A step of a session touches its buffers only through the operations of `Handling`
(`handled_step`).  So a fork holds no more slabs than its caps take, whatever the rest of the process
does with the pool (`fork_memory_bounded`).

`Shelf` puts any number of forks on one event thread with one pool.  A slab is in the pool or with a
fork that is alive (`slabs_come_home`), and a pool that is large enough for the forks that are alive at
a time never cuts a cap (`ample_pool_feeds_all`).
-/

namespace AudioFork
namespace Session

open Buffers Protocol Lib

variable {β : Type} {S : ℕ+}

/-! ## One fork -/

def World.holding (w : World β S) : Holding β S :=
  { buffer := w.session.outbound.buffer
    jitter := w.session.playback.path.map PlaybackPath.jitter
    supply := w.supply
    degraded := w.session.outbound.degraded
    poolStarved := w.session.outbound.poolStarved }

/-- Finitely many operations. -/
def Handlings (others : Nat → Nat → Nat) (tuning : Tuning) : Holding β S → Holding β S → Prop :=
  Relation.ReflTransGen (Handling others tuning.sendCapBytes tuning.emergencyCapBytes)

namespace Handlings

variable {others : Nat → Nat → Nat} {tuning : Tuning} {h h' h'' : Holding β S}

theorem none (h : Holding β S) : Handlings others tuning h h := Relation.ReflTransGen.refl

theorem same (heq : h' = h) : Handlings others tuning h h' := heq ▸ none h'

theorem one (hstep : Handling others tuning.sendCapBytes tuning.emergencyCapBytes h h') :
    Handlings others tuning h h' :=
  Relation.ReflTransGen.single hstep

theorem trans (hfirst : Handlings others tuning h h') (hrest : Handlings others tuning h' h'') :
    Handlings others tuning h h'' :=
  Relation.ReflTransGen.trans hfirst hrest

theorem andThen (hfirst : Handlings others tuning h h')
    (hlast : Handling others tuning.sendCapBytes tuning.emergencyCapBytes h' h'') :
    Handlings others tuning h h'' :=
  Relation.ReflTransGen.tail hfirst hlast

theorem preserves {I : Holding β S → Prop} (hsteps : Handlings others tuning h h')
    (hstep : ∀ a b, Handling others tuning.sendCapBytes tuning.emergencyCapBytes a b → I a → I b)
    (hstart : I h) : I h' := by
  induction hsteps with
  | refl => exact hstart
  | tail _ hlast ih => exact hstep _ _ hlast ih

end Handlings

/-! ### The loops -/

namespace Drain

variable {others : Nat → Nat → Nat} {params : ForkParams} {tuning : Tuning}

/-- What the drain loop works on, beside a jitter buffer that it does not see. -/
def holding (jitter : Option (JitterBuffer β S)) (d : Drain β S) : Holding β S :=
  { buffer := d.outbound.buffer
    jitter := jitter
    supply := d.supply
    degraded := d.outbound.degraded
    poolStarved := d.outbound.poolStarved }

/-- The bookkeeping after a store touches no slab. -/
theorem holding_chunk (jitter : Option (JitterBuffer β S)) (d : Drain β S) (bytes : List β) :
    (d.chunk others params tuning bytes).holding jitter =
      (d.store others params tuning bytes).2.holding jitter := by
  unfold chunk
  simp only
  split
  · unfold emitOverrunIfNewEpisode
    split <;> rfl
  · rfl

theorem handled_store (jitter : Option (JitterBuffer β S)) (d : Drain β S) (bytes : List β) :
    Handlings others tuning (d.holding jitter)
      ((d.store others params tuning bytes).2.holding jitter) := by
  have happend : Handlings others tuning (d.holding jitter) _ := .one (.append bytes)
  unfold store
  simp only
  split
  · rename_i hexhausted
    unfold degradeIfNewEpisode
    split
    · exact happend
    · exact happend.andThen (.cut hexhausted)
  · exact happend

theorem handled_loop (jitter : Option (JitterBuffer β S)) (fuel : Nat) (d : Drain β S) :
    Handlings others tuning (d.holding jitter)
      ((loop others params tuning fuel d).holding jitter) := by
  refine loop_invariant
    (P := fun d' => Handlings others tuning (d.holding jitter) (d'.holding jitter)) ?_ fuel (.none _)
  intro d' hsteps _
  unfold round
  rw [holding_chunk]
  exact hsteps.trans
    (handled_store jitter { d' with outbound.ring := (d'.outbound.ring.pop drainChunkBytes).2 }
      (d'.outbound.ring.pop drainChunkBytes).1)

end Drain

namespace Flush

/-- The same of the flush loop. -/
def holding (jitter : Option (JitterBuffer β S)) (f : Flush β S) : Holding β S :=
  { buffer := f.outbound.buffer
    jitter := jitter
    supply := f.supply
    degraded := f.outbound.degraded
    poolStarved := f.outbound.poolStarved }

theorem handled_loop {others : Nat → Nat → Nat} {tuning : Tuning}
    (jitter : Option (JitterBuffer β S)) (accepts : Nat → Frame β → Bool)
    (c coalesce fuel sent : Nat) (f : Flush β S) :
    Handlings others tuning (f.holding jitter)
      ((loop accepts c coalesce fuel sent f).holding jitter) :=
  loop_keeps (P := fun g => Handlings others tuning (f.holding jitter) (g.holding jitter))
    (fun hsteps _ => hsteps) (fun hsteps _ => hsteps.andThen (.consume _)) (fun hsteps => hsteps)
    fuel sent (.none _)

end Flush

namespace World

section

variable {env : Env β} {v w : World β S}

/-- The same of the handover loop of `PumpPlayback`. -/
def handing (w : World β S) (path : PlaybackPath β S) (supply : SlabSupply) : Holding β S :=
  { w.holding with jitter := some path.jitter, supply := supply }

theorem handled_transfer {others : Nat → Nat → Nat} {tuning : Tuning} (w : World β S)
    (handoffBytes fuel : Nat) (path : PlaybackPath β S) (p : SlabSupply) :
    Handlings others tuning (w.handing path p)
      (w.handing (path.transfer handoffBytes fuel p).1 (path.transfer handoffBytes fuel p).2) := by
  refine PlaybackPath.transfer_invariant
    (P := fun path' p' => Handlings others tuning (w.handing path p) (w.handing path' p')) ?_ fuel
    (.none _)
  intro path' path'' p' p'' hsteps hround
  have hplay : Handlings others tuning (w.handing path' p') (w.handing path'' p'') := by
    unfold PlaybackPath.transferOnce at hround
    simp only at hround
    split at hround
    · cases hround
    · split at hround
      · cases hround
      · cases hround
        exact .one (.play rfl _)
  exact hsteps.trans hplay

/-! ### The chores -/

theorem handled_drainHandoffRing (env : Env β) (w : World β S) :
    Handlings env.others w.session.tuning w.holding (w.drainHandoffRing env).holding :=
  Drain.handled_loop (w.session.playback.path.map PlaybackPath.jitter) w.session.outbound.ring.size
    { outbound := w.session.outbound, supply := w.supply, events := w.events }

theorem handled_flushToConnection (env : Env β) (w : World β S) :
    Handlings env.others w.session.tuning w.holding (w.flushToConnection env).holding := by
  unfold flushToConnection
  split
  · exact .none _
  · rename_i c _
    exact Flush.handled_loop (w.session.playback.path.map PlaybackPath.jitter)
      (env.accepts w.port.conns c) c w.session.tuning.coalesceMaxBytes
      (w.session.outbound.buffer.size + 1) 0
      { outbound := w.session.outbound, supply := w.supply, wire := w.port.wire }

theorem handled_restoreCapIfDrained (env : Env β) (w : World β S) :
    Handlings env.others w.session.tuning w.holding w.restoreCapIfDrained.holding := by
  unfold restoreCapIfDrained
  rcases w.session.outbound.restoreCapIfDrained_cases w.session.tuning w.supply with
    hkept | ⟨-, -, hrestored⟩
  · rw [hkept]
    exact .none _
  · rw [hrestored]
    exact .one .restore

theorem handled_receive (env : Env β) {path : PlaybackPath β S} (bytes : List β)
    (hpath : w.session.playback.path = some path) :
    Handlings env.others w.session.tuning w.holding (w.receive env path bytes).holding := by
  have hjitter : w.holding.jitter = some path.jitter := congrArg (Option.map _) hpath
  rcases receive_writes env w path bytes with ⟨_, _, _, -, hwrites⟩
  rw [hwrites]
  exact .one (.receive hjitter bytes)

theorem handled_pumpPlayback (env : Env β) (w : World β S) :
    Handlings env.others w.session.tuning w.holding w.pumpPlayback.holding := by
  cases hpath : w.session.playback.path with
  | none =>
      rw [pumpPlayback_none hpath]
      exact .none _
  | some path =>
      rcases pumpPlayback_writes hpath with ⟨_, _, _, _, hwrites⟩
      have hstart : w.handing path w.supply = w.holding := by
        unfold handing holding
        rw [hpath]
        rfl
      rw [hwrites, ← hstart]
      exact (handled_transfer w _ _ path w.supply).andThen (.mark rfl rfl rfl)

/-- The media thread takes from the ring. -/
theorem holding_readPlayback (w : World β S) (count : Nat) :
    (w.readPlayback count).holding = w.holding := by
  have hjitter : (w.session.playback.read count).2.path.map PlaybackPath.jitter =
      w.session.playback.path.map PlaybackPath.jitter := by
    rcases w.session.playback.read_path count with ⟨hnone, hread⟩ | ⟨path, ring, hpath, hread⟩
    · rw [hnone, hread]
    · rw [hpath, hread]
      rfl
  unfold readPlayback holding
  rw [← hjitter]

theorem handled_handleClear (env : Env β) {path : PlaybackPath β S}
    (hpath : w.session.playback.path = some path) :
    Handlings env.others w.session.tuning w.holding (w.handleClear path).holding := by
  have hjitter : w.holding.jitter = some path.jitter := congrArg (Option.map _) hpath
  rcases handleClear_writes w path with ⟨_, _, hwrites⟩
  rw [hwrites]
  exact .one (.silence hjitter)

theorem handled_handleMark (env : Env β) {path : PlaybackPath β S} (name : Text)
    (hpath : w.session.playback.path = some path) :
    Handlings env.others w.session.tuning w.holding (w.handleMark path name).holding := by
  have hjitter : w.holding.jitter = some path.jitter := congrArg (Option.map _) hpath
  have hcap : (path.jitter.addMark name).capBytes = path.jitter.capBytes := by
    unfold JitterBuffer.addMark
    split <;> rfl
  exact .one (.mark hjitter (path.jitter.queue_addMark name) hcap)

theorem holding_retire_none (hpath : w.session.playback.path = none) :
    w.retire.holding =
      { w.holding with
        buffer := (w.session.outbound.buffer.clear w.supply).1
        supply := (w.session.outbound.buffer.clear w.supply).2 } := by
  unfold retire finalize
  simp only [hpath]
  split <;> simp only [holding, emit, hpath]

theorem holding_retire_some {path : PlaybackPath β S} (hpath : w.session.playback.path = some path) :
    w.retire.holding =
      { w.holding with
        buffer := (w.session.outbound.buffer.clear w.supply).1
        jitter := some (path.jitter.clear (w.session.outbound.buffer.clear w.supply).2).1
        supply := (path.jitter.clear (w.session.outbound.buffer.clear w.supply).2).2 } := by
  unfold retire finalize
  simp only [hpath]
  split <;> split <;> rfl

/-- `Finalize` clears both buffers. -/
theorem handled_retire (env : Env β) (w : World β S) :
    Handlings env.others w.session.tuning w.holding w.retire.holding := by
  have hclear : Handlings env.others w.session.tuning w.holding _ := .one .clear
  cases hpath : w.session.playback.path with
  | none =>
      rw [holding_retire_none hpath]
      exact hclear
  | some path =>
      have hjitter : w.holding.jitter = some path.jitter := congrArg (Option.map _) hpath
      rw [holding_retire_some hpath]
      exact hclear.andThen (.silence hjitter)

theorem handled_hangUp (env : Env β) (w : World β S) :
    Handlings env.others w.session.tuning w.holding w.hangUp.holding :=
  hangUp_ends (P := fun v => Handlings env.others w.session.tuning w.holding v.holding)
    (handled_retire env w) fun _ => .none _

theorem handled_drainTurn (env : Env β) (w : World β S) :
    Handlings env.others w.session.tuning w.holding (w.drainTurn env).holding := by
  have htick : (w.drainTick env).2.holding = (w.flushToConnection env).holding := by
    rcases drainExpired_writes env (w.flushToConnection env) with ⟨_, hexpired⟩
    rcases sayBye_writes env ((w.flushToConnection env).drainExpired env).2
      (w.flushToConnection env).session.outbound.buffer.empty with ⟨_, _, -, hbye⟩
    unfold drainTick
    simp only
    rw [hbye, hexpired]
    rfl
  have htuning : (w.drainTick env).2.session.tuning = w.session.tuning := by
    rcases drainTick_writes env w with ⟨_, _, _, _, _, _, _, _, -, -, hwrites⟩
    rw [hwrites]
  refine drainTurn_ends
    (P := fun v => Handlings env.others w.session.tuning w.holding v.holding) ?_ ?_
  · rw [htick]
    exact handled_flushToConnection env w
  · intro hsteps
    have hlast := handled_hangUp env (w.drainTick env).2
    rw [htuning] at hlast
    exact hsteps.trans hlast

theorem handled_chore {pumps : World β S → Prop} (h : Chore env pumps w v) :
    Handlings env.others w.session.tuning w.holding v.holding := by
  cases h with
  | drainHandoffRing _ => exact handled_drainHandoffRing env w
  | flushToConnection _ => exact handled_flushToConnection env w
  | restoreCapIfDrained _ => exact handled_restoreCapIfDrained env w
  | receive bytes hpath => exact handled_receive env bytes hpath
  | pumpPlayback => exact handled_pumpPlayback env w
  | readPlayback count => exact .same (holding_readPlayback w count)
  | handleClear hpath => exact handled_handleClear env hpath
  | handleMark name hpath => exact handled_handleMark env name hpath
  | unsupported detail =>
      rcases unsupported_writes w detail with ⟨_, -, hwrites⟩
      rw [hwrites]
      exact .none _
  | noteRefused =>
      rcases noteRefused_writes w with ⟨_, -, hwrites⟩
      rw [hwrites]
      exact .none _
  | abandonSocket _ =>
      rcases abandonSocket_writes w with ⟨_, -, hwrites⟩
      rw [hwrites]
      exact .none _
  | hangUp _ => exact handled_hangUp env w
  | drainTurn _ _ => exact handled_drainTurn env w
  | retire _ => exact handled_retire env w
  | _ => exact .none _

theorem handled_chores {pumps : World β S → Prop} (h : Chores env pumps w v) :
    Handlings env.others w.session.tuning w.holding v.holding := by
  have hboth : v.setup = w.setup ∧
      Handlings env.others w.session.tuning w.holding v.holding := by
    refine h.preserves (I := fun u => u.setup = w.setup ∧
      Handlings env.others w.session.tuning w.holding u.holding) ?_ ⟨rfl, .none _⟩
    rintro a b hchore ⟨hsetup, hsteps⟩
    have hlast := handled_chore hchore
    rw [show a.session.tuning = w.session.tuning from congrArg Prod.fst hsetup] at hlast
    exact ⟨(setup_chore hchore).trans hsetup, hsteps.trans hlast⟩
  exact hboth.2

/-- No occasion touches a slab: what a push hands over waits in the ring. -/
theorem holding_perform (env : Env β) (w : World β S) (o : Occasion β) :
    (w.perform env o).holding = w.holding := by
  have h := attends_perform env w o
  unfold holding
  rw [h.buffer, h.playback, h.supply, h.degraded, h.poolStarved]

end

end World

/-- A step is a sequence of operations on the buffers. -/
theorem handled_step (env : Env β) (w : World β S) (s : Step β) :
    Handlings env.others w.session.tuning w.holding (step env w s).holding := by
  have hbefore := World.handled_chores (chores_preamble env w s)
  have hafter := World.handled_chores (chores_step env w s)
  have htuning : ((preamble w s).perform env (occasion env w s)).session.tuning =
      w.session.tuning :=
    congrArg Prod.fst ((World.attends_perform env _ _).setup.trans
      (World.setup_chores (chores_preamble env w s)))
  rw [World.holding_perform, htuning] at hafter
  exact hbefore.trans hafter

/-! ### Whole runs -/

namespace World

/-- Both buffers are within the caps of the session's own tuning. -/
def Fits (w : World β S) : Prop :=
  w.holding.Fits w.session.tuning.sendCapBytes w.session.tuning.emergencyCapBytes
    (w.session.tuning.playbackHighWatermarkBytes * 2)

theorem fits_step (env : Env β) {w : World β S} (s : Step β) (h : w.Fits) :
    (step env w s).Fits := by
  unfold Fits
  rw [tuning_step]
  exact (handled_step env w s).preserves (fun _ _ hstep hfits => hfits.handling hstep) h

theorem fits_create {params : ForkParams} {tuning : Tuning} {onFinished : Bool}
    {supply : SlabSupply} {w : World β S}
    (hcreate : World.create params tuning onFinished supply = some w) : w.Fits := by
  rcases World.create_eq hcreate with ⟨ring, path, rate, channels, -, -, hpath, rfl⟩
  refine ⟨SlabQueue.packed_empty, Nat.zero_le _, rfl, ?_⟩
  intro jitter hjitter
  rcases Option.map_eq_some_iff.mp hjitter with ⟨p, hp, rfl⟩
  rw [(hpath p hp).1]
  exact ⟨SlabQueue.packed_empty, Nat.zero_le _, rfl⟩

/-- The slabs a fork holds. -/
def leases (w : World β S) : Nat := w.sendLeases + w.playbackLeases

theorem leases_eq (w : World β S) : w.leases = w.holding.leases := by
  unfold leases playbackLeases Holding.leases holding
  cases w.session.playback.path with
  | none => rfl
  | some path => rfl

end World

/-- Whatever a fork goes through, and whatever the rest of the process does with the pool, its buffers
hold no more slabs than their caps take: the emergency cap while it is degraded, the send cap
otherwise. -/
theorem fork_memory_bounded {env : Env β} {params : ForkParams} {tuning : Tuning}
    {onFinished : Bool} {supply : SlabSupply} {w₀ w : World β S}
    (hcreate : World.create params tuning onFinished supply = some w₀)
    (hrun : Run (step env) (fun _ _ => True) w₀ w) :
    w.sendLeases ≤
        slabsFor S
          (if w.session.outbound.degraded then tuning.emergencyCapBytes else tuning.sendCapBytes) ∧
      w.playbackLeases ≤ slabsFor S (tuning.playbackHighWatermarkBytes * 2) := by
  have hfits : w.Fits := hrun.invariant (World.fits_create hcreate)
    fun v s hv _ => World.fits_step env s hv
  have htuning : w.session.tuning = tuning := by
    refine hrun.invariant (I := fun v => v.session.tuning = tuning) ?_ ?_
    · rcases World.create_eq hcreate with ⟨ring, path, rate, channels, -, -, -, rfl⟩
      rfl
    · exact fun v s hv _ => (tuning_step env v s).trans hv
  unfold World.Fits at hfits
  rw [htuning] at hfits
  refine ⟨hfits.send_le, ?_⟩
  have hplayback := hfits.playback_le
  unfold World.playbackLeases
  cases hpath : w.session.playback.path with
  | none => exact Nat.zero_le _
  | some path =>
      unfold World.holding at hplayback
      rw [hpath] at hplayback
      exact hplayback

/-- A fork with its server out of reach fills its send cap and then its share of the pool. -/
theorem fork_memory_bounded_sample :
    let w := exec (step Sample.env) Sample.fork
      [.start, .pushAudio (List.replicate 12 1), .pump, .pushAudio (List.replicate 12 2), .pump,
        .pushAudio (List.replicate 12 3), .pump]
    (w.session.outbound.degraded = true ∧ w.sendLeases = 4) ∧
      w.sendLeases ≤
          slabsFor Sample.slabBytes
            (if w.session.outbound.degraded then Sample.tuning.emergencyCapBytes
              else Sample.tuning.sendCapBytes) ∧
        w.playbackLeases ≤ slabsFor Sample.slabBytes (Sample.tuning.playbackHighWatermarkBytes * 2) :=
  ⟨by decide +kernel,
    fork_memory_bounded Sample.create_fork (Run.of_exec (by decide +kernel))⟩

/-! ### A fork that has all it may hold -/

/-- What a fork with its send cap may hold. -/
def slabsPerFork (S : ℕ+) (tuning : Tuning) : Nat :=
  slabsFor S tuning.sendCapBytes + slabsFor S (tuning.playbackHighWatermarkBytes * 2)

/-- Nothing was refused, and nothing need be. -/
structure Provided (tuning : Tuning) (h : Holding β S) : Prop where
  fits : h.Fits tuning.sendCapBytes tuning.emergencyCapBytes (tuning.playbackHighWatermarkBytes * 2)
  fed : h.Fed
  ample : slabsPerFork S tuning ≤ h.slabs

theorem Provided.handlings {tuning : Tuning} {h h' : Holding β S} (hh : Provided tuning h)
    (hsteps : Handlings SlabQueue.alone tuning h h') : Provided tuning h' := by
  refine hsteps.preserves (I := Provided tuning) ?_ hh
  intro a b hstep ha
  exact ⟨ha.fits.handling hstep, ha.fed.handling ha.fits ha.ample hstep,
    ha.ample.trans_eq hstep.slabs.symm⟩

/-- A fork that is provided for is not degraded, so no cap is there to be restored. -/
theorem provided_chores {env : Env β} (hothers : env.others = SlabQueue.alone)
    {pumps : World β S → Prop} {v w : World β S} (hchores : World.Chores env pumps w v)
    (h : Provided w.session.tuning w.holding) :
    Provided v.session.tuning v.holding ∧ degradations v.events = degradations w.events := by
  refine hchores.preserves (I := fun u => Provided u.session.tuning u.holding ∧
    degradations u.events = degradations w.events) ?_ ⟨h, rfl⟩
  rintro a b hchore ⟨ha, hcount⟩
  have hb : Provided b.session.tuning b.holding := by
    have hsteps := World.handled_chore hchore
    rw [hothers] at hsteps
    rw [show b.session.tuning = a.session.tuning from congrArg Prod.fst (World.setup_chore hchore)]
    exact ha.handlings hsteps
  -- a pump of a fork that is not degraded does not relapse
  have hkept : ∀ u, pumps u → a = u.flushed env → u.relapses env = false := by
    rintro u - rfl
    have hfed : (u.flushed env).session.outbound.degraded = false := ha.fed.1
    simp [World.relapses, hfed]
  refine ⟨hb, ?_⟩
  rcases (World.spell_chore hkept hchore).once with hsame | ⟨-, hcut⟩
  · exact hsame.trans hcount
  · -- the event comes with a cut cap, and the cap is not cut
    cases hb.fed.1.symm.trans hcut.degraded

theorem provided_step {env : Env β} (hothers : env.others = SlabQueue.alone) (w : World β S)
    (s : Step β) (h : Provided w.session.tuning w.holding) :
    Provided (step env w s).session.tuning (step env w s).holding ∧
      degradations (step env w s).events = degradations w.events := by
  rcases provided_chores hothers (chores_preamble env w s) h with ⟨hbefore, hquiet⟩
  have hoccasion : Provided ((preamble w s).perform env (occasion env w s)).session.tuning
      ((preamble w s).perform env (occasion env w s)).holding := by
    have htuning : ((preamble w s).perform env (occasion env w s)).session.tuning =
        (preamble w s).session.tuning := congrArg Prod.fst (World.attends_perform env _ _).setup
    rw [World.holding_perform, htuning]
    exact hbefore
  rcases provided_chores hothers (chores_step env w s) hoccasion with ⟨hafter, hquiet'⟩
  have hperform := congrArg Caps.degradations
    (World.caps_perform env (preamble w s) (occasion env w s))
  exact ⟨hafter, hquiet'.trans (hperform.trans hquiet)⟩

/-! ## Forks that share a pool -/

/-- The forks of one event thread and the pool they share.  The pool is lent to the fork that steps;
what the others keep in `supply` is out of date. -/
structure Shelf (β : Type) (S : ℕ+) where
  forks : List (World β S)
  pool : SlabSupply

/-- A fork is created, one takes a step, or one is destroyed. -/
inductive ShelfStep (β : Type)
  | launch (params : ForkParams) (tuning : Tuning) (onFinished : Bool)
  | act (i : Nat) (env : Env β) (s : Step β)
  | destroy (i : Nat)

namespace Shelf

/-- On one thread nobody comes in between. -/
def onThread (env : Env β) : Env β := { env with others := SlabQueue.alone }

def step (shelf : Shelf β S) : ShelfStep β → Shelf β S
  | .launch params tuning onFinished =>
      match World.create params tuning onFinished shelf.pool with
      | none => shelf
      | some w => { shelf with forks := shelf.forks ++ [w] }
  | .act i env s =>
      match shelf.forks[i]? with
      | none => shelf
      | some w =>
          let after := Session.step (onThread env) { w with supply := shelf.pool } s
          { forks := shelf.forks.set i after
            pool := after.supply }
  | .destroy i =>
      match shelf.forks[i]? with
      | none => shelf
      | some w =>
          -- the destructors of both buffers give their leases back
          { forks := shelf.forks.eraseIdx i
            pool := shelf.pool.release w.leases }

/-- The slabs there are. -/
def slabs (shelf : Shelf β S) : Nat := (shelf.forks.map World.leases).sum + shelf.pool.available

/-! ### Steps of one fork -/

section

variable {shelf : Shelf β S} {w : World β S}

theorem slabs_act (env : Env β) (s : Step β) (pool : SlabSupply) :
    (Session.step (onThread env) { w with supply := pool } s).leases +
        (Session.step (onThread env) { w with supply := pool } s).supply.available =
      w.leases + pool.available := by
  let lent : World β S := { w with supply := pool }
  have hsame : (Session.step (onThread env) lent s).holding.slabs = lent.holding.slabs :=
    (handled_step (onThread env) lent s).preserves
      (I := fun h => h.slabs = lent.holding.slabs)
      (fun _ _ hstep hslabs => hstep.slabs.trans hslabs) rfl
  unfold Holding.slabs at hsame
  rw [← World.leases_eq, ← World.leases_eq] at hsame
  exact hsame

theorem leases_create {params : ForkParams} {tuning : Tuning} {onFinished : Bool}
    {supply : SlabSupply} (hcreate : World.create params tuning onFinished supply = some w) :
    w.leases = 0 := by
  rcases World.create_eq hcreate with ⟨ring, path, rate, channels, -, -, hpath, rfl⟩
  cases path with
  | none => rfl
  | some p =>
      show 0 + p.jitter.queue.chunks.length = 0
      rw [(hpath p rfl).1]
      rfl

/-- No slab is lost or made. -/
theorem slabs_step (shelf : Shelf β S) (a : ShelfStep β) : (shelf.step a).slabs = shelf.slabs := by
  cases a with
  | launch params tuning onFinished =>
      simp only [step]
      split
      · rfl
      · rename_i w hcreate
        simp [slabs, leases_create hcreate]
  | act i env s =>
      simp only [step]
      split
      · rfl
      · rename_i w hw
        have hone := slabs_act (w := w) env s shelf.pool
        have hall := sum_map_set World.leases hw
          (Session.step (onThread env) { w with supply := shelf.pool } s)
        simp only [slabs]
        omega
  | destroy i =>
      simp only [step]
      split
      · rfl
      · rename_i w hw
        have hall := sum_map_eraseIdx World.leases hw
        simp only [slabs, SlabSupply.release]
        omega

/-- What a new fork has, and a fork keeps whatever pool it is lent, all forks have. -/
theorem forks_step {P : World β S → Prop} {a : ShelfStep β}
    (hcreate : ∀ {params : ForkParams} {tuning : Tuning} {onFinished : Bool} {w : World β S},
      a = .launch params tuning onFinished →
        World.create params tuning onFinished shelf.pool = some w → P w)
    (hact : ∀ {i : Nat} {env : Env β} {s : Step β} {w : World β S},
      a = .act i env s → shelf.forks[i]? = some w → P w →
        P (Session.step (onThread env) { w with supply := shelf.pool } s))
    (h : ∀ w ∈ shelf.forks, P w) : ∀ w ∈ (shelf.step a).forks, P w := by
  cases a with
  | launch params tuning onFinished =>
      simp only [step]
      split
      · exact h
      · rename_i w hw
        intro v hv
        rcases List.mem_append.mp hv with hv | hv
        · exact h v hv
        · rw [List.mem_singleton.mp hv]
          exact hcreate rfl hw
  | act i env s =>
      simp only [step]
      split
      · exact h
      · rename_i w hw
        intro v hv
        rcases List.mem_or_eq_of_mem_set hv with hv | rfl
        · exact h v hv
        · exact hact rfl hw (h w (List.mem_of_getElem? hw))
  | destroy i =>
      simp only [step]
      split
      · exact h
      · exact fun v hv => h v (List.mem_of_mem_eraseIdx hv)

end

/-! ### The pool is whole again -/

/-- No fork takes audio in once it is dead. -/
def quiet (shelf : Shelf β S) : ShelfStep β → Bool
  | .act i _ s => (shelf.forks[i]?).all fun w => !intake w s
  | _ => true

def alive (w : World β S) : Bool := w.session.state != .dead

theorem released_step {shelf : Shelf β S} {a : ShelfStep β} (hquiet : shelf.quiet a = true)
    (h : ∀ w ∈ shelf.forks, w.audio.Released) :
    ∀ w ∈ (shelf.step a).forks, w.audio.Released := by
  refine forks_step ?_ ?_ h
  · intro params tuning onFinished w _ hcreate hdead
    rcases World.create_eq hcreate with ⟨ring, path, rate, channels, -, -, -, rfl⟩
    cases hdead
  · intro i env s w ha hw hreleased
    subst ha
    have hintake : intake w s = false := by simpa [quiet, hw] using hquiet
    have hlent : intake { w with supply := shelf.pool } s = false := by
      rw [← hintake]
      cases s <;> rfl
    exact (moves_step (onThread env) hlent).preserves (fun _ _ hmove => World.released_move hmove)
      hreleased

theorem leases_dead {w : World β S} (h : w.audio.Released) (hdead : w.session.state = .dead) :
    w.leases = 0 := by
  rcases h (by simp [World.audio, hdead]) with ⟨hbuffer, hpath⟩
  have hsend : w.sendLeases = 0 := List.length_eq_zero_iff.mpr hbuffer
  have hplayback : w.playbackLeases = 0 := by
    unfold World.playbackLeases
    split
    · rfl
    · rename_i path hsome
      exact List.length_eq_zero_iff.mpr (hpath path hsome)
  unfold World.leases
  omega

/-- In any interleaving of any number of forks, every slab that is not in the pool is held by a fork
that is alive.  When the last of them is dead the pool is what it was. -/
theorem slabs_come_home {pool : SlabSupply} {shelf : Shelf β S}
    (hrun : Run step (fun shelf a => shelf.quiet a = true) { forks := [], pool := pool } shelf) :
    ((shelf.forks.filter alive).map World.leases).sum + shelf.pool.available = pool.available := by
  have hslabs : shelf.slabs = pool.available := by
    refine hrun.invariant (I := fun shelf => shelf.slabs = pool.available) ?_ ?_
    · simp [slabs]
    · exact fun shelf a h _ => (slabs_step shelf a).trans h
  have hreleased : ∀ w ∈ shelf.forks, w.audio.Released := by
    refine hrun.invariant (I := fun shelf => ∀ w ∈ shelf.forks, w.audio.Released) ?_ ?_
    · intro w hw
      cases hw
    · exact fun shelf a h hquiet => released_step hquiet h
  rw [sum_map_filter World.leases alive, ← hslabs]
  · rfl
  · intro w hw hdead
    exact leases_dead (hreleased w hw) (by simpa [alive] using hdead)

/-- Two forks share eight slabs.  One holds two of them and is dead in the end, the other holds three. -/
def twoForks : Shelf UInt8 Sample.slabBytes :=
  exec step { forks := [], pool := Sample.supply }
    [.launch Sample.params Sample.tuning true, .launch Sample.params Sample.tuning true,
      .act 0 Sample.env .start, .act 1 Sample.env .start,
      .act 0 Sample.env (.pushAudio [1, 2, 3, 4, 5]), .act 0 Sample.env .pump,
      .act 1 Sample.env (.pushAudio [1, 2, 3, 4, 5, 6, 7, 8, 9]), .act 1 Sample.env .pump,
      .act 0 Sample.env .stop, .act 0 Sample.env (.runPosted 0),
      .act 0 Sample.env (.onClosed 0 false)]

theorem slabs_come_home_sample :
    (twoForks.pool.available = 5 ∧ twoForks.forks.map alive = [false, true]) ∧
      ((twoForks.forks.filter alive).map World.leases).sum + twoForks.pool.available =
        Sample.supply.available :=
  ⟨by decide +kernel, slabs_come_home (Run.of_exec (by decide +kernel))⟩

/-! ### A pool that is large enough -/

/-- At most `most` forks at a time, each with caps that `quota` slabs fill. -/
def admits (most quota : Nat) (shelf : Shelf β S) : ShelfStep β → Bool
  | .launch _ tuning _ =>
      decide (shelf.forks.length < most) && decide (slabsPerFork S tuning ≤ quota)
  | _ => true

/-- What holds of every fork: it fits its caps, which are not too large, and was refused nothing. -/
structure Content (quota : Nat) (w : World β S) : Prop where
  fits : w.Fits
  fed : w.holding.Fed
  small : slabsPerFork S w.session.tuning ≤ quota
  silent : degradations w.events = 0

theorem Content.leases_le {quota : Nat} {w : World β S} (h : Content quota w) :
    w.leases ≤ quota := by
  rw [w.leases_eq]
  exact (h.fits.leases_le h.fed).trans h.small

theorem content_create {quota : Nat} {params : ForkParams} {tuning : Tuning} {onFinished : Bool}
    {supply : SlabSupply} {w : World β S} (hsmall : slabsPerFork S tuning ≤ quota)
    (hcreate : World.create params tuning onFinished supply = some w) : Content quota w := by
  have hfits := World.fits_create hcreate
  rcases World.create_eq hcreate with ⟨ring, path, rate, channels, -, -, -, rfl⟩
  exact ⟨hfits, ⟨rfl, rfl⟩, hsmall, rfl⟩

/-- A fork among few content ones finds what it may hold. -/
theorem content_act {most quota i : Nat} {shelf : Shelf β S} {w : World β S}
    (hfew : shelf.forks.length ≤ most) (hslabs : most * quota ≤ shelf.slabs)
    (hforks : ∀ w ∈ shelf.forks, Content quota w) (hw : shelf.forks[i]? = some w) (env : Env β)
    (s : Step β) :
    Content quota (Session.step (onThread env) { w with supply := shelf.pool } s) := by
  have hcontent := hforks w (List.mem_of_getElem? hw)
  have hindex : i < shelf.forks.length := (List.getElem?_eq_some_iff.mp hw).1
  have hothers : ((shelf.forks.eraseIdx i).map World.leases).sum ≤
      (shelf.forks.length - 1) * quota := by
    refine (List.sum_le_card_nsmul _ quota ?_).trans_eq ?_
    · intro n hn
      rcases List.mem_map.mp hn with ⟨v, hv, rfl⟩
      exact (hforks v (List.mem_of_mem_eraseIdx hv)).leases_le
    · rw [List.length_map, List.length_eraseIdx_of_lt hindex, Nat.nsmul_eq_mul]
  have hone := sum_map_eraseIdx World.leases hw
  have hquota : (shelf.forks.length - 1) * quota + quota ≤ most * quota := by
    rw [← Nat.succ_mul]
    exact Nat.mul_le_mul_right quota (by omega)
  have hprovided : Provided w.session.tuning
      (World.holding { w with supply := shelf.pool }) := by
    refine ⟨⟨hcontent.fits.packed, hcontent.fits.within, hcontent.fits.capBytes,
      hcontent.fits.playback⟩, hcontent.fed, hcontent.small.trans ?_⟩
    show quota ≤ w.holding.leases + shelf.pool.available
    rw [← w.leases_eq]
    unfold slabs at hslabs
    omega
  have hothers : (onThread env).others = SlabQueue.alone := rfl
  rcases provided_step hothers { w with supply := shelf.pool } s hprovided with ⟨hafter, hsilent⟩
  refine ⟨hafter.fits, hafter.fed, ?_, hsilent.trans hcontent.silent⟩
  rw [tuning_step]
  exact hcontent.small

theorem length_step {most quota : Nat} {shelf : Shelf β S} {a : ShelfStep β}
    (hadmits : shelf.admits most quota a = true) (h : shelf.forks.length ≤ most) :
    (shelf.step a).forks.length ≤ most := by
  cases a with
  | launch params tuning onFinished =>
      have hroom : shelf.forks.length < most := by
        simp only [admits, Bool.and_eq_true, decide_eq_true_eq] at hadmits
        exact hadmits.1
      simp only [step]
      split
      · exact h
      · rw [List.length_append]
        exact hroom
  | act i env s =>
      simp only [step]
      split
      · exact h
      · simpa using h
  | destroy i =>
      simp only [step]
      split
      · exact h
      · exact (List.length_eraseIdx_le _ _).trans h

/-- A pool with room for the caps of as many forks as there are at a time refuses none of them a slab,
in any interleaving: no cap is cut, and `degraded` is never reported. -/
theorem ample_pool_feeds_all (most quota : Nat) {pool : SlabSupply} {shelf : Shelf β S}
    (hpool : most * quota ≤ pool.available)
    (hrun : Run step (fun shelf a => shelf.admits most quota a = true)
      { forks := [], pool := pool } shelf) :
    ∀ w ∈ shelf.forks, w.session.outbound.poolStarved = false ∧
      w.session.outbound.buffer.capBytes = w.session.tuning.sendCapBytes ∧
      ∀ e ∈ w.events, e.type ≠ .degraded := by
  have hinv : shelf.forks.length ≤ most ∧ most * quota ≤ shelf.slabs ∧
      ∀ w ∈ shelf.forks, Content quota w := by
    refine hrun.invariant (I := fun shelf => shelf.forks.length ≤ most ∧
      most * quota ≤ shelf.slabs ∧ ∀ w ∈ shelf.forks, Content quota w) ?_ ?_
    · exact ⟨Nat.zero_le _, by simpa [slabs] using hpool, fun w hw => by cases hw⟩
    · rintro shelf a ⟨hfew, hslabs, hforks⟩ hadmits
      refine ⟨length_step hadmits hfew, hslabs.trans_eq (slabs_step shelf a).symm,
        forks_step ?_ ?_ hforks⟩
      · rintro params tuning onFinished w rfl hcreate
        simp only [admits, Bool.and_eq_true, decide_eq_true_eq] at hadmits
        exact content_create hadmits.2 hcreate
      · intro i env s w _ hw _
        exact content_act hfew hslabs hforks hw env s
  intro w hw
  have hcontent := hinv.2.2 w hw
  refine ⟨hcontent.fed.2, hcontent.fits.capBytes.trans hcontent.fed.cap_eq, ?_⟩
  intro e he htype
  have hnone := List.countP_eq_zero.mp hcontent.silent e he
  simp [htype] at hnone

/-- Two forks on a shelf for two.  Neither reaches its server, so the audio stays in slabs. -/
def fullShelf : Shelf UInt8 Sample.slabBytes :=
  exec step { forks := [], pool := { available := 68, calls := 0 } }
    [.launch Sample.params Sample.tuning true, .launch Sample.params Sample.tuning true,
      .act 0 Sample.env .start, .act 1 Sample.env .start,
      .act 0 Sample.env (.pushAudio (List.replicate 16 1)), .act 0 Sample.env .pump,
      .act 0 Sample.env (.pushAudio (List.replicate 16 2)), .act 0 Sample.env .pump,
      .act 1 Sample.env (.pushAudio (List.replicate 16 3)), .act 1 Sample.env .pump]

theorem ample_pool_feeds_all_full :
    fullShelf.forks.map World.leases = [8, 4] ∧
      ∀ w ∈ fullShelf.forks, w.session.outbound.poolStarved = false ∧
        w.session.outbound.buffer.capBytes = w.session.tuning.sendCapBytes ∧
        ∀ e ∈ w.events, e.type ≠ .degraded :=
  ⟨by decide +kernel,
    ample_pool_feeds_all 2 34 (by decide) (Run.of_exec (by decide +kernel))⟩

end Shelf

end Session
end AudioFork
