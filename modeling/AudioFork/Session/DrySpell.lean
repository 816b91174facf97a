import AudioFork.Buffers.Room
import AudioFork.Session.Chores
import AudioFork.Session.Conservation
import AudioFork.Session.Setup

/-!
# DrySpell — one degraded event while the pool is dry

A fork whose `Append` finds the pool dry cuts its cap and reports `degraded`.  `RestoreCapIfDrained`, at
the end of a `Pump` in `kActive`, takes an empty buffer for recovery once the pool feeds the fork
again, and reads that off the last `Append`: `pool_starved_` is false when that one got every slab it
asked for.  It may have asked for none, when its bytes fit the slab the fork was filling, or for slabs
the fork had just given back itself; then the cap is restored with the pool as dry as before.

`World.relapses` is that `Pump`, and no other step brings the cap back: not a frame that finds room
while the fork is connecting, nor one that a slow server leaves in the buffer.  Up to such a step a
fork is degraded once.
-/

namespace AudioFork

open Lib

variable {β : Type} {S : ℕ+}

namespace Session

open Buffers Protocol

/-! ## The cap and its episodes -/

/-- The `degraded` events among `events`. -/
def degradations (events : List ForkEvent) : Nat := events.countP fun e => e.type = .degraded

theorem degradations_append (events more : List ForkEvent) :
    degradations (events ++ more) = degradations events + degradations more :=
  List.countP_append

theorem degradations_quiet {events more : List ForkEvent} (h : ∀ e ∈ more, e.type ≠ .degraded) :
    degradations (events ++ more) = degradations events := by
  have hnone : degradations more = 0 := by
    refine List.countP_eq_zero.mpr ?_
    intro e he
    simpa using h e he
  rw [degradations_append, hnone, Nat.add_zero]

structure Caps where
  emergencyCapBytes : Nat
  capBytes : Nat
  degraded : Bool
  degradations : Nat

def Outbound.caps (o : Outbound β S) (tuning : Tuning) (events : List ForkEvent) : Caps :=
  { emergencyCapBytes := tuning.emergencyCapBytes
    capBytes := o.buffer.capBytes
    degraded := o.degraded
    degradations := degradations events }

def World.caps (w : World β S) : Caps := w.session.outbound.caps w.session.tuning w.events

namespace Caps

structure Cut (k : Caps) : Prop where
  degraded : k.degraded = true
  cap : k.capBytes = k.emergencyCapBytes

/-- What may happen to the cap before a relapse: once cut it stays cut and nothing is reported, and
otherwise one event is reported at most, with the cut. -/
structure Spell (k k' : Caps) : Prop where
  stays : k.Cut → k'.Cut ∧ k'.degradations = k.degradations
  once : k'.degradations = k.degradations ∨ k'.degradations = k.degradations + 1 ∧ k'.Cut

theorem Spell.refl (k : Caps) : Spell k k := ⟨fun h => ⟨h, rfl⟩, Or.inl rfl⟩

theorem Spell.of_eq {k k' : Caps} (h : k' = k) : Spell k k' := by
  subst h
  exact Spell.refl k'

theorem Spell.trans {k k' k'' : Caps} (h : Spell k k') (h' : Spell k' k'') : Spell k k'' where
  stays := by
    intro hcut
    rcases h.stays hcut with ⟨hcut', hsame⟩
    rcases h'.stays hcut' with ⟨hcut'', hsame'⟩
    exact ⟨hcut'', hsame'.trans hsame⟩
  once := by
    rcases h.once with hsame | ⟨hnew, hcut⟩
    · rcases h'.once with hsame' | ⟨hnew, hcut⟩
      · exact Or.inl (hsame'.trans hsame)
      · exact Or.inr ⟨by rw [hnew, hsame], hcut⟩
    · rcases h'.stays hcut with ⟨hcut', hsame⟩
      exact Or.inr ⟨by rw [hsame, hnew], hcut'⟩

end Caps

/-! ## DrainHandoffRing -/

namespace Drain

variable (others : Nat → Nat → Nat) (params : ForkParams) (tuning : Tuning)

/-- The last `Append` of the loop got every slab it asked for; if the ring is empty, the last one
before the loop. -/
def fed : Nat → Drain β S → Bool
  | 0, d => !d.outbound.poolStarved
  | fuel + 1, d =>
      if d.outbound.ring.bytes.isEmpty then
        !d.outbound.poolStarved
      else if d.outbound.ring.size ≤ drainChunkBytes then
        d.outbound.buffer.houses others d.supply d.outbound.ring.size
      else
        fed fuel (d.round others params tuning)

def caps (d : Drain β S) : Caps := d.outbound.caps tuning d.events

variable {others params tuning}

theorem starved_chunk (d : Drain β S) (bytes : List β) :
    (d.chunk others params tuning bytes).outbound.poolStarved =
      !d.outbound.buffer.houses others d.supply bytes.length := by
  rw [← SendBuffer.append_exhausted]
  unfold chunk store degradeIfNewEpisode emitOverrunIfNewEpisode
  rcases d.outbound.buffer.append others d.supply bytes with ⟨result, buffer, supply⟩
  simp only
  split_ifs <;> rfl

theorem starved_loop (fuel : Nat) {d : Drain β S} (hfuel : d.outbound.ring.size ≤ fuel) :
    (loop others params tuning fuel d).outbound.poolStarved = !d.fed others params tuning fuel := by
  induction fuel generalizing d with
  | zero => simp [loop, fed]
  | succ fuel ih =>
      unfold fed
      by_cases hring : d.outbound.ring.bytes = []
      · rw [loop_empty _ hring, if_pos (List.isEmpty_iff.mpr hring), Bool.not_not]
      rw [loop_round fuel hring, if_neg (mt List.isEmpty_iff.mp hring)]
      split
      · rename_i hlast
        -- the chunk takes all there is, so the loop ends behind it
        have hall : (d.outbound.ring.pop drainChunkBytes).1.length = d.outbound.ring.size := by
          rw [SpscByteRing.pop_fst, List.length_take]
          exact Nat.min_eq_right hlast
        have hdone : (d.round others params tuning).outbound.ring.bytes = [] := by
          unfold round
          rw [World.drain_chunk_ring]
          exact List.drop_eq_nil_of_le hlast
        rw [loop_empty _ hdone]
        unfold round
        rw [starved_chunk, hall]
      · have hless := World.drain_round_size others params tuning hring
        exact ih (by omega)

/-- The bookkeeping after a store does not touch the cap. -/
theorem caps_settled (n : Nat) (d : Drain β S) :
    caps tuning (if n > 0 then (d.countDropped n).emitOverrunIfNewEpisode params n
      else { d with outbound.dropping := false }) = d.caps tuning := by
  split
  · unfold emitOverrunIfNewEpisode
    split
    · rfl
    · have hquiet : degradations (d.events ++
          [{ forkEvent params .overrun (ascii "send buffer full, dropping oldest audio") with
             droppedMs := bytesToMs params n }]) = degradations d.events :=
        degradations_quiet (by simp [forkEvent])
      unfold caps Outbound.caps
      simp only [countDropped]
      rw [hquiet]
  · rfl

theorem spell_chunk (d : Drain β S) (bytes : List β) :
    Caps.Spell (d.caps tuning) ((d.chunk others params tuning bytes).caps tuning) := by
  have hcap := SendBuffer.capBytes_append others d.outbound.buffer d.supply bytes
  unfold chunk store
  rcases happend : d.outbound.buffer.append others d.supply bytes with ⟨result, buffer, supply⟩
  rw [happend] at hcap
  have hcap : buffer.capBytes = d.outbound.buffer.capBytes := hcap
  simp only
  rw [caps_settled]
  split
  · unfold degradeIfNewEpisode
    split
    · -- already degraded, or no emergency cap
      exact .of_eq (by simp only [caps, Outbound.caps, countDropped, hcap])
    · rename_i hnew
      -- a new episode: the cut comes with its event
      have hcount : degradations (d.events ++ [forkEvent params .degraded
          (ascii "global memory cap reached, send buffer cut to the emergency cap")]) =
          degradations d.events + 1 := by
        rw [degradations_append]
        rfl
      refine ⟨?_, Or.inr ⟨hcount, ⟨rfl, ?_⟩⟩⟩
      · intro hcut
        exact absurd (Or.inr hcut.degraded) hnew
      · exact SendBuffer.capBytes_setCap buffer supply tuning.emergencyCapBytes
  · exact .of_eq (by simp only [caps, Outbound.caps, hcap])

theorem spell_loop (fuel : Nat) (d : Drain β S) :
    Caps.Spell (d.caps tuning) ((loop others params tuning fuel d).caps tuning) := by
  refine loop_invariant (P := fun d' => Caps.Spell (d.caps tuning) (d'.caps tuning)) ?_ fuel (.refl _)
  intro d' hspell _
  exact hspell.trans (spell_chunk
    { d' with outbound.ring := (d'.outbound.ring.pop drainChunkBytes).2 }
    (d'.outbound.ring.pop drainChunkBytes).1)

end Drain

/-! ## Steps -/

/-- Sending does not touch the cap. -/
theorem Flush.caps_loop (tuning : Tuning) (events : List ForkEvent) (accepts : Nat → Frame β → Bool)
    (c coalesceMaxBytes fuel sentThisTick : Nat) (f : Flush β S) :
    (Flush.loop accepts c coalesceMaxBytes fuel sentThisTick f).outbound.caps tuning events =
      f.outbound.caps tuning events := by
  exact Flush.loop_keeps
    (P := fun g => g.outbound.caps tuning events = f.outbound.caps tuning events)
    (fun h _ => h) (fun h _ => h) (fun h => h) fuel sentThisTick rfl

namespace World

@[inherit_doc Drain.fed]
def fed (env : Env β) (w : World β S) : Bool :=
  Drain.fed env.others w.session.params w.session.tuning w.session.outbound.ring.size
    { outbound := w.session.outbound, supply := w.supply, events := w.events }

/-- The state of a `Pump` in `kActive` when `RestoreCapIfDrained` looks at it. -/
def flushed (env : Env β) (w : World β S) : World β S := (w.moveAudio env).flushToConnection env

/-- A `Pump` in `kActive` that sends all a degraded fork has buffered, its last `Append` having got
every slab it asked for. -/
def relapses (env : Env β) (w : World β S) : Bool :=
  w.session.state == .active && w.fed env && (w.flushed env).session.outbound.degraded &&
    (w.flushed env).session.outbound.buffer.empty

variable {env : Env β} {v w : World β S}

/-- Other events do not count. -/
theorem caps_report (w : World β S) {events : List ForkEvent}
    (hevents : ∀ e ∈ events, e.type ≠ .degraded) :
    { w.caps with degradations := degradations (w.events ++ events) } = w.caps := by
  rw [degradations_quiet hevents]
  rfl

theorem caps_retire (w : World β S) : w.retire.caps = w.caps := by
  rcases finalize_writes { w with session.state := .dead } with ⟨_, events, hevents, hwrites⟩
  unfold retire
  rw [hwrites, List.append_assoc]
  refine caps_report w ?_
  intro e he
  rcases List.mem_append.mp he with he | he
  · simp [hevents e he]
  · rw [List.mem_singleton.mp he]
    simp [forkEvent]

theorem caps_hangUp (w : World β S) : w.hangUp.caps = w.caps :=
  hangUp_ends (P := fun u => u.caps = w.caps) (caps_retire w) fun _ => rfl

/-- What is reported in passing is no degradation. -/
theorem caps_aside (h : Aside w v) : v.caps = w.caps := by
  rcases h with ⟨_, _, _, _, _, _, events, hevents, rfl⟩
  refine caps_report w ?_
  intro e he hdegraded
  have hpassing := hevents e he
  rw [hdegraded] at hpassing
  cases hpassing

theorem caps_flushToConnection (w : World β S) : (w.flushToConnection env).caps = w.caps := by
  unfold flushToConnection
  split
  · rfl
  · exact Flush.caps_loop _ _ _ _ _ _ _ _

theorem caps_drainTick (w : World β S) : (w.drainTick env).2.caps = w.caps := by
  unfold drainTick
  simp only
  rcases drainExpired_writes env (w.flushToConnection env) with ⟨_, hexpired⟩
  rcases sayBye_writes env ((w.flushToConnection env).drainExpired env).2
    (w.flushToConnection env).session.outbound.buffer.empty with ⟨_, offers, -, hbye⟩
  rw [hbye, hexpired]
  exact caps_flushToConnection w

/-- Sending and playing do not change what the last `Append` got. -/
theorem starved_flushed (env : Env β) (w : World β S) :
    (w.flushed env).session.outbound.poolStarved = !w.fed env := by
  have hmoved : (w.moveAudio env).session.outbound.poolStarved = !w.fed env := by
    unfold moveAudio
    rw [outbound_pumpPlayback]
    exact Drain.starved_loop _ (Nat.le_refl _)
  rw [← hmoved]
  unfold flushed flushToConnection
  split
  · rfl
  · exact Flush.loop_keeps
      (P := fun g => g.outbound.poolStarved = (w.moveAudio env).session.outbound.poolStarved)
      (fun h _ => h) (fun h _ => h) (fun h => h) _ _ rfl

/-- A `Pump` in `kActive` that does not relapse leaves the cap as its drain left it. -/
theorem restoreCapIfDrained_flushed (hactive : w.session.state = .active)
    (h : w.relapses env = false) : (w.flushed env).restoreCapIfDrained = w.flushed env := by
  -- in `kActive` a pump that does not relapse fails one of the three tests
  have hkept : (w.flushed env).session.outbound.degraded = false ∨
      (w.flushed env).session.outbound.poolStarved = true ∨
      (w.flushed env).session.outbound.buffer.empty = false := by
    rw [starved_flushed]
    simp only [relapses, hactive, beq_self_eq_true, Bool.true_and, Bool.and_eq_false_iff] at h
    rcases h with (hstarved | hfull) | hempty
    · exact Or.inr (Or.inl (by rw [hstarved]; rfl))
    · exact Or.inl hfull
    · exact Or.inr (Or.inr hempty)
  unfold restoreCapIfDrained Outbound.restoreCapIfDrained
  rw [if_pos hkept]

theorem spell_chore {pumps : World β S → Prop}
    (hkept : ∀ u, pumps u → w = u.flushed env → u.relapses env = false)
    (hchore : Chore env pumps w v) : Caps.Spell w.caps v.caps := by
  have hside : Aside w v → Caps.Spell w.caps v.caps := fun haside => .of_eq (caps_aside haside)
  cases hchore with
  | emit type detail hpassing => exact hside (aside_emit w hpassing detail)
  | drainHandoffRing _ =>
      exact Drain.spell_loop _
        { outbound := w.session.outbound, supply := w.supply, events := w.events }
  | flushToConnection _ => exact .of_eq (caps_flushToConnection w)
  | restoreCapIfDrained hactive hpump hflushed =>
      have hrelapses := hkept _ hpump hflushed
      subst hflushed
      exact .of_eq (congrArg caps (restoreCapIfDrained_flushed hactive hrelapses))
  | receive bytes _ => exact hside (aside_receive env w _ bytes)
  | pumpPlayback => exact hside (aside_pumpPlayback w)
  | handlePlaybackStart sampleRate channels =>
      exact hside (aside_handlePlaybackStart w sampleRate channels)
  | handleClear _ => exact hside (aside_handleClear w _)
  | unsupported detail => exact hside (aside_unsupported w detail)
  | noteRefused => exact hside (aside_noteRefused w)
  | abandonSocket _ => exact hside (aside_abandonSocket w)
  | retry _ => exact .of_eq (caps_report w (by simp [forkEvent]))
  | hangUp _ => exact .of_eq (caps_hangUp w)
  | drainTurn _ _ =>
      exact .of_eq (drainTurn_ends (P := fun u => u.caps = w.caps) (caps_drainTick w)
        (caps_hangUp _).trans)
  | retire _ => exact .of_eq (caps_retire w)
  | _ => exact .refl _

theorem caps_perform (env : Env β) (w : World β S) (o : Occasion β) :
    (w.perform env o).caps = w.caps := by
  have h := attends_perform env w o
  have htuning : (w.perform env o).session.tuning = w.session.tuning := congrArg Prod.fst h.setup
  rcases h.events with ⟨events, hevents, hreported⟩
  unfold caps Outbound.caps
  rw [htuning, h.buffer, h.degraded, hreported, degradations_quiet]
  intro e he
  rcases hevents e he with htype | htype | htype <;> simp [htype]

end World

/-- The step ends in a `Pump` that relapses. -/
def relapses (env : Env β) (w : World β S) (s : Step β) : Bool :=
  (pumpCalls env w s).any fun v => v.relapses env

end Session
end AudioFork
