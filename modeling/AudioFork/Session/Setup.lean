import AudioFork.Session.Chores

/-!
# Setup — what a session keeps from its creation

The tuning and what the hello says are fixed by `Create`.  A modify changes the endpoint, which is
neither.
-/

namespace AudioFork
namespace Session

open Buffers Protocol Lib

variable {β : Type} {S : ℕ+}

def World.setup (w : World β S) : Tuning × HelloParams :=
  (w.session.tuning, World.helloParams w.session.params)

namespace World

section

variable {env : Env β} {v w : World β S}

theorem setup_aside (h : Aside w v) : v.setup = w.setup := by
  rcases h with ⟨_, _, _, _, _, _, _, -, rfl⟩
  rfl

theorem setup_retire (w : World β S) : w.retire.setup = w.setup := by
  rcases finalize_writes { w with session.state := .dead } with ⟨_, _, -, hwrites⟩
  unfold retire
  rw [hwrites]
  rfl

theorem setup_hangUp (w : World β S) : w.hangUp.setup = w.setup :=
  hangUp_ends (P := fun v => v.setup = w.setup) (setup_retire w) fun _ => rfl

theorem setup_chore {pumps : World β S → Prop} (h : Chore env pumps w v) : v.setup = w.setup := by
  cases h with
  | drainHandoffRing _ =>
      rcases drainHandoffRing_writes env w with ⟨_, _, _, _, _, _, _, _, _, -, hwrites⟩
      rw [hwrites]
      rfl
  | flushToConnection _ =>
      rcases flushToConnection_writes env w with ⟨_, _, _, _, _, -, hwrites⟩
      rw [hwrites]
      rfl
  | restoreCapIfDrained _ =>
      rcases restoreCapIfDrained_writes w with ⟨_, _, _, hwrites⟩
      rw [hwrites]
      rfl
  | receive bytes _ => exact setup_aside (aside_receive env w _ bytes)
  | pumpPlayback => exact setup_aside (aside_pumpPlayback w)
  | handleClear _ => exact setup_aside (aside_handleClear w _)
  | unsupported detail => exact setup_aside (aside_unsupported w detail)
  | noteRefused => exact setup_aside (aside_noteRefused w)
  | abandonSocket _ => exact setup_aside (aside_abandonSocket w)
  | hangUp _ => exact setup_hangUp w
  | drainTurn _ _ =>
      refine drainTurn_ends (P := fun v => v.setup = w.setup) ?_
        fun htick => (setup_hangUp _).trans htick
      rcases drainTick_writes env w with ⟨_, _, _, _, _, _, _, _, -, -, hwrites⟩
      rw [hwrites]
      rfl
  | retire _ => exact setup_retire w
  | _ => rfl

theorem setup_chores {pumps : World β S → Prop} (h : Chores env pumps w v) : v.setup = w.setup :=
  h.preserves (I := fun v => v.setup = w.setup)
    (fun _ _ hchore hw => (setup_chore hchore).trans hw) rfl

/-- What an occasion leaves alone, and what it may report. -/
structure Attends (w v : World β S) : Prop where
  setup : v.setup = w.setup
  playback : v.session.playback = w.session.playback
  buffer : v.session.outbound.buffer = w.session.outbound.buffer
  degraded : v.session.outbound.degraded = w.session.outbound.degraded
  poolStarved : v.session.outbound.poolStarved = w.session.outbound.poolStarved
  supply : v.supply = w.supply
  events : ∃ events, (∀ e ∈ events, e.type = .resume ∨ e.type = .connect ∨ e.type = .connectFailed) ∧
    v.events = w.events ++ events

theorem attends_perform (env : Env β) (w : World β S) (o : Occasion β) :
    Attends w (w.perform env o) := by
  -- only a greeting and a lost connection are reported
  have hsilent : ∃ events : List ForkEvent,
      (∀ e ∈ events, e.type = .resume ∨ e.type = .connect ∨ e.type = .connectFailed) ∧
        w.events = w.events ++ events := ⟨[], by simp, by simp⟩
  cases o with
  | closed connectFailed =>
      rcases noteClosed_writes env w connectFailed with ⟨_, _, events, hevents, hwrites⟩
      show Attends w (w.noteClosed env connectFailed)
      rw [hwrites]
      exact ⟨rfl, rfl, rfl, rfl, rfl, rfl, events, fun e he => Or.inr (Or.inr (hevents e he)), rfl⟩
  | greet c hello =>
      let sent := (send env { w with session.state := .active } c (.hello hello)).2
      rcases announce_writes env sent c with ⟨_, _, _, _, _, events, -, hevents, hannounce⟩
      rcases flushPendingTexts_writes env (sent.announce env c) with ⟨_, _, -, hflush⟩
      show Attends w ((sent.announce env c).flushPendingTexts env)
      rw [hflush, hannounce]
      exact ⟨rfl, rfl, rfl, rfl, rfl, rfl, events, fun e he => (hevents e he).imp_right Or.inl, rfl⟩
  | modify endpoint =>
      rcases applyModify_writes env w endpoint with ⟨_, _, _, _, _, -, hwrites⟩
      show Attends w (w.applyModify env endpoint)
      rw [hwrites]
      exact ⟨rfl, rfl, rfl, rfl, rfl, rfl, hsilent⟩
  | deliver i text =>
      rcases deliverText_writes env (w.takeTask i) text with ⟨_, _, _, -, hwrites⟩
      show Attends w ((w.takeTask i).deliverText env text)
      rw [hwrites]
      exact ⟨rfl, rfl, rfl, rfl, rfl, rfl, hsilent⟩
  | push pcm =>
      rcases pushAudio_writes w pcm with ⟨_, _, _, _, _, hwrites⟩
      show Attends w (w.pushAudio pcm)
      rw [hwrites]
      exact ⟨rfl, rfl, rfl, rfl, rfl, rfl, hsilent⟩
  | _ => exact ⟨rfl, rfl, rfl, rfl, rfl, rfl, hsilent⟩

end

end World

theorem setup_step (env : Env β) (w : World β S) (s : Step β) : (step env w s).setup = w.setup :=
  (World.setup_chores (chores_step env w s)).trans
    ((World.attends_perform env _ _).setup.trans (World.setup_chores (chores_preamble env w s)))

theorem tuning_step (env : Env β) (w : World β S) (s : Step β) :
    (step env w s).session.tuning = w.session.tuning :=
  congrArg Prod.fst (setup_step env w s)

end Session
end AudioFork
