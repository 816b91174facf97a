import AudioFork.Session.Conservation
import AudioFork.Session.Handles

/-!
# Delivery — what is sent, over the whole life of a session

Two facts about the log of offers that need no books.  Connections are used one after the other: no
frame goes to a connection once a newer one was dialed.  And the audio accepted is a subsequence of
the audio handed over in every state, also after the session has thrown its buffers away.
-/

namespace AudioFork
namespace Session

open Lib Buffers Protocol

variable {β : Type} {S : ℕ+}

section

variable {env : Env β} {params : ForkParams} {tuning : Tuning} {onFinished : Bool}
  {supply : SlabSupply} {w₀ w : World β S}
  (hcreate : World.create params tuning onFinished supply = some w₀)
  (hrun : Run (step env) (fun v s => contract v s = true) w₀ w)

include hcreate hrun

/-! ## In the order of dialing -/

theorem wire_dialed : ∀ o ∈ w.port.wire, o.conn < w.port.conns.length := by
  induction hrun with
  | refl =>
      rcases World.create_spec hcreate with ⟨_, _, _, _, -, -, -, rfl⟩
      nofun
  | tail s hprev hcontract ih =>
      rename_i v
      rcases consults_step env v s with ⟨offers, hconsults, -⟩
      have hgrows := (later_conns_step env v s).length_le
      rw [(preamble_conns v s).1] at hgrows
      rw [hconsults.wire, wire_preamble]
      intro o ho
      refine Nat.lt_of_lt_of_le ?_ hgrows
      rcases List.mem_append.mp ho with ho | ho
      · exact ih o ho
      · have hlast := offers_newest (held_of_run hcreate hprev) hconsults o ho
        omega

theorem wire_in_dialing_order : w.port.wire.Pairwise fun a b => a.conn ≤ b.conn := by
  induction hrun with
  | refl =>
      rcases World.create_spec hcreate with ⟨_, _, _, _, -, -, -, rfl⟩
      exact .nil
  | tail s hprev hcontract ih =>
      rename_i v
      rcases consults_step env v s with ⟨offers, hconsults, -⟩
      have hlast := offers_newest (held_of_run hcreate hprev) hconsults
      rw [hconsults.wire, wire_preamble, List.pairwise_append]
      refine ⟨ih, ?_, ?_⟩
      · refine List.pairwise_of_forall_mem_list ?_
        intro a ha b hb
        have hfirst := hlast a ha
        have hsecond := hlast b hb
        omega
      · intro a ha b hb
        have hearlier := wire_dialed hcreate hprev a ha
        have hnewest := hlast b hb
        omega

end

/-! ## After death, too -/

namespace World

variable {env : Env β} {v w : World β S}

/-- With the books of a session that is alive; in a dead one there is nothing left to send. -/
def Delivering (w : World β S) : Prop :=
  w.Conserved ∧
    (w.session.state = .dead →
      w.session.outbound.buffer.content = [] ∧ List.Sublist (sentAudio w.port.wire) w.handed)

theorem Conserved.sublist (h : w.Conserved) (halive : w.session.state ≠ .dead) :
    List.Sublist (sentAudio w.port.wire) w.handed :=
  (h halive).2.books.1.delivered_sublist

theorem Delivering.sublist (h : w.Delivering) : List.Sublist (sentAudio w.port.wire) w.handed := by
  by_cases hdead : w.session.state = .dead
  · exact (h.2 hdead).2
  · exact h.1.sublist hdead

/-- The outbound side is all that counts. -/
theorem Delivering.congr (h : w.Delivering) (hsame : v.outward = w.outward) : v.Delivering := by
  refine ⟨h.1.congr hsame, ?_⟩
  simp only [outward, audio, Audio.mk.injEq] at hsame
  rcases hsame with ⟨hdead, -, -, hbuffer, -, -, -, -, -, -, -, hwire, -, hhanded⟩
  intro hv
  rw [hbuffer, hwire, hhanded]
  refine h.2 ?_
  rw [hv] at hdead
  simpa using hdead.symm

/-- With nothing to send, a flush sends nothing. -/
theorem flushToConnection_dry (env : Env β) (h : w.session.outbound.buffer.content = []) :
    ∃ bufferedBytes, w.flushToConnection env =
      { w with session.outbound.bufferedBytes := bufferedBytes } := by
  have hempty := (SendBuffer.content_eq_nil_iff_empty w.session.outbound.buffer).mpr h
  unfold flushToConnection
  split
  · exact ⟨w.session.outbound.bufferedBytes, rfl⟩
  · rw [Flush.loop_done (by simp [Flush.more, hempty])]
    exact ⟨_, rfl⟩

theorem Delivering.move (hmove : Move env w v) (h : w.Delivering) : v.Delivering := by
  have hbooks := Conserved.move hmove h.1
  cases hmove with
  | quiet hsame => exact h.congr (by rw [outward, hsame]; rfl)
  | drainHandoffRing hring =>
      refine ⟨hbooks, fun hdead => ?_⟩
      have hloop : Drain.loop env.others w.session.params w.session.tuning w.session.outbound.ring.size
          { outbound := w.session.outbound, supply := w.supply, events := w.events } =
          { outbound := w.session.outbound, supply := w.supply, events := w.events } :=
        Drain.loop_empty _ (hring hdead)
      unfold World.drainHandoffRing
      rw [hloop]
      exact h.2 hdead
  | flushToConnection =>
      refine ⟨hbooks, fun hdead => ?_⟩
      have hlife := congrArg Lifecycle.state (lifecycle_flushToConnection env w)
      have hempty := h.2 (hlife.symm.trans hdead)
      rcases flushToConnection_dry env hempty.1 with ⟨_, hwrites⟩
      rw [hwrites]
      exact hempty
  | restoreCapIfDrained =>
      refine ⟨hbooks, fun hdead => ?_⟩
      rcases h.2 hdead with ⟨hnil, hsent⟩
      refine ⟨?_, hsent⟩
      show (w.session.outbound.restoreCapIfDrained w.session.tuning w.supply).1.buffer.content = []
      rcases w.session.outbound.restoreCapIfDrained_cases w.session.tuning w.supply with
        hkept | ⟨-, hcontent, hrestored⟩
      · rw [hkept]
        exact hnil
      · rw [hrestored]
        exact hcontent
  | retire =>
      refine ⟨hbooks, fun _ => ?_⟩
      rcases finalize_writes { w with session.state := .dead } with ⟨_, _, -, hwrites⟩
      unfold World.retire
      rw [hwrites]
      exact ⟨rfl, h.sublist⟩
  | pushAudio pcm =>
      refine ⟨hbooks, ?_⟩
      unfold World.pushAudio
      split
      · rename_i hlive
        intro hdead
        rw [show w.session.state = .dead from hdead] at hlive
        cases hlive
      · exact h.2
  | onBinary _ _ _ =>
      exact h.congr (by rw [outward, audio_pumpPlayback, audio_receive]; rfl)
  | pumpPlayback => exact h.congr (by rw [outward, audio_pumpPlayback]; rfl)
  | handleClear _ => exact h.congr (by rw [outward, audio_handleClear]; rfl)
  | handleMark name _ => exact h.congr rfl
  | readPlayback count => exact h.congr rfl

end World

/-! ### Only a push hands audio over -/

namespace World

variable {env : Env β} {v w : World β S}

theorem handed_aside (h : Aside w v) : v.handed = w.handed := by
  rcases h with ⟨_, _, _, _, _, _, _, -, rfl⟩
  rfl

theorem handed_retire (w : World β S) : w.retire.handed = w.handed := by
  rcases finalize_writes { w with session.state := .dead } with ⟨_, _, -, hwrites⟩
  unfold retire
  rw [hwrites]

theorem handed_hangUp (w : World β S) : w.hangUp.handed = w.handed :=
  hangUp_ends (P := fun v => v.handed = w.handed) (handed_retire w) fun _ => rfl

theorem handed_chore {pumps : World β S → Prop} (h : Chore env pumps w v) : v.handed = w.handed := by
  cases h with
  | flushToConnection _ =>
      rcases flushToConnection_writes env w with ⟨_, _, _, _, _, -, hwrites⟩
      rw [hwrites]
  | receive bytes _ => exact handed_aside (aside_receive env w _ bytes)
  | pumpPlayback => exact handed_aside (aside_pumpPlayback w)
  | handleClear _ => exact handed_aside (aside_handleClear w _)
  | unsupported detail => exact handed_aside (aside_unsupported w detail)
  | noteRefused => exact handed_aside (aside_noteRefused w)
  | abandonSocket _ => exact handed_aside (aside_abandonSocket w)
  | hangUp _ => exact handed_hangUp w
  | drainTurn _ _ =>
      refine drainTurn_ends (P := fun v => v.handed = w.handed) ?_
        fun htick => (handed_hangUp _).trans htick
      rcases drainTick_writes env w with ⟨_, _, _, _, _, _, _, _, -, -, hwrites⟩
      rw [hwrites]
  | retire _ => exact handed_retire w
  | _ => rfl

theorem handed_perform (env : Env β) (w : World β S) {o : Occasion β} (ho : ∀ pcm, o ≠ .push pcm) :
    (w.perform env o).handed = w.handed := by
  cases o with
  | closed connectFailed =>
      rcases noteClosed_writes env w connectFailed with ⟨_, _, _, -, hwrites⟩
      show (w.noteClosed env connectFailed).handed = w.handed
      rw [hwrites]
  | greet c hello =>
      let sent := (send env { w with session.state := .active } c (.hello hello)).2
      rcases announce_writes env sent c with ⟨_, _, _, _, _, _, -, -, hannounce⟩
      rcases flushPendingTexts_writes env (sent.announce env c) with ⟨_, _, -, hflush⟩
      show ((sent.announce env c).flushPendingTexts env).handed = w.handed
      rw [hflush, hannounce]
      rfl
  | modify endpoint =>
      rcases applyModify_writes env w endpoint with ⟨_, _, _, _, _, -, hwrites⟩
      show (w.applyModify env endpoint).handed = w.handed
      rw [hwrites]
  | deliver i text =>
      rcases deliverText_writes env (w.takeTask i) text with ⟨_, _, _, -, hwrites⟩
      show ((w.takeTask i).deliverText env text).handed = w.handed
      rw [hwrites]
      rfl
  | push pcm => exact absurd rfl (ho pcm)
  | _ => rfl

end World

theorem handed_step {env : Env β} {w : World β S} {s : Step β} (hs : ∀ pcm, s ≠ .pushAudio pcm) :
    (step env w s).handed = w.handed := by
  have hchores : ∀ {pumps : World β S → Prop} {u v : World β S},
      World.Chores env pumps u v → v.handed = u.handed := by
    intro pumps u v h
    exact h.preserves (I := fun x => x.handed = u.handed)
      (fun _ _ hchore hu => (World.handed_chore hchore).trans hu) rfl
  refine (hchores (chores_step env w s)).trans
    ((World.handed_perform env _ ?_).trans (hchores (chores_preamble env w s)))
  intro pcm hpush
  have harises := occasion_arises env w s
  rw [hpush] at harises
  exact hs pcm harises

/-- Nothing is sent, or handed over, in a dead session. -/
theorem dead_sends_nothing (env : Env β) {w : World β S} (hheld : w.lifecycle.Held)
    (hdead : w.session.state = .dead) (s : Step β) :
    (step env w s).port.wire = w.port.wire ∧ (step env w s).handed = w.handed := by
  rcases consults_step env w s with ⟨offers, hconsults, -⟩
  have hnone : w.session.connection = none := hheld.none_of_dead hdead
  constructor
  · rw [hconsults.wire, wire_preamble]
    cases offers with
    | nil => exact List.append_nil _
    | cons o offers =>
        have hconn := hconsults.held o List.mem_cons_self
        rw [connection_preamble, hnone] at hconn
        cases hconn
  · cases s with
    | pushAudio pcm =>
        show (w.pushAudio pcm).handed = w.handed
        unfold World.pushAudio
        rw [hdead]
        rfl
    | _ => exact handed_step nofun

/-- In every state of a session, also a dead one, what its connections accepted is what the handoff
ring took, in order and with some segments removed. -/
theorem sent_sublist_of_run {env : Env β} {params : ForkParams} {tuning : Tuning} {onFinished : Bool}
    {supply : SlabSupply} {w₀ w : World β S}
    (hcreate : World.create params tuning onFinished supply = some w₀)
    (hrun : Run (step env) (fun v s => contract v s = true) w₀ w) :
    List.Sublist (sentAudio w.port.wire) w.handed := by
  have hboth : w.Conserved ∧ List.Sublist (sentAudio w.port.wire) w.handed := by
    refine hrun.invariant_with
      (I := fun v => v.Conserved ∧ List.Sublist (sentAudio v.port.wire) v.handed)
      (fun _ hv => held_of_run hcreate hv) ?_ ?_
    · have hbooks := conserved_create hcreate
      refine ⟨hbooks, ?_⟩
      rcases World.create_spec hcreate with ⟨_, _, _, _, -, -, -, rfl⟩
      exact List.Sublist.refl []
    · intro v s hheld hv _
      by_cases hdead : v.session.state = .dead
      · rcases dead_sends_nothing env hheld hdead s with ⟨hwire, hhanded⟩
        rw [hwire, hhanded]
        exact ⟨conserved_step hv.1 s, hv.2⟩
      · have hstart : v.Delivering := ⟨hv.1, fun h => absurd h hdead⟩
        have hend := (moves_step env (intake_alive hdead s)).preserves
          (fun _ _ hmove => World.Delivering.move hmove) hstart
        exact ⟨hend.1, hend.sublist⟩
  exact hboth.2

end Session
end AudioFork
