import AudioFork.Lib.LossyPipe
import AudioFork.Session.Liveness
import AudioFork.Session.Moves

/-!
# Conservation — no outbound byte is duplicated, reordered or miscounted

The outbound path of a session is a lossy pipe: the handoff ring is its back stage, the send buffer
its front stage, and what the connections accepted is what it delivered.  The session's counters are
the books of that pipe.  Until the session is dead the books balance (`World.Conserved`).

The byte type is arbitrary, so the statement applies to bytes that carry their position in the
stream as well, for which a subsequence has each position at most once.
-/

namespace AudioFork
namespace Session

open Lib Buffers Protocol

variable {β : Type} {S : ℕ+}

namespace Outbound

def pipe (o : Outbound β S) (handed delivered : List β) : Pipe β :=
  { offered := handed
    back := o.ring.bytes
    front := o.buffer.content
    delivered := delivered }

def meter (o : Outbound β S) (offered : Nat) : Pipe.Meter :=
  { total := offered
    refused := o.pausedBytes + o.mediaDroppedBytes
    lost := o.bufferDroppedBytes }

structure Balanced (o : Outbound β S) (offered : Nat) (handed delivered : List β) : Prop where
  books : (o.pipe handed delivered).Balanced (o.meter offered)
  sent : o.sentBytes = delivered.length
  capped : o.buffer.capBytes ≠ 0

/-- The part of the path the shard's drain does not own. -/
def media (o : Outbound β S) : Nat × Nat × Nat := (o.pausedBytes, o.mediaDroppedBytes, o.sentBytes)

theorem Balanced.push {o : Outbound β S} {offered : Nat} {handed delivered : List β}
    (h : o.Balanced offered handed delivered) (pcm : List β) :
    (o.push pcm).2.Balanced (offered + pcm.length)
      (if (o.push pcm).1 ∧ o.paused = false then handed ++ pcm else handed) delivered := by
  unfold Outbound.push
  cases hpaused : o.paused with
  | true =>
      -- a paused push is refused by the pipe, although `PushAudio` returns true
      refine ⟨?_, h.sent, h.capped⟩
      have hrefused := h.books.refuse pcm.length
      simpa [pipe, meter, Nat.add_right_comm] using hrefused
  | false =>
      simp only [Bool.false_eq_true, if_false]
      cases hpush : o.ring.push pcm with
      | mk accepted ring =>
          cases accepted with
          | false =>
              refine ⟨?_, h.sent, h.capped⟩
              have hrefused := h.books.refuse pcm.length
              simpa [pipe, meter, Nat.add_assoc] using hrefused
          | true =>
              have hbytes : ring.bytes = o.ring.bytes ++ pcm := by
                have haccepted : (o.ring.push pcm).1 = true →
                    (o.ring.push pcm).2.bytes = o.ring.bytes ++ pcm :=
                  SpscByteRing.push_accepted
                rw [hpush] at haccepted
                exact haccepted rfl
              refine ⟨?_, h.sent, h.capped⟩
              have hoffer := h.books.offer pcm
              simpa [pipe, meter, hbytes] using hoffer

end Outbound

/-! ## DrainHandoffRing -/

namespace Outbound

/-- `o'` holds `all` less its oldest `lost` bytes, of which `uncounted` are not in the books yet. -/
structure Keeps (o o' : Outbound β S) (all : List β) (lost uncounted : Nat) : Prop where
  fits : lost ≤ all.length
  content : o'.buffer.content = all.drop lost
  counted : o'.bufferDroppedBytes + uncounted = o.bufferDroppedBytes + lost
  capped : o'.buffer.capBytes ≠ 0
  ring : o'.ring = o.ring
  media : o'.media = o.media

end Outbound

namespace Drain

open Outbound (Keeps)

variable (others : Nat → Nat → Nat) (params : ForkParams) (tuning : Tuning)

/-- The emergency cap sheds the oldest audio; it is never zero. -/
theorem degradeIfNewEpisode_keeps (d : Drain β S) (hcap : d.outbound.buffer.capBytes ≠ 0) :
    Keeps d.outbound (d.degradeIfNewEpisode params tuning).2.outbound d.outbound.buffer.content
      (d.degradeIfNewEpisode params tuning).1 (d.degradeIfNewEpisode params tuning).1 := by
  unfold degradeIfNewEpisode
  split
  · exact ⟨Nat.zero_le _, rfl, rfl, hcap, rfl, rfl⟩
  · rename_i hnew
    have hnonzero : tuning.emergencyCapBytes ≠ 0 := fun hzero => hnew (Or.inl hzero)
    rcases SendBuffer.setCap_spec d.outbound.buffer d.supply tuning.emergencyCapBytes with
      ⟨hfits, hcontent⟩
    have hcapped := SendBuffer.capBytes_setCap d.outbound.buffer d.supply tuning.emergencyCapBytes
    exact ⟨hfits, hcontent, rfl, fun hzero => hnonzero (hcapped.symm.trans hzero), rfl, rfl⟩

/-- What `Append` reports as dropped is not in the books yet; what the emergency cap shed is. -/
theorem store_keeps (d : Drain β S) (bytes : List β) (hcap : d.outbound.buffer.capBytes ≠ 0) :
    ∃ lost, Keeps d.outbound (d.store others params tuning bytes).2.outbound
      (d.outbound.buffer.content ++ bytes) lost (d.store others params tuning bytes).1 := by
  have haccounted := SendBuffer.append_spec others d.outbound.buffer d.supply bytes hcap
  have hcap' := SendBuffer.capBytes_append others d.outbound.buffer d.supply bytes
  unfold store
  cases happend : d.outbound.buffer.append others d.supply bytes with
  | mk result stored =>
      rcases stored with ⟨buffer, supply⟩
      rw [happend] at haccounted hcap'
      rcases haccounted with ⟨k, hk, hdropped, hcontent⟩
      have hdropped : result.droppedBytes = k := hdropped.trans (Nat.zero_add k)
      have hcontent : buffer.content = (d.outbound.buffer.content ++ bytes).drop k := hcontent
      have hcapped : buffer.capBytes ≠ 0 := fun hzero => hcap (hcap'.symm.trans hzero)
      by_cases hdry : result.poolExhausted = true
      · -- the pool ran dry: the emergency cap may take more from the front
        let d' : Drain β S :=
          { d with
            outbound := { d.outbound with buffer := buffer, poolStarved := result.poolExhausted }
            supply := supply }
        have hshed : Keeps d'.outbound (d'.degradeIfNewEpisode params tuning).2.outbound
            d'.outbound.buffer.content (d'.degradeIfNewEpisode params tuning).1
            (d'.degradeIfNewEpisode params tuning).1 :=
          degradeIfNewEpisode_keeps params tuning d' hcapped
        simp only [hdry, if_true]
        generalize hdegrade : d'.degradeIfNewEpisode params tuning = degrade at hshed
        simp only [d', hdry] at hdegrade
        rw [hdegrade]
        rcases degrade with ⟨shed, d''⟩
        refine ⟨k + shed, ?_, ?_, ?_, hshed.capped, hshed.ring, hshed.media⟩
        · have hfits : shed ≤ buffer.content.length := hshed.fits
          rw [hcontent, List.length_drop] at hfits
          omega
        · have hafter : d''.outbound.buffer.content = buffer.content.drop shed := hshed.content
          show d''.outbound.buffer.content = _
          rw [hafter, hcontent, List.drop_drop]
        · have hsame : d''.outbound.bufferDroppedBytes + shed =
              d.outbound.bufferDroppedBytes + shed := hshed.counted
          show d''.outbound.bufferDroppedBytes + shed + result.droppedBytes = _
          omega
      · simp only [hdry]
        refine ⟨k, hk, hcontent, ?_, hcapped, rfl, rfl⟩
        rw [← hdropped]
        rfl

theorem chunk_keeps (d : Drain β S) (bytes : List β) (hcap : d.outbound.buffer.capBytes ≠ 0) :
    ∃ lost, Keeps d.outbound (d.chunk others params tuning bytes).outbound
      (d.outbound.buffer.content ++ bytes) lost 0 := by
  rcases store_keeps others params tuning d bytes hcap with ⟨lost, hstore⟩
  refine ⟨lost, ?_⟩
  unfold chunk
  cases hstored : d.store others params tuning bytes with
  | mk dropped d' =>
      rw [hstored] at hstore
      simp only
      split
      · -- the drop enters the books here; the event is not part of them
        unfold emitOverrunIfNewEpisode
        split
        · exact ⟨hstore.fits, hstore.content, hstore.counted, hstore.capped, hstore.ring,
            hstore.media⟩
        · exact ⟨hstore.fits, hstore.content, hstore.counted, hstore.capped, hstore.ring,
            hstore.media⟩
      · rename_i hnone
        have hzero : dropped = 0 := by omega
        subst hzero
        exact ⟨hstore.fits, hstore.content, hstore.counted, hstore.capped, hstore.ring,
          hstore.media⟩

end Drain

namespace Outbound

variable {o o' : Outbound β S} {offered : Nat} {handed delivered : List β}

/-- A chunk that left the ring for the buffer, less what was lost and counted on the way. -/
theorem Balanced.keeps (h : o.Balanced offered handed delivered) {ring : SpscByteRing β}
    {bytes : List β} {lost : Nat} (hring : o.ring.bytes = bytes ++ ring.bytes)
    (hkeeps : Keeps { o with ring := ring } o' (o.buffer.content ++ bytes) lost 0) :
    o'.Balanced offered handed delivered := by
  have hpaused : o'.pausedBytes = o.pausedBytes := congrArg Prod.fst hkeeps.media
  have hmedia : o'.mediaDroppedBytes = o.mediaDroppedBytes :=
    congrArg (fun m => m.2.1) hkeeps.media
  have hsent : o'.sentBytes = o.sentBytes := congrArg (fun m => m.2.2) hkeeps.media
  have hlost : o'.bufferDroppedBytes = o.bufferDroppedBytes + lost := hkeeps.counted
  have hmoved := (h.books.advance hring).lose hkeeps.fits
  refine ⟨?_, hsent.trans h.sent, hkeeps.capped⟩
  simpa only [pipe, meter, hpaused, hmedia, hlost, hkeeps.content, hkeeps.ring] using hmoved

theorem Balanced.drain (others : Nat → Nat → Nat) (params : ForkParams) (tuning : Tuning)
    (fuel : Nat) {d : Drain β S} (h : d.outbound.Balanced offered handed delivered) :
    (Drain.loop others params tuning fuel d).outbound.Balanced offered handed delivered := by
  refine Drain.loop_invariant
    (P := fun d => d.outbound.Balanced offered handed delivered) ?_ fuel h
  intro d h _
  -- what the pop took from the ring goes to the buffer whole, then the buffer may drop
  rcases Drain.chunk_keeps others params tuning
    { d with outbound.ring := (d.outbound.ring.pop Drain.drainChunkBytes).2 }
    (d.outbound.ring.pop Drain.drainChunkBytes).1 h.capped with ⟨lost, hkeeps⟩
  refine h.keeps ?_ hkeeps
  exact (List.take_append_drop _ _).symm

/-! ## FlushToConnection -/

theorem Balanced.flush (accepts : Nat → Frame β → Bool) (c coalesceMaxBytes fuel sentThisTick : Nat)
    {f : Flush β S} (h : f.outbound.Balanced offered handed (sentAudio f.wire)) :
    (Flush.loop accepts c coalesceMaxBytes fuel sentThisTick f).outbound.Balanced offered handed
      (sentAudio (Flush.loop accepts c coalesceMaxBytes fuel sentThisTick f).wire) := by
  refine Flush.loop_keeps
    (P := fun f => f.outbound.Balanced offered handed (sentAudio f.wire)) ?_ ?_ ?_ fuel sentThisTick h
  · -- a refused frame stays in the buffer
    intro sent f h _
    generalize f.outbound.buffer.peek (coalesceMaxBytes - sent) = chunk
    have hsent : sentAudio (f.refused c chunk).wire = sentAudio f.wire ++ [] := sentAudio_append _ _
    rw [hsent, List.append_nil]
    exact h
  · -- an accepted one leaves it from the front
    intro sent f h _
    have hfront := f.outbound.buffer.content_peek f.supply (coalesceMaxBytes - sent)
    generalize f.outbound.buffer.peek (coalesceMaxBytes - sent) = chunk at hfront ⊢
    have hsent : sentAudio (f.taken c chunk).wire = sentAudio f.wire ++ chunk := by
      unfold Flush.taken
      rw [sentAudio_append]
      exact congrArg (sentAudio f.wire ++ ·) (List.append_nil chunk)
    have hdeliver := h.books.deliver hfront
    refine ⟨?_, ?_, h.capped⟩
    · rw [hsent]
      exact hdeliver
    · rw [hsent, List.length_append, ← h.sent]
      rfl
  · intro f h
    exact ⟨h.books, h.sent, h.capped⟩

theorem Balanced.restoreCapIfDrained (h : o.Balanced offered handed delivered) (tuning : Tuning)
    (p : SlabSupply) (hcap : tuning.sendCapBytes ≠ 0) :
    (o.restoreCapIfDrained tuning p).1.Balanced offered handed delivered := by
  rcases o.restoreCapIfDrained_cases tuning p with hkept | ⟨hnil, hcontent, hrestored⟩
  · rw [hkept]
    exact h
  · have hsame := hcontent.trans hnil.symm
    rw [hrestored]
    refine ⟨?_, h.sent, ?_⟩
    · simpa only [pipe, meter, hsame] using h.books
    · simpa using hcap

end Outbound

/-! ## Whole runs -/

namespace World

/-- The books balance until the session is dead; `Finalize` throws the buffer away uncounted. -/
def Conserved (w : World β S) : Prop :=
  w.session.state ≠ .dead →
    w.session.tuning.sendCapBytes ≠ 0 ∧
      w.session.outbound.Balanced w.offered w.handed (sentAudio w.port.wire)

/-- Audio without the playback side. -/
def outward (w : World β S) : Audio β S :=
  { w.audio with path := none, generation := 0, mediaGeneration := 0 }

section

variable {env : Env β} {v w : World β S}

/-- The books do not depend on anything else. -/
theorem Conserved.congr (h : w.Conserved) (hsame : v.outward = w.outward) : v.Conserved := by
  simp only [outward, audio, Audio.mk.injEq] at hsame
  rcases hsame with ⟨hdead, htuning, hring, hbuffer, hpaused, hmedia, hdropped, hsent, -, -, -,
    hwire, hoffered, hhanded⟩
  intro hv
  have hw : w.session.state ≠ .dead := by
    intro hdead'
    rw [hdead'] at hdead
    exact hv (by simpa using hdead)
  rcases h hw with ⟨hcap, hbooks⟩
  refine ⟨by rw [htuning]; exact hcap, ?_, ?_, ?_⟩
  · simpa only [Outbound.pipe, Outbound.meter, hring, hbuffer, hpaused, hmedia, hdropped, hwire,
      hoffered, hhanded] using hbooks.books
  · rw [hsent, hwire]
    exact hbooks.sent
  · rw [hbuffer]
    exact hbooks.capped

theorem Conserved.pushAudio (h : w.Conserved) (pcm : List β) : (w.pushAudio pcm).Conserved := by
  unfold World.pushAudio
  split
  · rename_i hlive
    have hdead : w.session.state ≠ .dead := by
      intro hdead
      rw [hdead] at hlive
      cases hlive
    exact fun _ => ⟨(h hdead).1, (h hdead).2.push pcm⟩
  · exact h

theorem Conserved.move (hmove : Move env w v) (h : w.Conserved) : v.Conserved := by
  cases hmove with
  | quiet hsame => exact h.congr (by rw [outward, hsame]; rfl)
  | drainHandoffRing _ => exact fun hdead => ⟨(h hdead).1, (h hdead).2.drain _ _ _ _⟩
  | flushToConnection =>
      unfold World.flushToConnection
      split
      · exact h
      · exact fun hdead => ⟨(h hdead).1, (h hdead).2.flush _ _ _ _ _⟩
  | restoreCapIfDrained =>
      exact fun hdead => ⟨(h hdead).1, (h hdead).2.restoreCapIfDrained _ _ (h hdead).1⟩
  | retire =>
      intro hdead
      exact absurd (congrArg Lifecycle.state (lifecycle_retire w)) hdead
  | pushAudio pcm => exact h.pushAudio pcm
  | onBinary _ _ _ =>
      exact h.congr (by rw [outward, audio_pumpPlayback, audio_receive]; rfl)
  | pumpPlayback => exact h.congr (by rw [outward, audio_pumpPlayback]; rfl)
  | handleClear _ => exact h.congr (by rw [outward, audio_handleClear]; rfl)
  | handleMark name _ => exact h.congr rfl
  | readPlayback count => exact h.congr rfl

end

end World

theorem conserved_step {env : Env β} {w : World β S} (h : w.Conserved) (s : Step β) :
    (step env w s).Conserved := by
  by_cases hdead : w.session.state = .dead
  · -- a dead session stays dead, and then nothing is claimed
    exact fun halive => absurd (dead_step hdead s) halive
  · exact (moves_step env (intake_alive hdead s)).preserves
      (fun _ _ hmove => World.Conserved.move hmove) h

theorem conserved_create {params : ForkParams} {tuning : Tuning} {onFinished : Bool}
    {supply : SlabSupply} {w : World β S}
    (h : World.create params tuning onFinished supply = some w) : w.Conserved := by
  rcases World.create_spec h with ⟨ring, path, rate, channels, hring, hcap, -, rfl⟩
  intro _
  refine ⟨hcap, ⟨?_, ?_⟩, rfl, hcap⟩
  · show List.Sublist ([] ++ ([] ++ ring.bytes)) []
    rw [hring]
    exact List.Sublist.refl []
  · show 0 = 0 + 0 + ring.bytes.length + 0 + 0 + 0
    rw [hring]
    rfl

/-- Until a session is dead, what its connections accepted is what the handoff ring took, in order
and with some segments removed, and every byte offered to `PushAudio` in a live state is in exactly
one place: discarded by a pause, refused by the ring, in the ring, in the send buffer, sent, or
dropped by the shard. -/
theorem outbound_conserved {env : Env β} {params : ForkParams} {tuning : Tuning} {onFinished : Bool}
    {supply : SlabSupply} {w₀ w : World β S}
    (hcreate : World.create params tuning onFinished supply = some w₀)
    (hrun : Run (step env) (fun _ _ => True) w₀ w) (halive : w.session.state ≠ .dead) :
    List.Sublist (sentAudio w.port.wire) w.handed ∧
      w.session.outbound.sentBytes = (sentAudio w.port.wire).length ∧
      w.offered = w.session.outbound.pausedBytes + w.session.outbound.mediaDroppedBytes +
        w.session.outbound.ring.size + w.session.outbound.buffer.size +
        w.session.outbound.sentBytes + w.session.outbound.bufferDroppedBytes := by
  have hconserved : w.Conserved :=
    hrun.invariant (conserved_create hcreate) fun _ s hv _ => conserved_step hv s
  rcases hconserved halive with ⟨-, hbalanced⟩
  refine ⟨hbalanced.books.1.delivered_sublist, hbalanced.sent, ?_⟩
  have hbooks := hbalanced.books.2
  rw [SendBuffer.size_eq, hbalanced.sent]
  exact hbooks

/-- The pool of `Sample` cut down to one slab of four bytes, so that the buffer has to drop. -/
def tightFork : World UInt8 Sample.slabBytes :=
  (World.create Sample.params Sample.tuning true { available := 1, calls := 0 }).get rfl

theorem create_tightFork :
    World.create Sample.params Sample.tuning true { available := 1, calls := 0 } = some tightFork :=
  rfl

theorem outbound_conserved_tight :
    let w := exec (step Sample.env) tightFork
      [.start, .pushAudio [1, 2, 3, 4, 5, 6], .pump, .setPaused true, .pushAudio [7],
        .setPaused false, .onConnected 0, .pushAudio [8, 9], .pump, .pushAudio [10]]
    w.handed = [1, 2, 3, 4, 5, 6, 8, 9, 10] ∧ sentAudio w.port.wire = [5, 6, 8, 9] ∧
      w.session.outbound.bufferDroppedBytes = 4 ∧
      List.Sublist (sentAudio w.port.wire) w.handed ∧
      w.session.outbound.sentBytes = (sentAudio w.port.wire).length ∧
      w.offered = w.session.outbound.pausedBytes + w.session.outbound.mediaDroppedBytes +
        w.session.outbound.ring.size + w.session.outbound.buffer.size +
        w.session.outbound.sentBytes + w.session.outbound.bufferDroppedBytes :=
  ⟨by decide +kernel, by decide +kernel, by decide +kernel,
    outbound_conserved create_tightFork (Run.of_exec (by decide)) (by decide +kernel)⟩

end Session
end AudioFork
