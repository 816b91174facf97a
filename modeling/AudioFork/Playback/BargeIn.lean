import AudioFork.Lib.LossyPipe
import AudioFork.Playback.Threads

/-!
# BargeIn — a clear between two threads

A clear has to reach audio in three places: in the jitter buffer, which it empties; in the ring,
which the media thread empties when it finds that the generation has moved; and in a read that is
under way.  This module follows both directions of that.

* Nothing interrupted comes back: a read that begins after a clear is complete returns no byte that
  was admitted before it.
* The next turn should survive: what is admitted after the mark that re-arms playback should be
  returned or still be on its way.  The discard does not know where the interrupted audio ends, so
  this needs the media thread to have taken note of the clear before the shard hands over again.
-/

namespace AudioFork
namespace Playback

open Buffers Session Lib Protocol

variable {β : Type} {S : ℕ+}

namespace Threads

/-- The ring and the jitter buffer as one lossy pipe. -/
def pipe (t : Threads β S) : Pipe β :=
  { offered := t.admitted
    back := t.path.jitter.content
    front := t.path.ring.bytes
    delivered := t.returned }

/-- What is on its way to the media thread, oldest first. -/
def inFlight (t : Threads β S) : List β := t.path.ring.bytes ++ t.path.jitter.content

/-- What `OnBinary` admits goes to the end of the jitter buffer. -/
theorem onBinary_spec (others : Nat → Nat → Nat) (handoffBytes : Nat) (t : Threads β S)
    (bytes : List β) :
    ∃ new, (t.step others handoffBytes (.onBinary bytes)).admitted = t.admitted ++ new ∧
      (t.step others handoffBytes (.onBinary bytes)).path.jitter.content =
        t.path.jitter.content ++ new :=
  ⟨_, rfl, (JitterBuffer.append_spec others t.path.jitter t.supply bytes).2⟩

/-- The media thread has a clear to take note of, or is emptying the ring because of one. -/
def stale (t : Threads β S) : Bool :=
  t.generation != t.mediaGeneration ||
    match t.reader with
    | .discarding _ _ => true
    | _ => false

end Threads

/-! ## Nothing interrupted comes back -/

/-- What a read under way knows.  If it found the generation it knew, what it may pop was admitted
after its floor. -/
def Reader.Ok (t : Threads β S) : Reader → Prop
  | .idle => True
  | .loaded count generation floor =>
      count ≠ 0 ∧ t.mediaGeneration ≤ generation ∧ generation ≤ t.generation ∧
        floor ≤ t.admitted.length ∧
        (generation = t.mediaGeneration → Since t.admitted floor t.inFlight)
  | .discarding count floor => count ≠ 0 ∧ floor ≤ t.admitted.length

structure Fresh (t : Threads β S) : Prop where
  sound : t.pipe.Sound
  known : t.mediaGeneration ≤ t.generation
  jitter : Since t.admitted t.cleared t.path.jitter.content
  emptied : t.shard = .clearing → t.path.jitter.content = []
  ring : t.stale = false → Since t.admitted t.cleared t.inFlight
  reader : t.reader.Ok t
  reads : ∀ r ∈ t.reads, Since t.admitted r.1 r.2

/-- The generations, the media thread and the history, which the shard's handover leaves alone. -/
def Threads.frame (t : Threads β S) : Nat × Nat × Reader × List β × Nat × List (Nat × List β) :=
  (t.generation, t.mediaGeneration, t.reader, t.admitted, t.cleared, t.reads)

namespace Fresh

variable {others : Nat → Nat → Nat} {handoffBytes : Nat} {t t' : Threads β S}

/-- Steps that only move audio along, or lose some. -/
theorem shed (h : Fresh t) (hframe : t'.frame = t.frame)
    (hflight : List.Sublist t'.inFlight t.inFlight)
    (hjitter : List.Sublist t'.path.jitter.content t.path.jitter.content)
    (hemptied : t'.shard = .clearing → t'.path.jitter.content = []) : Fresh t' := by
  rcases t' with ⟨path, supply, generation, mediaGeneration, shard, reader, admitted, cleared, armed,
    reads⟩
  simp only [Threads.frame, Prod.mk.injEq] at hframe
  rcases hframe with ⟨rfl, rfl, rfl, rfl, rfl, rfl⟩
  exact
    { sound := h.sound.shrink hflight
      known := h.known
      jitter := h.jitter.shed hjitter
      emptied := hemptied
      ring := fun hstale => (h.ring hstale).shed hflight
      reader := by
        have hreader := h.reader
        revert hreader
        show t.reader.Ok t → t.reader.Ok _
        cases t.reader with
        | idle => exact id
        | loaded count generation floor =>
            rintro ⟨hcount, hlow, hhigh, hfloor, hsince⟩
            exact ⟨hcount, hlow, hhigh, hfloor, fun heq => (hsince heq).shed hflight⟩
        | discarding count floor => exact id
      reads := h.reads }

theorem onBinary (h : Fresh t) (bytes : List β) :
    Fresh (t.step others handoffBytes (.onBinary bytes)) := by
  rcases t.onBinary_spec others handoffBytes bytes with ⟨new, hadmitted, hjitter⟩
  let t' := t.step others handoffBytes (.onBinary bytes)
  have hadmitted : t'.admitted = t.admitted ++ new := hadmitted
  have hjitter : t'.path.jitter.content = t.path.jitter.content ++ new := hjitter
  have hflight : t'.inFlight = t.inFlight ++ new := by
    show t.path.ring.bytes ++ t'.path.jitter.content = _
    rw [hjitter, ← List.append_assoc]
    rfl
  exact
    { sound := by
        have hoffer := h.sound.offer new
        show Pipe.Sound { t.pipe with offered := t'.admitted, back := t'.path.jitter.content }
        rw [hadmitted, hjitter]
        exact hoffer
      known := h.known
      jitter := by
        show Since t'.admitted t.cleared t'.path.jitter.content
        rw [hadmitted, hjitter]
        exact h.jitter.offer new
      emptied := by
        intro hclearing
        cases hclearing
      ring := by
        intro hstale
        show Since t'.admitted t.cleared t'.inFlight
        rw [hadmitted, hflight]
        exact (h.ring hstale).offer new
      reader := by
        have hreader := h.reader
        revert hreader
        show t.reader.Ok t → t.reader.Ok t'
        have hlonger : t.admitted.length ≤ t'.admitted.length := by
          rw [hadmitted, List.length_append]
          exact Nat.le_add_right _ _
        cases t.reader with
        | idle => exact id
        | loaded count generation floor =>
            rintro ⟨hcount, hlow, hhigh, hfloor, hsince⟩
            refine ⟨hcount, hlow, hhigh, hfloor.trans hlonger, ?_⟩
            intro heq
            rw [hadmitted, hflight]
            exact (hsince heq).offer new
        | discarding count floor =>
            rintro ⟨hcount, hfloor⟩
            exact ⟨hcount, hfloor.trans hlonger⟩
      reads := by
        intro r hr
        show Since t'.admitted r.1 r.2
        rw [hadmitted]
        exact (h.reads r hr).grow new }

/-- The handover keeps what is in flight. -/
theorem inFlight_push (others : Nat → Nat → Nat) (handoffBytes : Nat) (t : Threads β S) :
    (t.step others handoffBytes .push).inFlight = t.inFlight ∧
      List.Sublist (t.step others handoffBytes .push).path.jitter.content t.path.jitter.content ∧
      (t.step others handoffBytes .push).frame = t.frame ∧
      (t.step others handoffBytes .push).shard = t.shard := by
  cases hround : t.path.transferOnce handoffBytes t.supply with
  | none =>
      rw [Threads.step_push_stuck others handoffBytes hround]
      exact ⟨rfl, .refl _, rfl, rfl⟩
  | some next =>
      rcases next with ⟨path, supply⟩
      rcases PlaybackPath.transferOnce_spec hround with ⟨-, hcontent, hring, -, -⟩
      rw [Threads.step_push others handoffBytes hround]
      refine ⟨?_, ?_, rfl, rfl⟩
      · simp only [Threads.inFlight]
        rw [hring, hcontent, List.append_assoc]
      · rw [hcontent]
        exact List.sublist_append_right _ _

theorem bumpGeneration (h : Fresh t) (hshard : t.shard = .clearing) :
    Fresh (t.step others handoffBytes .bumpGeneration) where
  sound := h.sound
  known := Nat.le_succ_of_le h.known
  jitter := by
    show Since t.admitted t.admitted.length t.path.jitter.content
    rw [h.emptied hshard]
    exact Since.now t.admitted
  emptied := by
    intro hclearing
    cases hclearing
  ring := by
    -- the media thread has yet to hear of the new generation
    intro hstale
    have hsame : t.generation + 1 = t.mediaGeneration := by
      simpa [Threads.stale, Threads.step] using (Bool.or_eq_false_iff.mp hstale).1
    exact absurd h.known (by omega)
  reader := by
    have hreader := h.reader
    revert hreader
    show t.reader.Ok t → t.reader.Ok _
    cases t.reader with
    | idle => exact id
    | loaded count generation floor =>
        rintro ⟨hcount, hlow, hhigh, hfloor, hsince⟩
        exact ⟨hcount, hlow, Nat.le_succ_of_le hhigh, hfloor, hsince⟩
    | discarding count floor => exact id
  reads := h.reads

theorem readBegin (h : Fresh t) {count : Nat} (hreader : t.reader = .idle) (hcount : count ≠ 0) :
    Fresh (t.step others handoffBytes (.readBegin count)) where
  sound := h.sound
  known := h.known
  jitter := h.jitter
  emptied := h.emptied
  ring := by
    intro hstale
    refine h.ring ?_
    simpa [Threads.stale, Threads.step, hreader] using hstale
  reader := by
    refine ⟨hcount, h.known, Nat.le_refl _, h.jitter.le, ?_⟩
    -- the floor of the read is the last clear, and the ring is not stale if it finds no newer one
    intro hcurrent
    refine h.ring ?_
    have hsame : t.generation = t.mediaGeneration := hcurrent
    simp [Threads.stale, hreader, hsame]
  reads := h.reads

theorem readStore (h : Fresh t) (henabled : t.enabled .readStore = true) :
    Fresh (t.step others handoffBytes .readStore) := by
  rcases Threads.readStore_cases others handoffBytes henabled with
    ⟨count, generation, floor, hreader, -, hstep⟩
  have hok : Reader.Ok t (.loaded count generation floor) := hreader ▸ h.reader
  rcases hok with ⟨hcount, -, hhigh, hfloor, -⟩
  rw [hstep]
  exact
    { sound := h.sound
      known := hhigh
      jitter := h.jitter
      emptied := h.emptied
      ring := by
        -- until the discard loop has run dry the ring counts as stale
        intro hstale
        simp [Threads.stale] at hstale
      reader := ⟨hcount, hfloor⟩
      reads := h.reads }

theorem returned_append (t : Threads β S) (floor : Nat) (bytes : List β) :
    (t.reads ++ [(floor, bytes)]).flatMap Prod.snd = t.returned ++ bytes := by
  simp [Threads.returned]

theorem readPop (h : Fresh t) {count floor : Nat}
    (hreader : t.reader = .loaded count t.mediaGeneration floor) : Fresh (t.readPop count floor) := by
  have hok : Reader.Ok t (.loaded count t.mediaGeneration floor) := hreader ▸ h.reader
  rcases hok with ⟨-, -, -, -, hsince⟩
  have hsplit : t.path.ring.bytes =
      t.path.ring.bytes.take count ++ t.path.ring.bytes.drop count :=
    (List.take_append_drop count _).symm
  have hflight : List.Sublist (t.readPop count floor).inFlight t.inFlight :=
    List.Sublist.append (List.drop_sublist count _) (.refl _)
  exact
    { sound := by
        have hdeliver := h.sound.deliver hsplit
        show List.Sublist ((t.reads ++ [(floor, t.path.ring.bytes.take count)]).flatMap Prod.snd ++
          _) t.admitted
        rw [returned_append]
        exact hdeliver
      known := h.known
      jitter := h.jitter
      emptied := h.emptied
      ring := by
        intro hstale
        refine (h.ring ?_).shed hflight
        simpa [Threads.stale, Threads.readPop, hreader] using hstale
      reader := trivial
      reads := by
        intro r hr
        rcases List.mem_append.mp hr with hold | hnew
        · exact h.reads r hold
        · obtain rfl := List.mem_singleton.mp hnew
          -- the frame comes from the front of what is in flight
          refine (hsince rfl).shed ?_
          exact (List.take_sublist count _).trans (List.sublist_append_left _ _) }

theorem discardPop (h : Fresh t) {count floor : Nat}
    (hreader : t.reader = .discarding count floor) : Fresh (t.discardPop count floor) := by
  have hok : Reader.Ok t (.discarding count floor) := hreader ▸ h.reader
  rcases hok with ⟨hcount, hfloor⟩
  have hflight : List.Sublist (t.path.ring.bytes.drop count ++ t.path.jitter.content) t.inFlight :=
    List.Sublist.append (List.drop_sublist count _) (.refl _)
  unfold Threads.discardPop
  simp only
  split
  · rename_i hempty
    -- an empty pop into a frame that is not empty: so is the ring
    have hring : t.path.ring.bytes = [] := by
      simpa [hcount] using hempty
    exact
      { sound := by
          show List.Sublist ((t.reads ++ [(floor, [])]).flatMap Prod.snd ++ _) t.admitted
          rw [returned_append, List.append_nil]
          exact h.sound.shrink hflight
        known := h.known
        jitter := h.jitter
        emptied := h.emptied
        ring := by
          intro _
          show Since t.admitted t.cleared (t.path.ring.bytes.drop count ++ t.path.jitter.content)
          rw [hring, List.drop_nil, List.nil_append]
          exact h.jitter
        reader := trivial
        reads := by
          intro r hr
          rcases List.mem_append.mp hr with hold | hnew
          · exact h.reads r hold
          · obtain rfl := List.mem_singleton.mp hnew
            exact ⟨hfloor, List.nil_sublist _⟩ }
  · exact h.shed rfl hflight (.refl _) h.emptied

theorem step (h : Fresh t) {m : Micro β} (hm : t.enabled m = true) :
    Fresh (t.step others handoffBytes m) := by
  cases m with
  | onBinary bytes => exact h.onBinary bytes
  | pump =>
      refine h.shed rfl (.refl _) (.refl _) ?_
      intro hclearing
      cases hclearing
  | push =>
      rcases inFlight_push others handoffBytes t with ⟨hflight, hjitter, hframe, hshard⟩
      refine h.shed hframe ?_ hjitter ?_
      · rw [hflight]
      · intro hclearing
        rw [hshard] at hclearing
        simp [Threads.enabled, hclearing] at hm
  | pumpEnd =>
      refine h.shed rfl (.refl _) (.refl _) ?_
      intro hclearing
      cases hclearing
  | clearBuffer =>
      -- the ring keeps the interrupted audio: it becomes stale only with the generation
      refine h.shed rfl ?_ ?_ ?_
      · exact List.Sublist.append (.refl _) (List.nil_sublist _)
      · exact List.nil_sublist _
      · exact fun _ => rfl
  | bumpGeneration => exact h.bumpGeneration (by simpa [Threads.enabled] using hm)
  | mark name =>
      have hcontent : (t.path.jitter.addMark name).content = t.path.jitter.content :=
        JitterBuffer.content_addMark _ name
      refine h.shed rfl ?_ ?_ ?_
      · show List.Sublist (t.path.ring.bytes ++ (t.path.jitter.addMark name).content) _
        rw [hcontent]
        exact .refl _
      · show List.Sublist (t.path.jitter.addMark name).content _
        rw [hcontent]
      · intro hclearing
        have hshard : t.shard = .clearing := hclearing
        simp [Threads.enabled, hshard] at hm
  | readBegin count =>
      have hidle : t.reader = .idle ∧ count ≠ 0 := by simpa [Threads.enabled] using hm
      exact h.readBegin hidle.1 hidle.2
  | readStore => exact h.readStore hm
  | readPop =>
      rcases Threads.readPop_cases others handoffBytes hm with ⟨count, floor, hreader, hstep⟩
      rw [hstep]
      exact h.readPop hreader
  | discardPop =>
      rcases Threads.discardPop_cases others handoffBytes hm with ⟨count, floor, hreader, hstep⟩
      rw [hstep]
      exact h.discardPop hreader
  | supplyMoves supply => exact h.shed rfl (.refl _) (.refl _) h.emptied

end Fresh

/-- A path with nothing in it. -/
structure Empty (path : PlaybackPath β S) : Prop where
  jitter : path.jitter.content = []
  ring : path.ring.bytes = []

section

variable {others : Nat → Nat → Nat} {handoffBytes : Nat} {path : PlaybackPath β S}
  {supply : SlabSupply} {t : Threads β S}

theorem fresh_initial (h : Empty path) : Fresh (Threads.initial path supply) where
  sound := by
    show List.Sublist ([] ++ (path.ring.bytes ++ path.jitter.content)) []
    rw [h.jitter, h.ring]
    exact .refl _
  known := Nat.le_refl 0
  jitter := by
    show Since [] 0 path.jitter.content
    rw [h.jitter]
    exact Since.now []
  emptied := by
    intro hclearing
    cases hclearing
  ring := by
    intro _
    show Since [] 0 (path.ring.bytes ++ path.jitter.content)
    rw [h.jitter, h.ring]
    exact Since.now []
  reader := trivial
  reads := by
    intro r hr
    cases hr

theorem fresh_of_run (h : Empty path) (hrun : Runs others handoffBytes (.initial path supply) t) :
    Fresh t :=
  hrun.invariant (fresh_initial h) fun _ _ hfresh hm => hfresh.step hm

/-- A session starts with an empty path. -/
theorem empty_create {params : ForkParams} {tuning : Tuning} {onFinished : Bool} {w : World β S}
    (hcreate : World.create params tuning onFinished supply = some w)
    (hpath : w.session.playback.path = some path) : Empty path := by
  rcases World.create_spec hcreate with ⟨ring, path', rate, channels, -, -, hempty, rfl⟩
  exact ⟨(hempty path hpath).1, (hempty path hpath).2⟩

/-- So whatever holds of the threads holds of the playback path of a session that is alive. -/
theorem fresh_session {env : Env β} {params : ForkParams} {tuning : Tuning} {onFinished : Bool}
    {w₀ w : World β S} (hcreate : World.create params tuning onFinished supply = some w₀)
    (hpath : w₀.session.playback.path = some path)
    (hrun : Run (Session.step env) (fun _ _ => True) w₀ w) (halive : w.session.state ≠ .dead) :
    ∃ t, Fresh t ∧ Matches tuning.playbackHandoffBytes t w := by
  rcases threads_of_run hcreate hpath hrun halive with ⟨t, hthreads, hmatches⟩
  exact ⟨t, fresh_of_run (empty_create hcreate hpath) hthreads, hmatches⟩

/-- What `ReadPlayback` returned is admitted audio in order; a read returns nothing that was admitted
before the last clear that was complete when the read began.  Where all bytes are told apart, that
means no byte twice and none from before the clear. -/
structure NoReplay (t : Threads β S) : Prop where
  order : List.Sublist t.returned t.admitted
  once : t.admitted.Nodup → t.returned.Nodup
  late : ∀ r ∈ t.reads, List.Sublist r.2 (t.admitted.drop r.1)
  never : t.admitted.Nodup → ∀ r ∈ t.reads, ∀ byte ∈ r.2, byte ∉ t.admitted.take r.1

theorem barge_in_never_replays (h : Empty path)
    (hrun : Runs others handoffBytes (.initial path supply) t) : NoReplay t := by
  have hfresh : Fresh t := fresh_of_run h hrun
  exact
    { order := hfresh.sound.delivered_sublist
      once := fun hnodup => hfresh.sound.delivered_sublist.nodup hnodup
      late := fun r hr => (hfresh.reads r hr).sublist
      never := fun hnodup r hr _ hbyte => (hfresh.reads r hr).not_mem_take hnodup hbyte }

end

/-- The playback path of the small fork. -/
def samplePath : PlaybackPath UInt8 Sample.slabBytes :=
  { jitter := .create 64
    ring := (SpscByteRing.create 16).get rfl }

/-- A clear between the push of interrupted audio and the read that would have played it. -/
theorem barge_in_never_replays_sample :
    let t := exec (Threads.step Sample.env.others 16) (Threads.initial samplePath Sample.supply)
      [.onBinary [1, 2, 3], .push, .readBegin 2, .pumpEnd, .readPop, .clearBuffer, .bumpGeneration,
        .readBegin 2, .mark [], .onBinary [4], .readStore, .discardPop, .discardPop, .push, .pumpEnd,
        .readBegin 2, .readPop]
    t.reads = [(0, [1, 2]), (3, []), (3, [4])] ∧ NoReplay t :=
  ⟨by decide +kernel, barge_in_never_replays ⟨rfl, rfl⟩ (Run.of_exec (by decide +kernel))⟩

/-! ## The next turn -/

/-- The shard hands audio over although the media thread has not dealt with the last clear: it will
empty the ring, whatever is in it by then. -/
def early (handoffBytes : Nat) (t : Threads β S) : Micro β → Bool
  | .push => t.stale && !t.path.stuck handoffBytes
  | _ => false

/-- Where the audio of the current turn is: all of it in the jitter buffer while there is a clear to
deal with, returned or in flight otherwise. -/
def Threads.turn (t : Threads β S) : List β :=
  if t.stale then t.path.jitter.content else t.returned ++ t.inFlight

structure TurnKept (t : Threads β S) : Prop where
  muted : t.shard = .clearing → t.armed = none
  kept : ∀ k, t.armed = some k → Kept t.admitted k t.turn

namespace TurnKept

variable {others : Nat → Nat → Nat} {handoffBytes : Nat} {t t' : Threads β S}

theorem turn_stale (h : t.stale = true) : t.turn = t.path.jitter.content := by
  unfold Threads.turn
  rw [if_pos h]

theorem turn_current (h : t.stale = false) : t.turn = t.returned ++ t.inFlight := by
  unfold Threads.turn
  rw [if_neg (by simp [h])]

/-- Steps that leave the turn as it is. -/
theorem same (h : TurnKept t) (hshard : t'.shard = .clearing → t.shard = .clearing)
    (harmed : t'.armed = t.armed) (hadmitted : t'.admitted = t.admitted)
    (hturn : t'.turn = t.turn) : TurnKept t' := by
  refine ⟨fun hclearing => harmed.trans (h.muted (hshard hclearing)), ?_⟩
  intro k hk
  rw [hadmitted, hturn]
  exact h.kept k (harmed ▸ hk)

theorem onBinary (h : TurnKept t) (bytes : List β) :
    TurnKept (t.step others handoffBytes (.onBinary bytes)) := by
  rcases t.onBinary_spec others handoffBytes bytes with ⟨new, hadmitted, hjitter⟩
  let t' := t.step others handoffBytes (.onBinary bytes)
  have hadmitted : t'.admitted = t.admitted ++ new := hadmitted
  have hjitter : t'.path.jitter.content = t.path.jitter.content ++ new := hjitter
  -- what is admitted joins the turn at its end, wherever that is
  have hturn : t'.turn = t.turn ++ new := by
    have hstale : t'.stale = t.stale := rfl
    cases hs : t.stale with
    | true => rw [turn_stale hs, turn_stale (hstale.trans hs), hjitter]
    | false =>
        rw [turn_current hs, turn_current (hstale.trans hs)]
        show t.returned ++ (t.path.ring.bytes ++ t'.path.jitter.content) = _
        rw [hjitter]
        simp only [Threads.inFlight, List.append_assoc]
  refine ⟨?_, ?_⟩
  · intro hclearing
    cases hclearing
  · intro k hk
    show Kept t'.admitted k t'.turn
    rw [hadmitted, hturn]
    exact (h.kept k hk).offer new

theorem push (h : TurnKept t) (hlate : early handoffBytes t .push = false) :
    TurnKept (t.step others handoffBytes .push) := by
  cases hround : t.path.transferOnce handoffBytes t.supply with
  | none =>
      rw [Threads.step_push_stuck others handoffBytes hround]
      exact h
  | some next =>
      rcases next with ⟨path, supply⟩
      rcases Fresh.inFlight_push others handoffBytes t with ⟨hflight, -, -, -⟩
      -- the handover moved something, so no clear is pending
      have hmoves : t.path.stuck handoffBytes = false :=
        PlaybackPath.not_stuck_of_transferOnce hround
      have hstale : t.stale = false := by simpa [early, hmoves] using hlate
      rw [Threads.step_push others handoffBytes hround] at hflight ⊢
      refine h.same id rfl rfl ?_
      rw [turn_current hstale, turn_current (t := { t with path := path, supply := supply }) hstale,
        hflight]
      rfl

theorem mark (h : TurnKept t) (name : Text) (hshard : t.shard = .idle) :
    TurnKept (t.step others handoffBytes (.mark name)) := by
  have hturn : (t.step others handoffBytes (.mark name)).turn = t.turn := by
    have hcontent : (t.path.jitter.addMark name).content = t.path.jitter.content :=
      JitterBuffer.content_addMark _ name
    unfold Threads.turn
    show (if t.stale then (t.path.jitter.addMark name).content
      else t.returned ++ (t.path.ring.bytes ++ (t.path.jitter.addMark name).content)) = _
    rw [hcontent]
    rfl
  refine ⟨?_, ?_⟩
  · intro hclearing
    have hclearing : t.shard = .clearing := hclearing
    rw [hshard] at hclearing
    cases hclearing
  · intro k hk
    rw [hturn]
    have hk : some (t.armed.getD t.admitted.length) = some k := hk
    cases harmed : t.armed with
    | none =>
        -- the mark that re-arms playback starts the turn
        rw [harmed] at hk
        cases hk
        exact Kept.now t.admitted t.turn
    | some k' =>
        rw [harmed] at hk
        cases hk
        exact h.kept k' harmed

theorem readStore (h : TurnKept t) (hfresh : Fresh t) (henabled : t.enabled .readStore = true) :
    TurnKept (t.step others handoffBytes .readStore) := by
  rcases Threads.readStore_cases others handoffBytes henabled with
    ⟨count, generation, floor, hreader, hnew, hstep⟩
  have hok : Reader.Ok t (.loaded count generation floor) := hreader ▸ hfresh.reader
  rcases hok with ⟨-, hlow, hhigh, -, -⟩
  -- the generation moved past the one the media thread knew before this read
  have hstale : t.stale = true := by
    have hmoved : t.generation ≠ t.mediaGeneration := by omega
    simp [Threads.stale, hmoved]
  rw [hstep]
  refine h.same id rfl rfl ?_
  rw [turn_stale hstale, turn_stale (by simp [Threads.stale])]

theorem readPop (h : TurnKept t) {count generation floor : Nat}
    (hreader : t.reader = .loaded count generation floor) : TurnKept (t.readPop count floor) := by
  refine h.same id rfl rfl ?_
  have hsame : (t.readPop count floor).stale = t.stale := by
    simp [Threads.stale, Threads.readPop, hreader]
  cases hs : t.stale with
  | true => rw [turn_stale hs, turn_stale (hsame.trans hs)]; rfl
  | false =>
      rw [turn_current hs, turn_current (hsame.trans hs)]
      show (t.reads ++ [(floor, t.path.ring.bytes.take count)]).flatMap Prod.snd ++
        (t.path.ring.bytes.drop count ++ t.path.jitter.content) = _
      rw [Fresh.returned_append, List.append_assoc, ← List.append_assoc (t.path.ring.bytes.take count),
        List.take_append_drop]
      rfl

theorem discardPop (h : TurnKept t) {count floor : Nat}
    (hreader : t.reader = .discarding count floor) : TurnKept (t.discardPop count floor) := by
  have hstale : t.stale = true := by simp [Threads.stale, hreader]
  unfold Threads.discardPop
  simp only
  split
  · refine ⟨h.muted, ?_⟩
    intro k hk
    -- the ring held nothing of this turn, and from now on it may
    have hkept : Kept t.admitted k t.path.jitter.content := turn_stale hstale ▸ h.kept k hk
    unfold Threads.turn
    split
    · exact hkept
    · exact (hkept.behind _).behind _
  · refine h.same id rfl rfl ?_
    rw [turn_stale hstale, turn_stale (by simp [Threads.stale, hreader])]

theorem step (h : TurnKept t) (hfresh : Fresh t) {m : Micro β} (hm : t.enabled m = true)
    (hlate : early handoffBytes t m = false) : TurnKept (t.step others handoffBytes m) := by
  cases m with
  | onBinary bytes => exact h.onBinary bytes
  | pump =>
      refine h.same ?_ rfl rfl rfl
      intro hclearing
      cases hclearing
  | push => exact h.push hlate
  | pumpEnd =>
      refine h.same ?_ rfl rfl rfl
      intro hclearing
      cases hclearing
  | clearBuffer =>
      refine ⟨fun _ => rfl, ?_⟩
      intro k hk
      cases hk
  | bumpGeneration =>
      -- no turn is under way between a clear and the next mark
      have hnone : t.armed = none := h.muted (by simpa [Threads.enabled] using hm)
      refine ⟨fun _ => hnone, ?_⟩
      intro k hk
      have hsome : t.armed = some k := hk
      rw [hnone] at hsome
      cases hsome
  | mark name => exact h.mark name (by simpa [Threads.enabled] using hm)
  | readBegin count =>
      have hidle : t.reader = .idle := by
        have hboth : t.reader = .idle ∧ count ≠ 0 := by simpa [Threads.enabled] using hm
        exact hboth.1
      refine h.same id rfl rfl ?_
      have hsame : (t.step others handoffBytes (.readBegin count)).stale = t.stale := by
        simp [Threads.stale, Threads.step, hidle]
      unfold Threads.turn
      rw [hsame]
      rfl
  | readStore => exact h.readStore hfresh hm
  | readPop =>
      rcases Threads.readPop_cases others handoffBytes hm with ⟨count, floor, hreader, hstep⟩
      rw [hstep]
      exact h.readPop hreader
  | discardPop =>
      rcases Threads.discardPop_cases others handoffBytes hm with ⟨count, floor, hreader, hstep⟩
      rw [hstep]
      exact h.discardPop hreader
  | supplyMoves supply => exact h.same id rfl rfl rfl

end TurnKept

section

variable {others : Nat → Nat → Nat} {handoffBytes : Nat} {path : PlaybackPath β S}
  {supply : SlabSupply} {t : Threads β S}

theorem turnKept_initial : TurnKept (Threads.initial path supply) := by
  refine ⟨?_, ?_⟩
  · intro hclearing
    cases hclearing
  · intro k hk
    cases hk
    exact Kept.now [] _

/-- Everything admitted since playback was armed is returned, in the ring or in the jitter buffer. -/
def NextTurnKept (t : Threads β S) : Prop :=
  ∀ k, t.armed = some k →
    t.admitted.drop k <:+ t.returned ++ (t.path.ring.bytes ++ t.path.jitter.content)

theorem next_turn_survives (h : Empty path)
    (hrun : Run (Threads.step others handoffBytes)
      (fun t m => t.enabled m = true ∧ early handoffBytes t m = false) (.initial path supply) t) :
    NextTurnKept t := by
  have hfresh : ∀ a, Run (Threads.step others handoffBytes)
      (fun t m => t.enabled m = true ∧ early handoffBytes t m = false)
      (.initial path supply) a → Fresh a := fun a ha =>
    fresh_of_run h (ha.mono fun _ _ hboth => hboth.1)
  have hkept : TurnKept t := by
    refine hrun.invariant_with (J := Fresh) hfresh turnKept_initial ?_
    intro a m hfresh hkept hboth
    exact hkept.step hfresh hboth.1 hboth.2
  intro k hk
  have hturn := hkept.kept k hk
  unfold Threads.turn at hturn
  split at hturn
  · exact ((hturn.behind t.path.ring.bytes).behind t.returned).suffix
  · exact hturn.suffix

end

/-- The media thread reads between the clear and the next turn. -/
theorem next_turn_survives_sample :
    let t := exec (Threads.step Sample.env.others 16) (Threads.initial samplePath Sample.supply)
      [.onBinary [1], .push, .pumpEnd, .clearBuffer, .bumpGeneration, .readBegin 2, .readStore,
        .discardPop, .mark [], .discardPop, .onBinary [2], .push, .pumpEnd]
    t.armed = some 1 ∧ t.inFlight = [2] ∧ NextTurnKept t :=
  ⟨by decide +kernel, by decide +kernel,
    next_turn_survives ⟨rfl, rfl⟩ (Run.of_exec (by decide +kernel))⟩

/-- Without a read in between, the next one finds the generation moved and empties the ring, the
audio of the new turn included. -/
theorem stale_clear_eats_next_turn :
    let t := exec (Threads.step Sample.env.others 16) (Threads.initial samplePath Sample.supply)
      [.onBinary [1], .push, .pumpEnd, .clearBuffer, .bumpGeneration, .mark [], .onBinary [2], .push,
        .pumpEnd, .readBegin 4, .readStore, .discardPop, .discardPop]
    Runs Sample.env.others 16 (Threads.initial samplePath Sample.supply) t ∧
      t.armed = some 1 ∧ t.admitted = [1, 2] ∧ t.returned = [] ∧ t.inFlight = [] ∧
      ¬ NextTurnKept t := by
  refine ⟨Run.of_exec (by decide +kernel), by decide +kernel, by decide +kernel, by decide +kernel,
    by decide +kernel, ?_⟩
  intro h
  have hsuffix := h 1 (by decide +kernel)
  revert hsuffix
  decide +kernel

-- The same order of calls on a whole session: the byte of the new turn is nowhere.
example :
    let w := exec (Session.step Sample.env) Sample.fork
      [.start, .onConnected 0, .onBinary 0 [1], .onText 0 Sample.clearText,
        .onText 0 Sample.markText, .onBinary 0 [2], .readPlayback 4]
    w.session.playback.path.map (fun path => (path.ring.bytes, path.jitter.content)) =
        some ([], []) ∧
      w.session.playback.bytesPlayed = 0 := by
  decide +kernel

end Playback
end AudioFork
