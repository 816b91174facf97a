import AudioFork.Buffers.Marks
import AudioFork.Session.AfterDeath
import AudioFork.Session.FlowControl
import AudioFork.Session.Setup
import AudioFork.Session.Stock

/-!
# Backpressure — one connection loses no audio

The jitter buffer is as large as two high watermarks.  `PumpPlayback` pauses the socket from the first
of them on, so while the flag is down there is room for a message of the size of the other
(`Inbound.Level`).  If the socket was told what the flag says (`Inbound.Informed`), messages of that size
are therefore never cut, and without barge-ins every byte received is played, in the ring or in the
buffer (`Inbound.Accounted`).

The first connection is always told.  A connection adopted while the flag is up is not, and it
overflows the buffer.
-/

namespace AudioFork
namespace Session

open Buffers Protocol Lib

variable {β : Type} {S : ℕ+}

/-- `in_flight` of `PumpPlayback`: received and not played yet. -/
def Playback.inFlight (p : Playback β S) : Nat :=
  match p.path with
  | none => 0
  | some path => path.jitter.size + path.ring.size

theorem Playback.inFlight_some {p : Playback β S} {path : PlaybackPath β S}
    (h : p.path = some path) : p.inFlight = path.jitter.size + path.ring.size := by
  unfold inFlight
  rw [h]

/-! ## The handover -/

/-- A path that has handed audio over: the same bytes in all, under the same cap. -/
structure PlaybackPath.Hands (path path' : PlaybackPath β S) : Prop where
  total : path'.jitter.size + path'.ring.size = path.jitter.size + path.ring.size
  cap : path'.jitter.capBytes = path.jitter.capBytes
  muted : path'.jitter.muted = path.jitter.muted

theorem PlaybackPath.hands_transfer (handoffBytes fuel : Nat) (path : PlaybackPath β S)
    (p : SlabSupply) : path.Hands (path.transfer handoffBytes fuel p).1 := by
  refine transfer_invariant (P := fun q _ => path.Hands q) ?_ fuel ⟨rfl, rfl, rfl⟩
  intro q q' p p' h hround
  rcases transferOnce_spec hround with ⟨-, hcontent, hring, -, hjitter⟩
  have hcontents := congrArg List.length hcontent
  have hrings := congrArg List.length hring
  rw [List.length_append] at hcontents hrings
  have htotal : q'.jitter.size + q'.ring.size = q.jitter.size + q.ring.size := by
    rw [JitterBuffer.size_eq, JitterBuffer.size_eq, SpscByteRing.size, SpscByteRing.size]
    omega
  refine ⟨htotal.trans h.total, ?_, ?_⟩
  · rw [hjitter]
    exact h.cap
  · rw [hjitter]
    exact h.muted

theorem World.hands_pumped (w : World β S) (path : PlaybackPath β S) :
    path.Hands (w.pumped path).1 := by
  have hmoved := PlaybackPath.hands_transfer w.session.tuning.playbackHandoffBytes path.jitter.size
    path w.supply
  exact ⟨hmoved.total, hmoved.cap, hmoved.muted⟩

namespace Inbound

/-- The same counters over a path that has handed audio over. -/
structure Hands (k k' : Inbound β S) : Prop where
  received : k'.playback.bytesReceived = k.playback.bytesReceived
  played : k'.playback.bytesPlayed = k.playback.bytesPlayed
  dropped : k'.playback.bytesDropped = k.playback.bytesDropped
  generation : k'.playback.generation = k.playback.generation
  mediaGeneration : k'.playback.mediaGeneration = k.playback.mediaGeneration
  tuning : k'.tuning = k.tuning
  path : k.playback.path = none ∧ k'.playback.path = none ∨
    ∃ path path', k.playback.path = some path ∧ k'.playback.path = some path' ∧ path.Hands path'

theorem Hands.inFlight {k k' : Inbound β S} (h : Hands k k') :
    k'.playback.inFlight = k.playback.inFlight := by
  rcases h.path with ⟨hbefore, hafter⟩ | ⟨path, path', hbefore, hafter, hpath⟩
  · unfold Playback.inFlight
    rw [hbefore, hafter]
  · rw [Playback.inFlight_some hbefore, Playback.inFlight_some hafter, hpath.total]

end Inbound

theorem World.hands_pumpPlayback (w : World β S) : w.inbound.Hands w.pumpPlayback.inbound := by
  cases hpath : w.session.playback.path with
  | none =>
      rw [pumpPlayback_none hpath]
      exact ⟨rfl, rfl, rfl, rfl, rfl, rfl, Or.inl ⟨hpath, hpath⟩⟩
  | some path =>
      rcases pumpPlayback_writes hpath with ⟨_, _, _, _, hwrites⟩
      rw [hwrites]
      exact ⟨rfl, rfl, rfl, rfl, rfl, rfl, Or.inr ⟨path, _, hpath, rfl, hands_pumped w path⟩⟩

theorem World.hands_moveAudio (env : Env β) (w : World β S) :
    w.inbound.Hands (w.moveAudio env).inbound := by
  have hmove := hands_pumpPlayback (w.drainHandoffRing env)
  rw [inbound_drainHandoffRing] at hmove
  exact hmove

/-! ## Room for one message -/

namespace Inbound

/-- What `Create` fixes: a jitter buffer of two high watermarks. -/
def Fitted (k : Inbound β S) : Prop :=
  ∀ path, k.playback.path = some path →
    path.jitter.capBytes = k.tuning.playbackHighWatermarkBytes * 2 ∧
      0 < k.tuning.playbackHighWatermarkBytes

theorem Hands.fitted {k k' : Inbound β S} (h : Hands k k') (hfit : k.Fitted) : k'.Fitted := by
  intro path' hpath'
  rw [h.tuning]
  rcases h.path with ⟨-, hafter⟩ | ⟨path, p, hbefore, hafter, hpath⟩
  · cases hafter.symm.trans hpath'
  · cases hafter.symm.trans hpath'
    rw [hpath.cap]
    exact hfit path hbefore

/-- Connection `c` was told what the session goes by. -/
def Informed (c : Nat) (k : Inbound β S) : Prop :=
  k.playback.receivePaused = pausedOn k.receivePauses c

instance (c : Nat) (k : Inbound β S) : Decidable (k.Informed c) :=
  inferInstanceAs (Decidable (_ = _))

/-- While the flag is down the jitter buffer holds no more than the high watermark. -/
def Level (k : Inbound β S) : Prop :=
  k.playback.receivePaused = false → ∀ path, k.playback.path = some path →
    path.jitter.size ≤ k.tuning.playbackHighWatermarkBytes

end Inbound

namespace World

variable {env : Env β} {w : World β S} {c : Nat}

theorem informed_pumpPlayback (hconn : w.session.connection = some c) (h : w.inbound.Informed c) :
    w.pumpPlayback.inbound.Informed c := by
  cases hpath : w.session.playback.path with
  | none =>
      rw [pumpPlayback_none hpath]
      exact h
  | some path =>
      rw [pumpPlayback_some hpath, hconn]
      simp only
      unfold flowControl
      split
      · exact (pausedOn_same _ c true).symm
      · split
        · exact (pausedOn_same _ c false).symm
        · exact h

/-- Flow control restores the level from any fill. -/
theorem level_pumpPlayback (hconn : w.session.connection = some c)
    (hlow : w.session.tuning.playbackLowWatermarkBytes ≤
      w.session.tuning.playbackHighWatermarkBytes) : w.pumpPlayback.inbound.Level := by
  cases hpath : w.session.playback.path with
  | none =>
      rw [pumpPlayback_none hpath]
      intro _ path hsome
      cases hpath.symm.trans hsome
  | some path =>
      rw [pumpPlayback_some hpath, hconn]
      simp only
      let fill := (w.pumped path).1.jitter.size + (w.pumped path).1.ring.size
      have hbelow : fill ≤ w.session.tuning.playbackHighWatermarkBytes →
          ∀ p, some (w.pumped path).1 = some p →
            p.jitter.size ≤ w.session.tuning.playbackHighWatermarkBytes := by
        rintro hfill p ⟨⟩
        exact (Nat.le_add_right _ _).trans hfill
      unfold flowControl
      split
      · -- paused now: the level says nothing
        intro hflag
        cases hflag
      · rename_i hrun
        split
        · -- resumed, at the low watermark or below
          rename_i hresume
          exact fun _ => hbelow (hresume.2.trans hlow)
        · -- left running, so the high watermark is not reached
          intro hflag
          refine hbelow (Nat.le_of_lt ?_)
          by_contra hhigh
          exact hrun ⟨hflag, Nat.not_lt.mp hhigh⟩

theorem connection_drainHandoffRing (env : Env β) (hconn : w.session.connection = some c) :
    (w.drainHandoffRing env).session.connection = some c :=
  (congrArg Lifecycle.connection (lifecycle_drainHandoffRing env w)).trans hconn

theorem informed_moveAudio (env : Env β) (hconn : w.session.connection = some c)
    (h : w.inbound.Informed c) : (w.moveAudio env).inbound.Informed c := by
  refine informed_pumpPlayback (connection_drainHandoffRing env hconn) ?_
  rw [inbound_drainHandoffRing]
  exact h

theorem level_moveAudio (env : Env β) (hconn : w.session.connection = some c)
    (hlow : w.session.tuning.playbackLowWatermarkBytes ≤
      w.session.tuning.playbackHighWatermarkBytes) : (w.moveAudio env).inbound.Level := by
  have htuning : (w.drainHandoffRing env).session.tuning = w.session.tuning :=
    congrArg Inbound.tuning (inbound_drainHandoffRing env w)
  refine level_pumpPlayback (connection_drainHandoffRing env hconn) ?_
  rw [htuning]
  exact hlow

/-! ## One message -/

/-- A refusal counts as a loss only while the buffer is not muted. -/
theorem dropped_receive {path : PlaybackPath β S} {bytes : List β}
    (h : (path.jitter.append env.others w.supply bytes).1 = 0 ∨ path.jitter.muted = true) :
    (w.receive env path bytes).session.playback.bytesDropped = w.session.playback.bytesDropped := by
  have hcounted : ¬ ((path.jitter.append env.others w.supply bytes).1 > 0 ∧
      (path.jitter.append env.others w.supply bytes).2.1.muted = false) := by
    rcases JitterBuffer.append_writes env.others path.jitter w.supply bytes with ⟨_, _, hwrites⟩
    rw [hwrites]
    rintro ⟨hpos, hopen⟩
    rcases h with hnone | hmuted
    · omega
    · cases hmuted.symm.trans hopen
  unfold receive
  simp only
  rw [if_neg hcounted]
  split <;> rfl

/-- A message of at most the high watermark fits above the high watermark. -/
theorem append_fits {path : PlaybackPath β S} {bytes : List β} {high : Nat}
    (hcap : path.jitter.capBytes = high * 2) (hlevel : path.jitter.size ≤ high)
    (hbytes : bytes.length ≤ high) (hopen : path.jitter.muted = false)
    (hpool : false ∉ path.jitter.answers env.others w.supply bytes) :
    (path.jitter.append env.others w.supply bytes).1 = 0 := by
  have hroom : path.jitter.room = high * 2 - path.jitter.size := by
    rw [← hcap]
    rfl
  rw [JitterBuffer.append_granted env.others hopen hpool, hroom]
  omega

theorem fitted_receive (hfit : w.inbound.Fitted) {path : PlaybackPath β S}
    (hpath : w.session.playback.path = some path) (bytes : List β) :
    (w.receive env path bytes).inbound.Fitted := by
  rcases receive_writes env w path bytes with ⟨_, _, _, -, hwrites⟩
  rcases JitterBuffer.append_writes env.others path.jitter w.supply bytes with ⟨_, _, happend⟩
  rw [hwrites]
  rintro p ⟨⟩
  rw [happend]
  exact hfit path hpath

end World

/-! ## Any run keeps the cap -/

section

variable {env : Env β} {w : World β S}

theorem fitted_create {params : ForkParams} {tuning : Tuning} {onFinished : Bool}
    {supply : SlabSupply} (h : World.create params tuning onFinished supply = some w) :
    w.inbound.Fitted := by
  rcases World.create_eq h with ⟨_, path, _, _, -, -, hpath, rfl⟩
  intro p hp
  rcases hpath p hp with ⟨hjitter, -, hhigh⟩
  rw [hjitter]
  exact ⟨rfl, hhigh⟩

/-- Clearing keeps the cap. -/
theorem Inbound.Fitted.emptied {k : Inbound β S} (h : k.Fitted) (p : SlabSupply) :
    (k.emptied p).Fitted := by
  intro path' hpath'
  cases hpath : k.playback.path with
  | none =>
      simp only [Inbound.emptied, hpath] at hpath'
      cases hpath'
  | some path =>
      simp only [Inbound.emptied, hpath] at hpath'
      cases hpath'
      exact h path hpath

theorem capBytes_addMark (b : JitterBuffer β S) (name : Text) :
    (b.addMark name).capBytes = b.capBytes := by
  unfold JitterBuffer.addMark
  split <;> rfl

theorem fitted_step (h : w.inbound.Fitted) (s : Step β) : (step env w s).inbound.Fitted := by
  have hdeals := deals_step env w s
  generalize step env w s = v at hdeals ⊢
  cases hdeals with
  | leaves hstock =>
      rw [show v.inbound = w.inbound from congrArg Stock.inbound hstock]
      exact h
  | @pumps _ u hcall =>
      have hu : u.inbound = w.inbound := congrArg Stock.inbound (stock_pumpCall hcall)
      have hmoved := (World.hands_moveAudio env u).fitted (hu ▸ h)
      rcases World.inbound_pump env u with hsame | ⟨-, p, hended⟩
      · rw [hsame]
        exact hmoved
      · rw [hended]
        exact hmoved.emptied p
  | @hears path c bytes hpath =>
      exact (World.hands_pumpPlayback _).fitted (World.fitted_receive h hpath bytes)
  | reads count =>
      intro path' hpath'
      rcases w.session.playback.read_path count with ⟨-, hnone⟩ | ⟨path, ring, hpath, hread⟩
      · cases hnone.symm.trans hpath'
      · cases hread.symm.trans hpath'
        exact h path hpath
  | restarts sampleRate channels => exact h
  | @clears c text path hclear hpath =>
      rcases World.handleClear_writes w path with ⟨_, _, hwrites⟩
      rw [hwrites]
      rintro path' ⟨⟩
      exact h path hpath
  | @marks c text path name hpath =>
      rintro path' ⟨⟩
      rw [capBytes_addMark]
      exact h path hpath
  | ends _ _ hended =>
      rcases hended.emptied with ⟨p, hstock⟩
      rw [show v.inbound = w.inbound.emptied p from congrArg Stock.inbound hstock]
      exact h.emptied p

theorem fitted_run {params : ForkParams} {tuning : Tuning} {onFinished : Bool}
    {supply : SlabSupply} {guard : World β S → Step β → Prop} {w₀ : World β S}
    (hcreate : World.create params tuning onFinished supply = some w₀)
    (hrun : Run (step env) guard w₀ w) : w.inbound.Fitted :=
  hrun.invariant (I := fun v => v.inbound.Fitted) (fitted_create hcreate)
    fun _ s hv _ => fitted_step hv s

end

/-! ## A segment on one connection -/

/-- What the other side and the pool promise: no message is larger than the high watermark, none comes
while connection `c` is paused, and none is refused a slab. -/
def obeys (env : Env β) (c : Nat) (w : World β S) : Step β → Bool
  | .onBinary _ bytes =>
      decide (bytes.length ≤ w.session.tuning.playbackHighWatermarkBytes) &&
        !pausedOn w.port.receivePauses c &&
        w.session.playback.path.all fun path =>
          !(path.jitter.answers env.others w.supply bytes).contains false
  | _ => true

/-- The server clears the playback. -/
def clearing (env : Env β) : Step β → Bool
  | .onText _ text =>
      match parseServerMessage env.json text with
      | .clearPlayback => true
      | _ => false
  | _ => false

section

variable {env : Env β} {w : World β S} {c : Nat}

theorem obeys_onBinary {a : Nat} {bytes : List β} {path : PlaybackPath β S}
    (h : obeys env c w (.onBinary a bytes) = true) (hpath : w.session.playback.path = some path) :
    bytes.length ≤ w.session.tuning.playbackHighWatermarkBytes ∧
      pausedOn w.port.receivePauses c = false ∧
      false ∉ path.jitter.answers env.others w.supply bytes := by
  simpa [obeys, hpath, and_assoc] using h

/-- The message fits, or it is thrown away on purpose. -/
theorem receive_fits (hfit : w.inbound.Fitted) (hinformed : w.inbound.Informed c)
    (hlevel : w.inbound.Level) {a : Nat} {bytes : List β}
    (hobeys : obeys env c w (.onBinary a bytes) = true) {path : PlaybackPath β S}
    (hpath : w.session.playback.path = some path) :
    (path.jitter.append env.others w.supply bytes).1 = 0 ∨ path.jitter.muted = true := by
  rcases obeys_onBinary hobeys hpath with ⟨hbytes, hrunning, hpool⟩
  by_cases hmuted : path.jitter.muted = true
  · exact Or.inr hmuted
  · -- the socket runs, and so says the flag
    have hroom := hlevel (hinformed.trans hrunning) path hpath
    exact Or.inl (World.append_fits (hfit path hpath).1 hroom hbytes (by simpa using hmuted) hpool)

theorem informed_step (hconn : w.session.connection = some c) (h : w.inbound.Informed c) {s : Step β}
    (hstays : (step env w s).session.connection = some c) : (step env w s).inbound.Informed c := by
  have hdeals := deals_step env w s
  generalize step env w s = v at hdeals hstays ⊢
  cases hdeals with
  | leaves hstock =>
      have hsame : v.inbound = w.inbound := congrArg Stock.inbound hstock
      exact hsame ▸ h
  | @pumps _ u hcall =>
      have hu : u.inbound = w.inbound := congrArg Stock.inbound (stock_pumpCall hcall)
      have hmoved := World.informed_moveAudio env (World.connection_pump env hstays) (hu ▸ h)
      rw [World.inbound_pump_held env hstays]
      exact hmoved
  | @hears path a bytes hpath =>
      rcases World.receive_writes env w path bytes with ⟨_, _, _, -, hwrites⟩
      refine World.informed_pumpPlayback ?_ ?_
      · exact (congrArg Flow.connection (World.flow_receive env w path bytes)).trans hconn
      · rw [hwrites]
        exact h
  | reads count =>
      rcases World.readPlayback_writes w count with ⟨_, _, _, _, hwrites⟩
      rw [hwrites]
      exact h
  | restarts sampleRate channels => exact h
  | @clears a text path _ hpath =>
      -- a barge-in resumes the socket it finds paused
      unfold World.handleClear
      simp only [hconn]
      split
      · exact (pausedOn_same _ c false).symm
      · exact h
  | marks name hpath => exact h
  | ends _ _ hended => cases hended.unheld.symm.trans hstays

theorem level_step (hlow : w.session.tuning.playbackLowWatermarkBytes ≤
      w.session.tuning.playbackHighWatermarkBytes)
    (hconn : w.session.connection = some c) (h : w.inbound.Level) {s : Step β}
    (hstays : (step env w s).session.connection = some c) : (step env w s).inbound.Level := by
  have hdeals := deals_step env w s
  generalize step env w s = v at hdeals hstays ⊢
  cases hdeals with
  | leaves hstock =>
      have hsame : v.inbound = w.inbound := congrArg Stock.inbound hstock
      exact hsame ▸ h
  | @pumps _ u hcall =>
      have htuning : u.session.tuning = w.session.tuning :=
        congrArg (fun k => k.inbound.tuning) (stock_pumpCall hcall)
      have hmoved := World.level_moveAudio env (World.connection_pump env hstays)
        (by rw [htuning]; exact hlow)
      rw [World.inbound_pump_held env hstays]
      exact hmoved
  | @hears path a bytes hpath =>
      rcases World.receive_writes env w path bytes with ⟨_, _, _, -, hwrites⟩
      refine World.level_pumpPlayback (c := c) ?_ ?_
      · exact (congrArg Flow.connection (World.flow_receive env w path bytes)).trans hconn
      · rw [hwrites]
        exact hlow
  | reads count =>
      rcases World.readPlayback_writes w count with ⟨_, _, _, _, hwrites⟩
      intro hflag path' hpath'
      have hbefore : w.session.playback.receivePaused = false := by
        rw [hwrites] at hflag
        exact hflag
      rcases w.session.playback.read_path count with ⟨-, hnone⟩ | ⟨path, ring, hpath, hread⟩
      · cases hnone.symm.trans hpath'
      · cases hread.symm.trans hpath'
        exact h hbefore path hpath
  | restarts sampleRate channels => exact h
  | @clears a text path _ hpath =>
      rcases World.handleClear_writes w path with ⟨_, _, hwrites⟩
      rw [hwrites]
      rintro - p ⟨⟩
      exact Nat.zero_le _
  | @marks a text path name hpath =>
      rintro hflag p ⟨⟩
      show (path.jitter.addMark name).queue.size ≤ _
      rw [JitterBuffer.queue_addMark]
      exact h hflag path hpath
  | ends _ _ hended => cases hended.unheld.symm.trans hstays

/-- A step on the segment loses nothing. -/
theorem dropped_step (hfit : w.inbound.Fitted) (hinformed : w.inbound.Informed c)
    (hlevel : w.inbound.Level) {s : Step β}
    (hstays : (step env w s).session.connection = some c) (hobeys : obeys env c w s = true) :
    (step env w s).session.playback.bytesDropped = w.session.playback.bytesDropped := by
  have hdeals := deals_step env w s
  generalize step env w s = v at hdeals hstays ⊢
  cases hdeals with
  | leaves hstock => exact congrArg (fun k => k.inbound.playback.bytesDropped) hstock
  | @pumps _ u hcall =>
      have hu : u.inbound = w.inbound := congrArg Stock.inbound (stock_pumpCall hcall)
      calc (u.pump env).inbound.playback.bytesDropped
          = (u.moveAudio env).inbound.playback.bytesDropped := by
            rw [World.inbound_pump_held env hstays]
        _ = u.inbound.playback.bytesDropped := (World.hands_moveAudio env u).dropped
        _ = w.inbound.playback.bytesDropped := by rw [hu]
  | @hears path a bytes hpath =>
      -- the only step that can lose audio
      have hwhole := receive_fits hfit hinformed hlevel hobeys hpath
      exact (World.hands_pumpPlayback _).dropped.trans (World.dropped_receive hwhole)
  | reads count =>
      rcases World.readPlayback_writes w count with ⟨_, _, _, _, hwrites⟩
      rw [hwrites]
  | restarts sampleRate channels => rfl
  | @clears a text path _ hpath =>
      rcases World.handleClear_writes w path with ⟨_, _, hwrites⟩
      rw [hwrites]
  | marks name hpath => rfl
  | ends _ _ hended => cases hended.unheld.symm.trans hstays

end

/-! ## Every byte in its place -/

namespace Inbound

/-- No barge-in yet: every byte received was played or waits to be. -/
structure Accounted (k : Inbound β S) : Prop where
  total : k.playback.bytesReceived = k.playback.bytesPlayed + k.playback.inFlight
  armed : ∀ path, k.playback.path = some path → path.jitter.muted = false
  current : k.playback.generation = k.playback.mediaGeneration

theorem Hands.accounted {k k' : Inbound β S} (h : Hands k k') (hk : k.Accounted) :
    k'.Accounted where
  total := by
    rw [h.received, h.played, h.inFlight]
    exact hk.total
  armed := by
    intro path' hpath'
    rcases h.path with ⟨-, hafter⟩ | ⟨path, p, hbefore, hafter, hpath⟩
    · cases hafter.symm.trans hpath'
    · cases hafter.symm.trans hpath'
      rw [hpath.muted]
      exact hk.armed path hbefore
  current := by
    rw [h.generation, h.mediaGeneration]
    exact hk.current

end Inbound

/-- A read of the current generation plays what it takes out of the ring. -/
theorem Playback.read_total {p : Playback β S} (h : p.generation = p.mediaGeneration)
    (count : Nat) :
    (p.read count).2.bytesPlayed + (p.read count).2.inFlight = p.bytesPlayed + p.inFlight ∧
      (p.read count).2.generation = (p.read count).2.mediaGeneration := by
  cases hpath : p.path with
  | none =>
      simp only [Playback.read, hpath]
      exact ⟨trivial, h⟩
  | some path =>
      have hring : path.ring.bytes.length =
          (path.ring.bytes.take count).length + (path.ring.bytes.drop count).length := by
        rw [← List.length_append, List.take_append_drop]
      rw [inFlight_some hpath]
      simp only [Playback.read, hpath, if_neg (not_not_intro h)]
      split
      · exact ⟨by rw [inFlight_some hpath], h⟩
      · split
        · -- an underrun took nothing
          rename_i hnone
          have hzero : (path.ring.bytes.take count).length = 0 := by simpa using hnone
          refine ⟨?_, h⟩
          simp only [inFlight, SpscByteRing.size, SpscByteRing.pop]
          omega
        · refine ⟨?_, h⟩
          simp only [inFlight, SpscByteRing.size, SpscByteRing.pop]
          omega

section

variable {env : Env β} {w : World β S} {c : Nat}

theorem accounted_readPlayback (h : w.inbound.Accounted) (count : Nat) :
    (w.readPlayback count).inbound.Accounted := by
  rcases Playback.read_total h.current count with ⟨htotal, hcurrent⟩
  rcases World.readPlayback_writes w count with ⟨_, _, _, _, hwrites⟩
  have hreceived : (w.readPlayback count).session.playback.bytesReceived =
      w.session.playback.bytesReceived := by
    rw [hwrites]
  refine ⟨hreceived.trans (h.total.trans htotal.symm), ?_, hcurrent⟩
  intro path' hpath'
  rcases w.session.playback.read_path count with ⟨-, hnone⟩ | ⟨path, ring, hpath, hread⟩
  · cases hnone.symm.trans hpath'
  · cases hread.symm.trans hpath'
    exact h.armed path hpath

/-- A message that is not cut is in the buffer whole. -/
theorem accounted_receive (h : w.inbound.Accounted) {path : PlaybackPath β S}
    (hpath : w.session.playback.path = some path) {bytes : List β}
    (hwhole : (path.jitter.append env.others w.supply bytes).1 = 0) :
    (w.receive env path bytes).inbound.Accounted := by
  rcases World.receive_writes env w path bytes with ⟨_, _, _, -, hwrites⟩
  rcases JitterBuffer.append_writes env.others path.jitter w.supply bytes with ⟨_, _, happend⟩
  have hsize : (path.jitter.append env.others w.supply bytes).2.1.size =
      path.jitter.size + bytes.length := by
    rw [JitterBuffer.size_eq, (JitterBuffer.append_spec env.others path.jitter w.supply bytes).2,
      hwhole, Nat.sub_zero, List.take_length, List.length_append, ← JitterBuffer.size_eq]
  have htotal := h.total
  rw [Playback.inFlight_some (p := w.inbound.playback) hpath] at htotal
  rw [hwrites]
  refine ⟨?_, ?_, h.current⟩
  · show w.inbound.playback.bytesReceived + bytes.length =
      w.inbound.playback.bytesPlayed + (JitterBuffer.size _ + path.ring.size)
    rw [hsize, htotal]
    omega
  · rintro p ⟨⟩
    rw [happend]
    exact h.armed path hpath

theorem muted_addMark (b : JitterBuffer β S) (name : Text) : (b.addMark name).muted = false := by
  unfold JitterBuffer.addMark
  split <;> rfl

theorem accounted_handleMark (h : w.inbound.Accounted) {path : PlaybackPath β S}
    (hpath : w.session.playback.path = some path) (name : Text) :
    (w.handleMark path name).inbound.Accounted := by
  have htotal := h.total
  rw [Playback.inFlight_some (p := w.inbound.playback) hpath] at htotal
  refine ⟨?_, ?_, h.current⟩
  · show w.inbound.playback.bytesReceived =
      w.inbound.playback.bytesPlayed + ((path.jitter.addMark name).queue.size + path.ring.size)
    rw [JitterBuffer.queue_addMark]
    exact htotal
  · rintro p ⟨⟩
    exact muted_addMark path.jitter name

theorem accounted_step (hfit : w.inbound.Fitted) (hinformed : w.inbound.Informed c)
    (hlevel : w.inbound.Level) (h : w.inbound.Accounted) {s : Step β}
    (hstays : (step env w s).session.connection = some c) (hobeys : obeys env c w s = true) (hclear : clearing env s = false) :
    (step env w s).inbound.Accounted := by
  have hdeals := deals_step env w s
  generalize step env w s = v at hdeals hstays ⊢
  cases hdeals with
  | leaves hstock =>
      have hsame : v.inbound = w.inbound := congrArg Stock.inbound hstock
      exact hsame ▸ h
  | @pumps _ u hcall =>
      have hu : u.inbound = w.inbound := congrArg Stock.inbound (stock_pumpCall hcall)
      have hmoved := (World.hands_moveAudio env u).accounted (hu ▸ h)
      rw [World.inbound_pump_held env hstays]
      exact hmoved
  | @hears path a bytes hpath =>
      refine (World.hands_pumpPlayback _).accounted ?_
      rcases receive_fits hfit hinformed hlevel hobeys hpath with hwhole | hmuted
      · exact accounted_receive h hpath hwhole
      · cases (h.armed path hpath).symm.trans hmuted
  | reads count => exact accounted_readPlayback h count
  | restarts sampleRate channels => exact ⟨h.total, h.armed, h.current⟩
  -- a barge-in is what the segment excludes: it throws audio away and counts it nowhere
  | clears hmessage hpath => simp [clearing, hmessage] at hclear
  | marks name hpath => exact accounted_handleMark h hpath name
  | ends _ _ hended => cases hended.unheld.symm.trans hstays

end

/-! ## Before the first connection -/

/-- Nothing received, and nothing said to any socket. -/
structure Inbound.Untouched (k : Inbound β S) : Prop where
  accounted : k.Accounted
  received : k.playback.bytesReceived = 0
  running : k.playback.receivePaused = false
  calls : k.receivePauses = []

section

variable {env : Env β} {w : World β S}

theorem Inbound.Untouched.inFlight {k : Inbound β S} (h : k.Untouched) :
    k.playback.inFlight = 0 := by
  have htotal := h.accounted.total
  rw [h.received] at htotal
  omega

theorem Inbound.Untouched.informed {k : Inbound β S} (h : k.Untouched) (c : Nat) : k.Informed c := by
  unfold Inbound.Informed
  rw [h.running, h.calls]
  rfl

theorem Inbound.Untouched.level {k : Inbound β S} (h : k.Untouched) : k.Level := by
  intro _ path hpath
  have hnone := h.inFlight
  rw [Playback.inFlight_some hpath] at hnone
  omega

/-- Below the high watermark a running socket is left alone. -/
theorem flowControl_below {inFlight : Nat} (c : Nat)
    (hrunning : w.session.playback.receivePaused = false)
    (h : inFlight < w.session.tuning.playbackHighWatermarkBytes) :
    w.flowControl c inFlight = w := by
  unfold World.flowControl
  rw [if_neg (fun hpause => absurd hpause.2 (Nat.not_le.mpr h)), if_neg (by simp [hrunning])]

theorem untouched_pumpPlayback (hfit : w.inbound.Fitted) (h : w.inbound.Untouched) :
    w.pumpPlayback.inbound.Untouched := by
  have hhands := World.hands_pumpPlayback w
  have hflags : w.pumpPlayback.session.playback.receivePaused =
        w.session.playback.receivePaused ∧
      w.pumpPlayback.port.receivePauses = w.port.receivePauses := by
    cases hpath : w.session.playback.path with
    | none =>
        rw [World.pumpPlayback_none hpath]
        exact ⟨rfl, rfl⟩
    | some path =>
        rw [World.pumpPlayback_some hpath]
        split
        · exact ⟨rfl, rfl⟩
        · have hbelow : (w.pumped path).1.jitter.size + (w.pumped path).1.ring.size <
              w.session.tuning.playbackHighWatermarkBytes := by
            rw [(World.hands_pumped w path).total, ← Playback.inFlight_some hpath]
            exact h.inFlight.trans_lt (hfit path hpath).2
          have hsame : ∀ c, (w.handedOver path).flowControl c _ = w.handedOver path :=
            fun c => flowControl_below c h.running hbelow
          rw [hsame]
          exact ⟨rfl, rfl⟩
  exact ⟨hhands.accounted h.accounted, hhands.received.trans h.received,
    hflags.1.trans h.running, hflags.2.trans h.calls⟩

theorem untouched_moveAudio (env : Env β) (hfit : w.inbound.Fitted) (h : w.inbound.Untouched) :
    (w.moveAudio env).inbound.Untouched := by
  have hsame := World.inbound_drainHandoffRing env w
  unfold World.moveAudio
  apply untouched_pumpPlayback
  · rw [hsame]
    exact hfit
  · rw [hsame]
    exact h

/-- Without a connection nobody can send. -/
theorem untouched_step (hfit : w.inbound.Fitted) (h : w.inbound.Untouched) {s : Step β}
    (hcontract : contract w s = true) (hconns : w.port.conns = []) :
    (step env w s).inbound.Untouched ∨
      (step env w s).session.state = .dead ∧ (step env w s).session.connection = none := by
  have hdeals := deals_step env w s
  generalize step env w s = v at hdeals ⊢
  cases hdeals with
  | leaves hstock =>
      have hsame : v.inbound = w.inbound := congrArg Stock.inbound hstock
      exact Or.inl (hsame ▸ h)
  | @pumps _ u hcall =>
      have hu : u.inbound = w.inbound := congrArg Stock.inbound (stock_pumpCall hcall)
      have hmoved := untouched_moveAudio env (hu ▸ hfit : u.inbound.Fitted) (hu ▸ h)
      rcases World.inbound_pump env u with hsame | ⟨hended, -⟩
      · exact Or.inl (hsame ▸ hmoved)
      · exact Or.inr hended
  | reads count =>
      rcases World.readPlayback_writes w count with ⟨_, _, _, _, hwrites⟩
      refine Or.inl ⟨accounted_readPlayback h.accounted count, ?_, ?_, h.calls⟩
      · rw [hwrites]
        exact h.received
      · rw [hwrites]
        exact h.running
  | ends _ _ hended => exact Or.inr ⟨hended.dead, hended.unheld⟩
  -- what is left are messages of the server, and no socket is there to bring one
  | _ => simp [contract, outstanding, hconns] at hcontract

theorem untouched_create {params : ForkParams} {tuning : Tuning} {onFinished : Bool}
    {supply : SlabSupply} (h : World.create params tuning onFinished supply = some w) :
    w.inbound.Untouched := by
  rcases World.create_eq h with ⟨_, path, _, _, -, -, hpath, rfl⟩
  cases path with
  | none => exact ⟨⟨rfl, by rintro p ⟨⟩, rfl⟩, rfl, rfl, rfl⟩
  | some path =>
      rcases hpath path rfl with ⟨hjitter, hring, -⟩
      have hnone : path.jitter.size + path.ring.size = 0 := by
        rw [hjitter, SpscByteRing.size, hring]
        rfl
      refine ⟨⟨?_, ?_, rfl⟩, rfl, rfl, rfl⟩
      · show 0 = 0 + (path.jitter.size + path.ring.size)
        rw [hnone]
      · rintro p ⟨⟩
        rw [hjitter]
        rfl

end

/-- `w` is the session when `Connect` has just returned its first connection. -/
def FirstConnection (env : Env β) (w₀ w : World β S) : Prop :=
  ∃ u s, Run (step env) (fun v s => contract v s = true ∧ v.port.conns = []) w₀ u ∧
    contract u s = true ∧ u.port.conns = [] ∧ occasion env u s = .adopt ∧ w = step env u s

theorem FirstConnection.untouched {env : Env β} {params : ForkParams} {tuning : Tuning}
    {onFinished : Bool} {supply : SlabSupply} {w₀ w : World β S} {c : Nat}
    (hcreate : World.create params tuning onFinished supply = some w₀)
    (h : FirstConnection env w₀ w) (hconn : w.session.connection = some c) :
    w.inbound.Untouched := by
  rcases h with ⟨u, s, hrun, hcontract, hconns, hadopt, rfl⟩
  -- only a session that is connecting or reconnecting asks for a connection
  have halive : u.session.state ≠ .dead := by
    have harises := occasion_arises env u s
    rw [hadopt] at harises
    rcases harises with rfl | ⟨-, hstate⟩
    · have hreach := reachable_of_run hcreate (hrun.mono fun _ _ hguard => hguard.1)
      rw [(connecting_of_reachable hreach hcontract).1]
      decide
    · rw [hstate]
      decide
  -- a session that died on the way was finalized; what it holds is of no use here
  have huntouched : u.session.state ≠ .dead → u.inbound.Untouched := by
    refine hrun.invariant_with (J := fun v => v.inbound.Fitted)
      (I := fun v => v.session.state ≠ .dead → v.inbound.Untouched)
      (fun _ hprefix => fitted_run hcreate hprefix) (fun _ => untouched_create hcreate) ?_
    intro v s hfit hv hguard hafter
    have hbefore : v.session.state ≠ .dead := fun hdead => hafter (dead_step hdead s)
    rcases untouched_step hfit (hv hbefore) hguard.1 hguard.2 with hkept | ⟨hdead, -⟩
    · exact hkept
    · exact absurd hdead hafter
  rcases untouched_step (fitted_run hcreate hrun) (huntouched halive) hcontract hconns with
    hkept | ⟨-, hnone⟩
  · exact hkept
  · cases hnone.symm.trans hconn

/-! ## The segment -/

/-- On this step connection `c` accepts the hello. -/
def greets (env : Env β) (c : Nat) (w : World β S) (s : Step β) : Bool :=
  match occasion env w s with
  | .greet a _ => a == c
  | _ => false

/-- The session has held connection `c` ever since it accepted the hello. -/
def Established (env : Env β) (c : Nat) (w₀ w : World β S) : Prop :=
  ∃ u s, Run (step env) (fun _ _ => True) w₀ u ∧ greets env c u s = true ∧
    (step env u s).session.connection = some c ∧
    Run (step env) (fun v s => (step env v s).session.connection = some c) (step env u s) w

/-- A step on which the session keeps connection `c`, and the other side and the pool obey. -/
def holds (env : Env β) (c : Nat) (w : World β S) (s : Step β) : Prop :=
  (step env w s).session.connection = some c ∧ obeys env c w s = true

instance (env : Env β) (c : Nat) (w : World β S) (s : Step β) : Decidable (holds env c w s) :=
  inferInstanceAs (Decidable (_ ∧ _))

/-- What a segment on connection `c` runs on. -/
structure World.OnCourse (tuning : Tuning) (c : Nat) (w : World β S) : Prop where
  fitted : w.inbound.Fitted
  tuned : w.session.tuning = tuning
  held : w.session.connection = some c
  informed : w.inbound.Informed c
  level : w.inbound.Level

section

variable {env : Env β} {tuning : Tuning} {w₀ w v : World β S} {c : Nat}

/-- The handshake pumps, and with that the level is right. -/
theorem level_greet (hlow : w.session.tuning.playbackLowWatermarkBytes ≤
      w.session.tuning.playbackHighWatermarkBytes) {s : Step β} (hgreet : greets env c w s = true)
    (hconn : (step env w s).session.connection = some c) : (step env w s).inbound.Level := by
  have harises := occasion_arises env w s
  unfold greets at hgreet
  split at hgreet
  case h_2 => cases hgreet
  rename_i _ hello hoccasion
  rw [hoccasion] at harises
  rcases harises with ⟨a, rfl, hstate, hheld, hhello, haccepts⟩
  have hcall : ∃ u, u ∈ pumpCalls env w (.onConnected a) := by
    simp only [pumpCalls, if_pos hstate]
    exact ⟨_, World.mem_handshakePumps hhello hheld haccepts⟩
  rcases hcall with ⟨u, hcall⟩
  have htuning : u.session.tuning = w.session.tuning :=
    congrArg (fun k => k.inbound.tuning) (stock_pumpCall hcall)
  rw [step_of_pumpCall hcall] at hconn ⊢
  have hmoved := World.level_moveAudio env (World.connection_pump env hconn)
    (by rw [htuning]; exact hlow)
  rw [World.inbound_pump_held env hconn]
  exact hmoved

theorem tuning_run {guard : World β S → Step β → Prop} (hrun : Run (step env) guard w v) :
    v.session.tuning = w.session.tuning :=
  hrun.invariant (I := fun u => u.session.tuning = w.session.tuning) rfl
    fun u s hu _ => (tuning_step env u s).trans hu

/-- An established connection is at its level, whatever the other side does. -/
theorem Established.level (h : Established env c w₀ w)
    (hlow : w₀.session.tuning.playbackLowWatermarkBytes ≤
      w₀.session.tuning.playbackHighWatermarkBytes) :
    w.inbound.Level ∧ w.session.connection = some c := by
  rcases h with ⟨u, s, hbefore, hgreet, hconn, hheld⟩
  have hlows : ∀ {guard : World β S → Step β → Prop} {v}, Run (step env) guard (step env u s) v →
      v.session.tuning.playbackLowWatermarkBytes ≤ v.session.tuning.playbackHighWatermarkBytes := by
    intro guard v hrun
    rw [tuning_run hrun, tuning_step, tuning_run hbefore]
    exact hlow
  refine hheld.invariant_with
    (J := fun v => v.session.tuning.playbackLowWatermarkBytes ≤
      v.session.tuning.playbackHighWatermarkBytes)
    (I := fun v => v.inbound.Level ∧ v.session.connection = some c)
    (fun _ hpart => hlows hpart) ⟨level_greet ?_ hgreet hconn, hconn⟩ ?_
  · rw [tuning_run hbefore]
    exact hlow
  · rintro v s hv ⟨hlevel, hnow⟩ hstays
    exact ⟨level_step hv hnow hlevel hstays, hstays⟩

theorem onCourse_step (hlow : tuning.playbackLowWatermarkBytes ≤ tuning.playbackHighWatermarkBytes)
    (h : w.OnCourse tuning c) {s : Step β} (hs : holds env c w s) :
    (step env w s).OnCourse tuning c where
  fitted := fitted_step h.fitted s
  tuned := (tuning_step env w s).trans h.tuned
  held := hs.1
  informed := informed_step h.held h.informed hs.1
  level := level_step (by rw [h.tuned]; exact hlow) h.held h.level hs.1

theorem onCourse_run (hlow : tuning.playbackLowWatermarkBytes ≤ tuning.playbackHighWatermarkBytes)
    (h : w.OnCourse tuning c) (hrun : Run (step env) (holds env c) w v) : v.OnCourse tuning c :=
  hrun.invariant (I := fun u => u.OnCourse tuning c) h fun _ _ hu hs => onCourse_step hlow hu hs

/-- Nothing is lost on the segment. -/
theorem dropped_run (hlow : tuning.playbackLowWatermarkBytes ≤ tuning.playbackHighWatermarkBytes)
    (h : w.OnCourse tuning c) (hrun : Run (step env) (holds env c) w v) :
    v.session.playback.bytesDropped = w.session.playback.bytesDropped := by
  refine hrun.invariant_with (J := fun u => u.OnCourse tuning c)
    (I := fun u => u.session.playback.bytesDropped = w.session.playback.bytesDropped)
    (fun _ hpart => onCourse_run hlow h hpart) rfl ?_
  intro u s hu hsame hs
  exact (dropped_step hu.fitted hu.informed hu.level hs.1 hs.2).trans hsame

theorem accounted_run (hlow : tuning.playbackLowWatermarkBytes ≤ tuning.playbackHighWatermarkBytes)
    (h : w.OnCourse tuning c) (haccounted : w.inbound.Accounted)
    (hrun : Run (step env) (fun u s => holds env c u s ∧ clearing env s = false) w v) :
    v.inbound.Accounted := by
  refine hrun.invariant_with (J := fun u => u.OnCourse tuning c) (I := fun u => u.inbound.Accounted)
    (fun _ hpart => onCourse_run hlow h (hpart.mono fun _ _ hs => hs.1)) haccounted ?_
  intro u s hu hbefore hs
  exact accounted_step hu.fitted hu.informed hu.level hbefore hs.1.1 hs.1.2 hs.2

end

/-- An established connection that was told what the session goes by loses no audio, as long as the
session holds it.  The first connection needs no such condition, and without barge-ins every byte it
brings is played, in the ring or in the jitter buffer. -/
theorem backpressure_lossless {env : Env β} {params : ForkParams} {tuning : Tuning}
    {onFinished : Bool} {supply : SlabSupply} {w₀ : World β S}
    (hcreate : World.create params tuning onFinished supply = some w₀)
    (hlow : tuning.playbackLowWatermarkBytes ≤ tuning.playbackHighWatermarkBytes)
    (w : World β S) (c : Nat) :
    (Established env c w₀ w → w.inbound.Informed c →
        ∀ v, Run (step env) (holds env c) w v →
          v.session.playback.bytesDropped = w.session.playback.bytesDropped) ∧
      (FirstConnection env w₀ w → w.session.connection = some c →
        (∀ v, Run (step env) (holds env c) w v →
          v.session.playback.bytesDropped = w.session.playback.bytesDropped) ∧
        ∀ v, Run (step env) (fun u s => holds env c u s ∧ clearing env s = false) w v →
          v.session.playback.bytesReceived =
            v.session.playback.bytesPlayed + v.session.playback.inFlight) := by
  have htuning : w₀.session.tuning = tuning := by
    rcases World.create_eq hcreate with ⟨_, _, _, _, -, -, -, rfl⟩
    rfl
  have hcourse : Run (step env) (fun _ _ => True) w₀ w → w.session.connection = some c →
      w.inbound.Informed c → w.inbound.Level → w.OnCourse tuning c := fun hrun hconn hinformed hlevel =>
    ⟨fitted_run hcreate hrun, (tuning_run hrun).trans htuning, hconn, hinformed, hlevel⟩
  constructor
  · intro hestablished hinformed v hsegment
    rcases hestablished.level (by rw [htuning]; exact hlow) with ⟨hlevel, hconn⟩
    rcases hestablished with ⟨u, s, hbefore, -, -, hheld⟩
    have hrun : Run (step env) (fun _ _ => True) w₀ w :=
      (hbefore.tail s trivial).trans (hheld.mono fun _ _ _ => trivial)
    exact dropped_run hlow (hcourse hrun hconn hinformed hlevel) hsegment
  · intro hfirst hconn
    have huntouched := hfirst.untouched hcreate hconn
    have hrun : Run (step env) (fun _ _ => True) w₀ w := by
      rcases hfirst with ⟨u, s, hbefore, -, -, -, rfl⟩
      exact (hbefore.mono fun _ _ _ => trivial).tail s trivial
    have hstart := hcourse hrun hconn (huntouched.informed c) huntouched.level
    constructor
    · intro v hsegment
      exact dropped_run hlow hstart hsegment
    · intro v hsegment
      exact (accounted_run hlow hstart huntouched.accounted hsegment).total

/-- Two messages of 20 and 12 bytes with a read, a pump and a mark in between: 32 bytes received, 16
played and 16 waiting. -/
theorem backpressure_lossless_sample :
    let w := exec (step Sample.env) Sample.fork [.start]
    let g := exec (step Sample.env) w [.onConnected 0]
    let v := exec (step Sample.env) g
      [.onBinary 0 (List.replicate 20 7), .readPlayback 16, .pump, .onText 0 Sample.markText,
        .onBinary 0 (List.replicate 12 7)]
    v.session.playback.bytesReceived = 32 ∧ v.session.playback.bytesPlayed = 16 ∧
      v.session.playback.bytesReceived =
        v.session.playback.bytesPlayed + v.session.playback.inFlight ∧
      Established Sample.env 0 Sample.fork g ∧ g.inbound.Informed 0 ∧
      v.session.playback.bytesDropped = g.session.playback.bytesDropped := by
  intro w g v
  have hestablished : Established Sample.env 0 Sample.fork g :=
    ⟨w, .onConnected 0, Run.of_exec (by decide +kernel), by decide +kernel, by decide +kernel, .refl⟩
  have hfirst : FirstConnection Sample.env Sample.fork w :=
    ⟨Sample.fork, .start, .refl, by decide +kernel, by decide +kernel, rfl, rfl⟩
  have hinformed : g.inbound.Informed 0 := by decide +kernel
  refine ⟨by decide +kernel, by decide +kernel, ?_, hestablished, hinformed, ?_⟩
  · refine ((backpressure_lossless Sample.create_fork (by decide) w 0).2 hfirst (by decide +kernel)).2
      v (Run.trans (t := g) ?_ ?_)
    · exact Run.of_exec (by decide +kernel)
    · exact Run.of_exec (by decide +kernel)
  · refine (backpressure_lossless Sample.create_fork (by decide) g 0).1 hestablished hinformed v ?_
    exact Run.of_exec (by decide +kernel)

/-- A fork with slabs for everything its buffers can hold. -/
def roomyFork : World UInt8 Sample.slabBytes :=
  (World.create Sample.params Sample.tuning true { available := 64, calls := 0 }).get rfl

/-- The server is lost while its socket is paused.  The connection that takes its place is never told,
and two messages of the high watermark overflow the buffer that holds two of them. -/
theorem reconnect_overflows :
    let u := exec (step Sample.env) roomyFork
      [.start, .onConnected 0, .onBinary 0 (List.replicate 32 7), .onClosed 0 false, .retryTimer]
    let w := step Sample.env u (.onConnected 1)
    let v := exec (step Sample.env) w
      [.onBinary 1 (List.replicate 32 7), .onBinary 1 (List.replicate 32 7)]
    World.create Sample.params Sample.tuning true { available := 64, calls := 0 } = some roomyFork ∧
      Sample.tuning.playbackLowWatermarkBytes ≤ Sample.tuning.playbackHighWatermarkBytes ∧
      Run (step Sample.env) (fun v s => contract v s = true) roomyFork w ∧
      Established Sample.env 1 roomyFork w ∧
      Run (step Sample.env) (fun v s => contract v s = true ∧ holds Sample.env 1 v s) w v ∧
      w.session.playback.bytesDropped = 0 ∧ v.session.playback.bytesDropped = 16 := by
  intro u w v
  refine ⟨rfl, by decide, ?_, ?_, Run.of_exec (by decide +kernel), by decide +kernel,
    by decide +kernel⟩
  · exact (Run.of_exec (by decide +kernel) : Run _ _ roomyFork u).tail _ (by decide +kernel)
  · exact ⟨u, .onConnected 1, Run.of_exec (by decide +kernel), by decide +kernel, by decide +kernel,
      .refl⟩

end Session
end AudioFork
