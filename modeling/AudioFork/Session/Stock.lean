import AudioFork.Session.Chores

/-!
# Stock — what a session has buffered

The send buffer with its gauge, playback as a whole, and the calls that pause a socket.  Most of what
a session does leaves all of them alone.  `deals_step` says once what a step does to them: it leaves
them, or it ends in a call of `Pump` that finds them untouched, or it is one of the calls about
playback, or it finalizes the session.
-/

namespace AudioFork
namespace Session

open Buffers Protocol Lib

variable {β : Type} {S : ℕ+}

/-- Audio on its way in, and what flow control goes by. -/
structure Inbound (β : Type) (S : ℕ+) where
  playback : Playback β S
  receivePauses : List (Nat × Bool)
  tuning : Tuning

structure Stock (β : Type) (S : ℕ+) where
  /-- What `stats` reports of the send buffer. -/
  buffered : Nat
  buffer : SendBuffer β S
  inbound : Inbound β S

/-- What `Finalize` leaves: both buffers cleared, the gauges as they were. -/
def Inbound.emptied (p : SlabSupply) (k : Inbound β S) : Inbound β S :=
  { k with
    playback.path := k.playback.path.map fun path =>
      { path with jitter := (path.jitter.clear p).1 } }

@[inherit_doc Inbound.emptied]
def Stock.emptied (p : SlabSupply) (k : Stock β S) : Stock β S :=
  { k with
    buffer := (k.buffer.clear p).1
    inbound := k.inbound.emptied p }

namespace World

def inbound (w : World β S) : Inbound β S :=
  { playback := w.session.playback
    receivePauses := w.port.receivePauses
    tuning := w.session.tuning }

def stock (w : World β S) : Stock β S :=
  { buffered := w.session.outbound.bufferedBytes
    buffer := w.session.outbound.buffer
    inbound := w.inbound }

/-! ## Functions that leave the stock alone -/

section

variable (env : Env β) (w : World β S)

theorem stock_abandonSocket : w.abandonSocket.stock = w.stock := by
  rcases abandonSocket_writes w with ⟨_, -, hwrites⟩
  rw [hwrites]
  rfl

theorem stock_announce (c : Nat) : (w.announce env c).stock = w.stock := by
  rcases announce_writes env w c with ⟨_, _, _, _, _, _, -, -, hwrites⟩
  rw [hwrites]
  rfl

theorem stock_flushPendingTexts : (w.flushPendingTexts env).stock = w.stock := by
  rcases flushPendingTexts_writes env w with ⟨_, _, -, hwrites⟩
  rw [hwrites]
  rfl

theorem stock_deliverText (text : Text) : (w.deliverText env text).stock = w.stock := by
  rcases deliverText_writes env w text with ⟨_, _, _, -, hwrites⟩
  rw [hwrites]
  rfl

theorem stock_applyModify (endpoint : Endpoint) :
    (w.applyModify env endpoint).stock = w.stock := by
  rcases applyModify_writes env w endpoint with ⟨_, _, _, _, _, -, hwrites⟩
  rw [hwrites]
  rfl

theorem stock_pushAudio (pcm : List β) : (w.pushAudio pcm).stock = w.stock := by
  rcases pushAudio_writes w pcm with ⟨_, _, _, _, _, hwrites⟩
  rw [hwrites]
  rfl

theorem stock_unsupported (detail : Text) : (w.unsupported detail).stock = w.stock := by
  rcases unsupported_writes w detail with ⟨_, -, hwrites⟩
  rw [hwrites]
  rfl

end

/-! ## The end -/

/-- `v` is `w` finalized. -/
structure Ended (w v : World β S) : Prop where
  dead : v.session.state = .dead
  unheld : v.session.connection = none
  emptied : ∃ p, v.stock = w.stock.emptied p

/-- `v` has the stock of `w`; if the session was over, it still is. -/
structure Idled (w v : World β S) : Prop where
  stock : v.stock = w.stock
  dead : w.session.state = .dead → v.session.state = .dead
  unheld : w.session.connection = none → v.session.connection = none

/-- The stock is left alone, or a session that was alive is finalized. -/
def Settles (w v : World β S) : Prop := Idled w v ∨ w.session.state ≠ .dead ∧ Ended w v

section

variable {env : Env β} {u v w : World β S}

/-- What is finalized is the stock. -/
theorem Ended.of_stock (h : Ended u v) (hstock : u.stock = w.stock) : Ended w v :=
  ⟨h.dead, h.unheld, hstock ▸ h.emptied⟩

theorem Idled.refl (w : World β S) : Idled w w := ⟨rfl, id, id⟩

theorem Settles.stock (h : Settles w v) :
    v.stock = w.stock ∨ w.session.state ≠ .dead ∧ Ended w v :=
  h.imp_left Idled.stock

theorem Settles.trans (h : Settles w u) (h' : Settles u v) : Settles w v := by
  rcases h with hidle | ⟨halive, hended⟩
  · rcases h' with hidle' | ⟨halive', hended'⟩
    · exact Or.inl ⟨hidle'.stock.trans hidle.stock, fun hw => hidle'.dead (hidle.dead hw),
        fun hw => hidle'.unheld (hidle.unheld hw)⟩
    · exact Or.inr ⟨fun hw => halive' (hidle.dead hw), hended'.of_stock hidle.stock⟩
  · rcases h' with hidle' | ⟨halive', -⟩
    · refine Or.inr ⟨halive, hidle'.dead hended.dead, hidle'.unheld hended.unheld, ?_⟩
      rw [hidle'.stock]
      exact hended.emptied
    · exact absurd hended.dead halive'

theorem ended_retire (w : World β S) : Ended w w.retire := by
  rcases finalize_writes { w with session.state := .dead } with ⟨_, _, -, hwrites⟩
  unfold retire
  rw [hwrites]
  exact ⟨rfl, rfl, w.supply, rfl⟩

theorem settles_hangUp (halive : w.session.state ≠ .dead) : Settles w w.hangUp := by
  cases hconn : w.session.connection with
  | none =>
      rw [hangUp_none hconn]
      exact Or.inr ⟨halive, ended_retire w⟩
  | some c =>
      rw [hangUp_some hconn]
      exact Or.inl ⟨rfl, fun hdead => absurd hdead halive, fun hnone => hnone⟩

theorem settles_lose (w : World β S) : Settles w w.lose := by
  unfold lose
  cases hstate : w.session.state with
  | connecting => exact Or.inl ⟨rfl, by simp [hstate], id⟩
  | active => exact Or.inl ⟨rfl, by simp [hstate], id⟩
  | draining => exact settles_hangUp (by simp [hstate])
  | closing => exact Or.inr ⟨by simp [hstate], ended_retire w⟩
  | reconnecting => exact Or.inl (.refl w)
  | dead => exact Or.inl (.refl w)

theorem settles_noteRefused (w : World β S) : Settles w w.noteRefused := by
  rcases noteRefused_writes w with ⟨_, -, hwrites⟩
  rw [hwrites]
  exact Or.inl ⟨rfl, id, fun _ => rfl⟩

theorem settles_noteClosed (env : Env β) (w : World β S) (connectFailed : Bool) :
    Settles w (w.noteClosed env connectFailed) := by
  rcases noteClosed_writes env w connectFailed with ⟨_, _, _, -, hwrites⟩
  rw [hwrites]
  exact Or.inl ⟨rfl, id, fun _ => rfl⟩

/-- A connect attempt. -/
theorem stock_connect (env : Env β) (w : World β S) :
    (w.connect env).stock = w.stock ∨ w.session.state ≠ .dead ∧ Ended w (w.connect env) := by
  have hrefused : ∀ v : World β S, Settles v v.noteRefused.lose :=
    fun v => (settles_noteRefused v).trans (settles_lose _)
  have hcounted : Settles w { w with port.connects := w.port.connects + 1 } :=
    Or.inl ⟨rfl, id, id⟩
  unfold connect
  cases env.connect w.port.connects with
  | returned => exact Or.inl rfl
  | null => exact (hcounted.trans (hrefused _)).stock
  | closedThenNull connectFailed =>
      exact (((hcounted.trans (settles_noteClosed env _ connectFailed)).trans
        (settles_lose _)).trans (hrefused _)).stock

/-- A teardown that does not pump. -/
theorem settles_teardown (hpumps : w.teardownPumps env = []) : Settles w (w.teardown env) := by
  unfold teardown
  cases hstate : w.session.state with
  | connecting => exact settles_hangUp (by simp [hstate])
  | active =>
      -- with a socket the drain would begin with a pump
      have hconn : w.session.connection = none := by
        by_contra hconn
        have hmem : w.startDrain env ∈ w.teardownPumps env := mem_teardownPumps hstate hconn
        rw [hpumps] at hmem
        cases hmem
      unfold drain
      rw [hconn]
      have hstart : Settles w (w.startDrain env) := Or.inl ⟨rfl, by simp [hstate], id⟩
      exact hstart.trans (Or.inr ⟨by simp [startDrain], ended_retire _⟩)
  | reconnecting => exact Or.inr ⟨by simp [hstate], ended_retire w⟩
  | draining => exact Or.inl (.refl w)
  | closing => exact Or.inl (.refl w)
  | dead => exact Or.inl (.refl w)

/-- A handshake that does not pump. -/
theorem settles_notifyConnected (hpumps : w.handshakePumps env = []) :
    Settles w (w.notifyConnected env) := by
  have hreport : ∀ (u : World β S) (detail : Text), Settles u (u.emit .error detail) :=
    fun u detail => Or.inl ⟨rfl, id, id⟩
  cases hhello : w.hello env with
  | none =>
      rw [notifyConnected_invalid env hhello]
      unfold handshakePumps at hpumps
      rw [hhello] at hpumps
      exact (hreport w _).trans (settles_teardown hpumps)
  | some hello =>
      cases hconn : w.session.connection with
      | none =>
          rw [notifyConnected_unheld env hhello hconn]
          exact (hreport w _).trans (settles_lose _)
      | some c =>
          cases hsend : (w.send env c (.hello hello)).1 with
          | false =>
              rw [notifyConnected_refused env hhello hconn hsend]
              have hsent : Settles w (w.send env c (.hello hello)).2 := Or.inl ⟨rfl, id, id⟩
              exact (hsent.trans (hreport _ _)).trans (settles_lose _)
          | true =>
              -- a handshake that gets this far pumps
              have hmem := mem_handshakePumps hhello hconn hsend
              rw [hpumps] at hmem
              cases hmem

end

end World

/-- A call of `Pump` finds the stock as the step found it. -/
theorem stock_pumpCall {env : Env β} {v w : World β S} {s : Step β}
    (h : v ∈ pumpCalls env w s) : v.stock = w.stock := by
  refine Readies.pumpCalls (P := fun u => u.stock = w.stock) ⟨?_, ?_, ?_, ?_, ?_⟩ h rfl
  · exact fun _ hu => hu
  · exact fun _ _ hu => hu
  · exact fun _ _ hu => hu
  · exact fun _ hu => hu
  · intro u c hello hu
    rw [World.stock_flushPendingTexts, World.stock_announce]
    exact hu

/-! ## A pump -/

namespace World

variable (env : Env β) (w : World β S)

theorem inbound_drainHandoffRing : (w.drainHandoffRing env).inbound = w.inbound := by
  rcases drainHandoffRing_writes env w with ⟨_, _, _, _, _, _, _, _, _, -, hwrites⟩
  rw [hwrites]
  rfl

theorem inbound_flushToConnection : (w.flushToConnection env).inbound = w.inbound := by
  rcases flushToConnection_writes env w with ⟨_, _, _, _, _, -, hwrites⟩
  rw [hwrites]
  rfl

/-- A tick of the drain sends what a flush sends. -/
theorem stock_drainTick : (w.drainTick env).2.stock = (w.flushToConnection env).stock := by
  rcases drainExpired_writes env (w.flushToConnection env) with ⟨_, hexpired⟩
  rcases sayBye_writes env ((w.flushToConnection env).drainExpired env).2
    (w.flushToConnection env).session.outbound.buffer.empty with ⟨_, _, -, hbye⟩
  refine (congrArg stock hbye).trans ?_
  rw [hexpired]
  rfl

/-- After the handover a pump sends, or finalizes a session without a socket. -/
theorem inbound_pump :
    (w.pump env).inbound = (w.moveAudio env).inbound ∨
      ((w.pump env).session.state = .dead ∧ (w.pump env).session.connection = none) ∧
        ∃ p, (w.pump env).inbound = (w.moveAudio env).inbound.emptied p := by
  have hflushed := inbound_flushToConnection env (w.moveAudio env)
  rw [pump_eq]
  split
  · exact Or.inl hflushed
  · have htick : ((w.moveAudio env).drainTick env).2.inbound = (w.moveAudio env).inbound :=
      (congrArg Stock.inbound (stock_drainTick env (w.moveAudio env))).trans hflushed
    split
    · -- the drain is over, and without a socket there is nobody to wait for
      cases hconn : ((w.moveAudio env).drainTick env).2.session.connection with
      | none =>
          have hended := ended_retire ((w.moveAudio env).drainTick env).2
          rcases hended.emptied with ⟨p, hstock⟩
          rw [hangUp_none hconn]
          refine Or.inr ⟨⟨hended.dead, hended.unheld⟩, p, ?_⟩
          rw [← htick]
          exact congrArg Stock.inbound hstock
      | some c =>
          rw [hangUp_some hconn]
          exact Or.inl htick
    · exact Or.inl htick
  · exact Or.inl rfl

variable {w} in
/-- A pump after which the session has its socket finalized nothing. -/
theorem inbound_pump_held {c : Nat} (h : (w.pump env).session.connection = some c) :
    (w.pump env).inbound = (w.moveAudio env).inbound := by
  rcases inbound_pump env w with hsame | ⟨⟨-, hnone⟩, -⟩
  · exact hsame
  · cases hnone.symm.trans h

variable {w} in
/-- A pump takes no new socket. -/
theorem connection_pump {c : Nat} (h : (w.pump env).session.connection = some c) :
    w.session.connection = some c := by
  have hview : (w.lifecycle.tick (w.drainOver env)).connection = some c :=
    (congrArg Lifecycle.connection (lifecycle_pump env w)).symm.trans h
  unfold Lifecycle.tick Lifecycle.hangUp at hview
  -- each branch of a tick keeps the connection or drops it
  split at hview
  · split at hview
    · split at hview
      · cases hview
      · exact hview
    · exact hview
  · exact hview

end World

/-! ## Steps -/

/-- What a step does to the stock. -/
inductive Deals (env : Env β) (w : World β S) : Step β → World β S → Prop
  | leaves {s : Step β} {v : World β S} (h : v.stock = w.stock) : Deals env w s v
  | pumps {s : Step β} {v : World β S} (hcall : v ∈ pumpCalls env w s) :
      Deals env w s (v.pump env)
  | hears {path : PlaybackPath β S} (c : Nat) (bytes : List β)
      (hpath : w.session.playback.path = some path) :
      Deals env w (.onBinary c bytes) (w.receive env path bytes).pumpPlayback
  | reads (count : Nat) : Deals env w (.readPlayback count) (w.readPlayback count)
  | restarts {c : Nat} {text : Text} (sampleRate channels : Nat) :
      Deals env w (.onText c text) (w.handlePlaybackStart sampleRate channels)
  | clears {c : Nat} {text : Text} {path : PlaybackPath β S}
      (hclear : parseServerMessage env.json text = .clearPlayback)
      (hpath : w.session.playback.path = some path) :
      Deals env w (.onText c text) (w.handleClear path)
  | marks {c : Nat} {text : Text} {path : PlaybackPath β S} (name : Text)
      (hpath : w.session.playback.path = some path) :
      Deals env w (.onText c text) (w.handleMark path name)
  | ends {s : Step β} {v : World β S} (hcalls : pumpCalls env w s = [])
      (halive : w.session.state ≠ .dead) (h : w.Ended v) : Deals env w s v

section

variable {env : Env β} {w : World β S}

theorem Deals.of_settles {s : Step β} {v : World β S} (hcalls : pumpCalls env w s = [])
    (h : v.stock = w.stock ∨ w.session.state ≠ .dead ∧ w.Ended v) : Deals env w s v := by
  rcases h with hstock | ⟨halive, hended⟩
  · exact .leaves hstock
  · exact .ends hcalls halive hended

theorem deals_runPosted {i : Nat} (hcalls : pumpCalls env w (.runPosted i) = []) :
    Deals env w (.runPosted i) (step env w (.runPosted i)) := by
  cases htask : w.port.posted[i]? with
  | none =>
      rw [step_runPosted_none env htask]
      exact .leaves rfl
  | some task =>
      rw [step_runPosted_some env htask]
      cases task with
      | teardown =>
          show Deals env w _ (World.fire env .teardown (w.takeTask i))
          rw [World.fire_teardown]
          have htaken : World.Settles w (w.takeTask i) := Or.inl ⟨rfl, id, id⟩
          refine .of_settles hcalls ?_
          simp only [pumpCalls, htask] at hcalls
          exact (htaken.trans (World.settles_teardown hcalls)).stock
      | deliverText text => exact .leaves (World.stock_deliverText env (w.takeTask i) text)
      | applyModify endpoint => exact .leaves (World.stock_applyModify env (w.takeTask i) endpoint)

theorem deals_onConnected {c : Nat} (hcalls : pumpCalls env w (.onConnected c) = []) :
    Deals env w (.onConnected c) (step env w (.onConnected c)) := by
  show Deals env w _ ((w.markConnected c).onConnected env)
  by_cases h : w.session.state = .connecting
  · rw [World.onConnected_connecting env (w := w.markConnected c) h]
    have hactive : World.Settles w { w.markConnected c with session.state := .active } :=
      Or.inl ⟨rfl, by simp [h], id⟩
    refine .of_settles hcalls ?_
    simp only [pumpCalls, if_pos h] at hcalls
    exact (hactive.trans (World.settles_notifyConnected hcalls)).stock
  · rw [World.onConnected_late env (w := w.markConnected c) h]
    exact .leaves (World.stock_abandonSocket (w.markConnected c))

theorem deals_onText {c : Nat} {text : Text} (hcalls : pumpCalls env w (.onText c text) = []) :
    Deals env w (.onText c text) (step env w (.onText c text)) := by
  -- a control message without a playback path is counted and ignored
  have hcontrol : ∀ control : PlaybackPath β S → World β S → World β S,
      (∀ path, w.session.playback.path = some path →
        Deals env w (.onText c text) (control path w)) →
        Deals env w (.onText c text) (w.playbackControl control) := by
    intro control hcontrol
    unfold World.playbackControl
    split
    · exact .leaves (World.stock_unsupported w _)
    · rename_i path hpath
      exact hcontrol path hpath
  show Deals env w _ (w.onText env text)
  unfold World.onText
  split
  · rename_i hmessage
    rw [World.fire_teardown]
    have hreported : World.Settles w (w.emit .disconnect []) := Or.inl ⟨rfl, id, id⟩
    refine .of_settles hcalls ?_
    simp only [pumpCalls, hmessage] at hcalls
    exact (hreported.trans (World.settles_teardown hcalls)).stock
  · exact .leaves rfl
  · exact .leaves rfl
  · exact hcontrol _ fun _ _ => .restarts _ _
  · rename_i hmessage
    exact hcontrol _ fun _ hpath => .clears hmessage hpath
  · exact hcontrol _ fun _ hpath => .marks _ hpath

theorem deals_onBinary (env : Env β) (w : World β S) (c : Nat) (bytes : List β) :
    Deals env w (.onBinary c bytes) (step env w (.onBinary c bytes)) := by
  show Deals env w _ (w.onBinary env bytes)
  unfold World.onBinary
  split
  · exact .leaves rfl
  · split
    · exact .leaves (World.stock_unsupported w _)
    · rename_i path hpath
      exact .hears c bytes hpath

end

theorem deals_step (env : Env β) (w : World β S) (s : Step β) : Deals env w s (step env w s) := by
  cases hcalls : pumpCalls env w s with
  | cons v _ =>
      have hcall : v ∈ pumpCalls env w s := by simp [hcalls]
      rw [step_of_pumpCall hcall]
      exact .pumps hcall
  | nil =>
      -- a step that does not pump; the calls below it settle the stock
      cases s with
      | start =>
          show Deals env w _ (World.beginConnectWith _ env { w with started := true })
          rw [World.beginConnect_eq]
          exact .of_settles hcalls ((World.stock_connect env { w with started := true }).imp_right
            fun hended => ⟨hended.1, hended.2.of_stock rfl⟩)
      | pump => cases hcalls
      | stop | sendText _ | sendDtmf _ _ | modify _ => exact step_posts rfl fun _ => .leaves rfl
      | runPosted i => exact deals_runPosted hcalls
      | retryTimer =>
          show Deals env w _ (w.takeTimer.fire env .retryTimerFired)
          by_cases h : w.session.state = .reconnecting
          · rw [World.fire_retryTimerFired env (w := w.takeTimer) h]
            have hconnect :=
              World.stock_connect env { w.takeTimer with session.state := .connecting }
            exact .of_settles hcalls
              (hconnect.imp_right fun hended => ⟨by simp [h], hended.2.of_stock rfl⟩)
          · rw [World.fire_retryTimerFired_stale env (w := w.takeTimer) h]
            exact .leaves rfl
      | onConnected c => exact deals_onConnected hcalls
      | onText c text => exact deals_onText hcalls
      | onBinary c bytes => exact deals_onBinary env w c bytes
      | onClosed c connectFailed =>
          show Deals env w _ ((w.markClosed c).onClosed env connectFailed)
          rw [World.onClosed_eq]
          have hmarked : World.Settles w (w.markClosed c) := Or.inl ⟨rfl, id, id⟩
          have hnoted := hmarked.trans (World.settles_noteClosed env _ connectFailed)
          exact .of_settles hcalls (hnoted.trans (World.settles_lose _)).stock
      | pushAudio pcm => exact .leaves (World.stock_pushAudio w pcm)
      | setPaused paused => exact .leaves rfl
      | readPlayback count => exact .reads count

end Session
end AudioFork
