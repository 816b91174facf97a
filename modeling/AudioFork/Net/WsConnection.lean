import AudioFork.Lib.Runs
import Mathlib.Algebra.GroupWithZero.Nat
import Mathlib.Data.List.Basic

/-!
# WsConnection — the send queue and the close handshake of a websocket

`WsConnection` of `ws_client.cpp` with the callbacks of `HandleLws` that drive it.  Everything runs on
the loop thread, so that calls and callbacks come one after another, in any order lws allows.  What the
code does to lws and to its handler is logged; what lws answers (`written`) is part of the step.

A frame is queued behind `LWS_PRE` bytes of room for the header; `lwsPre` is that number.
-/

namespace AudioFork
namespace Net

open Lib

variable {β : Type}

/-- What is sent: the bytes and whether they go out as a binary message. -/
structure WsFrame (β : Type) where
  payload : List β
  binary : Bool
  deriving DecidableEq, Repr

/-- `WsConnection::Outgoing`. -/
structure Outgoing (β : Type) where
  paddedPayload : List β
  binary : Bool
  deriving DecidableEq, Repr

/-- The frame behind the padding. -/
def Outgoing.frame (lwsPre : Nat) (o : Outgoing β) : WsFrame β :=
  ⟨o.paddedPayload.drop lwsPre, o.binary⟩

structure WsConnection (β : Type) where
  maxQueuedBytes : Nat
  closeDrainTimeoutMs : Nat
  /-- `wsi_` is set. -/
  wsi : Bool
  outgoing : List (Outgoing β)
  queuedBytes : Nat
  incoming : List β
  established : Bool
  closeRequested : Bool
  closedDelivered : Bool
  deriving DecidableEq, Repr

/-- What the code does to its handler and to lws. -/
inductive WsEffect (β : Type)
  | onConnected
  | onText (text : List β)
  | onBinary (bytes : List β)
  | onClosed (connectFailed : Bool)
  | rxFlowControl (enable : Bool)
  | setTimeoutUs (us : Nat)
  | killAsync
  | callbackOnWritable
  | write (frame : WsFrame β)
  | closeNormal
  /-- A callback returns -1: lws is to close the socket. -/
  | hangUp
  deriving DecidableEq, Repr

namespace WsConnection

def lwsUsPerMs : Nat := 1000

/-- `static_cast<int>` of a `size_t`. -/
def toInt (n : Nat) : Int := (n : Int).bmod (2 ^ 32)

def enqueue [Inhabited β] (lwsPre : Nat) (c : WsConnection β) (bytes : List β) (binary : Bool) :
    Bool × WsConnection β × List (WsEffect β) :=
  if !c.established || c.closeRequested || c.closedDelivered then
    (false, c, [])
  else if c.queuedBytes + bytes.length > c.maxQueuedBytes then
    (false, c, [])
  else
    (true,
      { c with
        outgoing := c.outgoing ++
          [{ paddedPayload := List.replicate lwsPre default ++ bytes, binary }]
        queuedBytes := c.queuedBytes + bytes.length },
      [.callbackOnWritable])

def sendText [Inhabited β] (lwsPre : Nat) (c : WsConnection β) (text : List β) :
    Bool × WsConnection β × List (WsEffect β) :=
  c.enqueue lwsPre text false

def sendBinary [Inhabited β] (lwsPre : Nat) (c : WsConnection β) (bytes : List β) :
    Bool × WsConnection β × List (WsEffect β) :=
  c.enqueue lwsPre bytes true

def setReceivePaused (c : WsConnection β) (paused : Bool) : List (WsEffect β) :=
  if !c.wsi || c.closedDelivered then [] else [.rxFlowControl !paused]

def close (c : WsConnection β) : WsConnection β × List (WsEffect β) :=
  if c.closedDelivered || c.closeRequested then
    (c, [])
  else
    ({ c with closeRequested := true },
      if c.wsi && c.established then
        -- a peer that stops reading is cut off when this expires
        [.setTimeoutUs (c.closeDrainTimeoutMs * lwsUsPerMs), .callbackOnWritable]
      else if c.wsi then
        [.killAsync]
      else
        [])

/-- `FinishConnection`. -/
def finish (c : WsConnection β) (connectFailed : Bool) : WsConnection β × List (WsEffect β) :=
  if !c.closedDelivered then
    ({ c with closedDelivered := true }, [.onClosed connectFailed])
  else
    (c, [])

/-- The end of a writeable callback, with the front frame out of the way. -/
def afterWrite (c : WsConnection β) : List (WsEffect β) :=
  if c.outgoing ≠ [] then
    [.callbackOnWritable]
  else if c.closeRequested then
    [.closeNormal, .hangUp]
  else
    []

/-- `LWS_CALLBACK_CLIENT_WRITEABLE`; `written` is what `lws_write` returns. -/
def writeable (lwsPre : Nat) (c : WsConnection β) (written : Int) :
    WsConnection β × List (WsEffect β) :=
  match c.outgoing with
  | [] => (c, c.afterWrite)
  | front :: rest =>
      let payloadLen := front.paddedPayload.length - lwsPre
      if written < toInt payloadLen then
        (c, [.write (front.frame lwsPre), .hangUp])
      else
        let c' := { c with outgoing := rest, queuedBytes := c.queuedBytes - payloadLen }
        (c', .write (front.frame lwsPre) :: c'.afterWrite)

/-- `LWS_CALLBACK_CLIENT_RECEIVE` of one fragment. -/
def receive (c : WsConnection β) (bytes : List β) (first final binary : Bool) :
    WsConnection β × List (WsEffect β) :=
  let incoming := (if first then [] else c.incoming) ++ bytes
  if final then
    ({ c with incoming := [] }, [if binary then .onBinary incoming else .onText incoming])
  else
    ({ c with incoming }, [])

end WsConnection

/-- How far lws has come with the connection. -/
inductive LwsPhase
  | connecting
  | established
  | finished
  deriving DecidableEq, Repr

inductive WsStep (β : Type)
  | sendText (text : List β)
  | sendBinary (bytes : List β)
  | setReceivePaused (paused : Bool)
  | close
  | established
  | writeable (written : Int)
  | receive (bytes : List β) (first final binary : Bool)
  | connectionError
  | closed
  deriving DecidableEq, Repr

structure WsRun (β : Type) where
  conn : WsConnection β
  lws : LwsPhase
  /-- The frames for which a send returned true. -/
  accepted : List (WsFrame β)
  /-- The frames a writeable callback took off the queue. -/
  sent : List (WsFrame β)
  log : List (WsEffect β)
  deriving DecidableEq, Repr

namespace WsRun

def create (maxQueuedBytes closeDrainTimeoutMs : Nat) (wsi : Bool) : WsRun β :=
  { conn :=
      { maxQueuedBytes
        closeDrainTimeoutMs
        wsi
        outgoing := []
        queuedBytes := 0
        incoming := []
        established := false
        closeRequested := false
        closedDelivered := false }
    lws := .connecting
    accepted := []
    sent := []
    log := [] }

/-- The order of callbacks lws keeps to. -/
def allowed (r : WsRun β) : WsStep β → Bool
  | .established => r.lws = .connecting
  | .writeable _ => r.lws = .established
  | .receive _ _ _ _ => r.lws = .established
  | .connectionError => r.lws = .connecting
  | .closed => r.lws ≠ .finished
  | _ => true

/-- A call or a callback that left the connection as `c` and did `effects`. -/
def after (r : WsRun β) (result : WsConnection β × List (WsEffect β)) : WsRun β :=
  { r with conn := result.1, log := r.log ++ result.2 }

/-- A send that answered. -/
def offered (r : WsRun β) (frame : WsFrame β) (result : Bool × WsConnection β × List (WsEffect β)) :
    WsRun β :=
  { r.after result.2 with accepted := r.accepted ++ if result.1 then [frame] else [] }

/-- The frame a writeable callback takes off the queue. -/
def takenOff (lwsPre : Nat) (r : WsRun β) (written : Int) : List (WsFrame β) :=
  match r.conn.outgoing with
  | [] => []
  | front :: _ =>
      if written < WsConnection.toInt (front.paddedPayload.length - lwsPre) then
        []
      else
        [front.frame lwsPre]

def step [Inhabited β] (lwsPre : Nat) (r : WsRun β) : WsStep β → WsRun β
  | .sendText text => r.offered ⟨text, false⟩ (r.conn.sendText lwsPre text)
  | .sendBinary bytes => r.offered ⟨bytes, true⟩ (r.conn.sendBinary lwsPre bytes)
  | .setReceivePaused paused => r.after (r.conn, r.conn.setReceivePaused paused)
  | .close => r.after r.conn.close
  | .established =>
      { r.after ({ r.conn with wsi := true, established := true }, [.onConnected]) with
        lws := .established }
  | .writeable written =>
      { r.after (r.conn.writeable lwsPre written) with
        sent := r.sent ++ r.takenOff lwsPre written }
  | .receive bytes first final binary => r.after (r.conn.receive bytes first final binary)
  | .connectionError =>
      { r.after ((r.conn.finish true).1, (r.conn.finish true).2 ++ [.hangUp]) with
        lws := .finished }
  | .closed => { r.after (r.conn.finish false) with lws := .finished }

end WsRun

/-! ## Reading the log -/

namespace WsEffect

def written : WsEffect β → Option (WsFrame β)
  | .write frame => some frame
  | _ => none

def isCloseNormal : WsEffect β → Bool
  | .closeNormal => true
  | _ => false

def isOnConnected : WsEffect β → Bool
  | .onConnected => true
  | _ => false

def isOnClosed : WsEffect β → Bool
  | .onClosed _ => true
  | _ => false

/-- Neither a write nor a turn in the connection's life. -/
def minor (e : WsEffect β) : Bool :=
  e.written.isNone && !e.isCloseNormal && !e.isOnConnected && !e.isOnClosed

end WsEffect

/-- The part of a log before the first close handshake. -/
def beforeClose (log : List (WsEffect β)) : List (WsEffect β) :=
  log.takeWhile fun e => !e.isCloseNormal

/-- What came before the handshake does not change after it. -/
theorem beforeClose_append {log : List (WsEffect β)} (h : log.any WsEffect.isCloseNormal = true)
    (more : List (WsEffect β)) : beforeClose (log ++ more) = beforeClose log := by
  unfold beforeClose
  induction log with
  | nil => cases h
  | cons e log ih =>
      rw [List.cons_append, List.takeWhile_cons, List.takeWhile_cons]
      split
      · rename_i hgoes
        rw [List.any_cons] at h
        cases hclose : e.isCloseNormal with
        | true =>
            rw [hclose] at hgoes
            cases hgoes
        | false =>
            rw [hclose, Bool.false_or] at h
            rw [ih h]
      · rfl

/-- With no handshake yet, all of the log comes before it. -/
theorem beforeClose_of_none {log : List (WsEffect β)}
    (h : log.any WsEffect.isCloseNormal = false) (more : List (WsEffect β)) :
    beforeClose (log ++ more) = log ++ beforeClose more := by
  unfold beforeClose
  refine List.takeWhile_append_of_pos ?_
  intro e he
  rw [List.any_eq_false] at h
  simpa using h e he

/-! ## Invariant -/

namespace WsRun

structure Sound (lwsPre : Nat) (r : WsRun β) : Prop where
  queued : r.conn.queuedBytes =
    (r.conn.outgoing.map fun o => (o.frame lwsPre).payload.length).sum
  cap : r.conn.queuedBytes ≤ r.conn.maxQueuedBytes
  order : r.sent ++ r.conn.outgoing.map (Outgoing.frame lwsPre) = r.accepted
  reached : r.sent.Sublist (r.log.filterMap WsEffect.written)
  connected : r.conn.established = r.log.any WsEffect.isOnConnected
  waiting : r.lws = .connecting → r.conn.established = false
  closed : r.conn.closedDelivered = decide (r.lws = .finished)
  closedOnce : (r.log.filter WsEffect.isOnClosed).length = if r.lws = .finished then 1 else 0
  failed : .onClosed true ∈ r.log → r.conn.established = false ∧ r.lws = .finished
  handshake : r.log.any WsEffect.isCloseNormal = true →
    r.conn.closeRequested = true ∧ r.conn.outgoing = [] ∧
      r.accepted.Sublist ((beforeClose r.log).filterMap WsEffect.written)

theorem minor_iff {e : WsEffect β} :
    e.minor = true ↔ e.written = none ∧ e.isCloseNormal = false ∧ e.isOnConnected = false ∧
      e.isOnClosed = false := by
  unfold WsEffect.minor
  simp [and_assoc]

/-- Minor effects are no turn in the connection's life. -/
theorem views_of_minor {effects : List (WsEffect β)} (h : ∀ e ∈ effects, e.minor = true) :
    effects.any WsEffect.isCloseNormal = false ∧ effects.any WsEffect.isOnConnected = false ∧
      effects.filter WsEffect.isOnClosed = [] := by
  rw [List.any_eq_false, List.any_eq_false, List.filter_eq_nil_iff]
  refine ⟨?_, ?_, ?_⟩
  · exact fun e he => Bool.eq_false_iff.mp (minor_iff.mp (h e he)).2.1
  · exact fun e he => Bool.eq_false_iff.mp (minor_iff.mp (h e he)).2.2.1
  · exact fun e he => Bool.eq_false_iff.mp (minor_iff.mp (h e he)).2.2.2

namespace Sound

variable {lwsPre : Nat} {r : WsRun β}

/-! ### What a longer log keeps -/

theorem reached_append (h : r.Sound lwsPre) (more : List (WsEffect β)) :
    r.sent.Sublist ((r.log ++ more).filterMap WsEffect.written) := by
  rw [List.filterMap_append]
  exact h.reached.trans (List.sublist_append_left _ _)

theorem connected_append (h : r.Sound lwsPre) {more : List (WsEffect β)}
    (hmore : more.any WsEffect.isOnConnected = false) :
    r.conn.established = (r.log ++ more).any WsEffect.isOnConnected := by
  rw [List.any_append, hmore, Bool.or_false, h.connected]

theorem closedOnce_append (h : r.Sound lwsPre) {more : List (WsEffect β)}
    (hmore : more.filter WsEffect.isOnClosed = []) :
    ((r.log ++ more).filter WsEffect.isOnClosed).length = if r.lws = .finished then 1 else 0 := by
  rw [List.filter_append, hmore, List.append_nil]
  exact h.closedOnce

theorem failed_append (h : r.Sound lwsPre) {more : List (WsEffect β)}
    (hmore : .onClosed true ∉ more) (hmem : .onClosed true ∈ r.log ++ more) :
    r.conn.established = false ∧ r.lws = .finished :=
  h.failed ((List.mem_append.mp hmem).resolve_right hmore)

/-- The handshake stays where it was, and so do the frames before it. -/
theorem handshake_append (h : r.Sound lwsPre) {more : List (WsEffect β)}
    (hmore : more.any WsEffect.isCloseNormal = false)
    (hany : (r.log ++ more).any WsEffect.isCloseNormal = true) :
    r.conn.closeRequested = true ∧ r.conn.outgoing = [] ∧
      r.accepted.Sublist ((beforeClose (r.log ++ more)).filterMap WsEffect.written) := by
  rw [List.any_append, hmore, Bool.or_false] at hany
  rw [beforeClose_append hany]
  exact h.handshake hany

/-- While the connection may still be written to, there has been no handshake. -/
theorem noHandshake (h : r.Sound lwsPre)
    (hopen : r.conn.closeRequested = false ∨ r.conn.outgoing ≠ []) :
    r.log.any WsEffect.isCloseNormal = false := by
  rw [← Bool.not_eq_true]
  intro hany
  rcases h.handshake hany with ⟨hrequested, hempty, -⟩
  rcases hopen with hopen | hopen
  · rw [hopen] at hrequested
    cases hrequested
  · exact hopen hempty

/-- Nor is there one after a step that issues none. -/
theorem noHandshake_append (h : r.Sound lwsPre)
    (hopen : r.conn.closeRequested = false ∨ r.conn.outgoing ≠ []) {more : List (WsEffect β)}
    (hmore : more.any WsEffect.isCloseNormal = false) :
    (r.log ++ more).any WsEffect.isCloseNormal = false := by
  rw [List.any_append, h.noHandshake hopen, hmore]
  rfl

/-! ### Steps -/

/-- Something minor, with the queue and the connection's phase as they were. -/
theorem minor (h : r.Sound lwsPre) {c : WsConnection β} {effects : List (WsEffect β)}
    (heffects : ∀ e ∈ effects, e.minor = true) (houtgoing : c.outgoing = r.conn.outgoing)
    (hqueued : c.queuedBytes = r.conn.queuedBytes)
    (hmax : c.maxQueuedBytes = r.conn.maxQueuedBytes)
    (hestablished : c.established = r.conn.established)
    (hclosed : c.closedDelivered = r.conn.closedDelivered)
    (hclose : r.conn.closeRequested = true → c.closeRequested = true) :
    (r.after (c, effects)).Sound lwsPre := by
  rcases views_of_minor heffects with ⟨hnoClose, hnoConnect, hnoClosed⟩
  unfold after
  refine ⟨?_, ?_, ?_, h.reached_append effects, ?_, ?_, ?_, h.closedOnce_append hnoClosed, ?_, ?_⟩
  · simpa only [hqueued, houtgoing] using h.queued
  · simpa only [hqueued, hmax] using h.cap
  · simpa only [houtgoing] using h.order
  · exact hestablished.trans (h.connected_append hnoConnect)
  · intro hlws
    exact hestablished.trans (h.waiting hlws)
  · simpa only [hclosed] using h.closed
  · intro hmem
    simpa only [hestablished] using
      h.failed_append (fun hnew => absurd (heffects _ hnew) nofun) hmem
  · intro hany
    rcases h.handshake_append hnoClose hany with ⟨hrequested, hempty, hall⟩
    exact ⟨hclose hrequested, houtgoing.trans hempty, hall⟩

theorem frame_enqueued [Inhabited β] (lwsPre : Nat) (bytes : List β) (binary : Bool) :
    Outgoing.frame lwsPre
      { paddedPayload := List.replicate lwsPre default ++ bytes, binary } = ⟨bytes, binary⟩ := by
  unfold Outgoing.frame
  rw [List.drop_left' List.length_replicate]

theorem enqueue [Inhabited β] (h : r.Sound lwsPre) (bytes : List β) (binary : Bool) :
    (r.offered ⟨bytes, binary⟩ (r.conn.enqueue lwsPre bytes binary)).Sound lwsPre := by
  have hrefused : r.offered ⟨bytes, binary⟩ (false, r.conn, []) = r := by
    simp [offered, after]
  unfold WsConnection.enqueue
  split
  · rw [hrefused]
    exact h
  · rename_i hflags
    split
    · rw [hrefused]
      exact h
    · rename_i hfits
      simp only [Bool.or_eq_true, Bool.not_eq_true', not_or, Bool.not_eq_true] at hflags
      unfold offered after
      refine ⟨?_, ?_, ?_, h.reached_append _, h.connected_append rfl, h.waiting, h.closed,
        h.closedOnce_append rfl, h.failed_append (by simp), ?_⟩
      · simp only [List.map_append, List.map_singleton, frame_enqueued, List.sum_append,
          List.sum_singleton]
        rw [h.queued]
      · exact Nat.le_of_not_lt hfits
      · simp only [List.map_append, List.map_singleton, frame_enqueued, if_true]
        rw [← List.append_assoc, h.order]
      · -- a send is accepted before `Close` only
        intro hany
        rw [h.noHandshake_append (.inl hflags.1.2) rfl] at hany
        cases hany

theorem established (h : r.Sound lwsPre) (hlws : r.lws = .connecting) :
    Sound lwsPre
      { r.after ({ r.conn with wsi := true, established := true }, [.onConnected]) with
        lws := .established } := by
  unfold after
  refine ⟨h.queued, h.cap, h.order, h.reached_append _, ?_, nofun, ?_, ?_, ?_,
    h.handshake_append rfl⟩
  · simp [WsEffect.isOnConnected]
  · simp only
    rw [h.closed, hlws]
    rfl
  · have honce := h.closedOnce_append (rfl : [WsEffect.onConnected].filter WsEffect.isOnClosed = [])
    rw [hlws] at honce
    exact honce
  · intro hmem
    have hfinished := (h.failed_append (by simp) hmem).2
    rw [hlws] at hfinished
    cases hfinished

/-- The last callback. -/
theorem finish (h : r.Sound lwsPre) (hlws : r.lws ≠ .finished) {failed : Bool}
    (hfailed : failed = true → r.lws = .connecting) {more : List (WsEffect β)}
    (hmore : ∀ e ∈ more, e.minor = true) :
    Sound lwsPre
      { r.after ((r.conn.finish failed).1, (r.conn.finish failed).2 ++ more) with
        lws := .finished } := by
  rcases views_of_minor hmore with ⟨hnoClose, hnoConnect, hnoClosed⟩
  have hfinish : r.conn.finish failed =
      ({ r.conn with closedDelivered := true }, [.onClosed failed]) := by
    unfold WsConnection.finish
    have hopen : r.conn.closedDelivered = false := by rw [h.closed, decide_eq_false hlws]
    rw [hopen]
    rfl
  rw [hfinish]
  unfold after
  refine ⟨h.queued, h.cap, h.order, h.reached_append _, h.connected_append hnoConnect, nofun, rfl,
    ?_, ?_, h.handshake_append hnoClose⟩
  · have honce := h.closedOnce
    rw [if_neg hlws] at honce
    rw [List.filter_append, List.filter_append, hnoClosed, List.length_append, honce]
    rfl
  · intro hmem
    refine ⟨?_, rfl⟩
    simp only [List.mem_append, List.mem_singleton] at hmem
    rcases hmem with hmem | heq | hmem
    · exact (h.failed hmem).1
    · -- this very callback: a connect fails before it was ever established
      cases heq
      exact h.waiting (hfailed rfl)
    · exact absurd (hmore _ hmem) nofun

/-- A frame has been handed to lws. -/
theorem write (h : r.Sound lwsPre) (hqueue : r.conn.outgoing ≠ []) {c : WsConnection β}
    {sent : List (WsFrame β)} {frame : WsFrame β}
    (hqueued : c.queuedBytes = (c.outgoing.map fun o => (o.frame lwsPre).payload.length).sum)
    (hcap : c.queuedBytes ≤ c.maxQueuedBytes)
    (horder : sent ++ c.outgoing.map (Outgoing.frame lwsPre) = r.accepted)
    (hreached : sent.Sublist (r.log.filterMap WsEffect.written ++ [frame]))
    (hestablished : c.established = r.conn.established)
    (hclosed : c.closedDelivered = r.conn.closedDelivered) :
    Sound lwsPre { r with conn := c, sent, log := r.log ++ [.write frame] } := by
  refine ⟨hqueued, hcap, horder, ?_, hestablished.trans (h.connected_append rfl), ?_, ?_,
    h.closedOnce_append rfl, ?_, ?_⟩
  · rw [List.filterMap_append]
    exact hreached
  · intro hlws
    exact hestablished.trans (h.waiting hlws)
  · exact hclosed.trans h.closed
  · intro hmem
    simpa only [hestablished] using h.failed_append (by simp) hmem
  · intro hany
    rw [h.noHandshake_append (.inr hqueue) rfl] at hany
    cases hany

/-- lws took less than the frame: it stays at the front. -/
theorem writeFailed (h : r.Sound lwsPre) {front : Outgoing β} {rest : List (Outgoing β)}
    (houtgoing : r.conn.outgoing = front :: rest) :
    (r.after (r.conn, [.write (front.frame lwsPre), .hangUp])).Sound lwsPre := by
  have hwrite := h.write (by rw [houtgoing]; nofun) h.queued h.cap h.order
    (h.reached.trans (List.sublist_append_left _ [front.frame lwsPre])) rfl rfl
  have hhangUp : ∀ e ∈ [(.hangUp : WsEffect β)], e.minor = true := List.forall_mem_singleton.mpr rfl
  have hafter := hwrite.minor hhangUp rfl rfl rfl rfl rfl id
  unfold after at hafter ⊢
  simpa using hafter

theorem writeTaken (h : r.Sound lwsPre) {front : Outgoing β} {rest : List (Outgoing β)}
    (houtgoing : r.conn.outgoing = front :: rest) :
    Sound lwsPre
      { r with
        conn :=
          { r.conn with
            outgoing := rest
            queuedBytes := r.conn.queuedBytes - (front.paddedPayload.length - lwsPre) }
        sent := r.sent ++ [front.frame lwsPre]
        log := r.log ++ [.write (front.frame lwsPre)] } := by
  have hqueued := h.queued
  have hcap := h.cap
  have horder := h.order
  have hlength : (front.frame lwsPre).payload.length = front.paddedPayload.length - lwsPre :=
    List.length_drop
  rw [houtgoing, List.map_cons, List.sum_cons, hlength] at hqueued
  rw [houtgoing, List.map_cons] at horder
  refine h.write (by rw [houtgoing]; nofun) ?_ ?_ ?_ (h.reached.append (List.Sublist.refl _)) rfl rfl
  · show r.conn.queuedBytes - (front.paddedPayload.length - lwsPre) = (rest.map _).sum
    rw [hqueued, Nat.add_sub_cancel_left]
  · show r.conn.queuedBytes - (front.paddedPayload.length - lwsPre) ≤ r.conn.maxQueuedBytes
    omega
  · simpa using horder

theorem afterWrite (h : r.Sound lwsPre) :
    (r.after (r.conn, r.conn.afterWrite)).Sound lwsPre := by
  unfold WsConnection.afterWrite
  split
  · exact h.minor (List.forall_mem_singleton.mpr rfl) rfl rfl rfl rfl rfl id
  · rename_i hempty
    rw [ne_eq, Decidable.not_not] at hempty
    split
    · rename_i hrequested
      have hall : r.sent = r.accepted := by simpa [hempty] using h.order
      unfold after
      refine ⟨h.queued, h.cap, h.order, h.reached_append _, h.connected_append rfl, h.waiting,
        h.closed, h.closedOnce_append rfl, h.failed_append (by simp), ?_⟩
      intro _
      refine ⟨hrequested, hempty, ?_⟩
      -- lws may call back once more after a handshake: the first one counts
      cases hany : r.log.any WsEffect.isCloseNormal with
      | true =>
          rw [beforeClose_append hany]
          exact (h.handshake hany).2.2
      | false =>
          rw [beforeClose_of_none hany, List.filterMap_append, ← hall]
          exact h.reached.trans (List.sublist_append_left _ _)
    · exact h.minor (by simp) rfl rfl rfl rfl rfl id

theorem writeable (h : r.Sound lwsPre) (written : Int) :
    Sound lwsPre
      { r.after (r.conn.writeable lwsPre written) with
        sent := r.sent ++ r.takenOff lwsPre written } := by
  unfold WsConnection.writeable takenOff
  cases houtgoing : r.conn.outgoing with
  | nil =>
      simp only [List.append_nil]
      exact h.afterWrite
  | cons front rest =>
      simp only
      split
      · simp only [List.append_nil]
        exact h.writeFailed houtgoing
      · have hdone := (h.writeTaken houtgoing).afterWrite
        unfold after at hdone ⊢
        simpa using hdone

end Sound

theorem sound_step [Inhabited β] {lwsPre : Nat} {r : WsRun β} (h : r.Sound lwsPre) {s : WsStep β}
    (hallowed : r.allowed s = true) : (r.step lwsPre s).Sound lwsPre := by
  cases s with
  | sendText text => exact h.enqueue text false
  | sendBinary bytes => exact h.enqueue bytes true
  | setReceivePaused paused =>
      refine h.minor ?_ rfl rfl rfl rfl rfl id
      unfold WsConnection.setReceivePaused
      split
      · exact nofun
      · exact List.forall_mem_singleton.mpr rfl
  | close =>
      unfold step WsConnection.close
      simp only
      split
      · exact h.minor nofun rfl rfl rfl rfl rfl id
      · refine h.minor ?_ rfl rfl rfl rfl rfl (fun _ => rfl)
        split
        · exact List.forall_mem_cons.mpr ⟨rfl, List.forall_mem_singleton.mpr rfl⟩
        · split
          · exact List.forall_mem_singleton.mpr rfl
          · exact nofun
  | established => exact h.established (of_decide_eq_true hallowed)
  | writeable written => exact h.writeable written
  | receive bytes first final binary =>
      unfold step WsConnection.receive
      simp only
      split
      · refine h.minor (List.forall_mem_singleton.mpr ?_) rfl rfl rfl rfl rfl id
        cases binary <;> rfl
      · exact h.minor nofun rfl rfl rfl rfl rfl id
  | connectionError =>
      have hlws : r.lws = .connecting := of_decide_eq_true hallowed
      exact h.finish (by rw [hlws]; nofun) (fun _ => hlws) (List.forall_mem_singleton.mpr rfl)
  | closed =>
      have hlws : r.lws ≠ .finished := by simpa [allowed] using hallowed
      have hnever : false = true → r.lws = .connecting := nofun
      have hnothing : ∀ e ∈ ([] : List (WsEffect β)), e.minor = true := nofun
      have hfinish := h.finish hlws hnever hnothing
      rw [List.append_nil] at hfinish
      exact hfinish

theorem Sound.connected_iff {lwsPre : Nat} {r : WsRun β} (h : r.Sound lwsPre) :
    r.conn.established = true ↔ .onConnected ∈ r.log := by
  rw [h.connected, List.any_eq_true]
  constructor
  · rintro ⟨e, he, hconnected⟩
    cases e <;> first | exact he | cases hconnected
  · intro hmem
    exact ⟨_, hmem, rfl⟩

theorem Sound.closed_iff {lwsPre : Nat} {r : WsRun β} (h : r.Sound lwsPre) :
    r.conn.closedDelivered = false ↔ ∀ connectFailed, .onClosed connectFailed ∉ r.log := by
  have honce := h.closedOnce
  rw [h.closed, decide_eq_false_iff_not]
  constructor
  · intro hlws connectFailed hmem
    rw [if_neg hlws, List.length_eq_zero_iff, List.filter_eq_nil_iff] at honce
    exact honce _ hmem rfl
  · intro hnone hlws
    rw [if_pos hlws, List.length_eq_one_iff] at honce
    rcases honce with ⟨e, he⟩
    have hmem : e ∈ r.log.filter WsEffect.isOnClosed := by
      rw [he]
      exact List.mem_singleton_self e
    rcases List.mem_filter.mp hmem with ⟨hlog, hclosed⟩
    cases e with
    | onClosed connectFailed => exact hnone connectFailed hlog
    | _ => cases hclosed

theorem step_max [Inhabited β] (lwsPre : Nat) (r : WsRun β) (s : WsStep β) :
    (r.step lwsPre s).conn.maxQueuedBytes = r.conn.maxQueuedBytes := by
  cases s with
  | sendText text =>
      unfold step offered after WsConnection.sendText WsConnection.enqueue
      grind
  | sendBinary bytes =>
      unfold step offered after WsConnection.sendBinary WsConnection.enqueue
      grind
  | setReceivePaused paused => rfl
  | close =>
      unfold step after WsConnection.close
      grind
  | established => rfl
  | writeable written =>
      unfold step after WsConnection.writeable
      grind
  | receive bytes first final binary =>
      unfold step after WsConnection.receive
      grind
  | connectionError =>
      unfold step after WsConnection.finish
      grind
  | closed =>
      unfold step after WsConnection.finish
      grind

theorem written_enqueue [Inhabited β] (lwsPre : Nat) (c : WsConnection β) (bytes : List β)
    (binary : Bool) : (c.enqueue lwsPre bytes binary).2.2.filterMap WsEffect.written = [] := by
  unfold WsConnection.enqueue
  split
  · rfl
  · split
    · rfl
    · rfl

theorem written_finish (c : WsConnection β) (failed : Bool) :
    (c.finish failed).2.filterMap WsEffect.written = [] := by
  unfold WsConnection.finish
  split
  · rfl
  · rfl

theorem written_afterWrite (c : WsConnection β) :
    c.afterWrite.filterMap WsEffect.written = [] := by
  unfold WsConnection.afterWrite
  split
  · rfl
  · split
    · rfl
    · rfl

theorem written_writeable (lwsPre : Nat) (c : WsConnection β) (written : Int) :
    (c.writeable lwsPre written).2.filterMap WsEffect.written =
      (c.outgoing.map (Outgoing.frame lwsPre)).head?.toList := by
  unfold WsConnection.writeable
  cases c.outgoing with
  | nil => exact written_afterWrite c
  | cons front rest =>
      simp only
      split
      · rfl
      · simp only [List.filterMap_cons, WsEffect.written, written_afterWrite]
        rfl

/-- Every writeable callback hands lws the oldest frame it has not taken, and nothing else does. -/
theorem step_written [Inhabited β] {lwsPre : Nat} {r : WsRun β} (h : r.Sound lwsPre) (s : WsStep β) :
    (r.step lwsPre s).log.filterMap WsEffect.written =
      r.log.filterMap WsEffect.written ++
        match s with
        | .writeable _ => r.accepted[r.sent.length]?.toList
        | _ => [] := by
  have happend : ∀ result : WsConnection β × List (WsEffect β),
      (r.after result).log.filterMap WsEffect.written =
        r.log.filterMap WsEffect.written ++ result.2.filterMap WsEffect.written :=
    fun _ => List.filterMap_append
  cases s with
  | sendText text => exact (happend _).trans (by rw [WsConnection.sendText, written_enqueue])
  | sendBinary bytes => exact (happend _).trans (by rw [WsConnection.sendBinary, written_enqueue])
  | setReceivePaused paused =>
      refine (happend _).trans ?_
      unfold WsConnection.setReceivePaused
      split
      · rfl
      · rfl
  | close =>
      refine (happend _).trans ?_
      unfold WsConnection.close
      split
      · rfl
      · simp only
        split
        · rfl
        · split
          · rfl
          · rfl
  | established => exact happend _
  | writeable written =>
      refine (happend _).trans ?_
      rw [written_writeable]
      simp only
      rw [← h.order, List.getElem?_append_right (Nat.le_refl _), Nat.sub_self,
        List.head?_eq_getElem?]
  | receive bytes first final binary =>
      refine (happend _).trans ?_
      unfold WsConnection.receive
      simp only
      split
      · cases binary <;> rfl
      · rfl
  | connectionError =>
      refine (happend _).trans ?_
      rw [List.filterMap_append, written_finish]
      rfl
  | closed => exact (happend _).trans (by rw [written_finish])

/-- When a send is accepted. -/
theorem enqueue_iff [Inhabited β] (lwsPre : Nat) (c : WsConnection β) (bytes : List β)
    (binary : Bool) :
    (c.enqueue lwsPre bytes binary).1 = true ↔
      c.established = true ∧ c.closeRequested = false ∧ c.closedDelivered = false ∧
        c.queuedBytes + bytes.length ≤ c.maxQueuedBytes := by
  unfold WsConnection.enqueue
  split
  · rename_i hflags
    refine ⟨nofun, ?_⟩
    rintro ⟨hopen, hrequested, hclosed, -⟩
    rw [hopen, hrequested, hclosed] at hflags
    cases hflags
  · rename_i hflags
    simp only [Bool.or_eq_true, Bool.not_eq_true', not_or, Bool.not_eq_true,
      Bool.not_eq_false] at hflags
    split
    · rename_i hfull
      refine ⟨nofun, ?_⟩
      rintro ⟨-, -, -, hfits⟩
      omega
    · rename_i hfits
      exact ⟨fun _ => ⟨hflags.1.1, hflags.1.2, hflags.2, Nat.le_of_not_lt hfits⟩, fun _ => rfl⟩

theorem sound_create (lwsPre maxQueuedBytes closeDrainTimeoutMs : Nat) (wsi : Bool) :
    (create maxQueuedBytes closeDrainTimeoutMs wsi : WsRun β).Sound lwsPre :=
  ⟨rfl, Nat.zero_le _, rfl, List.Sublist.refl _, rfl, fun _ => rfl, rfl, rfl, nofun, nofun⟩

theorem sound_run [Inhabited β] {lwsPre maxQueuedBytes closeDrainTimeoutMs : Nat} {wsi : Bool}
    {r : WsRun β}
    (hrun : Run (step lwsPre) (fun r s => r.allowed s = true)
      (create maxQueuedBytes closeDrainTimeoutMs wsi) r) :
    r.Sound lwsPre ∧ r.conn.maxQueuedBytes = maxQueuedBytes := by
  refine hrun.invariant
    (I := fun r => r.Sound lwsPre ∧ r.conn.maxQueuedBytes = maxQueuedBytes)
    ⟨sound_create lwsPre _ _ _, rfl⟩ ?_
  rintro a s ⟨hsound, hmax⟩ hallowed
  exact ⟨sound_step hsound hallowed, (step_max lwsPre a s).trans hmax⟩

/-- Whatever is called and whatever lws answers, as long as it keeps to its order of callbacks: the
queue's bytes are counted and capped; frames reach lws one per writeable callback, oldest first, with
the bytes and the kind they were accepted with; a send is accepted between `OnConnected` and `Close` or
`OnClosed`, if it fits; the normal close comes after `Close`, with every accepted frame handed to lws
before; and `OnClosed` is delivered once, as a failed connect only where there was no `OnConnected`. -/
theorem ws_connection_protocol [Inhabited β] {lwsPre maxQueuedBytes closeDrainTimeoutMs : Nat}
    {wsi : Bool} {r : WsRun β}
    (hrun : Run (step lwsPre) (fun r s => r.allowed s = true)
      (create maxQueuedBytes closeDrainTimeoutMs wsi) r) :
    (r.conn.queuedBytes = (r.conn.outgoing.map fun o => (o.frame lwsPre).payload.length).sum ∧
      r.conn.queuedBytes ≤ maxQueuedBytes) ∧
    r.sent ++ r.conn.outgoing.map (Outgoing.frame lwsPre) = r.accepted ∧
    (∀ s, (r.step lwsPre s).log.filterMap WsEffect.written =
      r.log.filterMap WsEffect.written ++
        match s with
        | .writeable _ => r.accepted[r.sent.length]?.toList
        | _ => []) ∧
    (∀ bytes binary, (r.conn.enqueue lwsPre bytes binary).1 = true ↔
      .onConnected ∈ r.log ∧ r.conn.closeRequested = false ∧
        (∀ connectFailed, .onClosed connectFailed ∉ r.log) ∧
        r.conn.queuedBytes + bytes.length ≤ maxQueuedBytes) ∧
    (.closeNormal ∈ r.log →
      r.conn.closeRequested = true ∧ r.conn.outgoing = [] ∧
        r.accepted.Sublist ((beforeClose r.log).filterMap WsEffect.written)) ∧
    (r.log.filter WsEffect.isOnClosed).length = (if r.lws = .finished then 1 else 0) ∧
    (.onClosed true ∈ r.log → .onConnected ∉ r.log) := by
  rcases sound_run hrun with ⟨h, rfl⟩
  refine ⟨⟨h.queued, h.cap⟩, h.order, step_written h, ?_, ?_, h.closedOnce, ?_⟩
  · intro bytes binary
    rw [enqueue_iff, h.connected_iff, h.closed_iff]
  · intro hclose
    exact h.handshake (List.any_eq_true.mpr ⟨_, hclose, rfl⟩)
  · intro hfailed hconnected
    have hestablished := h.connected_iff.mpr hconnected
    rw [(h.failed hfailed).1] at hestablished
    cases hestablished

/-- Two frames are accepted and the connection is closed; the first write goes through, the second at
the next callback, and then the handshake. -/
def drainedClose : List (WsStep UInt8) :=
  [.established, .sendBinary [1, 2, 3], .sendText [4], .close, .sendText [5], .writeable 3,
    .writeable 1, .closed]

theorem ws_connection_protocol_drained :
    (exec (step 4) (create 8 5000 true) drainedClose).accepted =
        [⟨[1, 2, 3], true⟩, ⟨[4], false⟩] ∧
      (exec (step 4) (create 8 5000 true) drainedClose).sent =
        [⟨[1, 2, 3], true⟩, ⟨[4], false⟩] ∧
      (exec (step 4) (create 8 5000 true) drainedClose).accepted.Sublist
        ((beforeClose (exec (step 4) (create 8 5000 true) drainedClose).log).filterMap
          WsEffect.written) ∧
      ((exec (step 4) (create 8 5000 true) drainedClose).log.filter WsEffect.isOnClosed).length = 1 :=
  have hrun : Run (step 4) (fun r s => r.allowed s = true) (create 8 5000 true)
      (exec (step 4) (create 8 5000 true) drainedClose) := .of_exec (by decide +kernel)
  have h := ws_connection_protocol hrun
  have haccepted : (exec (step 4) (create 8 5000 true) drainedClose).accepted =
      [⟨[1, 2, 3], true⟩, ⟨[4], false⟩] := by decide +kernel
  have hempty : (exec (step 4) (create 8 5000 true) drainedClose).conn.outgoing = [] := by
    decide +kernel
  have horder := h.2.1
  ⟨haccepted, by rw [hempty, List.map_nil, List.append_nil] at horder; exact horder.trans haccepted,
    (h.2.2.2.2.1 (by decide +kernel)).2.2, h.2.2.2.2.2.1.trans (by decide +kernel)⟩

end WsRun

end Net
end AudioFork
