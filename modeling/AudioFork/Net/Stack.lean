import Mathlib.Data.List.Flatten
import AudioFork.Lib.KeyedTrace
import AudioFork.Net.WsConnection
import AudioFork.Session.Delivery

/-!
# Stack — a session on its websockets

`LwsNetPort` gives a session an adapter for each connection.  The adapter passes the session's calls
on to a `WsConnection`, and what lws reports of that connection back to the session.  Here the two
models are put together: a step is an entry point of the session, or a callback of lws on the socket
of one connection with the entry point that it leads to.

The session's model leaves it to the environment how a connection answers a frame, and to the
contract in which order callbacks come.  A run of the stack has no such freedom: the answers are
those of the sockets (`answered`), and the callbacks are those lws may make (`WsRun.allowed`).
`Coupled` says how the port's records of a connection and the state of its socket hang together.
-/

namespace AudioFork
namespace Net

open Lib Session

variable {S : ℕ+}

/-- The message a frame goes out as. -/
def message : Frame UInt8 → WsFrame UInt8
  | .audio bytes => ⟨bytes, true⟩
  | .hello payload => ⟨payload, false⟩
  | .resume payload => ⟨payload, false⟩
  | .text payload => ⟨payload, false⟩
  | .bye payload => ⟨payload, false⟩

/-! ## Adapters -/

/-- `WsConnectionAdapter`: bound to its connection until that delivers `OnClosed`. -/
structure Socket where
  bound : Bool
  run : WsRun UInt8
  deriving DecidableEq, Repr

namespace Socket

/-- `Connect` made the connection and bound the adapter to it; lws has set `wsi_`. -/
def dialed (closeDrainTimeoutMs : Nat) (k : Conn) : Socket :=
  { bound := true
    run := WsRun.create k.maxQueuedBytes closeDrainTimeoutMs true }

/-- The call of the connection that a message is sent with. -/
def sendCall (m : WsFrame UInt8) : WsStep UInt8 :=
  if m.binary then .sendBinary m.payload else .sendText m.payload

/-- `SendText` or `SendBinary`. -/
def send (lwsPre : Nat) (socket : Socket) (frame : Frame UInt8) : Bool × Socket :=
  if socket.bound then
    let m := message frame
    ((socket.run.conn.enqueue lwsPre m.payload m.binary).1,
      { socket with run := socket.run.step lwsPre (sendCall m) })
  else
    (false, socket)

def close (lwsPre : Nat) (socket : Socket) : Socket :=
  if socket.bound then { socket with run := socket.run.step lwsPre .close } else socket

/-- The offers are answered as recorded. -/
def answers (lwsPre : Nat) : Socket → List (Offer UInt8) → Bool
  | _, [] => true
  | socket, o :: offers =>
      (socket.send lwsPre o.frame).1 == o.accepted &&
        answers lwsPre (socket.send lwsPre o.frame).2 offers

/-- Offers, and `Close` after them. -/
def obey (lwsPre : Nat) (offers : List (Offer UInt8)) (closes : Bool) (socket : Socket) : Socket :=
  let socket := offers.foldl (fun socket o => (socket.send lwsPre o.frame).2) socket
  if closes then socket.close lwsPre else socket

/-- What lws does to the connection, and the handler's calls that come of it. -/
def handle (lwsPre : Nat) (socket : Socket) (s : WsStep UInt8) : Socket × List (WsEffect UInt8) :=
  let run := socket.run.step lwsPre s
  let effects := run.log.drop socket.run.log.length
  -- `OnClosed` unbinds the adapter before the session hears of it
  ({ bound := socket.bound && !effects.any WsEffect.isOnClosed, run := run }, effects)

end Socket

/-- The entry point of the session that a call of the handler leads to. -/
def entry (c : Nat) : WsEffect UInt8 → Option (Session.Step UInt8)
  | .onConnected => some (.onConnected c)
  | .onText text => some (.onText c text)
  | .onBinary bytes => some (.onBinary c bytes)
  | .onClosed connectFailed => some (.onClosed c connectFailed)
  | _ => none

/-! ## The stack -/

structure Stack (S : ℕ+) where
  world : World UInt8 S
  /-- One for each connection that `Connect` returned. -/
  sockets : List Socket

inductive StackStep
  /-- An entry point of the session that no socket calls. -/
  | call (s : Session.Step UInt8)
  /-- A callback of lws on the socket of connection `c`. -/
  | lws (c : Nat) (s : WsStep UInt8)
  deriving DecidableEq, Repr

namespace Stack

/-- The frames offered on connection `c` while the session went from `w` to `w'`. -/
def offersTo (w w' : World UInt8 S) (c : Nat) : List (Offer UInt8) :=
  (w'.port.wire.drop w.port.wire.length).filter fun o => o.conn = c

/-- `Close` was called on connection `c` in the meantime. -/
def closes (w w' : World UInt8 S) (c : Nat) : Bool :=
  hungUp w'.port.conns c && !hungUp w.port.conns c

section

variable (lwsPre closeDrainTimeoutMs : Nat)

/-- The sockets, with those of the connections dialed in the meantime. -/
def dial (w w' : World UInt8 S) (sockets : List Socket) : List Socket :=
  sockets ++ (w'.port.conns.drop w.port.conns.length).map (Socket.dialed closeDrainTimeoutMs)

/-- An entry point of the session.  Within one, a connection is never sent anything after `Close`, so
each socket gets its frames and then its `Close`. -/
def enter (env : Env UInt8) (s : Session.Step UInt8) (st : Stack S) : Stack S :=
  let w := step env st.world s
  { world := w
    sockets := (dial closeDrainTimeoutMs st.world w st.sockets).mapIdx fun c socket =>
      socket.obey lwsPre (offersTo st.world w c) (closes st.world w c) }

/-- The session was told what the sockets answer. -/
def answered (env : Env UInt8) (s : Session.Step UInt8) (st : Stack S) : Bool :=
  let w := step env st.world s
  let sockets := dial closeDrainTimeoutMs st.world w st.sockets
  (List.range sockets.length).all fun c =>
    sockets[c]?.all fun socket => socket.answers lwsPre (offersTo st.world w c)

/-- Before the session hears of a callback. -/
def note (c : Nat) (socket : Socket) (st : Stack S) : Stack S :=
  { st with sockets := st.sockets.set c socket }

def step (env : Env UInt8) (st : Stack S) : StackStep → Stack S
  | .call s => st.enter lwsPre closeDrainTimeoutMs env s
  | .lws c s =>
      match st.sockets[c]? with
      | none => st
      | some socket =>
          match (socket.handle lwsPre s).2.findSome? (entry c) with
          | none => st.note c (socket.handle lwsPre s).1
          | some call =>
              (st.note c (socket.handle lwsPre s).1).enter lwsPre closeDrainTimeoutMs env call

/-- The steps of a session that sockets take. -/
def fromSocket : Session.Step UInt8 → Bool
  | .onConnected _ => true
  | .onText _ _ => true
  | .onBinary _ _ => true
  | .onClosed _ _ => true
  | _ => false

/-- The steps of a connection that lws takes. -/
def fromLws : WsStep UInt8 → Bool
  | .established => true
  | .writeable _ => true
  | .receive _ _ _ _ => true
  | .connectionError => true
  | .closed => true
  | _ => false

/-- The shard keeps its promises, lws keeps to its order, and the session is told the truth. -/
def allowed (env : Env UInt8) (st : Stack S) : StackStep → Bool
  | .call s =>
      !fromSocket s && contract st.world s && st.answered lwsPre closeDrainTimeoutMs env s
  | .lws c s =>
      match st.sockets[c]? with
      | none => false
      | some socket =>
          fromLws s && socket.run.allowed s &&
            match (socket.handle lwsPre s).2.findSome? (entry c) with
            | none => true
            | some call =>
                (st.note c (socket.handle lwsPre s).1).answered lwsPre closeDrainTimeoutMs env call

end

end Stack

namespace Sample

/-- A fork whose connections have room for its hello. -/
def roomyTuning : Tuning := { Session.Sample.tuning with coalesceMaxBytes := 64 }

def roomyFork : World UInt8 Session.Sample.slabBytes :=
  (World.create Session.Sample.params roomyTuning true Session.Sample.supply).get rfl

theorem create_roomyFork :
    World.create Session.Sample.params roomyTuning true Session.Sample.supply = some roomyFork :=
  rfl

/-- The fork streams four bytes and is stopped; lws takes the hello, the audio and the bye, and then
the socket closes. -/
def farewell : List StackStep :=
  [.call .start, .lws 0 .established, .call (.pushAudio [1, 2, 3, 4]), .call .pump,
    .lws 0 (.writeable 256), .lws 0 (.writeable 256), .call .stop, .call (.runPosted 0),
    .lws 0 (.writeable 256), .lws 0 .closed]

def parted : Stack Session.Sample.slabBytes :=
  exec (Stack.step 4 5000 Session.Sample.env) ⟨roomyFork, []⟩ farewell

theorem run_parted :
    Run (Stack.step 4 5000 Session.Sample.env)
      (fun st a => st.allowed 4 5000 Session.Sample.env a = true) ⟨roomyFork, []⟩ parted :=
  Run.of_exec (by decide +kernel)

end Sample

/-! ## A connection and its socket -/

/-- The messages among `offers` that were accepted. -/
def taken (offers : List (Offer UInt8)) : List (WsFrame UInt8) :=
  (offers.filter Offer.accepted).map fun o => message o.frame

theorem taken_append (offers more : List (Offer UInt8)) :
    taken (offers ++ more) = taken offers ++ taken more := by
  simp [taken]

namespace Socket

variable {lwsPre : Nat} {k : Conn} {frames : List (WsFrame UInt8)} {socket : Socket}

/-- The socket is where the port's record `k` says, and it was given `frames`. -/
structure Coupled (lwsPre : Nat) (k : Conn) (frames : List (WsFrame UInt8)) (socket : Socket) :
    Prop where
  sound : socket.run.Sound lwsPre
  bound : socket.bound = !k.closed
  up : socket.run.conn.established = k.connected
  gone : socket.run.conn.closedDelivered = k.closed
  requested : socket.run.conn.closeRequested = true → k.closeCalled = true
  called : k.closeCalled = true → socket.run.conn.closeRequested = true ∨ k.closed = true
  room : socket.run.conn.maxQueuedBytes = k.maxQueuedBytes
  accepted : socket.run.accepted = frames

theorem coupled_dialed (lwsPre closeDrainTimeoutMs : Nat) (hup : k.connected = false)
    (hgone : k.closed = false) (hcalled : k.closeCalled = false) :
    Coupled lwsPre k [] (dialed closeDrainTimeoutMs k) where
  sound := WsRun.sound_create _ _ _ _
  bound := by rw [hgone]; rfl
  up := hup.symm
  gone := hgone.symm
  requested := nofun
  called := by rw [hcalled]; nofun
  room := rfl
  accepted := rfl

/-! ### Calls of the session -/

theorem step_sendCall (lwsPre : Nat) (r : WsRun UInt8) (m : WsFrame UInt8) :
    r.step lwsPre (sendCall m) = r.offered m (r.conn.enqueue lwsPre m.payload m.binary) := by
  rcases m with ⟨payload, binary⟩
  cases binary <;> rfl

/-- A send changes the queue and nothing else. -/
theorem enqueue_writes (lwsPre : Nat) (c : WsConnection UInt8) (bytes : List UInt8) (binary : Bool) :
    ∃ outgoing queuedBytes, (c.enqueue lwsPre bytes binary).2.1 =
      { c with outgoing := outgoing, queuedBytes := queuedBytes } := by
  unfold WsConnection.enqueue
  split
  · exact ⟨c.outgoing, c.queuedBytes, rfl⟩
  · split
    · exact ⟨c.outgoing, c.queuedBytes, rfl⟩
    · exact ⟨_, _, rfl⟩

theorem Coupled.send (h : Coupled lwsPre k frames socket) (frame : Frame UInt8) :
    Coupled lwsPre k (frames ++ if (socket.send lwsPre frame).1 then [message frame] else [])
      (socket.send lwsPre frame).2 := by
  unfold Socket.send
  split
  · simp only
    rcases enqueue_writes lwsPre socket.run.conn (message frame).payload (message frame).binary with
      ⟨_, _, hwrites⟩
    rw [step_sendCall]
    exact
      { sound := h.sound.enqueue _ _
        bound := h.bound
        up := by simp only [WsRun.offered, WsRun.after, hwrites]; exact h.up
        gone := by simp only [WsRun.offered, WsRun.after, hwrites]; exact h.gone
        requested := by simp only [WsRun.offered, WsRun.after, hwrites]; exact h.requested
        called := by simp only [WsRun.offered, WsRun.after, hwrites]; exact h.called
        room := by simp only [WsRun.offered, WsRun.after, hwrites]; exact h.room
        accepted := by simp only [WsRun.offered, h.accepted] }
  · simpa using h

/-- A socket takes frames between `OnConnected` and `Close` only. -/
theorem Coupled.accepts (h : Coupled lwsPre k frames socket) {frame : Frame UInt8}
    (hsend : (socket.send lwsPre frame).1 = true) : k.connected = true ∧ k.closeCalled = false := by
  unfold Socket.send at hsend
  split at hsend
  · rcases (WsRun.enqueue_iff lwsPre socket.run.conn _ _).mp hsend with
      ⟨hup, hrequested, hgone, -⟩
    refine ⟨h.up.symm.trans hup, ?_⟩
    rw [← Bool.not_eq_true]
    intro hcalled
    rcases h.called hcalled with hclose | hclosed
    · rw [hrequested] at hclose
      cases hclose
    · rw [← h.gone, hgone] at hclosed
      cases hclosed
  · cases hsend

theorem close_writes {c : WsConnection UInt8} (hopen : c.closedDelivered = false) :
    c.close.1 = { c with closeRequested := true } := by
  unfold WsConnection.close
  cases hrequested : c.closeRequested with
  | true =>
      rw [Bool.or_true, if_pos rfl, ← hrequested]
  | false =>
      rw [hopen]
      rfl

theorem Coupled.close (h : Coupled lwsPre k frames socket) :
    Coupled lwsPre { k with closeCalled := true } frames (socket.close lwsPre) := by
  unfold Socket.close
  split
  · rename_i hbound
    have hopen : socket.run.conn.closedDelivered = false := by
      have hbound' := h.bound
      rw [hbound, ← h.gone] at hbound'
      simpa using hbound'
    have hwrites := close_writes hopen
    have hsound := WsRun.sound_step h.sound (s := .close) rfl
    exact
      { sound := hsound
        bound := h.bound
        up := by simp only [WsRun.step, WsRun.after, hwrites]; exact h.up
        gone := by simp only [WsRun.step, WsRun.after, hwrites]; exact h.gone
        requested := fun _ => rfl
        called := by simp only [WsRun.step, WsRun.after, hwrites]; exact fun _ => Or.inl trivial
        room := by simp only [WsRun.step, WsRun.after, hwrites]; exact h.room
        accepted := h.accepted }
  · -- the connection is gone: the adapter has nothing to close
    rename_i hunbound
    have hclosed : k.closed = true := by
      have hbound := h.bound
      rw [Bool.not_eq_true _ |>.mp hunbound] at hbound
      simpa using hbound.symm
    exact { h with requested := fun _ => rfl, called := fun _ => Or.inr hclosed }

/-- Frames, answered as the session was told. -/
theorem Coupled.sends {offers : List (Offer UInt8)} (h : Coupled lwsPre k frames socket)
    (hanswers : socket.answers lwsPre offers = true) :
    Coupled lwsPre k (frames ++ taken offers)
        (offers.foldl (fun socket o => (socket.send lwsPre o.frame).2) socket) ∧
      ∀ o ∈ offers, o.accepted = true → k.connected = true ∧ k.closeCalled = false := by
  induction offers generalizing socket frames with
  | nil =>
      refine ⟨?_, nofun⟩
      rw [show taken [] = [] from rfl, List.append_nil]
      exact h
  | cons o offers ih =>
      simp only [answers, Bool.and_eq_true, beq_iff_eq] at hanswers
      rcases ih (h.send o.frame) hanswers.2 with ⟨hrest, husable⟩
      have htaken : taken (o :: offers) =
          (if (socket.send lwsPre o.frame).1 then [message o.frame] else []) ++ taken offers := by
        rw [hanswers.1]
        cases haccepted : o.accepted <;> simp [taken, haccepted]
      refine ⟨?_, List.forall_mem_cons.mpr ⟨?_, husable⟩⟩
      · rw [htaken, ← List.append_assoc]
        exact hrest
      · intro haccepted
        exact h.accepts (hanswers.1.trans haccepted)

/-- What the session does to a connection within one entry point. -/
theorem Coupled.obey {offers : List (Offer UInt8)} {closes : Bool}
    (h : Coupled lwsPre k frames socket) (called : Bool) (hanswers : socket.answers lwsPre offers = true)
    (hmono : k.closeCalled = true → called = true) (hcloses : closes = (called && !k.closeCalled)) :
    Coupled lwsPre { k with closeCalled := called } (frames ++ taken offers)
      (socket.obey lwsPre offers closes) := by
  rcases h.sends hanswers with ⟨hsent, -⟩
  unfold Socket.obey
  by_cases hsame : called = k.closeCalled
  · have hnone : closes = false := by rw [hcloses, hsame, Bool.and_not_self]
    rw [hnone, hsame]
    exact hsent
  · have hnow : called = true ∧ k.closeCalled = false := by
      cases hbefore : k.closeCalled with
      | true => exact absurd ((hmono hbefore).trans hbefore.symm) hsame
      | false =>
          rw [hbefore] at hsame
          exact ⟨Bool.not_eq_false _ |>.mp hsame, rfl⟩
    rw [hcloses, hnow.1, hnow.2]
    exact hsent.close

/-! ### Callbacks of lws -/

/-- The record of a connection after it has reported. -/
def noted (k : Conn) : Option (Session.Step UInt8) → Conn
  | some (.onConnected _) => { k with connected := true }
  | some (.onClosed _ _) => { k with closed := true }
  | _ => k

/-- What connection `c` may report, recorded as `k`. -/
def Reports (c : Nat) (k : Conn) : Session.Step UInt8 → Prop
  | .onConnected a => a = c ∧ k.connected = false ∧ k.closed = false
  | .onText a _ => a = c ∧ k.closed = false
  | .onBinary a _ => a = c ∧ k.closed = false
  | .onClosed a _ => a = c ∧ k.closed = false
  | _ => False

/-- What a callback did, by its effects. -/
theorem handle_eq {s : WsStep UInt8} (effects : List (WsEffect UInt8))
    (hlog : (socket.run.step lwsPre s).log = socket.run.log ++ effects) :
    socket.handle lwsPre s =
      ({ bound := socket.bound && !effects.any WsEffect.isOnClosed
         run := socket.run.step lwsPre s }, effects) := by
  unfold handle
  simp only
  rw [hlog, List.drop_left]

/-- A callback of which the session hears nothing, or a message. -/
theorem Coupled.heard (h : Coupled lwsPre k frames socket) {run : WsRun UInt8}
    (hsound : run.Sound lwsPre) (hup : run.conn.established = socket.run.conn.established)
    (hgone : run.conn.closedDelivered = socket.run.conn.closedDelivered)
    (hrequested : run.conn.closeRequested = socket.run.conn.closeRequested)
    (hroom : run.conn.maxQueuedBytes = socket.run.conn.maxQueuedBytes)
    (haccepted : run.accepted = socket.run.accepted) :
    Coupled lwsPre k frames { bound := socket.bound, run := run } where
  sound := hsound
  bound := h.bound
  up := hup.trans h.up
  gone := hgone.trans h.gone
  requested := by rw [hrequested]; exact h.requested
  called := by rw [hrequested]; exact h.called
  room := hroom.trans h.room
  accepted := haccepted.trans h.accepted

/-- A write takes a frame off the queue or leaves it there. -/
theorem writeable_writes (lwsPre : Nat) (c : WsConnection UInt8) (written : Int) :
    ∃ outgoing queuedBytes, (c.writeable lwsPre written).1 =
      { c with outgoing := outgoing, queuedBytes := queuedBytes } := by
  unfold WsConnection.writeable
  split
  · exact ⟨c.outgoing, c.queuedBytes, rfl⟩
  · simp only
    split
    · exact ⟨c.outgoing, c.queuedBytes, rfl⟩
    · exact ⟨_, _, rfl⟩

/-- The handler hears nothing of it. -/
theorem writeable_silent (lwsPre : Nat) (conn : WsConnection UInt8) (written : Int) (c : Nat) :
    ∀ e ∈ (conn.writeable lwsPre written).2, entry c e = none ∧ e.isOnClosed = false := by
  have hafter : ∀ conn : WsConnection UInt8,
      ∀ e ∈ conn.afterWrite, entry c e = none ∧ e.isOnClosed = false := by
    intro conn e he
    unfold WsConnection.afterWrite at he
    split at he
    · rw [List.mem_singleton.mp he]
      exact ⟨rfl, rfl⟩
    · split at he
      · simp only [List.mem_cons, List.not_mem_nil, or_false] at he
        rcases he with rfl | rfl <;> exact ⟨rfl, rfl⟩
      · cases he
  unfold WsConnection.writeable
  split
  · exact hafter conn
  · simp only
    split
    · simp [entry, WsEffect.isOnClosed]
    · exact List.forall_mem_cons.mpr ⟨⟨rfl, rfl⟩, hafter _⟩

/-- The last callback. -/
theorem Coupled.finish (h : Coupled lwsPre k frames socket) {run : WsRun UInt8} (failed : Bool)
    (hsound : run.Sound lwsPre) (hopen : socket.run.conn.closedDelivered = false)
    (hconn : run.conn = (socket.run.conn.finish failed).1)
    (haccepted : run.accepted = socket.run.accepted) :
    Coupled lwsPre { k with closed := true } frames { bound := false, run := run } := by
  have hfinish : run.conn = { socket.run.conn with closedDelivered := true } := by
    rw [hconn, WsConnection.finish, hopen]
    rfl
  exact
    { sound := hsound
      bound := rfl
      up := by rw [hfinish]; exact h.up
      gone := by rw [hfinish]
      requested := by rw [hfinish]; exact h.requested
      called := fun _ => Or.inr rfl
      room := by rw [hfinish]; exact h.room
      accepted := haccepted.trans h.accepted }

theorem Coupled.handle (h : Coupled lwsPre k frames socket) (c : Nat) {s : WsStep UInt8}
    (hlws : Stack.fromLws s = true) (hallowed : socket.run.allowed s = true) :
    Coupled lwsPre (noted k ((socket.handle lwsPre s).2.findSome? (entry c))) frames
        (socket.handle lwsPre s).1 ∧
      ∀ call, (socket.handle lwsPre s).2.findSome? (entry c) = some call → Reports c k call := by
  have hsound := WsRun.sound_step h.sound hallowed
  have hopen : socket.run.lws ≠ .finished → k.closed = false := by
    intro hlws
    rw [← h.gone, h.sound.closed, decide_eq_false hlws]
  cases s with
  | established =>
      have hconnecting : socket.run.lws = .connecting := of_decide_eq_true hallowed
      rw [handle_eq [.onConnected] rfl]
      refine ⟨?_, ?_⟩
      · exact
          { sound := hsound
            bound := by simpa [WsEffect.isOnClosed, entry, noted] using h.bound
            up := rfl
            gone := h.gone
            requested := h.requested
            called := h.called
            room := h.room
            accepted := h.accepted }
      · rintro call ⟨⟩
        refine ⟨rfl, ?_, hopen (by simp [hconnecting])⟩
        rw [← h.up]
        exact h.sound.waiting hconnecting
  | writeable written =>
      rcases writeable_writes lwsPre socket.run.conn written with ⟨_, _, hwrites⟩
      have hsilent := writeable_silent lwsPre socket.run.conn written c
      have hnone : (socket.run.conn.writeable lwsPre written).2.findSome? (entry c) = none :=
        List.findSome?_eq_none_iff.mpr fun e he => (hsilent e he).1
      have hbound : (socket.run.conn.writeable lwsPre written).2.any WsEffect.isOnClosed = false :=
        List.any_eq_false.mpr fun e he => by simp [(hsilent e he).2]
      rw [handle_eq (socket.run.conn.writeable lwsPre written).2 rfl, hnone, hbound]
      refine ⟨?_, fun _ h => by cases h⟩
      rw [Bool.not_false, Bool.and_true]
      refine h.heard hsound ?_ ?_ ?_ ?_ rfl
      all_goals simp only [WsRun.step, WsRun.after, hwrites]
  | receive bytes first final binary =>
      have hestablished : socket.run.lws = .established := of_decide_eq_true hallowed
      have hopen' := hopen (by simp [hestablished])
      have hwrites : ∃ incoming, (socket.run.conn.receive bytes first final binary).1 =
          { socket.run.conn with incoming := incoming } := by
        unfold WsConnection.receive
        simp only
        split
        · exact ⟨_, rfl⟩
        · exact ⟨_, rfl⟩
      rcases hwrites with ⟨_, hwrites⟩
      have hheard : Coupled lwsPre k frames
          { bound := socket.bound
            run := socket.run.step lwsPre (.receive bytes first final binary) } := by
        refine h.heard hsound ?_ ?_ ?_ ?_ rfl
        all_goals simp only [WsRun.step, WsRun.after, hwrites]
      rw [handle_eq (socket.run.conn.receive bytes first final binary).2 rfl]
      unfold WsConnection.receive
      simp only
      split
      · -- a text and a binary message are told apart by the handler only
        cases binary
        all_goals
          refine ⟨by simpa [entry, noted, WsEffect.isOnClosed] using hheard, ?_⟩
          rintro call ⟨⟩
          exact ⟨rfl, hopen'⟩
      · exact ⟨by simpa [noted] using hheard, fun _ h => by cases h⟩
  | connectionError =>
      have hconnecting : socket.run.lws = .connecting := of_decide_eq_true hallowed
      have hopen' := hopen (by simp [hconnecting])
      have hdelivers : socket.run.conn.closedDelivered = false := h.gone.trans hopen'
      have hfinish : (socket.run.conn.finish true).2 = [.onClosed true] := by
        rw [WsConnection.finish, hdelivers]
        rfl
      rw [handle_eq ((socket.run.conn.finish true).2 ++ [.hangUp]) rfl, hfinish]
      refine ⟨?_, ?_⟩
      · have hgone := h.finish true hsound hdelivers rfl rfl
        have hentry : ([.onClosed true] ++ [.hangUp] : List (WsEffect UInt8)).findSome? (entry c) =
            some (.onClosed c true) := rfl
        rw [hentry]
        simpa [noted, WsEffect.isOnClosed] using hgone
      · rintro call ⟨⟩
        exact ⟨rfl, hopen'⟩
  | closed =>
      have hopen' := hopen (by simpa [WsRun.allowed] using hallowed)
      have hdelivers : socket.run.conn.closedDelivered = false := h.gone.trans hopen'
      have hfinish : (socket.run.conn.finish false).2 = [.onClosed false] := by
        rw [WsConnection.finish, hdelivers]
        rfl
      rw [handle_eq (socket.run.conn.finish false).2 rfl, hfinish]
      refine ⟨?_, ?_⟩
      · have hgone := h.finish false hsound hdelivers rfl rfl
        simpa [entry, noted, WsEffect.isOnClosed] using hgone
      · rintro call ⟨⟩
        exact ⟨rfl, hopen'⟩
  | sendText text => cases hlws
  | sendBinary bytes => cases hlws
  | setReceivePaused paused => cases hlws
  | close => cases hlws

end Socket

/-! ## The session and its sockets -/

namespace Stack

/-- Every connection has its socket, coupled to the port's record of it. -/
structure Coupled (lwsPre : Nat) (conns : List Conn) (wire : List (Offer UInt8))
    (sockets : List Socket) : Prop where
  length : sockets.length = conns.length
  each : ∀ (c : Nat) (k : Conn) (socket : Socket), conns[c]? = some k → sockets[c]? = some socket →
    socket.Coupled lwsPre k (taken (wire.filter fun o => o.conn = c))

/-- A connection that is answered as its socket would, and not before `OnConnected` or after
`Close`. -/
def polite (env : Env UInt8) : Env UInt8 :=
  env.answering fun n k f => env.accept n k f && (k.connected && !k.closeCalled)

theorem polite_polite (env : Env UInt8) : Polite (polite env) := by
  intro n k f haccept
  simp only [polite, Env.answering, Bool.and_eq_true, Bool.not_eq_true'] at haccept
  exact haccept.2

variable {lwsPre closeDrainTimeoutMs : Nat} {env : Env UInt8} {st : Stack S} {s : Session.Step UInt8}

theorem answers_of_answered (h : st.answered lwsPre closeDrainTimeoutMs env s = true) {c : Nat}
    {socket : Socket}
    (hc : (dial closeDrainTimeoutMs st.world (Session.step env st.world s) st.sockets)[c]? =
      some socket) :
    socket.answers lwsPre (offersTo st.world (Session.step env st.world s) c) = true := by
  have hlt := (List.getElem?_eq_some_iff.mp hc).1
  have hall := List.all_eq_true.mp h c (List.mem_range.mpr hlt)
  rw [hc] at hall
  exact hall

section

variable (hcoupled : Coupled lwsPre (preamble st.world s).port.conns st.world.port.wire st.sockets)
  (hheld : st.world.lifecycle.Held)
  (hdialed : ∀ o ∈ st.world.port.wire, o.conn < st.world.port.conns.length)
  (hanswered : st.answered lwsPre closeDrainTimeoutMs env s = true)

theorem offersTo_eq {offers : List (Offer UInt8)}
    (h : World.Consults env (preamble st.world s) (fun e => Session.step e st.world s) offers)
    (c : Nat) :
    offersTo st.world (Session.step env st.world s) c = offers.filter fun o => o.conn = c := by
  unfold offersTo
  rw [h.wire, wire_preamble, List.drop_left]

/-- The sockets that were there, and those of the connections dialed. -/
theorem getElem?_dial {w' : World UInt8 S} (hlength : st.sockets.length = st.world.port.conns.length)
    (c : Nat) :
    (dial closeDrainTimeoutMs st.world w' st.sockets)[c]? =
      if c < st.world.port.conns.length then
        st.sockets[c]?
      else
        w'.port.conns[c]?.map (Socket.dialed closeDrainTimeoutMs) := by
  unfold dial
  split
  · rename_i hlt
    rw [List.getElem?_append_left (by omega)]
  · rename_i hge
    rw [List.getElem?_append_right (by omega), hlength, List.getElem?_map, List.getElem?_drop,
      Nat.add_sub_cancel' (Nat.le_of_not_lt hge)]

theorem taken_filter_append (wire offers : List (Offer UInt8)) (c : Nat) :
    taken ((wire ++ offers).filter fun o => o.conn = c) =
      taken (wire.filter fun o => o.conn = c) ++ taken (offers.filter fun o => o.conn = c) := by
  rw [List.filter_append, taken_append]

/-- Nothing was offered on a connection that was not there. -/
theorem filter_conn_of_length_le {offers : List (Offer UInt8)} {n c : Nat}
    (h : ∀ o ∈ offers, o.conn < n) (hc : n ≤ c) : (offers.filter fun o => o.conn = c) = [] := by
  rw [List.filter_eq_nil_iff]
  intro o ho
  have hlt := h o ho
  simp only [decide_eq_true_eq]
  omega

include hcoupled hanswered

include hdialed in
/-- What the sockets answer is what the session is told, and they are coupled afterwards. -/
theorem coupled_enter :
    Coupled lwsPre (Session.step env st.world s).port.conns (Session.step env st.world s).port.wire
      (st.enter lwsPre closeDrainTimeoutMs env s).sockets := by
  rcases consults_step env st.world s with ⟨offers, hconsults, -⟩
  have hlater := later_conns_step env st.world s
  have hwire : (Session.step env st.world s).port.wire = st.world.port.wire ++ offers := by
    rw [hconsults.wire, wire_preamble]
  have hconns := (preamble_conns st.world s).1
  have hlength : st.sockets.length = st.world.port.conns.length := hcoupled.length.trans hconns
  have hgrows : st.world.port.conns.length ≤ (Session.step env st.world s).port.conns.length := by
    rw [← hconns]
    exact hlater.length_le
  refine ⟨?_, ?_⟩
  · simp only [enter, dial, List.length_mapIdx, List.length_append, List.length_map,
      List.length_drop]
    omega
  · intro c k' socket' hk' hsocket'
    have hhung : hungUp (Session.step env st.world s).port.conns c = k'.closeCalled := by
      unfold hungUp
      rw [hk']
      rfl
    simp only [enter, List.getElem?_mapIdx, Option.map_eq_some_iff] at hsocket'
    rcases hsocket' with ⟨socket, hsocket, rfl⟩
    have hanswers := answers_of_answered hanswered hsocket
    rw [getElem?_dial hlength] at hsocket
    rw [hwire, taken_filter_append, ← offersTo_eq hconsults]
    split at hsocket
    · -- a connection that was there
      rename_i hlt
      obtain ⟨k, hk⟩ : ∃ k, (preamble st.world s).port.conns[c]? = some k :=
        ⟨_, List.getElem?_eq_getElem (hconns.symm ▸ hlt)⟩
      rcases hlater.kept c k hk with ⟨called, hmono, hkept⟩
      have hrecord : k' = { k with closeCalled := called } :=
        Option.some.inj (hk'.symm.trans hkept)
      have hcalled : hungUp st.world.port.conns c = k.closeCalled := by
        rw [← (preamble_conns st.world s).2 c]
        unfold hungUp
        rw [hk]
        rfl
      rw [hrecord]
      refine (hcoupled.each c k socket hk hsocket).obey called hanswers hmono ?_
      unfold closes
      rw [hhung, hcalled, hrecord]
    · -- a connection that was dialed
      rename_i hge
      have hge' := Nat.le_of_not_lt hge
      rw [hk'] at hsocket
      have hnewest : Socket.dialed closeDrainTimeoutMs k' = socket := Option.some.inj hsocket
      rcases hlater.fresh c k' (hconns ▸ hge') hk' with ⟨hup, hgone⟩
      have hcalled : hungUp st.world.port.conns c = false := by
        unfold hungUp
        rw [List.getElem?_eq_none hge']
        rfl
      have hnew : Socket.Coupled lwsPre { k' with closeCalled := false } [] socket := by
        rw [← hnewest]
        exact Socket.coupled_dialed lwsPre closeDrainTimeoutMs
          (k := { k' with closeCalled := false }) hup hgone rfl
      rw [filter_conn_of_length_le hdialed hge']
      refine hnew.obey k'.closeCalled hanswers nofun ?_
      unfold closes
      rw [hhung, hcalled]

include hheld in
/-- The session would do the same on connections that are never answered before `OnConnected` or
after `Close`. -/
theorem step_polite : Session.step (polite env) st.world s = Session.step env st.world s := by
  rcases consults_step env st.world s with ⟨offers, hconsults, -⟩
  refine hconsults.only _ ?_
  intro i o ho
  have hmem := List.mem_of_getElem? ho
  have hlast := offers_newest hheld hconsults o hmem
  have hconns := (preamble_conns st.world s).1
  obtain ⟨k, hk⟩ : ∃ k, (preamble st.world s).port.conns[o.conn]? = some k :=
    ⟨_, List.getElem?_eq_getElem (by omega)⟩
  obtain ⟨socket, hsocket⟩ : ∃ socket, st.sockets[o.conn]? = some socket :=
    ⟨_, List.getElem?_eq_getElem (by rw [hcoupled.length]; omega)⟩
  have hdial : (dial closeDrainTimeoutMs st.world (Session.step env st.world s) st.sockets)[o.conn]? =
      some socket := by
    rw [getElem?_dial (hcoupled.length.trans hconns), if_pos (by omega)]
    exact hsocket
  have hanswers := answers_of_answered hanswered hdial
  have husable := ((hcoupled.each o.conn k socket hk hsocket).sends hanswers).2 o (by
    rw [offersTo_eq hconsults]
    exact List.mem_filter.mpr ⟨hmem, decide_eq_true rfl⟩)
  have hanswer := hconsults.answered i o ho
  unfold Env.accepts at hanswer ⊢
  simp only [hk] at hanswer ⊢
  show (env.accept _ k o.frame && (k.connected && !k.closeCalled)) = o.accepted
  rw [hanswer]
  cases haccepted : o.accepted with
  | false => rfl
  | true =>
      rcases husable haccepted with ⟨hup, hcalled⟩
      rw [hup, hcalled]
      rfl

end

/-! ## Runs -/

/-- A socket has reported, and the port has noted it. -/
theorem Coupled.note {conns : List Conn} {wire : List (Offer UInt8)} {sockets : List Socket}
    (h : Coupled lwsPre conns wire sockets) {c : Nat} {k : Conn} {socket : Socket}
    (hc : c < conns.length) (hsocket : socket.Coupled lwsPre k (taken (wire.filter fun o => o.conn = c))) :
    Coupled lwsPre (conns.set c k) wire (sockets.set c socket) where
  length := by rw [List.length_set, List.length_set, h.length]
  each := by
    intro a k' socket' hk' hsocket'
    by_cases ha : c = a
    · subst ha
      rw [List.getElem?_set_self hc] at hk'
      rw [List.getElem?_set_self (h.length ▸ hc)] at hsocket'
      cases hk'
      cases hsocket'
      exact hsocket
    · rw [List.getElem?_set_ne ha] at hk' hsocket'
      exact h.each a k' socket' hk' hsocket'

theorem preamble_report {w : World UInt8 S} {c : Nat} {k : Conn} (hk : w.port.conns[c]? = some k)
    {call : Session.Step UInt8} (hreports : Socket.Reports c k call) :
    (preamble w call).port.conns = w.port.conns.set c (Socket.noted k (some call)) := by
  have hmodify : ∀ f : Conn → Conn, w.port.conns.modify c f = w.port.conns.set c (f k) := by
    intro f
    rw [List.modify_eq_set_getElem?, hk]
    rfl
  cases call with
  | onConnected a =>
      cases hreports.1
      exact hmodify _
  | onClosed a connectFailed =>
      cases hreports.1
      exact hmodify _
  | onText a text => exact (set_of_getElem? hk).symm
  | onBinary a bytes => exact (set_of_getElem? hk).symm
  | _ => cases hreports

theorem contract_report {w : World UInt8 S} (hstarted : w.started = true) {c : Nat} {k : Conn}
    (hk : w.port.conns[c]? = some k) {call : Session.Step UInt8}
    (hreports : Socket.Reports c k call) : contract w call = true := by
  cases call with
  | onConnected a =>
      rcases hreports with ⟨rfl, hup, hclosed⟩
      simp [contract, hstarted, hk, hup, hclosed]
  | onClosed a connectFailed =>
      rcases hreports with ⟨rfl, hclosed⟩
      simp [contract, hstarted, outstanding, hk, hclosed]
  | onText a text =>
      rcases hreports with ⟨rfl, hclosed⟩
      simp [contract, hstarted, outstanding, hk, hclosed]
  | onBinary a bytes =>
      rcases hreports with ⟨rfl, hclosed⟩
      simp [contract, hstarted, outstanding, hk, hclosed]
  | _ => cases hreports

theorem preamble_call {w : World UInt8 S} {s : Session.Step UInt8} (h : fromSocket s = false) :
    (preamble w s).port.conns = w.port.conns := by
  cases s with
  | onConnected a => cases h
  | onClosed a connectFailed => cases h
  | retryTimer =>
      simp only [preamble]
      split <;> rfl
  | runPosted i =>
      simp only [preamble]
      split <;> rfl
  | _ => rfl

/-- Everything is coupled, and the session is in a run of its own, with the contract kept. -/
structure Ok (lwsPre : Nat) (env : Env UInt8) (w₀ : World UInt8 S) (st : Stack S) : Prop where
  coupled : Coupled lwsPre st.world.port.conns st.world.port.wire st.sockets
  run : Run (Session.step (polite env)) (fun w s => contract w s = true) w₀ st.world

section

variable {params : ForkParams} {tuning : Tuning} {onFinished : Bool} {supply : Buffers.SlabSupply}
  {w₀ : World UInt8 S} (hcreate : World.create params tuning onFinished supply = some w₀)

include hcreate

theorem Ok.enter (hrun : Run (Session.step (polite env)) (fun w s => contract w s = true) w₀ st.world)
    (hcoupled : Coupled lwsPre (preamble st.world s).port.conns st.world.port.wire st.sockets)
    (hcontract : contract st.world s = true)
    (hanswered : st.answered lwsPre closeDrainTimeoutMs env s = true) :
    Ok lwsPre env w₀ (st.enter lwsPre closeDrainTimeoutMs env s) := by
  have hheld := held_of_run hcreate hrun
  refine ⟨coupled_enter hcoupled (wire_dialed hcreate hrun) hanswered, ?_⟩
  show Run _ _ w₀ (Session.step env st.world s)
  rw [← step_polite hcoupled hheld hanswered]
  exact .tail s hrun hcontract

/-- What a callback of lws leaves behind, and the entry point it leads to. -/
theorem Ok.hears (h : Ok lwsPre env w₀ st) {c : Nat} {s : WsStep UInt8} {socket : Socket}
    (hsocket : st.sockets[c]? = some socket) (hlws : fromLws s = true)
    (hallowed : socket.run.allowed s = true) :
    ((socket.handle lwsPre s).2.findSome? (entry c) = none →
        Coupled lwsPre st.world.port.conns st.world.port.wire
          (st.note c (socket.handle lwsPre s).1).sockets) ∧
      ∀ call, (socket.handle lwsPre s).2.findSome? (entry c) = some call →
        contract st.world call = true ∧
          Coupled lwsPre (preamble st.world call).port.conns st.world.port.wire
            (st.note c (socket.handle lwsPre s).1).sockets := by
  have hlt : c < st.world.port.conns.length := by
    rw [← h.coupled.length]
    exact (List.getElem?_eq_some_iff.mp hsocket).1
  obtain ⟨k, hk⟩ : ∃ k, st.world.port.conns[c]? = some k := ⟨_, List.getElem?_eq_getElem hlt⟩
  rcases (h.coupled.each c k socket hk hsocket).handle c hlws hallowed with ⟨hnoted, hreports⟩
  have hcoupled := h.coupled.note hlt hnoted
  have hstarted : st.world.started = true := by
    rcases reachable_of_run hcreate h.run with hinit | hsound
    · have hnone : st.world.port.conns = [] := congrArg Lifecycle.conns hinit
      rw [hnone] at hlt
      cases hlt
    · exact hsound.started
  refine ⟨?_, ?_⟩
  · intro hnone
    rwa [hnone, show Socket.noted k none = k from rfl, set_of_getElem? hk] at hcoupled
  · intro call hcall
    have hreport := hreports call hcall
    rw [hcall, ← preamble_report hk hreport] at hcoupled
    exact ⟨contract_report hstarted hk hreport, hcoupled⟩

theorem Ok.step (h : Ok lwsPre env w₀ st) {a : StackStep}
    (hallowed : st.allowed lwsPre closeDrainTimeoutMs env a = true) :
    Ok lwsPre env w₀ (st.step lwsPre closeDrainTimeoutMs env a) := by
  cases a with
  | call s =>
      simp only [allowed, Bool.and_eq_true, Bool.not_eq_true'] at hallowed
      refine Ok.enter hcreate h.run ?_ hallowed.1.2 hallowed.2
      rw [preamble_call hallowed.1.1]
      exact h.coupled
  | lws c s =>
      simp only [allowed] at hallowed
      simp only [Stack.step]
      cases hsocket : st.sockets[c]? with
      | none => exact h
      | some socket =>
          simp only [hsocket, Bool.and_eq_true] at hallowed
          rcases h.hears hcreate hsocket hallowed.1.1 hallowed.1.2 with ⟨hsilent, hcalls⟩
          simp only
          cases hcall : (socket.handle lwsPre s).2.findSome? (entry c) with
          | none => exact ⟨hsilent hcall, h.run⟩
          | some call =>
              simp only [hcall] at hallowed ⊢
              rcases hcalls call hcall with ⟨hcontract, hcoupled⟩
              let noted := st.note c (socket.handle lwsPre s).1
              have hentered : Ok lwsPre env w₀ (noted.enter lwsPre closeDrainTimeoutMs env call) :=
                Ok.enter hcreate h.run hcoupled hcontract hallowed.2
              exact hentered

/-- A step of the stack is at most one of the session, and that one keeps the contract. -/
theorem Ok.world_step (h : Ok lwsPre env w₀ st) {a : StackStep}
    (hallowed : st.allowed lwsPre closeDrainTimeoutMs env a = true) :
    (st.step lwsPre closeDrainTimeoutMs env a).world = st.world ∨
      ∃ s, contract st.world s = true ∧
        (st.step lwsPre closeDrainTimeoutMs env a).world = Session.step env st.world s := by
  cases a with
  | call s =>
      simp only [allowed, Bool.and_eq_true] at hallowed
      exact Or.inr ⟨s, hallowed.1.2, rfl⟩
  | lws c s =>
      simp only [allowed] at hallowed
      simp only [Stack.step]
      cases hsocket : st.sockets[c]? with
      | none => exact Or.inl rfl
      | some socket =>
          simp only [hsocket, Bool.and_eq_true] at hallowed
          rcases h.hears hcreate hsocket hallowed.1.1 hallowed.1.2 with ⟨-, hcalls⟩
          simp only
          cases hcall : (socket.handle lwsPre s).2.findSome? (entry c) with
          | none => exact Or.inl rfl
          | some call => exact Or.inr ⟨call, (hcalls call hcall).1, rfl⟩

theorem ok_of_run {st : Stack S}
    (hrun : Run (step lwsPre closeDrainTimeoutMs env)
      (fun st a => st.allowed lwsPre closeDrainTimeoutMs env a = true) ⟨w₀, []⟩ st) :
    Ok lwsPre env w₀ st := by
  refine hrun.invariant (I := Ok lwsPre env w₀) ?_ fun _ _ h hallowed => h.step hcreate hallowed
  refine ⟨⟨?_, ?_⟩, .refl⟩
  · exact (congrArg (fun l : Lifecycle => l.conns.length) (lifecycle_create hcreate)).symm
  · intro c k socket _ hsocket
    cases hsocket

end

/-! ## What the session can rely on -/

/-- A session on its websockets is a session whose port keeps the contract, on connections that take
nothing before `OnConnected` or after `Close`.  What a connection took is what its socket accepted. -/
theorem stack_keeps_contract {params : ForkParams} {tuning : Tuning} {onFinished : Bool}
    {supply : Buffers.SlabSupply} {w₀ : World UInt8 S} {st : Stack S}
    (hcreate : World.create params tuning onFinished supply = some w₀)
    (hrun : Run (step lwsPre closeDrainTimeoutMs env)
      (fun st a => st.allowed lwsPre closeDrainTimeoutMs env a = true) ⟨w₀, []⟩ st) :
    Polite (polite env) ∧
      Run (Session.step (polite env)) (fun w s => contract w s = true) w₀ st.world ∧
      st.sockets.length = st.world.port.conns.length ∧
      ∀ (c : Nat) (k : Conn) (socket : Socket), st.world.port.conns[c]? = some k →
        st.sockets[c]? = some socket →
          socket.run.conn.established = k.connected ∧ socket.run.conn.closedDelivered = k.closed ∧
            (socket.run.conn.closeRequested = true → k.closeCalled = true) ∧
            socket.run.accepted = taken (st.world.port.wire.filter fun o => o.conn = c) := by
  have hok := ok_of_run hcreate hrun
  refine ⟨polite_polite env, hok.run, hok.coupled.length, ?_⟩
  intro c k socket hk hsocket
  have heach := hok.coupled.each c k socket hk hsocket
  exact ⟨heach.up, heach.gone, heach.requested, heach.accepted⟩

theorem stack_keeps_contract_parted :
    Run (Session.step (polite Session.Sample.env)) (fun w s => contract w s = true) Sample.roomyFork
      Sample.parted.world :=
  (stack_keeps_contract Sample.create_roomyFork Sample.run_parted).2.1

/-! ## What goes out -/

/-- The audio that lws took, connection after connection. -/
def aired (st : Stack S) : List UInt8 :=
  st.sockets.flatMap fun socket =>
    (socket.run.sent.filter WsFrame.binary).flatMap WsFrame.payload

theorem audio_of_taken (offers : List (Offer UInt8)) :
    ((taken offers).filter WsFrame.binary).flatMap WsFrame.payload = offers.flatMap audioOf := by
  induction offers with
  | nil => rfl
  | cons o offers ih =>
      rcases o with ⟨c, frame, accepted⟩
      rw [List.flatMap_cons, ← ih]
      cases accepted with
      | false => rfl
      | true => cases frame <;> rfl

/-- All connections together took what the log of offers says. -/
theorem audio_by_connection {wire : List (Offer UInt8)} {n : Nat}
    (hsorted : wire.Pairwise fun a b => a.conn ≤ b.conn) (hdialed : ∀ o ∈ wire, o.conn < n) :
    ((List.range n).flatMap fun c => (wire.filter fun o => o.conn = c).flatMap audioOf) =
      sentAudio wire := by
  have hall : (wire.filter fun o => o.conn < n) = wire := by
    rw [List.filter_eq_self]
    intro o ho
    exact decide_eq_true (hdialed o ho)
  rw [← List.flatMap_assoc, flatMap_filter_key hsorted, hall]
  rfl

/-- End to end: the audio lws took on all connections of a session, one after the other, is the audio
that its media thread handed over, in order and with some segments removed.  Nothing is sent twice,
whatever reconnects, modifies and refused frames lie in between. -/
theorem aired_in_order {params : ForkParams} {tuning : Tuning} {onFinished : Bool}
    {supply : Buffers.SlabSupply} {w₀ : World UInt8 S} {st : Stack S}
    (hcreate : World.create params tuning onFinished supply = some w₀)
    (hrun : Run (step lwsPre closeDrainTimeoutMs env)
      (fun st a => st.allowed lwsPre closeDrainTimeoutMs env a = true) ⟨w₀, []⟩ st) :
    List.Sublist st.aired st.world.handed := by
  have hok := ok_of_run hcreate hrun
  have hcoupled := hok.coupled
  have hbySocket : List.Sublist st.aired ((List.range st.sockets.length).flatMap fun c =>
      (st.world.port.wire.filter fun o => o.conn = c).flatMap audioOf) := by
    refine flatMap_sublist_range ?_
    intro c socket hsocket
    have hlt : c < st.world.port.conns.length := by
      rw [← hcoupled.length]
      exact (List.getElem?_eq_some_iff.mp hsocket).1
    have heach := hcoupled.each c _ socket (List.getElem?_eq_getElem hlt) hsocket
    -- the rest of what the socket accepted is still in its queue
    have hsent : socket.run.sent <+: taken (st.world.port.wire.filter fun o => o.conn = c) := by
      rw [← heach.accepted, ← heach.sound.order]
      exact List.prefix_append _ _
    rw [← audio_of_taken]
    exact (hsent.sublist.filter _).flatMap _
  rw [hcoupled.length, audio_by_connection (wire_in_dialing_order hcreate hok.run)
    (wire_dialed hcreate hok.run)] at hbySocket
  exact hbySocket.trans (sent_sublist_of_run hcreate hok.run)

theorem aired_in_order_parted :
    Sample.parted.aired = [1, 2, 3, 4] ∧ List.Sublist Sample.parted.aired Sample.parted.world.handed :=
  ⟨by decide +kernel, aired_in_order Sample.create_roomyFork Sample.run_parted⟩

/-- The close handshake of a connection goes out only after the session called `Close` on it, and
after every frame that was accepted on it. -/
theorem closes_after_everything {params : ForkParams} {tuning : Tuning} {onFinished : Bool}
    {supply : Buffers.SlabSupply} {w₀ : World UInt8 S} {st : Stack S}
    (hcreate : World.create params tuning onFinished supply = some w₀)
    (hrun : Run (step lwsPre closeDrainTimeoutMs env)
      (fun st a => st.allowed lwsPre closeDrainTimeoutMs env a = true) ⟨w₀, []⟩ st)
    {c : Nat} {socket : Socket} (hsocket : st.sockets[c]? = some socket)
    (hclose : .closeNormal ∈ socket.run.log) :
    hungUp st.world.port.conns c = true ∧
      (taken (st.world.port.wire.filter fun o => o.conn = c)).Sublist
        ((beforeClose socket.run.log).filterMap WsEffect.written) := by
  have hcoupled := (ok_of_run hcreate hrun).coupled
  have hlt : c < st.world.port.conns.length := by
    rw [← hcoupled.length]
    exact (List.getElem?_eq_some_iff.mp hsocket).1
  have hk := List.getElem?_eq_getElem hlt
  have heach := hcoupled.each c _ socket hk hsocket
  rcases heach.sound.handshake (List.any_eq_true.mpr ⟨_, hclose, rfl⟩) with ⟨hrequested, -, hall⟩
  refine ⟨?_, ?_⟩
  · unfold hungUp
    rw [hk]
    exact heach.requested hrequested
  · rw [← heach.accepted]
    exact hall

theorem closes_after_everything_parted :
    ∃ socket, Sample.parted.sockets[0]? = some socket ∧ .closeNormal ∈ socket.run.log ∧
      hungUp Sample.parted.world.port.conns 0 = true := by
  have hfirst : Sample.parted.sockets[0]?.any fun socket => .closeNormal ∈ socket.run.log := by
    decide +kernel
  rcases (Option.any_eq_true _ _).mp hfirst with ⟨socket, hsocket, hclose⟩
  have hclose' := of_decide_eq_true hclose
  exact ⟨socket, hsocket, hclose',
    (closes_after_everything Sample.create_roomyFork Sample.run_parted hsocket hclose').1⟩

end Stack

end Net
end AudioFork
