import AudioFork.Lib.RankedRecursion
import AudioFork.Session.ForkSession

/-!
# Driver — `Apply` and the callbacks around it

`Apply` is recursive through the transition table: an action may fire an event, whose answer is
applied in turn.  `applyBody` is the body of `Apply` with the recursive call as its first argument,
and `apply` unrolls it.  The table bounds the recursion (`SessionAction.depth`), so `apply` obeys
the recursion equation `apply_eq`.
-/

namespace AudioFork
namespace Session

open Buffers Protocol Lib

variable {β : Type} {S : ℕ+}

namespace World

/-! ## Texts -/

def maxPendingTexts : Nat := 64

def queueText (text : Text) (w : World β S) : World β S :=
  if w.session.pendingTexts.length ≥ maxPendingTexts then
    { w with
      session.pendingTexts := w.session.pendingTexts.drop 1 ++ [text]
      session.pendingTextsDropped := w.session.pendingTextsDropped + 1 }
  else
    { w with session.pendingTexts := w.session.pendingTexts ++ [text] }

/-- `SendText` for an application text; a refused one is counted as dropped. -/
def sendOrDrop (env : Env β) (c : Nat) (w : World β S) (text : Text) : World β S :=
  match w.send env c (.text text) with
  | (true, w) => w
  | (false, w) => { w with session.pendingTextsDropped := w.session.pendingTextsDropped + 1 }

def deliverText (env : Env β) (text : Text) (w : World β S) : World β S :=
  match w.session.state with
  | .active =>
      -- active with no socket: the reconnect that follows is what will flush the queue
      match w.session.connection with
      | some c => w.sendOrDrop env c text
      | none => w.queueText text
  | .connecting | .reconnecting => w.queueText text
  | .draining | .closing | .dead =>
      { w with session.pendingTextsDropped := w.session.pendingTextsDropped + 1 }

def flushPendingTexts (env : Env β) (w : World β S) : World β S :=
  let texts := w.session.pendingTexts
  let w :=
    match w.session.connection with
    -- a refused send is a drop, not a retry: nothing flushes this queue again before a reconnect
    | some c => texts.foldl (sendOrDrop env c) w
    | none =>
        { w with session.pendingTextsDropped := w.session.pendingTextsDropped + texts.length }
  { w with session.pendingTexts := [] }

/-! ## The actions -/

def nanosPerMilli : Nat := 1000000

def helloParams (params : ForkParams) : HelloParams :=
  { callSid := params.callUuid
    sampleRate := params.format.sampleRate
    channels := params.format.channels
    metadataJson := params.metadataJson }

/-- The hello of this session, `none` when its parameters have no encoding. -/
def hello (env : Env β) (w : World β S) : Option Text :=
  encodeHello env.json (helloParams w.session.params)

/-- How long the fork was without a server, in milliseconds. -/
def resumeGap (env : Env β) (w : World β S) : Nat × World β S :=
  match w.session.disconnectedAt with
  | none => (0, w)
  | some since =>
      match w.now env with
      | (now, w) => ((now - since) / nanosPerMilli, w)

def sendResume (env : Env β) (c : Nat) (w : World β S) : World β S :=
  match w.resumeGap env with
  | (gapMs, w) =>
      let droppedMs := bytesToMs w.session.params w.session.outbound.droppedSinceResume
      match w.send env c (.resume (encodeResume env.json gapMs droppedMs)) with
      | (_, w) =>
          { w with
            events := w.events ++
              [{ forkEvent w.session.params .resume [] with
                 gapMs := gapMs
                 droppedMs := droppedMs }]
            session.reconnecting := false
            session.outbound.droppedSinceResume := 0
            session.reconnects := w.session.reconnects + 1 }

/-- A new endpoint starts with a clean slate. -/
def settleEndpoint (w : World β S) : World β S :=
  if w.session.endpointChanged then
    { w with
      session.endpointChanged := false
      session.reconnecting := false
      session.outbound.droppedSinceResume := 0 }
  else
    w

/-- What `kNotifyConnected` does between an accepted hello on `c` and the pending texts.  A modify
points the fork at a server that never saw this stream, so it gets no resume: another server's gap
and drop totals would mean nothing to it. -/
def announce (env : Env β) (c : Nat) (w : World β S) : World β S :=
  let w :=
    if w.session.reconnecting ∧ w.session.endpointChanged = false then
      w.sendResume env c
    else
      w.emit .connect []
  { w.settleEndpoint with session.disconnectedAt := none }

def notifyConnectedWith (rec : SessionAction → World β S → World β S) (env : Env β)
    (w : World β S) : World β S :=
  match w.hello env with
  | none => fireWith rec .teardown (w.emit .error (ascii "invalid fork parameters for hello"))
  | some hello =>
      match w.session.connection with
      | none => fireWith rec .wsError (w.emit .error (ascii "hello could not be sent"))
      | some c =>
          match w.send env c (.hello hello) with
          | (false, w) => fireWith rec .wsError (w.emit .error (ascii "hello could not be sent"))
          | (true, w) => pumpWith rec env ((w.announce env c).flushPendingTexts env)

/-- `ScheduleRetry`; the delay is the backoff's. -/
def scheduleRetry (w : World β S) : World β S :=
  { w with port.timers := w.port.timers + 1 }

def onClosedWith (rec : SessionAction → World β S → World β S) (env : Env β)
    (connectFailed : Bool) (w : World β S) : World β S :=
  let w := { w with session.connection := none }
  let w :=
    match w.session.disconnectedAt with
    | some _ => w
    | none =>
        match w.now env with
        | (now, w) => { w with session.disconnectedAt := some now }
  let w :=
    if connectFailed ∧ w.session.state = .connecting ∧ w.session.reconnecting = false then
      w.emit .connectFailed []
    else
      w
  fireWith rec .wsError w

def beginConnectWith (rec : SessionAction → World β S → World β S) (env : Env β)
    (w : World β S) : World β S :=
  let answer := env.connect w.port.connects
  let w := { w with port.connects := w.port.connects + 1 }
  match answer with
  | .returned =>
      -- whatever connection was held before is overwritten
      { w with
        port := w.port.opened w.session.params.endpoint (w.session.tuning.coalesceMaxBytes * 4)
        session.connection := some w.port.conns.length }
  | .null => refused w
  | .closedThenNull connectFailed => refused (onClosedWith rec env connectFailed w)
where
  /-- `Connect` returned null. -/
  refused (w : World β S) : World β S :=
    let w := { w with session.connection := none }
    let w := if w.session.reconnecting = false then w.emit .connectFailed [] else w
    fireWith rec .wsError w

def beginDrainWith (rec : SessionAction → World β S → World β S) (env : Env β)
    (w : World β S) : World β S :=
  match w.now env with
  | (now, w) =>
      let w := { w with
        session.drainDeadline := some (now + w.session.tuning.drainTimeout * nanosPerMilli) }
      match w.session.connection with
      -- without a connection what is buffered has nowhere to go
      | none => fireWith rec .drainComplete w
      | some _ => pumpWith rec env w

def beginCloseWith (rec : SessionAction → World β S → World β S) (w : World β S) : World β S :=
  match w.session.connection with
  | none => fireWith rec .closeComplete w
  | some c => w.close c

/-- Close and forget the socket nobody tracks. -/
def abandonSocket (w : World β S) : World β S :=
  match w.session.connection with
  | none => w
  | some c => { w.close c with session.connection := none }

/-- Frees the slabs at once: a pending retry timer may hold the last reference for seconds after the
call is gone. -/
def finalize (w : World β S) : World β S :=
  let w :=
    match w.session.outbound.buffer.clear w.supply with
    | (buffer, supply) => { w with session.outbound.buffer := buffer, supply := supply }
  let w := { w with
    session.pendingTextsDropped := w.session.pendingTextsDropped + w.session.pendingTexts.length
    session.pendingTexts := [] }
  let w :=
    match w.session.playback.path with
    | none => w
    | some path =>
        match path.jitter.clear w.supply with
        | (jitter, supply) =>
            let w := { w with
              session.playback.path := some { path with jitter := jitter }
              supply := supply }
            if w.session.playback.started then w.emit .playbackStop [] else w
  let w := { w with session.connection := none }
  let w := w.emit .stop []
  -- the callback is moved out before it runs, so it runs once
  if w.session.onFinished then
    { w with session.onFinished := false, finishedRuns := w.finishedRuns + 1 }
  else
    w

/-! ## Apply -/

def applyBody (env : Env β) (rec : SessionAction → World β S → World β S) :
    SessionAction → World β S → World β S
  | .notifyConnected, w => notifyConnectedWith rec env w
  | .scheduleRetry, w =>
      scheduleRetry (emit .reconnecting [] { w with session.reconnecting := true })
  | .beginConnect, w => beginConnectWith rec env w
  | .beginDrain, w => beginDrainWith rec env w
  | .beginClose, w => beginCloseWith rec w
  | .abandonSocket, w => abandonSocket w
  | .finalize, w => finalize w
  | .none, w => w

def apply (env : Env β) : SessionAction → World β S → World β S :=
  unroll (applyBody env) (fun _ w => w) 4

/-! ## The recursion equation -/

section

variable {env : Env β} {f g : SessionAction → World β S → World β S}

/-- Firing an event reaches the recursive call only at the actions that can answer it. -/
theorem fireWith_congr {e : SessionEvent} {answers : List SessionAction}
    (h : ∀ a ∈ answers, f a = g a) (he : ∀ s, (sessionTransitionFor s e).action ∈ answers) :
    fireWith f e = (fireWith g e : World β S → World β S) := by
  funext w
  unfold fireWith
  rw [h _ (he w.session.state)]

theorem pumpWith_congr {answers : List SessionAction} (h : ∀ a ∈ answers, f a = g a)
    (hdrain : SessionAction.beginDrain.answers ⊆ answers) :
    pumpWith f env = (pumpWith g env : World β S → World β S) := by
  have hfire : fireWith f .drainComplete = (fireWith g .drainComplete : World β S → World β S) :=
    fireWith_congr h fun s => hdrain (drainComplete_answer s)
  funext w
  unfold pumpWith
  rw [hfire]

/-- An action recurses only into the answers to the events it fires. -/
theorem applyBody_congr {a : SessionAction} (h : ∀ b ∈ a.answers, f b = g b) :
    applyBody env f a = (applyBody env g a : World β S → World β S) := by
  funext w
  cases a with
  | notifyConnected =>
      have hteardown : fireWith f .teardown = (fireWith g .teardown : World β S → World β S) :=
        fireWith_congr h fun s => (notifyConnected_answer s).1
      have herror : fireWith f .wsError = (fireWith g .wsError : World β S → World β S) :=
        fireWith_congr h fun s => (notifyConnected_answer s).2
      have hpump : pumpWith f env = (pumpWith g env : World β S → World β S) :=
        pumpWith_congr h (by decide)
      simp only [applyBody, notifyConnectedWith, hteardown, herror, hpump]
  | beginConnect =>
      have herror : fireWith f .wsError = (fireWith g .wsError : World β S → World β S) :=
        fireWith_congr h wsError_answer
      simp only [applyBody, beginConnectWith, beginConnectWith.refused, onClosedWith, herror]
  | beginDrain =>
      have hcomplete :
          fireWith f .drainComplete = (fireWith g .drainComplete : World β S → World β S) :=
        fireWith_congr h drainComplete_answer
      have hpump : pumpWith f env = (pumpWith g env : World β S → World β S) :=
        pumpWith_congr h (by decide)
      simp only [applyBody, beginDrainWith, hcomplete, hpump]
  | beginClose =>
      have hcomplete :
          fireWith f .closeComplete = (fireWith g .closeComplete : World β S → World β S) :=
        fireWith_congr h closeComplete_answer
      simp only [applyBody, beginCloseWith, hcomplete]
  | none => rfl
  | scheduleRetry => rfl
  | abandonSocket => rfl
  | finalize => rfl

theorem applyBody_descends : Descends (applyBody (S := S) env) SessionAction.depth := by
  intro f g a h
  exact applyBody_congr fun b hb => h b (depth_of_answer hb)

end

/-- `Apply` calls itself. -/
theorem apply_eq (env : Env β) (a : SessionAction) :
    apply (S := S) env a = applyBody env (apply env) a :=
  unroll_eq applyBody_descends _ (fun a => by cases a <;> decide) a

/-- `Apply(state_.OnEvent(e).action)`. -/
def fire (env : Env β) (e : SessionEvent) (w : World β S) : World β S := fireWith (apply env) e w

def pump (env : Env β) (w : World β S) : World β S := pumpWith (apply env) env w

end World

end Session
end AudioFork
