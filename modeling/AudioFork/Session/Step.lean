import Mathlib.Data.List.Sort
import AudioFork.Lib.Runs
import AudioFork.Session.Driver

/-!
# Step — the entry points of a session as steps of a system

Everything that can happen to a session is a `Step`: a call from the media or a control thread, a
task or a timer run by the shard, a callback from one of its connections.  A callback carries no
connection identity into the session; the step names the connection only for the port's record.

`contract` is what the port and the shard promise: `Start` runs once and before the rest of the
shard's work, a connection reports at most one `OnConnected` and then exactly one `OnClosed`, and
only timers and tasks that exist are run.
-/

namespace AudioFork
namespace Session

open Buffers Protocol Lib

variable {β : Type} {S : ℕ+}

namespace World

/-! ## Callbacks -/

def onConnected (env : Env β) (w : World β S) : World β S :=
  let transition := sessionTransitionFor w.session.state .wsConnected
  let w := { w with session.state := transition.next }
  if transition.action = .abandonSocket then
    -- nobody waits for this socket, so close it or it leaks
    w.abandonSocket
  else
    apply env transition.action w

def onClosed (env : Env β) (connectFailed : Bool) (w : World β S) : World β S :=
  onClosedWith (apply env) env connectFailed w

/-- Inbound playback traffic on a send-only fork; only the first one is reported. -/
def unsupported (detail : Text) (w : World β S) : World β S :=
  let first := w.session.unsupportedInbound = 0
  let w := { w with session.unsupportedInbound := w.session.unsupportedInbound + 1 }
  if first then w.emit .error detail else w

def handlePlaybackStart (sampleRate channels : Nat) (w : World β S) : World β S :=
  let rate := if sampleRate ≠ 0 then sampleRate else w.session.playback.rate
  let channels := if channels ≠ 0 then channels else w.session.playback.channels
  { w with
    session.playback := { w.session.playback with
      rate := rate
      channels := channels
      started := true }
    events := w.events ++
      [forkEvent w.session.params .playbackStart
        (ascii (toString rate) ++ ascii "/" ++ ascii (toString channels))] }

/-- Barge-in. -/
def handleClear (path : PlaybackPath β S) (w : World β S) : World β S :=
  match path.jitter.clear w.supply with
  | (jitter, supply) =>
      -- the media thread may already hold frames: the new generation makes it discard them on its
      -- next read
      let w := { w with
        session.playback := { w.session.playback with
          path := some { path with jitter := jitter }
          generation := w.session.playback.generation + 1
          bufferedBytes := 0
          bargeIns := w.session.playback.bargeIns + 1
          started := false }
        supply := supply }
      let w :=
        match w.session.connection with
        | none => w
        | some c =>
            if w.session.playback.receivePaused then
              { w with
                session.playback.receivePaused := false
                port.receivePauses := w.port.receivePauses ++ [(c, false)] }
            else
              w
      w.emit .playbackCleared []

def handleMark (path : PlaybackPath β S) (name : Text) (w : World β S) : World β S :=
  { w with session.playback.path := some { path with jitter := path.jitter.addMark name } }

/-- The playback controls of `OnText`; a send-only fork reports them as unsupported. -/
def playbackControl (control : PlaybackPath β S → World β S → World β S) (w : World β S) :
    World β S :=
  match w.session.playback.path with
  | none => w.unsupported (ascii "playback control received but playback is not enabled")
  | some path => control path w

def onText (env : Env β) (text : Text) (w : World β S) : World β S :=
  match parseServerMessage env.json text with
  | .serverDisconnect => fire env .teardown (w.emit .disconnect [])
  | .relayToApp payload => w.emit .json payload
  | .invalidMessage reason => w.emit .jsonError reason
  | .startPlayback sampleRate channels =>
      w.playbackControl fun _ => handlePlaybackStart sampleRate channels
  | .clearPlayback => w.playbackControl handleClear
  | .playbackMark name => w.playbackControl fun path => handleMark path name

/-- `OnBinary` up to the pump: admit what fits, report what does not. -/
def receive (env : Env β) (path : PlaybackPath β S) (bytes : List β) (w : World β S) : World β S :=
  match path.jitter.append env.others w.supply bytes with
  | (refused, jitter, supply) =>
      let w := { w with
        session.playback := { w.session.playback with
          path := some { path with jitter := jitter }
          bytesReceived := w.session.playback.bytesReceived + bytes.length }
        supply := supply }
      -- audio refused while muted was discarded on purpose by a barge-in
      let w :=
        if refused > 0 ∧ jitter.muted = false then
          emit .error (ascii "playback buffer overflowed, audio discarded")
            { w with session.playback.bytesDropped := w.session.playback.bytesDropped + refused }
        else
          w
      if w.session.playback.started = false ∧ jitter.empty = false then
        emit .playbackStart [] { w with session.playback.started := true }
      else
        w

def onBinary (env : Env β) (bytes : List β) (w : World β S) : World β S :=
  if bytes.isEmpty then
    w
  else
    match w.session.playback.path with
    | none => w.unsupported (ascii "inbound audio received but playback is not enabled")
    | some path => (w.receive env path bytes).pumpPlayback

/-! ## Calls -/

def start (env : Env β) (w : World β S) : World β S :=
  beginConnectWith (apply env) env { w with started := true }

def post (task : Task) (w : World β S) : World β S :=
  { w with port.posted := w.port.posted ++ [task] }

def stop (w : World β S) : World β S := w.post .teardown

def sendText (text : Text) (w : World β S) : World β S :=
  if w.session.state.live then w.post (.deliverText text) else w

def sendDtmf (env : Env β) (digit : UInt8) (durationMs : Nat) (w : World β S) : World β S :=
  match encodeDtmf env.json digit durationMs with
  | none => w
  | some text => w.sendText text

def modify (endpoint : Endpoint) (w : World β S) : World β S :=
  if w.session.state.live then w.post (.applyModify endpoint) else w

/-- Say goodbye to the current connection and forget it at once: what is buffered belongs to the new
server, and a flush would otherwise hand it to the socket that is leaving. -/
def leave (env : Env β) (w : World β S) : World β S :=
  match w.session.connection with
  | none => w
  | some c =>
      match w.send env c (.bye (encodeBye env.json)) with
      | (_, w) => { w.close c with session.connection := none }

def applyModify (env : Env β) (endpoint : Endpoint) (w : World β S) : World β S :=
  if w.session.state.live then
    leave env { w with session.params.endpoint := endpoint, session.endpointChanged := true }
  else
    w

def runTask (env : Env β) (task : Task) (w : World β S) : World β S :=
  match task with
  | .teardown => fire env .teardown w
  | .deliverText text => w.deliverText env text
  | .applyModify endpoint => w.applyModify env endpoint

def pushAudio (pcm : List β) (w : World β S) : World β S :=
  if w.session.state.live then
    match w.session.outbound.push pcm with
    | (accepted, outbound) =>
        { w with
          session.outbound := outbound
          offered := w.offered + pcm.length
          -- a paused fork accepts too, but hands nothing over
          handed := if accepted ∧ w.session.outbound.paused = false then
              w.handed ++ pcm
            else
              w.handed }
  else
    w

def readPlayback (count : Nat) (w : World β S) : World β S :=
  { w with session.playback := (w.session.playback.read count).2 }

end World

/-! ## Steps -/

inductive Step (β : Type)
  | start
  | pump
  | stop
  | sendText (text : Text)
  | sendDtmf (digit : UInt8) (durationMs : Nat)
  | modify (endpoint : Endpoint)
  /-- The shard runs the `i`-th task in its queue. -/
  | runPosted (i : Nat)
  | retryTimer
  | onConnected (c : Nat)
  | onText (c : Nat) (text : Text)
  | onBinary (c : Nat) (bytes : List β)
  | onClosed (c : Nat) (connectFailed : Bool)
  | pushAudio (pcm : List β)
  | setPaused (paused : Bool)
  | readPlayback (count : Nat)
  deriving DecidableEq, Repr

/-- The port notes that connection `c` is up. -/
def World.markConnected (c : Nat) (w : World β S) : World β S :=
  { w with port.conns := w.port.conns.modify c fun k => { k with connected := true } }

/-- The port notes that connection `c` is gone. -/
def World.markClosed (c : Nat) (w : World β S) : World β S :=
  { w with port.conns := w.port.conns.modify c fun k => { k with closed := true } }

/-- The port hands a timer over. -/
def World.takeTimer (w : World β S) : World β S :=
  { w with port.timers := w.port.timers - 1 }

/-- The port hands its `i`-th task over. -/
def World.takeTask (i : Nat) (w : World β S) : World β S :=
  { w with port.posted := w.port.posted.eraseIdx i }

def step (env : Env β) (w : World β S) : Step β → World β S
  | .start => w.start env
  | .pump => w.pump env
  | .stop => w.stop
  | .sendText text => w.sendText text
  | .sendDtmf digit durationMs => w.sendDtmf env digit durationMs
  | .modify endpoint => w.modify endpoint
  | .runPosted i =>
      match w.port.posted[i]? with
      | none => w
      | some task => (w.takeTask i).runTask env task
  | .retryTimer => w.takeTimer.fire env .retryTimerFired
  | .onConnected c => (w.markConnected c).onConnected env
  | .onText _ text => w.onText env text
  | .onBinary _ bytes => w.onBinary env bytes
  | .onClosed c connectFailed => (w.markClosed c).onClosed env connectFailed
  | .pushAudio pcm => w.pushAudio pcm
  | .setPaused paused => { w with session.outbound.paused := paused }
  | .readPlayback count => w.readPlayback count

theorem step_runPosted_none (env : Env β) {w : World β S} {i : Nat}
    (h : w.port.posted[i]? = none) : step env w (.runPosted i) = w := by
  simp only [step, h]

theorem step_runPosted_some (env : Env β) {w : World β S} {i : Nat} {task : Task}
    (h : w.port.posted[i]? = some task) :
    step env w (.runPosted i) = (w.takeTask i).runTask env task := by
  simp only [step, h]

/-- The promises of the shard and of the port. -/
def contract (w : World β S) : Step β → Bool
  | .start => !w.started
  | .pump => w.started
  | .runPosted i => w.started && decide (i < w.port.posted.length)
  | .retryTimer => w.started && decide (0 < w.port.timers)
  | .onConnected c => w.started && w.port.conns[c]?.any fun k => !k.connected && !k.closed
  | .onText c _ => w.started && outstanding w.port.conns c
  | .onBinary c _ => w.started && outstanding w.port.conns c
  | .onClosed c _ => w.started && outstanding w.port.conns c
  | _ => true

/-! ## A small fork

Fixed values for concrete runs: a mono fork with slabs of four bytes and a server that speaks three
control messages. -/

namespace Sample

def endpoint : Endpoint :=
  { host := ascii "example.com"
    port := 443
    path := ascii "/"
    tls := true }

def otherEndpoint : Endpoint :=
  { host := ascii "new-host"
    port := 9443
    path := ascii "/v2"
    tls := true }

def params : ForkParams :=
  { callUuid := ascii "call"
    forkId := ascii "fork"
    endpoint := endpoint
    format := { sampleRate := 8000, channels := 1 }
    metadataJson := [] }

def tuning : Tuning :=
  { sendCapBytes := 64
    handoffBytes := 16
    coalesceMaxBytes := 8
    emergencyCapBytes := 16
    drainTimeout := 2000
    playbackHighWatermarkBytes := 32
    playbackLowWatermarkBytes := 8
    playbackHandoffBytes := 16 }

def disconnectText : Text := ascii "\x7b\"type\":\"disconnect\"\x7d"

def clearText : Text := ascii "\x7b\"type\":\"clear\"\x7d"

def markText : Text := ascii "\x7b\"type\":\"mark\",\"name\":\"m\"\x7d"

def typed (type : String) : Text × Json := (ascii "type", .string (ascii type))

/-- A string in which nothing has to be escaped. -/
def quoted (text : Text) : Text := ascii "\"" ++ text ++ ascii "\""

mutual

/-- Compact print, members in the order of their keys. -/
def dump : Json → Text
  | .null => ascii "null"
  | .bool value => ascii (if value then "true" else "false")
  | .unsigned value => ascii (toString value.toNat)
  | .integer value => ascii (toString value)
  | .float digits => digits
  | .string value => quoted value
  | .array items => ascii "[" ++ (ascii ",").intercalate (dumpItems items) ++ ascii "]"
  | .object members =>
      let printed := ((dumpMembers members).insertionSort (fun a b => a.1 ≤ b.1)).map fun m =>
        quoted m.1 ++ ascii ":" ++ m.2
      ascii "\x7b" ++ (ascii ",").intercalate printed ++ ascii "\x7d"

def dumpItems : List Json → List Text
  | [] => []
  | item :: items => dump item :: dumpItems items

def dumpMembers : List (Text × Json) → List (Text × Text)
  | [] => []
  | (key, value) :: members => (key, dump value) :: dumpMembers members

end

def json : JsonLib :=
  { parse := fun text =>
      if text = disconnectText then
        some (.object [typed "disconnect"])
      else if text = clearText then
        some (.object [typed "clear"])
      else if text = markText then
        some (.object [typed "mark", (ascii "name", .string (ascii "m"))])
      else
        none
    dump := dump }

/-- Everything is accepted that a connection may accept: after `OnConnected`, before `Close`. -/
def env : Env UInt8 :=
  { json := json
    accept := fun _ k _ => k.connected && !k.closeCalled
    connect := fun _ => .returned
    now := fun n => n
    others := fun _ available => available }

/-- The same, with connections that refuse every frame. -/
def deafEnv : Env UInt8 :=
  { env with accept := fun _ _ _ => false }

def slabBytes : ℕ+ := 4

def supply : SlabSupply := { available := 8, calls := 0 }

def fork : World UInt8 slabBytes := (World.create params tuning true supply).get rfl

theorem create_fork : World.create params tuning true supply = some fork := rfl

end Sample

end Session
end AudioFork
