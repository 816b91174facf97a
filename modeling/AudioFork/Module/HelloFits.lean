import AudioFork.Lib.Holdings
import AudioFork.Module.MakeTuning
import AudioFork.Net.WsConnection
import AudioFork.Session.Setup

/-!
# HelloFits — the hello against the queue of a new connection

`BeginConnect` gives every connection a queue of four coalesced messages.  The first thing that goes
into the queue is the hello, whose length comes from the call id and the metadata.

* `caps_run`: every connection a session opens has that queue;
* a new connection takes the hello exactly when it is not longer than the queue;
* a fork with a longer hello is never active: each server it reaches is given up over it, and the
  retry timer brings the next one.
-/

namespace AudioFork
namespace Module

open Buffers Lib Net Protocol Session

variable {β : Type} {S : ℕ+}

/-! ## The lifecycle of a fork nobody hears -/

/-- Every connection that was opened has a queue of `cap` bytes. -/
def Capped (cap : Nat) (l : Lifecycle) : Prop := ∀ k ∈ l.conns, k.maxQueuedBytes = cap

/-- The labels of a session that asks for queues of `cap` bytes. -/
def AsksFor (cap : Nat) : Lifecycle.Label → Prop
  | .start _ _ maxQueuedBytes => maxQueuedBytes = cap
  | .retryTimer _ _ maxQueuedBytes => maxQueuedBytes = cap
  | _ => True

section

variable {cap : Nat} {l : Lifecycle}

theorem capped_iff : Capped cap l ↔ ∀ size ∈ l.conns.map Conn.maxQueuedBytes, size = cap := by
  unfold Capped
  rw [List.forall_mem_map]

/-- An update that leaves the size of the queue alone. -/
theorem Capped.modify (h : Capped cap l) (c : Nat) {f : Conn → Conn}
    (hf : ∀ k, (f k).maxQueuedBytes = k.maxQueuedBytes) :
    Capped cap { l with conns := l.conns.modify c f } := by
  rw [capped_iff, map_modify_same hf]
  exact capped_iff.mp h

theorem AsksFor.of_dials {a : Lifecycle.Label} {endpoint : Endpoint} {maxQueuedBytes : Nat}
    (ha : AsksFor cap a) (hdials : a.Dials endpoint maxQueuedBytes) : maxQueuedBytes = cap := by
  rcases hdials with ⟨answer, rfl | rfl⟩
  · exact ha
  · exact ha

theorem Capped.step (h : Capped cap l) (a : Lifecycle.Label) (ha : AsksFor cap a) :
    Capped cap (l.step a) := by
  rcases Lifecycle.map_conns_step (f := Conn.maxQueuedBytes) (fun _ => rfl) (fun _ => rfl) a with
    hsame | ⟨endpoint, maxQueuedBytes, hdials, hdialed⟩ | ⟨c, -, hclosed⟩
  · rw [capped_iff, hsame]
    exact capped_iff.mp h
  · rw [capped_iff, hdialed]
    intro size hsize
    rcases List.mem_append.mp hsize with hold | hnew
    · exact capped_iff.mp h size hold
    · rw [List.mem_singleton.mp hnew]
      exact ha.of_dials hdials
  · have hmarked := h.modify c (f := fun k => { k with closed := true }) fun _ => rfl
    rw [capped_iff, hclosed]
    exact capped_iff.mp hmarked

theorem hangUp_not_active : l.hangUp.state ≠ .active := by
  unfold Lifecycle.hangUp
  split <;> simp [Lifecycle.retire]

theorem lose_not_active : l.lose.state ≠ .active := by
  unfold Lifecycle.lose
  split
  · simp [Lifecycle.retry]
  · simp [Lifecycle.retry]
  · exact hangUp_not_active
  · simp [Lifecycle.retire]
  · next h => simp [h]
  · next h => simp [h]

theorem tick_not_active (h : l.state ≠ .active) (drained : Bool) :
    (l.tick drained).state ≠ .active := by
  unfold Lifecycle.tick
  split
  · split
    · exact hangUp_not_active
    · exact h
  · exact h

theorem drain_not_active (deadline : Nat) (drained : Bool) :
    (l.drain deadline drained).state ≠ .active := by
  unfold Lifecycle.drain
  dsimp only
  split
  · simp [Lifecycle.retire]
  · exact tick_not_active (l := { l with state := .draining, drainDeadline := some deadline })
      (by simp) drained

theorem connect_not_active (h : l.state ≠ .active) (answer : ConnectAnswer) (endpoint : Endpoint)
    (maxQueuedBytes : Nat) : (l.connect answer endpoint maxQueuedBytes).state ≠ .active := by
  cases answer with
  | returned => exact h
  | null => exact lose_not_active
  | closedThenNull connectFailed => exact lose_not_active

/-- A lifecycle becomes active only over a handshake that succeeds. -/
theorem step_not_active (h : l.state ≠ .active) {a : Lifecycle.Label}
    (ha : ∀ c, a ≠ .connected c .done) : (l.step a).state ≠ .active := by
  cases a with
  | quiet => exact h
  | start answer endpoint maxQueuedBytes =>
    exact connect_not_active (l := { l with started := true }) h answer endpoint maxQueuedBytes
  | retryTimer answer endpoint maxQueuedBytes =>
    simp only [Lifecycle.step]
    split
    · exact connect_not_active (by simp) answer endpoint maxQueuedBytes
    · exact h
  | connected c handshake =>
    by_cases hstate : l.state = .connecting
    · simp only [Lifecycle.step, Lifecycle.connected_connecting hstate]
      cases handshake with
      | invalid deadline drained => exact drain_not_active deadline drained
      | lost => simp [Lifecycle.shaken, Lifecycle.retry]
      | done => exact absurd rfl (ha c)
    · simp only [Lifecycle.step, Lifecycle.connected_late hstate, Lifecycle.state_abandonSocket]
      exact h
  | closed c => exact lose_not_active
  | teardown deadline drained =>
    simp only [Lifecycle.step, Lifecycle.teardown]
    split
    · exact hangUp_not_active
    · exact drain_not_active deadline drained
    · simp [Lifecycle.retire]
    all_goals exact h
  | modify =>
    simp only [Lifecycle.step]
    split
    · rw [Lifecycle.state_abandonSocket]
      exact h
    · exact h
  | tick drained => exact tick_not_active h drained

end

/-! ## The queues of a session -/

/-- The queue `BeginConnect` asks for. -/
def queueCap (t : Tuning) : Nat := t.coalesceMaxBytes * 4

theorem asksFor_label (env : Env β) (w : World β S) (s : Step β) :
    AsksFor (queueCap w.session.tuning) (label env w s) := by
  cases s with
  | start => rfl
  | retryTimer => rfl
  | runPosted i =>
    simp only [label]
    split <;> trivial
  | onText c text =>
    simp only [label]
    split <;> trivial
  | _ => trivial

section

variable {env : Env β} {params : ForkParams} {tuning : Tuning} {onFinished : Bool}
  {supply : SlabSupply} {w₀ w : World β S}
  (hcreate : World.create params tuning onFinished supply = some w₀)
  (hrun : Run (step env) (fun _ _ => True) w₀ w)

include hcreate

theorem setup_create : w₀.setup = (tuning, World.helloParams params) := by
  rcases World.create_spec hcreate with ⟨_, _, _, _, -, -, -, rfl⟩
  rfl

include hrun

theorem setup_run : w.setup = (tuning, World.helloParams params) := by
  refine hrun.invariant (I := fun v => v.setup = (tuning, World.helloParams params))
    (setup_create hcreate) ?_
  intro v s hv _
  exact (setup_step env v s).trans hv

/-- Every connection that a fork opens has the same queue. -/
theorem caps_run : Capped (queueCap tuning) w.lifecycle := by
  refine (hrun.invariant
    (I := fun v => v.session.tuning = tuning ∧ Capped (queueCap tuning) v.lifecycle) ?_ ?_).2
  · refine ⟨congrArg Prod.fst (setup_create hcreate), ?_⟩
    rw [lifecycle_create hcreate]
    intro k hk
    cases hk
  · rintro v s ⟨htuning, hcapped⟩ _
    refine ⟨(tuning_step env v s).trans htuning, ?_⟩
    rw [lifecycle_step]
    exact hcapped.step _ (htuning ▸ asksFor_label env v s)

end

/-! ## A hello that is too long -/

/-- A port whose connections take no hello beyond their queue. -/
def KeepsQueue (env : Env β) : Prop :=
  ∀ n k text, env.accept n k (.hello text) = true → text.length ≤ k.maxQueuedBytes

/-- `WsConnection` is such a port: what it accepts fits its queue. -/
theorem sendText_fits (lwsPre : Nat) (c : WsConnection UInt8) (text : Text)
    (h : (c.sendText lwsPre text).1 = true) : text.length ≤ c.maxQueuedBytes := by
  obtain ⟨-, -, -, hroom⟩ := (WsRun.enqueue_iff lwsPre c text false).mp h
  omega

theorem handshake_not_done {env : Env β} (hport : KeepsQueue env) {w : World β S} {hello : Text}
    (hhello : w.hello env = some hello) {cap : Nat} (hcapped : Capped cap w.lifecycle)
    (hlong : cap < hello.length) : w.handshake env ≠ .done := by
  cases hconn : w.session.connection with
  | none =>
    rw [World.handshake_unowned hhello hconn]
    simp
  | some c =>
    rw [World.handshake_owned hhello hconn]
    have hrefused : env.accepts w.port.conns c w.port.wire.length (.hello hello) = false := by
      unfold Env.accepts
      split
      · next k hk =>
        have hcap := hcapped k (List.mem_of_getElem? hk)
        by_contra haccepted
        have hfits := hport _ _ _ (by simpa using haccepted)
        omega
      · rfl
    simp [hrefused]

/-- A fork whose hello does not fit the queue never becomes active, whatever happens to it. -/
theorem long_hello_never_active {env : Env β} (hport : KeepsQueue env) {params : ForkParams}
    {tuning : Tuning} {onFinished : Bool} {supply : SlabSupply} {w₀ w : World β S}
    (hcreate : World.create params tuning onFinished supply = some w₀) {hello : Text}
    (hhello : encodeHello env.json (World.helloParams params) = some hello)
    (hlong : queueCap tuning < hello.length)
    (hrun : Run (step env) (fun _ _ => True) w₀ w) : w.session.state ≠ .active := by
  refine hrun.invariant_with
    (J := fun v => v.setup = (tuning, World.helloParams params) ∧ Capped (queueCap tuning) v.lifecycle)
    (I := fun v => v.session.state ≠ .active)
    (fun _ hv => ⟨setup_run hcreate hv, caps_run hcreate hv⟩) ?_ ?_
  · have hstate := congrArg Lifecycle.state (lifecycle_create hcreate)
    rw [← World.lifecycle_state, hstate]
    simp [Lifecycle.initial]
  · rintro v s ⟨hsetup, hcapped⟩ hstate _
    rw [← World.lifecycle_state, lifecycle_step]
    refine step_not_active hstate ?_
    cases s with
    | onConnected c =>
      have hmarked := hcapped.modify c (f := fun k => { k with connected := true }) fun _ => rfl
      have hgreeting : World.hello env { v.markConnected c with session.state := .active } =
          some hello := by
        rw [← hhello]
        exact congrArg (encodeHello env.json) (congrArg Prod.snd hsetup)
      have hlost := handshake_not_done hport hgreeting hmarked hlong
      rintro c' hlabel
      simp only [label, Lifecycle.Label.connected.injEq] at hlabel
      exact hlost hlabel.2
    | runPosted i =>
      simp only [label]
      split <;> simp [World.teardownLabel]
    | onText c text =>
      simp only [label]
      split <;> simp [World.teardownLabel]
    | _ => simp [label]

/-! ## A hello that fits -/

/-- The connection after lws has reported it established. -/
def freshlyEstablished (lwsPre maxQueuedBytes closeDrainTimeoutMs : Nat) (wsi : Bool) :
    WsConnection UInt8 :=
  ((WsRun.create maxQueuedBytes closeDrainTimeoutMs wsi).step lwsPre .established).conn

theorem forkFormat_of_encodeHello {lib : JsonLib} {params : ForkParams} {hello : Text}
    (h : encodeHello lib (World.helloParams params) = some hello) : ForkFormat params.format := by
  unfold encodeHello at h
  split at h
  · cases h
  · next hvalid =>
    simp only [World.helloParams, validSampleRate, not_or] at hvalid
    obtain ⟨-, hrate, hmin, hmax⟩ := hvalid
    exact ⟨of_decide_eq_true (not_not.mp hrate), by omega⟩

/-- On every connection a fork opens, once it is established, the hello is accepted exactly when it
is not longer than four times the audio of `coalesce_max`. -/
theorem hello_fits_iff (env : Env β) (config c : ModuleConfig)
    (hc : sanitizeConfig config = some c) {params : ForkParams} {hello : Text}
    (hhello : encodeHello env.json (World.helloParams params) = some hello) {onFinished : Bool}
    {supply : SlabSupply} {w₀ w : World β S}
    (hcreate : World.create params (makeTuning c params.format) onFinished supply = some w₀)
    (hrun : Run (step env) (fun _ _ => True) w₀ w) {k : Conn} (hk : k ∈ w.port.conns)
    (lwsPre closeDrainTimeoutMs : Nat) (wsi : Bool) :
    ((freshlyEstablished lwsPre k.maxQueuedBytes closeDrainTimeoutMs wsi).sendText lwsPre
        hello).1 = true ↔
      hello.length ≤ 4 * (params.format.bytesPerSecond * c.coalesceMax.toNat / 1000) := by
  have hs := sanitized_of_sanitizeConfig hc
  have hcap : k.maxQueuedBytes = queueCap (makeTuning c params.format) := caps_run hcreate hrun k hk
  have hcoalesce : (makeTuning c params.format).coalesceMaxBytes =
      params.format.bytesPerSecond * c.coalesceMax.toNat / 1000 :=
    bytesForDuration_eq (forkFormat_of_encodeHello hhello) (le_trans (by decide) hs.coalesce.1)
      ((hs.coalesce.2.trans hs.handoff.2).trans hs.send.2)
  have hfresh : (freshlyEstablished lwsPre k.maxQueuedBytes closeDrainTimeoutMs wsi).queuedBytes = 0 ∧
      (freshlyEstablished lwsPre k.maxQueuedBytes closeDrainTimeoutMs wsi).maxQueuedBytes =
        queueCap (makeTuning c params.format) := ⟨rfl, hcap⟩
  rw [WsConnection.sendText, WsRun.enqueue_iff, hfresh.1, hfresh.2, queueCap, hcoalesce]
  constructor
  · rintro ⟨-, -, -, hroom⟩
    omega
  · intro hroom
    exact ⟨rfl, rfl, rfl, by omega⟩

namespace Sample

/-- The shortest messages a configuration may ask for. -/
def tightConfig : ModuleConfig := { ModuleConfig.default with coalesceMax := 20 }

def tightTuning : Tuning := makeTuning tightConfig Session.Sample.params.format

/-- A fork with a call id of `n` characters. -/
def named (n : Nat) : ForkParams := { Session.Sample.params with callUuid := List.replicate n 97 }

/-- Connections with the queue of `WsConnection`, as far as a hello can tell. -/
def queueEnv : Env UInt8 :=
  { Session.Sample.env with
    accept := fun _ k f =>
      k.connected && !k.closeCalled &&
        match f with
        | .hello text => decide (text.length ≤ k.maxQueuedBytes)
        | _ => true }

def fork (n : Nat) : Option (World UInt8 4096) :=
  World.create (named n) tightTuning true Session.Sample.supply

/-- The fork connects, waits for its timer, and connects again. -/
def twice : List (Step UInt8) := [.start, .onConnected 0, .retryTimer, .onConnected 1]

end Sample

/-- At eight kilohertz the queue has room for 1280 bytes, and with them for the hello of a fork with
an ordinary call id. -/
theorem hello_fits_iff_tight :
    ∃ hello, encodeHello Sample.queueEnv.json (World.helloParams (Sample.named 4)) = some hello ∧
      ((freshlyEstablished 16 1280 5000 true).sendText 16 hello).1 = true := by
  have hcreate : Sample.fork 4 = some ((Sample.fork 4).get (by decide +kernel)) :=
    (Option.some_get _).symm
  refine ⟨(encodeHello Sample.queueEnv.json (World.helloParams (Sample.named 4))).get
    (by decide +kernel), (Option.some_get _).symm, ?_⟩
  exact (hello_fits_iff Sample.queueEnv Sample.tightConfig Sample.tightConfig (by decide)
    (Option.some_get _).symm hcreate (.tail .start .refl trivial)
    (k := ⟨Session.Sample.endpoint, 1280, false, false, false⟩) (by decide +kernel) 16 5000
    true).mpr (by decide +kernel)

/-- A call id of 1280 characters makes a longer hello.  Every connection refuses it, and the fork goes
from one server to the next. -/
theorem long_call_id_reconnects_forever :
    sanitizeConfig Sample.tightConfig = some Sample.tightConfig ∧
      (∃ hello, encodeHello Sample.queueEnv.json (World.helloParams (Sample.named 1280)) = some hello ∧
        ((freshlyEstablished 16 (queueCap Sample.tightTuning) 5000 true).sendText 16 hello).1 =
          false) ∧
      ∃ w₀, Sample.fork 1280 = some w₀ ∧
        (exec (step Sample.queueEnv) w₀ Sample.twice).session.state = .reconnecting ∧
        (exec (step Sample.queueEnv) w₀ Sample.twice).port.wire.map (·.accepted) = [false, false] ∧
        ∀ w, Run (step Sample.queueEnv) (fun _ _ => True) w₀ w → w.session.state ≠ .active := by
  have hport : KeepsQueue Sample.queueEnv := by
    intro n k text haccept
    simp only [Sample.queueEnv, Bool.and_eq_true, decide_eq_true_eq] at haccept
    exact haccept.2
  have hhello : encodeHello Sample.queueEnv.json (World.helloParams (Sample.named 1280)) =
      some ((encodeHello Sample.queueEnv.json (World.helloParams (Sample.named 1280))).get
        (by decide +kernel)) := (Option.some_get _).symm
  have hcreate : Sample.fork 1280 = some ((Sample.fork 1280).get (by decide +kernel)) :=
    (Option.some_get _).symm
  refine ⟨by decide, ⟨_, hhello, by decide +kernel⟩, _, hcreate, by decide +kernel,
    by decide +kernel, ?_⟩
  intro w hrun
  exact long_hello_never_active hport hcreate hhello (by decide +kernel) hrun

end Module
end AudioFork
