import AudioFork.Session.Chores
import AudioFork.Session.WireOrder

/-!
# Answers — what a session learns from its connections

The environment says how every connection answers every frame.  A session sees only the answers to
the frames it offers, and each of these is on the wire.  `Consults` says so of one function: its
offers go to the connection held, they were answered by the environment, and any other environment
that gives the same answers to them leads to the same world.  `consults_step` says it of a whole step.

An argument about what a connection would answer can therefore be made about the wire alone.
-/

namespace AudioFork

variable {β : Type}

/-- The same outside world, with connections that answer as `accept` says. -/
def Env.answering (env : Env β) (accept : Nat → Conn → Frame β → Bool) : Env β :=
  { env with accept := accept }

namespace Session

open Buffers Protocol Lib

variable {S : ℕ+}

namespace World

/-- The offers got the answers that `env` gives them, when they are made from `w` on. -/
def Answers (env : Env β) (w : World β S) (offers : List (Offer β)) : Prop :=
  ∀ i o, offers[i]? = some o →
    env.accepts w.port.conns o.conn (w.port.wire.length + i) o.frame = o.accepted

/-- From `w`, `f` asks the connection held for an answer to each of `offers`, and nothing else. -/
structure Consults (env : Env β) (w : World β S) (f : Env β → World β S)
    (offers : List (Offer β)) : Prop where
  wire : (f env).port.wire = w.port.wire ++ offers
  held : ∀ o ∈ offers, w.session.connection = some o.conn
  answered : w.Answers env offers
  only : ∀ accept, w.Answers (env.answering accept) offers → f (env.answering accept) = f env

section

variable {env : Env β} {w v : World β S} {f : Env β → World β S} {offers more : List (Offer β)}

theorem answers_append (hconns : v.port.conns = w.port.conns)
    (hwire : v.port.wire = w.port.wire ++ offers) :
    w.Answers env (offers ++ more) ↔ w.Answers env offers ∧ v.Answers env more := by
  have hnext : ∀ i, w.port.wire.length + (offers.length + i) = v.port.wire.length + i := by
    intro i
    rw [hwire, List.length_append, Nat.add_assoc]
  constructor
  · intro h
    refine ⟨?_, ?_⟩
    · intro i o ho
      have hlt := (List.getElem?_eq_some_iff.mp ho).1
      exact h i o (by rw [List.getElem?_append_left hlt, ho])
    · intro i o ho
      rw [hconns, ← hnext]
      refine h _ o ?_
      rw [List.getElem?_append_right (Nat.le_add_right _ _), Nat.add_sub_cancel_left, ho]
  · rintro ⟨hfirst, hrest⟩ i o ho
    by_cases hlt : i < offers.length
    · rw [List.getElem?_append_left hlt] at ho
      exact hfirst i o ho
    · have hge := Nat.le_of_not_lt hlt
      rw [List.getElem?_append_right hge] at ho
      have hmore := hrest _ o ho
      rwa [hconns, ← hnext, Nat.add_sub_cancel' hge] at hmore

theorem answers_singleton {o : Offer β} :
    w.Answers env [o] ↔
      env.accepts w.port.conns o.conn w.port.wire.length o.frame = o.accepted := by
  constructor
  · intro h
    exact h 0 o rfl
  · intro h i o' ho
    cases i with
    | zero =>
        cases ho
        exact h
    | succ i => cases ho

/-! ## Rules -/

namespace Consults

theorem quiet (hwire : (f env).port.wire = w.port.wire)
    (honly : ∀ accept, f (env.answering accept) = f env) : Consults env w f [] where
  wire := by rw [List.append_nil]; exact hwire
  held := nofun
  answered := nofun
  only := fun accept _ => honly accept

/-- Asking again later, of the same connections. -/
theorem andThen {g : Env β → World β S → World β S} (h : Consults env w f offers)
    (hconns : (f env).port.conns = w.port.conns)
    (hheld : (f env).session.connection = w.session.connection)
    (hnext : Consults env (f env) (fun e => g e (f env)) more) :
    Consults env w (fun e => g e (f e)) (offers ++ more) where
  wire := by rw [hnext.wire, h.wire, List.append_assoc]
  held := by
    intro o ho
    rcases List.mem_append.mp ho with ho | ho
    · exact h.held o ho
    · exact hheld.symm.trans (hnext.held o ho)
  answered := (answers_append hconns h.wire).mpr ⟨h.answered, hnext.answered⟩
  only := by
    intro accept haccept
    rcases (answers_append hconns h.wire).mp haccept with ⟨hfirst, hrest⟩
    have hsame := h.only accept hfirst
    show g (env.answering accept) (f (env.answering accept)) = g env (f env)
    rw [hsame]
    exact hnext.only accept hrest

/-- Asking no more, whatever becomes of the connections. -/
theorem andDone {g : Env β → World β S → World β S} (h : Consults env w f offers)
    (hwire : (g env (f env)).port.wire = (f env).port.wire)
    (honly : ∀ accept, g (env.answering accept) (f env) = g env (f env)) :
    Consults env w (fun e => g e (f e)) offers where
  wire := hwire.trans h.wire
  held := h.held
  answered := h.answered
  only := by
    intro accept haccept
    have hsame := h.only accept haccept
    show g (env.answering accept) (f (env.answering accept)) = g env (f env)
    rw [hsame]
    exact honly accept

/-- The books are the same as those of another world. -/
theorem of_start (h : Consults env v f offers) (hconns : v.port.conns = w.port.conns)
    (hwire : v.port.wire = w.port.wire)
    (hheld : v.session.connection = w.session.connection) : Consults env w f offers where
  wire := by rw [h.wire, hwire]
  held := fun o ho => hheld.symm.trans (h.held o ho)
  answered := by
    have hanswers := h.answered
    unfold Answers at hanswers ⊢
    rwa [hconns, hwire] at hanswers
  only := by
    intro accept haccept
    refine h.only accept ?_
    unfold Answers at haccept ⊢
    rwa [hconns, hwire]

/-- Another way to say what is done, given these answers. -/
theorem congr {g : Env β → World β S} (h : Consults env w f offers) (henv : f env = g env)
    (hother : ∀ accept, w.Answers (env.answering accept) offers →
      f (env.answering accept) = g (env.answering accept)) :
    Consults env w g offers where
  wire := by rw [← henv]; exact h.wire
  held := h.held
  answered := h.answered
  only := by
    intro accept haccept
    rw [← henv, ← hother accept haccept]
    exact h.only accept haccept

end Consults

end

/-! ## Sends -/

section

variable (env : Env β) (w : World β S)

/-- The offer that `Send` logs. -/
def offer (c : Nat) (frame : Frame β) : Offer β :=
  { conn := c
    frame := frame
    accepted := env.accepts w.port.conns c w.port.wire.length frame }

variable {env w} in
theorem send_answering {c : Nat} {frame : Frame β} {accept : Nat → Conn → Frame β → Bool}
    {more : List (Offer β)} (h : w.Answers (env.answering accept) (w.offer env c frame :: more)) :
    w.send (env.answering accept) c frame = w.send env c frame := by
  have hsame : (env.answering accept).accepts w.port.conns c w.port.wire.length frame =
      env.accepts w.port.conns c w.port.wire.length frame := h 0 _ rfl
  unfold send
  rw [hsame]

variable {w} in
/-- A send, and what is made of its answer without asking again. -/
theorem consults_send {c : Nat} (hconn : w.session.connection = some c) (frame : Env β → Frame β)
    (hframe : ∀ accept, frame (env.answering accept) = frame env)
    {g : Env β → Bool × World β S → World β S}
    (hwire : (g env (w.send env c (frame env))).port.wire = (w.send env c (frame env)).2.port.wire)
    (honly : ∀ accept,
      g (env.answering accept) (w.send env c (frame env)) = g env (w.send env c (frame env))) :
    Consults env w (fun e => g e (w.send e c (frame e))) [w.offer env c (frame env)] where
  wire := hwire
  held := fun o ho => hconn.trans (by rw [List.mem_singleton.mp ho]; rfl)
  answered := answers_singleton.mpr rfl
  only := by
    intro accept haccept
    show g _ (w.send (env.answering accept) c (frame (env.answering accept))) = g env _
    rw [hframe, send_answering haccept]
    exact honly accept

variable {w} in
theorem consults_sendOrDrop {c : Nat} (hconn : w.session.connection = some c) (text : Text) :
    Consults env w (fun e => w.sendOrDrop e c text) [w.offer env c (.text text)] := by
  rcases sendOrDrop_writes env w c text with ⟨_, hwrites⟩
  refine ⟨by rw [hwrites]; rfl, ?_, answers_singleton.mpr rfl, ?_⟩
  · intro o ho
    rw [List.mem_singleton.mp ho]
    exact hconn
  · intro accept haccept
    unfold sendOrDrop
    rw [send_answering haccept]

theorem consults_foldl_sendOrDrop {c : Nat} (texts : List Text) {w : World β S}
    (hconn : w.session.connection = some c) :
    ∃ offers, Consults env w (fun e => texts.foldl (sendOrDrop e c) w) offers := by
  induction texts generalizing w with
  | nil => exact ⟨[], .quiet rfl fun _ => rfl⟩
  | cons text texts ih =>
      rcases sendOrDrop_writes env w c text with ⟨_, hwrites⟩
      have hconns : (w.sendOrDrop env c text).port.conns = w.port.conns := by rw [hwrites]; rfl
      have hheld : (w.sendOrDrop env c text).session.connection = w.session.connection := by
        rw [hwrites]
        rfl
      rcases ih (hheld.trans hconn) with ⟨offers, hrest⟩
      exact ⟨_, (consults_sendOrDrop env hconn text).andThen
        (g := fun e v => texts.foldl (sendOrDrop e c) v) hconns hheld hrest⟩

theorem consults_flushPendingTexts :
    ∃ offers, Consults env w (fun e => w.flushPendingTexts e) offers := by
  unfold flushPendingTexts
  simp only
  cases hconn : w.session.connection with
  | none => exact ⟨[], .quiet rfl fun _ => rfl⟩
  | some c =>
      rcases consults_foldl_sendOrDrop env w.session.pendingTexts hconn with ⟨offers, h⟩
      exact ⟨offers, h.andDone (g := fun _ v => { v with session.pendingTexts := [] }) rfl
        fun _ => rfl⟩

theorem consults_deliverText (text : Text) :
    ∃ offers, Consults env w (fun e => w.deliverText e text) offers ∧
      (offers ≠ [] → w.session.state = .active) := by
  have hqueue : (w.queueText text).port.wire = w.port.wire := by
    rcases queueText_writes w text with ⟨_, _, hwrites⟩
    rw [hwrites]
  unfold deliverText
  cases hstate : w.session.state with
  | active =>
      simp only
      cases hconn : w.session.connection with
      | none => exact ⟨[], .quiet hqueue fun _ => rfl, fun h => absurd rfl h⟩
      | some c => exact ⟨_, consults_sendOrDrop env hconn text, fun _ => trivial⟩
  | connecting => exact ⟨[], .quiet hqueue fun _ => rfl, fun h => absurd rfl h⟩
  | reconnecting => exact ⟨[], .quiet hqueue fun _ => rfl, fun h => absurd rfl h⟩
  | draining => exact ⟨[], .quiet rfl fun _ => rfl, fun h => absurd rfl h⟩
  | closing => exact ⟨[], .quiet rfl fun _ => rfl, fun h => absurd rfl h⟩
  | dead => exact ⟨[], .quiet rfl fun _ => rfl, fun h => absurd rfl h⟩

/-- The bye of a modify is asked for before the connection is closed. -/
theorem consults_leave : ∃ offers, Consults env w (fun e => w.leave e) offers := by
  unfold leave
  cases hconn : w.session.connection with
  | none => exact ⟨[], .quiet rfl fun _ => rfl⟩
  | some c =>
      exact ⟨_, consults_send env hconn (fun e => .bye (encodeBye e.json)) (fun _ => rfl)
        (g := fun _ result => { result.2.close c with session.connection := none }) rfl fun _ => rfl⟩

theorem consults_applyModify (endpoint : Endpoint) :
    ∃ offers, Consults env w (fun e => w.applyModify e endpoint) offers ∧
      (offers ≠ [] → w.session.state.live = true) := by
  unfold applyModify
  split
  · rename_i hlive
    rcases consults_leave env
      { w with session.params.endpoint := endpoint, session.endpointChanged := true } with
      ⟨offers, h⟩
    exact ⟨offers, h.of_start rfl rfl rfl, fun _ => hlive⟩
  · exact ⟨[], .quiet rfl fun _ => rfl, fun h => absurd rfl h⟩

/-! ## The flush loop -/

/-- The loop asks for its frames in the order in which it logs them. -/
theorem flush_loop_consults (accepts : Nat → Frame β → Bool) (c coalesce fuel sent : Nat)
    (f : Flush β S) :
    ∃ offers, (Flush.loop accepts c coalesce fuel sent f).wire = f.wire ++ offers ∧
      (∀ o ∈ offers, o.conn = c) ∧
      (∀ i o, offers[i]? = some o → accepts (f.wire.length + i) o.frame = o.accepted) ∧
      ∀ accepts' : Nat → Frame β → Bool,
        (∀ i o, offers[i]? = some o → accepts' (f.wire.length + i) o.frame = o.accepted) →
          Flush.loop accepts' c coalesce fuel sent f =
            Flush.loop accepts c coalesce fuel sent f := by
  induction fuel generalizing sent f with
  | zero => exact ⟨[], (List.append_nil _).symm, nofun, nofun, fun _ _ => rfl⟩
  | succ fuel ih =>
      by_cases hmore : f.more coalesce sent
      · let chunk := f.outbound.buffer.peek (coalesce - sent)
        cases hanswer : accepts f.wire.length (.audio chunk) with
        | false =>
            rw [Flush.loop_refused hmore hanswer]
            refine ⟨[⟨c, .audio chunk, false⟩], rfl, by simp, ?_, ?_⟩
            · intro i o ho
              cases i with
              | zero =>
                  cases ho
                  exact hanswer
              | succ i => cases ho
            · intro accepts' hsame
              exact Flush.loop_refused hmore (hsame 0 _ rfl)
        | true =>
            rw [Flush.loop_taken hmore hanswer]
            have hnext : ∀ i, (f.taken c chunk).wire.length + i = f.wire.length + (i + 1) := by
              intro i
              rw [Flush.taken, List.length_append, List.length_singleton, Nat.add_assoc,
                Nat.add_comm 1]
            rcases ih (sent + chunk.length) (f.taken c chunk) with
              ⟨offers, hwire, hconn, hanswers, honly⟩
            refine ⟨⟨c, .audio chunk, true⟩ :: offers, ?_, ?_, ?_, ?_⟩
            · rw [hwire, List.append_cons]
              rfl
            · exact List.forall_mem_cons.mpr ⟨rfl, hconn⟩
            · intro i o ho
              cases i with
              | zero =>
                  cases ho
                  exact hanswer
              | succ i =>
                  rw [← hnext]
                  exact hanswers i o ho
            · intro accepts' hsame
              rw [Flush.loop_taken hmore (hsame 0 _ rfl)]
              refine honly accepts' ?_
              intro i o ho
              rw [hnext]
              exact hsame (i + 1) o ho
      · rw [Flush.loop_done hmore]
        exact ⟨[], (List.append_nil _).symm, nofun, nofun, fun _ _ => Flush.loop_done hmore⟩

theorem consults_flushToConnection :
    ∃ offers, Consults env w (fun e => w.flushToConnection e) offers := by
  unfold flushToConnection
  cases hconn : w.session.connection with
  | none => exact ⟨[], .quiet rfl fun _ => rfl⟩
  | some c =>
      rcases flush_loop_consults (env.accepts w.port.conns c) c w.session.tuning.coalesceMaxBytes
        (w.session.outbound.buffer.size + 1) 0
        { outbound := w.session.outbound, supply := w.supply, wire := w.port.wire } with
        ⟨offers, hwire, hall, hanswers, honly⟩
      refine ⟨offers, hwire, ?_, ?_, ?_⟩
      · intro o ho
        rw [hall o ho, hconn]
      · intro i o ho
        rw [hall o (List.mem_of_getElem? ho)]
        exact hanswers i o ho
      · intro accept haccept
        simp only
        rw [honly ((env.answering accept).accepts w.port.conns c) ?_]
        intro i o ho
        rw [← haccept i o ho, hall o (List.mem_of_getElem? ho)]

/-! ## Pumps -/

theorem consults_sayBye (drained : Bool) :
    ∃ offers, Consults env w (fun e => w.sayBye e drained) offers := by
  unfold sayBye
  cases hconn : w.session.connection with
  | none => exact ⟨[], .quiet rfl fun _ => rfl⟩
  | some c =>
      simp only
      split
      · exact ⟨_, consults_send env hconn (fun e => .bye (encodeBye e.json)) (fun _ => rfl)
          (g := fun _ result => { result.2 with session.byeSent := result.1 }) rfl fun _ => rfl⟩
      · exact ⟨[], .quiet rfl fun _ => rfl⟩

/-- What a drain makes of the flushed world `v` and of the world after the bye. -/
def endTurn (env : Env β) (v w : World β S) : World β S :=
  if (v.session.outbound.buffer.empty && w.session.byeSent) || (v.drainExpired env).1 then
    w.hangUp
  else
    w

theorem consults_drainTurn : ∃ offers, Consults env w (fun e => w.drainTurn e) offers := by
  rcases consults_flushToConnection env w with ⟨audio, hflush⟩
  rcases flushToConnection_writes env w with ⟨_, _, _, _, _, -, hwrites⟩
  generalize hv : w.flushToConnection env = v at hwrites
  rcases drainExpired_writes env v with ⟨_, hexpired⟩
  rcases consults_sayBye env (v.drainExpired env).2 v.session.outbound.buffer.empty with ⟨byes, hbye⟩
  have hstart : Consults env v
      (fun e => (v.drainExpired e).2.sayBye e v.session.outbound.buffer.empty) byes :=
    (hbye.of_start (by rw [hexpired]) (by rw [hexpired]) (by rw [hexpired])).congr rfl fun _ _ => rfl
  have hturn := hstart.andDone (g := fun e u => endTurn e v u)
    (by unfold endTurn; split; exact congrArg Prod.fst (wiring_hangUp _); rfl) fun _ => rfl
  refine ⟨audio ++ byes, hflush.andThen (g := fun e v => endTurn e v
    ((v.drainExpired e).2.sayBye e v.session.outbound.buffer.empty)) ?_ ?_ ?_⟩
  · show (w.flushToConnection env).port.conns = _
    rw [hv, hwrites]
  · show (w.flushToConnection env).session.connection = _
    rw [hv, hwrites]
  · show Consults env (w.flushToConnection env) (fun e => endTurn e (w.flushToConnection env)
      (((w.flushToConnection env).drainExpired e).2.sayBye e _)) _
    rw [hv]
    exact hturn

theorem consults_pump :
    ∃ offers, Consults env w (fun e => w.pump e) offers ∧
      (offers ≠ [] → w.session.state = .active ∨ w.session.state = .draining) := by
  have hlife := lifecycle_moveAudio env w
  have hconns : (w.moveAudio env).port.conns = w.port.conns := congrArg Lifecycle.conns hlife
  have hheld : (w.moveAudio env).session.connection = w.session.connection :=
    congrArg Lifecycle.connection hlife
  have hwire : (w.moveAudio env).port.wire = w.port.wire := congrArg Prod.fst (wiring_moveAudio env w)
  have hquiet : Consults env w (fun e => w.moveAudio e) [] := .quiet hwire fun _ => rfl
  have hidle : (∀ e, w.pump e = w.moveAudio e) → ∃ offers, Consults env w (fun e => w.pump e) offers ∧
      (offers ≠ [] → w.session.state = .active ∨ w.session.state = .draining) := fun hpump =>
    ⟨[], hquiet.congr (hpump env).symm fun _ _ => (hpump _).symm, fun h => absurd rfl h⟩
  cases hstate : w.session.state with
  | active =>
      have hpump : ∀ e, w.pump e = ((w.moveAudio e).flushToConnection e).restoreCapIfDrained := by
        intro e
        rw [pump_eq, hstate]
      rcases consults_flushToConnection env (w.moveAudio env) with ⟨offers, hflush⟩
      rcases restoreCapIfDrained_writes ((w.moveAudio env).flushToConnection env) with
        ⟨_, _, _, hwrites⟩
      have hboth := hquiet.andThen (g := fun e v => v.flushToConnection e) hconns hheld hflush
      have hall := hboth.andDone (g := fun _ v => v.restoreCapIfDrained) (by rw [hwrites])
        fun _ => rfl
      exact ⟨offers, hall.congr (hpump env).symm fun _ _ => (hpump _).symm, fun _ => Or.inl rfl⟩
  | draining =>
      have hpump : ∀ e, w.pump e = (w.moveAudio e).drainTurn e := by
        intro e
        rw [pump_eq, hstate]
        rfl
      rcases consults_drainTurn env (w.moveAudio env) with ⟨offers, hturn⟩
      have hall := hquiet.andThen (g := fun e v => v.drainTurn e) hconns hheld hturn
      exact ⟨offers, hall.congr (hpump env).symm fun _ _ => (hpump _).symm, fun _ => Or.inr rfl⟩
  | _ => exact hstate ▸ hidle fun e => by rw [pump_eq, hstate]

/-! ## The handshake and teardown -/

theorem consults_drain :
    ∃ offers, Consults env w (fun e => w.drain e) offers := by
  have hstart : Consults env w (fun e => w.startDrain e) [] := .quiet rfl fun _ => rfl
  unfold drain
  cases hconn : w.session.connection with
  | none =>
      refine ⟨[], hstart.andDone (g := fun _ v => v.retire) ?_ fun _ => rfl⟩
      exact congrArg Prod.fst (wiring_finalize { w.startDrain env with session.state := .dead })
  | some c =>
      rcases consults_pump env (w.startDrain env) with ⟨offers, hpump, -⟩
      exact ⟨offers, hstart.andThen (g := fun e v => v.pump e) rfl rfl hpump⟩

theorem consults_teardown :
    ∃ offers, Consults env w (fun e => w.teardown e) offers ∧
      (offers ≠ [] → w.session.state = .active) := by
  unfold teardown
  cases hstate : w.session.state with
  | active =>
      rcases consults_drain env w with ⟨offers, hdrain⟩
      exact ⟨offers, hdrain, fun _ => rfl⟩
  | connecting =>
      exact ⟨[], .quiet (congrArg Prod.fst (wiring_hangUp w)) fun _ => rfl, fun h => absurd rfl h⟩
  | reconnecting =>
      exact ⟨[], .quiet (congrArg Prod.fst (wiring_finalize { w with session.state := .dead }))
        fun _ => rfl, fun h => absurd rfl h⟩
  | draining => exact ⟨[], .quiet rfl fun _ => rfl, fun h => absurd rfl h⟩
  | closing => exact ⟨[], .quiet rfl fun _ => rfl, fun h => absurd rfl h⟩
  | dead => exact ⟨[], .quiet rfl fun _ => rfl, fun h => absurd rfl h⟩

variable {w} in
theorem consults_sendResume {c : Nat} (hconn : w.session.connection = some c) :
    ∃ offers, Consults env w (fun e => w.sendResume e c) offers := by
  have hbooks : (w.resumeGap env).2.port.conns = w.port.conns ∧
      (w.resumeGap env).2.port.wire = w.port.wire ∧
      (w.resumeGap env).2.session.connection = w.session.connection := by
    unfold resumeGap
    split
    · exact ⟨rfl, rfl, rfl⟩
    · exact ⟨rfl, rfl, rfl⟩
  rcases hbooks with ⟨hconns, hwire, hheld⟩
  let v := (w.resumeGap env).2
  let droppedMs := bytesToMs v.session.params v.session.outbound.droppedSinceResume
  have hsend := consults_send env (hheld.trans hconn)
    (fun e => .resume (encodeResume e.json (w.resumeGap e).1 droppedMs)) (fun _ => rfl)
    (g := fun e result =>
      { result.2 with
        events := result.2.events ++
          [{ forkEvent result.2.session.params .resume [] with
             gapMs := (w.resumeGap e).1
             droppedMs := droppedMs }]
        session.reconnecting := false
        session.outbound.droppedSinceResume := 0
        session.reconnects := result.2.session.reconnects + 1 }) rfl fun _ => rfl
  exact ⟨_, (hsend.of_start (w := w) hconns hwire hheld).congr rfl fun _ _ => rfl⟩

variable {w} in
theorem consults_announce {c : Nat} (hconn : w.session.connection = some c) :
    ∃ offers, Consults env w (fun e => w.announce e c) offers := by
  have hsettle : ∀ v : World β S, v.settleEndpoint.port.wire = v.port.wire := by
    intro v
    rcases settleEndpoint_writes v with ⟨_, _, hwrites⟩
    rw [hwrites]
  unfold announce
  simp only
  split
  · rcases consults_sendResume env hconn with ⟨offers, h⟩
    exact ⟨offers, h.andDone
      (g := fun _ v => { v.settleEndpoint with session.disconnectedAt := none })
      (hsettle _) fun _ => rfl⟩
  · exact ⟨[], .quiet (hsettle _) fun _ => rfl⟩

variable {w} in
/-- What follows an accepted hello. -/
theorem consults_greeted {c : Nat} (hconn : w.session.connection = some c) :
    ∃ offers, Consults env w (fun e => ((w.announce e c).flushPendingTexts e).pump e) offers := by
  rcases consults_announce env hconn with ⟨resume, hannounce⟩
  rcases consults_flushPendingTexts env (w.announce env c) with ⟨texts, htexts⟩
  rcases consults_pump env ((w.announce env c).flushPendingTexts env) with ⟨audio, hpump, -⟩
  have hlife : (w.announce env c).lifecycle = w.lifecycle := lifecycle_announce env w c
  have hlife' : ((w.announce env c).flushPendingTexts env).lifecycle = w.lifecycle :=
    (lifecycle_flushPendingTexts env _).trans hlife
  have hflushed := hannounce.andThen (g := fun e v => v.flushPendingTexts e)
    (congrArg Lifecycle.conns hlife) (congrArg Lifecycle.connection hlife) htexts
  exact ⟨_, hflushed.andThen (g := fun e v => v.pump e)
    (congrArg Lifecycle.conns hlife') (congrArg Lifecycle.connection hlife') hpump⟩

/-- Hello, resume, texts and audio: every frame of the handshake goes to one connection. -/
theorem consults_notifyConnected :
    ∃ offers, Consults env w (fun e => w.notifyConnected e) offers := by
  cases hhello : w.hello env with
  | none =>
      rcases consults_teardown env (w.emit .error (ascii "invalid fork parameters for hello")) with
        ⟨offers, h, -⟩
      refine ⟨offers, (h.of_start (w := w) rfl rfl rfl).congr ?_ fun accept _ => ?_⟩
      · exact (notifyConnected_invalid env hhello).symm
      · exact (notifyConnected_invalid (env.answering accept) hhello).symm
  | some hello =>
      cases hconn : w.session.connection with
      | none =>
          refine ⟨[], .quiet ?_ fun accept => ?_⟩
          · rw [notifyConnected_unheld env hhello hconn]
            exact congrArg Prod.fst (wiring_lose _)
          · rw [notifyConnected_unheld env hhello hconn,
              notifyConnected_unheld (env.answering accept) hhello hconn]
      | some c =>
          have hsend : Consults env w (fun e => (w.send e c (.hello hello)).2)
              [w.offer env c (.hello hello)] :=
            consults_send env hconn (fun _ => .hello hello) (fun _ => rfl)
              (g := fun _ result => result.2) rfl fun _ => rfl
          cases hanswer : (w.send env c (.hello hello)).1 with
          | false =>
              have hlost := hsend.andDone
                (g := fun _ v => (v.emit .error (ascii "hello could not be sent")).lose)
                (congrArg Prod.fst (wiring_lose _)) fun _ => rfl
              refine ⟨_, hlost.congr (notifyConnected_refused env hhello hconn hanswer).symm ?_⟩
              intro accept haccept
              refine (notifyConnected_refused (env.answering accept) hhello hconn ?_).symm
              rw [send_answering haccept]
              exact hanswer
          | true =>
              rcases consults_greeted env (w := (w.send env c (.hello hello)).2) hconn with
                ⟨offers, hgreeted⟩
              have hall := hsend.andThen
                (g := fun e v => ((v.announce e c).flushPendingTexts e).pump e) rfl rfl hgreeted
              refine ⟨_, hall.congr (notifyConnected_greeted env hhello hconn hanswer).symm ?_⟩
              intro accept haccept
              refine (notifyConnected_greeted (env.answering accept) hhello hconn ?_).symm
              rw [send_answering haccept]
              exact hanswer

theorem consults_onConnected :
    ∃ offers, Consults env w (fun e => w.onConnected e) offers ∧
      (offers ≠ [] → w.session.state = .connecting) := by
  by_cases hstate : w.session.state = .connecting
  · rcases consults_notifyConnected env { w with session.state := .active } with ⟨offers, h⟩
    refine ⟨offers, (h.of_start (w := w) rfl rfl rfl).congr ?_ fun accept _ => ?_, fun _ => hstate⟩
    · exact (onConnected_connecting env hstate).symm
    · exact (onConnected_connecting (env.answering accept) hstate).symm
  · refine ⟨[], .quiet ?_ fun accept => ?_, fun h => absurd rfl h⟩
    · rw [onConnected_late env hstate]
      exact congrArg Prod.fst (wiring_abandonSocket w)
    · rw [onConnected_late env hstate, onConnected_late (env.answering accept) hstate]

theorem consults_onText (text : Text) :
    ∃ offers, Consults env w (fun e => w.onText e text) offers ∧
      (offers ≠ [] → w.session.state = .active) := by
  have hquiet : ∀ {v : World β S}, v.wiring = w.wiring → (∀ e, e.json = env.json → w.onText e text = v) →
      ∃ offers, Consults env w (fun e => w.onText e text) offers ∧
        (offers ≠ [] → w.session.state = .active) := by
    intro v hwiring hv
    refine ⟨[], .quiet ?_ fun accept => ?_, fun h => absurd rfl h⟩
    · rw [hv env rfl]
      exact congrArg Prod.fst hwiring
    · rw [hv env rfl, hv (env.answering accept) rfl]
  cases hmessage : parseServerMessage env.json text with
  | serverDisconnect =>
      have hon : ∀ e : Env β, e.json = env.json →
          w.onText e text = (w.emit .disconnect []).teardown e := by
        intro e he
        simp only [onText, he, hmessage]
        exact fire_teardown e _
      rcases consults_teardown env (w.emit .disconnect []) with ⟨offers, h, hstate⟩
      exact ⟨offers, (h.of_start (w := w) rfl rfl rfl).congr (hon env rfl).symm
        fun accept _ => (hon (env.answering accept) rfl).symm, hstate⟩
  | relayToApp payload =>
      exact hquiet (v := w.emit .json payload) rfl fun e he => by simp only [onText, he, hmessage]
  | invalidMessage reason =>
      exact hquiet (v := w.emit .jsonError reason) rfl fun e he => by
        simp only [onText, he, hmessage]
  | startPlayback sampleRate channels =>
      exact hquiet (v := w.playbackControl fun _ => handlePlaybackStart sampleRate channels)
        (wiring_playbackControl w fun _ => rfl) fun e he => by simp only [onText, he, hmessage]
  | clearPlayback =>
      exact hquiet (wiring_playbackControl w (wiring_handleClear w)) fun e he => by
        simp only [onText, he, hmessage]
  | playbackMark name =>
      exact hquiet (v := w.playbackControl fun path => handleMark path name)
        (wiring_playbackControl w fun _ => rfl) fun e he => by simp only [onText, he, hmessage]

end

end World

/-! ## Steps -/

open World

variable (env : Env β) (w : World β S)

theorem consults_runPosted (i : Nat) :
    ∃ offers, Consults env w (fun e => step e w (.runPosted i)) offers ∧
      (offers ≠ [] → w.session.state ≠ .closing) := by
  cases htask : w.port.posted[i]? with
  | none =>
      have hstep : ∀ e, step e w (.runPosted i) = w := fun e => step_runPosted_none e htask
      exact ⟨[], .quiet (by rw [hstep]) fun accept => by rw [hstep, hstep], fun h => absurd rfl h⟩
  | some task =>
      have hstep : ∀ e, step e w (.runPosted i) = (w.takeTask i).runTask e task :=
        fun e => step_runPosted_some e htask
      have htaken : ∀ {offers : List (Offer β)},
          Consults env (w.takeTask i) (fun e => (w.takeTask i).runTask e task) offers →
            Consults env w (fun e => step e w (.runPosted i)) offers := by
        intro offers h
        exact (h.of_start (w := w) rfl rfl rfl).congr (hstep env).symm fun _ _ => (hstep _).symm
      cases task with
      | teardown =>
          rcases consults_teardown env (w.takeTask i) with ⟨offers, h, hstate⟩
          refine ⟨offers, htaken (h.congr (fire_teardown env _).symm
            fun _ _ => (fire_teardown _ _).symm), fun hsome => ?_⟩
          rw [show w.session.state = .active from hstate hsome]
          nofun
      | deliverText text =>
          rcases consults_deliverText env (w.takeTask i) text with ⟨offers, h, hstate⟩
          refine ⟨offers, htaken h, fun hsome => ?_⟩
          rw [show w.session.state = .active from hstate hsome]
          nofun
      | applyModify endpoint =>
          rcases consults_applyModify env (w.takeTask i) endpoint with ⟨offers, h, hlive⟩
          refine ⟨offers, htaken h, ?_⟩
          intro hsome hclosing
          have hlive' : w.session.state.live = true := hlive hsome
          rw [hclosing] at hlive'
          cases hlive'

/-- A step asks the connection it holds, never one it is closing, and it asks for nothing but the
answers it logs. -/
theorem consults_step (s : Step β) :
    ∃ offers, Consults env (preamble w s) (fun e => step e w s) offers ∧
      (offers ≠ [] → w.session.state ≠ .closing ∧ ∀ c connectFailed, s ≠ .onClosed c connectFailed) := by
  have hquiet : (step env w s).port.wire = (preamble w s).port.wire →
      (∀ accept, step (env.answering accept) w s = step env w s) →
      ∃ offers, Consults env (preamble w s) (fun e => step e w s) offers ∧
        (offers ≠ [] → w.session.state ≠ .closing ∧ ∀ c connectFailed, s ≠ .onClosed c connectFailed) :=
    fun hwire honly =>
    ⟨[], .quiet hwire honly, fun h => absurd rfl h⟩
  cases s with
  | start =>
      have hstart : ∀ e, step e w .start = connect e { w with started := true } := fun e =>
        beginConnect_eq e { w with started := true }
      refine hquiet ?_ fun accept => ?_
      · rw [hstart]
        exact congrArg Prod.fst (wiring_connect env { w with started := true })
      · rw [hstart, hstart]
        rfl
  | pump =>
      rcases consults_pump env w with ⟨offers, h, hstate⟩
      refine ⟨offers, h, fun hsome => ?_⟩
      rcases hstate hsome with hstate | hstate
      all_goals exact ⟨by simp [hstate], by simp⟩
  | stop | sendText _ | sendDtmf _ _ | modify _ =>
      exact hquiet (step_posts (P := fun v => v.port.wire = w.port.wire) rfl fun _ => rfl) fun _ => rfl
  | runPosted i =>
      rcases consults_runPosted env w i with ⟨offers, h, hstate⟩
      -- the port has handed the task over, or there is none: its other books are as they were
      have hbooks : w.port.conns = (preamble w (.runPosted i)).port.conns ∧
          w.port.wire = (preamble w (.runPosted i)).port.wire ∧
          w.session.connection = (preamble w (.runPosted i)).session.connection := by
        simp only [preamble]
        split <;> exact ⟨rfl, rfl, rfl⟩
      exact ⟨offers, h.of_start hbooks.1 hbooks.2.1 hbooks.2.2,
        fun hsome => ⟨hstate hsome, by simp⟩⟩
  | retryTimer =>
      by_cases hstate : w.session.state = .reconnecting
      · have hfire : ∀ e, step e w .retryTimer =
            connect e { w.takeTimer with session.state := .connecting } := fun e =>
          fire_retryTimerFired e (w := w.takeTimer) hstate
        refine hquiet ?_ fun accept => ?_
        · simp only [hfire, preamble, if_pos hstate]
          exact congrArg Prod.fst (wiring_connect env _)
        · rw [hfire, hfire]
          rfl
      · have hfire : ∀ e, step e w .retryTimer = w.takeTimer := fun e =>
          fire_retryTimerFired_stale e (w := w.takeTimer) hstate
        refine hquiet ?_ fun accept => ?_
        · simp only [hfire, preamble, if_neg hstate]
        · rw [hfire, hfire]
  | onConnected c =>
      rcases consults_onConnected env (w.markConnected c) with ⟨offers, h, hstate⟩
      refine ⟨offers, h, fun hsome => ?_⟩
      rw [show w.session.state = .connecting from hstate hsome]
      exact ⟨by simp, by simp⟩
  | onText c text =>
      rcases consults_onText env w text with ⟨offers, h, hstate⟩
      refine ⟨offers, h, fun hsome => ?_⟩
      rw [hstate hsome]
      exact ⟨by simp, by simp⟩
  | onBinary c bytes => exact hquiet (congrArg Prod.fst (wiring_onBinary env w bytes)) fun _ => rfl
  | onClosed c connectFailed =>
      have hclosed : ∀ e, step e w (.onClosed c connectFailed) =
          ((w.markClosed c).noteClosed e connectFailed).lose := fun e =>
        onClosed_eq e connectFailed (w.markClosed c)
      refine hquiet ?_ fun accept => ?_
      · rw [hclosed]
        exact congrArg Prod.fst ((wiring_lose _).trans (wiring_noteClosed env _ connectFailed))
      · rw [hclosed, hclosed]
        rfl
  | pushAudio pcm =>
      refine hquiet ?_ fun _ => rfl
      rcases pushAudio_writes w pcm with ⟨_, _, _, _, _, hwrites⟩
      show (w.pushAudio pcm).port.wire = w.port.wire
      rw [hwrites]
  | setPaused paused => exact hquiet rfl fun _ => rfl
  | readPlayback count => exact hquiet rfl fun _ => rfl

end Session
end AudioFork
