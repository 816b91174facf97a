import AudioFork.Net.WsConnection

/-!
# Reassembly — whole messages out of the fragments lws delivers

lws hands a message over in as many pieces as it likes, and marks only the first and the last one.
`LWS_CALLBACK_CLIENT_RECEIVE` collects them in `incoming_`.  Between two pieces anything else may
happen to the connection: sends, writeable callbacks, even `Close()`.

A `Fragmented` message has at least one piece; `arrival` is the callbacks it comes in, `begun` those
of a message whose last piece has not come.
-/

namespace AudioFork
namespace Net

open Lib

variable {β : Type}

structure Fragmented (β : Type) where
  head : List β
  tail : List (List β)
  binary : Bool
  deriving DecidableEq, Repr

namespace Fragmented

/-- The message in one piece. -/
def frame (m : Fragmented β) : WsFrame β :=
  ⟨m.head ++ m.tail.flatten, m.binary⟩

/-- The callbacks after the first one; `lws_is_final_fragment` holds in the last. -/
def continued (binary : Bool) : List (List β) → List (WsStep β)
  | [] => []
  | bytes :: rest => .receive bytes false rest.isEmpty binary :: continued binary rest

def arrival (m : Fragmented β) : List (WsStep β) :=
  .receive m.head true m.tail.isEmpty m.binary :: continued m.binary m.tail

def begun (m : Fragmented β) : List (WsStep β) :=
  .receive m.head true false m.binary ::
    m.tail.map fun bytes => .receive bytes false false m.binary

end Fragmented

def WsStep.isReceive : WsStep β → Bool
  | .receive _ _ _ _ => true
  | _ => false

/-- What the handler is given, as a message. -/
def WsEffect.message : WsEffect β → Option (WsFrame β)
  | .onText text => some ⟨text, false⟩
  | .onBinary bytes => some ⟨bytes, true⟩
  | _ => none

/-! ## What a receive callback works on -/

/-- The bytes collected so far, and the messages handed over. -/
structure Inbox (β : Type) where
  incoming : List β
  messages : List (WsFrame β)

namespace Inbox

def take (i : Inbox β) : WsStep β → Inbox β
  | .receive bytes first final binary =>
      let incoming := (if first then [] else i.incoming) ++ bytes
      if final then ⟨[], i.messages ++ [⟨incoming, binary⟩]⟩ else ⟨incoming, i.messages⟩
  | _ => i

theorem exec_continued (binary : Bool) (i : Inbox β) (chunks : List (List β)) (h : chunks ≠ []) :
    exec take i (Fragmented.continued binary chunks) =
      ⟨[], i.messages ++ [⟨i.incoming ++ chunks.flatten, binary⟩]⟩ := by
  induction chunks generalizing i with
  | nil => exact absurd rfl h
  | cons bytes rest ih =>
      cases rest with
      | nil => simp [exec, Fragmented.continued, take]
      | cons more rest =>
          have hrest := ih (i.take (.receive bytes false false binary)) (List.cons_ne_nil _ _)
          rw [Fragmented.continued]
          refine hrest.trans ?_
          simp [take]

/-- A message that is all there is handed over whole, whatever was left in the buffer. -/
theorem exec_arrival (i : Inbox β) (m : Fragmented β) :
    exec take i m.arrival = ⟨[], i.messages ++ [m.frame]⟩ := by
  rcases m with ⟨head, tail, binary⟩
  cases tail with
  | nil => simp [exec, Fragmented.arrival, Fragmented.continued, Fragmented.frame, take]
  | cons bytes rest =>
      have hrest := exec_continued binary (i.take (.receive head true false binary))
        (bytes :: rest) (List.cons_ne_nil _ _)
      refine hrest.trans ?_
      simp [take, Fragmented.frame]

theorem messages_exec_arrivals (i : Inbox β) (ms : List (Fragmented β)) :
    (exec take i (ms.flatMap Fragmented.arrival)).messages =
      i.messages ++ ms.map Fragmented.frame := by
  induction ms generalizing i with
  | nil => simp [exec]
  | cons m ms ih => simp [exec_append, exec_arrival, ih]

/-- A message without its last piece stays in the buffer. -/
theorem messages_exec_begun (i : Inbox β) (m : Fragmented β) :
    (exec take i m.begun).messages = i.messages := by
  have hkept : ∀ (chunks : List (List β)) (i : Inbox β),
      (exec take i (chunks.map fun bytes => .receive bytes false false m.binary)).messages =
        i.messages := by
    intro chunks
    induction chunks with
    | nil => exact fun _ => rfl
    | cons bytes rest ih => exact fun i => ih (i.take (.receive bytes false false m.binary))
  exact hkept m.tail (i.take (.receive m.head true false m.binary))

end Inbox

/-! ## Whatever else goes on -/

namespace WsRun

def inbox (r : WsRun β) : Inbox β :=
  ⟨r.conn.incoming, r.log.filterMap WsEffect.message⟩

/-- A call or callback that leaves the buffer alone and hands nothing over. -/
theorem inbox_after {r : WsRun β} (result : WsConnection β × List (WsEffect β))
    (hincoming : result.1.incoming = r.conn.incoming)
    (hquiet : result.2.filterMap WsEffect.message = []) :
    (r.after result).inbox = r.inbox := by
  simp [inbox, after, hincoming, hquiet]

theorem enqueue_quiet [Inhabited β] (lwsPre : Nat) (c : WsConnection β) (bytes : List β)
    (binary : Bool) :
    (c.enqueue lwsPre bytes binary).2.1.incoming = c.incoming ∧
      (c.enqueue lwsPre bytes binary).2.2.filterMap WsEffect.message = [] := by
  unfold WsConnection.enqueue
  split
  · exact ⟨rfl, rfl⟩
  · split
    · exact ⟨rfl, rfl⟩
    · exact ⟨rfl, rfl⟩

theorem close_quiet (c : WsConnection β) :
    c.close.1.incoming = c.incoming ∧ c.close.2.filterMap WsEffect.message = [] := by
  unfold WsConnection.close
  split
  · exact ⟨rfl, rfl⟩
  · refine ⟨rfl, ?_⟩
    dsimp only
    split
    · rfl
    · split
      · rfl
      · rfl

theorem finish_quiet (c : WsConnection β) (connectFailed : Bool) :
    (c.finish connectFailed).1.incoming = c.incoming ∧
      (c.finish connectFailed).2.filterMap WsEffect.message = [] := by
  unfold WsConnection.finish
  split
  · exact ⟨rfl, rfl⟩
  · exact ⟨rfl, rfl⟩

theorem afterWrite_quiet (c : WsConnection β) :
    c.afterWrite.filterMap WsEffect.message = [] := by
  unfold WsConnection.afterWrite
  split
  · rfl
  · split
    · rfl
    · rfl

theorem writeable_quiet (lwsPre : Nat) (c : WsConnection β) (written : Int) :
    (c.writeable lwsPre written).1.incoming = c.incoming ∧
      (c.writeable lwsPre written).2.filterMap WsEffect.message = [] := by
  unfold WsConnection.writeable
  cases c.outgoing with
  | nil => exact ⟨rfl, afterWrite_quiet c⟩
  | cons front rest =>
      simp only
      split
      · exact ⟨rfl, rfl⟩
      · simp only [List.filterMap_cons, WsEffect.message, afterWrite_quiet, and_self]

theorem inbox_receive (r : WsRun β) (bytes : List β) (first final binary : Bool) :
    (r.after (r.conn.receive bytes first final binary)).inbox =
      r.inbox.take (.receive bytes first final binary) := by
  cases final with
  | false => simp [inbox, after, WsConnection.receive, Inbox.take]
  | true => cases binary <;> simp [inbox, after, WsConnection.receive, Inbox.take, WsEffect.message]

/-- Only a receive callback touches the inbox. -/
theorem inbox_step [Inhabited β] (lwsPre : Nat) (r : WsRun β) (s : WsStep β) :
    (r.step lwsPre s).inbox = if s.isReceive then r.inbox.take s else r.inbox := by
  cases s with
  | sendText text => exact inbox_after _ (enqueue_quiet ..).1 (enqueue_quiet ..).2
  | sendBinary bytes => exact inbox_after _ (enqueue_quiet ..).1 (enqueue_quiet ..).2
  | setReceivePaused paused =>
      refine inbox_after _ rfl ?_
      dsimp only
      unfold WsConnection.setReceivePaused
      split
      · rfl
      · rfl
  | close => exact inbox_after _ (close_quiet _).1 (close_quiet _).2
  | established =>
      exact inbox_after ({ r.conn with wsi := true, established := true }, [.onConnected]) rfl rfl
  | writeable written => exact inbox_after _ (writeable_quiet ..).1 (writeable_quiet ..).2
  | receive bytes first final binary => exact inbox_receive r bytes first final binary
  | connectionError =>
      refine inbox_after
        ((r.conn.finish true).1, (r.conn.finish true).2 ++ [.hangUp])
        (finish_quiet _ _).1 ?_
      rw [List.filterMap_append, (finish_quiet _ _).2]
      rfl
  | closed => exact inbox_after _ (finish_quiet _ _).1 (finish_quiet _ _).2

/-- The handler is given every message whose last piece has come, once, in order and in one piece,
however lws cuts the messages up and whatever happens in between; of the one still under way it is
given nothing.  What an earlier message left in the buffer does not matter. -/
theorem messages_arrive_whole [Inhabited β] (lwsPre : Nat) (r : WsRun β)
    (ms : List (Fragmented β)) (pending : Option (Fragmented β)) (steps : List (WsStep β))
    (h : steps.filter WsStep.isReceive =
      ms.flatMap Fragmented.arrival ++ pending.elim [] Fragmented.begun) :
    (exec (WsRun.step lwsPre) r steps).log.filterMap WsEffect.message =
      r.log.filterMap WsEffect.message ++ ms.map Fragmented.frame := by
  have hview := exec_view inbox WsStep.isReceive (inbox_step lwsPre) r steps
  rw [h, exec_append] at hview
  have hmessages := congrArg Inbox.messages hview
  refine hmessages.trans ?_
  cases pending with
  | none => exact Inbox.messages_exec_arrivals r.inbox ms
  | some m => exact (Inbox.messages_exec_begun _ m).trans (Inbox.messages_exec_arrivals r.inbox ms)

/-- A text in two pieces with a `Close()` and a write in between, and half of a binary message. -/
theorem messages_arrive_whole_closing :
    (exec (WsRun.step 4) (WsRun.create 64 5000 true : WsRun UInt8)
        [.established, .sendText [7], .receive [1, 2] true false false, .close, .writeable 1,
          .receive [3] false true false, .receive [9] true false true]).log.filterMap
        WsEffect.message = [⟨[1, 2, 3], false⟩] :=
  messages_arrive_whole 4 _ [⟨[1, 2], [[3]], false⟩] (some ⟨[9], [], true⟩) _ rfl

end WsRun

end Net
end AudioFork
