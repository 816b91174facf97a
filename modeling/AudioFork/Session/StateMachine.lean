import AudioFork.Lib.Holdings
import AudioFork.Lib.Linearization
import AudioFork.Lib.Runs
import AudioFork.Session.State
import Mathlib.Data.List.Perm.Subperm

/-!
# StateMachine — `OnEvent` under any number of threads

`SessionStateMachine` keeps the session's state in one atomic.  `OnEvent` loads it, looks the
transition up, and returns at once where the state stays; otherwise it tries a weak compare-exchange,
which may fail for no reason and then loads the state again.  Threads take these steps in any order.

A call takes effect where it last looked at the atomic: at the load (or failed exchange) that found a
state the event does not leave, or at the exchange that succeeded.  `served` records the calls in the
order in which they took effect.
-/

namespace AudioFork
namespace Session

open Lib

/-- `SessionStateMachine::Result`. -/
structure OnEventResult where
  previous : SessionState
  current : SessionState
  action : SessionAction
  deriving DecidableEq, Repr

/-- `OnEvent` as one step. -/
def onEvent (state : SessionState) (event : SessionEvent) : SessionState × OnEventResult :=
  let transition := sessionTransitionFor state event
  (transition.next, ⟨state, transition.next, transition.action⟩)

/-- A call is its thread with its number there. -/
abbrev CallId := Nat × Nat

/-- The next step of a thread; `number` is the number of its call. -/
inductive Caller
  | idle
  | load (number : Nat) (event : SessionEvent)
  | exchange (number : Nat) (event : SessionEvent) (current : SessionState)
  | returning (number : Nat) (result : OnEventResult)
  deriving DecidableEq, Repr

structure MachineThread where
  calls : Nat
  caller : Caller
  deriving DecidableEq, Repr

structure Machine where
  state : SessionState
  threads : List MachineThread
  history : List (CallEvent CallId SessionEvent OnEventResult)
  served : List (Served CallId SessionEvent OnEventResult)
  /-- The transitions `state_` has made. -/
  changes : List OnEventResult
  deriving DecidableEq, Repr

/-- What a caller received. -/
def answer : CallEvent CallId SessionEvent OnEventResult → Option (CallId × OnEventResult)
  | .call _ _ => none
  | .ret id result => some (id, result)

def OnEventResult.changed (r : OnEventResult) : Bool := decide (r.previous ≠ r.current)

inductive MachineStep
  | call (thread : Nat) (event : SessionEvent)
  /-- The thread's next step; `spurious` lets an exchange fail. -/
  | next (thread : Nat) (spurious : Bool)
  deriving DecidableEq, Repr

namespace Machine

def create (threads : Nat) : Machine :=
  { state := .connecting
    threads := List.replicate threads ⟨0, .idle⟩
    history := []
    served := []
    changes := [] }

/-- The loop's head, with the atomic just read. -/
def look (m : Machine) (t calls number : Nat) (event : SessionEvent) : Machine :=
  let transition := sessionTransitionFor m.state event
  if transition.next = m.state then
    let result : OnEventResult := ⟨m.state, m.state, transition.action⟩
    { m with
      threads := m.threads.set t ⟨calls, .returning number result⟩
      served := m.served ++ [⟨(t, number), event, result⟩] }
  else
    { m with threads := m.threads.set t ⟨calls, .exchange number event m.state⟩ }

def step (m : Machine) : MachineStep → Machine
  | .call t event =>
      match m.threads[t]? with
      | some ⟨calls, .idle⟩ =>
          { m with
            threads := m.threads.set t ⟨calls + 1, .load calls event⟩
            history := m.history ++ [.call (t, calls) event] }
      | _ => m
  | .next t spurious =>
      match m.threads[t]? with
      | some ⟨calls, .load number event⟩ => m.look t calls number event
      | some ⟨calls, .exchange number event current⟩ =>
          if m.state = current ∧ spurious = false then
            let transition := sessionTransitionFor current event
            let result : OnEventResult := ⟨current, transition.next, transition.action⟩
            { m with
              state := transition.next
              threads := m.threads.set t ⟨calls, .returning number result⟩
              served := m.served ++ [⟨(t, number), event, result⟩]
              changes := m.changes ++ [result] }
          else
            m.look t calls number event
      | some ⟨calls, .returning number result⟩ =>
          { m with
            threads := m.threads.set t ⟨calls, .idle⟩
            history := m.history ++ [.ret (t, number) result] }
      | _ => m

def Quiescent (m : Machine) : Prop := ∀ thread ∈ m.threads, thread.caller = .idle

def answers (m : Machine) : List (CallId × OnEventResult) := m.history.filterMap answer

/-! ## Invariant -/

end Machine

/-- The call of a thread that has not taken effect yet. -/
def Caller.pending : Caller → Option (Nat × SessionEvent)
  | .load number event => some (number, event)
  | .exchange number event _ => some (number, event)
  | _ => none

/-- What thread `t` knows of its own calls. -/
structure ThreadOk (history : List (CallEvent CallId SessionEvent OnEventResult))
    (served : List (Served CallId SessionEvent OnEventResult)) (t : Nat) (thread : MachineThread) :
    Prop where
  fresh : ∀ number event, .call (t, number) event ∈ history → number < thread.calls
  pending : ∀ number event, thread.caller.pending = some (number, event) →
    .call (t, number) event ∈ history ∧ ∀ e ∈ served, e.id ≠ (t, number)
  leaves : ∀ number event current, thread.caller = .exchange number event current →
    (sessionTransitionFor current event).next ≠ current
  effect : ∀ number result, thread.caller = .returning number result →
    (∃ event, ⟨(t, number), event, result⟩ ∈ served) ∧ ∀ other, .ret (t, number) other ∉ history

theorem ThreadOk.untouched (t : Nat) : ThreadOk [] [] t ⟨0, .idle⟩ := by
  refine ⟨?_, ?_, ?_, ?_⟩
  · intro number event hmem
    cases hmem
  · intro number event hpending
    cases hpending
  · intro number event current hexchange
    cases hexchange
  · intro number result hreturning
    cases hreturning

section

variable {history : List (CallEvent CallId SessionEvent OnEventResult)}
  {served : List (Served CallId SessionEvent OnEventResult)} {u : Nat} {thread : MachineThread}

/-- Another thread is called or answered. -/
theorem ThreadOk.otherEvent (h : ThreadOk history served u thread)
    {e : CallEvent CallId SessionEvent OnEventResult} (hother : e.id.1 ≠ u) :
    ThreadOk (history ++ [e]) served u thread := by
  refine ⟨?_, ?_, h.leaves, ?_⟩
  · intro number event hmem
    rcases mem_concat_or hmem with hmem | rfl
    · exact h.fresh number event hmem
    · exact absurd rfl hother
  · intro number event hpending
    rcases h.pending number event hpending with ⟨hcalled, hfresh⟩
    exact ⟨List.mem_append_left _ hcalled, hfresh⟩
  · intro number result hreturning
    rcases h.effect number result hreturning with ⟨heffect, hfresh⟩
    refine ⟨heffect, ?_⟩
    intro other hmem
    rcases mem_concat_or hmem with hmem | rfl
    · exact hfresh other hmem
    · exact absurd rfl hother

/-- Another thread's call takes effect. -/
theorem ThreadOk.otherServed (h : ThreadOk history served u thread)
    {e : Served CallId SessionEvent OnEventResult} (hother : e.id.1 ≠ u) :
    ThreadOk history (served ++ [e]) u thread := by
  refine ⟨h.fresh, ?_, h.leaves, ?_⟩
  · intro number event hpending
    rcases h.pending number event hpending with ⟨hcalled, hfresh⟩
    refine ⟨hcalled, ?_⟩
    intro x hx
    rcases mem_concat_or hx with hx | rfl
    · exact hfresh x hx
    · intro heq
      exact hother (congrArg Prod.fst heq)
  · intro number result hreturning
    rcases h.effect number result hreturning with ⟨⟨event, hmem⟩, hfresh⟩
    exact ⟨⟨event, List.mem_append_left _ hmem⟩, hfresh⟩

end

namespace Machine

structure Sound (m : Machine) : Prop where
  linear : Linearizes onEvent .connecting m.history m.served
  state : m.state = finalState onEvent .connecting m.served
  changes : m.changes = (m.served.map Served.result).filter OnEventResult.changed
  answeredOnce : (m.answers.map Prod.fst).Nodup
  thread : ∀ t thread, m.threads[t]? = some thread → ThreadOk m.history m.served t thread
  -- a call is on its way until it takes effect, and again until it is answered
  onTheWay : ∀ id event, .call id event ∈ m.history →
    (∃ result, ⟨id, event, result⟩ ∈ m.served) ∨
      ∃ thread, m.threads[id.1]? = some thread ∧ thread.caller.pending = some (id.2, event)
  onTheWayBack : ∀ e ∈ m.served, .ret e.id e.result ∈ m.history ∨
    ∃ thread, m.threads[e.id.1]? = some thread ∧ thread.caller = .returning e.id.2 e.result

theorem mem_answers {m : Machine} {id : CallId} {result : OnEventResult} :
    (id, result) ∈ m.answers ↔ .ret id result ∈ m.history := by
  unfold answers
  rw [List.mem_filterMap]
  constructor
  · rintro ⟨e, he, heq⟩
    cases e with
    | call id' op => cases heq
    | ret id' other =>
        cases heq
        exact he
  · intro h
    exact ⟨_, h, rfl⟩

section

variable {m : Machine} {t calls number : Nat} {event : SessionEvent} {caller : Caller}

theorem Sound.call (h : m.Sound) (ht : m.threads[t]? = some ⟨calls, .idle⟩) :
    Sound
      { m with
        threads := m.threads.set t ⟨calls + 1, .load calls event⟩
        history := m.history ++ [.call (t, calls) event] } := by
  have hlt := (List.getElem?_eq_some_iff.mp ht).1
  have hmine := h.thread t _ ht
  have hfresh : ∀ e ∈ m.served, e.id ≠ (t, calls) := by
    intro e he heq
    have hcalled := h.linear.called e he
    rw [heq] at hcalled
    exact Nat.lt_irrefl _ (hmine.fresh calls e.op hcalled)
  refine ⟨h.linear.call event hfresh, h.state, h.changes, ?_, ?_, ?_, ?_⟩
  · unfold answers
    rw [List.filterMap_append]
    show ((m.answers ++ []).map Prod.fst).Nodup
    rw [List.append_nil]
    exact h.answeredOnce
  · refine forall_set ht ⟨?_, ?_, nofun, nofun⟩ ?_
    · intro k event' hmem
      rcases mem_concat_or hmem with hmem | heq
      · exact Nat.lt_succ_of_lt (hmine.fresh k event' hmem)
      · cases heq
        exact Nat.lt_succ_self _
    · intro k event' hpending
      cases hpending
      exact ⟨List.mem_append_right _ List.mem_cons_self, hfresh⟩
    · intro u thread hne hu
      exact (h.thread u thread hu).otherEvent (Ne.symm hne)
  · intro id event' hmem
    rcases mem_concat_or hmem with hmem | heq
    · refine (h.onTheWay id event' hmem).imp_right (found_set ht ?_)
      intro hidle
      cases hidle
    · cases heq
      exact .inr ⟨_, List.getElem?_set_self hlt, rfl⟩
  · intro e he
    refine (h.onTheWayBack e he).imp (List.mem_append_left _) (found_set ht ?_)
    intro hidle
    cases hidle

/-- A pending call takes effect. -/
theorem Sound.effect (h : m.Sound) (ht : m.threads[t]? = some ⟨calls, caller⟩)
    (hpending : caller.pending = some (number, event)) :
    Sound
      { m with
        state := (onEvent m.state event).1
        threads := m.threads.set t ⟨calls, .returning number (onEvent m.state event).2⟩
        served := m.served ++ [⟨(t, number), event, (onEvent m.state event).2⟩]
        changes := m.changes ++ [(onEvent m.state event).2].filter OnEventResult.changed } := by
  have hlt := (List.getElem?_eq_some_iff.mp ht).1
  have hmine := h.thread t _ ht
  rcases hmine.pending number event hpending with ⟨hcalled, hfresh⟩
  have hnoAnswer : ∀ other, .ret (t, number) other ∉ m.history := by
    intro other hmem
    rcases h.linear.answered _ _ hmem with ⟨op, hserved⟩
    exact hfresh _ hserved rfl
  refine ⟨?_, ?_, ?_, h.answeredOnce, ?_, ?_, ?_⟩
  · refine h.linear.effect hcalled hfresh ?_
    rw [← h.state]
  · rw [finalState_concat, ← h.state]
  · rw [List.map_append, List.filter_append, h.changes]
    rfl
  · refine forall_set ht ⟨hmine.fresh, nofun, nofun, ?_⟩ ?_
    · intro k result hreturning
      cases hreturning
      exact ⟨⟨event, List.mem_append_right _ List.mem_cons_self⟩, hnoAnswer⟩
    · intro u thread hne hu
      exact (h.thread u thread hu).otherServed (Ne.symm hne)
  · intro id event' hmem
    rcases h.onTheWay id event' hmem with ⟨result, hserved⟩ | hwaiting
    · exact .inl ⟨result, List.mem_append_left _ hserved⟩
    · rcases replaced_or_found ht hwaiting with ⟨heq, hwaiting⟩ | hfound
      · have hsame : (number, event) = (id.2, event') :=
          Option.some.inj (hpending.symm.trans hwaiting)
        cases hsame
        refine .inl ⟨(onEvent m.state event).2, List.mem_append_right _ ?_⟩
        rw [← heq]
        exact List.mem_cons_self
      · exact .inr hfound
  · intro e he
    rcases mem_concat_or he with he | rfl
    · refine (h.onTheWayBack e he).imp_right (found_set ht ?_)
      rintro rfl
      cases hpending
    · exact .inr ⟨_, List.getElem?_set_self hlt, rfl⟩

/-- A call that has to leave the state it read goes on to the exchange. -/
theorem Sound.wait (h : m.Sound) (ht : m.threads[t]? = some ⟨calls, caller⟩)
    (hpending : caller.pending = some (number, event))
    (hleaves : (sessionTransitionFor m.state event).next ≠ m.state) :
    Sound { m with threads := m.threads.set t ⟨calls, .exchange number event m.state⟩ } := by
  have hmine := h.thread t _ ht
  refine ⟨h.linear, h.state, h.changes, h.answeredOnce, ?_, ?_, ?_⟩
  · refine forall_set ht ⟨hmine.fresh, ?_, ?_, nofun⟩ (fun u thread _ hu => h.thread u thread hu)
    · intro k event' hsame
      exact hmine.pending k event' (hpending.trans hsame)
    · intro k event' current hsame
      cases hsame
      exact hleaves
  · intro id event' hmem
    refine (h.onTheWay id event' hmem).imp_right (found_set ht ?_)
    exact fun hwaiting => hpending.symm.trans hwaiting
  · intro e he
    refine (h.onTheWayBack e he).imp_right (found_set ht ?_)
    rintro rfl
    cases hpending

theorem Sound.ret (h : m.Sound) {result : OnEventResult}
    (ht : m.threads[t]? = some ⟨calls, .returning number result⟩) :
    Sound
      { m with
        threads := m.threads.set t ⟨calls, .idle⟩
        history := m.history ++ [.ret (t, number) result] } := by
  have hmine := h.thread t _ ht
  rcases hmine.effect number result rfl with ⟨⟨event, hserved⟩, hnoAnswer⟩
  refine ⟨h.linear.ret hserved, h.state, h.changes, ?_, ?_, ?_, ?_⟩
  · have hanswers : (m.history ++ [CallEvent.ret (t, number) result]).filterMap answer =
        m.answers ++ [((t, number), result)] := List.filterMap_append
    unfold answers
    rw [hanswers, List.map_append, List.nodup_append]
    refine ⟨h.answeredOnce, List.nodup_singleton _, ?_⟩
    rintro id hid id' hid' rfl
    rcases List.mem_map.mp hid with ⟨⟨id', other⟩, hmem, rfl⟩
    have hmine' : id' = (t, number) := List.mem_singleton.mp hid'
    rw [mem_answers, hmine'] at hmem
    exact hnoAnswer other hmem
  · refine forall_set ht ⟨?_, nofun, nofun, nofun⟩ ?_
    · intro k event' hmem
      rcases mem_concat_or hmem with hmem | heq
      · exact hmine.fresh k event' hmem
      · cases heq
    · intro u thread hne hu
      exact (h.thread u thread hu).otherEvent (Ne.symm hne)
  · intro id event' hmem
    rcases mem_concat_or hmem with hmem | heq
    · refine (h.onTheWay id event' hmem).imp_right (found_set ht ?_)
      intro hreturning
      cases hreturning
    · cases heq
  · intro e he
    rcases h.onTheWayBack e he with hret | hreturning
    · exact .inl (List.mem_append_left _ hret)
    · rcases replaced_or_found ht hreturning with ⟨heq, hreturning⟩ | hfound
      · have hsame : Caller.returning number result = .returning e.id.2 e.result := hreturning
        cases hsame
        refine .inl (List.mem_append_right _ ?_)
        rw [← heq]
        exact List.mem_cons_self
      · exact .inr hfound

end

theorem Sound.look {m : Machine} (h : m.Sound) {t calls number : Nat} {event : SessionEvent}
    {caller : Caller} (ht : m.threads[t]? = some ⟨calls, caller⟩)
    (hpending : caller.pending = some (number, event)) : (m.look t calls number event).Sound := by
  unfold Machine.look
  simp only
  split
  · rename_i hstays
    have hresult : onEvent m.state event =
        (m.state, ⟨m.state, m.state, (sessionTransitionFor m.state event).action⟩) := by
      unfold onEvent
      simp only [hstays]
    have heffect := h.effect ht hpending
    rw [hresult] at heffect
    simpa [OnEventResult.changed] using heffect
  · rename_i hleaves
    exact h.wait ht hpending hleaves

theorem sound_step {m : Machine} (h : m.Sound) (s : MachineStep) : (m.step s).Sound := by
  cases s with
  | call t event =>
      unfold step
      simp only
      split
      · rename_i ht
        exact h.call ht
      · exact h
  | next t spurious =>
      unfold step
      simp only
      split
      · rename_i ht
        exact h.look ht rfl
      · rename_i calls number event current ht
        split
        · rename_i hswap
          rcases hswap with ⟨rfl, -⟩
          have hleaves := (h.thread t _ ht).leaves number event m.state rfl
          have heffect := h.effect ht rfl
          simpa [onEvent, OnEventResult.changed, Ne.symm hleaves] using heffect
        · exact h.look ht rfl
      · rename_i ht
        exact h.ret ht
      · exact h

theorem sound_create (threads : Nat) : (create threads).Sound := by
  refine ⟨.nothing, rfl, rfl, List.nodup_nil, ?_, ?_, ?_⟩
  · intro t thread ht
    unfold create at ht
    simp only [List.getElem?_replicate] at ht
    split at ht
    · cases ht
      exact .untouched t
    · cases ht
  · intro id event hmem
    cases hmem
  · intro e he
    cases he

/-! ## What callers receive -/

/-- A call that has taken effect, as its caller sees it. -/
def received (e : Served CallId SessionEvent OnEventResult) : CallId × OnEventResult :=
  (e.id, e.result)

theorem Sound.receivedOnce {m : Machine} (h : m.Sound) : (m.served.map received).Nodup := by
  refine List.Nodup.of_map Prod.fst ?_
  rw [List.map_map]
  exact h.linear.once

theorem Sound.answered {m : Machine} (h : m.Sound) : m.answers.Subperm (m.served.map received) := by
  refine List.subperm_of_subset (List.Nodup.of_map _ h.answeredOnce) ?_
  rintro ⟨id, result⟩ hmem
  rcases h.linear.answered id result (mem_answers.mp hmem) with ⟨op, hserved⟩
  exact List.mem_map.mpr ⟨_, hserved, rfl⟩

/-- When no call is under way, all that took effect have been answered. -/
theorem Sound.quiescent {m : Machine} (h : m.Sound) (hquiet : m.Quiescent) :
    m.answers.Perm (m.served.map received) := by
  refine (List.perm_ext_iff_of_nodup (List.Nodup.of_map _ h.answeredOnce) h.receivedOnce).mpr ?_
  rintro ⟨id, result⟩
  refine ⟨fun hmem => h.answered.subset hmem, ?_⟩
  intro hmem
  rcases List.mem_map.mp hmem with ⟨e, he, heq⟩
  cases heq
  rcases h.onTheWayBack e he with hret | ⟨thread, hthread, hreturning⟩
  · exact mem_answers.mpr hret
  · rw [hquiet thread (List.mem_of_getElem? hthread)] at hreturning
    cases hreturning

end Machine

/-! ## Sequential orders -/

def OnEventResult.finalizes (r : OnEventResult) : Bool := decide (r.action = .finalize)

theorem finalState_dead (order : List (Served CallId SessionEvent OnEventResult)) :
    finalState onEvent .dead order = .dead := by
  induction order with
  | nil => rfl
  | cons e order ih =>
      have hdead : (onEvent .dead e.op).1 = .dead := by cases e.op <;> rfl
      show finalState onEvent (onEvent .dead e.op).1 order = .dead
      rw [hdead, ih]

/-- `finalize` is received once if the session ends, and never otherwise. -/
theorem legal_finalizes {order : List (Served CallId SessionEvent OnEventResult)}
    {state : SessionState} (h : Legal onEvent state order) :
    ((order.map Served.result).filter OnEventResult.finalizes).length =
      if state ≠ .dead ∧ finalState onEvent state order = .dead then 1 else 0 := by
  induction order generalizing state with
  | nil =>
      rw [if_neg]
      · rfl
      · rintro ⟨halive, hdead⟩
        exact halive hdead
  | cons e order ih =>
      have hrest := ih h.2
      have hresult : e.result.finalizes =
          decide (state ≠ .dead ∧ (onEvent state e.op).1 = .dead) := by
        unfold OnEventResult.finalizes
        rw [h.1, decide_eq_decide]
        exact finalize_iff_enters_dead state e.op
      have hfinal : finalState onEvent state (e :: order) =
          finalState onEvent (onEvent state e.op).1 order := rfl
      rw [hfinal, List.map_cons, List.filter_cons, hresult]
      by_cases hend : (onEvent state e.op).1 = .dead
      · rw [hend] at hrest ⊢
        rw [finalState_dead] at hrest ⊢
        simp only [ne_eq, not_true_eq_false, false_and, if_false] at hrest
        by_cases hdead : state = .dead
        · simp [hdead, List.length_eq_zero_iff.mp hrest]
        · simp [hdead, List.length_eq_zero_iff.mp hrest]
      · have halive : state ≠ .dead := by
          rintro rfl
          exact hend (by cases e.op <;> rfl)
        simp only [hend, halive, ne_eq, not_false_eq_true, true_and, and_false, decide_false] at hrest ⊢
        exact hrest

theorem legal_rank {order : List (Served CallId SessionEvent OnEventResult)} {state : SessionState}
    (h : Legal onEvent state order) :
    ∀ e ∈ order, e.result.previous.teardownRank ≤ e.result.current.teardownRank := by
  induction order generalizing state with
  | nil =>
      intro e he
      cases he
  | cons first order ih =>
      intro e he
      rcases List.mem_cons.mp he with rfl | he
      · rw [h.1]
        show state.teardownRank ≤ (sessionTransitionFor state e.op).next.teardownRank
        cases state <;> cases e.op <;> decide
      · exact ih h.2 e he

namespace Machine

/-! ## Every interleaving -/

/-- The callers that received `finalize`. -/
def finalizers (m : Machine) : List (CallId × OnEventResult) :=
  m.answers.filter fun a => a.2.finalizes

theorem Sound.served_finalizes {m : Machine} (h : m.Sound) :
    ((m.served.map received).filter fun a => a.2.finalizes).length =
      if m.state = .dead then 1 else 0 := by
  have hlegal := legal_finalizes h.linear.legal
  rw [← h.state] at hlegal
  have hmap : (m.served.map Served.result) = (m.served.map received).map Prod.snd := by
    rw [List.map_map]
    rfl
  rw [hmap, List.filter_map, List.length_map] at hlegal
  refine hlegal.trans ?_
  simp

/-- Whatever the threads do: the calls have an order in which `OnEvent`, run as one step each from
`connecting`, gives every caller its answer, and that order respects real time.  So `finalize` is
received at most once, and, with no call under way, once exactly if the session is dead; each
transition of the state is received by one caller; and no caller takes teardown back. -/
theorem on_event_linearizable {threads : Nat} {m : Machine}
    (hrun : Run step (fun _ _ => True) (create threads) m) :
    (∃ order, Linearizes onEvent .connecting m.history order ∧
      (m.Quiescent → ∀ id event, .call id event ∈ m.history →
        ∃ result, ⟨id, event, result⟩ ∈ order ∧ .ret id result ∈ m.history)) ∧
      m.finalizers.length ≤ 1 ∧
      (m.Quiescent → (m.finalizers.length = 1 ↔ m.state = .dead)) ∧
      (m.Quiescent → ((m.answers.map Prod.snd).filter OnEventResult.changed).Perm m.changes) ∧
      ∀ a ∈ m.answers, a.2.previous.teardownRank ≤ a.2.current.teardownRank := by
  have h : m.Sound := hrun.invariant (sound_create threads) fun _ s hm _ => sound_step hm s
  have hfinalizes := h.served_finalizes
  refine ⟨⟨m.served, h.linear, ?_⟩, ?_, ?_, ?_, ?_⟩
  · intro hquiet id event hcall
    rcases h.onTheWay id event hcall with ⟨result, hserved⟩ | ⟨thread, hthread, hpending⟩
    · refine ⟨result, hserved, mem_answers.mp ?_⟩
      exact (h.quiescent hquiet).mem_iff.mpr (List.mem_map.mpr ⟨_, hserved, rfl⟩)
    · rw [hquiet thread (List.mem_of_getElem? hthread)] at hpending
      cases hpending
  · refine Nat.le_trans (h.answered.filter _).length_le ?_
    rw [hfinalizes]
    split
    · exact Nat.le_refl _
    · exact Nat.zero_le _
  · intro hquiet
    unfold finalizers
    rw [((h.quiescent hquiet).filter _).length_eq, hfinalizes]
    simp
  · intro hquiet
    have hperm := ((h.quiescent hquiet).map Prod.snd).filter OnEventResult.changed
    rw [List.map_map] at hperm
    rw [h.changes]
    exact hperm
  · rintro ⟨id, result⟩ hmem
    rcases h.linear.answered id result (mem_answers.mp hmem) with ⟨op, hserved⟩
    exact legal_rank h.linear.legal _ hserved

/-- Two threads race to tear a connecting session down; the loser's exchange fails and finds the
work done.  Then the close completes. -/
def racing : List MachineStep :=
  [.call 0 .teardown, .call 1 .teardown, .next 0 false, .next 1 false, .next 1 true, .next 0 false,
    .next 1 false, .next 0 false, .next 1 false, .call 1 .closeComplete, .next 1 false, .next 1 false,
    .next 1 false]

theorem on_event_linearizable_racing :
    (exec step (create 2) racing).state = .dead ∧
      (exec step (create 2) racing).finalizers.length = 1 ∧
      ((exec step (create 2) racing).answers.map Prod.snd).filter OnEventResult.changed =
        [⟨.connecting, .closing, .beginClose⟩, ⟨.closing, .dead, .finalize⟩] :=
  have hrun : Run step (fun _ _ => True) (create 2) (exec step (create 2) racing) :=
    .of_exec (by decide +kernel)
  have hquiet : (exec step (create 2) racing).Quiescent := by
    unfold Quiescent
    decide +kernel
  have hdead : (exec step (create 2) racing).state = .dead := by decide +kernel
  ⟨hdead, ((on_event_linearizable hrun).2.2.1 hquiet).mpr hdead, by decide +kernel⟩

end Machine

end Session
end AudioFork
