import AudioFork.Lib.Holdings
import AudioFork.Session.Refinement

/-!
# Shard — the sessions of a loop thread and the adapters of their connections

A shard pins sessions to a loop thread.  `Adopt` counts a session and posts its start; `Tick` pumps
every session it holds and drops those that are dead.  `LwsNetPort` makes an adapter for every
connection it returns and keeps it in `adapters_`: lws calls the adapter, which calls the session.

Nothing ever leaves `adapters_` before the port goes.  The module proves what follows from that:

* the adapters kept are exactly those of all connections ever returned (`Housed`), so that they are
  bounded by live work only as long as no session retires with a closed connection behind it;
* when a shard is destroyed, its members go in reverse order of declaration: the port with its adapters
  before the loop, whose destructor closes what is still open.
-/

namespace AudioFork

/-! ## The connections of a session -/

namespace Session

open Lib

variable {β : Type} {S : ℕ+}

namespace Lifecycle

variable {l : Lifecycle}

/-- Which connections have delivered `OnClosed`. -/
def closedFlags (l : Lifecycle) : List Bool := l.conns.map Conn.closed

/-- A step opens a connection, or marks the one that closes, or leaves them all as they are. -/
theorem closedFlags_step (a : Label) :
    ((l.step a).closedFlags = l.closedFlags ∨ (l.step a).closedFlags = l.closedFlags ++ [false]) ∨
      ∃ c, a = .closed c ∧ (l.step a).closedFlags = l.closedFlags.modify c fun _ => true := by
  rcases map_conns_step (f := Conn.closed) (fun _ => rfl) (fun _ => rfl) a with
    hsame | ⟨_, _, -, hdialed⟩ | ⟨c, hc, hclosed⟩
  · exact Or.inl (Or.inl hsame)
  · exact Or.inl (Or.inr hdialed)
  · refine Or.inr ⟨c, hc, ?_⟩
    unfold closedFlags
    rw [hclosed]
    refine map_modify ?_ l.conns c
    exact fun _ => rfl

end Lifecycle

/-- Which of the session's connections have delivered `OnClosed`. -/
def World.closedFlags (w : World β S) : List Bool := w.lifecycle.closedFlags

/-- A step of a session opens at most one connection, and closes one only by `OnClosed`. -/
theorem closedFlags_step (env : Env β) (w : World β S) (s : Step β) :
    ((step env w s).closedFlags = w.closedFlags ∨
        (step env w s).closedFlags = w.closedFlags ++ [false]) ∨
      ∃ c connectFailed, s = .onClosed c connectFailed ∧
        (step env w s).closedFlags = w.closedFlags.modify c fun _ => true := by
  unfold World.closedFlags
  rw [lifecycle_step]
  rcases Lifecycle.closedFlags_step (l := w.lifecycle) (label env w s) with hsame | ⟨c, hc, hflags⟩
  · exact Or.inl hsame
  · right
    cases s with
    | onClosed c connectFailed =>
        cases hc
        exact ⟨c, connectFailed, rfl, hflags⟩
    | runPosted i =>
        simp only [label] at hc
        split at hc <;> cases hc
    | onText c' text =>
        simp only [label] at hc
        split at hc <;> cases hc
    | _ => cases hc

theorem closedFlags_length_le (env : Env β) (w : World β S) (s : Step β) :
    w.closedFlags.length ≤ (step env w s).closedFlags.length := by
  rcases closedFlags_step env w s with (hsame | hmore) | ⟨c, _, -, hflags⟩
  · rw [hsame]
  · rw [hmore, List.length_append]
    exact Nat.le_add_right _ _
  · rw [hflags, List.length_modify]

end Session

namespace Net

open Lib Session

variable {β : Type} {S : ℕ+}

/-! ## State -/

/-- The adapter of a connection; lws calls it until the connection has closed. -/
structure Adapter where
  session : Nat
  conn : Nat
  deriving DecidableEq, Repr

structure Shard (β : Type) (S : ℕ+) where
  load : Nat
  /-- The adoptions posted to the loop. -/
  posted : List Nat
  /-- `sessions_`. -/
  sessions : List Nat
  /-- Every session ever given to the shard. -/
  worlds : List (World β S)
  /-- `adapters_` of the port. -/
  adapters : List Adapter

namespace Shard

def initial : Shard β S :=
  { load := 0
    posted := []
    sessions := []
    worlds := []
    adapters := [] }

/-- The adapters made while session `id` went from `w` to `w'`. -/
def opened (id : Nat) (w w' : World β S) : List Adapter :=
  (List.range' w.port.conns.length (w'.port.conns.length - w.port.conns.length)).map (Adapter.mk id)

/-- An entry point of session `id`; `LwsNetPort::Connect` keeps an adapter for each connection it
returns. -/
def call (env : Nat → Env β) (id : Nat) (s : Session.Step β) (shard : Shard β S) : Shard β S :=
  match shard.worlds[id]? with
  | none => shard
  | some w =>
      { shard with
        worlds := shard.worlds.set id (step (env id) w s)
        adapters := shard.adapters ++ opened id w (step (env id) w s) }

/-- `Adopt`, on the thread of the caller. -/
def adopt (w : World β S) (shard : Shard β S) : Shard β S :=
  { shard with
    load := shard.load + 1
    posted := shard.posted ++ [shard.worlds.length]
    worlds := shard.worlds ++ [w] }

/-- The loop runs the oldest task that `Adopt` posted. -/
def runAdoption (env : Nat → Env β) (shard : Shard β S) : Shard β S :=
  match shard.posted with
  | [] => shard
  | id :: rest =>
      -- `sessions_` belongs to the loop, so it is the posted task that adds to it
      call env id .start { shard with posted := rest, sessions := shard.sessions ++ [id] }

def isDead (shard : Shard β S) (id : Nat) : Bool :=
  shard.worlds[id]?.any fun w => w.session.state == .dead

def pumpAll (env : Nat → Env β) (shard : Shard β S) : Shard β S :=
  shard.sessions.foldl (fun shard id => shard.call env id .pump) shard

def tick (env : Nat → Env β) (shard : Shard β S) : Shard β S :=
  let shard := shard.pumpAll env
  -- `stable_partition` leaves the sessions that go on in their order
  { shard with
    load := shard.load - (shard.sessions.filter shard.isDead).length
    sessions := shard.sessions.filter fun id => !shard.isDead id }

/-- The shard no longer holds the session, nor is it to start it. -/
def Retired (shard : Shard β S) (id : Nat) : Prop := id ∉ shard.posted ∧ id ∉ shard.sessions

instance (shard : Shard β S) (id : Nat) : Decidable (shard.Retired id) :=
  inferInstanceAs (Decidable (_ ∧ _))

/-- The connection of the adapter has not delivered `OnClosed`. -/
def isOpen (shard : Shard β S) (a : Adapter) : Bool :=
  shard.worlds[a.session]?.any fun w => outstanding w.port.conns a.conn

end Shard

inductive ShardStep (β : Type)
  /-- `ShardPool::StartFork` on this shard. -/
  | startFork (params : ForkParams) (tuning : Tuning) (supply : Buffers.SlabSupply)
  | runAdoption
  | call (id : Nat) (s : Session.Step β)
  | tick

def shardStep (env : Nat → Env β) (shard : Shard β S) : ShardStep β → Shard β S
  | .startFork params tuning supply =>
      match World.create params tuning false supply with
      | none => shard
      | some w => shard.adopt w
  | .runAdoption => shard.runAdoption env
  | .call id s => shard.call env id s
  | .tick => shard.tick env

/-- The promises of the port to each session, which the shard alone starts and pumps. -/
def shardContract (shard : Shard β S) : ShardStep β → Bool
  | .call _ .start => false
  | .call _ .pump => false
  | .call id s => shard.worlds[id]?.any fun w => contract w s
  | _ => true

namespace Sample

def env : Nat → Env UInt8 := fun _ => Session.Sample.env

def idle : Shard UInt8 Session.Sample.slabBytes := .initial

/-- A session is given to the shard, started, and connected. -/
def up : List (ShardStep UInt8) :=
  [.startFork Session.Sample.params Session.Sample.tuning Session.Sample.supply, .runAdoption,
    .call 0 (.onConnected 0)]

end Sample

/-! ## Every connection keeps its adapter -/

namespace Shard

variable {env : Nat → Env β} {shard : Shard β S}

/-- The number of connections session `id` was given. -/
def connections (shard : Shard β S) (id : Nat) : Nat :=
  match shard.worlds[id]? with
  | none => 0
  | some w => w.port.conns.length

/-- The adapters of a session, one for each of its connections in order. -/
def Housed (shard : Shard β S) : Prop :=
  ∀ id, shard.adapters.filter (fun a => a.session == id) =
    (List.range (shard.connections id)).map (Adapter.mk id)

theorem length_closedFlags (w : World β S) : w.closedFlags.length = w.port.conns.length :=
  List.length_map _

theorem range_append_range' {m n : Nat} (h : m ≤ n) :
    List.range m ++ List.range' m (n - m) = List.range n := by
  have happend := List.range'_append_1 (s := 0) (m := m) (n := n - m)
  rw [Nat.zero_add, Nat.add_sub_cancel' h] at happend
  rw [List.range_eq_range', List.range_eq_range', happend]

theorem filter_opened (id other : Nat) (w w' : World β S) :
    (opened id w w').filter (fun a => a.session == other) =
      if id = other then opened id w w' else [] := by
  unfold opened
  rw [List.filter_map]
  split
  · rename_i heq
    rw [List.filter_eq_self.mpr]
    simp [heq]
  · rename_i hne
    rw [List.filter_eq_nil_iff.mpr, List.map_nil]
    simp [hne]

theorem Housed.call (h : shard.Housed) (id : Nat) (s : Session.Step β) :
    (shard.call env id s).Housed := by
  unfold Shard.call
  split
  · exact h
  · rename_i w hw
    intro other
    have hlt : id < shard.worlds.length := (List.getElem?_eq_some_iff.mp hw).1
    simp only [List.filter_append, filter_opened]
    rw [h other]
    by_cases heq : id = other
    · subst heq
      have hbefore : shard.connections id = w.port.conns.length := by
        simp only [connections, hw]
      have hgrows : w.port.conns.length ≤ (step (env id) w s).port.conns.length := by
        have hle := closedFlags_length_le (env id) w s
        rwa [length_closedFlags, length_closedFlags] at hle
      -- the adapters made by the call number on from those that were there
      rw [if_pos rfl, hbefore]
      unfold opened connections
      rw [List.getElem?_set_self hlt, ← List.map_append, range_append_range' hgrows]
    · rw [if_neg heq, List.append_nil]
      unfold connections
      rw [List.getElem?_set_ne heq]

theorem connections_append (w : World β S) (load : Nat) (posted : List Nat) (id : Nat)
    (hfresh : w.port.conns = []) :
    connections { shard with load := load, posted := posted, worlds := shard.worlds ++ [w] } id =
      shard.connections id := by
  unfold connections
  by_cases hlt : id < shard.worlds.length
  · simp only [List.getElem?_append_left hlt]
  · have hnone : shard.worlds[id]? = none := List.getElem?_eq_none (Nat.le_of_not_lt hlt)
    simp only [hnone, List.getElem?_append_right (Nat.le_of_not_lt hlt)]
    split
    · rfl
    · rename_i w' hw'
      rw [List.mem_singleton.mp (List.mem_of_getElem? hw'), hfresh]
      rfl

theorem Housed.pumpAll (h : shard.Housed) : (shard.pumpAll env).Housed := by
  unfold Shard.pumpAll
  generalize shard.sessions = ids
  induction ids generalizing shard with
  | nil => exact h
  | cons id ids ih => exact ih (h.call id .pump)

theorem housed_step (h : shard.Housed) (st : ShardStep β) : (shardStep env shard st).Housed := by
  cases st with
  | startFork params tuning supply =>
      simp only [shardStep]
      split
      · exact h
      · rename_i w hcreate
        have hfresh : w.port.conns = [] := congrArg Lifecycle.conns (lifecycle_create hcreate)
        intro id
        unfold adopt
        rw [connections_append w _ _ id hfresh]
        exact h id
  | runAdoption =>
      show (shard.runAdoption env).Housed
      unfold Shard.runAdoption
      split
      · exact h
      · rename_i id rest _
        have hmoved : Housed { shard with posted := rest, sessions := shard.sessions ++ [id] } := h
        exact hmoved.call id .start
  | call id s => exact h.call id s
  | tick => exact h.pumpAll

theorem housed_initial : (initial : Shard β S).Housed := fun _ => rfl

/-- An adapter is kept for every connection, and for nothing else. -/
theorem Housed.mem_iff (h : shard.Housed) (a : Adapter) :
    a ∈ shard.adapters ↔ a.conn < shard.connections a.session := by
  have hmem : a ∈ shard.adapters ↔
      a ∈ shard.adapters.filter fun b => b.session == a.session := by
    simp [List.mem_filter]
  rw [hmem, h a.session, List.mem_map]
  constructor
  · rintro ⟨c, hc, heq⟩
    have hconn : c = a.conn := congrArg Adapter.conn heq
    rw [← hconn]
    exact List.mem_range.mp hc
  · intro hlt
    exact ⟨a.conn, List.mem_range.mpr hlt, rfl⟩

/-! ## Retiring -/

/-- No session that the shard has retired has a closed connection. -/
def Clean (shard : Shard β S) : Prop :=
  ∀ id w, shard.worlds[id]? = some w → shard.Retired id → true ∉ w.closedFlags

/-- What pumping leaves of each session: the same connections. -/
structure Pumped (shard shard' : Shard β S) : Prop where
  posted : shard'.posted = shard.posted
  sessions : shard'.sessions = shard.sessions
  worlds : ∀ (id : Nat) (w' : World β S), shard'.worlds[id]? = some w' →
    ∃ w, shard.worlds[id]? = some w ∧ w'.closedFlags = w.closedFlags

theorem Pumped.refl (shard : Shard β S) : Pumped shard shard :=
  ⟨rfl, rfl, fun _ w hw => ⟨w, hw, rfl⟩⟩

theorem Pumped.trans {a b c : Shard β S} (h : Pumped a b) (h' : Pumped b c) : Pumped a c where
  posted := h'.posted.trans h.posted
  sessions := h'.sessions.trans h.sessions
  worlds := by
    intro id w'' hw''
    rcases h'.worlds id w'' hw'' with ⟨w', hw', hflags'⟩
    rcases h.worlds id w' hw' with ⟨w, hw, hflags⟩
    exact ⟨w, hw, hflags'.trans hflags⟩

theorem pumped_call (env : Nat → Env β) (id : Nat) (shard : Shard β S) :
    Pumped shard (shard.call env id .pump) := by
  unfold Shard.call
  split
  · exact .refl shard
  · rename_i w hw
    have hlifecycle : (step (env id) w .pump).lifecycle =
        w.lifecycle.tick (w.drainOver (env id)) := World.lifecycle_pump (env id) w
    refine ⟨rfl, rfl, ?_⟩
    refine forall_set (P := fun j w' => ∃ w, shard.worlds[j]? = some w ∧
      w'.closedFlags = w.closedFlags) hw ⟨w, hw, ?_⟩ fun j x _ hx => ⟨x, hx, rfl⟩
    unfold World.closedFlags
    rw [hlifecycle]
    exact Lifecycle.map_conns_tick (fun _ => rfl) _

theorem pumped_pumpAll (env : Nat → Env β) (shard : Shard β S) :
    Pumped shard (shard.pumpAll env) := by
  unfold Shard.pumpAll
  generalize shard.sessions = ids
  induction ids generalizing shard with
  | nil => exact .refl shard
  | cons id ids ih => exact (pumped_call env id shard).trans (ih (shard.call env id .pump))

/-- A step that leaves an adapter behind: a tick that retires a session with a closed connection, or
the close of a connection whose session is retired. -/
def leaks (env : Nat → Env β) (shard : Shard β S) : ShardStep β → Bool
  | .tick => shard.sessions.any fun id =>
      (shard.pumpAll env).isDead id && shard.worlds[id]?.any fun w => w.port.conns.any Conn.closed
  | .call id (.onClosed _ _) => decide (shard.Retired id)
  | _ => false

theorem Clean.call (h : shard.Clean) {id : Nat} {s : Session.Step β}
    (hleaks : leaks env shard (.call id s) = false) : (shard.call env id s).Clean := by
  unfold Shard.call
  split
  · exact h
  · rename_i w hw
    refine forall_set (P := fun j w' => shard.Retired j → true ∉ w'.closedFlags) hw ?_
      fun j x _ hx => h j x hx
    intro hretired
    have hbefore : true ∉ w.closedFlags := h id w hw hretired
    -- only `OnClosed` closes a connection, and a retired session gets none here
    rcases closedFlags_step (env id) w s with (hsame | hmore) | ⟨c, connectFailed, rfl, -⟩
    · rw [hsame]
      exact hbefore
    · rw [hmore]
      simpa using hbefore
    · exact absurd hretired (of_decide_eq_false hleaks)

theorem not_mem_closedFlags {w : World β S} (h : w.port.conns.any Conn.closed = false) :
    true ∉ w.closedFlags := by
  intro hmem
  rcases List.mem_map.mp hmem with ⟨k, hk, hclosed⟩
  exact List.any_eq_false.mp h k hk hclosed

theorem Clean.tick (h : shard.Clean) (hleaks : leaks env shard .tick = false) :
    (shard.tick env).Clean := by
  have hpumped := pumped_pumpAll env shard
  rintro id w' hw' ⟨hposted, hsessions⟩
  rcases hpumped.worlds id w' hw' with ⟨w, hw, hflags⟩
  rw [hflags]
  by_cases hheld : id ∈ shard.sessions
  · -- the tick drops the session, so it is dead now
    have hdead : (shard.pumpAll env).isDead id = true := by
      by_contra halive
      refine hsessions (List.mem_filter.mpr ⟨hpumped.sessions ▸ hheld, ?_⟩)
      simpa using halive
    refine not_mem_closedFlags ?_
    simpa [hw, hdead] using List.any_eq_false.mp hleaks id hheld
  · exact h id w hw ⟨hpumped.posted ▸ hposted, hheld⟩

theorem clean_step (h : shard.Clean) {st : ShardStep β} (hleaks : leaks env shard st = false) :
    (shardStep env shard st).Clean := by
  cases st with
  | startFork params tuning supply =>
      simp only [shardStep]
      split
      · exact h
      · rename_i w hcreate
        rintro id w' hw' ⟨hposted, hsessions⟩
        -- the new session is posted, so it is an old one that is retired
        have hne : id ≠ shard.worlds.length := by
          rintro rfl
          exact hposted (List.mem_append_right _ (List.mem_singleton_self _))
        have hlt : id < shard.worlds.length := by
          have hbound := (List.getElem?_eq_some_iff.mp hw').1
          simp only [adopt, List.length_append, List.length_singleton] at hbound
          omega
        have hold : shard.worlds[id]? = some w' := (List.getElem?_append_left hlt).symm.trans hw'
        refine h id w' hold ⟨?_, hsessions⟩
        exact fun hmem => hposted (List.mem_append_left _ hmem)
  | runAdoption =>
      show (shard.runAdoption env).Clean
      unfold Shard.runAdoption
      split
      · exact h
      · rename_i id rest hposted
        -- the session goes from the posted ones to the held ones, and is retired in neither place
        have hmoved : Clean { shard with posted := rest, sessions := shard.sessions ++ [id] } := by
          rintro other w hw ⟨hrest, hsessions⟩
          refine h other w hw ⟨?_, fun hmem => hsessions (List.mem_append_left _ hmem)⟩
          rw [hposted]
          intro hmem
          rcases List.mem_cons.mp hmem with rfl | hmem
          · exact hsessions (List.mem_append_right _ (List.mem_singleton_self _))
          · exact hrest hmem
        exact hmoved.call rfl
  | call id s => exact h.call hleaks
  | tick => exact h.tick hleaks

/-! ## Retention -/

theorem outstanding_eq (w : World β S) (c : Nat) :
    outstanding w.port.conns c = (w.closedFlags[c]?.any fun closed => !closed) := by
  unfold outstanding World.closedFlags Lifecycle.closedFlags
  rw [List.getElem?_map, Option.any_map]
  rfl

/-- The connections of a session without a closed one are all open. -/
theorem open_of_clean {w : World β S} (h : true ∉ w.closedFlags) {c : Nat}
    (hc : c < w.port.conns.length) : outstanding w.port.conns c = true := by
  rw [← length_closedFlags] at hc
  rw [outstanding_eq, List.getElem?_eq_getElem hc]
  cases hflag : w.closedFlags[c] with
  | false => rfl
  | true =>
      rw [← hflag] at h
      exact absurd (List.getElem_mem hc) h

theorem connections_eq {id : Nat} {w : World β S} (hw : shard.worlds[id]? = some w) :
    shard.connections id = w.port.conns.length := by
  simp only [connections, hw]

theorem Housed.world_of_mem (h : shard.Housed) {a : Adapter} (ha : a ∈ shard.adapters) :
    ∃ w, shard.worlds[a.session]? = some w ∧ a.conn < w.port.conns.length := by
  have hlt := (h.mem_iff a).mp ha
  cases hw : shard.worlds[a.session]? with
  | none =>
      simp only [connections, hw] at hlt
      exact absurd hlt (Nat.not_lt_zero _)
  | some w =>
      rw [connections_eq hw] at hlt
      exact ⟨w, rfl, hlt⟩

theorem isOpen_of_retired (hhoused : shard.Housed) (hclean : shard.Clean) {a : Adapter}
    (ha : a ∈ shard.adapters) (hretired : shard.Retired a.session) : shard.isOpen a = true := by
  rcases hhoused.world_of_mem ha with ⟨w, hw, hlt⟩
  unfold isOpen
  rw [hw]
  exact open_of_clean (hclean a.session w hw hretired) hlt

theorem length_adapters_of_retired (hhoused : shard.Housed) (hclean : shard.Clean) {id : Nat}
    {w : World β S} (hw : shard.worlds[id]? = some w) (hretired : shard.Retired id) :
    (shard.adapters.filter fun a => a.session == id).length =
      w.port.conns.countP fun k => !k.closed := by
  have hopen : ∀ k ∈ w.port.conns, (!k.closed) = true := by
    intro k hk
    have hflag : k.closed ≠ true := fun hclosed =>
      hclean id w hw hretired (List.mem_map.mpr ⟨k, hk, hclosed⟩)
    simpa using hflag
  rw [List.countP_eq_length.mpr hopen, hhoused id, List.length_map, List.length_range,
    connections_eq hw]

end Shard

/-- In a run in which no step leaves an adapter behind, the port keeps adapters for live work only:
those of open connections and of sessions not retired.  So it keeps none when everything is over, and
for a retired session as many as it has open connections. -/
theorem adapters_bounded_by_live_work {env : Nat → Env β} {shard : Shard β S}
    (hrun : Run (shardStep env) (fun shard st => Shard.leaks env shard st = false) .initial shard) :
    (∀ a ∈ shard.adapters, shard.isOpen a = true ∨ ¬ shard.Retired a.session) ∧
      ((∀ id < shard.worlds.length, shard.Retired id) → (∀ a, shard.isOpen a = false) →
        shard.adapters = []) ∧
      ∀ id w, shard.worlds[id]? = some w → shard.Retired id →
        (shard.adapters.filter fun a => a.session == id).length =
          w.port.conns.countP fun k => !k.closed := by
  have hboth : shard.Housed ∧ shard.Clean := by
    refine hrun.invariant (I := fun shard => shard.Housed ∧ shard.Clean)
      ⟨Shard.housed_initial, ?_⟩ ?_
    · intro id w hw
      cases hw
    · rintro a st ⟨hhoused, hclean⟩ hleaks
      exact ⟨Shard.housed_step hhoused st, Shard.clean_step hclean hleaks⟩
  rcases hboth with ⟨hhoused, hclean⟩
  refine ⟨?_, ?_, ?_⟩
  · intro a ha
    by_cases hretired : shard.Retired a.session
    · exact Or.inl (Shard.isOpen_of_retired hhoused hclean ha hretired)
    · exact Or.inr hretired
  · intro hall hclosed
    refine List.eq_nil_iff_forall_not_mem.mpr ?_
    intro a ha
    rcases hhoused.world_of_mem ha with ⟨w, hw, -⟩
    have hretired := hall a.session (List.getElem?_eq_some_iff.mp hw).1
    have hopen := Shard.isOpen_of_retired hhoused hclean ha hretired
    rw [hclosed a] at hopen
    cases hopen
  · intro id w hw hretired
    exact Shard.length_adapters_of_retired hhoused hclean hw hretired

/-- A session that `Modify` took off its socket is stopped and retired before the socket has closed:
the one adapter left is that of the socket. -/
theorem adapters_bounded_by_live_work_sample :
    let shard := exec (shardStep Sample.env) Sample.idle
      (Sample.up ++ [.call 0 (.modify Session.Sample.otherEndpoint), .call 0 (.runPosted 0),
        .call 0 .stop, .call 0 (.runPosted 0), .tick])
    shard.Retired 0 ∧ shard.adapters = [⟨0, 0⟩] ∧
      ∀ a ∈ shard.adapters, shard.isOpen a = true ∨ ¬ shard.Retired a.session := by
  intro shard
  have hrun : Run (shardStep Sample.env) (fun shard st => Shard.leaks Sample.env shard st = false)
      Sample.idle shard := Run.of_exec (by decide +kernel)
  exact ⟨by decide +kernel, by decide +kernel, (adapters_bounded_by_live_work hrun).1⟩

/-- A session that reconnected once finishes, is retired, and leaves the adapters of both its
connections, closed as they are. -/
theorem adapters_outlive_everything :
    let shard := exec (shardStep Sample.env) Sample.idle
      (Sample.up ++ [.call 0 (.onClosed 0 false), .call 0 .retryTimer, .call 0 (.onConnected 1),
        .call 0 .stop, .call 0 (.runPosted 0), .call 0 (.onClosed 1 false), .tick])
    Run (shardStep Sample.env) (fun shard st => shardContract shard st = true) Sample.idle shard ∧
      shard.worlds.length = 1 ∧ shard.Retired 0 ∧ shard.adapters = [⟨0, 0⟩, ⟨0, 1⟩] ∧
      ∀ a ∈ shard.adapters, shard.isOpen a = false :=
  ⟨Run.of_exec (by decide +kernel), by decide +kernel, by decide +kernel, by decide +kernel,
    by decide +kernel⟩

/-! ## Destruction -/

/-- The members of `Shard`. -/
inductive Member
  | tick
  | loop
  | port
  | sessions
  | load
  | thread
  deriving DecidableEq, Repr

/-- In order of declaration. -/
def members : List Member := [.tick, .loop, .port, .sessions, .load, .thread]

/-- What becomes of an adapter while its shard is destroyed. -/
inductive Destruction
  | adapterDestroyed (a : Adapter)
  /-- lws calls the adapter. -/
  | onClosed (a : Adapter)
  deriving DecidableEq, Repr

namespace Shard

variable {shard : Shard β S}

/-- The connections that have a wsi in the context of the loop. -/
def openConnections (shard : Shard β S) : List Adapter :=
  (List.range shard.worlds.length).flatMap fun id =>
    ((List.range (shard.connections id)).map (Adapter.mk id)).filter shard.isOpen

/-- `~LwsNetPort` frees the adapters; `~WsEventLoop` destroys the context, which closes every live
wsi.  The other members have no part in it. -/
def destroyMember (shard : Shard β S) : Member → List Destruction
  | .port => shard.adapters.map .adapterDestroyed
  | .loop => shard.openConnections.map .onClosed
  | _ => []

/-- `~Shard`, with the thread joined. -/
def destroy (shard : Shard β S) : List Destruction :=
  members.reverse.flatMap shard.destroyMember

end Shard

/-- No adapter is called that has been destroyed. -/
def Orderly (trace : List Destruction) : Prop :=
  ∀ before a after, trace = before ++ .onClosed a :: after → .adapterDestroyed a ∉ before

namespace Shard

variable {shard : Shard β S}

theorem destroy_eq (shard : Shard β S) :
    shard.destroy = shard.adapters.map .adapterDestroyed ++ shard.openConnections.map .onClosed := by
  unfold destroy members
  simp [destroyMember]

/-- A connection that is open has its adapter. -/
theorem Housed.mem_of_open (h : shard.Housed) {a : Adapter} (ha : a ∈ shard.openConnections) :
    a ∈ shard.adapters := by
  rcases List.mem_flatMap.mp ha with ⟨id, -, hmem⟩
  rcases List.mem_map.mp (List.mem_filter.mp hmem).1 with ⟨c, hc, rfl⟩
  exact (h.mem_iff ⟨id, c⟩).mpr (List.mem_range.mp hc)

end Shard

/-- The port goes before the loop.  So a shard is destroyed without a call into a destroyed adapter
exactly when none of its connections is open. -/
theorem destroyed_in_order_iff {env : Nat → Env β} {shard : Shard β S}
    (hrun : Run (shardStep env) (fun _ _ => True) .initial shard) :
    Orderly shard.destroy ↔ shard.openConnections = [] := by
  have hhoused : shard.Housed := by
    refine hrun.invariant (I := fun shard => shard.Housed) Shard.housed_initial ?_
    intro a st h _
    exact Shard.housed_step h st
  rw [Shard.destroy_eq]
  constructor
  · intro horderly
    cases hopen : shard.openConnections with
    | nil => rfl
    | cons a rest =>
        -- the first call of the loop is into an adapter that the port has freed
        refine absurd ?_ (horderly (shard.adapters.map .adapterDestroyed) a (rest.map .onClosed) ?_)
        · refine List.mem_map_of_mem (hhoused.mem_of_open ?_)
          rw [hopen]
          exact List.mem_cons_self
        · rw [hopen]
          rfl
  · intro hnone before a after heq
    rw [hnone, List.map_nil, List.append_nil] at heq
    -- nothing is called, for the trace has destructions only
    have hcalled : Destruction.onClosed a ∈ shard.adapters.map .adapterDestroyed := by
      rw [heq]
      exact List.mem_append_right _ List.mem_cons_self
    rcases List.mem_map.mp hcalled with ⟨b, -, hb⟩
    cases hb

/-- A shard whose only session ended in time. -/
theorem destroyed_in_order_iff_sample :
    let shard := exec (shardStep Sample.env) Sample.idle
      (Sample.up ++ [.call 0 .stop, .call 0 (.runPosted 0), .call 0 (.onClosed 0 false)])
    shard.openConnections = [] ∧ Orderly shard.destroy := by
  intro shard
  have hnone : shard.openConnections = [] := by decide +kernel
  have hrun : Run (shardStep Sample.env) (fun _ _ => True) Sample.idle shard :=
    Run.of_exec (by decide +kernel)
  exact ⟨hnone, (destroyed_in_order_iff hrun).mpr hnone⟩

/-- A shard destroyed at shutdown, its session connected and told to stop: the adapter is freed, and
then lws calls it. -/
theorem close_after_destruction :
    let shard := exec (shardStep Sample.env) Sample.idle (Sample.up ++ [.call 0 .stop])
    Run (shardStep Sample.env) (fun shard st => shardContract shard st = true) Sample.idle shard ∧
      shard.destroy = [.adapterDestroyed ⟨0, 0⟩, .onClosed ⟨0, 0⟩] ∧ ¬ Orderly shard.destroy := by
  intro shard
  have hdestroy : shard.destroy = [.adapterDestroyed ⟨0, 0⟩, .onClosed ⟨0, 0⟩] := by decide +kernel
  refine ⟨Run.of_exec (by decide +kernel), hdestroy, ?_⟩
  intro horderly
  exact horderly [.adapterDestroyed ⟨0, 0⟩] ⟨0, 0⟩ [] hdestroy (List.mem_singleton_self _)

end Net
end AudioFork
