import AudioFork.Buffers.DryPool
import AudioFork.Buffers.Newest
import AudioFork.Lib.Runs

/-!
# QueueFifo — a slab queue is a byte FIFO

`Fifo` is what a `SlabQueue` is for: a list of bytes that grows at the end and shrinks at the front.
An append may be cut short, but only if the pool refused a slab, and a peek shows some beginning of
the list.  Every sequence of calls on a slab queue, whatever the pool answers, is a sequence of calls
on that list (`slabQueue_refines_fifo`).

`Shape` is what can be said of the chunks on the way.  That a queue of `s` bytes leases few slabs
rests on one fact more than the representation invariant has: only the front chunk has been read from
(`Packed`).
-/

namespace AudioFork
namespace Buffers

open Lib

variable {β : Type} {S : ℕ+}

/-! ## The calls -/

inductive QueueCall (β : Type)
  | append (bytes : List β)
  | peek (maxBytes : Nat)
  | consume (bytes : Nat)
  | clear

inductive QueueReply (β : Type)
  /-- How much was stored, and whether an `Acquire` failed on the way. -/
  | stored (bytes : Nat) (refused : Bool)
  | seen (bytes : List β)
  | done

/-- A queue and the pool it leases from. -/
structure QueueState (β : Type) where
  queue : SlabQueue β
  supply : SlabSupply

namespace QueueState

def reply (S : ℕ+) (others : Nat → Nat → Nat) (s : QueueState β) : QueueCall β → QueueReply β
  | .append bytes =>
      .stored (s.queue.append S others s.supply bytes).1
        ((s.queue.appendAnswers S others bytes.length s.supply bytes).contains false)
  | .peek maxBytes => .seen (s.queue.peek maxBytes)
  | .consume _ => .done
  | .clear => .done

def step (S : ℕ+) (others : Nat → Nat → Nat) (s : QueueState β) : QueueCall β → QueueState β
  | .append bytes =>
      match s.queue.append S others s.supply bytes with
      | (_, queue, supply) => { queue, supply }
  | .peek _ => s
  | .consume bytes =>
      match s.queue.consume S s.supply bytes with
      | (queue, supply) => { queue, supply }
  | .clear =>
      match s.queue.clear s.supply with
      | (queue, supply) => { queue, supply }

/-- The calls with their replies. -/
def trace (S : ℕ+) (others : Nat → Nat → Nat) :
    QueueState β → List (QueueCall β) → List (QueueCall β × QueueReply β)
  | _, [] => []
  | s, call :: calls => (call, s.reply S others call) :: trace S others (s.step S others call) calls

end QueueState

/-! ## The FIFO -/

namespace Fifo

/-- A call on a list of bytes, with a reply it may have and the list it leaves. -/
inductive Answers (l : List β) : QueueCall β → QueueReply β → List β → Prop where
  | append (bytes : List β) (k : Nat) (refused : Bool) (hk : k ≤ bytes.length)
      (hshort : k < bytes.length → refused = true) :
      Answers l (.append bytes) (.stored k refused) (l ++ bytes.take k)
  | peek (maxBytes : Nat) (seen : List β) (hfront : seen <+: l) (hmax : seen.length ≤ maxBytes)
      (hsome : 0 < l.length → 0 < maxBytes → seen ≠ []) :
      Answers l (.peek maxBytes) (.seen seen) l
  | consume (bytes : Nat) : Answers l (.consume bytes) .done (l.drop (min bytes l.length))
  | clear : Answers l .clear .done []

/-- Calls one after another. -/
inductive Trace : List β → List (QueueCall β × QueueReply β) → List β → Prop where
  | nil (l : List β) : Trace l [] l
  | cons {l m r : List β} {call : QueueCall β} {reply : QueueReply β}
      {calls : List (QueueCall β × QueueReply β)} (h : Answers l call reply m)
      (hrest : Trace m calls r) : Trace l ((call, reply) :: calls) r

end Fifo

namespace SlabQueue

/-- What the chunks of a queue look like, and how many there are. -/
structure Shape (S : ℕ+) (q : SlabQueue β) : Prop where
  size_sum : q.size = (q.chunks.map Chunk.size).sum
  bounds : ∀ c ∈ q.chunks, c.begin ≤ c.endAt ∧ c.endAt ≤ (S : Nat)
  filled : ∀ c ∈ q.chunks.dropLast, c.endAt = (S : Nat)
  sole : ∀ c ∈ q.chunks, c.size = 0 → q.chunks = [c] ∧ c.endAt < (S : Nat)
  drained : q.size = 0 → q.chunks.length ≤ 1
  leased : 2 ≤ q.size → q.chunks.length ≤ (q.size - 2) / (S : Nat) + 2

/-! ## How many chunks there are -/

theorem size_eq_sum {q : SlabQueue β} (hok : Ok S q) : q.size = (q.chunks.map Chunk.size).sum := by
  have hbytes : ∀ c : Chunk β, c.bytes.length = c.size := Chunk.length_bytes
  rw [hok.size_eq, toList, List.length_flatMap]
  simp only [hbytes]

/-- Two chunks or more: the front one and the last one hold a byte at least, and those between them
are whole slabs. -/
theorem whole_slabs_between {front tail : Chunk β} {mid : List (Chunk β)}
    {q : SlabQueue β} (hok : Ok S q) (hpacked : q.Packed)
    (hchunks : q.chunks = front :: (mid ++ [tail])) : mid.length * (S : Nat) + 2 ≤ q.size := by
  rcases hok.layout.eq_nil_or_snoc with hnil | ⟨init, tail', hsnoc, hinit, hbegin, -, hdrained⟩
  · rw [hnil] at hchunks
    cases hchunks
  have hsplit : init = front :: mid ∧ tail' = tail := by
    rw [hsnoc, ← List.cons_append] at hchunks
    have hinj := List.append_inj' hchunks rfl
    exact ⟨hinj.1, by simpa using hinj.2⟩
  rcases hsplit with ⟨rfl, rfl⟩
  have hfront : 1 ≤ front.size := Nat.sub_pos_of_lt (hinit front List.mem_cons_self).1
  have hlast : 1 ≤ tail'.size := by
    refine Nat.sub_pos_of_lt (Nat.lt_of_le_of_ne hbegin ?_)
    intro heq
    cases (hdrained heq).1
  have hmid : ∀ c ∈ mid, c.size = (S : Nat) := by
    intro c hc
    have hstart : c.begin = 0 := hpacked c.begin (by simp [hchunks]; exact Or.inl ⟨c, hc, rfl⟩)
    rw [Chunk.size, hstart, Nat.sub_zero]
    exact (hinit c (List.mem_cons_of_mem _ hc)).2
  have hsum : (mid.map Chunk.size).sum = mid.length * (S : Nat) := by
    rw [List.map_congr_left hmid, List.map_const', List.sum_replicate_nat]
  rw [size_eq_sum hok, hchunks]
  simp only [List.map_cons, List.map_append, List.map_nil, List.sum_cons, List.sum_append,
    List.sum_nil, hsum]
  omega

/-- None, one, or two chunks and more. -/
theorem chunks_cases (q : SlabQueue β) :
    q.chunks.length ≤ 1 ∨ ∃ front mid tail, q.chunks = front :: (mid ++ [tail]) := by
  cases hchunks : q.chunks with
  | nil => exact Or.inl (Nat.zero_le 1)
  | cons front rest =>
      rcases List.eq_nil_or_concat rest with rfl | ⟨mid, tail, rfl⟩
      · exact Or.inl (Nat.le_refl 1)
      · exact Or.inr ⟨front, mid, tail, by rw [List.concat_eq_append]⟩

theorem drained_le_one {q : SlabQueue β} (hok : Ok S q) (hpacked : q.Packed) (h : q.size = 0) :
    q.chunks.length ≤ 1 := by
  rcases chunks_cases q with hfew | ⟨front, mid, tail, hchunks⟩
  · exact hfew
  · have hsize := whole_slabs_between hok hpacked hchunks
    omega

theorem leased_le {q : SlabQueue β} (hok : Ok S q) (hpacked : q.Packed) :
    q.chunks.length ≤ (q.size - 2) / (S : Nat) + 2 := by
  rcases chunks_cases q with hfew | ⟨front, mid, tail, hchunks⟩
  · exact hfew.trans (Nat.le_trans (by decide) (Nat.le_add_left 2 _))
  · have hsize := whole_slabs_between hok hpacked hchunks
    have hwhole : mid.length ≤ (q.size - 2) / (S : Nat) := by
      apply (Nat.le_div_iff_mul_le S.pos).mpr
      omega
    calc q.chunks.length
        = mid.length + 2 := by simp [hchunks]
      _ ≤ (q.size - 2) / (S : Nat) + 2 := Nat.add_le_add_right hwhole 2

theorem shape_of_ok {q : SlabQueue β} (hok : Ok S q) (hpacked : q.Packed) : Shape S q where
  size_sum := size_eq_sum hok
  bounds := by
    intro c hc
    rcases hok.layout.eq_nil_or_snoc with hnil | ⟨init, tail, hchunks, hinit, hbegin, hend, -⟩
    · simp [hnil] at hc
    · rw [hchunks, List.mem_append, List.mem_singleton] at hc
      rcases hc with hc | rfl
      · exact ⟨Nat.le_of_lt (hinit c hc).1, Nat.le_of_eq (hinit c hc).2⟩
      · exact ⟨hbegin, hend⟩
  filled := by
    intro c hc
    rcases hok.layout.eq_nil_or_snoc with hnil | ⟨init, tail, hchunks, hinit, -⟩
    · simp [hnil] at hc
    · rw [hchunks, List.dropLast_concat] at hc
      exact (hinit c hc).2
  sole := by
    intro c hc hempty
    rcases hok.layout.eq_nil_or_snoc with hnil | ⟨init, tail, hchunks, hinit, hbegin, -, hdrained⟩
    · simp [hnil] at hc
    · have hle : c.endAt ≤ c.begin := Nat.sub_eq_zero_iff_le.mp hempty
      rw [hchunks, List.mem_append, List.mem_singleton] at hc
      rcases hc with hc | rfl
      · exact absurd (hinit c hc).1 (Nat.not_lt.mpr hle)
      · rcases hdrained (Nat.le_antisymm hbegin hle) with ⟨rfl, hroom⟩
        exact ⟨hchunks, hroom⟩
  drained := drained_le_one hok hpacked
  leased := fun _ => leased_le hok hpacked

/-! ## The calls are calls on a FIFO -/

theorem peek_length_le (q : SlabQueue β) (maxBytes : Nat) : (q.peek maxBytes).length ≤ maxBytes := by
  unfold peek
  split
  · exact Nat.zero_le _
  · split
    · exact Nat.zero_le _
    · exact List.length_take_le _ _

/-- An append is short only if the pool has refused a slab. -/
theorem refused_of_short (others : Nat → Nat → Nat) {q : SlabQueue β} (p : SlabSupply)
    (bytes : List β) (hok : Ok S q) (hshort : (q.append S others p bytes).1 < bytes.length) :
    (q.appendAnswers S others bytes.length p bytes).contains false = true := by
  have hrest : (appendLoop S others bytes.length q p bytes).2.2 ≠ [] := by
    intro hnone
    have hall : (q.append S others p bytes).1 = bytes.length := by
      simp only [append, hnone, List.length_nil, Nat.sub_zero]
    omega
  exact List.contains_iff_mem.mpr ((leaves_rest_iff others p hok (Nat.le_refl _)).mp hrest)

end SlabQueue

namespace QueueState

open SlabQueue

/-- A call keeps the representation, and is a call on the list the queue stands for. -/
theorem step_answers (others : Nat → Nat → Nat) {s : QueueState β} (hok : Ok S s.queue)
    (hpacked : s.queue.Packed) (call : QueueCall β) :
    (Ok S (s.step S others call).queue ∧ (s.step S others call).queue.Packed) ∧
      Fifo.Answers s.queue.toList call (s.reply S others call)
        (s.step S others call).queue.toList := by
  cases call with
  | append bytes =>
      rcases append_spec others s.supply bytes hok with ⟨hle, hlist, hok'⟩
      refine ⟨⟨hok', hpacked.appendLoop bytes.length s.supply bytes⟩, ?_⟩
      have hanswer := Fifo.Answers.append (l := s.queue.toList) bytes _ _ hle
        (refused_of_short others s.supply bytes hok)
      rw [← hlist] at hanswer
      exact hanswer
  | peek maxBytes =>
      refine ⟨⟨hok, hpacked⟩, ?_⟩
      refine .peek maxBytes _ (s.queue.peek_prefix maxBytes) (peek_length_le s.queue maxBytes) ?_
      intro hsome hmax
      rw [← hok.size_eq] at hsome
      exact peek_ne_nil hok (Nat.pos_iff_ne_zero.mp hsome) (Nat.pos_iff_ne_zero.mp hmax)
  | consume bytes =>
      rcases consume_spec s.supply bytes hok with ⟨hlist, hok'⟩
      refine ⟨⟨hok', hpacked.consume s.supply bytes⟩, ?_⟩
      have hmin : s.queue.toList.drop bytes =
          s.queue.toList.drop (min bytes s.queue.toList.length) := List.drop_eq_drop_min
      have hanswer := Fifo.Answers.consume (l := s.queue.toList) bytes
      rw [← hmin, ← hlist] at hanswer
      exact hanswer
  | clear => exact ⟨⟨ok_empty S, by simp [Packed, step, SlabQueue.clear, SlabQueue.empty]⟩, .clear⟩

theorem trace_fifo (others : Nat → Nat → Nat) (calls : List (QueueCall β)) {s : QueueState β}
    (hok : Ok S s.queue) (hpacked : s.queue.Packed) :
    (Ok S (exec (step S others) s calls).queue ∧ (exec (step S others) s calls).queue.Packed) ∧
      Fifo.Trace s.queue.toList (trace S others s calls)
        (exec (step S others) s calls).queue.toList := by
  induction calls generalizing s with
  | nil => exact ⟨⟨hok, hpacked⟩, .nil _⟩
  | cons call calls ih =>
      rcases step_answers others hok hpacked call with ⟨⟨hok', hpacked'⟩, hanswer⟩
      rcases ih hok' hpacked' with ⟨hend, htrace⟩
      exact ⟨hend, .cons hanswer htrace⟩

end QueueState

/-- Whatever is called on an empty queue and whatever the pool answers: the calls and replies are those
of a byte FIFO, the queue ends with what the FIFO holds, and its chunks have their shape. -/
theorem slabQueue_refines_fifo (S : ℕ+) (others : Nat → Nat → Nat) (supply : SlabSupply)
    (calls : List (QueueCall β)) :
    let start : QueueState β := { queue := .empty, supply }
    let last := exec (QueueState.step S others) start calls
    Fifo.Trace [] (QueueState.trace S others start calls) last.queue.toList ∧
      last.queue.size = last.queue.toList.length ∧ SlabQueue.Shape S last.queue := by
  intro start last
  rcases QueueState.trace_fifo others calls (s := start) (SlabQueue.ok_empty S)
    (by simp [SlabQueue.Packed, start, SlabQueue.empty]) with ⟨⟨hok, hpacked⟩, htrace⟩
  exact ⟨htrace, hok.size_eq, SlabQueue.shape_of_ok hok hpacked⟩

end Buffers
end AudioFork
