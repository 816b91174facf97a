import Mathlib.Data.List.TakeWhile

/-!
# MarkedStream — a queue with named positions, as its user sees it

Items are admitted at one end and leave at the other, consumed one after the other or flushed all at
once.  A mark is put behind everything admitted so far.  It is reached when nothing stands before it
any more: each item admitted before it was consumed, or had been flushed before the mark was put.

The history keeps every item and every mark there ever was.  `Tracks` is what an implementation may
forget of it: it needs only the marks with an item still waiting before them, in order.
-/

namespace AudioFork
namespace Lib

variable {α ν : Type}

/-- How an item left the queue; `flushed k` by a flush with `k` marks put before it. -/
inductive Fate
  | consumed
  | flushed (marks : Nat)
  deriving DecidableEq, Repr

/-- The item does not stand before mark number `i`. -/
def Fate.clears (i : Nat) : Fate → Bool
  | .consumed => true
  | .flushed k => decide (k ≤ i)

theorem Fate.clears_mono {i j : Nat} (h : i ≤ j) {fate : Fate} (hclears : fate.clears i = true) :
    fate.clears j = true := by
  cases fate with
  | consumed => rfl
  | flushed k =>
      have hk : k ≤ i := by simpa [clears] using hclears
      simpa [clears] using hk.trans h

structure MarkedStream (α ν : Type) where
  /-- The items that have left, in the order in which they were admitted. -/
  settled : List (α × Fate)
  waiting : List α
  /-- The marks in the order in which they were put, each with the number of items admitted
  before. -/
  marks : List (ν × Nat)
  /-- The names handed to the user. -/
  returned : List ν
  /-- There was a flush, and no mark since. -/
  muted : Bool
  deriving DecidableEq, Repr

/-- Each of the first `before` items has left and does not stand before mark number `i`. -/
def cleared (settled : List (α × Fate)) (i before : Nat) : Bool :=
  decide (before ≤ settled.length) && (settled.take before).all fun e => e.2.clears i

/-- The names of the marks reached, where `marks` are numbered from `k` on. -/
def namesFrom (settled : List (α × Fate)) (k : Nat) (marks : List (ν × Nat)) : List ν :=
  ((marks.zipIdx k).filter fun m => cleared settled m.2 m.1.2).map fun m => m.1.1

namespace MarkedStream

def empty : MarkedStream α ν :=
  { settled := []
    waiting := []
    marks := []
    returned := []
    muted := false }

def admitted (s : MarkedStream α ν) : Nat := s.settled.length + s.waiting.length

def enter (items : List α) (s : MarkedStream α ν) : MarkedStream α ν :=
  { s with waiting := s.waiting ++ items }

def mark (name : ν) (s : MarkedStream α ν) : MarkedStream α ν :=
  { s with marks := s.marks ++ [(name, s.admitted)], muted := false }

def flush (s : MarkedStream α ν) : MarkedStream α ν :=
  { s with
    settled := s.settled ++ s.waiting.map fun x => (x, .flushed s.marks.length)
    waiting := []
    muted := true }

def consume (n : Nat) (s : MarkedStream α ν) : MarkedStream α ν :=
  { s with
    settled := s.settled ++ (s.waiting.take n).map fun x => (x, .consumed)
    waiting := s.waiting.drop n }

def hand (names : List ν) (s : MarkedStream α ν) : MarkedStream α ν :=
  { s with returned := s.returned ++ names }

/-- Whether mark number `i` is reached. -/
def reached (s : MarkedStream α ν) (i : Nat) : Bool :=
  s.marks[i]?.any fun m => cleared s.settled i m.2

/-- The names of all marks reached, in the order in which they were put. -/
def reachedNames (s : MarkedStream α ν) : List ν := namesFrom s.settled 0 s.marks

end MarkedStream

/-! ## Which names count -/

section

variable {settled more : List (α × Fate)} {k : Nat} {marks : List (ν × Nat)}

theorem namesFrom_append (settled : List (α × Fate)) (k : Nat) (marks marks' : List (ν × Nat)) :
    namesFrom settled k (marks ++ marks') =
      namesFrom settled k marks ++ namesFrom settled (k + marks.length) marks' := by
  unfold namesFrom
  rw [List.zipIdx_append, List.filter_append, List.map_append]

/-- Items that leave later do not matter to a mark whose items have all left. -/
theorem cleared_append {i before : Nat} (h : before ≤ settled.length) (more : List (α × Fate)) :
    cleared (settled ++ more) i before = cleared settled i before := by
  have hlonger : before ≤ (settled ++ more).length := by
    rw [List.length_append]
    omega
  unfold cleared
  rw [List.take_append_of_le_length h, decide_eq_true h, decide_eq_true hlonger]

theorem namesFrom_settled (h : ∀ m ∈ marks, m.2 ≤ settled.length) (more : List (α × Fate)) :
    namesFrom (settled ++ more) k marks = namesFrom settled k marks := by
  unfold namesFrom
  rw [List.filter_congr]
  intro m hm
  exact cleared_append (h m.1 (List.fst_mem_of_mem_zipIdx hm)) more

theorem not_cleared_of_waiting {i before : Nat} (h : settled.length < before) :
    cleared settled i before = false := by
  unfold cleared
  rw [decide_eq_false (Nat.not_le.mpr h), Bool.false_and]

/-- A mark with an item waiting before it does not count. -/
theorem namesFrom_waiting (h : ∀ m ∈ marks, settled.length < m.2) :
    namesFrom settled k marks = [] := by
  unfold namesFrom
  rw [List.filter_eq_nil_iff.mpr, List.map_nil]
  intro m hm
  rw [not_cleared_of_waiting (h m.1 (List.fst_mem_of_mem_zipIdx hm))]
  exact Bool.false_ne_true

/-- Marks put after every flush count as soon as the items before them have left. -/
theorem namesFrom_cleared (h : ∀ m ∈ marks, m.2 ≤ settled.length)
    (hclear : ∀ e ∈ settled, e.2.clears k = true) :
    namesFrom settled k marks = marks.map Prod.fst := by
  have hall : ((marks.zipIdx k).filter fun m => cleared settled m.2 m.1.2) = marks.zipIdx k := by
    rw [List.filter_eq_self]
    intro m hm
    have hleft := h m.1 (List.fst_mem_of_mem_zipIdx hm)
    have hnumber := List.le_snd_of_mem_zipIdx hm
    simp only [cleared, decide_eq_true hleft, Bool.true_and, List.all_eq_true]
    exact fun e he => Fate.clears_mono hnumber (hclear e (List.mem_of_mem_take he))
  unfold namesFrom
  rw [hall]
  calc (marks.zipIdx k).map (fun m => m.1.1)
      = ((marks.zipIdx k).map Prod.fst).map Prod.fst := List.map_map.symm
    _ = marks.map Prod.fst := by rw [List.zipIdx_map_fst]

/-- An item flushed after a mark stands before it for good. -/
theorem not_cleared_of_flushed {i before flushes : Nat} (x : α) (more : List (α × Fate))
    (hbefore : settled.length < before) (hmark : i < flushes) :
    cleared (settled ++ (x, .flushed flushes) :: more) i before = false := by
  obtain ⟨n, hn⟩ : ∃ n, before - settled.length = n + 1 := ⟨before - settled.length - 1, by omega⟩
  have hmem : ((x, .flushed flushes) : α × Fate) ∈
      (settled ++ (x, .flushed flushes) :: more).take before := by
    rw [List.take_append, hn, List.take_succ_cons]
    simp
  have hstands : ¬ (Fate.flushed flushes).clears i = true := by
    simpa [Fate.clears] using hmark
  rw [Bool.eq_false_iff]
  intro hcleared
  have hall := (Bool.and_eq_true_iff.mp hcleared).2
  exact hstands (List.all_eq_true.mp hall _ hmem)

end

/-! ## What an implementation has to remember -/

namespace MarkedStream

/-- `pending` are the last marks put: those with an item waiting before them.  All others are decided,
and no flush came after the first of `pending`. -/
structure Tracks (s : MarkedStream α ν) (pending : List (ν × Nat)) : Prop where
  past : ∃ old, s.marks = old ++ pending ∧ (∀ m ∈ old, m.2 ≤ s.settled.length) ∧
    ∀ e ∈ s.settled, e.2.clears old.length = true
  ahead : ∀ m ∈ pending, s.settled.length < m.2
  known : ∀ m ∈ pending, m.2 ≤ s.admitted
  sorted : pending.Pairwise fun a b => a.2 ≤ b.2

section

variable {s : MarkedStream α ν} {pending : List (ν × Nat)}

theorem tracks_empty : Tracks (empty : MarkedStream α ν) [] where
  past := ⟨[], rfl, by simp, by simp [empty]⟩
  ahead := by simp
  known := by simp
  sorted := .nil

/-- Only marks that nothing waits before can count. -/
theorem reachedNames_of_waiting {old : List (ν × Nat)} (hmarks : s.marks = old ++ pending)
    (hahead : ∀ m ∈ pending, s.settled.length < m.2) :
    s.reachedNames = namesFrom s.settled 0 old := by
  unfold reachedNames
  rw [hmarks, namesFrom_append, namesFrom_waiting hahead, List.append_nil]

theorem Tracks.enter (h : s.Tracks pending) (items : List α) : (s.enter items).Tracks pending where
  past := h.past
  ahead := h.ahead
  known := by
    intro m hm
    have hknown := h.known m hm
    simp only [admitted, MarkedStream.enter, List.length_append] at hknown ⊢
    omega
  sorted := h.sorted

theorem Tracks.hand (h : s.Tracks pending) (names : List ν) : (s.hand names).Tracks pending :=
  ⟨h.past, h.ahead, h.known, h.sorted⟩

/-- A mark behind a waiting item is not reached yet. -/
theorem Tracks.mark_waiting (h : s.Tracks pending) (hwaiting : s.waiting ≠ []) (name : ν) :
    (s.mark name).Tracks (pending ++ [(name, s.admitted)]) ∧
      (s.mark name).reachedNames = s.reachedNames := by
  have hpos : 0 < s.waiting.length := List.length_pos_iff.mpr hwaiting
  have hlater : s.settled.length < s.admitted := by
    unfold admitted
    omega
  -- the decided marks stay the same, the new one joins the pending ones
  refine ⟨⟨?_, ?_, ?_, ?_⟩, ?_⟩
  · rcases h.past with ⟨old, hmarks, hold, hclear⟩
    refine ⟨old, ?_, hold, hclear⟩
    simp only [mark, hmarks, List.append_assoc]
  · intro m hm
    rcases List.mem_append.mp hm with hm | hm
    · exact h.ahead m hm
    · rw [List.mem_singleton.mp hm]
      exact hlater
  · intro m hm
    rcases List.mem_append.mp hm with hm | hm
    · exact h.known m hm
    · rw [List.mem_singleton.mp hm]
      exact Nat.le_refl _
  · refine List.pairwise_append.mpr ⟨h.sorted, List.pairwise_singleton _ _, ?_⟩
    intro a ha b hb
    rw [List.mem_singleton.mp hb]
    exact h.known a ha
  · exact reachedNames_of_waiting rfl (by simpa [mark] using hlater)

/-- With nothing waiting, a mark is reached at once. -/
theorem Tracks.mark_idle (h : s.Tracks pending) (hidle : s.waiting = []) (name : ν) :
    pending = [] ∧ (s.mark name).Tracks [] ∧
      (s.mark name).reachedNames = s.reachedNames ++ [name] := by
  have hadmitted : s.admitted = s.settled.length := by simp [admitted, hidle]
  -- a pending mark lies ahead of all that left and not beyond what came: no room for one
  have hnone : pending = [] := by
    rw [List.eq_nil_iff_forall_not_mem]
    intro m hm
    have hahead := h.ahead m hm
    have hknown := h.known m hm
    omega
  subst hnone
  rcases h.past with ⟨old, hmarks, hold, hclear⟩
  rw [List.append_nil] at hmarks
  refine ⟨rfl, ⟨⟨s.marks ++ [(name, s.admitted)], ?_, ?_, ?_⟩, ?_, ?_, .nil⟩, ?_⟩
  · simp only [mark, List.append_nil]
  · intro m hm
    rcases List.mem_append.mp hm with hm | hm
    · exact hold m (hmarks ▸ hm)
    · rw [List.mem_singleton.mp hm, hadmitted]
      exact Nat.le_refl _
  · intro e he
    refine Fate.clears_mono ?_ (hclear e he)
    rw [hmarks, List.length_append]
    exact Nat.le_add_right _ _
  · simp
  · simp
  · unfold reachedNames
    simp only [mark]
    rw [namesFrom_append, Nat.zero_add, hmarks,
      namesFrom_cleared (by simp [hadmitted]) hclear]
    rfl

/-- A flush decides the pending marks: an item before each of them is gone for good. -/
theorem Tracks.cleared_flush (h : s.Tracks pending) {i : Nat} {m : ν × Nat}
    (hmark : s.marks[i]? = some m) :
    cleared s.flush.settled i m.2 = cleared s.settled i m.2 := by
  rcases h.past with ⟨old, hmarks, hold, -⟩
  have hnumber : i < s.marks.length := (List.getElem?_eq_some_iff.mp hmark).1
  have hmem : m ∈ old ++ pending := hmarks ▸ List.mem_of_getElem? hmark
  rcases List.mem_append.mp hmem with hm | hm
  · exact cleared_append (hold m hm) _
  · have hahead := h.ahead m hm
    have hknown := h.known m hm
    cases hwaiting : s.waiting with
    | nil =>
        simp only [admitted, hwaiting, List.length_nil] at hknown
        omega
    | cons x rest =>
        -- before the flush `x` waits ahead of the mark, after it `x` is flushed too late
        rw [not_cleared_of_waiting hahead]
        simp only [flush, hwaiting, List.map_cons]
        exact not_cleared_of_flushed x _ hahead hnumber

theorem Tracks.reached_flush (h : s.Tracks pending) (i : Nat) :
    s.flush.reached i = s.reached i := by
  unfold reached
  show s.marks[i]?.any _ = _
  cases hmark : s.marks[i]? with
  | none => rfl
  | some m => exact h.cleared_flush hmark

theorem Tracks.flush (h : s.Tracks pending) :
    s.flush.Tracks [] ∧ s.flush.reachedNames = s.reachedNames := by
  have hall : s.flush.settled.length = s.admitted := by
    simp [MarkedStream.flush, admitted]
  refine ⟨⟨⟨s.marks, ?_, ?_, ?_⟩, ?_, ?_, .nil⟩, ?_⟩
  · exact (List.append_nil _).symm
  · intro m hm
    rcases h.past with ⟨old, hmarks, hold, -⟩
    rw [hall]
    rw [hmarks] at hm
    rcases List.mem_append.mp hm with hm | hm
    · exact (hold m hm).trans (Nat.le_add_right _ _)
    · exact h.known m hm
  · intro e he
    rcases h.past with ⟨old, hmarks, -, hclear⟩
    rcases List.mem_append.mp he with he | he
    · refine Fate.clears_mono ?_ (hclear e he)
      rw [hmarks, List.length_append]
      exact Nat.le_add_right _ _
    · rcases List.mem_map.mp he with ⟨x, -, rfl⟩
      simp [Fate.clears]
  · simp
  · simp
  · unfold reachedNames namesFrom
    refine congrArg _ (List.filter_congr ?_)
    rintro ⟨m, i⟩ hm
    exact h.cleared_flush (List.mk_mem_zipIdx_iff_getElem?.mp hm)

/-- Behind the first mark that is too far, all are. -/
theorem lt_of_mem_dropWhile {n : Nat} (hsorted : pending.Pairwise fun a b => a.2 ≤ b.2) :
    ∀ m ∈ pending.dropWhile (fun m => decide (m.2 ≤ n)), n < m.2 := by
  induction pending with
  | nil => simp
  | cons first rest ih =>
      rcases List.pairwise_cons.mp hsorted with ⟨hfirst, hrest⟩
      intro m hm
      rw [List.dropWhile_cons] at hm
      split at hm
      · exact ih hrest m hm
      · rename_i hfar
        have hlt : n < first.2 := by simpa using hfar
        rcases List.mem_cons.mp hm with rfl | hm
        · exact hlt
        · exact hlt.trans_le (hfirst m hm)

theorem admitted_consume (s : MarkedStream α ν) (n : Nat) : (s.consume n).admitted = s.admitted := by
  simp only [admitted, consume, List.length_append, List.length_map, List.length_take,
    List.length_drop]
  omega

/-- Consuming reaches the pending marks in order, as far as the items go. -/
theorem Tracks.consume (h : s.Tracks pending) (n : Nat) :
    let passed := fun m : ν × Nat => decide (m.2 ≤ (s.consume n).settled.length)
    (s.consume n).Tracks (pending.dropWhile passed) ∧
      (s.consume n).reachedNames = s.reachedNames ++ (pending.takeWhile passed).map Prod.fst := by
  intro passed
  rcases h.past with ⟨old, hmarks, hold, hclear⟩
  have hmarks' : (s.consume n).marks =
      (old ++ pending.takeWhile passed) ++ pending.dropWhile passed := by
    rw [List.append_assoc, List.takeWhile_append_dropWhile]
    exact hmarks
  have hpassed : ∀ m ∈ pending.takeWhile passed, m.2 ≤ (s.consume n).settled.length := by
    intro m hm
    simpa [passed] using List.mem_takeWhile_imp hm
  have hahead := lt_of_mem_dropWhile (n := (s.consume n).settled.length) h.sorted
  -- the items consumed now do not stand before any mark
  have hclear' : ∀ e ∈ (s.consume n).settled, e.2.clears old.length = true := by
    intro e he
    rcases List.mem_append.mp he with he | he
    · exact hclear e he
    · rcases List.mem_map.mp he with ⟨x, -, rfl⟩
      rfl
  refine ⟨⟨⟨old ++ pending.takeWhile passed, hmarks', ?_, ?_⟩, hahead, ?_, ?_⟩, ?_⟩
  · intro m hm
    rcases List.mem_append.mp hm with hm | hm
    · refine (hold m hm).trans ?_
      simp [MarkedStream.consume]
    · exact hpassed m hm
  · intro e he
    refine Fate.clears_mono ?_ (hclear' e he)
    rw [List.length_append]
    exact Nat.le_add_right _ _
  · intro m hm
    rw [admitted_consume]
    exact h.known m ((List.dropWhile_sublist passed).subset hm)
  · exact h.sorted.sublist (List.dropWhile_sublist passed)
  · rw [reachedNames_of_waiting hmarks' hahead, reachedNames_of_waiting hmarks h.ahead,
      namesFrom_append, Nat.zero_add, namesFrom_cleared hpassed hclear']
    exact congrArg (· ++ _) (namesFrom_settled hold _)

end

/-! ## Decided marks stay decided -/

/-- `s'` is a later state of the same stream. -/
structure Later (s s' : MarkedStream α ν) : Prop where
  settled : s.settled <+: s'.settled
  marks : s.marks <+: s'.marks

section

variable {s s' s'' : MarkedStream α ν}

theorem Later.refl (s : MarkedStream α ν) : Later s s := ⟨List.prefix_rfl, List.prefix_rfl⟩

theorem Later.trans (h : Later s s') (h' : Later s' s'') : Later s s'' :=
  ⟨h.settled.trans h'.settled, h.marks.trans h'.marks⟩

theorem later_enter (s : MarkedStream α ν) (items : List α) : Later s (s.enter items) :=
  ⟨List.prefix_rfl, List.prefix_rfl⟩

theorem later_mark (s : MarkedStream α ν) (name : ν) : Later s (s.mark name) :=
  ⟨List.prefix_rfl, List.prefix_append _ _⟩

theorem later_flush (s : MarkedStream α ν) : Later s s.flush :=
  ⟨List.prefix_append _ _, List.prefix_rfl⟩

theorem later_consume (s : MarkedStream α ν) (n : Nat) : Later s (s.consume n) :=
  ⟨List.prefix_append _ _, List.prefix_rfl⟩

theorem later_hand (s : MarkedStream α ν) (names : List ν) : Later s (s.hand names) :=
  ⟨List.prefix_rfl, List.prefix_rfl⟩

theorem Later.reached (h : Later s s') {i : Nat} {m : ν × Nat} (hmark : s.marks[i]? = some m)
    (hleft : m.2 ≤ s.settled.length) : s'.reached i = s.reached i := by
  rcases h.settled with ⟨more, hsettled⟩
  have hsame : s'.marks[i]? = some m := by
    rcases h.marks with ⟨later, hmarks⟩
    rw [← hmarks, List.getElem?_append_left (List.getElem?_eq_some_iff.mp hmark).1, hmark]
  unfold MarkedStream.reached
  rw [hsame, hmark, ← hsettled]
  exact cleared_append hleft more

/-- A mark not reached when the stream is flushed is never reached. -/
theorem Tracks.lost {pending : List (ν × Nat)} (h : s.Tracks pending) {i : Nat}
    (hnumber : i < s.marks.length) (hmissed : s.reached i = false) (hlater : Later s.flush s') :
    s'.reached i = false := by
  have hmark : s.flush.marks[i]? = some s.marks[i] := List.getElem?_eq_getElem hnumber
  rcases h.flush.1.past with ⟨old, hmarks, hold, -⟩
  have hleft : s.marks[i].2 ≤ s.flush.settled.length := by
    refine hold _ ?_
    rw [List.append_nil] at hmarks
    exact hmarks ▸ List.mem_of_getElem? hmark
  rw [hlater.reached hmark hleft, h.reached_flush, hmissed]

end

end MarkedStream

end Lib
end AudioFork
