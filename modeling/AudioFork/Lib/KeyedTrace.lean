import Mathlib.Data.List.Induction

/-!
# KeyedTrace — many protocol sessions in one log

A log interleaves the letters of many sessions, each entry carrying the key of its session.  An
automaton `next : φ → α → Option φ` says which letters a session may see in which phase.  `phase`
is where the session of one key stands; `none` means that its letters broke the protocol.

The rules describe what appending to the log does to the phase of each key: entries of other keys
do nothing, and letters that keep a set of phases keep it over any number of them.

Where the keys of a log are numbers that never go back, the log is its sessions one after the other
(`flatMap_filter_key`).
-/

namespace AudioFork
namespace Lib

universe u v w

variable {κ : Type u} {α : Type v} {φ : Type w} [DecidableEq κ]

/-- The letters of one session, in order. -/
def project (log : List (κ × α)) (k : κ) : List α :=
  (log.filter fun e => e.1 = k).map Prod.snd

/-- The phase a session is in after its letters. -/
def phase (next : φ → α → Option φ) (start : φ) (log : List (κ × α)) (k : κ) : Option φ :=
  (project log k).foldlM next start

section

variable {next : φ → α → Option φ} {start : φ} {log : List (κ × α)} {k : κ}

theorem project_append (log entries : List (κ × α)) (k : κ) :
    project (log ++ entries) k = project log k ++ project entries k := by
  simp [project]

/-- The entries of other sessions are invisible. -/
theorem project_of_other {entries : List (κ × α)} (h : ∀ e ∈ entries, e.1 ≠ k) :
    project entries k = [] := by
  have hnone : entries.filter (fun e => e.1 = k) = [] := by
    rw [List.filter_eq_nil_iff]
    intro e he
    simpa using h e he
  rw [project, hnone]
  rfl

theorem phase_append_other {entries : List (κ × α)} (h : ∀ e ∈ entries, e.1 ≠ k) :
    phase next start (log ++ entries) k = phase next start log k := by
  unfold phase
  rw [project_append, project_of_other h, List.append_nil]

/-- One more letter. -/
theorem phase_append_one (a : α) :
    phase next start (log ++ [(k, a)]) k =
      (phase next start log k).bind fun p => next p a := by
  unfold phase
  rw [project_append, List.foldlM_append]
  simp [project]

/-- Letters that keep a set of phases keep it over any number of them. -/
theorem phase_append_within {P : φ → Prop} {entries : List (κ × α)}
    (hkeep : ∀ p, P p → ∀ e ∈ entries, e.1 = k → ∃ q, next p e.2 = some q ∧ P q)
    (h : ∃ p, phase next start log k = some p ∧ P p) :
    ∃ p, phase next start (log ++ entries) k = some p ∧ P p := by
  induction entries generalizing log with
  | nil => simpa using h
  | cons e entries ih =>
      have happ : log ++ e :: entries = (log ++ [e]) ++ entries := by simp
      rw [happ]
      refine ih (fun p hp e' he' => hkeep p hp e' (List.mem_cons_of_mem _ he')) ?_
      rcases h with ⟨p, hphase, hp⟩
      by_cases hk : e.1 = k
      · rcases hkeep p hp e List.mem_cons_self hk with ⟨q, hnext, hq⟩
        refine ⟨q, ?_, hq⟩
        rw [show e = (k, e.2) from Prod.ext hk rfl, phase_append_one, hphase]
        exact hnext
      · refine ⟨p, ?_, hp⟩
        rw [phase_append_other, hphase]
        intro e' he'
        rw [List.mem_singleton.mp he']
        exact hk

end

/-! ## Sessions one after the other -/

section

variable {key : α → Nat} {log : List α}

/-- The session of key `n` follows those of the smaller keys. -/
theorem filter_key_succ (h : log.Pairwise fun a b => key a ≤ key b) (n : Nat) :
    (log.filter fun a => key a < n + 1) =
      (log.filter fun a => key a < n) ++ log.filter fun a => key a = n := by
  induction log with
  | nil => rfl
  | cons a log ih =>
      rcases List.pairwise_cons.mp h with ⟨hfirst, hrest⟩
      have hih := ih hrest
      rcases Nat.lt_trichotomy (key a) n with hlt | heq | hgt
      · have hsucc : key a < n + 1 := Nat.lt_succ_of_lt hlt
        have hother : key a ≠ n := Nat.ne_of_lt hlt
        simp only [List.filter_cons, hsucc, hlt, hother, decide_true, decide_false, if_true, hih,
          List.cons_append, Bool.false_eq_true, if_false]
      · -- from here on no smaller key comes
        have hnone : (log.filter fun b => key b < n) = [] := by
          rw [List.filter_eq_nil_iff]
          intro b hb
          have hle := hfirst b hb
          simp only [decide_eq_true_eq]
          omega
        have hsucc : key a < n + 1 := Nat.lt_succ_of_le (Nat.le_of_eq heq)
        have hnot : ¬ key a < n := Nat.not_lt_of_le (Nat.le_of_eq heq.symm)
        rw [hnone, List.nil_append] at hih
        have hhere : decide (key a = n) = true := decide_eq_true heq
        simp only [List.filter_cons, hsucc, hnot, hhere, decide_true, decide_false, if_true, hih, hnone,
          List.nil_append, Bool.false_eq_true, if_false]
      · have hlater : ∀ b ∈ a :: log, n < key b := by
          intro b hb
          rcases List.mem_cons.mp hb with rfl | hb
          · exact hgt
          · exact Nat.lt_of_lt_of_le hgt (hfirst b hb)
        have hempty : ∀ p : α → Bool, (∀ b, p b = true → key b ≤ n) → (a :: log).filter p = [] := by
          intro p hp
          rw [List.filter_eq_nil_iff]
          intro b hb hpb
          exact Nat.not_le_of_lt (hlater b hb) (hp b hpb)
        rw [hempty, hempty, hempty]
        · rfl
        all_goals
          intro b hb
          have hb' := of_decide_eq_true hb
          omega

theorem flatMap_filter_key (h : log.Pairwise fun a b => key a ≤ key b) (n : Nat) :
    ((List.range n).flatMap fun k => log.filter fun a => key a = k) =
      log.filter fun a => key a < n := by
  induction n with
  | zero => simp
  | succ n ih => rw [List.range_succ, List.flatMap_append, List.flatMap_singleton, ih, filter_key_succ h]

/-- Sessions that each give part of what they should, give part of it together. -/
theorem flatMap_sublist_range {γ : Type w} {l : List α} {f : α → List γ} {g : Nat → List γ}
    (h : ∀ (i : Nat) (a : α), l[i]? = some a → (f a).Sublist (g i)) :
    (l.flatMap f).Sublist ((List.range l.length).flatMap g) := by
  induction l using List.reverseRecOn with
  | nil => exact List.nil_sublist _
  | append_singleton l a ih =>
      rw [List.flatMap_append, List.flatMap_singleton, List.length_append, List.length_singleton,
        List.range_succ, List.flatMap_append, List.flatMap_singleton]
      refine List.Sublist.append (ih ?_) (h l.length a ?_)
      · intro i b hb
        exact h i b (by rw [List.getElem?_append_left (List.getElem?_eq_some_iff.mp hb).1, hb])
      · rw [List.getElem?_append_right (Nat.le_refl _), Nat.sub_self]
        rfl

end

end Lib
end AudioFork
