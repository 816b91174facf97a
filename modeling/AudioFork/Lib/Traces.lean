import AudioFork.Lib.Runs

/-!
# Traces — schedules that go on for ever

`Run` speaks of what has happened; what is bound to happen needs a schedule without an end.
`stateAt step s input n` is the state after `n` inputs of the schedule, `Endless` says that each of
them was enabled, and `LeadsTo` is the usual "whenever this, later that".
-/

namespace AudioFork
namespace Lib

universe u v

variable {σ : Type u} {ι : Type v}

def stateAt (step : σ → ι → σ) (s : σ) (input : Nat → ι) : Nat → σ
  | 0 => s
  | n + 1 => step (stateAt step s input n) (input n)

/-- Every input of the schedule is enabled when it is taken. -/
def Endless (step : σ → ι → σ) (guard : σ → ι → Prop) (s : σ) (input : Nat → ι) : Prop :=
  ∀ n, guard (stateAt step s input n) (input n)

namespace Endless

variable {step : σ → ι → σ} {guard : σ → ι → Prop} {s : σ} {input : Nat → ι}

theorem run_between (h : Endless step guard s input) {m n : Nat} (hmn : m ≤ n) :
    Run step guard (stateAt step s input m) (stateAt step s input n) := by
  induction hmn with
  | refl => exact .refl
  | @step n _ ih => exact .tail (input n) ih (h n)

theorem run (h : Endless step guard s input) (n : Nat) :
    Run step guard s (stateAt step s input n) :=
  h.run_between (Nat.zero_le n)

end Endless

/-- Whenever `P` holds, `Q` holds then or later. -/
def LeadsTo (states : Nat → σ) (P Q : σ → Prop) : Prop :=
  ∀ m, P (states m) → ∃ n, m ≤ n ∧ Q (states n)

namespace LeadsTo

variable {states : Nat → σ} {P Q R : σ → Prop}

theorem trans (h₁ : LeadsTo states P Q) (h₂ : LeadsTo states Q R) : LeadsTo states P R := by
  intro m hm
  rcases h₁ m hm with ⟨n, hmn, hn⟩
  rcases h₂ n hn with ⟨k, hnk, hk⟩
  exact ⟨k, Nat.le_trans hmn hnk, hk⟩

/-- What holds at once needs no waiting. -/
theorem of_or (h : LeadsTo states P Q) : LeadsTo states (fun s => P s ∨ Q s) Q := by
  rintro m (hP | hQ)
  · exact h m hP
  · exact ⟨m, Nat.le_refl m, hQ⟩

end LeadsTo

/-! ## Concrete schedules -/

/-- The schedule that begins with `is` and then repeats `i`. -/
def thenAlways (is : List ι) (i : ι) (n : Nat) : ι := is.getD n i

theorem stateAt_succ (step : σ → ι → σ) (s : σ) (input : Nat → ι) (n : Nat) :
    stateAt step s input (n + 1) = stateAt step (step s (input 0)) (fun k => input (k + 1)) n := by
  induction n with
  | zero => rfl
  | succ n ih =>
      rw [stateAt, ih]
      rfl

section

variable {step : σ → ι → σ} {guard : σ → ι → Prop} {s : σ} {is : List ι} {i : ι}

/-- Where `i` changes nothing the schedule comes to rest. -/
theorem stateAt_thenAlways (hstays : step (exec step s is) i = exec step s is) {n : Nat}
    (hn : is.length ≤ n) : stateAt step s (thenAlways is i) n = exec step s is := by
  induction is generalizing s n with
  | nil =>
      induction n with
      | zero => rfl
      | succ n ih =>
          rw [stateAt, ih (Nat.zero_le n)]
          exact hstays
  | cons j is ih =>
      cases n with
      | zero => cases hn
      | succ n =>
          rw [stateAt_succ]
          exact ih hstays (Nat.le_of_succ_le_succ hn)

/-- A list of enabled inputs, and one that is enabled in the state they lead to and stays there. -/
theorem Endless.of_enabled (h : Enabled step guard s is) (hguard : guard (exec step s is) i)
    (hstays : step (exec step s is) i = exec step s is) :
    Endless step guard s (thenAlways is i) := by
  induction is generalizing s with
  | nil =>
      intro n
      rw [stateAt_thenAlways hstays (Nat.zero_le n)]
      exact hguard
  | cons j is ih =>
      intro n
      cases n with
      | zero => exact h.1
      | succ n =>
          rw [stateAt_succ]
          exact ih h.2 hguard hstays n

end

end Lib
end AudioFork
