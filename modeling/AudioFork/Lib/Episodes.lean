import Mathlib.Data.List.Basic

/-!
# Episodes — where the stretches of a series begin

Some items of a series belong to an episode, and an episode is a stretch of such items.  `fronts`
are the items that begin one.  What is reported at the fronts of a series that comes in pieces is what
would be reported of the series as a whole (`fronts_append`), provided that the reporter remembers
whether the last item was inside an episode.
-/

namespace AudioFork
namespace Lib

universe u

variable {α : Type u}

/-- Whether the series ends inside an episode. -/
def insideAfter (p : α → Bool) (inside : Bool) (l : List α) : Bool :=
  l.foldl (fun _ a => p a) inside

/-- The items that begin an episode. -/
def fronts (p : α → Bool) : Bool → List α → List α
  | _, [] => []
  | inside, a :: l => (if p a && !inside then [a] else []) ++ fronts p (p a) l

theorem fronts_append (p : α → Bool) (inside : Bool) (l l' : List α) :
    fronts p inside (l ++ l') = fronts p inside l ++ fronts p (insideAfter p inside l) l' := by
  induction l generalizing inside with
  | nil => rfl
  | cons a l ih =>
      show _ ++ fronts p (p a) (l ++ l') = (_ ++ fronts p (p a) l) ++ fronts p _ l'
      rw [ih, List.append_assoc]
      rfl

theorem insideAfter_append (p : α → Bool) (inside : Bool) (l l' : List α) :
    insideAfter p inside (l ++ l') = insideAfter p (insideAfter p inside l) l' :=
  List.foldl_append

end Lib
end AudioFork
