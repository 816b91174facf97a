import Mathlib.Data.List.Basic

/-!
# LossyPipe — a two-stage byte pipe that may drop but never reorders

Items offered at one end wait in a `back` stage, move to a `front` stage and are delivered from
there.  Either stage may shed items.  `Pipe.Sound` is the conservation law of such a pipe: what
was delivered, followed by what waits in front, followed by what waits behind, is a subsequence of
what was offered.  `Pipe.Balanced` adds the books: of everything that knocked, what was refused,
what waits, what was delivered and what was lost on the way make up the total.  Every move a pipe
can make preserves both.

Two relations speak of positions in the stream of what was offered: `Since` says that items were
offered no earlier than a position, `Kept` that everything offered from a position on is still
there.
-/

namespace AudioFork
namespace Lib

universe u v

/-- The history and the two stages of a lossy pipe. -/
structure Pipe (β : Type u) where
  offered : List β
  back : List β
  front : List β
  delivered : List β

namespace Pipe

variable {β : Type u}

/-- Nothing is duplicated, reordered or invented. -/
def Sound (p : Pipe β) : Prop :=
  List.Sublist (p.delivered ++ (p.front ++ p.back)) p.offered

theorem Sound.delivered_sublist {p : Pipe β} (h : p.Sound) :
    List.Sublist p.delivered p.offered :=
  (List.sublist_append_left _ _).trans h

/-- Items enter at the back. -/
theorem Sound.offer {p : Pipe β} (h : p.Sound) (xs : List β) :
    Sound { p with offered := p.offered ++ xs, back := p.back ++ xs } := by
  have happ : List.Sublist ((p.delivered ++ (p.front ++ p.back)) ++ xs) (p.offered ++ xs) :=
    List.Sublist.append h (List.Sublist.refl xs)
  simpa [Sound, List.append_assoc] using happ

/-- The oldest items of the back stage move to the end of the front stage. -/
theorem Sound.advance {p : Pipe β} (h : p.Sound) {xs ys : List β} (hback : p.back = xs ++ ys) :
    Sound { p with front := p.front ++ xs, back := ys } := by
  simpa [Sound, hback, List.append_assoc] using h

/-- The oldest items of the front stage are delivered. -/
theorem Sound.deliver {p : Pipe β} (h : p.Sound) {xs ys : List β} (hfront : p.front = xs ++ ys) :
    Sound { p with delivered := p.delivered ++ xs, front := ys } := by
  simpa [Sound, hfront, List.append_assoc] using h

/-- Items may move up from one stage to the other, and either may lose some. -/
theorem Sound.shrink {p : Pipe β} (h : p.Sound) {front back : List β}
    (hless : List.Sublist (front ++ back) (p.front ++ p.back)) :
    Sound { p with front := front, back := back } := by
  refine List.Sublist.trans ?_ h
  exact List.Sublist.append (List.Sublist.refl _) hless

/-- The counters kept beside a pipe. -/
structure Meter where
  total : Nat
  refused : Nat
  lost : Nat

def Balanced (p : Pipe β) (m : Meter) : Prop :=
  p.Sound ∧
    m.total = m.refused + p.back.length + p.front.length + p.delivered.length + m.lost

theorem Balanced.offer {p : Pipe β} {m : Meter} (h : p.Balanced m) (xs : List β) :
    Balanced { p with offered := p.offered ++ xs, back := p.back ++ xs }
      { m with total := m.total + xs.length } := by
  refine ⟨h.1.offer xs, ?_⟩
  have hcount := h.2
  simp only [List.length_append]
  omega

theorem Balanced.refuse {p : Pipe β} {m : Meter} (h : p.Balanced m) (n : Nat) :
    Balanced p { m with total := m.total + n, refused := m.refused + n } := by
  refine ⟨h.1, ?_⟩
  have hcount := h.2
  simp only
  omega

theorem Balanced.advance {p : Pipe β} {m : Meter} (h : p.Balanced m) {xs ys : List β}
    (hback : p.back = xs ++ ys) : Balanced { p with front := p.front ++ xs, back := ys } m := by
  refine ⟨h.1.advance hback, ?_⟩
  have hcount := h.2
  simp only [hback, List.length_append] at hcount ⊢
  omega

theorem Balanced.deliver {p : Pipe β} {m : Meter} (h : p.Balanced m) {xs ys : List β}
    (hfront : p.front = xs ++ ys) :
    Balanced { p with delivered := p.delivered ++ xs, front := ys } m := by
  refine ⟨h.1.deliver hfront, ?_⟩
  have hcount := h.2
  simp only [hfront, List.length_append] at hcount ⊢
  omega

/-- Either stage loses `n` items, and they are counted. -/
theorem Balanced.shrink {p : Pipe β} {m : Meter} (h : p.Balanced m) {front back : List β} {n : Nat}
    (hless : List.Sublist (front ++ back) (p.front ++ p.back))
    (hn : front.length + back.length + n = p.front.length + p.back.length) :
    Balanced { p with front := front, back := back } { m with lost := m.lost + n } := by
  refine ⟨h.1.shrink hless, ?_⟩
  have hcount := h.2
  simp only
  omega

/-- The oldest items of the front stage are lost, and counted. -/
theorem Balanced.lose {p : Pipe β} {m : Meter} (h : p.Balanced m) {n : Nat}
    (hn : n ≤ p.front.length) :
    Balanced { p with front := p.front.drop n } { m with lost := m.lost + n } := by
  refine h.shrink (List.Sublist.append (List.drop_sublist n p.front) (.refl _)) ?_
  rw [List.length_drop]
  omega

end Pipe

/-! ## What became of each item

A subsequence forgets which item went where.  `exists_labels` recovers it: whenever labelled items
form a subsequence of a stream, the stream itself can be labelled, an item left out getting no label.
-/

section

variable {κ : Type v} {α : Type u}

/-- The items with a label, in stream order. -/
def labelled (labels : List (Option κ)) (xs : List α) : List (κ × α) :=
  (labels.zip xs).filterMap fun e => e.1.map fun k => (k, e.2)

theorem exists_labels {parts : List (κ × α)} {xs : List α}
    (h : List.Sublist (parts.map Prod.snd) xs) :
    ∃ labels : List (Option κ), labels.length = xs.length ∧ labelled labels xs = parts ∧
      labels.countP Option.isNone + parts.length = xs.length := by
  induction xs generalizing parts with
  | nil =>
      obtain rfl : parts = [] := by simpa using h
      exact ⟨[], rfl, rfl, rfl⟩
  | cons x xs ih =>
      cases parts with
      | nil =>
          have hnone : List.Sublist (([] : List (κ × α)).map Prod.snd) xs := List.nil_sublist xs
          rcases ih hnone with ⟨labels, hlength, hparts, hcount⟩
          refine ⟨none :: labels, by simp [hlength], hparts, ?_⟩
          simpa using hcount
      | cons part parts =>
          -- either the first item is the first part, or it was left out
          cases h with
          | cons _ hrest =>
              have hsub : List.Sublist ((part :: parts).map Prod.snd) xs := hrest
              rcases ih hsub with ⟨labels, hlength, hparts, hcount⟩
              refine ⟨none :: labels, by simp [hlength], hparts, ?_⟩
              simp only [List.length_cons, List.countP_cons, Option.isNone_none, if_true] at hcount ⊢
              omega
          | cons_cons _ hrest =>
              rcases ih hrest with ⟨labels, hlength, hparts, hcount⟩
              refine ⟨some part.1 :: labels, by simp [hlength], ?_, ?_⟩
              · exact congrArg (List.cons part) hparts
              · simp only [List.length_cons, List.countP_cons, Option.isNone_some] at hcount ⊢
                simp only [Bool.false_eq_true, if_false]
                omega

end

/-! ## Positions in the stream -/

variable {β : Type u} {offered xs ys : List β} {k : Nat}

/-- `xs` is part of what was offered from position `k` on. -/
structure Since (offered : List β) (k : Nat) (xs : List β) : Prop where
  le : k ≤ offered.length
  sublist : List.Sublist xs (offered.drop k)

theorem Since.now (offered : List β) : Since offered offered.length [] :=
  ⟨Nat.le_refl _, List.nil_sublist _⟩

theorem Since.shed (h : Since offered k xs) (hsub : List.Sublist ys xs) : Since offered k ys :=
  ⟨h.le, hsub.trans h.sublist⟩

/-- What is offered next may join. -/
theorem Since.offer (h : Since offered k xs) (new : List β) :
    Since (offered ++ new) k (xs ++ new) := by
  refine ⟨?_, ?_⟩
  · rw [List.length_append]
    exact Nat.le_trans h.le (Nat.le_add_right _ _)
  · rw [List.drop_append_of_le_length h.le]
    exact List.Sublist.append h.sublist (List.Sublist.refl new)

theorem Since.grow (h : Since offered k xs) (new : List β) : Since (offered ++ new) k xs :=
  (h.offer new).shed (List.sublist_append_left xs new)

/-- When all items are distinct, `Since` excludes every item offered before the position. -/
theorem Since.not_mem_take (h : Since offered k xs) (hnodup : offered.Nodup) {x : β} (hx : x ∈ xs) :
    x ∉ offered.take k := by
  intro hearly
  have hlate : x ∈ offered.drop k := h.sublist.subset hx
  exact List.disjoint_take_drop hnodup (Nat.le_refl k) hearly hlate

/-- Everything offered from position `k` on is at the end of `xs`. -/
structure Kept (offered : List β) (k : Nat) (xs : List β) : Prop where
  le : k ≤ offered.length
  suffix : offered.drop k <:+ xs

theorem Kept.now (offered xs : List β) : Kept offered offered.length xs := by
  refine ⟨Nat.le_refl _, ?_⟩
  rw [List.drop_length]
  exact List.nil_suffix

theorem Kept.offer (h : Kept offered k xs) (new : List β) :
    Kept (offered ++ new) k (xs ++ new) := by
  refine ⟨?_, ?_⟩
  · rw [List.length_append]
    exact Nat.le_trans h.le (Nat.le_add_right _ _)
  · rw [List.drop_append_of_le_length h.le]
    rcases h.suffix with ⟨before, hbefore⟩
    exact ⟨before, by rw [← List.append_assoc, hbefore]⟩

/-- Anything may stand in front. -/
theorem Kept.behind (h : Kept offered k xs) (front : List β) : Kept offered k (front ++ xs) :=
  ⟨h.le, h.suffix.trans (List.suffix_append front xs)⟩

end Lib
end AudioFork
