import Mathlib.Data.List.Basic

/-!
# Loops that replace the entries they visit

A loop goes over the positions of a list. At each position its body reads the entry and the local
variables, and replaces both; the entries at other positions stay. `sweep_invariant` is the rule
for such a loop: what holds before it and is kept by every turn holds at its end, of all entries
and of what they were replaced by.
-/

set_option autoImplicit false

namespace NetworkChat.Foundation

universe u v

variable {α : Type u} {Locals : Type v} {body : ℕ → α → Locals → α × Locals}

/-- One turn of the loop. -/
def turn (body : ℕ → α → Locals → α × Locals) (state : List α × Locals) (position : ℕ) :
    List α × Locals :=
  match state.1[position]? with
  | none => state
  | some entry =>
      (state.1.set position (body position entry state.2).1, (body position entry state.2).2)

/-- The loop over all positions, from the first on. -/
def sweep (body : ℕ → α → Locals → α × Locals) (entries : List α) (locals : Locals) :
    List α × Locals :=
  (List.range entries.length).foldl (turn body) (entries, locals)

/-- The turn at the first entry that was not visited. -/
theorem turn_next (replaced later : List α) (entry : α) (locals : Locals) :
    turn body (replaced ++ entry :: later, locals) replaced.length =
      (replaced ++ [(body replaced.length entry locals).1] ++ later,
        (body replaced.length entry locals).2) := by
  have found : (replaced ++ entry :: later)[replaced.length]? = some entry := by
    rw [List.getElem?_append_right (Nat.le_refl _), Nat.sub_self, List.getElem?_cons_zero]
  simp only [turn, found, List.set_append_right _ _ (Nat.le_refl _), Nat.sub_self,
    List.set_cons_zero, List.append_assoc, List.singleton_append]

/-- The rule, from some position on. -/
theorem sweep_from {holds : List α → List α → Locals → Prop}
    (keeps : ∀ visited replaced entry locals, holds visited replaced locals →
      holds (visited ++ [entry]) (replaced ++ [(body visited.length entry locals).1])
        (body visited.length entry locals).2)
    {visited replaced : List α} {locals : Locals} (same : replaced.length = visited.length)
    (before : holds visited replaced locals) (later : List α) :
    holds (visited ++ later)
      ((List.range' visited.length later.length).foldl (turn body) (replaced ++ later, locals)).1
      ((List.range' visited.length later.length).foldl (turn body)
        (replaced ++ later, locals)).2 := by
  induction later generalizing visited replaced locals with
  | nil =>
      rw [List.append_nil, List.append_nil]
      exact before
  | cons entry later ih =>
      have next := ih (by simp only [List.length_append, same, List.length_singleton])
        (keeps visited replaced entry locals before)
      rw [List.length_append, List.length_singleton, List.append_assoc,
        List.singleton_append] at next
      rw [List.length_cons, List.range'_succ, List.foldl_cons, ← same, turn_next, same]
      exact next

/-- **What a loop keeps in every turn holds at its end.** -/
theorem sweep_invariant {holds : List α → List α → Locals → Prop}
    (keeps : ∀ visited replaced entry locals, holds visited replaced locals →
      holds (visited ++ [entry]) (replaced ++ [(body visited.length entry locals).1])
        (body visited.length entry locals).2)
    {locals : Locals} (initially : holds [] [] locals) (entries : List α) :
    holds entries (sweep body entries locals).1 (sweep body entries locals).2 := by
  have whole := sweep_from keeps rfl initially entries
  rwa [List.length_nil, ← List.range_eq_range', List.nil_append] at whole

end NetworkChat.Foundation
