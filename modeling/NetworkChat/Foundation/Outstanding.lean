import Mathlib.Data.List.Basic

/-!
# Lists of outstanding operations

A system keeps the operations it has started and not yet ended in a list and
picks one of them by its position, to change it or to remove it. The lemmas say
what this does to the operations of one kind, when there is at most one of that
kind.
-/

set_option autoImplicit false

namespace NetworkChat.Foundation

universe u

variable {Op : Type u}

/-- The operation at a position splits the list, and changing or removing it
leaves both parts as they are. -/
theorem exists_split_at {ops : List Op} {index : ℕ} {op : Op} (found : ops[index]? = some op) :
    ∃ before after, ops = before ++ op :: after ∧
      (∀ changed, ops.set index changed = before ++ changed :: after) ∧
      ops.eraseIdx index = before ++ after := by
  obtain ⟨within, rfl⟩ := List.getElem?_eq_some_iff.mp found
  refine ⟨ops.take index, ops.drop (index + 1), ?_, ?_, ?_⟩
  · rw [List.getElem_cons_drop, List.take_append_drop]
  · intro changed
    rw [List.set_eq_take_append_cons_drop, if_pos within]
  · exact List.eraseIdx_eq_take_drop_succ ops index

section OneKind

variable {kind : Op → Bool} {ops : List Op} {index : ℕ} {op : Op}

/-- Changing an operation of another kind keeps those of the kind. -/
theorem filter_set_other (found : ops[index]? = some op) (other : kind op = false) {changed : Op}
    (stays : kind changed = false) : (ops.set index changed).filter kind = ops.filter kind := by
  obtain ⟨before, after, split, set, -⟩ := exists_split_at found
  rw [set, split]
  simp [other, stays]

/-- Removing an operation of another kind keeps those of the kind. -/
theorem filter_eraseIdx_other (found : ops[index]? = some op) (other : kind op = false) :
    (ops.eraseIdx index).filter kind = ops.filter kind := by
  obtain ⟨before, after, split, -, erase⟩ := exists_split_at found
  rw [erase, split]
  simp [other]

/-- An operation of a kind with a single member is that member. -/
theorem eq_of_filter_singleton (found : ops[index]? = some op) (isKind : kind op = true) {only : Op}
    (single : ops.filter kind = [only]) : op = only := by
  have member : op ∈ ops.filter kind :=
    List.mem_filter.mpr ⟨List.mem_of_getElem? found, isKind⟩
  rw [single] at member
  exact List.mem_singleton.mp member

/-- A kind with a member is not empty. -/
theorem filter_ne_nil (found : ops[index]? = some op) (isKind : kind op = true) :
    ops.filter kind ≠ [] :=
  List.ne_nil_of_mem (List.mem_filter.mpr ⟨List.mem_of_getElem? found, isKind⟩)

/-- Changing the only operation of a kind within the kind. -/
theorem filter_set_only (found : ops[index]? = some op) (isKind : kind op = true)
    {only changed : Op} (single : ops.filter kind = [only]) (stays : kind changed = true) :
    (ops.set index changed).filter kind = [changed] := by
  obtain ⟨before, after, split, set, -⟩ := exists_split_at found
  rw [split, List.filter_append, List.filter_cons_of_pos isKind] at single
  obtain ⟨noneBefore, rest⟩ := List.append_eq_singleton_iff.mp single |>.resolve_right (by simp)
  have noneAfter : after.filter kind = [] := (List.cons.inj rest).2
  rw [set, List.filter_append, noneBefore, List.filter_cons_of_pos stays, noneAfter]
  rfl

/-- Removing the only operation of a kind. -/
theorem filter_eraseIdx_only (found : ops[index]? = some op) (isKind : kind op = true)
    {only : Op} (single : ops.filter kind = [only]) : (ops.eraseIdx index).filter kind = [] := by
  obtain ⟨before, after, split, -, erase⟩ := exists_split_at found
  rw [split, List.filter_append, List.filter_cons_of_pos isKind] at single
  obtain ⟨noneBefore, rest⟩ := List.append_eq_singleton_iff.mp single |>.resolve_right (by simp)
  have noneAfter : after.filter kind = [] := (List.cons.inj rest).2
  rw [erase, List.filter_append, noneBefore, noneAfter]
  rfl

end OneKind

end NetworkChat.Foundation
