import NetworkChat.Connection.Handlers

/-!
# The validation code leads the bytes handed over

`WriteValidation` writes the eight bytes of a validation code. `CodePhase` says that
they come first: they are being written and nothing else is, or they lead everything
that was handed over. It is kept by every handler as long as no message is started
before they are handed over.
-/

set_option autoImplicit false

namespace NetworkChat

open Foundation

namespace Connection

variable {T : Type}

theorem length_tagged (kind : WriteKind) (bytes : List UInt8) :
    (tagged kind bytes).length = bytes.length :=
  List.length_map _

theorem tagged_append (kind : WriteKind) (first second : List UInt8) :
    tagged kind (first ++ second) = tagged kind first ++ tagged kind second :=
  List.map_append

/-- The code leads: it is being written alone, or it is written. -/
inductive CodePhase (code : List UInt8) (c : Connection T) : Prop where
  | writing (before after : List UInt8) (split : code = before ++ after)
      (bytes : c.sent = tagged .validation before) (write : c.writing = [⟨.validation, after⟩])
      (noQueue : c.qMessagesOut = [])
  | written (more : List (WriteKind × UInt8)) (bytes : c.sent = tagged .validation code ++ more)

namespace CodePhase

variable {code : List UInt8} {c d : Connection T}

/-- As far as they go, the first bytes handed over are those of the code. -/
theorem take_prefix (phase : CodePhase code c) :
    c.sent.take code.length <+: tagged .validation code := by
  cases phase with
  | writing before after split bytes =>
      rw [bytes, split, tagged_append]
      exact (List.take_prefix _ _).trans (List.prefix_append _ _)
  | written more bytes =>
      rw [bytes, List.take_left' (length_tagged _ _)]

theorem congr (phase : CodePhase code c) (sent : d.sent = c.sent) (writing : d.writing = c.writing)
    (queue : d.qMessagesOut = c.qMessagesOut) : CodePhase code d := by
  cases phase with
  | writing before after split bytes write noQueue =>
      exact .writing before after split (sent.trans bytes) (writing.trans write)
        (queue.trans noQueue)
  | written more bytes => exact .written more (sent.trans bytes)

/-- A code that is handed over to the last byte leads whatever follows. -/
theorem written_of_length (phase : CodePhase code c) (enough : code.length ≤ c.sent.length) :
    ∃ more, c.sent = tagged .validation code ++ more := by
  cases phase with
  | written more bytes => exact ⟨more, bytes⟩
  | writing before after split bytes =>
      have whole : after = [] := by
        rw [bytes, length_tagged, split, List.length_append] at enough
        exact List.length_eq_zero_iff.mp (by omega)
      exact ⟨[], by rw [bytes, split, whole, List.append_nil, List.append_nil]⟩

/-- When any write has ended, the code is handed over. -/
theorem written_of_done (phase : CodePhase code c) {index : ℕ} {kind : WriteKind}
    (found : c.writing[index]? = some ⟨kind, []⟩) :
    ∃ more, c.sent = tagged .validation code ++ more := by
  cases phase with
  | written more bytes => exact ⟨more, bytes⟩
  | writing before after split bytes write =>
      rw [write] at found
      have same := List.mem_singleton.mp (List.mem_of_getElem? found)
      have whole : after = [] := (WriteOp.mk.inj same).2.symm
      exact ⟨[], by rw [bytes, split, whole, List.append_nil, List.append_nil]⟩

/-- Handing over the next bytes of a write. -/
theorem transfer (phase : CodePhase code c) {index count : ℕ} {op : WriteOp}
    (found : c.writing[index]? = some op) :
    CodePhase code { c with
      writing := c.writing.set index { op with rest := op.rest.drop count },
      sent := c.sent ++ tagged op.kind (op.rest.take count) } := by
  cases phase with
  | writing before after split bytes write noQueue =>
      rw [write] at found
      have first : index = 0 := by
        by_contra notFirst
        rw [List.getElem?_singleton, if_neg notFirst] at found
        cases found
      subst first
      cases found
      refine .writing (before ++ after.take count) (after.drop count) ?_ ?_ ?_ noQueue
      · rw [List.append_assoc, List.take_append_drop]
        exact split
      · rw [bytes, tagged_append]
      · rw [write]
        rfl
  | written more bytes =>
      refine .written (more ++ tagged op.kind (op.rest.take count)) ?_
      rw [← List.append_assoc, bytes]

/-- A handler of the write chain, once the code is handed over. -/
theorem onlyWrites (handedOver : ∃ more, c.sent = tagged .validation code ++ more)
    (only : OnlyWrites c d) : CodePhase code d := by
  obtain ⟨more, bytes⟩ := handedOver
  obtain ⟨queue, writing, fault, -, rfl⟩ := only
  exact .written more bytes

end CodePhase

end Connection

end NetworkChat
