import NetworkChat.Message.Stack
import NetworkChat.Foundation.Runs

/-!
# The declared size

Every `<<` and `>>` ends with `header.size = size()`, which narrows the length of the body to 32
bits. `<<` refuses nothing, so a message whose body reaches `2 ^ 32` bytes declares less than it
has, and the receiver of its header takes the rest of the body for further frames.
`declares_iff` says that this is the only way: in a sequence of operations the header declares the
body throughout exactly if every operation leaves the body shorter than that.
-/

set_option autoImplicit false

namespace NetworkChat

open Foundation

namespace Message

variable {T : Type}

/-- What is done to a message. -/
inductive Operation : Type 1 where
  | push (item : Item)
  | pop (target : Target)

/-- The message after the operation, if an extraction stays inside the body. -/
def operate (msg : Message T) : Operation → Option (Message T)
  | .push item => some (msg.pushItem item)
  | .pop target =>
      match msg.popInto target with
      | .ok (_, rest) => some rest
      | .error _ => none

/-- How long the body is after the operation. A string is followed by its length, of eight
bytes. -/
def Operation.lengthAfter (body : List UInt8) : Operation → ℕ
  | .push (@Item.fixed Data _ _) => body.length + FixedLayout.size Data
  | .push (.text data) => body.length + data.length + 8
  | .pop (@Target.fixed Data _) => body.length - FixedLayout.size Data
  | .pop (.text _) => body.length - 8 - stringLength body

/-- The operation leaves a body whose length has 32 bits. -/
def StaysShort (msg : Message T) (op : Operation) : Prop := op.lengthAfter msg.body < 2 ^ 32

instance (msg : Message T) (op : Operation) : Decidable (msg.StaysShort op) :=
  inferInstanceAs (Decidable (_ < _))

/-- A size that was assigned declares the body exactly if the length of the body has 32 bits. -/
theorem framed_resized_iff {msg : Message T} {body : List UInt8} :
    (msg.resized body).Framed ↔ body.length < 2 ^ 32 := by
  constructor
  · intro framed
    have declared : (UInt32.ofNat body.length).toNat = body.length := framed
    rw [← declared]
    exact UInt32.toNat_lt _
  · exact framed_resized

/-- What an extraction that stays inside the body leaves. -/
theorem exists_resized_of_popInto {msg rest : Message T} {target : Target} {item : Item}
    (popped : msg.popInto target = .ok (item, rest)) :
    ∃ before body, rest = resized before body ∧
      body.length = (Operation.pop target).lengthAfter msg.body := by
  cases target with
  | fixed Data =>
      rw [popInto, pop_eq] at popped
      split at popped
      case isTrue enough =>
        cases popped
        refine ⟨msg, _, rfl, ?_⟩
        rw [List.length_take, Operation.lengthAfter]
        omega
      case isFalse => cases popped
  | text held =>
      rw [popInto, popString] at popped
      by_cases enough : 8 ≤ msg.body.length
      · rw [popStringWithin_eq maxStringSize enough] at popped
        split at popped
        case isTrue => cases popped
        case isFalse =>
          split at popped
          case isTrue fits =>
            cases popped
            refine ⟨msg.resized (msg.body.take (msg.body.length - 8)), _, rfl, ?_⟩
            simp only [List.length_take, Operation.lengthAfter]
            omega
          case isFalse => cases popped
      · rw [popStringWithin_of_short maxStringSize enough] at popped
        cases popped

/-- **Every operation ends with the assignment of the size.** -/
theorem exists_resized_of_operate {msg next : Message T} {op : Operation}
    (done : operate msg op = some next) :
    ∃ before body, next = resized before body ∧ body.length = op.lengthAfter msg.body := by
  cases op with
  | push item =>
      cases done
      cases item with
      | fixed Data data =>
          refine ⟨msg, _, rfl, ?_⟩
          rw [List.length_append, FixedLayout.length_toBytes]
          rfl
      | text data =>
          refine ⟨msg.resized (msg.body ++ data), _, rfl, ?_⟩
          rw [List.length_append, FixedLayout.length_toBytes, resized, List.length_append]
          rfl
  | pop target =>
      simp only [operate] at done
      split at done
      case h_1 item rest popped =>
        cases done
        exact exists_resized_of_popInto popped
      case h_2 => cases done

/-- An operation leaves a message that declares its body exactly if the body stays short. -/
theorem framed_operate_iff {msg next : Message T} {op : Operation}
    (done : operate msg op = some next) : next.Framed ↔ msg.StaysShort op := by
  obtain ⟨before, body, rfl, length⟩ := exists_resized_of_operate done
  rw [framed_resized_iff, length, StaysShort]

/-- **The header declares the body after every operation exactly if no operation makes the body as
long as `2 ^ 32` bytes.** -/
theorem declares_iff [Inhabited T] {final : Message T} {ops : List Operation}
    (run : runFrom operate default ops = some final) :
    Throughout operate Framed (default : Message T) ops ↔
      Meets operate StaysShort (default : Message T) ops := by
  have exact_step : ∀ (msg : Message T) op next, msg.Framed → operate msg op = some next →
      (next.Framed ↔ msg.StaysShort op) :=
    fun _ _ _ _ done => framed_operate_iff done
  exact throughout_iff_meets_of_step exact_step rfl run

/-- A text of `2 ^ 32` bytes. -/
def longText : List UInt8 := List.replicate (2 ^ 32) 0

/-- The message with the text and its length. -/
theorem length_push_longText :
    (pushString (default : Message CustomMsgTypes) longText).body.length = 2 ^ 32 + 8 := by
  have body : (pushString (default : Message CustomMsgTypes) longText).body =
      longText ++ toBytes (UInt64.ofNat longText.length) := rfl
  rw [body, List.length_append, FixedLayout.length_toBytes, size_uint64, longText,
    List.length_replicate]

/-- It declares the eight bytes of the length alone. -/
theorem long_text_declares_eight :
    ∃ final,
      runFrom operate (default : Message CustomMsgTypes) [.push (.text longText)] = some final ∧
      final.body.length = 2 ^ 32 + 8 ∧ final.header.size = 8 ∧
        ¬ Throughout operate Framed (default : Message CustomMsgTypes)
          [.push (.text longText)] := by
  have length := length_push_longText
  have run : runFrom operate (default : Message CustomMsgTypes) [.push (.text longText)] =
      some (pushString default longText) := rfl
  have size : (pushString (default : Message CustomMsgTypes) longText).header.size = 8 := by
    have assigned : (pushString (default : Message CustomMsgTypes) longText).header.size =
        UInt32.ofNat (pushString (default : Message CustomMsgTypes) longText).body.length := rfl
    rw [assigned, length]
    decide
  refine ⟨_, run, length, size, fun throughout => ?_⟩
  have framed : Framed _ := throughout.final run
  rw [Framed, length, size] at framed
  exact absurd framed (by decide)

/-- An id and a text of two bytes are pushed, and the text is popped. -/
def shortOperations : List Operation :=
  [.push (.fixed UInt32 10000), .push (.text [104, 105]), .pop (.text [])]

theorem declares_shortOperations :
    Throughout operate Framed (default : Message CustomMsgTypes) shortOperations := by
  have runs :
      (runFrom operate (default : Message CustomMsgTypes) shortOperations).isSome = true := by
    decide
  have short : Meets operate StaysShort (default : Message CustomMsgTypes) shortOperations := by
    decide
  exact (declares_iff (Option.some_get runs).symm).mpr short

end Message

end NetworkChat
