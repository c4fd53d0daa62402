import NetworkChat.Connection.Handlers

/-!
# A connection and the loop of its context

The handlers of a connection run on the thread that is in `m_context.run()`. Without it the calls
of `Send` and `Disconnect` still post their lambdas, and bytes still arrive at the socket
(`Unserved`). The loop returns when a connection has nothing left for it to do (`OutOfWork`).
-/

set_option autoImplicit false

namespace NetworkChat

open Foundation

namespace Connection

variable {T : Type}

/-- The step is taken on the thread that is in the loop. -/
def IoEvent.ofLoop : IoEvent T → Bool
  | .send _ => false
  | .disconnect => false
  | .arrive _ => false
  | _ => true

/-- No operation is outstanding, and no lambda is posted. -/
def OutOfWork (c : Connection T) : Prop :=
  c.connecting = false ∧ c.reading.isNone = true ∧ c.writing.isEmpty = true ∧
    c.posted.isEmpty = true

instance (c : Connection T) : Decidable (OutOfWork c) := inferInstanceAs (Decidable (_ ∧ _))

/-- What becomes of a connection without the loop: lambdas are posted and bytes arrive. -/
def Unserved (c d : Connection T) : Prop :=
  ∃ lambdas bytes, d = { c with posted := c.posted ++ lambdas, inbox := c.inbox ++ bytes }

namespace Unserved

variable {c d e : Connection T}

theorem refl (c : Connection T) : Unserved c c :=
  ⟨[], [], by rw [List.append_nil, List.append_nil]⟩

theorem trans (first : Unserved c d) (second : Unserved d e) : Unserved c e := by
  obtain ⟨lambdas, bytes, rfl⟩ := first
  obtain ⟨moreLambdas, moreBytes, rfl⟩ := second
  exact ⟨lambdas ++ moreLambdas, bytes ++ moreBytes, by simp only [List.append_assoc]⟩

theorem foldl_send (c : Connection T) (msgs : List (Message T)) :
    Unserved c (msgs.foldl Connection.send c) := by
  rw [Connection.foldl_send]
  exact ⟨msgs.map .send, [], by rw [List.append_nil]⟩

theorem send (c : Connection T) (msg : Message T) : Unserved c (c.send msg) :=
  foldl_send c [msg]

theorem disconnect (c : Connection T) : Unserved c c.disconnect := by
  rw [Connection.disconnect]
  split
  · exact ⟨[.close], [], by rw [List.append_nil]⟩
  · exact refl c

/-- A step that is not taken on the thread of the loop. -/
theorem of_act [FullLayout T] {event : IoEvent T} (notLoop : event.ofLoop = false)
    (acted : c.act event = some d) : Unserved c d := by
  cases event with
  | send msg => cases acted; exact send c msg
  | disconnect => cases acted; exact disconnect c
  | arrive piece =>
      obtain ⟨-, rfl⟩ := act_arrive acted
      exact ⟨[], piece, by rw [List.append_nil]⟩
  | _ => cases notLoop

end Unserved

end Connection

end NetworkChat
