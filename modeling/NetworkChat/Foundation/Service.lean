import NetworkChat.Foundation.Runs

/-!
# A loop that one thread runs

A thread is launched for a loop, and the loop hands out work until it is stopped or no work is
left. A loop that has ended stays ended: a thread that is launched for it again returns at once. As
long as a thread is not joined there is no place for another one.

What the steps keep once the loop has ended is kept for good (`kept_after_end`).
-/

set_option autoImplicit false

namespace NetworkChat.Foundation

/-- A loop and the thread that runs it. -/
inductive Service where
  /-- No thread was launched yet. -/
  | fresh
  /-- The thread is in the loop. -/
  | running
  /-- The loop has ended, and the thread is not joined. -/
  | ended
  /-- The loop has ended, and there is no thread. -/
  | joined
  deriving DecidableEq, Repr

namespace Service

/-- A thread was launched and is not joined. -/
def joinable : Service → Bool
  | .running => true
  | .ended => true
  | _ => false

/-- The loop hands out no work any more. -/
def isStopped : Service → Bool
  | .ended => true
  | .joined => true
  | _ => false

/-- A thread is launched, if there is a place for it. -/
def launch : Service → Option Service
  | .fresh => some .running
  | .joined => some .ended
  | _ => none

/-- The loop is stopped and the thread joined. -/
def halt (_ : Service) : Service := .joined

/-- No work is left. -/
def exhaust : Service → Service
  | .running => .ended
  | service => service

/-- What may become of a service. -/
inductive Moves : Service → Service → Prop where
  | stays (service : Service) : Moves service service
  | launched {service next : Service} (place : service.launch = some next) : Moves service next
  | halted (service : Service) : Moves service service.halt
  | exhausted (service : Service) : Moves service service.exhaust

/-- There is a place for a thread exactly if none is joinable. -/
theorem launch_eq_none_iff {service : Service} :
    service.launch = none ↔ service.joinable = true := by
  cases service <;> simp [launch, joinable]

theorem joinable_of_launch {service next : Service} (place : service.launch = some next) :
    next.joinable = true := by
  cases service <;> cases place <;> rfl

/-- The thread that is launched for a loop that has not ended is the first one. -/
theorem fresh_of_launch {service next : Service} (place : service.launch = some next)
    (goesOn : service.isStopped = false) : service = .fresh := by
  cases service with
  | fresh => rfl
  | running => cases place
  | ended => cases place
  | joined => cases goesOn

/-- A loop that runs out of work leaves its thread to be joined. -/
theorem joinable_exhaust (service : Service) : service.exhaust.joinable = service.joinable := by
  cases service <;> rfl

theorem not_stopped_of_running {service : Service} (running : service = .running) :
    service.isStopped = false := by
  rw [running]
  rfl

/-- A loop that has ended stays ended. -/
theorem Moves.isStopped {service next : Service} (moves : Moves service next)
    (stopped : service.isStopped = true) : next.isStopped = true := by
  cases moves with
  | stays => exact stopped
  | launched place => cases service <;> cases place <;> first | rfl | exact stopped
  | halted => rfl
  | exhausted => cases service <;> first | rfl | exact stopped

/-- A loop that goes on has not ended before. -/
theorem Moves.goesOn {service next : Service} (moves : Moves service next)
    (goesOn : next.isStopped = false) : service.isStopped = false := by
  rw [Bool.eq_false_iff]
  intro stopped
  rw [moves.isStopped stopped] at goesOn
  cases goesOn

/-- No service becomes fresh. -/
theorem Moves.eq_fresh {service next : Service} (moves : Moves service next)
    (fresh : next = .fresh) : service = .fresh := by
  subst fresh
  cases service <;> first | rfl | (rcases moves with _ | place | _ | _; cases place)

section Runs

variable {State Event : Type*} {step : State → Event → Option State} {service : State → Service}

/-- **What the steps keep once the loop has ended is kept for good.** -/
theorem kept_after_end {holds : State → Prop} {state final : State} {events : List Event}
    (moves : ∀ state event next, step state event = some next →
      Moves (service state) (service next))
    (keeps : ∀ state event next, (service state).isStopped = true → holds state →
      step state event = some next → holds next)
    (stopped : (service state).isStopped = true) (begins : holds state)
    (run : runFrom step state events = some final) :
    (service final).isStopped = true ∧ holds final := by
  have both : ∀ state event next, ((service state).isStopped = true ∧ holds state) →
      step state event = some next → ((service next).isStopped = true ∧ holds next) := by
    rintro state event next ⟨stopped, held⟩ taken
    exact ⟨(moves state event next taken).isStopped stopped,
      keeps state event next stopped held taken⟩
  exact invariant_of_run both ⟨stopped, begins⟩ run

end Runs

end Service

end NetworkChat.Foundation
