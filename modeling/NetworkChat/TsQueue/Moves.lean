import NetworkChat.TsQueue.Steps
import NetworkChat.Foundation.Locks

/-!
# What a step of the queue does

A producer goes through its places in one order, the consumer in an order that depends on
what it finds (`next`), and a place says which mutexes are held at it (`holds`). A step
of a producer works on a mutex, or inserts, or notifies (`producerMoves_of_step`); a step
of the consumer works on a mutex, or looks, or does its operation
(`consumerMoves_of_step`). Every invariant of the queue follows from these two.
-/

set_option autoImplicit false

namespace NetworkChat

open Foundation

variable {T : Type}

/-! ## Places -/

def ProducerPlace.holds : ProducerPlace T → Mutex → Bool
  | .idle, _ => false
  | .lockQueue _ _, _ => false
  | .insert _ _, mutex => mutex == .muxQueue
  | .lockWait, mutex => mutex == .muxQueue
  | .notify, _ => true
  | .unlockWait, _ => true
  | .unlockQueue, mutex => mutex == .muxQueue

/-- The place after a step of the producer. -/
def ProducerPlace.next : ProducerPlace T → ProducerPlace T
  | .idle => .idle
  | .lockQueue atFront msg => .insert atFront msg
  | .insert _ _ => .lockWait
  | .lockWait => .notify
  | .notify => .unlockWait
  | .unlockWait => .unlockQueue
  | .unlockQueue => .idle

def ConsumerPlace.holds : ConsumerPlace → Mutex → Bool
  | .idle, _ => false
  | .lockWait, _ => false
  | .lockQueueInWait, mutex => mutex == .muxWait
  | .emptyInWait, _ => true
  | .unlockQueueInWait _, _ => true
  | .cvWait, mutex => mutex == .muxWait
  | .asleep, _ => false
  | .relockWait, _ => false
  | .unlockWait, mutex => mutex == .muxWait
  | .lockQueue _, _ => false
  | .operate _, mutex => mutex == .muxQueue
  | .unlockQueue, mutex => mutex == .muxQueue

/-- The place after a step of the consumer, when the queue is empty or not. -/
def ConsumerPlace.next (isEmpty : Bool) : ConsumerPlace → ConsumerPlace
  | .idle => .idle
  | .lockWait => .lockQueueInWait
  | .lockQueueInWait => .emptyInWait
  | .emptyInWait => .unlockQueueInWait isEmpty
  | .unlockQueueInWait wasEmpty => if wasEmpty then .cvWait else .unlockWait
  | .cvWait => .asleep
  | .asleep => .asleep
  | .relockWait => .lockQueueInWait
  | .unlockWait => .idle
  | .lockQueue op => .operate op
  | .operate _ => .unlockQueue
  | .unlockQueue => .idle

namespace TsQueue

/-! ## What a step does -/

/-- What a step of the producer does: it goes to its next place and works on a mutex, or
inserts, or notifies. -/
structure ProducerMoves (queue : TsQueue T) (index : ℕ) (next : TsQueue T) : Prop where
  producers : next.producers =
    Function.update queue.producers index (queue.producers index).next
  mutexes : LockMove (.producer index) queue.holder (queue.producers index).holds next.holder
    (queue.producers index).next.holds
  fault : next.fault = queue.fault
  effect : (∃ atFront msg, queue.producers index = .insert atFront msg ∧
      next.deqQueue = queue.pushed atFront msg ∧ next.consumer = queue.consumer) ∨
    (queue.producers index = .notify ∧ next.deqQueue = queue.deqQueue ∧
      next.consumer = if queue.consumer = .asleep then .relockWait else queue.consumer) ∨
    ((∀ atFront msg, queue.producers index ≠ .insert atFront msg) ∧
      queue.producers index ≠ .notify ∧ next.deqQueue = queue.deqQueue ∧
        next.consumer = queue.consumer)

/-- **What a step of a producer does.** -/
theorem producerMoves_of_step {queue next : TsQueue T} {index : ℕ}
    (taken : queue.producerStep index = some next) : ProducerMoves queue index next := by
  simp only [producerStep] at taken
  cases place : queue.producers index with
  | idle => simp only [place] at taken; cases taken
  | lockQueue atFront msg =>
      simp only [place] at taken
      obtain ⟨after, lockTaken, rfl⟩ := Option.map_eq_some_iff.mp taken
      obtain ⟨free, rfl⟩ := lock_eq_some lockTaken
      refine ⟨by rw [place]; rfl, ?_, rfl, .inr (.inr ⟨by simp [place], by simp [place], rfl, rfl⟩)⟩
      rw [place]
      exact .acquire .muxQueue free rfl (by funext mutex; cases mutex <;> rfl)
  | insert atFront msg =>
      simp only [place] at taken
      cases taken
      refine ⟨by rw [place]; rfl, ?_, rfl, .inl ⟨atFront, msg, place, rfl, rfl⟩⟩
      rw [place]
      exact .keep rfl rfl
  | lockWait =>
      simp only [place] at taken
      obtain ⟨after, lockTaken, rfl⟩ := Option.map_eq_some_iff.mp taken
      obtain ⟨free, rfl⟩ := lock_eq_some lockTaken
      refine ⟨by rw [place]; rfl, ?_, rfl, .inr (.inr ⟨by simp [place], by simp [place], rfl, rfl⟩)⟩
      rw [place]
      exact .acquire .muxWait free rfl (by funext mutex; cases mutex <;> rfl)
  | notify =>
      simp only [place] at taken
      cases taken
      by_cases asleep : queue.consumer = .asleep
      · rw [notifyOne, if_pos asleep]
        refine ⟨by rw [place]; rfl, ?_, rfl, .inr (.inl ⟨place, rfl, (if_pos asleep).symm⟩)⟩
        rw [place]
        exact .keep rfl rfl
      · rw [notifyOne, if_neg asleep]
        refine ⟨by rw [place]; rfl, ?_, rfl, .inr (.inl ⟨place, rfl, (if_neg asleep).symm⟩)⟩
        rw [place]
        exact .keep rfl rfl
  | unlockWait =>
      simp only [place] at taken
      cases taken
      refine ⟨by rw [place]; rfl, ?_, rfl, .inr (.inr ⟨by simp [place], by simp [place], rfl, rfl⟩)⟩
      rw [place]
      exact .release .muxWait rfl rfl (by funext mutex; cases mutex <;> rfl)
  | unlockQueue =>
      simp only [place] at taken
      cases taken
      refine ⟨by rw [place]; rfl, ?_, rfl, .inr (.inr ⟨by simp [place], by simp [place], rfl, rfl⟩)⟩
      rw [place]
      exact .release .muxQueue rfl rfl (by funext mutex; cases mutex <;> rfl)

/-- A notification moves the consumer between two places that hold nothing. -/
theorem ProducerMoves.sameHolds {queue next : TsQueue T} {index : ℕ}
    (moves : ProducerMoves queue index next) : next.consumer.holds = queue.consumer.holds := by
  rcases moves.effect with ⟨-, -, -, -, same⟩ | ⟨-, -, consumer⟩ | ⟨-, -, -, same⟩
  · rw [same]
  · rw [consumer]
    split
    · rename_i asleep
      rw [asleep]
      rfl
    · rfl
  · rw [same]

/-- What a step of the consumer does: it goes to its next place and works on a mutex; only
an operation works on the elements. -/
structure ConsumerMoves (queue next : TsQueue T) : Prop where
  consumer : next.consumer = queue.consumer.next queue.deqQueue.isEmpty
  producers : next.producers = queue.producers
  mutexes : LockMove .consumer queue.holder queue.consumer.holds next.holder next.consumer.holds
  elements : (∀ op, queue.consumer ≠ .operate op) →
    next.deqQueue = queue.deqQueue ∧ next.fault = queue.fault

/-- The consumer locks a mutex. -/
theorem ConsumerMoves.lock {queue next : TsQueue T} {mutex : Mutex} {place : ConsumerPlace}
    (taken : (queue.lock mutex .consumer).map (·.setConsumer place) = some next)
    (goes : place = queue.consumer.next queue.deqQueue.isEmpty)
    (follows : place.holds = Function.update queue.consumer.holds mutex true) :
    ConsumerMoves queue next := by
  obtain ⟨after, lockTaken, rfl⟩ := Option.map_eq_some_iff.mp taken
  obtain ⟨free, rfl⟩ := lock_eq_some lockTaken
  exact ⟨goes, rfl, .acquire mutex free rfl follows, fun _ => ⟨rfl, rfl⟩⟩

/-- The consumer unlocks a mutex. -/
theorem ConsumerMoves.unlock {queue : TsQueue T} {mutex : Mutex} {place : ConsumerPlace}
    (goes : place = queue.consumer.next queue.deqQueue.isEmpty)
    (has : queue.consumer.holds mutex = true)
    (follows : place.holds = Function.update queue.consumer.holds mutex false) :
    ConsumerMoves queue ((queue.unlock mutex).setConsumer place) :=
  ⟨goes, rfl, .release mutex has rfl follows, fun _ => ⟨rfl, rfl⟩⟩

/-- **What a step of the consumer does.** -/
theorem consumerMoves_of_step {queue next : TsQueue T} (taken : queue.consumerStep = some next) :
    ConsumerMoves queue next := by
  simp only [consumerStep] at taken
  cases place : queue.consumer with
  | idle => simp only [place] at taken; cases taken
  | asleep => simp only [place] at taken; cases taken
  | lockWait =>
      simp only [place] at taken
      refine .lock taken (by rw [place]; rfl) ?_
      rw [place]
      funext mutex
      cases mutex <;> rfl
  | relockWait =>
      simp only [place] at taken
      refine .lock taken (by rw [place]; rfl) ?_
      rw [place]
      funext mutex
      cases mutex <;> rfl
  | lockQueueInWait =>
      simp only [place] at taken
      refine .lock taken (by rw [place]; rfl) ?_
      rw [place]
      funext mutex
      cases mutex <;> rfl
  | lockQueue op =>
      simp only [place] at taken
      refine .lock taken (by rw [place]; rfl) ?_
      rw [place]
      funext mutex
      cases mutex <;> rfl
  | emptyInWait =>
      simp only [place] at taken
      cases taken
      exact ⟨by rw [place]; rfl, rfl, .keep rfl (by rw [place]; rfl), fun _ => ⟨rfl, rfl⟩⟩
  | operate op =>
      simp only [place] at taken
      cases taken
      refine ⟨by rw [place]; rfl, ?_, .keep ?_ (by rw [place]; rfl), fun quiet => ?_⟩
      · cases op with
        | popFront => simp only [operate, setConsumer]; split <;> rfl
        | _ => rfl
      · cases op with
        | popFront => simp only [operate, setConsumer]; split <;> rfl
        | _ => rfl
      · exact absurd place (quiet op)
  | unlockQueueInWait isEmpty =>
      simp only [place] at taken
      cases taken
      refine .unlock (by rw [place]; rfl) (by rw [place]; rfl) ?_
      rw [place]
      funext mutex
      cases isEmpty <;> cases mutex <;> rfl
  | cvWait =>
      simp only [place] at taken
      cases taken
      refine .unlock (by rw [place]; rfl) (by rw [place]; rfl) ?_
      rw [place]
      funext mutex
      cases mutex <;> rfl
  | unlockWait =>
      simp only [place] at taken
      cases taken
      refine .unlock (by rw [place]; rfl) (by rw [place]; rfl) ?_
      rw [place]
      funext mutex
      cases mutex <;> rfl
  | unlockQueue =>
      simp only [place] at taken
      cases taken
      refine .unlock (by rw [place]; rfl) (by rw [place]; rfl) ?_
      rw [place]
      funext mutex
      cases mutex <;> rfl

end TsQueue

end NetworkChat
