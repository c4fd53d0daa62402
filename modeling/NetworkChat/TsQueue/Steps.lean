import NetworkChat.Message
import Mathlib.Logic.Function.Basic

/-!
# The thread-safe queue in atomic steps

`tsqueue` (`net_tsqueue.h`), with any number of threads that push and one thread
that waits, looks and pops. A step of a thread locks a mutex, unlocks one, works on
the deque, or waits and notifies; a thread that asks for a mutex held by another
one has no step. The order of the steps is free.

* `push_back` and `push_front` lock `muxQueue`, insert, lock `muxWait` as well,
  notify, and unlock in the opposite order.
* `wait` locks `muxWait` and calls `empty`, which locks `muxQueue`, until the queue
  is not empty. In between, `cv.wait` gives `muxWait` back and falls asleep in one
  step, and takes it again after it was woken, by a notification or for no reason.
* `empty`, `count`, `clear` and `pop_front` lock `muxQueue` only.
-/

set_option autoImplicit false

namespace NetworkChat

inductive Mutex where
  | muxQueue
  | muxWait
  deriving DecidableEq, Repr

/-- The thread that waits, and the threads that push. -/
inductive Thread where
  | consumer
  | producer (index : ℕ)
  deriving DecidableEq, Repr

/-- The place of a producer in `push_back` or `push_front`. -/
inductive ProducerPlace (T : Type) where
  | idle
  /-- About to lock `muxQueue`. -/
  | lockQueue (atFront : Bool) (msg : T)
  | insert (atFront : Bool) (msg : T)
  /-- About to lock `muxWait`. -/
  | lockWait
  | notify
  | unlockWait
  | unlockQueue
  deriving DecidableEq, Repr

/-- The operations that lock `muxQueue` only. -/
inductive QueueOp where
  | empty
  | count
  | clear
  | popFront
  deriving DecidableEq, Repr

/-- The place of the consumer. -/
inductive ConsumerPlace where
  | idle
  /-- In `wait`, about to lock `muxWait`. -/
  | lockWait
  /-- In `empty` called by `wait`, about to lock `muxQueue`. -/
  | lockQueueInWait
  | emptyInWait
  | unlockQueueInWait (isEmpty : Bool)
  /-- About to call `cv.wait`. -/
  | cvWait
  /-- Asleep in `cv.wait`. -/
  | asleep
  /-- Woken in `cv.wait`, about to lock `muxWait` again. -/
  | relockWait
  | unlockWait
  /-- About to lock `muxQueue` for an operation. -/
  | lockQueue (op : QueueOp)
  | operate (op : QueueOp)
  | unlockQueue
  deriving DecidableEq, Repr

structure TsQueue (T : Type) where
  deqQueue : List T
  /-- Who holds a mutex. -/
  holder : Mutex → Option Thread
  consumer : ConsumerPlace
  producers : ℕ → ProducerPlace T
  fault : Option Fault

namespace TsQueue

variable {T : Type}

def start : TsQueue T := ⟨[], fun _ => none, .idle, fun _ => .idle, none⟩

def setProducer (queue : TsQueue T) (index : ℕ) (place : ProducerPlace T) : TsQueue T :=
  { queue with producers := Function.update queue.producers index place }

def setConsumer (queue : TsQueue T) (place : ConsumerPlace) : TsQueue T :=
  { queue with consumer := place }

/-- Lock a mutex, if nobody holds it. -/
def lock (queue : TsQueue T) (mutex : Mutex) (thread : Thread) : Option (TsQueue T) :=
  if queue.holder mutex = none then
    some { queue with holder := Function.update queue.holder mutex (some thread) }
  else none

def unlock (queue : TsQueue T) (mutex : Mutex) : TsQueue T :=
  { queue with holder := Function.update queue.holder mutex none }

/-- `cv.notify_one`: it wakes the consumer, if it is asleep. -/
def notifyOne (queue : TsQueue T) : TsQueue T :=
  if queue.consumer = .asleep then queue.setConsumer .relockWait else queue

def pushed (queue : TsQueue T) (atFront : Bool) (msg : T) : List T :=
  if atFront then msg :: queue.deqQueue else queue.deqQueue ++ [msg]

/-- The next step of a producer. -/
def producerStep (queue : TsQueue T) (index : ℕ) : Option (TsQueue T) :=
  match queue.producers index with
  | .idle => none
  | .lockQueue atFront msg =>
      (queue.lock .muxQueue (.producer index)).map (·.setProducer index (.insert atFront msg))
  | .insert atFront msg =>
      some ({ queue with deqQueue := queue.pushed atFront msg }.setProducer index .lockWait)
  | .lockWait => (queue.lock .muxWait (.producer index)).map (·.setProducer index .notify)
  | .notify => some (queue.notifyOne.setProducer index .unlockWait)
  | .unlockWait => some ((queue.unlock .muxWait).setProducer index .unlockQueue)
  | .unlockQueue => some ((queue.unlock .muxQueue).setProducer index .idle)

/-- What an operation does to the deque. The front of an empty deque is
undefined. -/
def operate (queue : TsQueue T) : QueueOp → TsQueue T
  | .empty => queue
  | .count => queue
  | .clear => { queue with deqQueue := [] }
  | .popFront =>
      match queue.deqQueue with
      | [] => { queue with fault := some .emptyDeque }
      | _ :: rest => { queue with deqQueue := rest }

/-- The next step of the consumer. -/
def consumerStep (queue : TsQueue T) : Option (TsQueue T) :=
  match queue.consumer with
  | .idle => none
  | .lockWait => (queue.lock .muxWait .consumer).map (·.setConsumer .lockQueueInWait)
  | .lockQueueInWait => (queue.lock .muxQueue .consumer).map (·.setConsumer .emptyInWait)
  | .emptyInWait => some (queue.setConsumer (.unlockQueueInWait queue.deqQueue.isEmpty))
  | .unlockQueueInWait isEmpty =>
      some ((queue.unlock .muxQueue).setConsumer (if isEmpty then .cvWait else .unlockWait))
  | .cvWait => some ((queue.unlock .muxWait).setConsumer .asleep)
  | .asleep => none
  | .relockWait => (queue.lock .muxWait .consumer).map (·.setConsumer .lockQueueInWait)
  | .unlockWait => some ((queue.unlock .muxWait).setConsumer .idle)
  | .lockQueue op => (queue.lock .muxQueue .consumer).map (·.setConsumer (.operate op))
  | .operate op => some ((queue.operate op).setConsumer .unlockQueue)
  | .unlockQueue => some ((queue.unlock .muxQueue).setConsumer .idle)

inductive Event (T : Type) where
  /-- An idle producer calls `push_back` or `push_front`. -/
  | push (index : ℕ) (atFront : Bool) (msg : T)
  /-- The idle consumer calls `wait`. -/
  | wait
  /-- The idle consumer calls another operation. -/
  | call (op : QueueOp)
  | producer (index : ℕ)
  | consumer
  /-- `cv.wait` wakes up for no reason. -/
  | spuriousWakeup
  deriving DecidableEq, Repr

/-- The next state, if the event can happen. -/
def act (queue : TsQueue T) : Event T → Option (TsQueue T)
  | .push index atFront msg =>
      match queue.producers index with
      | .idle => some (queue.setProducer index (.lockQueue atFront msg))
      | _ => none
  | .wait => if queue.consumer = .idle then some (queue.setConsumer .lockWait) else none
  | .call op => if queue.consumer = .idle then some (queue.setConsumer (.lockQueue op)) else none
  | .producer index => queue.producerStep index
  | .consumer => queue.consumerStep
  | .spuriousWakeup =>
      if queue.consumer = .asleep then some (queue.setConsumer .relockWait) else none

/-- One step. Nothing happens after a fault. -/
def step (queue : TsQueue T) (event : Event T) : Option (TsQueue T) :=
  match queue.fault with
  | some _ => none
  | none => queue.act event

theorem step_eq_some {queue next : TsQueue T} {event : Event T}
    (taken : queue.step event = some next) : queue.act event = some next := by
  cases fault : queue.fault with
  | none => simpa only [step, fault] using taken
  | some _ => simp only [step, fault] at taken; cases taken

theorem lock_eq_some {queue next : TsQueue T} {mutex : Mutex} {thread : Thread}
    (taken : queue.lock mutex thread = some next) :
    queue.holder mutex = none ∧
      next = { queue with holder := Function.update queue.holder mutex (some thread) } := by
  simp only [lock] at taken
  split at taken
  case isTrue free => cases taken; exact ⟨free, rfl⟩
  case isFalse => cases taken

end TsQueue

end NetworkChat
