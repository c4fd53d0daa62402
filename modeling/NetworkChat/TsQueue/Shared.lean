import NetworkChat.Foundation.Atomic
import NetworkChat.Foundation.Locks
import NetworkChat.TsQueue.Steps

/-!
# The queue and any number of threads

`tsqueue` (`net_tsqueue.h`) with all its functions, and threads that call any of them: several may
wait and several may pop. As in `TsQueue`, a step locks a mutex, unlocks one, works on the deque,
or waits and notifies; the order of the steps of different threads is free.

* An operation that locks `muxQueue` works on the deque while it holds it. `pop_front` and
  `pop_back` work in two steps: they move the element out, which leaves something else in its place
  (`movedFrom`), and then remove it.
* `push_back` and `push_front` lock `muxWait` as well after they have inserted, notify, and unlock
  both.
* `wait` locks `muxWait`, calls `empty` until it is not, and sleeps in between. `notify_one` wakes
  one of the threads that sleep; which one, nobody says.

The references that `front` and `back` return stand for the element that they refer to then.
-/

set_option autoImplicit false

namespace NetworkChat

open Foundation

namespace SharedQueue

/-- The functions of the queue. -/
inductive Operation (T : Type) where
  | front
  | back
  | pushBack (msg : T)
  | pushFront (msg : T)
  | empty
  | clear
  | count
  | popFront
  | popBack
  | wait
  deriving DecidableEq, Repr

/-- What an operation returns. -/
inductive Value (T : Type) where
  | nothing
  | isEmpty (answer : Bool)
  | size (count : ℕ)
  | message (msg : T)
  deriving DecidableEq, Repr

/-- The place of a thread. -/
inductive Place (T : Type) where
  | idle
  /-- About to lock `muxQueue`. -/
  | lockQueue (operation : Operation T)
  /-- Holding `muxQueue`, about to work on the deque. -/
  | work (operation : Operation T)
  /-- In `pop_front` or `pop_back`, with the element moved out and not yet removed. -/
  | remove (atFront : Bool) (msg : T)
  /-- In `push_back` or `push_front`, about to lock `muxWait`. -/
  | lockWait (operation : Operation T)
  | notify (operation : Operation T)
  | unlockWait (operation : Operation T)
  | unlockQueue (operation : Operation T) (value : Value T)
  /-- In `wait`, about to lock `muxWait`. -/
  | waitLock
  /-- In `empty` called by `wait`, about to lock `muxQueue`. -/
  | waitLockQueue
  | waitEmpty
  | waitUnlockQueue (isEmpty : Bool)
  /-- About to call `cv.wait`. -/
  | waitCv
  | waitAsleep
  /-- Woken in `cv.wait`, about to lock `muxWait` again. -/
  | waitRelock
  | waitUnlock
  /-- Everything is unlocked. -/
  | leave (operation : Operation T) (value : Value T)
  deriving DecidableEq, Repr

end SharedQueue

structure SharedQueue (T : Type) where
  deqQueue : List T
  /-- Who holds a mutex. -/
  holder : Mutex → Option ℕ
  /-- The threads that sleep on `cv`. -/
  sleepers : List ℕ
  place : ℕ → SharedQueue.Place T
  fault : Option Fault

namespace SharedQueue

variable {T : Type}

def start : SharedQueue T := ⟨[], fun _ => none, [], fun _ => .idle, none⟩

def setPlace (queue : SharedQueue T) (thread : ℕ) (place : Place T) : SharedQueue T :=
  { queue with place := Function.update queue.place thread place }

/-- Lock a mutex, if nobody holds it. -/
def lock (queue : SharedQueue T) (mutex : Mutex) (thread : ℕ) : Option (SharedQueue T) :=
  if queue.holder mutex = none then
    some { queue with holder := Function.update queue.holder mutex (some thread) }
  else none

def unlock (queue : SharedQueue T) (mutex : Mutex) : SharedQueue T :=
  { queue with holder := Function.update queue.holder mutex none }

/-- What an operation does to the deque while it holds `muxQueue`, and the place where it goes on.
The front and the back of an empty deque are undefined. -/
def operate (movedFrom : T → T) (queue : SharedQueue T) (thread : ℕ) (operation : Operation T) :
    SharedQueue T :=
  match operation with
  | .front =>
      match queue.deqQueue.head? with
      | some msg => queue.setPlace thread (.unlockQueue .front (.message msg))
      | none => { queue with fault := some .emptyDeque }
  | .back =>
      match queue.deqQueue.getLast? with
      | some msg => queue.setPlace thread (.unlockQueue .back (.message msg))
      | none => { queue with fault := some .emptyDeque }
  | .pushBack msg =>
      { queue with deqQueue := queue.deqQueue ++ [msg] }.setPlace thread (.lockWait (.pushBack msg))
  | .pushFront msg =>
      { queue with deqQueue := msg :: queue.deqQueue }.setPlace thread (.lockWait (.pushFront msg))
  | .empty =>
      queue.setPlace thread (.unlockQueue .empty (.isEmpty queue.deqQueue.isEmpty))
  | .clear => { queue with deqQueue := [] }.setPlace thread (.unlockQueue .clear .nothing)
  | .count => queue.setPlace thread (.unlockQueue .count (.size queue.deqQueue.length))
  | .popFront =>
      match queue.deqQueue.head? with
      | some msg =>
          { queue with deqQueue := movedFrom msg :: queue.deqQueue.tail }.setPlace thread
            (.remove true msg)
      | none => { queue with fault := some .emptyDeque }
  | .popBack =>
      match queue.deqQueue.getLast? with
      | some msg =>
          { queue with deqQueue := queue.deqQueue.dropLast ++ [movedFrom msg] }.setPlace thread
            (.remove false msg)
      | none => { queue with fault := some .emptyDeque }
  | .wait => queue

/-- The next step of a thread, other than notifying, sleeping and returning. -/
def threadStep (movedFrom : T → T) (queue : SharedQueue T) (thread : ℕ) :
    Option (SharedQueue T) :=
  match queue.place thread with
  | .idle => none
  | .lockQueue operation => (queue.lock .muxQueue thread).map (·.setPlace thread (.work operation))
  | .work operation => some (queue.operate movedFrom thread operation)
  | .remove true msg =>
      some ({ queue with deqQueue := queue.deqQueue.tail }.setPlace thread
        (.unlockQueue .popFront (.message msg)))
  | .remove false msg =>
      some ({ queue with deqQueue := queue.deqQueue.dropLast }.setPlace thread
        (.unlockQueue .popBack (.message msg)))
  | .lockWait operation => (queue.lock .muxWait thread).map (·.setPlace thread (.notify operation))
  | .notify _ => none
  | .unlockWait operation =>
      some ((queue.unlock .muxWait).setPlace thread (.unlockQueue operation .nothing))
  | .unlockQueue operation value =>
      some ((queue.unlock .muxQueue).setPlace thread (.leave operation value))
  | .waitLock => (queue.lock .muxWait thread).map (·.setPlace thread .waitLockQueue)
  | .waitLockQueue => (queue.lock .muxQueue thread).map (·.setPlace thread .waitEmpty)
  | .waitEmpty => some (queue.setPlace thread (.waitUnlockQueue queue.deqQueue.isEmpty))
  | .waitUnlockQueue isEmpty =>
      some ((queue.unlock .muxQueue).setPlace thread (if isEmpty then .waitCv else .waitUnlock))
  | .waitCv =>
      some ({ queue.unlock .muxWait with sleepers := queue.sleepers ++ [thread] }.setPlace thread
        .waitAsleep)
  | .waitAsleep => none
  | .waitRelock => (queue.lock .muxWait thread).map (·.setPlace thread .waitLockQueue)
  | .waitUnlock => some ((queue.unlock .muxWait).setPlace thread (.leave .wait .nothing))
  | .leave _ _ => none

/-- A sleeping thread wakes up. -/
def wake (queue : SharedQueue T) (thread : ℕ) : SharedQueue T :=
  { queue with sleepers := queue.sleepers.erase thread }.setPlace thread .waitRelock

inductive Event (T : Type) where
  /-- An idle thread calls an operation. -/
  | call (thread : ℕ) (operation : Operation T)
  | thread (thread : ℕ)
  /-- `cv.notify_one` wakes one thread, if one sleeps. -/
  | notifyOne (thread : ℕ) (woken : Option ℕ)
  /-- `cv.wait` wakes up for no reason. -/
  | spuriousWakeup (thread : ℕ)
  /-- An operation returns. -/
  | ret (thread : ℕ)
  deriving DecidableEq, Repr

/-- The next state, if the event can happen. -/
def act (movedFrom : T → T) (queue : SharedQueue T) : Event T → Option (SharedQueue T)
  | .call thread operation =>
      match queue.place thread, operation with
      | .idle, .wait => some (queue.setPlace thread .waitLock)
      | .idle, operation => some (queue.setPlace thread (.lockQueue operation))
      | _, _ => none
  | .thread thread => queue.threadStep movedFrom thread
  | .notifyOne thread woken =>
      match queue.place thread, woken with
      | .notify operation, none =>
          if queue.sleepers = [] then some (queue.setPlace thread (.unlockWait operation)) else none
      | .notify operation, some sleeper =>
          if sleeper ∈ queue.sleepers then
            some ((queue.wake sleeper).setPlace thread (.unlockWait operation))
          else none
      | _, _ => none
  | .spuriousWakeup thread => if thread ∈ queue.sleepers then some (queue.wake thread) else none
  | .ret thread =>
      match queue.place thread with
      | .leave _ _ => some (queue.setPlace thread .idle)
      | _ => none

/-- One step. Nothing happens after a fault. -/
def step (movedFrom : T → T) (queue : SharedQueue T) (event : Event T) : Option (SharedQueue T) :=
  match queue.fault with
  | some _ => none
  | none => queue.act movedFrom event

end SharedQueue

end NetworkChat
