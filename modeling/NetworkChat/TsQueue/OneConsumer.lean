import NetworkChat.Foundation.Runs
import NetworkChat.TsQueue.Shared

/-!
# The thread that waits is one of many

`TsQueue` has one thread that waits and pops, and threads that push. `SharedQueue` has threads that
call any function, keeps what a function returns and takes two steps for a pop, so it is the larger
system of the two. With the consumer as its first thread and the producers as the next ones
(`Thread.number`) it can show the same deque, the same holders and the same places (`Shows`). A step
of `TsQueue` is one step of `SharedQueue` then, or two (`Shows.step`), and a run of `TsQueue` is a
run of `SharedQueue` in which the same threads make the same calls (`refines_sharedQueue`).
-/

set_option autoImplicit false

namespace NetworkChat

open Foundation

variable {T : Type}

/-! ## Threads, calls and places -/

def Thread.number : Thread → ℕ
  | .consumer => 0
  | .producer index => index + 1

theorem Thread.number_ne (index : ℕ) : (Thread.producer index).number ≠ Thread.consumer.number :=
  Nat.succ_ne_zero index

def QueueOp.operation : QueueOp → SharedQueue.Operation T
  | .empty => .empty
  | .count => .count
  | .clear => .clear
  | .popFront => .popFront

/-- `push_front` or `push_back`. -/
def SharedQueue.Operation.push (atFront : Bool) (msg : T) : SharedQueue.Operation T :=
  if atFront then .pushFront msg else .pushBack msg

/-- The place of a producer among those of any thread. -/
inductive ProducerPlace.ShownAs : ProducerPlace T → SharedQueue.Place T → Prop where
  | idle : ShownAs .idle .idle
  | lockQueue (atFront : Bool) (msg : T) :
      ShownAs (.lockQueue atFront msg) (.lockQueue (.push atFront msg))
  | insert (atFront : Bool) (msg : T) : ShownAs (.insert atFront msg) (.work (.push atFront msg))
  | lockWait (operation : SharedQueue.Operation T) : ShownAs .lockWait (.lockWait operation)
  | notify (operation : SharedQueue.Operation T) : ShownAs .notify (.notify operation)
  | unlockWait (operation : SharedQueue.Operation T) : ShownAs .unlockWait (.unlockWait operation)
  | unlockQueue (operation : SharedQueue.Operation T) (value : SharedQueue.Value T) :
      ShownAs .unlockQueue (.unlockQueue operation value)

/-- The place of the consumer among those of any thread. -/
inductive ConsumerPlace.ShownAs : ConsumerPlace → SharedQueue.Place T → Prop where
  | idle : ShownAs .idle .idle
  | lockWait : ShownAs .lockWait .waitLock
  | lockQueueInWait : ShownAs .lockQueueInWait .waitLockQueue
  | emptyInWait : ShownAs .emptyInWait .waitEmpty
  | unlockQueueInWait (isEmpty : Bool) :
      ShownAs (.unlockQueueInWait isEmpty) (.waitUnlockQueue isEmpty)
  | cvWait : ShownAs .cvWait .waitCv
  | asleep : ShownAs .asleep .waitAsleep
  | relockWait : ShownAs .relockWait .waitRelock
  | unlockWait : ShownAs .unlockWait .waitUnlock
  | lockQueue (op : QueueOp) : ShownAs (.lockQueue op) (.lockQueue op.operation)
  | operate (op : QueueOp) : ShownAs (.operate op) (.work op.operation)
  | unlockQueue (operation : SharedQueue.Operation T) (value : SharedQueue.Value T) :
      ShownAs .unlockQueue (.unlockQueue operation value)

namespace SharedQueue

@[simp] theorem place_setPlace (queue : SharedQueue T) (thread : ℕ) (place : Place T) :
    (queue.setPlace thread place).place thread = place :=
  Function.update_self ..

theorem place_setPlace_of_ne (queue : SharedQueue T) {thread other : ℕ} (differs : other ≠ thread)
    (place : Place T) : (queue.setPlace thread place).place other = queue.place other :=
  Function.update_of_ne differs ..

@[simp] theorem setPlace_setPlace (queue : SharedQueue T) (thread : ℕ) (first second : Place T) :
    (queue.setPlace thread first).setPlace thread second = queue.setPlace thread second := by
  rw [setPlace, setPlace, setPlace, Function.update_idem]

/-- The call that an event is. -/
def Event.called? : Event T → Option (ℕ × Operation T)
  | .call caller operation => some (caller, operation)
  | _ => none

end SharedQueue

namespace TsQueue

/-- The call that an event is, in the words of `SharedQueue`. -/
def Event.called? : Event T → Option (ℕ × SharedQueue.Operation T)
  | .push index atFront msg => some (Thread.number (.producer index), .push atFront msg)
  | .wait => some (Thread.number .consumer, .wait)
  | .call op => some (Thread.number .consumer, op.operation)
  | _ => none

/-! ## The two queues side by side -/

/-- What the two have in common. A fault leaves the consumer where it was in one of them. -/
structure Shows (queue : TsQueue T) (shared : SharedQueue T) : Prop where
  deqQueue : shared.deqQueue = queue.deqQueue
  holder : ∀ mutex, shared.holder mutex = (queue.holder mutex).map Thread.number
  sleepers : shared.sleepers = if queue.consumer = .asleep then [Thread.number .consumer] else []
  consumer : queue.fault = none → queue.consumer.ShownAs (shared.place (Thread.number .consumer))
  producers : ∀ index,
    (queue.producers index).ShownAs (shared.place (Thread.number (.producer index)))
  fault : shared.fault = queue.fault

variable {queue next : TsQueue T} {shared : SharedQueue T}

theorem shows_start : Shows (start : TsQueue T) SharedQueue.start :=
  ⟨rfl, fun _ => rfl, rfl, fun _ => .idle, fun _ => .idle, rfl⟩

/-- The consumer goes on, awake. -/
theorem Shows.setConsumer (shows : Shows queue shared) {place : ConsumerPlace}
    {shown : SharedQueue.Place T} (awake : queue.consumer ≠ .asleep)
    (shownAs : place.ShownAs shown) (staysAwake : place ≠ .asleep) :
    Shows (queue.setConsumer place) (shared.setPlace (Thread.number .consumer) shown) := by
  obtain ⟨deqQueue, holder, sleepers, consumer, producers, fault⟩ := shows
  rw [if_neg awake] at sleepers
  refine ⟨deqQueue, holder, ?_, ?_, ?_, fault⟩
  · rw [TsQueue.setConsumer, if_neg staysAwake]
    exact sleepers
  · intro _
    rw [SharedQueue.place_setPlace]
    exact shownAs
  · intro index
    rw [SharedQueue.place_setPlace_of_ne _ (Thread.number_ne index)]
    exact producers index

/-- A producer goes on. -/
theorem Shows.setProducer (shows : Shows queue shared) {index : ℕ} {place : ProducerPlace T}
    {shown : SharedQueue.Place T} (shownAs : place.ShownAs shown) :
    Shows (queue.setProducer index place)
      (shared.setPlace (Thread.number (.producer index)) shown) := by
  obtain ⟨deqQueue, holder, sleepers, consumer, producers, fault⟩ := shows
  refine ⟨deqQueue, holder, sleepers, ?_, ?_, fault⟩
  · intro noFault
    rw [SharedQueue.place_setPlace_of_ne _ (Thread.number_ne index).symm]
    exact consumer noFault
  · intro other
    by_cases same : other = index
    · subst same
      have here : (queue.setProducer other place).producers other = place :=
        Function.update_self ..
      rw [SharedQueue.place_setPlace, here]
      exact shownAs
    · have differs : Thread.number (.producer other) ≠ Thread.number (.producer index) :=
        fun sameNumber => same (Nat.succ.inj sameNumber)
      have elsewhere : (queue.setProducer index place).producers other = queue.producers other :=
        Function.update_of_ne same ..
      rw [SharedQueue.place_setPlace_of_ne _ differs, elsewhere]
      exact producers other

/-- A mutex changes hands in both. -/
theorem Shows.holder_update (shows : Shows queue shared) (mutex : Mutex) (thread : Option Thread)
    (other : Mutex) :
    Function.update shared.holder mutex (thread.map Thread.number) other =
      (Function.update queue.holder mutex thread other).map Thread.number := by
  by_cases same : other = mutex
  · subst same
    rw [Function.update_self, Function.update_self]
  · rw [Function.update_of_ne same, Function.update_of_ne same]
    exact shows.holder other

/-- What one of them locks the other one can lock. -/
theorem Shows.lock (shows : Shows queue shared) {mutex : Mutex} {thread : Thread}
    (taken : queue.lock mutex thread = some next) :
    ∃ after, shared.lock mutex thread.number = some after ∧ next.consumer = queue.consumer ∧
      Shows next after := by
  obtain ⟨free, rfl⟩ := lock_eq_some taken
  have sharedFree : shared.holder mutex = none := by rw [shows.holder, free, Option.map_none]
  exact ⟨_, if_pos sharedFree, rfl,
    { shows with holder := shows.holder_update mutex (some thread) }⟩

theorem Shows.unlock (shows : Shows queue shared) (mutex : Mutex) :
    Shows (queue.unlock mutex) (shared.unlock mutex) :=
  { shows with holder := shows.holder_update mutex none }

theorem Shows.setDeque (shows : Shows queue shared) (deque : List T) :
    Shows { queue with deqQueue := deque } { shared with deqQueue := deque } :=
  { shows with deqQueue := rfl }

/-- The consumer wakes up. -/
theorem Shows.wake (shows : Shows queue shared) (asleep : queue.consumer = .asleep) :
    Shows (queue.setConsumer .relockWait) (shared.wake (Thread.number .consumer)) := by
  obtain ⟨deqQueue, holder, sleepers, consumer, producers, fault⟩ := shows
  rw [if_pos asleep] at sleepers
  refine ⟨deqQueue, holder, ?_, ?_, ?_, fault⟩
  · simp only [SharedQueue.wake, SharedQueue.setPlace, sleepers, TsQueue.setConsumer]
    rfl
  · intro _
    rw [SharedQueue.wake, SharedQueue.place_setPlace]
    exact .relockWait
  · intro index
    rw [SharedQueue.wake, SharedQueue.place_setPlace_of_ne _ (Thread.number_ne index)]
    exact producers index

/-- The consumer falls asleep. -/
theorem Shows.sleep (shows : Shows queue shared) (awake : queue.consumer ≠ .asleep) :
    Shows (queue.setConsumer .asleep)
      ({ shared with sleepers := shared.sleepers ++ [Thread.number .consumer] }.setPlace
        (Thread.number .consumer) .waitAsleep) := by
  obtain ⟨deqQueue, holder, sleepers, consumer, producers, fault⟩ := shows
  rw [if_neg awake] at sleepers
  refine ⟨deqQueue, holder, ?_, ?_, ?_, fault⟩
  · rw [SharedQueue.setPlace, TsQueue.setConsumer, if_pos rfl, sleepers]
    rfl
  · intro _
    rw [SharedQueue.place_setPlace]
    exact .asleep
  · intro index
    rw [SharedQueue.place_setPlace_of_ne _ (Thread.number_ne index)]
    exact producers index

/-! ## Steps -/

/-- Steps of the one queue lead from what the state before shows to what the state after a step of
the other one shows, with the same call if that step is one. -/
def Follows (movedFrom : T → T) (shared : SharedQueue T) (event : Event T) (next : TsQueue T) :
    Prop :=
  ∃ seen after, runFrom (SharedQueue.step movedFrom) shared seen = some after ∧
    seen.filterMap SharedQueue.Event.called? = event.called?.toList ∧ Shows next after

variable {movedFrom : T → T} {event : Event T}

/-- One step. -/
theorem Follows.one (seen : SharedQueue.Event T) {after : SharedQueue T}
    (noFault : shared.fault = none) (taken : shared.act movedFrom seen = some after)
    (sameCall : seen.called? = event.called?) (shows : Shows next after) :
    Follows movedFrom shared event next := by
  have moved : SharedQueue.step movedFrom shared seen = some after := by
    rw [SharedQueue.step, noFault]
    exact taken
  refine ⟨[seen], after, ?_, ?_, shows⟩
  · rw [runFrom_cons moved, runFrom_nil]
  · rw [← sameCall]
    cases seen <;> rfl

/-- A step and then one more. -/
theorem Follows.two (first second : SharedQueue.Event T) {middle after : SharedQueue T}
    (noFault : shared.fault = none) (taken : shared.act movedFrom first = some middle)
    (stillNoFault : middle.fault = none) (takenNext : middle.act movedFrom second = some after)
    (noCalls : first.called? = none ∧ second.called? = none ∧ event.called? = none)
    (shows : Shows next after) : Follows movedFrom shared event next := by
  have moved : SharedQueue.step movedFrom shared first = some middle := by
    rw [SharedQueue.step, noFault]
    exact taken
  have movedNext : SharedQueue.step movedFrom middle second = some after := by
    rw [SharedQueue.step, stillNoFault]
    exact takenNext
  refine ⟨[first, second], after, ?_, ?_, shows⟩
  · rw [runFrom_cons moved, runFrom_cons movedNext, runFrom_nil]
  · rw [List.filterMap_cons_none noCalls.1, List.filterMap_cons_none noCalls.2.1, noCalls.2.2]
    rfl

/-- A thread unlocks its last mutex and the function returns. -/
theorem Follows.returns (thread : ℕ) {unlocked : SharedQueue T}
    (operation : SharedQueue.Operation T) (value : SharedQueue.Value T)
    (noFault : shared.fault = none) (stillNoFault : unlocked.fault = none)
    (taken : shared.threadStep movedFrom thread =
      some (unlocked.setPlace thread (.leave operation value)))
    (noCall : event.called? = none) (shows : Shows next (unlocked.setPlace thread .idle)) :
    Follows movedFrom shared event next := by
  refine .two (.thread thread) (.ret thread) noFault taken stillNoFault ?_
    ⟨rfl, rfl, noCall⟩ shows
  simp only [SharedQueue.act, SharedQueue.place_setPlace, SharedQueue.setPlace_setPlace]

/-- A step of a producer. -/
theorem Shows.producerStep (shows : Shows queue shared) (noFault : queue.fault = none)
    {index : ℕ} (taken : queue.producerStep index = some next) :
    Follows movedFrom shared (.producer index) next := by
  have sharedNoFault : shared.fault = none := shows.fault.trans noFault
  have shown := shows.producers index
  generalize place : queue.producers index = here at shown
  generalize sharedPlace : shared.place (Thread.number (.producer index)) = there at shown
  simp only [TsQueue.producerStep, place] at taken
  cases shown with
  | idle => cases taken
  | lockQueue atFront msg =>
      obtain ⟨locked, lockTaken, rfl⟩ := Option.map_eq_some_iff.mp taken
      obtain ⟨after, sharedTaken, -, lockedShows⟩ := shows.lock lockTaken
      refine .one (.thread (Thread.number (.producer index))) sharedNoFault ?_ rfl
        (lockedShows.setProducer (.insert atFront msg))
      simp only [SharedQueue.act, SharedQueue.threadStep, sharedPlace, sharedTaken,
        Option.map_some]
  | insert atFront msg =>
      cases taken
      refine .one (.thread (Thread.number (.producer index))) sharedNoFault ?_ rfl
        ((shows.setDeque _).setProducer (.lockWait (.push atFront msg)))
      simp only [SharedQueue.act, SharedQueue.threadStep, sharedPlace]
      cases atFront <;>
        simp [SharedQueue.operate, SharedQueue.Operation.push, pushed, shows.deqQueue]
  | lockWait operation =>
      obtain ⟨locked, lockTaken, rfl⟩ := Option.map_eq_some_iff.mp taken
      obtain ⟨after, sharedTaken, -, lockedShows⟩ := shows.lock lockTaken
      refine .one (.thread (Thread.number (.producer index))) sharedNoFault ?_ rfl
        (lockedShows.setProducer (.notify operation))
      simp only [SharedQueue.act, SharedQueue.threadStep, sharedPlace, sharedTaken,
        Option.map_some]
  | notify operation =>
      cases taken
      by_cases asleep : queue.consumer = .asleep
      · have sleeps : shared.sleepers = [Thread.number .consumer] := by
          rw [shows.sleepers, if_pos asleep]
        rw [notifyOne, if_pos asleep]
        refine .one (.notifyOne (Thread.number (.producer index))
          (some (Thread.number .consumer))) sharedNoFault ?_ rfl
          ((shows.wake asleep).setProducer (.unlockWait operation))
        simp only [SharedQueue.act, sharedPlace, sleeps, List.mem_singleton, if_true]
      · have nobody : shared.sleepers = [] := by rw [shows.sleepers, if_neg asleep]
        rw [notifyOne, if_neg asleep]
        refine .one (.notifyOne (Thread.number (.producer index)) none) sharedNoFault ?_ rfl
          (shows.setProducer (.unlockWait operation))
        simp only [SharedQueue.act, sharedPlace, nobody, if_true]
  | unlockWait operation =>
      cases taken
      refine .one (.thread (Thread.number (.producer index))) sharedNoFault ?_ rfl
        ((shows.unlock .muxWait).setProducer (.unlockQueue operation .nothing))
      simp only [SharedQueue.act, SharedQueue.threadStep, sharedPlace]
  | unlockQueue operation value =>
      cases taken
      refine .returns (Thread.number (.producer index)) operation value sharedNoFault ?_ ?_ rfl
        ((shows.unlock .muxQueue).setProducer .idle)
      · exact sharedNoFault
      · simp only [SharedQueue.threadStep, sharedPlace]

/-- The consumer does its operation. -/
theorem Shows.operate (shows : Shows queue shared) (noFault : queue.fault = none) {op : QueueOp}
    (place : queue.consumer = .operate op)
    (sharedPlace : shared.place (Thread.number .consumer) = .work op.operation) :
    Follows movedFrom shared .consumer ((queue.operate op).setConsumer .unlockQueue) := by
  have sharedNoFault : shared.fault = none := shows.fault.trans noFault
  have awake : queue.consumer ≠ .asleep := by simp [place]
  cases op with
  | empty =>
      refine .one (.thread (Thread.number .consumer)) sharedNoFault ?_ rfl
        (shows.setConsumer awake (.unlockQueue .empty (.isEmpty shared.deqQueue.isEmpty)) (by simp))
      simp only [SharedQueue.act, SharedQueue.threadStep, sharedPlace]
      rfl
  | count =>
      refine .one (.thread (Thread.number .consumer)) sharedNoFault ?_ rfl
        (shows.setConsumer awake (.unlockQueue .count (.size shared.deqQueue.length)) (by simp))
      simp only [SharedQueue.act, SharedQueue.threadStep, sharedPlace]
      rfl
  | clear =>
      refine .one (.thread (Thread.number .consumer)) sharedNoFault ?_ rfl
        ((shows.setDeque []).setConsumer awake (.unlockQueue .clear .nothing) (by simp))
      simp only [SharedQueue.act, SharedQueue.threadStep, sharedPlace]
      rfl
  | popFront =>
      cases deque : queue.deqQueue with
      | nil =>
          -- both stop at the fault
          have sharedDeque : shared.deqQueue = [] := shows.deqQueue.trans deque
          have stops : queue.operate .popFront = { queue with fault := some .emptyDeque } := by
            simp only [TsQueue.operate, deque]
          have sharedStops : shared.act movedFrom (.thread (Thread.number .consumer)) =
              some { shared with fault := some .emptyDeque } := by
            simp only [SharedQueue.act, SharedQueue.threadStep, sharedPlace, QueueOp.operation,
              SharedQueue.operate, sharedDeque, List.head?_nil]
          have nobody : shared.sleepers = [] := by rw [shows.sleepers, if_neg awake]
          rw [stops]
          exact .one _ sharedNoFault sharedStops rfl
            ⟨shows.deqQueue, shows.holder, nobody, fun h => (by cases h), shows.producers, rfl⟩
      | cons msg rest =>
          -- the element is moved out, and then removed
          have sharedDeque : shared.deqQueue = msg :: rest := shows.deqQueue.trans deque
          have pops : queue.operate .popFront = { queue with deqQueue := rest } := by
            simp only [TsQueue.operate, deque]
          have movesOut : shared.act movedFrom (.thread (Thread.number .consumer)) =
              some ({ shared with deqQueue := movedFrom msg :: rest }.setPlace
                (Thread.number .consumer) (.remove true msg)) := by
            simp only [SharedQueue.act, SharedQueue.threadStep, sharedPlace, QueueOp.operation,
              SharedQueue.operate, sharedDeque, List.head?_cons, List.tail_cons]
          rw [pops]
          refine .two _ (.thread (Thread.number .consumer)) sharedNoFault movesOut sharedNoFault ?_
            ⟨rfl, rfl, rfl⟩
            ((shows.setDeque rest).setConsumer awake (.unlockQueue .popFront (.message msg))
              (by simp))
          simp only [SharedQueue.act, SharedQueue.threadStep, SharedQueue.place_setPlace]
          simp [SharedQueue.setPlace]

/-- A step of the consumer. -/
theorem Shows.consumerStep (shows : Shows queue shared) (noFault : queue.fault = none)
    (taken : queue.consumerStep = some next) : Follows movedFrom shared .consumer next := by
  have sharedNoFault : shared.fault = none := shows.fault.trans noFault
  have shown := shows.consumer noFault
  generalize place : queue.consumer = here at shown
  generalize sharedPlace : shared.place (Thread.number .consumer) = there at shown
  simp only [TsQueue.consumerStep, place] at taken
  cases shown with
  | idle => cases taken
  | lockWait =>
      obtain ⟨locked, lockTaken, rfl⟩ := Option.map_eq_some_iff.mp taken
      obtain ⟨after, sharedTaken, same, lockedShows⟩ := shows.lock lockTaken
      refine .one (.thread (Thread.number .consumer)) sharedNoFault ?_ rfl
        (lockedShows.setConsumer (by simp [same, place]) .lockQueueInWait (by simp))
      simp only [SharedQueue.act, SharedQueue.threadStep, sharedPlace, sharedTaken,
        Option.map_some]
  | lockQueueInWait =>
      obtain ⟨locked, lockTaken, rfl⟩ := Option.map_eq_some_iff.mp taken
      obtain ⟨after, sharedTaken, same, lockedShows⟩ := shows.lock lockTaken
      refine .one (.thread (Thread.number .consumer)) sharedNoFault ?_ rfl
        (lockedShows.setConsumer (by simp [same, place]) .emptyInWait (by simp))
      simp only [SharedQueue.act, SharedQueue.threadStep, sharedPlace, sharedTaken,
        Option.map_some]
  | emptyInWait =>
      cases taken
      refine .one (.thread (Thread.number .consumer)) sharedNoFault ?_ rfl
        (shows.setConsumer (by simp [place]) (.unlockQueueInWait _) (by simp))
      simp only [SharedQueue.act, SharedQueue.threadStep, sharedPlace, shows.deqQueue]
  | unlockQueueInWait isEmpty =>
      cases taken
      cases isEmpty with
      | true =>
          refine .one (.thread (Thread.number .consumer)) sharedNoFault ?_ rfl
            ((shows.unlock .muxQueue).setConsumer (fun h => by cases place.symm.trans h) .cvWait
              (by simp))
          simp only [SharedQueue.act, SharedQueue.threadStep, sharedPlace, if_true]
      | false =>
          refine .one (.thread (Thread.number .consumer)) sharedNoFault ?_ rfl
            ((shows.unlock .muxQueue).setConsumer (fun h => by cases place.symm.trans h)
              .unlockWait (by simp))
          simp only [SharedQueue.act, SharedQueue.threadStep, sharedPlace]
          rfl
  | cvWait =>
      cases taken
      refine .one (.thread (Thread.number .consumer)) sharedNoFault ?_ rfl
        ((shows.unlock .muxWait).sleep fun h => by cases place.symm.trans h)
      simp only [SharedQueue.act, SharedQueue.threadStep, sharedPlace]
      rfl
  | asleep => cases taken
  | relockWait =>
      obtain ⟨locked, lockTaken, rfl⟩ := Option.map_eq_some_iff.mp taken
      obtain ⟨after, sharedTaken, same, lockedShows⟩ := shows.lock lockTaken
      refine .one (.thread (Thread.number .consumer)) sharedNoFault ?_ rfl
        (lockedShows.setConsumer (by simp [same, place]) .lockQueueInWait (by simp))
      simp only [SharedQueue.act, SharedQueue.threadStep, sharedPlace, sharedTaken,
        Option.map_some]
  | unlockWait =>
      cases taken
      refine .returns (Thread.number .consumer) .wait .nothing sharedNoFault ?_ ?_ rfl
        ((shows.unlock .muxWait).setConsumer (fun h => by cases place.symm.trans h) .idle (by simp))
      · exact sharedNoFault
      · simp only [SharedQueue.threadStep, sharedPlace]
  | lockQueue op =>
      obtain ⟨locked, lockTaken, rfl⟩ := Option.map_eq_some_iff.mp taken
      obtain ⟨after, sharedTaken, same, lockedShows⟩ := shows.lock lockTaken
      refine .one (.thread (Thread.number .consumer)) sharedNoFault ?_ rfl
        (lockedShows.setConsumer (by simp [same, place]) (.operate op) (by simp))
      simp only [SharedQueue.act, SharedQueue.threadStep, sharedPlace, sharedTaken,
        Option.map_some]
  | operate op =>
      cases taken
      exact shows.operate noFault place sharedPlace
  | unlockQueue operation value =>
      cases taken
      refine .returns (Thread.number .consumer) operation value sharedNoFault ?_ ?_ rfl
        ((shows.unlock .muxQueue).setConsumer (fun h => by cases place.symm.trans h) .idle
          (by simp))
      · exact sharedNoFault
      · simp only [SharedQueue.threadStep, sharedPlace]

/-- **Every step of `TsQueue` is a step of `SharedQueue`, or two.** -/
theorem Shows.step (shows : Shows queue shared) (taken : queue.step event = some next) :
    Follows movedFrom shared event next := by
  have noFault : queue.fault = none := by
    cases fault : queue.fault with
    | none => rfl
    | some _ => simp only [TsQueue.step, fault] at taken; cases taken
  have sharedNoFault : shared.fault = none := shows.fault.trans noFault
  have taken := step_eq_some taken
  cases event with
  | push index atFront msg =>
      have shown := shows.producers index
      simp only [TsQueue.act] at taken
      split at taken
      case h_2 => cases taken
      case h_1 idle =>
        cases taken
        rw [idle] at shown
        generalize sharedPlace : shared.place (Thread.number (.producer index)) = there at shown
        cases shown
        refine .one (.call (Thread.number (.producer index)) (.push atFront msg)) sharedNoFault ?_
          rfl (shows.setProducer (.lockQueue atFront msg))
        cases atFront <;>
          simp [SharedQueue.act, sharedPlace, SharedQueue.Operation.push]
  | wait =>
      simp only [TsQueue.act] at taken
      split at taken
      case isFalse => cases taken
      case isTrue idle =>
        cases taken
        have shown := shows.consumer noFault
        rw [idle] at shown
        generalize sharedPlace : shared.place (Thread.number .consumer) = there at shown
        cases shown
        refine .one (.call (Thread.number .consumer) .wait) sharedNoFault ?_ rfl
          (shows.setConsumer (by simp [idle]) .lockWait (by simp))
        simp only [SharedQueue.act, sharedPlace]
  | call op =>
      simp only [TsQueue.act] at taken
      split at taken
      case isFalse => cases taken
      case isTrue idle =>
        cases taken
        have shown := shows.consumer noFault
        rw [idle] at shown
        generalize sharedPlace : shared.place (Thread.number .consumer) = there at shown
        cases shown
        refine .one (.call (Thread.number .consumer) op.operation) sharedNoFault ?_ rfl
          (shows.setConsumer (by simp [idle]) (.lockQueue op) (by simp))
        cases op <;> simp [SharedQueue.act, sharedPlace, QueueOp.operation]
  | producer index => exact shows.producerStep noFault taken
  | consumer => exact shows.consumerStep noFault taken
  | spuriousWakeup =>
      simp only [TsQueue.act] at taken
      split at taken
      case isFalse => cases taken
      case isTrue asleep =>
        cases taken
        refine .one (.spuriousWakeup (Thread.number .consumer)) sharedNoFault ?_ rfl
          (shows.wake asleep)
        rw [SharedQueue.act, shows.sleepers, if_pos asleep, if_pos (List.mem_singleton_self _)]

/-- **Every run of `TsQueue` is one of `SharedQueue`** with the same calls of the same threads, and
it ends with the same deque, the same holders and the same places. -/
theorem refines_sharedQueue (movedFrom : T → T) {events : List (Event T)}
    (run : runFrom step start events = some queue) :
    ∃ seen shared, runFrom (SharedQueue.step movedFrom) SharedQueue.start seen = some shared ∧
      seen.filterMap SharedQueue.Event.called? = events.filterMap Event.called? ∧
        Shows queue shared := by
  let known (past : List (Event T)) (queue : TsQueue T) : Prop :=
    ∃ seen shared, runFrom (SharedQueue.step movedFrom) SharedQueue.start seen = some shared ∧
      seen.filterMap SharedQueue.Event.called? = past.filterMap Event.called? ∧ Shows queue shared
  have keeps : ∀ past queue event next, known past queue → step queue event = some next →
      known (past ++ [event]) next := by
    rintro past queue event next ⟨seen, shared, sharedRun, sameCalls, shows⟩ taken
    have follows : Follows movedFrom shared event next := shows.step taken
    obtain ⟨more, after, moreRun, moreCalls, nextShows⟩ := follows
    refine ⟨seen ++ more, after, runFrom_trans sharedRun moreRun, ?_, nextShows⟩
    rw [List.filterMap_append, List.filterMap_append, sameCalls, moreCalls]
    cases called : event.called? with
    | none => rw [List.filterMap_cons_none called]; rfl
    | some call => rw [List.filterMap_cons_some called]; rfl
  have begins : known [] start := ⟨[], SharedQueue.start, rfl, rfl, shows_start⟩
  exact history_invariant_of_run keeps begins run

end TsQueue

end NetworkChat
