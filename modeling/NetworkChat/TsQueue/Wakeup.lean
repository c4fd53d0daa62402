import NetworkChat.TsQueue.Deadlock

/-!
# No wakeup is lost

`wait` looks at the queue under `muxQueue` and falls asleep under `muxWait`, and a
push inserts before it takes `muxWait`. Between the look and the sleep a producer may
insert, but it cannot notify: the consumer gives `muxWait` back only by falling asleep.
So a consumer that has looked at an empty queue, and has not been woken since, finds it
still empty or has a producer in front of its notification (`Wakeful.awaited`), and a
consumer that has looked at a queue that is not empty leaves `wait` before anybody
removes an element (`Wakeful.found`).
-/

set_option autoImplicit false

namespace NetworkChat

open Foundation

variable {T : Type}

/-! ## Places -/

/-- The element is inserted and `notify_one` is still to come. -/
def ProducerPlace.owesNotify : ProducerPlace T → Bool
  | .lockWait => true
  | .notify => true
  | _ => false

/-- The element that is still to be inserted, and whether at the front. -/
def ProducerPlace.pending : ProducerPlace T → List (Bool × T)
  | .lockQueue atFront msg => [(atFront, msg)]
  | .insert atFront msg => [(atFront, msg)]
  | _ => []

/-- The consumer has seen an empty queue and goes to sleep or is asleep. -/
def ConsumerPlace.sawEmpty : ConsumerPlace → Bool
  | .unlockQueueInWait isEmpty => isEmpty
  | .cvWait => true
  | .asleep => true
  | _ => false

/-- The consumer has seen an element and leaves `wait`. -/
def ConsumerPlace.sawElement : ConsumerPlace → Bool
  | .unlockQueueInWait isEmpty => !isEmpty
  | .unlockWait => true
  | _ => false

theorem ProducerPlace.owesNotify_iff {place : ProducerPlace T} :
    place.owesNotify = true ↔ place = .lockWait ∨ place = .notify := by
  cases place <;> simp [owesNotify]

/-- Only the insertion and the notification change what a producer owes. -/
theorem ProducerPlace.owesNotify_next {place : ProducerPlace T}
    (noInsert : ∀ atFront msg, place ≠ .insert atFront msg) (noNotify : place ≠ .notify) :
    place.next.owesNotify = place.owesNotify := by
  cases place with
  | insert atFront msg => exact absurd rfl (noInsert atFront msg)
  | notify => exact absurd rfl noNotify
  | _ => rfl

/-- At an element the consumer does not come to see an empty queue. -/
theorem ConsumerPlace.sawEmpty_of_next {place : ConsumerPlace} {elements : List T}
    (saw : (place.next elements.isEmpty).sawEmpty = true) (full : elements ≠ []) :
    place.sawEmpty = true := by
  cases place with
  | emptyInWait => exact absurd (List.isEmpty_iff.mp saw) full
  | unlockQueueInWait isEmpty => cases isEmpty <;> exact saw
  | cvWait => rfl
  | asleep => rfl
  | _ => cases saw

/-- The consumer has seen an element since it has looked at one. -/
theorem ConsumerPlace.sawElement_of_next {place : ConsumerPlace} {elements : List T}
    (saw : (place.next elements.isEmpty).sawElement = true) :
    place.sawElement = true ∨ elements ≠ [] := by
  cases place with
  | emptyInWait =>
      have notEmpty : (!elements.isEmpty) = true := saw
      simpa using Or.inr notEmpty
  | unlockQueueInWait isEmpty => cases isEmpty <;> exact .inl saw
  | _ => cases saw

/-- Awake, a consumer that goes to sleep holds `muxWait`. -/
theorem ConsumerPlace.holds_of_sawEmpty {place : ConsumerPlace} (saw : place.sawEmpty = true)
    (awake : place ≠ .asleep) : place.holds .muxWait = true := by
  cases place <;> simp_all [sawEmpty, holds]

namespace TsQueue

variable {queue next : TsQueue T}

/-- What the consumer knows of the queue at its place. -/
structure Wakeful (queue : TsQueue T) : Prop where
  locked : Locked queue
  awaited : queue.consumer.sawEmpty = true → queue.deqQueue ≠ [] →
    ∃ index, (queue.producers index).owesNotify = true
  found : queue.consumer.sawElement = true → queue.deqQueue ≠ []

theorem wakeful_start : Wakeful (start : TsQueue T) :=
  ⟨locked_start, fun saw => absurd saw Bool.false_ne_true, fun saw => absurd saw Bool.false_ne_true⟩

/-- A consumer that sees nothing knows nothing. -/
theorem Wakeful.of_blind (locked : Locked queue) (notEmpty : queue.consumer.sawEmpty = false)
    (notElement : queue.consumer.sawElement = false) : Wakeful queue where
  locked := locked
  awaited saw := by rw [notEmpty] at saw; cases saw
  found saw := by rw [notElement] at saw; cases saw

theorem pushed_ne_nil (queue : TsQueue T) (atFront : Bool) (msg : T) :
    queue.pushed atFront msg ≠ [] := by
  cases atFront <;> simp [pushed]

/-- While a producer notifies it holds `muxWait`, so a consumer that has seen an empty
queue is asleep. -/
theorem Locked.asleep_of_notify (locked : Locked queue) {index : ℕ}
    (notifies : queue.producers index = .notify) (saw : queue.consumer.sawEmpty = true) :
    queue.consumer = .asleep := by
  by_contra awake
  have mine : queue.holder .muxWait = some .consumer :=
    (locked _ _).mpr (ConsumerPlace.holds_of_sawEmpty saw awake)
  have its : queue.holder .muxWait = some (.producer index) := by
    rw [locked]
    simp only [holds, notifies]
    rfl
  rw [mine] at its
  cases its

theorem Wakeful.producerStep {index : ℕ} (wakeful : Wakeful queue)
    (taken : queue.producerStep index = some next) : Wakeful next := by
  have locked := wakeful.locked.producerStep taken
  have moves := producerMoves_of_step taken
  rcases moves.effect with inserts | notifies | works
  · obtain ⟨atFront, msg, place, deqQueue, consumer⟩ := inserts
    refine ⟨locked, fun _ _ => ⟨index, ?_⟩, fun _ => ?_⟩
    · rw [moves.producers, Function.update_self, place]
      rfl
    · rw [deqQueue]
      exact queue.pushed_ne_nil atFront msg
  · obtain ⟨place, deqQueue, consumer⟩ := notifies
    by_cases asleep : queue.consumer = .asleep
    · rw [if_pos asleep] at consumer
      exact .of_blind locked (by rw [consumer]; rfl) (by rw [consumer]; rfl)
    · rw [if_neg asleep] at consumer
      refine ⟨locked, fun saw => ?_, fun saw => ?_⟩
      · rw [consumer] at saw
        exact absurd (wakeful.locked.asleep_of_notify place saw) asleep
      · rw [consumer] at saw
        rw [deqQueue]
        exact wakeful.found saw
  · obtain ⟨noInsert, noNotify, deqQueue, consumer⟩ := works
    refine ⟨locked, ?_, ?_⟩
    · rw [consumer, deqQueue]
      intro saw full
      obtain ⟨other, owing⟩ := wakeful.awaited saw full
      refine ⟨other, ?_⟩
      by_cases same : other = index
      · subst same
        rw [moves.producers, Function.update_self, ProducerPlace.owesNotify_next noInsert noNotify]
        exact owing
      · rw [moves.producers, Function.update_of_ne same]
        exact owing
    · rw [consumer, deqQueue]
      exact wakeful.found

theorem Wakeful.consumerStep (wakeful : Wakeful queue)
    (taken : queue.consumerStep = some next) : Wakeful next := by
  have locked := wakeful.locked.consumerStep taken
  have moves := consumerMoves_of_step taken
  by_cases operates : ∃ op, queue.consumer = .operate op
  · obtain ⟨op, place⟩ := operates
    have blind : next.consumer = .unlockQueue := by
      rw [moves.consumer, place]
      rfl
    exact .of_blind locked (by rw [blind]; rfl) (by rw [blind]; rfl)
  · have same := (moves.elements fun op place => operates ⟨op, place⟩).1
    refine ⟨locked, ?_, ?_⟩
    · rw [moves.consumer, moves.producers, same]
      intro saw full
      exact wakeful.awaited (ConsumerPlace.sawEmpty_of_next saw full) full
    · rw [moves.consumer, same]
      intro saw
      rcases ConsumerPlace.sawElement_of_next saw with before | full
      · exact wakeful.found before
      · exact full

/-- **Every step keeps what the consumer knows true.** -/
theorem Wakeful.step {event : Event T} (wakeful : Wakeful queue)
    (taken : queue.step event = some next) : Wakeful next := by
  have locked := wakeful.locked.step taken
  replace taken := step_eq_some taken
  cases event with
  | producer index => exact wakeful.producerStep taken
  | consumer => exact wakeful.consumerStep taken
  | push index atFront msg =>
      simp only [act] at taken
      split at taken
      · rename_i place
        cases taken
        refine ⟨locked, fun saw full => ?_, wakeful.found⟩
        obtain ⟨other, owing⟩ := wakeful.awaited saw full
        have different : other ≠ index := by
          rintro rfl
          rw [place] at owing
          cases owing
        exact ⟨other, by simpa only [setProducer, Function.update_of_ne different] using owing⟩
      · cases taken
  | wait =>
      simp only [act] at taken
      split at taken
      case isTrue => cases taken; exact .of_blind locked rfl rfl
      case isFalse => cases taken
  | call op =>
      simp only [act] at taken
      split at taken
      case isTrue => cases taken; exact .of_blind locked rfl rfl
      case isFalse => cases taken
  | spuriousWakeup =>
      simp only [act] at taken
      split at taken
      case isTrue => cases taken; exact .of_blind locked rfl rfl
      case isFalse => cases taken

theorem wakeful_of_reachable (reachable : Reachable step start queue) : Wakeful queue :=
  invariant_of_reachable (fun _ _ _ wakeful taken => wakeful.step taken) wakeful_start reachable

/-- A consumer that sleeps although the queue is not empty will be notified. -/
theorem Wakeful.notified (wakeful : Wakeful queue) (asleep : queue.consumer = .asleep)
    (full : queue.deqQueue ≠ []) :
    ∃ index, queue.producers index = .lockWait ∨ queue.producers index = .notify := by
  obtain ⟨index, owes⟩ := wakeful.awaited (by rw [asleep]; rfl) full
  exact ⟨index, ProducerPlace.owesNotify_iff.mp owes⟩

/-- `wait` returns to a queue that is not empty. -/
theorem Wakeful.returns (wakeful : Wakeful queue) (leaves : queue.consumer = .unlockWait)
    (taken : queue.step .consumer = some next) :
    next.consumer = .idle ∧ next.deqQueue ≠ [] := by
  have full := wakeful.found (by rw [leaves]; rfl)
  replace taken := step_eq_some taken
  simp only [act, TsQueue.consumerStep, leaves] at taken
  cases taken
  exact ⟨rfl, full⟩

end TsQueue

end NetworkChat
