import NetworkChat.TsQueue.Moves
import NetworkChat.Foundation.Runs

/-!
# Who waits for whom

A producer takes `muxQueue` and then `muxWait`; the consumer in `wait` holds
`muxWait` when it takes `muxQueue`. The places of the threads say which mutexes they
hold (`Locked.step`), so a cycle is a producer in front of `muxWait` and the
consumer in front of `muxQueue` inside `wait` (`deadlocked_iff`).

A run is free of it exactly when no step of it closes the cycle
(`deadlock_free_iff`), and a cycle that is closed stays closed
(`Deadlocked.step`).
-/

set_option autoImplicit false

namespace NetworkChat

open Foundation

variable {T : Type}

/-! ## What a place asks for -/

def ProducerPlace.wants : ProducerPlace T → Option Mutex
  | .lockQueue _ _ => some .muxQueue
  | .lockWait => some .muxWait
  | _ => none

def ConsumerPlace.wants : ConsumerPlace → Option Mutex
  | .lockWait => some .muxWait
  | .relockWait => some .muxWait
  | .lockQueueInWait => some .muxQueue
  | .lockQueue _ => some .muxQueue
  | _ => none

theorem ProducerPlace.eq_lockWait {place : ProducerPlace T} (asks : place.wants = some .muxWait) :
    place = .lockWait := by
  cases place <;> simp_all [wants]

theorem ProducerPlace.asks_before_holding {place : ProducerPlace T}
    (held : place.holds .muxWait = true) : place.wants ≠ some .muxQueue := by
  cases place <;> simp_all [holds, wants]

theorem ConsumerPlace.eq_lockQueueInWait {place : ConsumerPlace}
    (held : place.holds .muxWait = true) (asks : place.wants = some .muxQueue) :
    place = .lockQueueInWait := by
  cases place <;> simp_all [holds, wants]

theorem ConsumerPlace.asks_before_holding {place : ConsumerPlace}
    (held : place.holds .muxQueue = true) : place.wants ≠ some .muxWait := by
  cases place <;> simp_all [holds, wants]

namespace TsQueue

def holds (queue : TsQueue T) : Thread → Mutex → Bool
  | .consumer => queue.consumer.holds
  | .producer index => (queue.producers index).holds

def wants (queue : TsQueue T) : Thread → Option Mutex
  | .consumer => queue.consumer.wants
  | .producer index => (queue.producers index).wants

/-- Two threads, one holding `muxQueue` and blocked on `muxWait`, the other one
holding `muxWait` and blocked on `muxQueue`. -/
def Deadlocked (queue : TsQueue T) : Prop :=
  WaitForEachOther queue.holder queue.wants .muxQueue .muxWait

/-! ## The mutexes are held where the places say -/

def Locked (queue : TsQueue T) : Prop := Coherent queue.holder queue.holds

theorem locked_start : Locked (start : TsQueue T) := by
  intro mutex thread
  cases thread <;> exact iff_of_false nofun nofun

/-- A producer goes to a place that holds what the one before held. -/
theorem Locked.setProducer {queue : TsQueue T} {index : ℕ} {place : ProducerPlace T}
    (locked : Locked queue) (same : place.holds = (queue.producers index).holds) :
    Locked (queue.setProducer index place) := by
  refine Coherent.keep locked fun thread mutex => ?_
  cases thread with
  | consumer => rfl
  | producer other =>
      by_cases isProducer : other = index
      · subst isProducer
        simpa [holds, TsQueue.setProducer] using congrFun same mutex
      · simp [holds, TsQueue.setProducer, isProducer]

theorem Locked.setConsumer {queue : TsQueue T} {place : ConsumerPlace} (locked : Locked queue)
    (same : place.holds = queue.consumer.holds) : Locked (queue.setConsumer place) := by
  refine Coherent.keep locked fun thread mutex => ?_
  cases thread with
  | consumer => exact congrFun same mutex
  | producer other => rfl

theorem Locked.producerStep {queue next : TsQueue T} {index : ℕ} (locked : Locked queue)
    (taken : queue.producerStep index = some next) : Locked next := by
  have moves := producerMoves_of_step taken
  have move : LockMove (.producer index) queue.holder (queue.holds (.producer index)) next.holder
      (next.holds (.producer index)) := by
    show LockMove _ _ _ _ (next.producers index).holds
    rw [moves.producers, Function.update_self]
    exact moves.mutexes
  refine Coherent.move locked move fun thread different => ?_
  cases thread with
  | consumer => exact moves.sameHolds
  | producer other =>
      have otherIndex : other ≠ index := by
        rintro rfl
        exact different rfl
      show (next.producers other).holds = (queue.producers other).holds
      rw [moves.producers, Function.update_of_ne otherIndex]

theorem Locked.consumerStep {queue next : TsQueue T} (locked : Locked queue)
    (taken : queue.consumerStep = some next) : Locked next := by
  have moves := consumerMoves_of_step taken
  refine Coherent.move locked moves.mutexes fun thread different => ?_
  cases thread with
  | consumer => exact absurd rfl different
  | producer other =>
      show (next.producers other).holds = (queue.producers other).holds
      rw [moves.producers]

/-- **In every state of a run a mutex is held by the thread whose place says so.** -/
theorem Locked.step {queue next : TsQueue T} {event : Event T} (locked : Locked queue)
    (taken : queue.step event = some next) : Locked next := by
  replace taken := step_eq_some taken
  cases event with
  | producer index => exact locked.producerStep taken
  | consumer => exact locked.consumerStep taken
  | push index atFront msg =>
      simp only [act] at taken
      split at taken
      · rename_i place
        cases taken
        exact locked.setProducer (by rw [place]; rfl)
      · cases taken
  | wait =>
      simp only [act] at taken
      split at taken
      case isTrue place => cases taken; exact locked.setConsumer (by rw [place]; rfl)
      case isFalse => cases taken
  | call op =>
      simp only [act] at taken
      split at taken
      case isTrue place => cases taken; exact locked.setConsumer (by rw [place]; rfl)
      case isFalse => cases taken
  | spuriousWakeup =>
      simp only [act] at taken
      split at taken
      case isTrue place => cases taken; exact locked.setConsumer (by rw [place]; rfl)
      case isFalse => cases taken

/-! ## The cycle -/

/-- **The only cycle**: a producer in front of `muxWait`, and the consumer in front
of `muxQueue` inside `wait`. -/
theorem deadlocked_iff {queue : TsQueue T} (locked : Locked queue) :
    queue.Deadlocked ↔
      (∃ index, queue.producers index = .lockWait) ∧ queue.consumer = .lockQueueInWait := by
  constructor
  · rintro ⟨one, other, holdsQueue, wantsWait, holdsWait, wantsQueue⟩
    rw [locked] at holdsQueue holdsWait
    refine ⟨?_, ?_⟩
    · cases one with
      | consumer => exact absurd wantsWait (ConsumerPlace.asks_before_holding holdsQueue)
      | producer index => exact ⟨index, ProducerPlace.eq_lockWait wantsWait⟩
    · cases other with
      | consumer => exact ConsumerPlace.eq_lockQueueInWait holdsWait wantsQueue
      | producer index => exact absurd wantsQueue (ProducerPlace.asks_before_holding holdsWait)
  · rintro ⟨⟨index, inFront⟩, inWait⟩
    refine ⟨.producer index, .consumer, ?_, ?_, ?_, ?_⟩
    · rw [locked]
      simp only [holds, inFront]
      rfl
    · simp only [wants, inFront]
      rfl
    · rw [locked]
      simp only [holds, inWait]
      rfl
    · simp only [wants, inWait]
      rfl

/-- The step closes the cycle: a producer that has inserted goes on to `muxWait`
while the consumer stands in front of `muxQueue` inside `wait`, or the consumer
takes `muxWait` while the producer that holds `muxQueue` stands in front of it. -/
def ClosesCycle (queue : TsQueue T) : Event T → Prop
  | .producer index =>
      (∃ atFront msg, queue.producers index = .insert atFront msg) ∧
        queue.consumer = .lockQueueInWait
  | .consumer =>
      (queue.consumer = .lockWait ∨ queue.consumer = .relockWait) ∧
        ∃ index, queue.producers index = .lockWait
  | _ => False

/-- A step of a producer moves it alone, and to `muxWait` only from its insertion;
the consumer stays in front of `muxQueue` inside `wait`, or away from it. -/
theorem producerStep_places {queue next : TsQueue T} {index : ℕ}
    (taken : queue.producerStep index = some next) :
    ∃ place, next.producers = Function.update queue.producers index place ∧
      (place = .lockWait ↔ ∃ atFront msg, queue.producers index = .insert atFront msg) ∧
        (next.consumer = .lockQueueInWait ↔ queue.consumer = .lockQueueInWait) := by
  have moves := producerMoves_of_step taken
  refine ⟨_, moves.producers, ?_, ?_⟩
  · cases queue.producers index <;> simp [ProducerPlace.next]
  · rcases moves.effect with ⟨-, -, -, -, same⟩ | ⟨-, -, consumer⟩ | ⟨-, -, -, same⟩
    · rw [same]
    · rw [consumer]
      split
      · rename_i asleep
        simp [asleep]
      · rfl
    · rw [same]

/-- A step of the consumer leads in front of `muxQueue` inside `wait` exactly when
it takes `muxWait` to enter or to go on with `wait`. -/
theorem consumerStep_places {queue next : TsQueue T} (taken : queue.consumerStep = some next) :
    next.producers = queue.producers ∧
      (next.consumer = .lockQueueInWait ↔
        queue.consumer = .lockWait ∨ queue.consumer = .relockWait) := by
  have moves := consumerMoves_of_step taken
  refine ⟨moves.producers, ?_⟩
  rw [moves.consumer]
  cases queue.consumer with
  | unlockQueueInWait wasEmpty => cases wasEmpty <;> simp [ConsumerPlace.next]
  | _ => simp [ConsumerPlace.next]

/-- A step of the others moves no thread to where it could close the cycle. -/
theorem otherStep_places {queue next : TsQueue T} {event : Event T}
    (taken : queue.act event = some next) (notProducer : ∀ index, event ≠ .producer index)
    (notConsumer : event ≠ .consumer) :
    (∀ index, next.producers index = .lockWait ↔ queue.producers index = .lockWait) ∧
      (next.consumer = .lockQueueInWait ↔ queue.consumer = .lockQueueInWait) := by
  cases event with
  | producer index => exact absurd rfl (notProducer index)
  | consumer => exact absurd rfl notConsumer
  | push index atFront msg =>
      simp only [act] at taken
      split at taken
      · rename_i place
        cases taken
        refine ⟨fun other => ?_, Iff.rfl⟩
        by_cases same : other = index
        · subst same
          simp [setProducer, place]
        · simp [setProducer, same]
      · cases taken
  | wait =>
      simp only [act] at taken
      split at taken
      case isTrue place => cases taken; exact ⟨fun _ => Iff.rfl, by simp [setConsumer, place]⟩
      case isFalse => cases taken
  | call op =>
      simp only [act] at taken
      split at taken
      case isTrue place => cases taken; exact ⟨fun _ => Iff.rfl, by simp [setConsumer, place]⟩
      case isFalse => cases taken
  | spuriousWakeup =>
      simp only [act] at taken
      split at taken
      case isTrue place => cases taken; exact ⟨fun _ => Iff.rfl, by simp [setConsumer, place]⟩
      case isFalse => cases taken

/-- From a state without the cycle, a step reaches the cycle exactly when it closes
it. -/
theorem step_deadlocks_iff {queue next : TsQueue T} {event : Event T} (locked : Locked queue)
    (free : ¬ queue.Deadlocked) (taken : queue.step event = some next) :
    next.Deadlocked ↔ ClosesCycle queue event := by
  rw [deadlocked_iff (locked.step taken)]
  rw [deadlocked_iff locked] at free
  replace taken := step_eq_some taken
  cases event with
  | producer index =>
      obtain ⟨place, moved, toWait, consumer⟩ := producerStep_places taken
      rw [moved, consumer]
      constructor
      · rintro ⟨⟨other, inFront⟩, inWait⟩
        by_cases same : other = index
        · subst same
          rw [Function.update_self] at inFront
          exact ⟨toWait.mp inFront, inWait⟩
        · rw [Function.update_of_ne same] at inFront
          exact absurd ⟨⟨other, inFront⟩, inWait⟩ free
      · rintro ⟨inserting, inWait⟩
        exact ⟨⟨index, by rw [Function.update_self]; exact toWait.mpr inserting⟩, inWait⟩
  | consumer =>
      obtain ⟨producers, consumer⟩ := consumerStep_places taken
      rw [producers, consumer]
      exact and_comm
  | _ =>
      obtain ⟨producers, consumer⟩ := otherStep_places taken nofun nofun
      simp only [producers, consumer]
      exact iff_of_false free fun closes => closes

/-- **A run is free of deadlock exactly when no step of it closes the cycle.** -/
theorem deadlock_free_iff {final : TsQueue T} {events : List (Event T)}
    (run : runFrom step start events = some final) :
    Throughout step (fun queue => ¬ queue.Deadlocked) start events ↔
      Meets step (fun queue event => ¬ ClosesCycle queue event) start events := by
  have keeps : ∀ queue event next, Locked queue → step queue event = some next → Locked next :=
    fun (queue : TsQueue T) _ _ locked taken => Locked.step locked taken
  have exact_step : ∀ queue event next, Locked queue → ¬ queue.Deadlocked → True →
      step queue event = some next → (¬ next.Deadlocked ↔ ¬ ClosesCycle queue event) :=
    fun (queue : TsQueue T) _ _ locked free _ taken =>
      not_congr (step_deadlocks_iff locked free taken)
  refine throughout_iff_meets keeps exact_step locked_start ?_ (fun _ _ => trivial) run
  rw [deadlocked_iff locked_start]
  rintro ⟨-, inWait⟩
  cases inWait

/-- The consumer finds the queue empty and falls asleep, a producer pushes and notifies it, and the
consumer returns from `wait`. -/
def sleeperNotified : List (Event ℕ) :=
  .wait :: List.replicate 5 .consumer ++ .push 0 false 7 :: List.replicate 6 (.producer 0) ++
    List.replicate 5 .consumer

theorem deadlock_free_push :
    Throughout step (fun queue => ¬ queue.Deadlocked) (start : TsQueue ℕ) sleeperNotified := by
  refine (deadlock_free_iff (Option.some_get (by decide)).symm).mpr ?_
  simp [sleeperNotified, List.replicate, Meets, step, act, start, ClosesCycle, setProducer,
    producerStep, lock, unlock, pushed, notifyOne, setConsumer, consumerStep]

/-- The consumer enters `wait` and takes `muxWait`; a producer takes `muxQueue` and
inserts. -/
def pushIntoWait : List (Event ℕ) :=
  [.wait, .consumer, .push 0 false 7, .producer 0, .producer 0]

/-- Each now holds the mutex that the other one asks for. -/
theorem push_into_wait_deadlocks :
    ∃ final, runFrom step (start : TsQueue ℕ) pushIntoWait = some final ∧ final.Deadlocked :=
  ⟨(runFrom step start pushIntoWait).get (by decide), (Option.some_get _).symm, .producer 0,
    .consumer, by decide, by decide, by decide, by decide⟩

/-- **A cycle that is closed stays closed**: neither thread can take its step. -/
theorem Deadlocked.step {queue next : TsQueue T} {event : Event T} (locked : Locked queue)
    (deadlocked : queue.Deadlocked) (taken : queue.step event = some next) :
    next.Deadlocked := by
  have later := locked.step taken
  obtain ⟨⟨index, inFront⟩, inWait⟩ := (deadlocked_iff locked).mp deadlocked
  have queueHeld : queue.holder .muxQueue = some (.producer index) := by
    rw [locked]
    simp only [holds, inFront]
    rfl
  have waitHeld : queue.holder .muxWait = some .consumer := by
    rw [locked]
    simp only [holds, inWait]
    rfl
  rw [deadlocked_iff later]
  replace taken := step_eq_some taken
  cases event with
  | producer other =>
      have different : other ≠ index := by
        rintro rfl
        simp [act, producerStep, inFront, lock, waitHeld] at taken
      obtain ⟨place, moved, -, consumer⟩ := producerStep_places taken
      refine ⟨⟨index, ?_⟩, consumer.mpr inWait⟩
      rw [moved, Function.update_of_ne different.symm]
      exact inFront
  | consumer => simp [act, consumerStep, inWait, lock, queueHeld] at taken
  | _ =>
      obtain ⟨producers, consumer⟩ := otherStep_places taken (by simp) (by simp)
      exact ⟨⟨index, (producers index).mpr inFront⟩, consumer.mpr inWait⟩

end TsQueue

end NetworkChat
