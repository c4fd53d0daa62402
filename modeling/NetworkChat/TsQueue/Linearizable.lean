import NetworkChat.TsQueue.Shared

/-!
# The queue is a deque that its threads take turns at

Called one at a time, the functions of the queue are operations of a deque (`spec`): a pop returns
the element that it removes, `wait` returns when there is one. The threads of `SharedQueue` are not
one at a time, they wait for mutexes and for each other, and a pop works in two steps. Every history
of their calls and returns is one of the deque nevertheless (`linearizable`): a function takes
effect while its thread holds `muxQueue`, and nobody else looks at the deque then.

The proof needs one fact about every place of a thread: which mutexes it holds there
(`Place.holds`), what it has called and whether that took effect (`Place.phase`), and what it will
have left of the deque (`Place.leaves`). A step of a thread is quiet, or removes what was moved out,
or is the effect of its function (`threadStep_moves`).
-/

set_option autoImplicit false

namespace NetworkChat

open Foundation

namespace SharedQueue

variable {T : Type}

/-! ## Places -/

def Place.holds : Place T → Mutex → Bool
  | .idle, _ => false
  | .lockQueue _, _ => false
  | .work _, mutex => mutex == .muxQueue
  | .remove _ _, mutex => mutex == .muxQueue
  | .lockWait _, mutex => mutex == .muxQueue
  | .notify _, _ => true
  | .unlockWait _, _ => true
  | .unlockQueue _ _, mutex => mutex == .muxQueue
  | .waitLock, _ => false
  | .waitLockQueue, mutex => mutex == .muxWait
  | .waitEmpty, _ => true
  | .waitUnlockQueue _, _ => true
  | .waitCv, mutex => mutex == .muxWait
  | .waitAsleep, _ => false
  | .waitRelock, _ => false
  | .waitUnlock, mutex => mutex == .muxWait
  | .leave _ _, _ => false

/-- What a thread has called, and whether it took effect. A pop takes effect when it moves the
element out, `wait` when it finds the queue not empty. -/
def Place.phase : Place T → Phase (Operation T) (Value T)
  | .idle => .idle
  | .lockQueue operation => .called operation
  | .work operation => .called operation
  | .remove true msg => .done .popFront (.message msg)
  | .remove false msg => .done .popBack (.message msg)
  | .lockWait operation => .done operation .nothing
  | .notify operation => .done operation .nothing
  | .unlockWait operation => .done operation .nothing
  | .unlockQueue operation value => .done operation value
  | .waitLock => .called .wait
  | .waitLockQueue => .called .wait
  | .waitEmpty => .called .wait
  | .waitUnlockQueue isEmpty => if isEmpty then .called .wait else .done .wait .nothing
  | .waitCv => .called .wait
  | .waitAsleep => .called .wait
  | .waitRelock => .called .wait
  | .waitUnlock => .done .wait .nothing
  | .leave operation value => .done operation value

/-- What the thread will have left of the deque when it unlocks it. -/
def Place.leaves : Place T → List T → List T
  | .remove true _, deque => deque.tail
  | .remove false _, deque => deque.dropLast
  | _, deque => deque

theorem Place.leaves_eq_of_not_holds {place : Place T}
    (holdsNot : place.holds .muxQueue = false) (deque : List T) : place.leaves deque = deque := by
  cases place with
  | remove atFront msg => cases holdsNot
  | _ => rfl

/-! ## What the functions do to a deque -/

/-- What a function does to a deque, and what it returns. The front and the back of an empty deque
are undefined, and `wait` does not return while it is empty. -/
def apply (deque : List T) : Operation T → Option (List T × Value T)
  | .front => deque.head?.map fun msg => (deque, .message msg)
  | .back => deque.getLast?.map fun msg => (deque, .message msg)
  | .pushBack msg => some (deque ++ [msg], .nothing)
  | .pushFront msg => some (msg :: deque, .nothing)
  | .empty => some (deque, .isEmpty deque.isEmpty)
  | .clear => some ([], .nothing)
  | .count => some (deque, .size deque.length)
  | .popFront => deque.head?.map fun msg => (deque.tail, .message msg)
  | .popBack => deque.getLast?.map fun msg => (deque.dropLast, .message msg)
  | .wait => if deque.isEmpty then none else some (deque, .nothing)

/-- The functions one at a time. -/
def spec : ObjectSpec (List T) (Operation T) (Value T) := ⟨apply⟩

/-! ## What a step does -/

structure Sound (queue : SharedQueue T) : Prop where
  coherent : Coherent queue.holder fun thread => (queue.place thread).holds
  sleepers : ∀ thread ∈ queue.sleepers, queue.place thread = .waitAsleep
  nodup : queue.sleepers.Nodup

theorem sound_start : Sound (start : SharedQueue T) :=
  ⟨fun _ _ => iff_of_false nofun nofun, nofun, List.nodup_nil⟩

/-- A thread goes to another place and works on a mutex, or on none. -/
structure Move (queue : SharedQueue T) (thread : ℕ) (place : Place T) (next : SharedQueue T) :
    Prop where
  places : next.place = Function.update queue.place thread place
  mutexes : LockMove thread queue.holder (queue.place thread).holds next.holder place.holds
  awake : queue.place thread ≠ .waitAsleep
  sleepers : next.sleepers = queue.sleepers ∨
    (next.sleepers = queue.sleepers ++ [thread] ∧ place = .waitAsleep)

/-- What a step of a thread does to the deque: nothing, or it removes what was moved out before, or
the function that it has called takes effect. -/
inductive Progress (queue : SharedQueue T) (thread : ℕ) (place : Place T) (next : SharedQueue T) :
    Prop where
  | quiet (phase : place.phase = (queue.place thread).phase)
      (deque : next.deqQueue = queue.deqQueue)
      (leaves : place.leaves = (queue.place thread).leaves)
  | removes (has : (queue.place thread).holds .muxQueue = true)
      (stillHas : place.holds .muxQueue = true)
      (phase : place.phase = (queue.place thread).phase)
      (leaves : place.leaves next.deqQueue = (queue.place thread).leaves queue.deqQueue)
  | effect (operation : Operation T) (value : Value T)
      (has : (queue.place thread).holds .muxQueue = true)
      (stillHas : place.holds .muxQueue = true)
      (called : (queue.place thread).phase = .called operation)
      (done : place.phase = .done operation value)
      (applied : apply ((queue.place thread).leaves queue.deqQueue) operation =
        some (place.leaves next.deqQueue, value))

theorem lock_eq_some {queue next : SharedQueue T} {mutex : Mutex} {thread : ℕ}
    (taken : queue.lock mutex thread = some next) :
    queue.holder mutex = none ∧
      next = { queue with holder := Function.update queue.holder mutex (some thread) } := by
  simp only [lock] at taken
  split at taken
  case isTrue free => cases taken; exact ⟨free, rfl⟩
  case isFalse => cases taken

/-- A thread that works on the deque goes on to another place with `muxQueue`, or finds nothing
there. -/
theorem operate_moves {movedFrom : T → T} {queue : SharedQueue T} {thread : ℕ}
    {operation : Operation T} (isPlace : queue.place thread = .work operation) :
    ∃ place, Move queue thread place (queue.operate movedFrom thread operation) ∧
      Progress queue thread place (queue.operate movedFrom thread operation) := by
  have awake : queue.place thread ≠ .waitAsleep := by rw [isPlace]; nofun
  have has : (queue.place thread).holds .muxQueue = true := by rw [isPlace]; rfl
  have called : (queue.place thread).phase = .called operation := by rw [isPlace]; rfl
  have leaves : (queue.place thread).leaves queue.deqQueue = queue.deqQueue := by rw [isPlace]; rfl
  -- an undefined access leaves everything as it is
  have stays : ∀ fault, ∃ place, Move queue thread place { queue with fault } ∧
      Progress queue thread place { queue with fault } := fun fault =>
    ⟨queue.place thread, ⟨(Function.update_eq_self thread queue.place).symm, .keep rfl rfl, awake,
      .inl rfl⟩, .quiet rfl rfl rfl⟩
  -- the other places have `muxQueue` alone
  have moves : ∀ (place : Place T) (deque : List T),
      place.holds = (Place.work operation).holds →
        Move queue thread place ({ queue with deqQueue := deque }.setPlace thread place) :=
    fun place deque same => ⟨rfl, by rw [isPlace]; exact .keep rfl same, awake, .inl rfl⟩
  cases operation with
  | front =>
      cases first : queue.deqQueue.head? with
      | none => simpa only [operate, first] using stays _
      | some msg =>
          refine ⟨.unlockQueue .front (.message msg), ?_, ?_⟩
          · simp only [operate, first]
            exact moves _ _ rfl
          · simp only [operate, first]
            refine .effect .front (.message msg) has rfl called rfl ?_
            rw [leaves, apply, first]
            rfl
  | back =>
      cases last : queue.deqQueue.getLast? with
      | none => simpa only [operate, last] using stays _
      | some msg =>
          refine ⟨.unlockQueue .back (.message msg), ?_, ?_⟩
          · simp only [operate, last]
            exact moves _ _ rfl
          · simp only [operate, last]
            refine .effect .back (.message msg) has rfl called rfl ?_
            rw [leaves, apply, last]
            rfl
  | pushBack msg =>
      refine ⟨.lockWait (.pushBack msg), moves _ _ rfl, ?_⟩
      exact .effect (.pushBack msg) .nothing has rfl called rfl (by rw [leaves]; rfl)
  | pushFront msg =>
      refine ⟨.lockWait (.pushFront msg), moves _ _ rfl, ?_⟩
      exact .effect (.pushFront msg) .nothing has rfl called rfl (by rw [leaves]; rfl)
  | empty =>
      refine ⟨_, moves _ queue.deqQueue rfl, ?_⟩
      exact .effect .empty (.isEmpty queue.deqQueue.isEmpty) has rfl called rfl
        (by rw [leaves]; rfl)
  | clear =>
      refine ⟨_, moves _ [] rfl, ?_⟩
      exact .effect .clear .nothing has rfl called rfl (by rw [leaves]; rfl)
  | count =>
      refine ⟨_, moves _ queue.deqQueue rfl, ?_⟩
      exact .effect .count (.size queue.deqQueue.length) has rfl called rfl (by rw [leaves]; rfl)
  | popFront =>
      cases first : queue.deqQueue.head? with
      | none => simpa only [operate, first] using stays _
      | some msg =>
          refine ⟨.remove true msg, ?_, ?_⟩
          · simp only [operate, first]
            exact moves _ _ rfl
          · simp only [operate, first]
            refine .effect .popFront (.message msg) has rfl called rfl ?_
            rw [leaves, apply, first]
            rfl
  | popBack =>
      cases last : queue.deqQueue.getLast? with
      | none => simpa only [operate, last] using stays _
      | some msg =>
          refine ⟨.remove false msg, ?_, ?_⟩
          · simp only [operate, last]
            exact moves _ _ rfl
          · simp only [operate, last]
            refine .effect .popBack (.message msg) has rfl called rfl ?_
            rw [leaves, apply, last]
            simp [Place.leaves, setPlace]
  | wait => exact stays queue.fault

/-- A thread locks a mutex. -/
theorem lock_moves {queue next : SharedQueue T} {thread : ℕ} {mutex : Mutex}
    {before place : Place T}
    (isPlace : queue.place thread = before)
    (taken : (queue.lock mutex thread).map (·.setPlace thread place) = some next)
    (awake : before ≠ .waitAsleep) (follows : place.holds = Function.update before.holds mutex true)
    (phase : place.phase = before.phase) (leaves : place.leaves = before.leaves) :
    ∃ place, Move queue thread place next ∧ Progress queue thread place next := by
  subst isPlace
  obtain ⟨after, lockTaken, rfl⟩ := Option.map_eq_some_iff.mp taken
  obtain ⟨free, rfl⟩ := lock_eq_some lockTaken
  exact ⟨place, ⟨rfl, .acquire mutex free rfl follows, awake, .inl rfl⟩, .quiet phase rfl leaves⟩

/-- A thread unlocks a mutex. -/
theorem unlock_moves {queue next : SharedQueue T} {thread : ℕ} {mutex : Mutex}
    {before place : Place T} (isPlace : queue.place thread = before)
    (taken : some ((queue.unlock mutex).setPlace thread place) = some next)
    (has : before.holds mutex = true) (awake : before ≠ .waitAsleep)
    (follows : place.holds = Function.update before.holds mutex false)
    (phase : place.phase = before.phase) (leaves : place.leaves = before.leaves) :
    ∃ place, Move queue thread place next ∧ Progress queue thread place next := by
  subst isPlace
  cases taken
  exact ⟨place, ⟨rfl, .release mutex has rfl follows, awake, .inl rfl⟩, .quiet phase rfl leaves⟩

/-- **What a step of a thread does.** -/
theorem threadStep_moves {movedFrom : T → T} {queue next : SharedQueue T} {thread : ℕ}
    (taken : queue.threadStep movedFrom thread = some next) :
    ∃ place, Move queue thread place next ∧ Progress queue thread place next := by
  simp only [threadStep] at taken
  cases isPlace : queue.place thread with
  | idle => simp only [isPlace] at taken; cases taken
  | lockQueue operation =>
      simp only [isPlace] at taken
      exact lock_moves isPlace taken nofun (by funext mutex; cases mutex <;> rfl) rfl rfl
  | work operation =>
      simp only [isPlace, Option.some.injEq] at taken
      subst taken
      exact operate_moves isPlace
  | remove atFront msg =>
      cases atFront with
      | true =>
          simp only [isPlace, Option.some.injEq] at taken
          subst taken
          refine ⟨.unlockQueue .popFront (.message msg),
            ⟨rfl, ?_, by simp [isPlace], .inl rfl⟩, .removes ?_ rfl ?_ ?_⟩
          · rw [isPlace]
            exact .keep rfl rfl
          · rw [isPlace]; rfl
          · rw [isPlace]; rfl
          · rw [isPlace]; rfl
      | false =>
          simp only [isPlace, Option.some.injEq] at taken
          subst taken
          refine ⟨.unlockQueue .popBack (.message msg),
            ⟨rfl, ?_, by simp [isPlace], .inl rfl⟩, .removes ?_ rfl ?_ ?_⟩
          · rw [isPlace]
            exact .keep rfl rfl
          · rw [isPlace]; rfl
          · rw [isPlace]; rfl
          · rw [isPlace]; rfl
  | lockWait operation =>
      simp only [isPlace] at taken
      exact lock_moves isPlace taken nofun (by funext mutex; cases mutex <;> rfl) rfl rfl
  | notify operation => simp only [isPlace] at taken; cases taken
  | unlockWait operation =>
      simp only [isPlace] at taken
      exact unlock_moves isPlace taken rfl nofun (by funext mutex; cases mutex <;> rfl) rfl rfl
  | unlockQueue operation value =>
      simp only [isPlace] at taken
      exact unlock_moves isPlace taken rfl nofun (by funext mutex; cases mutex <;> rfl) rfl rfl
  | waitLock =>
      simp only [isPlace] at taken
      exact lock_moves isPlace taken nofun (by funext mutex; cases mutex <;> rfl) rfl rfl
  | waitLockQueue =>
      simp only [isPlace] at taken
      exact lock_moves isPlace taken nofun (by funext mutex; cases mutex <;> rfl) rfl rfl
  | waitEmpty =>
      simp only [isPlace, Option.some.injEq] at taken
      subst taken
      have move : Move queue thread (.waitUnlockQueue queue.deqQueue.isEmpty)
          (queue.setPlace thread (.waitUnlockQueue queue.deqQueue.isEmpty)) :=
        ⟨rfl, by rw [isPlace]; exact .keep rfl rfl, by simp [isPlace], .inl rfl⟩
      refine ⟨_, move, ?_⟩
      -- `wait` takes effect when it finds the queue not empty
      cases isEmpty : queue.deqQueue.isEmpty with
      | true => exact .quiet (by rw [isPlace]; rfl) rfl (by rw [isPlace]; rfl)
      | false =>
          refine .effect .wait .nothing ?_ rfl ?_ rfl ?_
          · rw [isPlace]; rfl
          · rw [isPlace]; rfl
          · rw [isPlace]
            simp [apply, Place.leaves, setPlace, isEmpty]
  | waitUnlockQueue isEmpty =>
      simp only [isPlace] at taken
      cases isEmpty with
      | true =>
          exact unlock_moves isPlace taken rfl nofun (by funext mutex; cases mutex <;> rfl) rfl rfl
      | false =>
          exact unlock_moves isPlace taken rfl nofun (by funext mutex; cases mutex <;> rfl) rfl rfl
  | waitCv =>
      simp only [isPlace, Option.some.injEq] at taken
      subst taken
      refine ⟨.waitAsleep, ⟨rfl, ?_, by simp [isPlace], .inr ⟨rfl, rfl⟩⟩, .quiet ?_ rfl ?_⟩
      · rw [isPlace]
        exact .release .muxWait rfl rfl (by funext mutex; cases mutex <;> rfl)
      · rw [isPlace]; rfl
      · rw [isPlace]; rfl
  | waitAsleep => simp only [isPlace] at taken; cases taken
  | waitRelock =>
      simp only [isPlace] at taken
      exact lock_moves isPlace taken nofun (by funext mutex; cases mutex <;> rfl) rfl rfl
  | waitUnlock =>
      simp only [isPlace] at taken
      exact unlock_moves isPlace taken rfl nofun (by funext mutex; cases mutex <;> rfl) rfl rfl
  | leave operation value => simp only [isPlace] at taken; cases taken

/-! ## Soundness -/

theorem Sound.move {queue next : SharedQueue T} {thread : ℕ} {place : Place T} (sound : Sound queue)
    (move : Move queue thread place next) : Sound next := by
  have placeOf : ∀ other, next.place other = Function.update queue.place thread place other :=
    fun other => congrFun move.places other
  have others : ∀ other ≠ thread, next.place other = queue.place other := fun other differs => by
    rw [placeOf, Function.update_of_ne differs]
  have own : next.place thread = place := by rw [placeOf, Function.update_self]
  have awake : thread ∉ queue.sleepers := fun sleeps => move.awake (sound.sleepers thread sleeps)
  have mutexes := move.mutexes
  rw [← own] at mutexes
  refine ⟨sound.coherent.move mutexes ?_, ?_, ?_⟩
  · intro other differs
    rw [others other differs]
  · intro other member
    rcases move.sleepers with same | ⟨appended, asleep⟩
    · rw [same] at member
      rw [others other fun isThread => awake (isThread ▸ member)]
      exact sound.sleepers other member
    · rw [appended, List.mem_append, List.mem_singleton] at member
      rcases member with member | rfl
      · rw [others other fun isThread => awake (isThread ▸ member)]
        exact sound.sleepers other member
      · rw [own, asleep]
  · rcases move.sleepers with same | ⟨appended, -⟩
    · rw [same]
      exact sound.nodup
    · rw [appended]
      exact sound.nodup.append (List.nodup_singleton thread) (by simpa using awake)

/-- A sleeping thread holds nothing, and still does not when it has been woken. -/
theorem Sound.wake {queue : SharedQueue T} {thread : ℕ} (sound : Sound queue)
    (sleeps : thread ∈ queue.sleepers) : Sound (queue.wake thread) := by
  have asleep := sound.sleepers thread sleeps
  have others : ∀ other ≠ thread, (queue.wake thread).place other = queue.place other :=
    fun other differs => Function.update_of_ne differs ..
  have own : (queue.wake thread).place thread = .waitRelock := Function.update_self ..
  refine ⟨sound.coherent.keep ?_, ?_, sound.nodup.erase thread⟩
  · intro other mutex
    by_cases same : other = thread
    · subst same
      rw [own, asleep]
      rfl
    · rw [others other same]
  · intro other member
    have ⟨differs, slept⟩ := (List.Nodup.mem_erase_iff sound.nodup).mp member
    rw [others other differs]
    exact sound.sleepers other slept

/-! ## What the threads see -/

/-- The deque as the threads see it: without what a pop has moved out of it. -/
def shown (queue : SharedQueue T) : List T :=
  match queue.holder .muxQueue with
  | none => queue.deqQueue
  | some thread => (queue.place thread).leaves queue.deqQueue

/-- The object and what the threads have called. -/
def shows (queue : SharedQueue T) : Atomic ℕ (List T) (Operation T) (Value T) :=
  ⟨queue.shown, fun thread => (queue.place thread).phase⟩

theorem Sound.shown_of_holds {queue : SharedQueue T} {thread : ℕ} (sound : Sound queue)
    (has : (queue.place thread).holds .muxQueue = true) :
    queue.shown = (queue.place thread).leaves queue.deqQueue := by
  rw [shown, (sound.coherent .muxQueue thread).mpr has]

theorem shown_of_leaves {queue : SharedQueue T}
    (leaves : ∀ thread, (queue.place thread).leaves queue.deqQueue = queue.deqQueue) :
    queue.shown = queue.deqQueue := by
  rw [shown]
  split
  · rfl
  · exact leaves _

/-- Locking and unlocking does not change what the deque looks like. -/
theorem Sound.shown_eq {queue next : SharedQueue T} (sound : Sound queue) (soundNext : Sound next)
    (deque : next.deqQueue = queue.deqQueue)
    (leaves : ∀ thread, (next.place thread).leaves = (queue.place thread).leaves) :
    next.shown = queue.shown := by
  by_cases untouched : ∀ thread, (queue.place thread).leaves queue.deqQueue = queue.deqQueue
  · rw [shown_of_leaves untouched, shown_of_leaves, deque]
    intro thread
    rw [leaves, deque, untouched]
  · obtain ⟨thread, touched⟩ := not_forall.mp untouched
    have has : (queue.place thread).holds .muxQueue = true := by
      by_contra holdsNot
      exact touched (Place.leaves_eq_of_not_holds (by simpa using holdsNot) _)
    have stillHas : (next.place thread).holds .muxQueue = true := by
      by_contra holdsNot
      rw [← leaves] at touched
      exact touched (Place.leaves_eq_of_not_holds (by simpa using holdsNot) _)
    rw [sound.shown_of_holds has, soundNext.shown_of_holds stillHas, leaves, deque]

theorem phase_update (places : ℕ → Place T) (thread : ℕ) (place : Place T) :
    (fun other => (Function.update places thread place other).phase) =
      Function.update (fun other => (places other).phase) thread place.phase := by
  funext other
  by_cases same : other = thread
  · subst same
    rw [Function.update_self, Function.update_self]
  · rw [Function.update_of_ne same, Function.update_of_ne same]

theorem Move.shows {queue next : SharedQueue T} {thread : ℕ} {place : Place T}
    (move : Move queue thread place next) :
    next.shows = ⟨next.shown, Function.update queue.shows.phase thread place.phase⟩ := by
  rw [SharedQueue.shows, move.places, phase_update]
  rfl

theorem Move.leaves {queue next : SharedQueue T} {thread : ℕ} {place : Place T}
    (move : Move queue thread place next) (same : place.leaves = (queue.place thread).leaves)
    (other : ℕ) : (next.place other).leaves = (queue.place other).leaves := by
  rw [move.places]
  by_cases isThread : other = thread
  · subst isThread
    rw [Function.update_self, same]
  · rw [Function.update_of_ne isThread]

variable [DecidableEq T]

/-- What the threads see of a step: calls and returns. -/
def record (queue : SharedQueue T) : Event T → List (Mark ℕ (Operation T) (Value T))
  | .call thread operation => [.called thread operation]
  | .ret thread =>
      match queue.place thread with
      | .leave operation value => [.returned thread operation value]
      | _ => []
  | _ => []

/-- Marks of effects match the step of the queue. -/
def Matched (queue next : SharedQueue T) (seen : List (Mark ℕ (Operation T) (Value T))) : Prop :=
  ∃ marks, runFrom (Atomic.step spec) queue.shows marks = some next.shows ∧
    marks.filter Mark.isSeen = seen

theorem matched_of_eq {queue next : SharedQueue T} (same : next.shows = queue.shows) :
    Matched queue next [] := ⟨[], by rw [same]; rfl, rfl⟩

/-- A step of a thread is matched by the effect of what it has called, or by nothing. -/
theorem Sound.matched {queue next : SharedQueue T} {thread : ℕ} {place : Place T}
    (sound : Sound queue) (move : Move queue thread place next)
    (progress : Progress queue thread place next) : Matched queue next [] := by
  have soundNext := sound.move move
  have own : next.place thread = place := by rw [move.places, Function.update_self]
  have samePhases : place.phase = (queue.place thread).phase →
      Function.update queue.shows.phase thread place.phase = queue.shows.phase := fun same => by
    rw [same]
    exact Function.update_eq_self ..
  cases progress with
  | quiet phase deque leaves =>
      refine matched_of_eq ?_
      rw [move.shows, samePhases phase, sound.shown_eq soundNext deque (move.leaves leaves)]
      rfl
  | removes has stillHas phase leaves =>
      refine matched_of_eq ?_
      rw [move.shows, samePhases phase, soundNext.shown_of_holds (own ▸ stillHas), own, leaves,
        ← sound.shown_of_holds has]
      rfl
  | effect operation value has stillHas called done applied =>
      have nextShown : next.shown = place.leaves next.deqQueue := by
        rw [soundNext.shown_of_holds (own ▸ stillHas), own]
      have isCalled : queue.shows.phase thread = .called operation := called
      refine ⟨[.effect thread operation value], ?_, rfl⟩
      refine (runFrom_cons ?_ []).trans (runFrom_nil next.shows)
      rw [← sound.shown_of_holds has, ← nextShown] at applied
      rw [Atomic.step, show spec.apply queue.shows.state operation = some (next.shown, value) from
        applied]
      simp only [isCalled, true_and, if_true]
      rw [move.shows, done]
      rfl

/-- A thread that goes elsewhere without touching the deque or a mutex is matched by a mark that
sets its phase. -/
theorem Sound.marked {queue next : SharedQueue T} {thread : ℕ} {place : Place T}
    {mark : Mark ℕ (Operation T) (Value T)} (sound : Sound queue)
    (move : Move queue thread place next) (deque : next.deqQueue = queue.deqQueue)
    (leaves : place.leaves = (queue.place thread).leaves)
    (taken : Atomic.step spec queue.shows mark = some (queue.shows.setPhase thread place.phase)) :
    runFrom (Atomic.step spec) queue.shows [mark] = some next.shows := by
  rw [runFrom_cons taken, move.shows, sound.shown_eq (sound.move move) deque (move.leaves leaves)]
  rfl

omit [DecidableEq T] in
/-- What the threads see does not change when one is woken. -/
theorem Sound.shows_wake {queue : SharedQueue T} {thread : ℕ} (sound : Sound queue)
    (sleeps : thread ∈ queue.sleepers) : (queue.wake thread).shows = queue.shows := by
  have asleep := sound.sleepers thread sleeps
  have places : (queue.wake thread).place = Function.update queue.place thread .waitRelock := rfl
  have phases : (fun other => ((queue.wake thread).place other).phase) = queue.shows.phase := by
    rw [places, phase_update]
    refine Function.update_eq_iff.mpr ⟨?_, fun _ _ => rfl⟩
    change Phase.called .wait = (queue.place thread).phase
    rw [asleep]
    rfl
  have leaves : ∀ other, ((queue.wake thread).place other).leaves = (queue.place other).leaves := by
    intro other
    rw [places]
    by_cases same : other = thread
    · subst same
      rw [Function.update_self, asleep]
      rfl
    · rw [Function.update_of_ne same]
  rw [shows, phases, sound.shown_eq (sound.wake sleeps) rfl leaves]
  rfl

/-- **Every step keeps the queue sound and is matched by marks.** -/
theorem Sound.step {movedFrom : T → T} {queue next : SharedQueue T} {event : Event T}
    (sound : Sound queue) (taken : queue.step movedFrom event = some next) :
    Sound next ∧ Matched queue next (queue.record event) := by
  simp only [SharedQueue.step] at taken
  split at taken
  case h_1 => cases taken
  case h_2 =>
  cases event with
  | call thread operation =>
      have goesTo : ∃ place : Place T, queue.place thread = .idle ∧
          next = queue.setPlace thread place ∧ place.phase = .called operation ∧
            place.holds = (Place.idle : Place T).holds ∧
              place.leaves = (Place.idle : Place T).leaves := by
        simp only [act] at taken
        split at taken
        case h_1 isIdle => cases taken; exact ⟨.waitLock, isIdle, rfl, rfl, rfl, rfl⟩
        case h_2 isIdle _ => cases taken; exact ⟨.lockQueue _, isIdle, rfl, rfl, rfl, rfl⟩
        case h_3 => cases taken
      obtain ⟨place, isIdle, rfl, phase, holds, leaves⟩ := goesTo
      have move : Move queue thread place (queue.setPlace thread place) :=
        ⟨rfl, by rw [isIdle]; exact .keep rfl holds, by simp [isIdle], .inl rfl⟩
      refine ⟨sound.move move, [.called thread operation], ?_, rfl⟩
      refine sound.marked move rfl (by rw [isIdle, leaves]) ?_
      have phaseIdle : queue.shows.phase thread = .idle := by
        change (queue.place thread).phase = .idle
        rw [isIdle]
        rfl
      rw [Atomic.step, if_pos phaseIdle, phase]
  | thread thread =>
      obtain ⟨place, move, progress⟩ := threadStep_moves taken
      exact ⟨sound.move move, sound.matched move progress⟩
  | notifyOne thread woken =>
      simp only [act] at taken
      split at taken
      case h_1 operation isPlace =>
        split at taken
        case isTrue nobody =>
          cases taken
          have move : Move queue thread (.unlockWait operation)
              (queue.setPlace thread (.unlockWait operation)) :=
            ⟨rfl, by rw [isPlace]; exact .keep rfl rfl, by simp [isPlace], .inl rfl⟩
          refine ⟨sound.move move, sound.matched move (.quiet ?_ rfl ?_)⟩
          · rw [isPlace]; rfl
          · rw [isPlace]; rfl
        case isFalse => cases taken
      case h_2 operation sleeper isPlace =>
        split at taken
        case isTrue sleeps =>
          cases taken
          -- the sleeper is another thread, and it is woken first
          have differs : thread ≠ sleeper := by
            rintro rfl
            have asleep := sound.sleepers thread sleeps
            rw [isPlace] at asleep
            cases asleep
          have stillPlace : (queue.wake sleeper).place thread = .notify operation := by
            rw [← isPlace]
            exact Function.update_of_ne differs ..
          have soundWoken := sound.wake sleeps
          have move : Move (queue.wake sleeper) thread (.unlockWait operation)
              ((queue.wake sleeper).setPlace thread (.unlockWait operation)) :=
            ⟨rfl, by rw [stillPlace]; exact .keep rfl rfl, by simp [stillPlace], .inl rfl⟩
          refine ⟨soundWoken.move move, ?_⟩
          obtain ⟨marks, run, seen⟩ := soundWoken.matched move
            (.quiet (by rw [stillPlace]; rfl) rfl (by rw [stillPlace]; rfl))
          exact ⟨marks, by rw [← sound.shows_wake sleeps]; exact run, seen⟩
        case isFalse => cases taken
      case h_3 => cases taken
  | spuriousWakeup thread =>
      simp only [act] at taken
      split at taken
      case isTrue sleeps =>
        cases taken
        exact ⟨sound.wake sleeps, matched_of_eq (sound.shows_wake sleeps)⟩
      case isFalse => cases taken
  | ret thread =>
      simp only [act] at taken
      split at taken
      case h_1 operation value isPlace =>
        cases taken
        have move : Move queue thread .idle (queue.setPlace thread .idle) :=
          ⟨rfl, by rw [isPlace]; exact .keep rfl rfl, by simp [isPlace], .inl rfl⟩
        have recorded : queue.record (.ret thread) = [.returned thread operation value] := by
          simp only [record, isPlace]
        refine ⟨sound.move move, [.returned thread operation value], ?_, recorded.symm⟩
        refine sound.marked move rfl (by rw [isPlace]; rfl) ?_
        have phaseDone : queue.shows.phase thread = .done operation value := by
          change (queue.place thread).phase = .done operation value
          rw [isPlace]
          rfl
        rw [Atomic.step, if_pos phaseDone]
        rfl
      case h_2 => cases taken

/-- **The marks of a run**, with the calls and returns that the threads saw. -/
theorem marks_of_run {movedFrom : T → T} {events : List (Event T)} {final : SharedQueue T}
    {history : List (Mark ℕ (Operation T) (Value T))}
    (run : runFrom (logged (SharedQueue.step movedFrom) record) (start, []) events =
      some (final, history)) :
    ∃ marks, runFrom (Atomic.step spec) (Atomic.fresh []) marks = some final.shows ∧
      marks.filter Mark.isSeen = history := by
  have keeps : ∀ queue event next, Sound queue →
      SharedQueue.step movedFrom queue event = some next →
      Sound next := fun queue event next sound taken => (sound.step taken).1
  have matched : ∀ queue event next, Sound queue →
      SharedQueue.step movedFrom queue event = some next →
        ∃ marks, runFrom (Atomic.step spec) queue.shows marks = some next.shows ∧
          marks.filter Mark.isSeen = queue.record event :=
    fun queue event next sound taken => (sound.step taken).2
  exact linearizable_of_simulation keeps matched sound_start rfl run

/-- **Every history of calls and returns is one of a deque** whose functions take effect one after
the other, each between its call and its return. -/
theorem linearizable (movedFrom : T → T) {events : List (Event T)} {final : SharedQueue T}
    {history : List (Mark ℕ (Operation T) (Value T))}
    (run : runFrom (logged (SharedQueue.step movedFrom) record) (start, []) events =
      some (final, history)) :
    Linearizable spec [] history := by
  obtain ⟨marks, reached, seen⟩ := marks_of_run run
  exact ⟨marks, final.shows, reached, seen⟩

/-- A thread calls `pop_front` while another one is inside `push_back`, and waits for it. -/
def passing : List (Event ℕ) :=
  [.call 1 (.pushBack 5), .thread 1, .thread 1, .call 0 .popFront, .thread 1, .notifyOne 1 none,
    .thread 1, .thread 1, .ret 1, .thread 0, .thread 0, .thread 0, .thread 0, .ret 0]

/-- What the two threads see of it. -/
def passed : List (Mark ℕ (Operation ℕ) (Value ℕ)) :=
  [.called 1 (.pushBack 5), .called 0 .popFront, .returned 1 (.pushBack 5) .nothing,
    .returned 0 .popFront (.message 5)]

theorem linearizable_passing : Linearizable spec [] passed :=
  @linearizable ℕ _ (fun _ => 0) passing _ _ rfl

end SharedQueue

end NetworkChat
