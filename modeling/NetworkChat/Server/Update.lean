import NetworkChat.Server.Handlers
import NetworkChat.TsQueue.Wakeup

/-!
# `Update` in atomic steps

The connections push what they read into `m_qMessagesIn`, each in
`AddToIncomimgMessageQueue`, and one thread calls `Update`, with any limits one after the
other. The steps of `push_back`, `wait`, `empty` and `pop_front` are those of the queue
(`TsQueue.step`), and the connections push between any two of them.

Three logs are kept beside the state of the source: the messages that the connections
read, those that were inserted into the queue, and those given to `OnMessage`. The
messages inserted are at every moment the messages handled, the one in the hand of the
thread and the ones in the queue, in this order (`Sound.conserved`).
-/

set_option autoImplicit false

namespace NetworkChat

open Foundation

/-- The places of `wait`. -/
def ConsumerPlace.inWait : ConsumerPlace → Bool
  | .idle => false
  | .lockQueue _ => false
  | .operate _ => false
  | .unlockQueue => false
  | _ => true

/-- The place of the thread that calls `Update`. -/
inductive UpdatePlace (T : Type) where
  | idle
  /-- In `wait`. -/
  | wait
  /-- At the comparison of `MsgCount` and `nMaxMessages`. -/
  | compare
  /-- In `empty`, before it has looked. -/
  | empty
  | emptyReturns (isEmpty : Bool)
  /-- In `pop_front`, before it has popped. -/
  | popFront
  | popFrontReturns (msg : T)
  /-- About to call `OnMessage`. -/
  | callOnMessage (msg : T)
  | inOnMessage
  deriving DecidableEq, Repr

/-- The message that is popped and not yet handled. -/
def UpdatePlace.inHand {T : Type} : UpdatePlace T → List T
  | .popFrontReturns msg => [msg]
  | .callOnMessage msg => [msg]
  | _ => []

structure Updates (Msg : Type) where
  qMessagesIn : TsQueue (ConnectionPtr × Msg)
  place : UpdatePlace (ConnectionPtr × Msg)
  /-- The argument of the last call of `Update`. -/
  nMaxMessages : UInt64
  /-- `MsgCount` of the last call. -/
  msgCount : UInt64
  /-- What the connections read so far. -/
  read : List (ConnectionPtr × Msg)
  /-- What was inserted into the queue so far. -/
  pushed : List (ConnectionPtr × Msg)
  /-- What was given to `OnMessage` so far. -/
  handled : List (ConnectionPtr × Msg)

namespace Updates

variable {Msg : Type}

def start : Updates Msg := ⟨TsQueue.start, .idle, 0, 0, [], [], []⟩

/-- The thread takes a step in the queue and goes to a place. -/
def work (s : Updates Msg) (event : TsQueue.Event (ConnectionPtr × Msg))
    (place : UpdatePlace (ConnectionPtr × Msg)) : Option (Updates Msg) :=
  (s.qMessagesIn.step event).map fun queue => { s with qMessagesIn := queue, place := place }

/-- The next step of the thread that calls `Update`. -/
def threadStep (s : Updates Msg) : Option (Updates Msg) :=
  match s.place with
  | .idle => none
  | .wait =>
      if s.qMessagesIn.consumer = .idle then some { s with place := .compare }
      else s.work .consumer .wait
  | .compare =>
      if s.msgCount < s.nMaxMessages then s.work (.call .empty) .empty
      else some { s with place := .idle }
  | .empty =>
      if s.qMessagesIn.consumer = .operate .empty then
        s.work .consumer (.emptyReturns s.qMessagesIn.deqQueue.isEmpty)
      else s.work .consumer .empty
  | .emptyReturns isEmpty =>
      if s.qMessagesIn.consumer = .idle then
        if isEmpty then some { s with place := .idle } else s.work (.call .popFront) .popFront
      else s.work .consumer (.emptyReturns isEmpty)
  | .popFront =>
      match s.qMessagesIn.consumer, s.qMessagesIn.deqQueue with
      | .operate .popFront, msg :: _ => s.work .consumer (.popFrontReturns msg)
      | _, _ => s.work .consumer .popFront
  | .popFrontReturns msg =>
      if s.qMessagesIn.consumer = .idle then some { s with place := .callOnMessage msg }
      else s.work .consumer (.popFrontReturns msg)
  | .callOnMessage msg => some { s with place := .inOnMessage, handled := s.handled ++ [msg] }
  | .inOnMessage => some { s with place := .compare, msgCount := s.msgCount + 1 }

/-- What the next step of a producer inserts. -/
def inserted : ProducerPlace (ConnectionPtr × Msg) → List (ConnectionPtr × Msg)
  | .insert _ msg => [msg]
  | _ => []

inductive Event (Msg : Type) where
  /-- A connection has read a message and calls `push_back`. -/
  | addToIncomimgMessageQueue (client : ConnectionPtr) (msg : Msg)
  /-- The push of a connection goes on. -/
  | push (client : ConnectionPtr)
  /-- `cv.wait` wakes up for no reason. -/
  | spuriousWakeup
  /-- The thread calls `Update`. -/
  | update (nMaxMessages : UInt64) (lowcpu : Bool)
  /-- `Update` goes on. -/
  | thread

def step (s : Updates Msg) : Event Msg → Option (Updates Msg)
  | .addToIncomimgMessageQueue client msg =>
      (s.qMessagesIn.step (.push client false (client, msg))).map fun queue =>
        { s with qMessagesIn := queue, read := s.read ++ [(client, msg)] }
  | .push client =>
      (s.qMessagesIn.step (.producer client)).map fun queue =>
        { s with
          qMessagesIn := queue, pushed := s.pushed ++ inserted (s.qMessagesIn.producers client) }
  | .spuriousWakeup => s.work .spuriousWakeup s.place
  | .update nMaxMessages lowcpu =>
      match s.place with
      | .idle =>
          let s := { s with nMaxMessages := nMaxMessages, msgCount := 0 }
          if lowcpu then s.work .wait .wait else some { s with place := .compare }
      | _ => none
  | .thread => s.threadStep

theorem work_eq_some {s next : Updates Msg} {event : TsQueue.Event (ConnectionPtr × Msg)}
    {place : UpdatePlace (ConnectionPtr × Msg)} (taken : s.work event place = some next) :
    ∃ queue, s.qMessagesIn.step event = some queue ∧
      next = { s with qMessagesIn := queue, place := place } := by
  obtain ⟨queue, moved, rfl⟩ := Option.map_eq_some_iff.mp taken
  exact ⟨queue, moved, rfl⟩

/-! ## What a step of the thread does -/

/-- The thread stands inside `wait`, `empty` or `pop_front`, where its step is that of the
queue and leads to the same place. -/
def Inside (s : Updates Msg) : Prop :=
  match s.place with
  | .idle => False
  | .wait => s.qMessagesIn.consumer ≠ .idle
  | .compare => False
  | .empty => s.qMessagesIn.consumer ≠ .operate .empty
  | .emptyReturns _ => s.qMessagesIn.consumer ≠ .idle
  | .popFront => s.qMessagesIn.consumer ≠ .operate .popFront ∨ s.qMessagesIn.deqQueue = []
  | .popFrontReturns _ => s.qMessagesIn.consumer ≠ .idle
  | .callOnMessage _ => False
  | .inOnMessage => False

/-- The steps of the thread, one case for each line of `Update` and one for the steps
inside the functions of the queue. -/
inductive ThreadMove (s next : Updates Msg) : Prop where
  | works (inside : Inside s) (taken : s.work .consumer s.place = some next)
  | waited (place : s.place = .wait) (returned : s.qMessagesIn.consumer = .idle)
      (goes : next = { s with place := .compare })
  | enters (place : s.place = .compare) (below : s.msgCount < s.nMaxMessages)
      (taken : s.work (.call .empty) .empty = some next)
  | leaves (place : s.place = .compare) (reached : ¬ s.msgCount < s.nMaxMessages)
      (goes : next = { s with place := .idle })
  | looks (place : s.place = .empty) (stands : s.qMessagesIn.consumer = .operate .empty)
      (taken : s.work .consumer (.emptyReturns s.qMessagesIn.deqQueue.isEmpty) = some next)
  | stops (place : s.place = .emptyReturns true) (returned : s.qMessagesIn.consumer = .idle)
      (goes : next = { s with place := .idle })
  | finds (place : s.place = .emptyReturns false) (returned : s.qMessagesIn.consumer = .idle)
      (taken : s.work (.call .popFront) .popFront = some next)
  | pops (msg : ConnectionPtr × Msg) (later : List (ConnectionPtr × Msg))
      (place : s.place = .popFront) (stands : s.qMessagesIn.consumer = .operate .popFront)
      (elements : s.qMessagesIn.deqQueue = msg :: later)
      (taken : s.work .consumer (.popFrontReturns msg) = some next)
  | popped (msg : ConnectionPtr × Msg) (place : s.place = .popFrontReturns msg)
      (returned : s.qMessagesIn.consumer = .idle)
      (goes : next = { s with place := .callOnMessage msg })
  | gives (msg : ConnectionPtr × Msg) (place : s.place = .callOnMessage msg)
      (goes : next = { s with place := .inOnMessage, handled := s.handled ++ [msg] })
  | counts (place : s.place = .inOnMessage)
      (goes : next = { s with place := .compare, msgCount := s.msgCount + 1 })

/-- **What a step of the thread does.** -/
theorem threadMove_of_step {s next : Updates Msg} (taken : s.threadStep = some next) :
    ThreadMove s next := by
  simp only [threadStep] at taken
  cases place : s.place with
  | idle => simp only [place] at taken; cases taken
  | wait =>
      simp only [place] at taken
      split at taken
      case isTrue returned => cases taken; exact .waited place returned rfl
      case isFalse busy => exact .works (by rw [Inside, place]; exact busy) (place ▸ taken)
  | compare =>
      simp only [place] at taken
      split at taken
      case isTrue below => exact .enters place below taken
      case isFalse reached => cases taken; exact .leaves place reached rfl
  | empty =>
      simp only [place] at taken
      split at taken
      case isTrue stands => exact .looks place stands taken
      case isFalse notYet => exact .works (by rw [Inside, place]; exact notYet) (place ▸ taken)
  | emptyReturns isEmpty =>
      simp only [place] at taken
      split at taken
      case isTrue returned =>
        cases isEmpty with
        | true => cases taken; exact .stops place returned rfl
        | false => exact .finds place returned taken
      case isFalse busy => exact .works (by rw [Inside, place]; exact busy) (place ▸ taken)
  | popFront =>
      simp only [place] at taken
      split at taken
      · rename_i msg later stands elements
        exact .pops msg later place stands elements taken
      · rename_i notPopping
        refine .works ?_ (place ▸ taken)
        rw [Inside, place]
        cases elements : s.qMessagesIn.deqQueue with
        | nil => exact .inr rfl
        | cons msg later => exact .inl fun stands => notPopping msg later stands elements
  | popFrontReturns msg =>
      simp only [place] at taken
      split at taken
      case isTrue returned => cases taken; exact .popped msg place returned rfl
      case isFalse busy => exact .works (by rw [Inside, place]; exact busy) (place ▸ taken)
  | callOnMessage msg =>
      simp only [place] at taken
      cases taken
      exact .gives msg place rfl
  | inOnMessage =>
      simp only [place] at taken
      cases taken
      exact .counts place rfl

/-! ## The queue and the thread agree -/

/-- Where the consumer of the queue stands when the thread is at a place, and what the
thread knows of the queue. -/
def Placed (queue : TsQueue (ConnectionPtr × Msg)) : UpdatePlace (ConnectionPtr × Msg) → Prop
  | .idle => queue.consumer = .idle
  | .wait => queue.consumer.inWait = true ∨ queue.consumer = .idle
  | .compare => queue.consumer = .idle
  | .empty => queue.consumer = .lockQueue .empty ∨ queue.consumer = .operate .empty
  | .emptyReturns isEmpty => (queue.consumer = .unlockQueue ∨ queue.consumer = .idle) ∧
      (isEmpty = false → queue.deqQueue ≠ [])
  | .popFront => (queue.consumer = .lockQueue .popFront ∨ queue.consumer = .operate .popFront) ∧
      queue.deqQueue ≠ []
  | .popFrontReturns _ => queue.consumer = .unlockQueue ∨ queue.consumer = .idle
  | .callOnMessage _ => queue.consumer = .idle
  | .inOnMessage => queue.consumer = .idle

/-- What a connection pushes is its own and goes to the back; it is the last that it
read. -/
def Pushing (s : Updates Msg) (client : ConnectionPtr) : Prop :=
  ∃ msgs : List Msg,
    (s.qMessagesIn.producers client).pending = msgs.map (fun msg => (false, (client, msg))) ∧
      entriesOf client s.read = entriesOf client s.pushed ++ msgs

structure Sound (s : Updates Msg) : Prop where
  wakeful : s.qMessagesIn.Wakeful
  noFault : s.qMessagesIn.fault = none
  placed : Placed s.qMessagesIn s.place
  conserved : s.pushed = s.handled ++ s.place.inHand ++ s.qMessagesIn.deqQueue
  pushing : ∀ client, Pushing s client

theorem sound_start : Sound (start : Updates Msg) :=
  ⟨TsQueue.wakeful_start, rfl, rfl, rfl, fun _ => ⟨[], rfl, rfl⟩⟩

/-! ## Steps in the queue -/

/-- The step leaves the elements and the producers alone. -/
structure SameElements (queue next : TsQueue (ConnectionPtr × Msg)) : Prop where
  deqQueue : next.deqQueue = queue.deqQueue
  fault : next.fault = queue.fault
  producers : next.producers = queue.producers

section Queue

variable {queue next : TsQueue (ConnectionPtr × Msg)}

/-- Only the operations work on the elements. -/
theorem sameElements_of_consumer (taken : queue.step .consumer = some next)
    (quiet : ∀ op, queue.consumer ≠ .operate op) : SameElements queue next := by
  have moves := TsQueue.consumerMoves_of_step (TsQueue.step_eq_some taken)
  exact ⟨(moves.elements quiet).1, (moves.elements quiet).2, moves.producers⟩

theorem consumer_next (taken : queue.step .consumer = some next) :
    next.consumer = queue.consumer.next queue.deqQueue.isEmpty :=
  (TsQueue.consumerMoves_of_step (TsQueue.step_eq_some taken)).consumer

/-- A step inside `wait` stays in it or returns. -/
theorem consumer_of_wait (taken : queue.step .consumer = some next)
    (inWait : queue.consumer.inWait = true) :
    next.consumer.inWait = true ∨ next.consumer = .idle := by
  rw [consumer_next taken]
  cases place : queue.consumer with
  | unlockQueueInWait isEmpty => cases isEmpty <;> exact .inl rfl
  | unlockWait => exact .inr rfl
  | idle => exact .inr rfl
  | lockQueue op => rw [place] at inWait; cases inWait
  | operate op => rw [place] at inWait; cases inWait
  | unlockQueue => exact .inr rfl
  | _ => exact .inl rfl

theorem consumer_of_lockQueue {op : QueueOp} (taken : queue.step .consumer = some next)
    (asks : queue.consumer = .lockQueue op) : next.consumer = .operate op := by
  rw [consumer_next taken, asks]
  rfl

theorem consumer_of_unlockQueue (taken : queue.step .consumer = some next)
    (leaves : queue.consumer = .unlockQueue) : next.consumer = .idle := by
  rw [consumer_next taken, leaves]
  rfl

theorem eq_of_operate {op : QueueOp} (taken : queue.step .consumer = some next)
    (works : queue.consumer = .operate op) :
    next = (queue.operate op).setConsumer .unlockQueue := by
  replace taken := TsQueue.step_eq_some taken
  simp only [TsQueue.act, TsQueue.consumerStep, works] at taken
  exact (Option.some.inj taken).symm

theorem eq_of_call {op : QueueOp} (taken : queue.step (.call op) = some next) :
    next = queue.setConsumer (.lockQueue op) := by
  replace taken := TsQueue.step_eq_some taken
  simp only [TsQueue.act] at taken
  split at taken
  case isTrue => exact (Option.some.inj taken).symm
  case isFalse => cases taken

theorem eq_of_wait (taken : queue.step .wait = some next) :
    next = queue.setConsumer .lockWait := by
  replace taken := TsQueue.step_eq_some taken
  simp only [TsQueue.act] at taken
  split at taken
  case isTrue => exact (Option.some.inj taken).symm
  case isFalse => cases taken

/-- A wakeup, for whatever reason, moves a consumer that is asleep in `wait`; the places
where the thread is elsewhere are not touched. -/
theorem Placed.woken {place : UpdatePlace (ConnectionPtr × Msg)} (placed : Placed queue place)
    (consumer : next.consumer = queue.consumer ∨
      queue.consumer = .asleep ∧ next.consumer = .relockWait)
    (grows : queue.deqQueue ≠ [] → next.deqQueue ≠ []) : Placed next place := by
  rcases consumer with same | ⟨asleep, woken⟩
  · cases place <;> simp only [Placed, same] at placed ⊢
    case emptyReturns isEmpty => exact ⟨placed.1, fun full => grows (placed.2 full)⟩
    case popFront => exact ⟨placed.1, grows placed.2⟩
    all_goals exact placed
  · cases place <;> simp [Placed, asleep] at placed
    case wait => exact .inl (by rw [woken]; rfl)

end Queue

/-! ## Every step keeps them in agreement -/

section Steps

variable {s next : Updates Msg}

/-- A step of the thread that works on the mutexes only. -/
theorem Sound.work {event : TsQueue.Event (ConnectionPtr × Msg)}
    {place : UpdatePlace (ConnectionPtr × Msg)} (sound : Sound s)
    (taken : s.work event place = some next)
    (same : ∀ queue, s.qMessagesIn.step event = some queue → SameElements s.qMessagesIn queue)
    (inHand : place.inHand = s.place.inHand)
    (placed : ∀ queue, s.qMessagesIn.step event = some queue → Placed queue place) :
    Sound next := by
  obtain ⟨queue, moved, rfl⟩ := work_eq_some taken
  have same := same queue moved
  refine ⟨sound.wakeful.step moved, same.fault.trans sound.noFault, placed queue moved, ?_, ?_⟩
  · show s.pushed = s.handled ++ place.inHand ++ queue.deqQueue
    rw [inHand, same.deqQueue]
    exact sound.conserved
  · intro client
    simpa only [Pushing, same.producers] using sound.pushing client

/-- The thread goes to a place without a step in the queue. -/
theorem Sound.go {place : UpdatePlace (ConnectionPtr × Msg)} (sound : Sound s)
    (inHand : place.inHand = s.place.inHand) (placed : Placed s.qMessagesIn place) :
    Sound { s with place := place } where
  wakeful := sound.wakeful
  noFault := sound.noFault
  placed := placed
  conserved := by
    rw [inHand]
    exact sound.conserved
  pushing := sound.pushing

/-- The thread calls an operation. -/
theorem Sound.call {op : QueueOp} {place : UpdatePlace (ConnectionPtr × Msg)} (sound : Sound s)
    (taken : s.work (.call op) place = some next) (inHand : place.inHand = s.place.inHand)
    (placed : Placed (s.qMessagesIn.setConsumer (.lockQueue op)) place) : Sound next := by
  refine sound.work taken (fun queue moved => ?_) inHand (fun queue moved => ?_)
  · rw [eq_of_call moved]
    exact ⟨rfl, rfl, rfl⟩
  · rw [eq_of_call moved]
    exact placed

/-- A step of the consumer that is not an operation. -/
theorem Sound.consumer {place : UpdatePlace (ConnectionPtr × Msg)} (sound : Sound s)
    (taken : s.work .consumer place = some next)
    (quiet : ∀ op, s.qMessagesIn.consumer ≠ .operate op) (inHand : place.inHand = s.place.inHand)
    (placed : ∀ queue, s.qMessagesIn.step .consumer = some queue →
      queue.deqQueue = s.qMessagesIn.deqQueue → Placed queue place) : Sound next :=
  sound.work taken (fun _ moved => sameElements_of_consumer moved quiet) inHand
    fun queue moved => placed queue moved (sameElements_of_consumer moved quiet).deqQueue

/-- A step inside a function of the queue leads to a place of it. -/
theorem Sound.inside (sound : Sound s) (inside : Inside s) :
    (∀ op, s.qMessagesIn.consumer ≠ .operate op) ∧
      ∀ queue, s.qMessagesIn.step .consumer = some queue →
        queue.deqQueue = s.qMessagesIn.deqQueue → Placed queue s.place := by
  have placed := sound.placed
  cases place : s.place with
  | idle => rw [Inside, place] at inside; cases inside
  | compare => rw [Inside, place] at inside; cases inside
  | callOnMessage msg => rw [Inside, place] at inside; cases inside
  | inOnMessage => rw [Inside, place] at inside; cases inside
  | wait =>
      rw [place] at placed
      rw [Inside, place] at inside
      have inWait := placed.resolve_right inside
      refine ⟨fun op operates => ?_, fun queue moved _ => consumer_of_wait moved inWait⟩
      rw [operates] at inWait
      cases inWait
  | empty =>
      rw [place] at placed
      rw [Inside, place] at inside
      have asks := placed.resolve_right inside
      refine ⟨fun op operates => ?_, fun queue moved _ => .inr (consumer_of_lockQueue moved asks)⟩
      cases asks.symm.trans operates
  | emptyReturns isEmpty =>
      rw [place] at placed
      rw [Inside, place] at inside
      have leaves := placed.1.resolve_right inside
      refine ⟨fun op operates => ?_, fun queue moved same =>
        ⟨.inr (consumer_of_unlockQueue moved leaves), fun full => same ▸ placed.2 full⟩⟩
      cases leaves.symm.trans operates
  | popFront =>
      rw [place] at placed
      rw [Inside, place] at inside
      have asks := placed.1.resolve_right (inside.resolve_right placed.2)
      refine ⟨fun op operates => ?_, fun queue moved same =>
        ⟨.inr (consumer_of_lockQueue moved asks), same ▸ placed.2⟩⟩
      cases asks.symm.trans operates
  | popFrontReturns msg =>
      rw [place] at placed
      rw [Inside, place] at inside
      have leaves := placed.resolve_right inside
      refine ⟨fun op operates => ?_, fun queue moved _ =>
        .inr (consumer_of_unlockQueue moved leaves)⟩
      cases leaves.symm.trans operates

theorem Sound.threadStep (sound : Sound s) (taken : s.threadStep = some next) : Sound next := by
  have placed := sound.placed
  have conserved := sound.conserved
  cases threadMove_of_step taken with
  | works inside taken =>
      obtain ⟨quiet, stays⟩ := sound.inside inside
      exact sound.consumer taken quiet rfl stays
  | waited place returned goes =>
      subst goes
      exact sound.go (by rw [place]; rfl) returned
  | enters place below taken => exact sound.call taken (by rw [place]; rfl) (.inl rfl)
  | leaves place reached goes =>
      subst goes
      rw [place] at placed
      exact sound.go (by rw [place]; rfl) placed
  | looks place stands taken =>
      refine sound.work taken (fun queue moved => ?_) (by rw [place]; rfl) fun queue moved => ?_
      · rw [eq_of_operate moved stands]
        exact ⟨rfl, rfl, rfl⟩
      · rw [eq_of_operate moved stands]
        exact ⟨.inl rfl, fun full => List.isEmpty_eq_false_iff.mp full⟩
  | stops place returned goes =>
      subst goes
      exact sound.go (by rw [place]; rfl) returned
  | finds place returned taken =>
      rw [place] at placed
      exact sound.call taken (by rw [place]; rfl) ⟨.inl rfl, placed.2 rfl⟩
  | pops msg later place stands elements taken =>
      obtain ⟨queue, moved, rfl⟩ := work_eq_some taken
      -- the look of `empty` was right: the element is still in front
      have popped : queue =
          { s.qMessagesIn with deqQueue := later }.setConsumer .unlockQueue := by
        rw [eq_of_operate moved stands, TsQueue.operate, elements]
      rw [place, elements] at conserved
      refine ⟨sound.wakeful.step moved, ?_, ?_, ?_, fun client => ?_⟩
      · rw [popped]
        exact sound.noFault
      · rw [popped]
        exact .inl rfl
      · rw [popped]
        simpa [UpdatePlace.inHand, TsQueue.setConsumer] using conserved
      · rw [popped]
        exact sound.pushing client
  | popped msg place returned goes =>
      subst goes
      exact sound.go (by rw [place]; rfl) returned
  | gives msg place goes =>
      subst goes
      rw [place] at placed conserved
      refine ⟨sound.wakeful, sound.noFault, placed, ?_, sound.pushing⟩
      simpa only [UpdatePlace.inHand, List.append_nil] using conserved
  | counts place goes =>
      subst goes
      rw [place] at placed conserved
      exact ⟨sound.wakeful, sound.noFault, placed, conserved, sound.pushing⟩

/-- What a producer pushes stays as it is but for the insertion. -/
theorem pending_next {place : ProducerPlace (ConnectionPtr × Msg)}
    (noInsert : ∀ atFront msg, place ≠ .insert atFront msg) :
    place.next.pending = place.pending ∧ inserted place = [] := by
  cases place with
  | insert atFront msg => exact absurd rfl (noInsert atFront msg)
  | _ => exact ⟨rfl, rfl⟩

/-- The push of a connection goes on. -/
theorem Sound.push {client : ConnectionPtr} (sound : Sound s)
    (taken : s.step (.push client) = some next) : Sound next := by
  obtain ⟨queue, moved, rfl⟩ := Option.map_eq_some_iff.mp taken
  have wakeful := sound.wakeful.step moved
  have moves := TsQueue.producerMoves_of_step (TsQueue.step_eq_some moved)
  -- what the others push is not touched
  have others : ∀ other ≠ client, ∀ pushed,
      entriesOf other pushed = entriesOf other s.pushed →
        Pushing { s with qMessagesIn := queue, pushed := pushed } other := by
    intro other different pushed same
    obtain ⟨msgs, pending, read⟩ := sound.pushing other
    refine ⟨msgs, ?_, by rw [same]; exact read⟩
    rw [moves.producers, Function.update_of_ne different]
    exact pending
  obtain ⟨msgs, pending, read⟩ := sound.pushing client
  by_cases inserting : ∃ atFront msg, s.qMessagesIn.producers client = .insert atFront msg
  · obtain ⟨atFront, msg, place⟩ := inserting
    obtain ⟨deqQueue, consumer⟩ : queue.deqQueue = s.qMessagesIn.pushed atFront msg ∧
        queue.consumer = s.qMessagesIn.consumer := by
      rcases moves.effect with ⟨_, _, same, deqQueue, consumer⟩ | ⟨other, -⟩ | ⟨other, -⟩
      · cases place.symm.trans same
        exact ⟨deqQueue, consumer⟩
      · cases place.symm.trans other
      · exact absurd place (other atFront msg)
    rw [place] at pending
    obtain ⟨own, rfl⟩ : ∃ own, msgs = [own] := by
      cases msgs with
      | nil => cases pending
      | cons own later => cases later <;> cases pending; exact ⟨own, rfl⟩
    cases pending
    refine ⟨wakeful, moves.fault.trans sound.noFault, ?_, ?_, fun other => ?_⟩
    · refine sound.placed.woken (.inl consumer) fun _ => ?_
      rw [deqQueue]
      exact TsQueue.pushed_ne_nil _ _ _
    · show s.pushed ++ inserted (s.qMessagesIn.producers client) = _
      rw [place, deqQueue, sound.conserved]
      simp [inserted, TsQueue.pushed]
    · rw [place]
      by_cases same : other = client
      · subst same
        refine ⟨[], ?_, ?_⟩
        · rw [moves.producers, Function.update_self, place]
          rfl
        · rw [List.append_nil]
          exact read.trans (entriesOf_concat_self ..).symm
      · exact others other same _ (entriesOf_concat_other (Ne.symm same) ..)
  · -- neither a notification nor a mutex changes what is pushed and what is pending
    obtain ⟨samePending, inserts⟩ :=
      pending_next fun atFront msg place => inserting ⟨atFront, msg, place⟩
    obtain ⟨deqQueue, woken⟩ : queue.deqQueue = s.qMessagesIn.deqQueue ∧
        (queue.consumer = s.qMessagesIn.consumer ∨
          s.qMessagesIn.consumer = .asleep ∧ queue.consumer = .relockWait) := by
      rcases moves.effect with ⟨atFront, msg, place, -⟩ | ⟨-, deqQueue, consumer⟩ |
        ⟨-, -, deqQueue, consumer⟩
      · exact absurd ⟨atFront, msg, place⟩ inserting
      · refine ⟨deqQueue, ?_⟩
        split at consumer
        case isTrue asleep => exact .inr ⟨asleep, consumer⟩
        case isFalse => exact .inl consumer
      · exact ⟨deqQueue, .inl consumer⟩
    rw [inserts, List.append_nil]
    refine ⟨wakeful, moves.fault.trans sound.noFault, ?_, ?_, fun other => ?_⟩
    · exact sound.placed.woken woken fun full => deqQueue ▸ full
    · rw [deqQueue]
      exact sound.conserved
    · by_cases same : other = client
      · subst same
        refine ⟨msgs, ?_, read⟩
        rw [moves.producers, Function.update_self, samePending]
        exact pending
      · exact others other same _ rfl

/-- A connection calls `push_back` with what it has read. -/
theorem Sound.read {client : ConnectionPtr} {msg : Msg} (sound : Sound s)
    (taken : s.step (.addToIncomimgMessageQueue client msg) = some next) : Sound next := by
  obtain ⟨queue, moved, rfl⟩ := Option.map_eq_some_iff.mp taken
  have wakeful := sound.wakeful.step moved
  have acted := TsQueue.step_eq_some moved
  simp only [TsQueue.act] at acted
  split at acted
  · rename_i idle
    cases acted
    refine ⟨wakeful, sound.noFault, sound.placed.woken (.inl rfl) id, sound.conserved,
      fun other => ?_⟩
    obtain ⟨msgs, pending, read⟩ := sound.pushing other
    by_cases same : other = client
    · subst same
      rw [idle] at pending
      obtain rfl := List.map_eq_nil_iff.mp pending.symm
      refine ⟨[msg], by simp [TsQueue.setProducer, ProducerPlace.pending], ?_⟩
      rw [List.append_nil] at read
      exact (entriesOf_concat_self ..).trans (by rw [read])
    · refine ⟨msgs, ?_, (entriesOf_concat_other (Ne.symm same) ..).trans read⟩
      simpa [TsQueue.setProducer, same] using pending
  · cases acted

/-- **Every step keeps the queue and the thread in agreement.** -/
theorem Sound.step {event : Event Msg} (sound : Sound s) (taken : s.step event = some next) :
    Sound next := by
  cases event with
  | addToIncomimgMessageQueue client msg => exact sound.read taken
  | push client => exact sound.push taken
  | spuriousWakeup =>
      obtain ⟨queue, moved, -⟩ := work_eq_some taken
      have acted := TsQueue.step_eq_some moved
      simp only [TsQueue.act] at acted
      split at acted
      case isFalse => cases acted
      case isTrue asleep =>
        cases acted
        refine sound.work taken (fun queue again => ?_) rfl fun queue again => ?_
        · cases moved.symm.trans again
          exact ⟨rfl, rfl, rfl⟩
        · cases moved.symm.trans again
          exact sound.placed.woken (.inr ⟨asleep, rfl⟩) id
  | update nMaxMessages lowcpu =>
      simp only [Updates.step] at taken
      cases place : s.place with
      | idle =>
          simp only [place] at taken
          have called : Sound { s with nMaxMessages := nMaxMessages, msgCount := 0 } :=
            ⟨sound.wakeful, sound.noFault, sound.placed, sound.conserved, sound.pushing⟩
          cases lowcpu with
          | true =>
              refine called.work taken (fun queue moved => ?_) (by rw [place]; rfl)
                fun queue moved => ?_
              · rw [eq_of_wait moved]
                exact ⟨rfl, rfl, rfl⟩
              · rw [eq_of_wait moved]
                exact .inl rfl
          | false =>
              cases taken
              refine called.go (by rw [place]; rfl) ?_
              have idle := sound.placed
              rw [place] at idle
              exact idle
      | _ => simp only [place] at taken; cases taken
  | thread => exact sound.threadStep taken

theorem sound_of_reachable (reachable : Reachable step start s) : Sound s :=
  invariant_of_reachable (fun _ _ _ sound taken => sound.step taken) sound_start reachable

end Steps

/-- **No wakeup is lost.** Whatever the consumer of a queue calls, it never sleeps
beside an element unless a producer that has inserted is still to notify, and `wait`
returns to a queue that is not empty. The thread that calls `Update` never pops from an
empty one. -/
theorem no_lost_wakeup {T : Type} {queue : TsQueue T} {s : Updates Msg}
    (reachable : Reachable TsQueue.step TsQueue.start queue) (updating : Reachable step start s) :
    (queue.consumer = .asleep → queue.deqQueue ≠ [] →
        ∃ index, queue.producers index = .lockWait ∨ queue.producers index = .notify) ∧
      (∀ next, queue.consumer = .unlockWait → queue.step .consumer = some next →
        next.consumer = .idle ∧ next.deqQueue ≠ []) ∧
      (s.place = .popFront → s.qMessagesIn.deqQueue ≠ []) ∧ s.qMessagesIn.fault = none := by
  have wakeful := TsQueue.wakeful_of_reachable reachable
  have sound := sound_of_reachable updating
  refine ⟨wakeful.notified, fun next => wakeful.returns, fun pops => ?_, sound.noFault⟩
  have placed := sound.placed
  rw [pops] at placed
  exact placed.2

/-- The consumer looks at the empty queue; before it falls asleep a producer inserts. -/
def insertBeforeSleep : List (TsQueue.Event ℕ) :=
  [.wait, .consumer, .consumer, .consumer, .consumer, .push 0 false 7, .producer 0, .producer 0,
    .consumer]

/-- A message is read and pushed, and `Update` finds it. -/
def updateFinds : List (Event ℕ) :=
  [.addToIncomimgMessageQueue 0 7, .push 0, .push 0, .push 0, .push 0, .push 0, .push 0,
    .update (-1) true, .thread, .thread, .thread, .thread, .thread, .thread, .thread, .thread,
    .thread, .thread, .thread]

theorem insertBeforeSleep_runs :
    (runFrom TsQueue.step TsQueue.start insertBeforeSleep).isSome = true := by decide

theorem updateFinds_runs : (runFrom step start updateFinds).isSome = true := by decide

/-- The consumer sleeps beside the element, the producer stands in front of `muxWait`,
and a thread that found its message pops it. -/
theorem sleeper_notified : ∃ (queue : TsQueue ℕ) (s : Updates ℕ),
    queue.consumer = .asleep ∧ queue.deqQueue = [7] ∧ s.place = .popFront ∧
      (∃ index, queue.producers index = .lockWait ∨ queue.producers index = .notify) ∧
        s.qMessagesIn.deqQueue ≠ [] := by
  have lost := no_lost_wakeup
    ⟨insertBeforeSleep, (Option.some_get insertBeforeSleep_runs).symm⟩
    ⟨updateFinds, (Option.some_get updateFinds_runs).symm⟩
  exact ⟨_, _, by decide, by decide, by decide, lost.1 (by decide) (by decide),
    lost.2.2.1 (by decide)⟩

end Updates

end NetworkChat
