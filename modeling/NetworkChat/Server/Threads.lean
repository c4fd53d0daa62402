import NetworkChat.Server.System
import NetworkChat.Server.Update

/-!
# The server with its two threads

One thread runs the `io_context`: it accepts connections and runs the handlers of their operations,
one after the other. A handler that has read a message stays in `push_back` until the message is in
the queue, while bytes go on arriving. The other thread calls `Update`. The two meet at the mutexes
of the queue, so between any two steps of one of them the other one may go on.

`ChatServer` knows nothing of this: a handler reads and queues in one step, and `Update` takes a
message off the queue and handles it in one step. What a state of the threads shows as
the queue of `ChatServer` is what `Update` has in its hand, the elements of the deque, what is
inside `push_back` and what is still to be pushed, in this order (`shows`). Every step of a thread
is a step of `ChatServer` or none (`Sound.simulates`), so all that holds of the runs of `ChatServer`
holds of the threads (`refines_chatServer`).
-/

set_option autoImplicit false

namespace NetworkChat

open Foundation

structure ServerThreads where
  server : CustomServer
  connections : List (Connection CustomMsgTypes)
  /-- The queue and the thread that calls `Update`. -/
  updates : Updates (Message CustomMsgTypes)
  /-- What a handler has read and not yet given to `push_back`. -/
  toPush : List Owned
  /-- The connection whose handler is inside `push_back`. -/
  pushing : Option ConnectionPtr
  /-- The messages given to `Send` so far. -/
  sends : List Owned
  /-- What left `OnMessage`. -/
  aborted : Option Fault

namespace ServerThreads

def start : ServerThreads := ⟨CustomServer.start, [], Updates.start, [], none, [], none⟩

/-- What the handlers see of a connection. -/
def view (s : ServerThreads) (client : ConnectionPtr) : Peer :=
  (s.connections.map ChatServer.peer).getD client ⟨0, false⟩

inductive Event where
  /-- A connection is accepted; the clock gives its validation code. -/
  | accept (clock : UInt64)
  /-- Something happens to a connection. -/
  | io (client : ConnectionPtr) (event : Connection.IoEvent CustomMsgTypes)
  /-- The handler that pushes goes on. -/
  | context
  /-- The other thread calls `Update`. -/
  | update (nMaxMessages : UInt64) (lowcpu : Bool)
  /-- `Update` goes on. -/
  | thread
  /-- `cv.wait` wakes up for no reason. -/
  | spuriousWakeup

/-- No handler is inside `push_back` or on its way there. -/
def contextIdle (s : ServerThreads) : Bool := s.pushing.isNone && s.toPush.isEmpty

/-- The network does not wait for the handlers. -/
def ofNetwork : Connection.IoEvent CustomMsgTypes → Bool
  | .arrive _ => true
  | _ => false

/-- The handler of `async_accept`, with `OnClientConnect`. -/
def accept (s : ServerThreads) (clock : UInt64) : ServerThreads :=
  let id := s.server.nIDCounter
  let welcome := CustomServer.idMsg .serverAccept id
  { s with
    server := { s.server with
      dequeConnections := s.server.dequeConnections ++ [s.connections.length],
      nIDCounter := id + 1 },
    connections := s.connections ++ [Connection.accept clock [welcome] id],
    sends := s.sends ++ [(s.connections.length, welcome)] }

/-- The next step of a handler that pushes. -/
def contextStep (s : ServerThreads) : Option ServerThreads :=
  match s.pushing, s.toPush with
  | some client, _ =>
      match s.updates.qMessagesIn.producers client with
      | .idle => some { s with pushing := none }
      | _ => (s.updates.step (.push client)).map fun updates => { s with updates }
  | none, (client, msg) :: later =>
      (s.updates.step (.addToIncomimgMessageQueue client msg)).map fun updates =>
        { s with updates, pushing := some client, toPush := later }
  | none, [] => none

/-- `OnMessage`, called by `Update`. -/
def handle (s : ServerThreads) (client : ConnectionPtr) (msg : Message CustomMsgTypes)
    (updates : Updates (Message CustomMsgTypes)) : ServerThreads :=
  match s.server.onMessage s.view client msg with
  | .ok (server, calls) =>
      { s with
        server, updates, connections := s.connections.mapIdx (ChatServer.giveAll calls),
        sends := s.sends ++ sendsOf calls }
  | .error fault => { s with updates, aborted := some fault }

/-- The next step of `Update`. -/
def threadStep (s : ServerThreads) : Option ServerThreads :=
  s.updates.threadStep.map fun updates =>
    match s.updates.place with
    | .callOnMessage (client, msg) => s.handle client msg updates
    | _ => { s with updates }

/-- The next state, if the event can happen. -/
def act (s : ServerThreads) : Event → Option ServerThreads
  | .accept clock => if s.contextIdle then some (s.accept clock) else none
  | .io client event =>
      match s.connections[client]? with
      | some c =>
          if ChatServer.ofIo event && (s.contextIdle || ofNetwork event) then
            (c.step event).map fun d => { s with
              connections := s.connections.set client d,
              toPush := s.toPush ++
                (d.qMessagesIn.drop c.qMessagesIn.length).map fun msg => (client, msg) }
          else none
      | none => none
  | .context => s.contextStep
  | .update nMaxMessages lowcpu =>
      (s.updates.step (.update nMaxMessages lowcpu)).map fun updates => { s with updates }
  | .thread => s.threadStep
  | .spuriousWakeup => (s.updates.step .spuriousWakeup).map fun updates => { s with updates }

/-- One step. Nothing happens after an abort. -/
def step (s : ServerThreads) (event : Event) : Option ServerThreads :=
  match s.aborted with
  | some _ => none
  | none => s.act event

theorem step_eq_some {s next : ServerThreads} {event : Event} (taken : s.step event = some next) :
    s.aborted = none ∧ s.act event = some next := by
  cases aborted : s.aborted with
  | none => exact ⟨rfl, by simpa only [step, aborted] using taken⟩
  | some fault => simp only [step, aborted] at taken; cases taken

/-! ## What the threads show -/

/-- What is inside `push_back` and not yet in the deque. -/
def inPush (s : ServerThreads) : List Owned :=
  match s.pushing with
  | some client => (s.updates.qMessagesIn.producers client).pending.map Prod.snd
  | none => []

/-- The server as if its handlers took turns. -/
def shows (s : ServerThreads) : ChatServer where
  server := s.server
  connections := s.connections
  qMessagesIn := s.updates.place.inHand ++ s.updates.qMessagesIn.deqQueue ++ s.inPush ++ s.toPush
  handled := s.updates.handled
  sends := s.sends
  aborted := s.aborted

end ServerThreads

namespace Updates

variable {Msg : Type}

/-! ## What a step leaves of the messages -/

/-- What the steps of `Update` and the wakeups leave alone. -/
structure SamePushes (s next : Updates Msg) : Prop where
  producers : next.qMessagesIn.producers = s.qMessagesIn.producers
  pushed : next.pushed = s.pushed

theorem producers_of_consumer {queue next : TsQueue (ConnectionPtr × Msg)}
    (taken : queue.step .consumer = some next) : next.producers = queue.producers :=
  (TsQueue.consumerMoves_of_step (TsQueue.step_eq_some taken)).producers

theorem SamePushes.work {s next : Updates Msg} {event : TsQueue.Event (ConnectionPtr × Msg)}
    {place : UpdatePlace (ConnectionPtr × Msg)} (taken : s.work event place = some next)
    (producers : ∀ queue, s.qMessagesIn.step event = some queue →
      queue.producers = s.qMessagesIn.producers) :
    SamePushes s next ∧ next.handled = s.handled := by
  obtain ⟨queue, moved, rfl⟩ := work_eq_some taken
  exact ⟨⟨producers queue moved, rfl⟩, rfl⟩

/-- A step of `Update` leaves the pushes alone, and gives one message to `OnMessage` or none. -/
theorem samePushes_of_threadStep {s next : Updates Msg} (taken : s.threadStep = some next) :
    SamePushes s next ∧
      ((∃ msg, s.place = .callOnMessage msg ∧ next.handled = s.handled ++ [msg]) ∨
        ((∀ msg, s.place ≠ .callOnMessage msg) ∧ next.handled = s.handled)) := by
  have quiet : ∀ {event place}, s.work event place = some next →
      (∀ queue, s.qMessagesIn.step event = some queue →
        queue.producers = s.qMessagesIn.producers) →
      (∀ msg, s.place ≠ .callOnMessage msg) → SamePushes s next ∧
        ((∃ msg, s.place = .callOnMessage msg ∧ next.handled = s.handled ++ [msg]) ∨
          ((∀ msg, s.place ≠ .callOnMessage msg) ∧ next.handled = s.handled)) :=
    fun taken producers elsewhere =>
      have ⟨same, handled⟩ := SamePushes.work taken producers
      ⟨same, .inr ⟨elsewhere, handled⟩⟩
  have called : ∀ {op queue}, s.qMessagesIn.step (.call op) = some queue →
      queue.producers = s.qMessagesIn.producers := fun moved => by
    rw [eq_of_call moved]
    rfl
  cases threadMove_of_step taken with
  | works inside taken =>
      refine quiet taken (fun _ => producers_of_consumer) fun msg place => ?_
      rw [Inside, place] at inside
      exact inside
  | waited place returned goes => subst goes; exact ⟨⟨rfl, rfl⟩, .inr ⟨by simp [place], rfl⟩⟩
  | enters place below taken => exact quiet taken (fun _ => called) (by simp [place])
  | leaves place reached goes => subst goes; exact ⟨⟨rfl, rfl⟩, .inr ⟨by simp [place], rfl⟩⟩
  | looks place stands taken => exact quiet taken (fun _ => producers_of_consumer) (by simp [place])
  | stops place returned goes => subst goes; exact ⟨⟨rfl, rfl⟩, .inr ⟨by simp [place], rfl⟩⟩
  | finds place returned taken => exact quiet taken (fun _ => called) (by simp [place])
  | pops msg later place stands elements taken =>
      exact quiet taken (fun _ => producers_of_consumer) (by simp [place])
  | popped msg place returned goes => subst goes; exact ⟨⟨rfl, rfl⟩, .inr ⟨by simp [place], rfl⟩⟩
  | gives msg place goes => subst goes; exact ⟨⟨rfl, rfl⟩, .inl ⟨msg, place, rfl⟩⟩
  | counts place goes => subst goes; exact ⟨⟨rfl, rfl⟩, .inr ⟨by simp [place], rfl⟩⟩

/-- What is popped and what is in the queue, when nothing is pushed or handled. -/
theorem Sound.sameQueue {s next : Updates Msg} (sound : Sound s) (soundNext : Sound next)
    (pushed : next.pushed = s.pushed) (handled : next.handled = s.handled) :
    next.place.inHand ++ next.qMessagesIn.deqQueue = s.place.inHand ++ s.qMessagesIn.deqQueue := by
  have before := sound.conserved
  have after := soundNext.conserved
  rw [pushed, before, handled, List.append_assoc, List.append_assoc] at after
  exact (List.append_cancel_left after).symm

/-- A wakeup and a call of `Update` leave the messages alone. -/
theorem sameMessages_of_step {s next : Updates Msg} {event : Event Msg}
    (taken : s.step event = some next)
    (kind : event = .spuriousWakeup ∨ ∃ nMaxMessages lowcpu, event = .update nMaxMessages lowcpu) :
    SamePushes s next ∧ next.handled = s.handled := by
  rcases kind with rfl | ⟨nMaxMessages, lowcpu, rfl⟩
  · refine SamePushes.work taken fun queue moved => ?_
    replace moved := TsQueue.step_eq_some moved
    simp only [TsQueue.act] at moved
    split at moved
    case isTrue => cases moved; rfl
    case isFalse => cases moved
  · simp only [step] at taken
    split at taken
    case h_1 =>
      split at taken
      case isTrue =>
        obtain ⟨same, handled⟩ := SamePushes.work taken fun queue moved => by
          rw [eq_of_wait moved]
          rfl
        exact ⟨⟨same.producers, same.pushed⟩, handled⟩
      case isFalse => cases taken; exact ⟨⟨rfl, rfl⟩, rfl⟩
    case h_2 => cases taken

/-- What a producer still has to insert, and what it inserts. -/
theorem pending_eq (place : ProducerPlace (ConnectionPtr × Msg)) :
    place.pending.map Prod.snd = inserted place ++ place.next.pending.map Prod.snd := by
  cases place <;> rfl

/-- A step of a push moves what it inserts into the queue. -/
theorem Sound.push_moves {s next : Updates Msg} {client : ConnectionPtr} (sound : Sound s)
    (taken : s.step (.push client) = some next) :
    next.handled = s.handled ∧ next.place = s.place ∧
      next.qMessagesIn.deqQueue ++ (next.qMessagesIn.producers client).pending.map Prod.snd =
        s.qMessagesIn.deqQueue ++ (s.qMessagesIn.producers client).pending.map Prod.snd := by
  have soundNext := sound.step taken
  obtain ⟨queue, moved, rfl⟩ := Option.map_eq_some_iff.mp taken
  have moves := TsQueue.producerMoves_of_step (TsQueue.step_eq_some moved)
  have place : queue.producers client = (s.qMessagesIn.producers client).next := by
    rw [moves.producers, Function.update_self]
  have deque : queue.deqQueue =
      s.qMessagesIn.deqQueue ++ inserted (s.qMessagesIn.producers client) := by
    have after := soundNext.conserved
    change s.pushed ++ inserted (s.qMessagesIn.producers client) =
      s.handled ++ s.place.inHand ++ queue.deqQueue at after
    rw [sound.conserved, List.append_assoc] at after
    exact (List.append_cancel_left after).symm
  refine ⟨rfl, rfl, ?_⟩
  rw [place, deque, List.append_assoc, ← pending_eq]

/-- A connection gives what it has read to `push_back`. -/
theorem read_moves {s next : Updates Msg} {client : ConnectionPtr} {msg : Msg}
    (taken : s.step (.addToIncomimgMessageQueue client msg) = some next) :
    next.handled = s.handled ∧ next.place = s.place ∧
      next.qMessagesIn.deqQueue = s.qMessagesIn.deqQueue ∧
        (next.qMessagesIn.producers client).pending.map Prod.snd = [(client, msg)] := by
  obtain ⟨queue, moved, rfl⟩ := Option.map_eq_some_iff.mp taken
  replace moved := TsQueue.step_eq_some moved
  simp only [TsQueue.act] at moved
  split at moved
  case h_1 =>
    cases moved
    refine ⟨rfl, rfl, rfl, ?_⟩
    simp [TsQueue.setProducer, ProducerPlace.pending]
  case h_2 => cases moved

end Updates

namespace ServerThreads

/-! ## Every step is a step of `ChatServer`, or none -/

variable {s next : ServerThreads}

/-- The queue and the thread that calls `Update` agree. -/
def Sound (s : ServerThreads) : Prop := Updates.Sound s.updates

theorem shows_eq_of_samePushes {updates : Updates (Message CustomMsgTypes)} (sound : Sound s)
    (soundNext : Updates.Sound updates) (same : Updates.SamePushes s.updates updates)
    (handled : updates.handled = s.updates.handled) : { s with updates }.shows = s.shows := by
  have queue := sound.sameQueue soundNext same.pushed handled
  have inPush : { s with updates }.inPush = s.inPush := by
    simp only [ServerThreads.inPush, same.producers]
  simp only [shows, inPush, handled, queue]

theorem Sound.contextStep (sound : Sound s) (taken : s.contextStep = some next) :
    Sound next ∧ next.shows = s.shows := by
  simp only [ServerThreads.contextStep] at taken
  split at taken
  case h_1 client _ pushing =>
    split at taken
    case h_1 idle =>
      cases taken
      refine ⟨sound, ?_⟩
      have nothing : s.inPush = [] := by
        rw [inPush, pushing]
        simp only [idle, ProducerPlace.pending, List.map_nil]
      simp only [shows, nothing]
      rfl
    case h_2 =>
      obtain ⟨updates, moved, rfl⟩ := Option.map_eq_some_iff.mp taken
      obtain ⟨handled, place, elements⟩ := Updates.Sound.push_moves sound moved
      refine ⟨Updates.Sound.step sound moved, ?_⟩
      simp only [shows, inPush, pushing, handled, place, List.append_assoc]
      rw [← List.append_assoc _ _ s.toPush, elements, List.append_assoc]
  case h_2 client msg later pushing toPush =>
    obtain ⟨updates, moved, rfl⟩ := Option.map_eq_some_iff.mp taken
    obtain ⟨handled, place, deque, inPush⟩ := Updates.read_moves moved
    refine ⟨Updates.Sound.step sound moved, ?_⟩
    have before : s.inPush = [] := by rw [ServerThreads.inPush, pushing]
    have after : { s with updates, pushing := some client, toPush := later }.inPush =
        [(client, msg)] := inPush
    simp only [shows, before, after, handled, place, deque, toPush, List.append_assoc]
    rfl
  case h_3 => cases taken

/-- `OnMessage` does to what is shown what it does to the server. -/
theorem handle_shows {client : ConnectionPtr} {msg : Message CustomMsgTypes} {later : List Owned}
    {updates : Updates (Message CustomMsgTypes)}
    (queue : { s with updates }.shows.qMessagesIn = later)
    (handled : updates.handled = s.updates.handled ++ [(client, msg)]) :
    (s.handle client msg updates).shows = s.shows.handle client msg later := by
  have sameView : s.shows.view = s.view := rfl
  have elements : updates.place.inHand ++ updates.qMessagesIn.deqQueue ++
      { s with updates }.inPush ++ s.toPush = later := queue
  rcases ChatServer.handle_cases s.shows client msg later with
    ⟨server, calls, returned, shown⟩ | ⟨fault, returned, shown⟩
  · rw [shown, handle]
    rw [sameView] at returned
    simp only [shows] at returned ⊢
    simp only [returned, handled, ← elements]
    rfl
  · rw [shown, handle]
    rw [sameView] at returned
    simp only [shows] at returned ⊢
    simp only [returned, handled, ← elements]
    rfl

theorem Sound.threadStep (sound : Sound s) (running : s.aborted = none)
    (taken : s.threadStep = some next) :
    Sound next ∧ (next.shows = s.shows ∨ s.shows.step .update = some next.shows) := by
  obtain ⟨updates, moved, rfl⟩ := Option.map_eq_some_iff.mp taken
  have stepped : s.updates.step .thread = some updates := moved
  have soundNext : Updates.Sound updates := Updates.Sound.step sound stepped
  obtain ⟨same, ⟨⟨client, msg⟩, place, handled⟩ | ⟨elsewhere, handled⟩⟩ :=
    Updates.samePushes_of_threadStep moved
  · -- the message in the hand is the first of the queue that is shown
    have handled' : updates.handled ++ (updates.place.inHand ++ updates.qMessagesIn.deqQueue) =
        s.updates.handled ++ (s.updates.place.inHand ++ s.updates.qMessagesIn.deqQueue) := by
      rw [← List.append_assoc, ← soundNext.conserved, same.pushed, Updates.Sound.conserved sound,
        List.append_assoc]
    rw [handled, List.append_assoc] at handled'
    have inPush : { s with updates }.inPush = s.inPush := by
      simp only [ServerThreads.inPush, same.producers]
    have queue : s.shows.qMessagesIn =
        (client, msg) :: { s with updates }.shows.qMessagesIn := by
      have elements := List.append_cancel_left handled'
      change s.updates.place.inHand ++ s.updates.qMessagesIn.deqQueue ++ s.inPush ++ s.toPush =
        (client, msg) :: (updates.place.inHand ++ updates.qMessagesIn.deqQueue ++
          { s with updates }.inPush ++ s.toPush)
      rw [inPush, ← elements]
      rfl
    have stepped : s.shows.step .update =
        some (s.shows.handle client msg { s with updates }.shows.qMessagesIn) := by
      have going : s.shows.aborted = none := running
      simp only [ChatServer.step, going, ChatServer.act, queue]
    simp only [place]
    refine ⟨?_, .inr ?_⟩
    · rw [handle]
      split
      · exact soundNext
      · exact soundNext
    · rw [stepped, handle_shows rfl handled]
  · split
    case h_1 client msg place => exact absurd place (elsewhere _)
    case h_2 => exact ⟨soundNext, .inl (shows_eq_of_samePushes sound soundNext same handled)⟩

/-- **A step of the threads is a step of `ChatServer`, or nothing is seen of it.** -/
theorem Sound.simulates {event : Event} (sound : Sound s) (taken : s.step event = some next) :
    Sound next ∧ (next.shows = s.shows ∨ ∃ seen, s.shows.step seen = some next.shows) := by
  obtain ⟨running, taken⟩ := step_eq_some taken
  have going : ∀ seen, s.shows.step seen = s.shows.act seen := by
    intro seen
    have running' : s.shows.aborted = none := running
    simp only [ChatServer.step, running']
  cases event with
  | accept clock =>
      simp only [act] at taken
      split at taken
      case isTrue =>
        cases taken
        exact ⟨sound, .inr ⟨.accept clock, by rw [going]; rfl⟩⟩
      case isFalse => cases taken
  | io client event =>
      simp only [act] at taken
      split at taken
      case h_1 c found =>
        split at taken
        case isTrue allowed =>
          obtain ⟨d, moved, rfl⟩ := Option.map_eq_some_iff.mp taken
          refine ⟨sound, .inr ⟨.io client event, ?_⟩⟩
          have ofIo : ChatServer.ofIo event = true := (Bool.and_eq_true_iff.mp allowed).1
          rw [going, ChatServer.act]
          simp only [shows, found, ofIo, if_true, moved, Option.map_some, inPush, List.append_assoc]
        case isFalse => cases taken
      case h_2 => cases taken
  | context =>
      obtain ⟨soundNext, same⟩ := sound.contextStep taken
      exact ⟨soundNext, .inl same⟩
  | update nMaxMessages lowcpu =>
      obtain ⟨updates, moved, rfl⟩ := Option.map_eq_some_iff.mp taken
      obtain ⟨same, handled⟩ := Updates.sameMessages_of_step moved (.inr ⟨_, _, rfl⟩)
      have soundNext := Updates.Sound.step sound moved
      exact ⟨soundNext, .inl (shows_eq_of_samePushes sound soundNext same handled)⟩
  | thread =>
      obtain ⟨soundNext, seen⟩ := sound.threadStep running taken
      exact ⟨soundNext, seen.imp id fun stepped => ⟨.update, stepped⟩⟩
  | spuriousWakeup =>
      obtain ⟨updates, moved, rfl⟩ := Option.map_eq_some_iff.mp taken
      obtain ⟨same, handled⟩ := Updates.sameMessages_of_step moved (.inl rfl)
      have soundNext := Updates.Sound.step sound moved
      exact ⟨soundNext, .inl (shows_eq_of_samePushes sound soundNext same handled)⟩

/-- What every state that the threads reach keeps. -/
theorem sound_of_reachable (reachable : Reachable step start s) :
    Sound s ∧ Reachable ChatServer.step ChatServer.start s.shows := by
  have keeps : ∀ (s : ServerThreads) event next,
      (Sound s ∧ Reachable ChatServer.step ChatServer.start s.shows) → step s event = some next →
        (Sound next ∧ Reachable ChatServer.step ChatServer.start next.shows) := by
    rintro s event next ⟨sound, shown⟩ taken
    obtain ⟨soundNext, same | ⟨seen, moved⟩⟩ := sound.simulates taken
    · exact ⟨soundNext, same ▸ shown⟩
    · exact ⟨soundNext, shown.tail moved⟩
  have begins : Sound start ∧ Reachable ChatServer.step ChatServer.start start.shows :=
    ⟨Updates.sound_start, .refl _⟩
  exact invariant_of_reachable keeps begins reachable

/-- **Whatever the order of their steps, the two threads show a state that a run of `ChatServer`
reaches.** -/
theorem refines_chatServer (reachable : Reachable step start s) :
    Reachable ChatServer.step ChatServer.start s.shows :=
  (sound_of_reachable reachable).2

/-- **What a connection has read is handled once and in the order in which it was read.** All of it
is handled, in the hand of `Update`, in the queue, inside `push_back` or on its way there. -/
theorem read_is_handled_in_order {client : ConnectionPtr} {c : Connection CustomMsgTypes}
    (reachable : Reachable step start s) (found : s.connections[client]? = some c) :
    messagesOf client (s.updates.handled ++ (s.updates.place.inHand ++
      s.updates.qMessagesIn.deqQueue ++ s.inPush ++ s.toPush)) = c.qMessagesIn := by
  obtain ⟨-, shown⟩ := sound_of_reachable reachable
  exact (ChatServer.refines_hall shown).1.queue client c found

/-- A client answers its code and asks for the list. `Update` is called while its handler is still
inside `push_back`, and waits for it. -/
def listWhilePushing : List Event :=
  [.accept 0, .io 0 (.arrive (toBytes (Connection.scramble 0))), .io 0 (.fill 8), .io 0 .readDone,
    .io 0 (.arrive (frameBytes (Message.ofType CustomMsgTypes.clientList).frame)), .io 0 (.fill 8),
    .io 0 .readDone] ++
    List.replicate 6 .context ++ [.update 1 true, .thread, .context, .context] ++
      List.replicate 15 .thread

theorem listWhilePushing_runs : (runFrom step start listWhilePushing).isSome = true := by decide

/-- The state after the run. -/
def listHandled : ServerThreads := (runFrom step start listWhilePushing).get listWhilePushing_runs

theorem listHandled_reached : Reachable step start listHandled :=
  ⟨listWhilePushing, (Option.some_get listWhilePushing_runs).symm⟩

/-- The list is asked for once, handled once and answered. -/
theorem refines_listHandled :
    listHandled.shows.handled.length = 1 ∧ listHandled.shows.sends.length = 2 ∧
      Reachable ChatServer.step ChatServer.start listHandled.shows :=
  ⟨by decide, by decide, refines_chatServer listHandled_reached⟩

theorem listHandled_in_order :
    ∃ c : Connection CustomMsgTypes, c.qMessagesIn.length = 1 ∧
      messagesOf 0 (listHandled.updates.handled ++ (listHandled.updates.place.inHand ++
        listHandled.updates.qMessagesIn.deqQueue ++ listHandled.inPush ++ listHandled.toPush)) =
          c.qMessagesIn :=
  ⟨(listHandled.connections[0]?).get (by decide), by decide,
    read_is_handled_in_order listHandled_reached (Option.some_get _).symm⟩

end ServerThreads

end NetworkChat
