import NetworkChat.Connection.Context
import NetworkChat.Foundation.Service
import NetworkChat.Server.Accepting
import NetworkChat.Server.System

/-!
# Starting and stopping the server

`server_interface` (`net_server.h`) has one `io_context` for the acceptor and all connections.
`Start` starts an `async_accept` and assigns a thread that runs the context, `Stop` stops the
context and joins the thread, and nothing restarts the context. `Update` is called beside it and
needs no thread.

A server that was started once runs as `ChatServer` (`started_runs`). Once its loop has ended no
client is accepted, nothing is read and nothing is written any more, although `Start` returns true:
`Update` handles what was queued, and its answers are posted for nobody (`frozen_after_end`).
-/

set_option autoImplicit false

namespace NetworkChat

open Foundation

/-- `server_interface` with its thread. -/
structure ServerLife where
  chat : ChatServer
  /-- `m_context` with `m_threadContext`. -/
  service : Service
  /-- How many `async_accept` are outstanding. -/
  outstanding : ℕ
  /-- `std::terminate` was called. -/
  terminated : Bool

namespace ServerLife

open Connection (IoEvent Unserved)

/-- The constructor. -/
def construct : ServerLife := ⟨ChatServer.start, .fresh, 0, false⟩

inductive Event where
  | start
  | stop
  /-- An `async_accept` ends and its handler runs; the clock gives the validation code. -/
  | accept (completion : Completion) (clock : UInt64)
  /-- Something happens to a connection. -/
  | io (client : ConnectionPtr) (event : IoEvent CustomMsgTypes)
  /-- `Update` handles the next message. -/
  | update

/-- `WaitForClientConnection`. -/
def waitForClientConnection (s : ServerLife) : ServerLife :=
  { s with outstanding := s.outstanding + 1 }

/-- `Start`. The assignment to a thread that is joinable calls `std::terminate`. -/
def start (s : ServerLife) : ServerLife :=
  match s.service.launch with
  | some service => { s.waitForClientConnection with service }
  | none => { s.waitForClientConnection with terminated := true }

/-- `Stop`. -/
def stop (s : ServerLife) : ServerLife := { s with service := s.service.halt }

/-- The handler of `async_accept`. What it throws leaves the thread. -/
def acceptHandler (s : ServerLife) (completion : Completion) (clock : UInt64) : ServerLife :=
  let s := { s with outstanding := s.outstanding - 1 }
  match completion with
  | .error => s.waitForClientConnection
  | .success peerConnected =>
      match Acceptor.remoteEndpoint peerConnected with
      | .ok _ => { s with chat := s.chat.accept clock }.waitForClientConnection
      | .error _ => { s with terminated := true }

/-- The next state, if the event can happen. -/
def act (s : ServerLife) : Event → Option ServerLife
  | .start => some s.start
  | .stop => some s.stop
  | .accept completion clock =>
      if s.service = .running ∧ 0 < s.outstanding then some (s.acceptHandler completion clock)
      else none
  | .io client event =>
      if event.ofLoop = true → s.service = .running then
        (s.chat.step (.io client event)).map fun chat => { s with chat }
      else none
  | .update => (s.chat.step .update).map fun chat => { s with chat }

/-- One step. Nothing happens after `std::terminate` or an abort. -/
def step (s : ServerLife) (event : Event) : Option ServerLife :=
  if s.terminated = true ∨ s.chat.aborted.isSome = true then none else s.act event

/-! ## What a step does -/

section Steps

variable {s next final : ServerLife} {event : Event} {events : List Event}

/-- The step of the server that its thread takes. -/
def ofLoop : ChatServer.Event → Bool
  | .accept _ => true
  | .io _ event => event.ofLoop
  | .update => false

/-- What a step does to the server, the thread and the program. -/
inductive Stepped (s : ServerLife) : ServerLife → Prop where
  | waits (outstanding : ℕ) (terminated : Bool) : Stepped s { s with outstanding, terminated }
  | starts {service : Service} (place : s.service.launch = some service) (outstanding : ℕ) :
      Stepped s { s with service, outstanding }
  | stops : Stepped s s.stop
  | serves {chat : ChatServer} {event : ChatServer.Event} (taken : s.chat.step event = some chat)
      (onLoop : ofLoop event = true → s.service = .running) (outstanding : ℕ) :
      Stepped s { s with chat, outstanding }

theorem step_stepped (taken : s.step event = some next) :
    s.terminated = false ∧ s.chat.aborted = none ∧ Stepped s next := by
  rw [step] at taken
  split at taken
  case isTrue => cases taken
  case isFalse goesOn =>
    rw [not_or, Bool.not_eq_true, Option.not_isSome_iff_eq_none] at goesOn
    refine ⟨goesOn.1, goesOn.2, ?_⟩
    cases event with
    | start =>
        cases taken
        rw [start]
        cases place : s.service.launch with
        | some service => exact .starts place _
        | none => exact .waits _ true
    | stop => cases taken; exact .stops
    | accept completion clock =>
        simp only [act] at taken
        split at taken
        case isTrue running =>
          cases taken
          cases completion with
          | error => exact .waits _ s.terminated
          | success peerConnected =>
              cases peerConnected with
              | false => exact .waits _ true
              | true =>
                  have accepts : s.chat.step (.accept clock) = some (s.chat.accept clock) := by
                    rw [ChatServer.step, goesOn.2]
                    rfl
                  exact .serves accepts (fun _ => running.1) _
        case isFalse => cases taken
    | io client event =>
        simp only [act] at taken
        split at taken
        case isTrue onLoop =>
          obtain ⟨chat, moved, rfl⟩ := Option.map_eq_some_iff.mp taken
          exact .serves moved onLoop s.outstanding
        case isFalse => cases taken
    | update =>
        obtain ⟨chat, moved, rfl⟩ := Option.map_eq_some_iff.mp taken
        refine .serves moved (fun isLoop => ?_) s.outstanding
        cases isLoop

theorem Stepped.service_moves (stepped : Stepped s next) :
    Service.Moves s.service next.service := by
  cases stepped with
  | waits => exact .stays _
  | starts place => exact .launched place
  | stops => exact .halted _
  | serves => exact .stays _

/-- **The server and its connections go through a run of `ChatServer`.** -/
theorem reachable_chat (reachable : Reachable step construct s) :
    Reachable ChatServer.step ChatServer.start s.chat := by
  have keeps : ∀ (s : ServerLife) event next, Reachable ChatServer.step ChatServer.start s.chat →
      s.step event = some next → Reachable ChatServer.step ChatServer.start next.chat := by
    intro s event next shown taken
    obtain ⟨-, -, stepped⟩ := step_stepped taken
    cases stepped with
    | waits => exact shown
    | starts => exact shown
    | stops => exact shown
    | serves moved => exact shown.tail moved
  exact invariant_of_reachable keeps (.refl _) reachable

end Steps

/-! ## A server that was started once -/

/-- The thread is in the loop, and one `async_accept` is outstanding. -/
def started (chat : ChatServer) : ServerLife := ⟨chat, .running, 1, false⟩

/-- A step of `ChatServer`, when no accept fails and no peer has gone. -/
def lift : ChatServer.Event → Event
  | .accept clock => .accept (.success true) clock
  | .io client event => .io client event
  | .update => .update

theorem step_started (chat : ChatServer) (event : ChatServer.Event) :
    (started chat).step (lift event) = (chat.step event).map started := by
  cases aborted : chat.aborted with
  | some fault => simp [step, started, ChatServer.step, aborted]
  | none =>
      cases event with
      | accept clock =>
          simp [step, started, ChatServer.step, aborted, lift, act, ChatServer.act]
          rfl
      | io client event =>
          simp [step, started, aborted, lift, act]
          rfl
      | update =>
          simp [step, started, aborted, lift, act]
          rfl

/-- **A server that was started once runs as `ChatServer`.** -/
theorem started_runs (events : List ChatServer.Event) :
    runFrom step construct (.start :: events.map lift) =
      (runFrom ChatServer.step ChatServer.start events).map started := by
  have starts : step construct .start = some (started ChatServer.start) := rfl
  rw [runFrom_cons starts, runFrom_map_events]
  exact runFrom_map step_started ChatServer.start events

/-! ## After the loop has ended -/

/-- Of the server only `Update` has gone on: it has handled some of what was queued, and what it
sent is posted. -/
structure Frozen (before after : ChatServer) : Prop where
  length : after.connections.length = before.connections.length
  unserved : ∀ (client : ConnectionPtr) c, before.connections[client]? = some c →
    ∃ d, after.connections[client]? = some d ∧ Unserved c d
  messages : after.handled ++ after.qMessagesIn = before.handled ++ before.qMessagesIn

namespace Frozen

variable {before middle after : ChatServer}

theorem refl (chat : ChatServer) : Frozen chat chat :=
  ⟨rfl, fun _ c found => ⟨c, found, .refl c⟩, rfl⟩

theorem trans (first : Frozen before middle) (second : Frozen middle after) :
    Frozen before after := by
  refine ⟨second.length.trans first.length, fun client c found => ?_,
    second.messages.trans first.messages⟩
  obtain ⟨d, here, unserved⟩ := first.unserved client c found
  obtain ⟨e, there, later⟩ := second.unserved client d here
  exact ⟨e, there, unserved.trans later⟩

/-- A message that `Update` handles. -/
theorem handle {chat : ChatServer} {client : ConnectionPtr} {msg : Message CustomMsgTypes}
    {later : List Owned} (queue : chat.qMessagesIn = (client, msg) :: later) :
    Frozen chat (chat.handle client msg later) := by
  have moved : chat.handled ++ chat.qMessagesIn = chat.handled ++ [(client, msg)] ++ later := by
    rw [queue, List.append_assoc, List.singleton_append]
  rcases chat.handle_cases client msg later with ⟨server, calls, -, eq⟩ | ⟨fault, -, eq⟩
  · rw [eq]
    refine ⟨List.length_mapIdx, fun other c found => ?_, moved.symm⟩
    refine ⟨ChatServer.giveAll calls other c, ?_, .foldl_send c _⟩
    rw [List.getElem?_mapIdx, found]
    rfl
  · rw [eq]
    exact ⟨rfl, fun _ c found => ⟨c, found, .refl c⟩, moved.symm⟩

/-- Bytes that arrive at a connection. -/
theorem io {chat next : ChatServer} {client : ConnectionPtr} {event : IoEvent CustomMsgTypes}
    (notLoop : event.ofLoop = false) (taken : chat.act (.io client event) = some next) :
    Frozen chat next := by
  obtain ⟨c, d, found, -, moved, rfl⟩ := ChatServer.act_io taken
  have unserved := Unserved.of_act notLoop (Connection.step_eq_some moved).2
  refine ⟨List.length_set, fun other e known => ?_, ?_⟩
  · by_cases isClient : client = other
    · subst isClient
      cases found.symm.trans known
      exact ⟨d, List.getElem?_set_self (List.getElem?_eq_some_iff.mp found).1, unserved⟩
    · exact ⟨e, by rw [List.getElem?_set_ne isClient]; exact known, .refl e⟩
  · obtain ⟨lambdas, bytes, rfl⟩ := unserved
    simp only [List.drop_length, List.map_nil, List.append_nil]

end Frozen

section Ended

variable {s next final : ServerLife} {event : Event} {events : List Event}

theorem Stepped.frozen (stepped : Stepped s next) (stopped : s.service.isStopped = true) :
    Frozen s.chat next.chat := by
  cases stepped with
  | waits => exact .refl _
  | starts => exact .refl _
  | stops => exact .refl _
  | @serves chat event taken onLoop =>
      have notLoop : ofLoop event = false := by
        rw [Bool.eq_false_iff]
        intro isLoop
        rw [Service.not_stopped_of_running (onLoop isLoop)] at stopped
        cases stopped
      obtain ⟨-, acted⟩ := ChatServer.step_eq_some taken
      cases event with
      | accept clock => cases notLoop
      | io client event => exact .io notLoop acted
      | update =>
          obtain ⟨client, msg, later, queue, rfl⟩ := ChatServer.act_update acted
          exact .handle queue

/-- **Once its loop has ended the server accepts no client, reads nothing and writes nothing any
more**, whatever is called and whatever arrives. What `Update` handles was queued before. -/
theorem frozen_after_end (stopped : s.service.isStopped = true)
    (run : runFrom step s events = some final) :
    final.service.isStopped = true ∧ Frozen s.chat final.chat := by
  have moves : ∀ (now : ServerLife) event next, step now event = some next →
      Service.Moves now.service next.service :=
    fun _ _ _ taken => (step_stepped taken).2.2.service_moves
  have keeps : ∀ (now : ServerLife) event next, now.service.isStopped = true →
      Frozen s.chat now.chat → step now event = some next → Frozen s.chat next.chat :=
    fun _ _ _ stopped frozen taken => frozen.trans ((step_stepped taken).2.2.frozen stopped)
  exact Service.kept_after_end moves keeps stopped (.refl _) run

/-- A client answers its code and asks for the list, and the server is stopped. -/
def stopped : ServerLife :=
  (runFrom step construct [.start, .accept (.success true) 0,
    .io 0 (.arrive (toBytes (Connection.scramble 0))), .io 0 (.fill 8), .io 0 .readDone,
    .io 0 (.arrive (frameBytes (Message.ofType CustomMsgTypes.clientList).frame)), .io 0 (.fill 8),
    .io 0 .readDone, .stop]).get (by decide)

/-- It is started again. The list is asked for once more, and `Update` is called. -/
def restart : List Event :=
  [.start, .io 0 (.arrive (frameBytes (Message.ofType CustomMsgTypes.clientList).frame)), .update]

theorem frozen_restart : ∃ final, runFrom step stopped restart = some final ∧
    final.service.isStopped = true ∧ Frozen stopped.chat final.chat := by
  refine ⟨(runFrom step stopped restart).get (by decide), (Option.some_get _).symm, ?_⟩
  exact frozen_after_end (by decide) (Option.some_get _).symm

end Ended

end ServerLife

end NetworkChat
