import NetworkChat.Client.Disconnect
import NetworkChat.Connection.Context
import NetworkChat.Foundation.Service

/-!
# Connecting again

`client_interface` (`net_client.h`) has one `io_context` and one thread for all its connections.
`Connect` makes a connection and assigns a new thread that runs the context; `Disconnect` stops the
context, joins the thread and releases the pointer to the connection, which leaves the connection
behind. Nothing restarts the context.

So a thread that is assigned beside another one ends the program (`terminated_iff`), and a context
that has ended serves nothing any more (`unserved_after_end`). Every connection but the first is one
that nobody serves, although `Connect` returns true for it and its socket is open
(`first_only_served`). Every connection goes through a run of `Connection.step`
(`reachable_of_made`).

The caller and the context take turns as in `Client.Disconnect`. What arrives at a connection that
was released is left out: nobody looks at it. `Connect` destroys a connection that it replaces;
that one is kept as it was, beside those that were released.
-/

set_option autoImplicit false

namespace NetworkChat

open Foundation

variable {T : Type}

/-- `client_interface` with all the connections it ever makes. -/
structure ClientLife (T : Type) where
  /-- `m_connection`. -/
  connection : Option (Connection T)
  /-- The connections that were released or replaced, the first one first. -/
  released : List (Connection T)
  /-- `m_context` with `thrContext`. -/
  service : Service
  /-- The caller is in `Disconnect`, before `m_context.stop()`. -/
  disconnecting : Bool
  /-- `std::terminate` was called. -/
  terminated : Bool
  deriving DecidableEq, Repr

namespace ClientLife

open Connection (IoEvent Unserved)

def start : ClientLife T := ⟨none, [], .fresh, false, false⟩

/-- `IsConnected`. -/
def isConnected (client : ClientLife T) : Bool :=
  match client.connection with
  | some c => c.isConnected
  | none => false

/-- Every connection that was made. -/
def made (client : ClientLife T) : List (Connection T) :=
  client.released ++ client.connection.toList

inductive Event (T : Type) where
  /-- `Connect`, when `resolve` throws. -/
  | connectThrows
  /-- `Connect`, when the host is resolved; `opens` says whether `async_connect` can open the
  socket. -/
  | connect (opens : Bool)
  | send (msg : Message T)
  /-- `Disconnect` up to `m_context.stop()`. -/
  | disconnect
  /-- The rest of `Disconnect`. -/
  | stop
  /-- The context or the network takes a step. -/
  | io (event : IoEvent T)
  deriving DecidableEq, Repr

/-- The event launches a thread or joins one. -/
def Event.ofThread : Event T → Bool
  | .connect _ => true
  | .stop => true
  | _ => false

/-- A connection whose `async_connect` was started. -/
def opened [Inhabited T] (opens : Bool) : Connection T :=
  { Connection.connect with isOpen := opens }

/-- `m_connection = std::make_unique<connection>(..)`, with the connection that it replaces. -/
def renew [Inhabited T] (client : ClientLife T) (opens : Bool) : ClientLife T :=
  { client with
    connection := some (opened opens)
    released := client.released ++ client.connection.toList }

/-- `Connect`. The assignment to a thread that is joinable calls `std::terminate`. -/
def connect [Inhabited T] (client : ClientLife T) (opens : Bool) : ClientLife T :=
  let client := client.renew opens
  match client.service.launch with
  | some service => { client with service }
  | none => { client with terminated := true }

/-- `Send`. -/
def send (client : ClientLife T) (msg : Message T) : ClientLife T :=
  { client with
    connection :=
      if client.isConnected then client.connection.map fun c => c.send msg else client.connection }

/-- `Disconnect` up to `m_context.stop()`. -/
def disconnect (client : ClientLife T) : ClientLife T :=
  { client with
    connection :=
      if client.isConnected then client.connection.map Connection.disconnect else client.connection
    disconnecting := true }

/-- `m_context.stop()`, `thrContext.join()` and `m_connection.release()`. -/
def stop (client : ClientLife T) : ClientLife T :=
  { client with
    connection := none
    released := client.released ++ client.connection.toList
    service := client.service.halt
    disconnecting := false }

variable [FullLayout T]

/-- A step of the context or the network. The loop returns when it has left nothing to do. -/
def io (client : ClientLife T) (event : IoEvent T) : Option (ClientLife T) :=
  match client.connection with
  | some c =>
      if event.ofContext = true ∧ (event.ofLoop = true → client.service = .running) then
        (c.step event).map fun d => { client with
          connection := some d
          service := if d.OutOfWork then client.service.exhaust else client.service }
      else none
  | none => none

variable [Inhabited T]

/-- The next state, if the event can happen. -/
def act (client : ClientLife T) : Event T → Option (ClientLife T)
  | .connectThrows => if client.disconnecting then none else some client
  | .connect opens => if client.disconnecting then none else some (client.connect opens)
  | .send msg => if client.disconnecting then none else some (client.send msg)
  | .disconnect => if client.disconnecting then none else some client.disconnect
  | .stop => if client.disconnecting then some client.stop else none
  | .io event => client.io event

/-- One step. Nothing happens after `std::terminate`. -/
def step (client : ClientLife T) (event : Event T) : Option (ClientLife T) :=
  if client.terminated then none else client.act event

/-! ## What a step does -/

section Steps

variable {client next : ClientLife T} {event : Event T}

/-- What a step does to the connections, the thread and the program. -/
inductive Stepped (client : ClientLife T) : Event T → ClientLife T → Prop where
  | waits {event : Event T} (notThread : event.ofThread = false) (disconnecting : Bool) :
      Stepped client event { client with disconnecting }
  | connects (opens : Bool) {service : Service} (place : client.service.launch = some service) :
      Stepped client (.connect opens) { client.renew opens with service }
  | terminates (opens : Bool) (noPlace : client.service.launch = none) :
      Stepped client (.connect opens) { client.renew opens with terminated := true }
  | moves {event : Event T} (notThread : event.ofThread = false) {c d : Connection T}
      (held : client.connection = some c) {ioEvent : IoEvent T}
      (acted : c.act ioEvent = some d) (onLoop : ioEvent.ofLoop = true → client.service = .running)
      {service : Service} (serves : service = client.service ∨ service = client.service.exhaust)
      (disconnecting : Bool) :
      Stepped client event { client with connection := some d, service, disconnecting }
  | stops : Stepped client .stop client.stop

/-- A call that posts to the connection if it is connected. -/
theorem stepped_of_call {call : Connection T → Connection T} (posted : IoEvent T)
    (notThread : event.ofThread = false) (notLoop : posted.ofLoop = false)
    (calls : ∀ c : Connection T, c.act posted = some (call c)) (disconnecting : Bool) :
    Stepped client event { client with
      connection :=
        if client.isConnected then client.connection.map call else client.connection
      disconnecting } := by
  have onLoop : posted.ofLoop = true → client.service = .running := by
    rw [notLoop]
    intro same
    cases same
  split
  case isTrue connected =>
    cases held : client.connection with
    | none =>
        simp only [isConnected, held] at connected
        cases connected
    | some c => exact .moves notThread held (calls c) onLoop (.inl rfl) disconnecting
  case isFalse => exact .waits notThread disconnecting

theorem stepped_of_io {event : IoEvent T} (taken : client.io event = some next) :
    Stepped client (.io event) next := by
  rw [io] at taken
  split at taken
  case h_1 c held =>
    split at taken
    case isTrue allowed =>
      obtain ⟨d, moved, rfl⟩ := Option.map_eq_some_iff.mp taken
      refine .moves rfl held (Connection.step_eq_some moved).2 allowed.2 ?_ client.disconnecting
      split
      · exact .inr rfl
      · exact .inl rfl
    case isFalse => cases taken
  case h_2 => cases taken

omit [FullLayout T] [Inhabited T] in
/-- The caller makes a call when the one before has returned. -/
theorem eq_of_called {called : ClientLife T}
    (taken : (if client.disconnecting then none else some called) = some next) : next = called := by
  split at taken
  case isTrue => cases taken
  case isFalse => cases taken; rfl

theorem step_stepped (taken : client.step event = some next) :
    client.terminated = false ∧ Stepped client event next := by
  rw [step] at taken
  split at taken
  case isTrue => cases taken
  case isFalse goesOn =>
    refine ⟨Bool.eq_false_iff.mpr goesOn, ?_⟩
    cases event with
    | connectThrows =>
        cases eq_of_called taken
        exact .waits rfl client.disconnecting
    | connect opens =>
        cases eq_of_called taken
        cases place : client.service.launch with
        | some service =>
            have connects : client.connect opens = { client.renew opens with service } := by
              simp only [connect, renew, place]
            rw [connects]
            exact .connects opens place
        | none =>
            have terminates :
                client.connect opens = { client.renew opens with terminated := true } := by
              simp only [connect, renew, place]
            rw [terminates]
            exact .terminates opens place
    | send msg =>
        cases eq_of_called taken
        exact stepped_of_call (.send msg) rfl rfl (fun _ => rfl) client.disconnecting
    | disconnect =>
        cases eq_of_called taken
        exact stepped_of_call .disconnect rfl rfl (fun _ => rfl) true
    | stop =>
        simp only [act] at taken
        split at taken
        case isTrue => cases taken; exact .stops
        case isFalse => cases taken
    | io event => exact stepped_of_io taken

end Steps

/-! ## After the loop has ended -/

section Ended

variable {client next final : ClientLife T} {event : Event T} {events : List (Event T)}

omit [FullLayout T] [Inhabited T] in
theorem mem_made {c : Connection T} :
    c ∈ client.made ↔ c ∈ client.released ∨ client.connection = some c := by
  rw [made, List.mem_append, Option.mem_toList]

omit [FullLayout T] in
/-- `Connect` makes one more connection. -/
theorem made_renew (client : ClientLife T) (opens : Bool) :
    (client.renew opens).made = client.made ++ [opened opens] := rfl

omit [FullLayout T] in
theorem mem_made_renew {opens : Bool} {c : Connection T} :
    c ∈ (client.renew opens).made ↔ c ∈ client.made ∨ c = opened opens := by
  rw [made_renew, List.mem_append, List.mem_singleton]

theorem Stepped.service_moves (stepped : Stepped client event next) :
    Service.Moves client.service next.service := by
  cases stepped with
  | waits => exact .stays _
  | connects opens place => exact .launched place
  | terminates => exact .stays _
  | moves _ _ _ _ serves =>
      rcases serves with rfl | rfl
      · exact .stays _
      · exact .exhausted _
  | stops => exact .halted _

/-- **A connection of a loop that has ended is one that was there, or a new one, with what was
posted and what has arrived since.** -/
theorem Stepped.unserved (stepped : Stepped client event next)
    (stopped : client.service.isStopped = true) {d : Connection T} (member : d ∈ next.made) :
    (∃ c ∈ client.made, Unserved c d) ∨ ∃ opens, Unserved (opened opens) d := by
  have renewed : ∀ opens, d ∈ (client.renew opens).made →
      (∃ c ∈ client.made, Unserved c d) ∨ ∃ opens, Unserved (opened opens) d := by
    intro opens member
    rcases mem_made_renew.mp member with member | rfl
    · exact .inl ⟨d, member, .refl d⟩
    · exact .inr ⟨opens, .refl _⟩
  cases stepped with
  | waits => exact .inl ⟨d, member, .refl d⟩
  | connects opens place => exact renewed opens member
  | terminates opens noPlace => exact renewed opens member
  | moves _ held acted onLoop =>
      rcases mem_made.mp member with released | same
      · exact .inl ⟨d, mem_made.mpr (.inl released), .refl d⟩
      · cases same
        refine .inl ⟨_, mem_made.mpr (.inr held), .of_act (Bool.eq_false_iff.mpr ?_) acted⟩
        intro isLoop
        rw [Service.not_stopped_of_running (onLoop isLoop)] at stopped
        cases stopped
  | stops =>
      rcases mem_made.mp member with released | held
      · exact .inl ⟨d, released, .refl d⟩
      · cases held

/-- **Once the loop has ended no connection is served any more**, neither one that was there nor
one that `Connect` makes. -/
theorem unserved_after_end (stopped : client.service.isStopped = true)
    (run : runFrom step client events = some final) :
    final.service.isStopped = true ∧ ∀ d ∈ final.made,
      (∃ c ∈ client.made, Unserved c d) ∨ ∃ opens, Unserved (opened opens) d := by
  let rests (now : ClientLife T) : Prop := ∀ d ∈ now.made,
    (∃ c ∈ client.made, Unserved c d) ∨ ∃ opens, Unserved (opened opens) d
  have moves : ∀ (now : ClientLife T) event next, step now event = some next →
      Service.Moves now.service next.service :=
    fun _ _ _ taken => (step_stepped taken).2.service_moves
  have keeps : ∀ (now : ClientLife T) event next, now.service.isStopped = true → rests now →
      step now event = some next → rests next := by
    intro now event next stopped earlier taken d member
    rcases (step_stepped taken).2.unserved stopped member with ⟨c, made, later⟩ | new
    · rcases earlier c made with ⟨first, made, before⟩ | ⟨opens, before⟩
      · exact .inl ⟨first, made, before.trans later⟩
      · exact .inr ⟨opens, before.trans later⟩
    · exact .inr new
  have begins : rests client := fun d member => .inl ⟨d, member, .refl d⟩
  exact Service.kept_after_end moves keeps stopped begins run

/-- A client whose connect was refused: there is nothing left to do, and the loop has returned. -/
def refused : ClientLife CustomMsgTypes :=
  (runFrom step start [.connect true, .io .connectFailed]).get (by decide)

/-- It is connected, disconnects and connects again. -/
def afterRefusal : List (Event CustomMsgTypes) :=
  [.send CustomClient.closeClient, .disconnect, .stop, .connect true,
    .send CustomClient.closeClient]

theorem unserved_afterRefusal : refused.isConnected = true ∧
    ∃ final, runFrom step refused afterRefusal = some final ∧ final.service.isStopped = true ∧
      ∀ d ∈ final.made,
        (∃ c ∈ refused.made, Unserved c d) ∨ ∃ opens, Unserved (opened opens) d := by
  refine ⟨by decide, (runFrom step refused afterRefusal).get (by decide), (Option.some_get _).symm,
    ?_⟩
  exact unserved_after_end (by decide) (Option.some_get _).symm

end Ended

/-! ## The first connection -/

/-- What every step keeps: before the loop or the program has ended there is one connection at most,
and nobody has served another one. -/
structure Once (client : ClientLife T) : Prop where
  fresh : client.service = .fresh → client.connection = none
  released : client.terminated = false → client.service.isStopped = false → client.released = []
  later : ∀ c ∈ client.made.drop 1, ∃ opens, Unserved (opened opens) c

section Once

variable {client next final : ClientLife T} {event : Event T} {events : List (Event T)}

omit [FullLayout T] in
theorem once_start : Once (start : ClientLife T) :=
  ⟨fun _ => rfl, fun _ _ => rfl, fun _ member => by cases member⟩

omit [FullLayout T] in
/-- The connections after the first one, if there is one more. -/
theorem Once.renew (once : Once client) (opens : Bool) :
    ∀ c ∈ (client.renew opens).made.drop 1, ∃ opens, Unserved (opened opens) c := by
  intro c member
  rw [made_renew, List.drop_append] at member
  rcases List.mem_append.mp member with earlier | new
  · exact once.later c earlier
  · cases List.mem_singleton.mp (List.mem_of_mem_drop new)
    exact ⟨opens, .refl _⟩

omit [FullLayout T] in
/-- The connections after the first one, if the last one is exchanged. -/
theorem Once.exchange {d : Connection T} (once : Once client)
    (served : client.released ≠ [] → ∃ opens, Unserved (opened opens) d) :
    ∀ c ∈ (client.released ++ [d]).drop 1, ∃ opens, Unserved (opened opens) c := by
  intro c member
  cases released : client.released with
  | nil =>
      rw [released] at member
      cases member
  | cons first rest =>
      rw [released, List.cons_append, List.drop_one, List.tail_cons, List.mem_append,
        List.mem_singleton] at member
      rcases member with earlier | rfl
      · refine once.later c ?_
        rw [made, released, List.cons_append, List.drop_one, List.tail_cons]
        exact List.mem_append_left _ earlier
      · exact served (by rw [released]; exact List.cons_ne_nil _ _)

omit [FullLayout T] in
/-- Behind a connection that was released stands one that nobody has served. -/
theorem Once.held {c : Connection T} (once : Once client) (held : client.connection = some c)
    (others : client.released ≠ []) : ∃ opens, Unserved (opened opens) c := by
  obtain ⟨first, rest, released⟩ := List.exists_cons_of_ne_nil others
  refine once.later c ?_
  rw [made, held, released]
  exact List.mem_append_right rest (List.mem_singleton_self c)

theorem Once.step (once : Once client) (runs : client.terminated = false)
    (stepped : Stepped client event next) : Once next := by
  have moves := stepped.service_moves
  cases stepped with
  | waits => exact ⟨once.fresh, once.released, once.later⟩
  | @connects opens service place =>
      refine ⟨fun fresh => ?_, fun _ goesOn => ?_, once.renew opens⟩
      · have joinable := Service.joinable_of_launch place
        rw [show service = .fresh from fresh] at joinable
        cases joinable
      · -- a thread with a place in a loop that has not ended is the first one
        have notEnded := moves.goesOn goesOn
        have isFresh := Service.fresh_of_launch place notEnded
        rw [ClientLife.renew, once.released runs notEnded, once.fresh isFresh]
        rfl
  | terminates opens noPlace =>
      refine ⟨fun fresh => ?_, fun goesOn => (by cases goesOn), once.renew opens⟩
      rw [Service.launch_eq_none_iff, show client.service = .fresh from fresh] at noPlace
      cases noPlace
  | moves notThread held acted onLoop =>
      refine ⟨fun fresh => ?_, fun _ goesOn => once.released runs (moves.goesOn goesOn),
        once.exchange ?_⟩
      · have none := once.fresh (moves.eq_fresh fresh)
        rw [none] at held
        cases held
      · -- behind a connection that was released the thread is not in the loop
        intro others
        have notLoop := Bool.eq_false_iff.mpr fun isLoop =>
          others (once.released runs (Service.not_stopped_of_running (onLoop isLoop)))
        obtain ⟨opens, unserved⟩ := once.held held others
        exact ⟨opens, unserved.trans (.of_act notLoop acted)⟩
  | stops =>
      refine ⟨fun _ => rfl, fun _ goesOn => ?_, fun c member => once.later c ?_⟩
      · cases goesOn
      · simpa [made, stop] using member

/-- **Only the first connection is ever served.** Of a later one not a byte is handed over and no
message is read, whatever is given to `Send` and whatever arrives, although `Connect` has returned
true and its socket stays open. -/
theorem first_only_served (run : runFrom step start events = some final) :
    ∀ c ∈ final.made.drop 1,
      (∃ opens, Unserved (opened opens) c) ∧ c.sent = [] ∧ c.qMessagesIn = [] := by
  intro c member
  have keeps : ∀ (client : ClientLife T) event next, Once client → step client event = some next →
      Once next := by
    intro client event next once taken
    obtain ⟨runs, stepped⟩ := step_stepped taken
    exact once.step runs stepped
  have once : Once final := invariant_of_run keeps once_start run
  obtain ⟨opens, lambdas, bytes, rfl⟩ := once.later c member
  exact ⟨⟨opens, lambdas, bytes, rfl⟩, rfl, rfl⟩

end Once

/-- A client is validated, disconnects and connects again. It gives a message to `Send`, and the
server sends its code. -/
def connectedAgain : List (Event CustomMsgTypes) :=
  [.connect true, .io .connected, .io (.arrive (toBytes (5 : UInt64))), .io (.fill 8),
    .io .readDone,
    .io (.transfer 0 8), .io (.writeDone 0), .disconnect, .io .runPosted, .stop, .connect true,
    .send CustomClient.closeClient, .io (.arrive (toBytes (5 : UInt64)))]

theorem first_only_connectedAgain :
    ∃ final, runFrom step start connectedAgain = some final ∧ final.isConnected = true ∧
      final.made.length = 2 ∧ ∀ c ∈ final.made.drop 1,
        (∃ opens, Unserved (opened opens) c) ∧ c.sent = [] ∧ c.qMessagesIn = [] := by
  refine ⟨(runFrom step start connectedAgain).get (by decide), (Option.some_get _).symm, by decide,
    by decide, ?_⟩
  exact first_only_served (Option.some_get _).symm

/-! ## Runs of the connections -/

section Reachable

variable {client next final : ClientLife T} {event : Event T} {events : List (Event T)}

theorem noFault_of_reachable {c : Connection T}
    (reachable : Reachable Connection.step Connection.connect c) : c.fault = none := by
  have keeps : ∀ (c : Connection T) event d, (∃ given, c.WriteInvariant given) →
      c.step event = some d → ∃ given, d.WriteInvariant given :=
    fun _ _ _ ⟨given, invariant⟩ taken => ⟨_, invariant.step taken⟩
  obtain ⟨given, invariant⟩ := invariant_of_reachable keeps
    ⟨_, Connection.Begins.connecting.writeInvariant⟩ reachable
  exact invariant.noFault

/-- A connection goes on as `Connection.step` lets it. -/
theorem Stepped.reachable (stepped : Stepped client event next)
    (reachable : ∀ c ∈ client.made, Reachable Connection.step Connection.connect c) :
    ∀ c ∈ next.made, Reachable Connection.step Connection.connect c := by
  have opening : ∀ opens,
      Reachable Connection.step Connection.connect (opened opens : Connection T) := by
    intro opens
    cases opens with
    | false => exact .refl _
    | true => exact ⟨[.socketOpened], rfl⟩
  have renewed : ∀ opens, ∀ d ∈ (client.renew opens).made,
      Reachable Connection.step Connection.connect d := by
    intro opens d member
    rcases mem_made_renew.mp member with member | rfl
    · exact reachable d member
    · exact opening opens
  intro d member
  cases stepped with
  | waits => exact reachable d member
  | connects opens place => exact renewed opens d member
  | terminates opens noPlace => exact renewed opens d member
  | @moves _ _ c d held ioEvent acted =>
      rcases mem_made.mp member with released | same
      · exact reachable _ (mem_made.mpr (.inl released))
      · cases same
        have before := reachable c (mem_made.mpr (.inr held))
        have taken : c.step ioEvent = some d := by
          rw [Connection.step, noFault_of_reachable before]
          exact acted
        exact before.tail taken
  | stops =>
      rcases mem_made.mp member with released | held
      · exact reachable d released
      · cases held

/-- **Every connection of a client goes through a run of `Connection.step`**, so it keeps what these
runs keep. -/
theorem reachable_of_made (run : runFrom step start events = some final) :
    ∀ c ∈ final.made, Reachable Connection.step Connection.connect c := by
  have keeps : ∀ (client : ClientLife T) event next,
      (∀ c ∈ client.made, Reachable Connection.step Connection.connect c) →
        step client event = some next →
          ∀ c ∈ next.made, Reachable Connection.step Connection.connect c :=
    fun _ _ _ reachable taken => (step_stepped taken).2.reachable reachable
  refine invariant_of_run keeps ?_ run
  intro c member
  cases member

end Reachable

/-! ## The thread -/

/-- A thread was assigned and not joined since. -/
def unjoined (events : List (Event T)) : Bool :=
  events.foldl (fun joinable event =>
    match event with
    | .connect _ => true
    | .stop => false
    | _ => joinable) false

/-- The last call is a `Connect`, and no `Disconnect` has joined the thread of the one before. -/
def ConnectsTwice (events : List (Event T)) : Prop :=
  ∃ before opens, events = before ++ [.connect opens] ∧ unjoined before = true

section Thread

variable {client next final : ClientLife T} {event : Event T} {events past : List (Event T)}

/-- What every step keeps of the thread. -/
def Threaded (past : List (Event T)) (client : ClientLife T) : Prop :=
  (client.terminated = false → client.service.joinable = unjoined past) ∧
    (client.terminated = true ↔ ConnectsTwice past)

omit [FullLayout T] [Inhabited T] in
theorem unjoined_concat (past : List (Event T)) (event : Event T) :
    unjoined (past ++ [event]) =
      match event with
      | .connect _ => true
      | .stop => false
      | _ => unjoined past := by
  rw [unjoined, List.foldl_append]
  rfl

omit [FullLayout T] [Inhabited T] in
/-- Only a `Connect` and the end of a `Disconnect` change the thread. -/
theorem unjoined_concat_other (past : List (Event T)) (notThread : event.ofThread = false) :
    unjoined (past ++ [event]) = unjoined past := by
  rw [unjoined_concat]
  cases event <;> first | rfl | cases notThread

omit [FullLayout T] [Inhabited T] in
theorem connectsTwice_concat : ConnectsTwice (past ++ [event]) ↔
    (∃ opens, event = .connect opens) ∧ unjoined past = true := by
  constructor
  · rintro ⟨before, opens, same, joinable⟩
    obtain ⟨rfl, last⟩ := List.append_inj' same rfl
    cases last
    exact ⟨⟨opens, rfl⟩, joinable⟩
  · rintro ⟨⟨opens, rfl⟩, joinable⟩
    exact ⟨past, opens, rfl, joinable⟩

omit [FullLayout T] [Inhabited T] in
theorem not_connectsTwice (other : ∀ opens, event ≠ .connect opens) :
    ¬ ConnectsTwice (past ++ [event]) := by
  rw [connectsTwice_concat]
  rintro ⟨⟨opens, same⟩, -⟩
  exact other opens same

theorem Threaded.step (threaded : Threaded past client) (goesOn : client.terminated = false)
    (stepped : Stepped client event next) : Threaded (past ++ [event]) next := by
  have joinable := threaded.1 goesOn
  have runsOn : ¬ client.terminated = true := by
    rw [goesOn]
    exact Bool.false_ne_true
  cases stepped with
  | waits notThread =>
      refine ⟨fun _ => ?_, iff_of_false runsOn (not_connectsTwice ?_)⟩
      · rw [unjoined_concat_other past notThread]
        exact joinable
      · rintro opens rfl
        cases notThread
  | moves notThread _ _ _ serves =>
      refine ⟨fun _ => ?_, iff_of_false runsOn (not_connectsTwice ?_)⟩
      · rw [unjoined_concat_other past notThread, ← joinable]
        rcases serves with rfl | rfl
        · rfl
        · exact Service.joinable_exhaust _
      · rintro opens rfl
        cases notThread
  | connects opens place =>
      refine ⟨fun _ => ?_, iff_of_false runsOn ?_⟩
      · rw [unjoined_concat]
        exact Service.joinable_of_launch place
      · rw [connectsTwice_concat]
        rintro ⟨-, unjoined⟩
        rw [← joinable, ← Service.launch_eq_none_iff, place] at unjoined
        cases unjoined
  | terminates opens noPlace =>
      refine ⟨fun goesOn => ?_, iff_of_true rfl (connectsTwice_concat.mpr ⟨⟨opens, rfl⟩, ?_⟩)⟩
      · cases goesOn
      · rw [← joinable, ← Service.launch_eq_none_iff, noPlace]
  | stops =>
      refine ⟨fun _ => ?_, iff_of_false runsOn (not_connectsTwice ?_)⟩
      · rw [unjoined_concat]
        rfl
      · intro opens same
        cases same

/-- **The program is terminated exactly by a `Connect` that finds the thread of the one before it
not joined**, whatever the context and the network do. -/
theorem terminated_iff (run : runFrom step start events = some final) :
    final.terminated = true ↔ ConnectsTwice events := by
  have keeps : ∀ past (client : ClientLife T) event next, Threaded past client →
      ClientLife.step client event = some next → Threaded (past ++ [event]) next := by
    intro past client event next threaded taken
    obtain ⟨goesOn, stepped⟩ := step_stepped taken
    exact threaded.step goesOn stepped
  have begins : Threaded [] (start : ClientLife T) := by
    refine ⟨fun _ => rfl, iff_of_false Bool.false_ne_true ?_⟩
    rintro ⟨before, opens, same, -⟩
    exact List.concat_ne_nil _ _ same.symm
  exact (history_invariant_of_run keeps begins run).2

theorem terminated_twoConnects :
    ∃ final, runFrom step (start : ClientLife CustomMsgTypes) [.connect true, .connect true] =
        some final ∧ (final.terminated = true ↔
          ConnectsTwice (T := CustomMsgTypes) [.connect true, .connect true]) ∧
        final.terminated = true := by
  refine ⟨(runFrom step start [.connect true, .connect true]).get (by decide),
    (Option.some_get _).symm, ?_, by decide⟩
  exact terminated_iff (Option.some_get _).symm

/-- **A second `Disconnect` changes nothing**, and the destructors of both classes call it. -/
theorem disconnect_again (taken : client.step .stop = some next) :
    runFrom step next [.disconnect, .stop] = some next := by
  obtain ⟨goesOn, stepped⟩ := step_stepped taken
  cases stepped with
  | waits notThread => cases notThread
  | moves notThread => cases notThread
  | stops =>
      simp [runFrom, step, act, stop, disconnect, isConnected, goesOn, Service.halt]

end Thread

end ClientLife

end NetworkChat
