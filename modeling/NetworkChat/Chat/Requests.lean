import NetworkChat.Chat.Room

/-!
# Requests that wait for an answer

The server pairs the client that a request was sent to with the client that sent it, and
sends the id of the latter on. The receiver puts the id into `ConnectionRequestId`, where its
two answers look for it, and where its own request would stand as well.

The request stands there in every quiet state of a run in which no other value is stored
while the request is to be answered (`requestsStand_of_keeps`). A client that has sent a request
of its own loses the other when the reply to its own comes (`crossing_lost`).
-/

set_option autoImplicit false

namespace NetworkChat

open Foundation

namespace ChatClient

/-- The store of a request into `ConnectionRequestId` is still to come. -/
def Comes (c : ChatClient) (id : UInt32) (ticket : Ticket) : Prop :=
  c.execute = .storeRequest id (some ticket) ∨
    ∃ envelope ∈ c.incoming, executeLine envelope = .storeRequest id (some ticket)

instance decidableComes (c : ChatClient) (id : UInt32) (ticket : Ticket) :
    Decidable (c.Comes id ticket) := inferInstanceAs (Decidable (_ ∨ _))

section Steps

variable {self : ConnectionPtr} {c d : ChatClient} {event : Event}

/-- `ConnectionRequestId` holds what it held, or what the step stores. -/
theorem Steps.connectionRequestId (steps : Steps self c event d) :
    d.ids.connectionRequestId = c.ids.connectionRequestId ∨
      c.requestStore event = some d.ids.connectionRequestId := by
  cases steps with
  | storeRequest ticket line => right; simp only [requestStore, line]; rfl
  | eraseRequest event line abort passes erases stores => exact .inr stores
  | executeStoreRequest id ticket line => right; simp only [requestStore, line]; rfl
  | executeReset line => right; simp only [requestStore, line]; rfl
  | executeCloseRequest line => right; simp only [requestStore, line]; rfl
  | _ => exact .inl rfl

/-- A request that is to come is stored, or comes later. -/
theorem Steps.comes (steps : Steps self c event d) {id : UInt32} {ticket : Ticket}
    (comes : c.Comes id ticket) : d.Comes id ticket ∨ d.ids.connectionRequestId = id := by
  have later : ∀ line, c.execute = line → line ≠ .storeRequest id (some ticket) →
      d.incoming = c.incoming → d.Comes id ticket := by
    rintro line rfl differs same
    refine .inr ?_
    rw [same]
    exact comes.resolve_left differs
  cases steps with
  | take envelope rest line queue =>
      left
      have queued := comes.resolve_left (by rw [line]; intro same; cases same)
      rw [queue] at queued
      obtain ⟨found, member, stores⟩ := queued
      rcases List.mem_cons.mp member with rfl | member
      · exact .inl stores
      · exact .inr ⟨found, member, stores⟩
  | executeStoreRequest other asked line =>
      by_cases same : c.execute = .storeRequest id (some ticket)
      · rw [line] at same
        cases same
        exact .inr rfl
      · exact .inl (.inr (comes.resolve_left same))
  | executeLoad answer line => exact .inl (later _ line (by simp) rfl)
  | executeStoreConnected other answer line => exact .inl (later _ line (by simp) rfl)
  | executeReset line => exact .inl (later _ line (by simp) rfl)
  | executeCloseConnected line => exact .inl (later _ line (by simp) rfl)
  | executeCloseRequest line => exact .inl (later _ line (by simp) rfl)
  | _ => exact .inl comes

/-- **A request stays in `ConnectionRequestId`** when a step stores nothing else there. -/
theorem Steps.request_stands (steps : Steps self c event d) {id : UInt32} {ticket : Ticket}
    (stands : c.Comes id ticket ∨ c.ids.connectionRequestId = id)
    (keeps : ∀ stored ∈ c.requestStore event, c.Comes id ticket ∨ stored = id) :
    d.Comes id ticket ∨ d.ids.connectionRequestId = id := by
  rcases stands with comes | stands
  · exact steps.comes comes
  · rcases steps.connectionRequestId with same | stored
    · exact .inr (same.trans stands)
    · rcases keeps _ stored with comes | same
      · exact steps.comes comes
      · exact .inr same

end Steps

end ChatClient

namespace ChatRoom

/-- A request that a client has been paired for is in its `ConnectionRequestId` in every
quiet state, until it answers or one of the two sends a close. -/
def RequestsStand (room : ChatRoom) : Prop :=
  room.Quiet → ∀ client ticket, room.pending client = some ticket →
    room.hall.server.clientConnections (room.id client) = some (room.id ticket.asker) →
      (room.clients client).ids.connectionRequestId = room.id ticket.asker ∧
        10000 ≤ room.id ticket.asker

/-- While a request is to be answered, no step of the client stores another value into
`ConnectionRequestId`, unless the store of the request comes later. The ids do not wrap. -/
def KeepsRequests (room : ChatRoom) : Event → Prop
  | .join => 10000 + room.hall.peers.length < 2 ^ 32
  | .client client event =>
      ∀ stored ∈ (room.clients client).requestStore event, ∀ ticket ∈ room.pending client,
        (room.clients client).Comes (room.id ticket.asker) ticket ∨ stored = room.id ticket.asker
  | .serve _ => True

instance decidableKeepsRequests (room : ChatRoom) (event : Event) :
    Decidable (room.KeepsRequests event) := by
  apply event.casesOn (motive := fun event => Decidable (room.KeepsRequests event))
  case join =>
    unfold KeepsRequests
    infer_instance
  case client =>
    intro client event
    unfold KeepsRequests
    -- The ids are too many to be tried one after the other.
    exact @Option.decidableForallMem _ _ (fun _ => inferInstance) _
  case serve =>
    intro client
    unfold KeepsRequests
    infer_instance

/-- A request that is to be answered is in `ConnectionRequestId`, or comes there. -/
structure Stands (room : ChatRoom) : Prop where
  honest : room.Honest
  few : room.hall.peers.length + 10000 ≤ 2 ^ 32
  known : ∀ client ticket, room.pending client = some ticket →
    client < room.hall.peers.length ∧ ticket.asker < room.hall.peers.length
  stands : ∀ client ticket, room.pending client = some ticket →
    (room.clients client).Comes (room.id ticket.asker) ticket ∨
      (room.clients client).ids.connectionRequestId = room.id ticket.asker

theorem stands_start : Stands start where
  honest := honest_start
  few := by simp [start, Hall.start]
  known := by simp [start]
  stands := by simp [start]

/-- Sending a message makes no request one to be answered. -/
theorem pending_of_noteSent {room : ChatRoom} {client other : ConnectionPtr}
    {sent : List Envelope} {ticket : Ticket}
    (noted : room.noteSent client sent other = some ticket) : room.pending other = some ticket := by
  rw [noteSent] at noted
  split at noted
  case isTrue => cases noted
  case isFalse =>
    split at noted
    case isTrue => cases noted
    case isFalse => exact noted

section Step

variable {room next : ChatRoom}

theorem Stands.join (stands : Stands room) (keeps : room.KeepsRequests .join)
    (honest : room.join.Honest) : Stands room.join where
  honest := honest
  few := by
    have small : 10000 + room.hall.peers.length < 2 ^ 32 := keeps
    rw [join_length]
    omega
  known := by
    intro client ticket pending
    obtain ⟨known, askerKnown⟩ := stands.known client ticket pending
    rw [join_length]
    exact ⟨Nat.lt_succ_of_lt known, Nat.lt_succ_of_lt askerKnown⟩
  stands := by
    intro client ticket pending
    obtain ⟨known, askerKnown⟩ := stands.known client ticket pending
    rw [join_other room (Nat.ne_of_lt known), join_id room (Nat.ne_of_lt askerKnown)]
    exact stands.stands client ticket pending

theorem Stands.moved (stands : Stands room) {client : ConnectionPtr} {event : ChatClient.Event}
    {c : ChatClient} (keeps : room.KeepsRequests (.client client event))
    (taken : (room.clients client).step client event = some c)
    (honest : (room.moved client c).Honest) : Stands (room.moved client c) where
  honest := honest
  few := stands.few
  known := by
    intro other ticket noted
    exact stands.known other ticket (pending_of_noteSent noted)
  stands := by
    intro other ticket noted
    have pending := pending_of_noteSent noted
    have before := stands.stands other ticket pending
    by_cases isMover : other = client
    · subst isMover
      rw [moved_self]
      apply (ChatClient.step_cases taken).request_stands before
      intro stored stores
      exact keeps stored stores ticket pending
    · rw [moved_other room c isMover]
      exact before

/-- What arrives keeps what is to come. -/
theorem comes_settle {client other : ConnectionPtr} {envelope : Envelope} {later : List Envelope}
    {calls : List Call} {id : UInt32} {ticket : Ticket}
    (comes : (room.clients other).Comes id ticket) :
    (room.settle client envelope later calls other).Comes id ticket := by
  refine comes.imp_right ?_
  rintro ⟨found, member, stores⟩
  exact ⟨found, List.mem_append_left _ member, stores⟩

theorem stands_settle {client other : ConnectionPtr} {envelope : Envelope} {later : List Envelope}
    {calls : List Call} {id : UInt32} {ticket : Ticket}
    (before : (room.clients other).Comes id ticket ∨
      (room.clients other).ids.connectionRequestId = id) :
    (room.settle client envelope later calls other).Comes id ticket ∨
      (room.settle client envelope later calls other).ids.connectionRequestId = id :=
  before.imp_left comes_settle

/-- The request that makes a pair is on its way to the client that it was sent to. -/
theorem comes_of_pair {client receiver : ConnectionPtr} {envelope : Envelope}
    {later : List Envelope} {id : UInt32} {ticket : Ticket} (isId : 10000 ≤ id)
    (ticketed : envelope.ticket = some ticket) :
    (room.settle client envelope later [.send receiver (CustomServer.idMsg .requestToClient id)]
      receiver).Comes id ticket := by
  refine .inr ⟨⟨envelope.sender, CustomServer.idMsg .requestToClient id, some ticket⟩, ?_,
    ChatClient.executeLine_request isId _ _⟩
  simp only [settle, deliveries_send, if_pos, List.map_cons, List.map_nil, ticketed]
  exact List.mem_concat_self

/-- What is to be answered after the server has handled a message. -/
theorem Serves.pending {matching : Matching UInt32} {client : ConnectionPtr}
    {later : List Envelope} {envelope : Envelope}
    (serves : Serves room matching client later envelope next) {other : ConnectionPtr}
    {ticket : Ticket} (pending : next.pending other = some ticket) :
    room.pending other = some ticket ∨
      (ticket.asker = client ∧ other < room.hall.peers.length ∧
        envelope.ticket = some ticket ∧ next.clients = room.settle client envelope later
          [.send other (CustomServer.idMsg .requestToClient (room.id client))]) := by
  cases serves with
  | pair asked number receiver envelope isRequest known isAsked distinct clientFree askedFree =>
      simp only at pending
      split at pending
      case isTrue isReceiver =>
        subst isReceiver isRequest
        cases pending
        exact .inr ⟨rfl, known, rfl, rfl⟩
      case isFalse =>
        split at pending
        case isTrue => cases pending
        case isFalse => exact .inl pending
  | _ => exact .inl pending

theorem Stands.serves (stands : Stands room) {matching : Matching UInt32} {client : ConnectionPtr}
    {later : List Envelope} {envelope : Envelope}
    (clientKnown : client < room.hall.peers.length)
    (serves : Serves room matching client later envelope next) (honest : next.Honest) :
    Stands next := by
  have samePeers := serves.deque.2.2
  refine ⟨honest, ?_, ?_, ?_⟩
  · rw [samePeers]
    exact stands.few
  · intro other ticket pending
    rw [samePeers]
    rcases serves.pending pending with before | ⟨rfl, known, -, -⟩
    · exact stands.known other ticket before
    · exact ⟨known, clientKnown⟩
  · intro other ticket pending
    rw [serves.id]
    rcases serves.pending pending with before | ⟨rfl, known, ticketed, same⟩
    · obtain ⟨calls, same⟩ := serves.clients
      rw [same]
      exact stands_settle (stands.stands other ticket before)
    · rw [same]
      exact .inl (comes_of_pair (stands.honest.le_id stands.few clientKnown) ticketed)

/-- **A step that keeps the requests keeps them where they are looked for.** -/
theorem Stands.step {event : Event} (stands : Stands room) (keeps : room.KeepsRequests event)
    (taken : room.step event = some next) : Stands next := by
  have honest := stands.honest.step taken
  obtain ⟨-, acted⟩ := step_eq_some taken
  cases event with
  | join => cases acted; exact stands.join keeps honest
  | client client event =>
      obtain ⟨-, c, moved, rfl⟩ := act_client acted
      exact stands.moved keeps moved honest
  | serve client =>
      obtain ⟨known, envelope, later, queue, rfl⟩ := act_serve acted
      obtain ⟨matching, represents⟩ := stands.honest.paired
      have wrote := stands.honest.wrote client envelope (by rw [queue]; exact List.mem_cons_self)
      exact stands.serves known (stands.honest.serve_cases represents wrote later) honest

/-- In a quiet state nothing is to come. -/
theorem Stands.requestsStand (stands : Stands room) : room.RequestsStand := by
  intro quiet client ticket pending _
  obtain ⟨known, askerKnown⟩ := stands.known client ticket pending
  obtain ⟨-, incoming, idle⟩ := quiet client known
  refine ⟨?_, stands.honest.le_id stands.few askerKnown⟩
  rcases stands.stands client ticket pending with (line | ⟨found, member, -⟩) | same
  · cases idle.symm.trans line
  · rw [incoming] at member
    cases member
  · exact same

end Step

/-- **The requests stand throughout every run that stores nothing else in their place.** -/
theorem requestsStand_of_keeps (events : List Event)
    (keeps : Meets step KeepsRequests start events) :
    Throughout step RequestsStand start events := by
  have stands : Throughout step Stands start events :=
    throughout_of_meets (fun room event next stands keeps taken => stands.step keeps taken)
      stands_start keeps
  exact stands.mono fun room => Stands.requestsStand

/-- A client requests another, which accepts. -/
def accepted : List Event :=
  [.join, .join, .client 0 .execute, .client 1 .execute,
    .client 0 (.command (.connectTo 10001)), .client 0 .user, .serve 0,
    .client 1 .execute, .client 1 .execute, .client 1 (.command .requestAccept),
    .client 1 .user, .serve 1, .client 0 .execute]

theorem requestsStand_accepted : Throughout step RequestsStand start accepted :=
  requestsStand_of_keeps accepted (by decide +kernel)

/-- Two clients request each other. The server pairs them for the request of the first and
answers the other that the first is busy. -/
def crossing : List Event :=
  [.join, .join, .client 0 .execute, .client 1 .execute,
    .client 0 (.command (.connectTo 10001)), .client 1 (.command (.connectTo 10000)),
    .client 0 .user, .client 1 .user, .serve 0, .serve 1,
    .client 1 .execute, .client 1 .execute, .client 1 .execute, .client 1 .execute]

/-- **The reply to the request of the second client clears the request of the first.** -/
theorem crossing_lost :
    ∃ final, runFrom step start crossing = some final ∧ final.Quiet ∧
      final.pending 1 = some ⟨0, 10001, 0⟩ ∧
      final.hall.server.clientConnections (final.id 1) = some (final.id 0) ∧
      (final.clients 1).ids.connectionRequestId = 0 ∧ ¬ final.RequestsStand := by
  refine ⟨(runFrom step start crossing).get (by decide +kernel), (Option.some_get _).symm,
    ?quiet, by decide +kernel, by decide +kernel, by decide +kernel, ?lost⟩
  case quiet =>
    unfold Quiet
    decide +kernel
  case lost =>
    intro stand
    have same := stand (by unfold Quiet; decide +kernel) 1 ⟨0, 10001, 0⟩ (by decide +kernel)
      (by decide +kernel)
    revert same
    decide +kernel

end ChatRoom

end NetworkChat
