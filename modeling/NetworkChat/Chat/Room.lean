import NetworkChat.Chat.Client
import NetworkChat.Server.Live

/-!
# The server and its clients

A room is a hall with the clients behind its connections. The server handles the messages of
each client in the order in which they were sent, and what it sends to a client arrives in
order; otherwise the steps of the server and of the threads of all clients are taken in any
order. The sockets stay open.

The clients are honest: what the server gets of them are requests, texts, answers and closes
(`Wrote`). `Serves` lists what the server does with one of these, and every step of the
server is one of the list (`serve_cases`). A run of a room is a run of its hall
(`refines_hall`).

Beside the state of the source, `pending` says which request is still to be answered by a
client: the server has paired the client for it, and since then the client has sent no answer
and neither of the two a close.
-/

set_option autoImplicit false

namespace NetworkChat

open Foundation

open ChatClient (Wrote)

structure ChatRoom where
  hall : Hall
  clients : ConnectionPtr → ChatClient
  /-- The request that a client has still to answer. -/
  pending : ConnectionPtr → Option Ticket

namespace ChatRoom

def start : ChatRoom := ⟨Hall.start, fun _ => .start, fun _ => none⟩

inductive Event where
  /-- A client connects. -/
  | join
  /-- A thread of a client takes a step. -/
  | client (client : ConnectionPtr) (event : ChatClient.Event)
  /-- The server handles the next message of a client. -/
  | serve (client : ConnectionPtr)
  deriving DecidableEq, Repr

/-- The id of a client. -/
def id (room : ChatRoom) (client : ConnectionPtr) : UInt32 := (room.hall.view client).id

/-! ## Steps -/

/-- What is sent to a client. -/
def deliveries (calls : List Call) (client : ConnectionPtr) : List (Message CustomMsgTypes) :=
  calls.filterMap fun call =>
    match call with
    | .send receiver msg => if receiver = client then some msg else none
    | .onClientDisconnect _ => none

/-- A client connects, and `OnClientConnect` sends its id to it. -/
def join (room : ChatRoom) : ChatRoom :=
  let client := room.hall.peers.length
  let welcome := CustomServer.idMsg .serverAccept room.hall.server.nIDCounter
  { room with
    hall := room.hall.accept,
    clients := Function.update room.clients client
      { ChatClient.start with incoming := [⟨client, welcome, none⟩] } }

/-- A client that has sent an answer has no request to answer, and one that has sent a close
has ended its requests and those to it. -/
def noteSent (room : ChatRoom) (client : ConnectionPtr) (sent : List Envelope) :
    ConnectionPtr → Option Ticket := fun other =>
  if other = client ∧ sent.any fun envelope => envelope.msg.header.id = .requestAnswer then none
  else if (sent.any fun envelope => envelope.msg.header.id = .closeClient) ∧
      (other = client ∨ (room.pending other).any fun ticket => ticket.asker = client) then none
  else room.pending other

/-- The client after a step of one of its threads. -/
def moved (room : ChatRoom) (client : ConnectionPtr) (c : ChatClient) : ChatRoom :=
  { room with
    clients := Function.update room.clients client c,
    pending := room.noteSent client (c.outgoing.drop (room.clients client).outgoing.length) }

/-- The clients after the server has handled a message. -/
def settle (room : ChatRoom) (client : ConnectionPtr) (envelope : Envelope) (later : List Envelope)
    (calls : List Call) : ConnectionPtr → ChatClient := fun other =>
  let c := room.clients other
  { c with
    outgoing := if other = client then later else c.outgoing,
    incoming := c.incoming ++ (deliveries calls other).map fun msg =>
      ⟨envelope.sender, msg, envelope.ticket⟩ }

/-- A request that has made a pair is to be answered by the client that it was sent to. -/
def notePaired (room : ChatRoom) (client : ConnectionPtr) (envelope : Envelope)
    (after : CustomServer) (calls : List Call) : ConnectionPtr → Option Ticket :=
  if room.hall.server.clientConnections (room.id client) = none ∧
      after.clientConnections (room.id client) ≠ none then
    fun other =>
      if deliveries calls other ≠ [] then envelope.ticket
      else if other = client then none
      else room.pending other
  else room.pending

/-- `Update` handles a message of a client. -/
def serve (room : ChatRoom) (client : ConnectionPtr) (envelope : Envelope)
    (later : List Envelope) : ChatRoom :=
  match room.hall.server.onMessage room.hall.view client envelope.msg with
  | .ok (server, calls) =>
      { hall := { room.hall with server },
        clients := room.settle client envelope later calls,
        pending := room.notePaired client envelope server calls }
  | .error fault =>
      { room with
        hall := { room.hall with aborted := some fault },
        clients := room.settle client envelope later [] }

/-- The next state, if the event can happen. -/
def act (room : ChatRoom) : Event → Option ChatRoom
  | .join => some room.join
  | .client client event =>
      if client < room.hall.peers.length then
        ((room.clients client).step client event).map (room.moved client)
      else none
  | .serve client =>
      if client < room.hall.peers.length then
        match (room.clients client).outgoing with
        | [] => none
        | envelope :: later => some (room.serve client envelope later)
      else none

/-- One step. Nothing happens after an abort of the server. -/
def step (room : ChatRoom) (event : Event) : Option ChatRoom :=
  match room.hall.aborted with
  | some _ => none
  | none => room.act event

@[simp] theorem moved_self (room : ChatRoom) (client : ConnectionPtr) (c : ChatClient) :
    (room.moved client c).clients client = c := Function.update_self _ _ _

theorem moved_other (room : ChatRoom) {client other : ConnectionPtr} (c : ChatClient)
    (differs : other ≠ client) : (room.moved client c).clients other = room.clients other :=
  Function.update_of_ne differs _ _

theorem join_new (room : ChatRoom) :
    room.join.clients room.hall.peers.length = { ChatClient.start with
      incoming := [⟨room.hall.peers.length,
        CustomServer.idMsg .serverAccept room.hall.server.nIDCounter, none⟩] } :=
  Function.update_self _ _ _

theorem join_other (room : ChatRoom) {other : ConnectionPtr}
    (differs : other ≠ room.hall.peers.length) : room.join.clients other = room.clients other :=
  Function.update_of_ne differs _ _

/-- No message is on its way, and every message that was taken off a queue is handled. -/
def Quiet (room : ChatRoom) : Prop :=
  ∀ client < room.hall.peers.length, (room.clients client).outgoing = [] ∧
    (room.clients client).incoming = [] ∧ (room.clients client).execute = .idle

/-! ## Inversion -/

theorem step_eq_some {room next : ChatRoom} {event : Event} (taken : room.step event = some next) :
    room.hall.aborted = none ∧ room.act event = some next := by
  cases aborted : room.hall.aborted with
  | none => exact ⟨rfl, by simpa only [step, aborted] using taken⟩
  | some fault => simp only [step, aborted] at taken; cases taken

theorem act_client {room next : ChatRoom} {client : ConnectionPtr} {event : ChatClient.Event}
    (taken : room.act (.client client event) = some next) :
    client < room.hall.peers.length ∧ ∃ c, (room.clients client).step client event = some c ∧
      next = room.moved client c := by
  simp only [act] at taken
  split at taken
  case isTrue known =>
    obtain ⟨c, moved, rfl⟩ := Option.map_eq_some_iff.mp taken
    exact ⟨known, c, moved, rfl⟩
  case isFalse => cases taken

theorem act_serve {room next : ChatRoom} {client : ConnectionPtr}
    (taken : room.act (.serve client) = some next) :
    client < room.hall.peers.length ∧ ∃ envelope later,
      (room.clients client).outgoing = envelope :: later ∧
        next = room.serve client envelope later := by
  simp only [act] at taken
  split at taken
  case isTrue known =>
    split at taken
    case h_1 => cases taken
    case h_2 envelope later queue => cases taken; exact ⟨known, envelope, later, queue, rfl⟩
  case isFalse => cases taken

theorem hall_step_serve {room : ChatRoom} {client : ConnectionPtr} (envelope : Envelope)
    (later : List Envelope) (running : room.hall.aborted = none)
    (known : client < room.hall.peers.length) :
    room.hall.step (.message client envelope.msg) =
      some (room.serve client envelope later).hall := by
  simp only [Hall.step, running, Hall.act, if_pos known, Hall.handle, serve]
  cases room.hall.server.onMessage room.hall.view client envelope.msg with
  | ok result => rfl
  | error fault => rfl

theorem hall_step_join {room : ChatRoom} (running : room.hall.aborted = none) :
    room.hall.step .accept = some room.join.hall := by
  simp only [Hall.step, running]
  rfl

/-- **A step of a room is a step of its hall, or leaves the hall alone.** -/
theorem refines_hall {room next : ChatRoom} {event : Event} (taken : room.step event = some next) :
    next.hall = room.hall ∨ ∃ event, room.hall.step event = some next.hall := by
  obtain ⟨running, taken⟩ := step_eq_some taken
  cases event with
  | join => cases taken; exact .inr ⟨.accept, hall_step_join running⟩
  | client client event =>
      obtain ⟨-, c, -, rfl⟩ := act_client taken
      exact .inl rfl
  | serve client =>
      obtain ⟨known, envelope, later, -, rfl⟩ := act_serve taken
      exact .inr ⟨_, hall_step_serve envelope later running known⟩

/-! ## Honest clients -/

/-- All connections are in the deque and open, pairs name connections, and the clients are
honest. -/
structure Honest (room : ChatRoom) : Prop where
  paired : Hall.Paired room.hall
  numbered : Hall.Numbered room.hall
  deque : room.hall.server.dequeConnections = List.range room.hall.peers.length
  isOpen : ∀ client < room.hall.peers.length, (room.hall.view client).isConnected = true
  pairs : room.hall.PairsListed
  wrote : ∀ client, ∀ envelope ∈ (room.clients client).outgoing, Wrote client envelope

/-- What the server does with a message of an honest client. -/
inductive Serves (room : ChatRoom) (matching : Matching UInt32) (client : ConnectionPtr)
    (later : List Envelope) : Envelope → ChatRoom → Prop where
  /-- A text, an answer or a close of a client without partner. -/
  | fails (fault : Fault) (envelope : Envelope) (alone : matching.partner (room.id client) = none)
      (noRequest : envelope.msg.header.id ≠ .requestToClient) :
      Serves room matching client later envelope { room with
        hall := { room.hall with aborted := some fault },
        clients := room.settle client envelope later [] }
  /-- Nobody has the id, or one of the two has a partner. -/
  | refuse (asked : UInt32) (number : ℕ) (code : UInt32) (coded : code = 0 ∨ code = 1)
      (envelope : Envelope)
      (isRequest : envelope =
        ⟨client, CustomClient.connectRequest asked, some ⟨client, asked, number⟩⟩) :
      Serves room matching client later envelope { room with
        clients := room.settle client envelope later
          [.send client (CustomServer.idMsg .requestToClient code)] }
  | pair (asked : UInt32) (number : ℕ) (receiver : ConnectionPtr) (envelope : Envelope)
      (isRequest : envelope =
        ⟨client, CustomClient.connectRequest asked, some ⟨client, asked, number⟩⟩)
      (known : receiver < room.hall.peers.length) (isAsked : room.id receiver = asked)
      (distinct : room.id client ≠ asked) (clientFree : matching.partner (room.id client) = none)
      (askedFree : matching.partner asked = none) :
      Serves room matching client later envelope
        { hall := { room.hall with
            server := room.hall.server.withPairs
              (matching.pair (room.id client) asked distinct clientFree askedFree).partner },
          clients := room.settle client envelope later
            [.send receiver (CustomServer.idMsg .requestToClient (room.id client))],
          pending := fun other =>
            if other = receiver then envelope.ticket
            else if other = client then none
            else room.pending other }
  | text (data : List UInt8) (receiver : ConnectionPtr) (envelope : Envelope)
      (isText : envelope = ⟨client, CustomClient.sendToClient data, none⟩)
      (known : receiver < room.hall.peers.length)
      (paired : matching.partner (room.id client) = some (room.id receiver)) :
      Serves room matching client later envelope { room with
        clients := room.settle client envelope later [.send receiver envelope.msg] }
  | answer (accepted : Bool) (ticket : Option Ticket) (receiver : ConnectionPtr)
      (envelope : Envelope)
      (isAnswer : envelope = ⟨client, CustomClient.requestAnswer accepted, ticket⟩)
      (known : receiver < room.hall.peers.length)
      (paired : matching.partner (room.id client) = some (room.id receiver)) :
      Serves room matching client later envelope { room with
        clients := room.settle client envelope later [.send receiver envelope.msg] }
  | close (receiver : ConnectionPtr) (envelope : Envelope)
      (isClose : envelope = ⟨client, CustomClient.closeClient, none⟩)
      (known : receiver < room.hall.peers.length)
      (paired : matching.partner (room.id client) = some (room.id receiver)) :
      Serves room matching client later envelope { room with
        hall := { room.hall with
          server := room.hall.server.withPairs
            (matching.unpair (room.id client) (room.id receiver) paired).partner },
        clients := room.settle client envelope later [.send receiver CustomServer.closeMsg] }

/-! ### The server handles a message -/

@[simp] theorem deliveries_nil (client : ConnectionPtr) : deliveries [] client = [] := rfl

@[simp] theorem deliveries_send (receiver other : ConnectionPtr) (msg : Message CustomMsgTypes) :
    deliveries [.send receiver msg] other = if receiver = other then [msg] else [] := by
  by_cases same : receiver = other
  · simp [deliveries, same]
  · simp [deliveries, same]

section Serve

variable {room : ChatRoom} {matching : Matching UInt32} {client : ConnectionPtr}
  {envelope : Envelope} {later : List Envelope}

/-- A handler that leaves the sender without partner, or with the one it had, is not noted. -/
theorem notePaired_of_not {after : CustomServer} {calls : List Call}
    (same : room.hall.server.clientConnections (room.id client) = none →
      after.clientConnections (room.id client) = none) :
    room.notePaired client envelope after calls = room.pending :=
  if_neg fun both => both.2 (same both.1)

theorem Honest.mem_deque_iff (honest : Honest room) {other : ConnectionPtr} :
    other ∈ room.hall.server.dequeConnections ↔ other < room.hall.peers.length := by
  rw [honest.deque, List.mem_range]

/-- The loop of texts meets an open connection first. -/
theorem Honest.oneReceiver (honest : Honest room) (id : UInt32) :
    CustomServer.OneReceiver room.hall.view room.hall.server.dequeConnections id := by
  rw [CustomServer.OneReceiver]
  split
  case h_1 first second more holders =>
    have member : first ∈ CustomServer.holders room.hall.view
        room.hall.server.dequeConnections id := by
      rw [holders]
      exact List.mem_cons_self
    exact honest.isOpen first (honest.mem_deque_iff.mp (List.mem_of_mem_filter member))
  case h_2 => trivial

/-- What a client with a partner sends is answerable. -/
theorem Honest.answerable (honest : Honest room) {id : UInt32}
    (paired : room.hall.server.clientConnections (room.id client) = some id)
    (wrote : Wrote client envelope) :
    CustomServer.Answerable room.hall.view room.hall.server client envelope.msg := by
  rw [ChatRoom.id] at paired
  cases wrote with
  | request asked number => simp only [CustomServer.Answerable, CustomClient.connectRequest_type]
  | text data =>
      simp only [CustomServer.Answerable, CustomClient.sendToClient_type, paired]
      exact honest.oneReceiver id
  | answer accepted ticket =>
      simp only [CustomServer.Answerable, CustomClient.requestAnswer_type, paired]
      rfl
  | close =>
      simp only [CustomServer.Answerable, CustomClient.closeClient_type, paired]
      rfl

/-- Requests are answerable, and hold the id that is asked for. -/
theorem request_isOk (asked : UInt32) (server : CustomServer) :
    CustomServer.LongEnough (CustomClient.connectRequest asked) ∧
      CustomServer.Answerable room.hall.view server client (CustomClient.connectRequest asked) := by
  constructor
  · intro isRequest
    exact Nat.le_refl 4
  · simp only [CustomServer.Answerable, CustomClient.connectRequest_type]

/-- What a handler that gives its sender a partner sends is to be answered. -/
theorem notePaired_of_pair {after : CustomServer} {receiver : ConnectionPtr}
    {msg : Message CustomMsgTypes}
    (alone : room.hall.server.clientConnections (room.id client) = none)
    (paired : after.clientConnections (room.id client) ≠ none) :
    room.notePaired client envelope after [.send receiver msg] = fun other =>
      if other = receiver then envelope.ticket
      else if other = client then none
      else room.pending other := by
  rw [notePaired, if_pos ⟨alone, paired⟩]
  funext other
  by_cases isReceiver : other = receiver
  · simp [isReceiver]
  · simp [isReceiver, Ne.symm isReceiver]

theorem partner_of_pair {first second : UInt32} (distinct : first ≠ second)
    (firstFree : matching.partner first = none) (secondFree : matching.partner second = none) :
    (matching.pair first second distinct firstFree secondFree).partner first = some second := by
  simp [Matching.pair, distinct]

/-- A handler fails for a sender without partner only, and not on a request. -/
theorem Honest.alone_of_error (honest : Honest room)
    (represents : room.hall.server.clientConnections = matching.partner)
    (wrote : Wrote client envelope) {fault : Fault}
    (failed : room.hall.server.onMessage room.hall.view client envelope.msg = .error fault) :
    matching.partner (room.id client) = none ∧ envelope.msg.header.id ≠ .requestToClient := by
  rcases CustomServer.onMessage_cases represents room.hall.view client envelope.msg with
    ⟨-, -, after, calls, returned, -⟩ | ⟨refused, -⟩
  · cases failed.symm.trans returned
  · have noRequest : envelope.msg.header.id ≠ .requestToClient := by
      intro isRequest
      cases wrote with
      | request asked number => exact refused (request_isOk asked room.hall.server)
      | text data => cases isRequest
      | answer accepted ticket => cases isRequest
      | close => cases isRequest
    refine ⟨?_, noRequest⟩
    by_contra partnered
    obtain ⟨id, paired⟩ := Option.ne_none_iff_exists'.mp partnered
    rw [← represents] at paired
    refine refused ⟨?_, honest.answerable paired wrote⟩
    intro isRequest
    exact absurd isRequest noRequest

theorem Honest.known_of_findClient (honest : Honest room) {id : UInt32} {receiver : ConnectionPtr}
    (found : room.hall.server.findClient room.hall.view id = some receiver) :
    receiver < room.hall.peers.length ∧ room.id receiver = id :=
  ⟨honest.mem_deque_iff.mp (CustomServer.mem_of_findClient found),
    CustomServer.id_of_findClient found⟩

/-- A partner is found. -/
theorem Honest.found_of_paired (honest : Honest room)
    (represents : room.hall.server.clientConnections = matching.partner) {first second : UInt32}
    (paired : matching.partner first = some second) :
    ∃ receiver, room.hall.server.findClient room.hall.view second = some receiver := by
  refine Hall.exists_findClient_of_listed (honest.pairs first second ?_).2
  rw [represents]
  exact paired

theorem of_request (wrote : Wrote client envelope)
    (type : envelope.msg.header.id = .requestToClient) : ∃ asked number,
      envelope = ⟨client, CustomClient.connectRequest asked, some ⟨client, asked, number⟩⟩ := by
  cases wrote with
  | request asked number => exact ⟨asked, number, rfl⟩
  | _ => cases type

theorem of_close (wrote : Wrote client envelope)
    (type : envelope.msg.header.id = .closeClient) :
    envelope = ⟨client, CustomClient.closeClient, none⟩ := by
  cases wrote with
  | close => rfl
  | _ => cases type

/-- A message of an honest client has one of four types. -/
theorem type_of_wrote (wrote : Wrote client envelope) :
    envelope.msg.header.id = .requestToClient ∨ envelope.msg.header.id = .textClient ∨
      envelope.msg.header.id = .requestAnswer ∨ envelope.msg.header.id = .closeClient := by
  cases wrote with
  | request asked number => exact .inl rfl
  | text data => exact .inr (.inl rfl)
  | answer accepted ticket => exact .inr (.inr (.inl rfl))
  | close => exact .inr (.inr (.inr rfl))

theorem type_ne_of_wrote (wrote : Wrote client envelope) {type : CustomMsgTypes}
    (foreign : type ∉ [.requestToClient, .textClient, .requestAnswer, .closeClient]) :
    envelope.msg.header.id ≠ type := by
  rintro rfl
  refine foreign ?_
  simpa using type_of_wrote wrote

theorem pop_connectRequest {asked id : UInt32} {rest : Message CustomMsgTypes}
    (asks : (CustomClient.connectRequest asked).pop UInt32 = .ok (id, rest)) : id = asked := by
  rw [CustomClient.connectRequest, Message.pop_push] at asks
  cases asks
  rfl

/-- **What the server does with a message of an honest client.** -/
theorem Honest.serve_cases (honest : Honest room)
    (represents : room.hall.server.clientConnections = matching.partner)
    (wrote : Wrote client envelope) (later : List Envelope) :
    Serves room matching client later envelope (room.serve client envelope later) := by
  cases returned : room.hall.server.onMessage room.hall.view client envelope.msg with
  | error fault =>
      obtain ⟨alone, noRequest⟩ := honest.alone_of_error represents wrote returned
      simp only [serve, returned]
      exact .fails fault envelope alone noRequest
  | ok result =>
      obtain ⟨after, calls⟩ := result
      have effect := CustomServer.onMessage_effect represents returned
      simp only [serve, returned]
      have sender : room.hall.server.clientConnections (room.id client) =
          matching.partner (room.id client) := congrFun represents _
      cases effect with
      | unknown id rest type asks absent =>
          obtain ⟨asked, number, isRequest⟩ := of_request wrote type
          rw [notePaired_of_not fun alone => alone]
          exact .refuse asked number 0 (.inl rfl) envelope isRequest
      | busy id rest receiver type asks found taken =>
          obtain ⟨asked, number, isRequest⟩ := of_request wrote type
          rw [notePaired_of_not fun alone => alone]
          exact .refuse asked number 1 (.inr rfl) envelope isRequest
      | pair id rest receiver type asks found distinct clientFree idFree =>
          obtain ⟨asked, number, rfl⟩ := of_request wrote type
          obtain rfl := pop_connectRequest asks
          obtain ⟨known, isAsked⟩ := honest.known_of_findClient found
          rw [notePaired_of_pair]
          · exact .pair id number receiver _ rfl known isAsked distinct clientFree idFree
          · exact sender.trans clientFree
          · have paired := partner_of_pair distinct clientFree idFree
            rw [CustomServer.withPairs_clientConnections, ChatRoom.id, paired]
            exact Option.some_ne_none _
      | relay id receiver type paired found =>
          obtain ⟨known, rfl⟩ := honest.known_of_findClient found
          rw [notePaired_of_not fun alone => alone]
          cases wrote with
          | text data => exact .text data receiver _ rfl known paired
          | answer accepted ticket => exact .answer accepted ticket receiver _ rfl known paired
          | request asked number => rcases type with type | type <;> cases type
          | close => rcases type with type | type <;> cases type
      | drop id type paired absent =>
          obtain ⟨receiver, found⟩ := honest.found_of_paired represents paired
          cases absent.symm.trans found
      | hangUp id receiver type paired found isClosed =>
          have isOpen := honest.isOpen receiver (honest.known_of_findClient found).1
          cases isOpen.symm.trans isClosed
      | close id type paired =>
          obtain ⟨receiver, found⟩ := honest.found_of_paired represents paired
          obtain ⟨known, rfl⟩ := honest.known_of_findClient found
          rw [CustomServer.sendToId, found, notePaired_of_not]
          · exact .close receiver envelope (of_close wrote type) known paired
          · intro alone
            cases (sender.symm.trans alone).symm.trans paired
      | echo type => exact absurd type (type_ne_of_wrote wrote (by decide))
      | greet type => exact absurd type (type_ne_of_wrote wrote (by decide))
      | list type => exact absurd type (type_ne_of_wrote wrote (by decide))
      | ignore type =>
          rcases type with type | type | type | ⟨value, large, type⟩
          all_goals exact absurd type (type_ne_of_wrote wrote (by simp))

end Serve

/-! ### Runs -/

theorem honest_start : Honest start where
  paired := Hall.paired_start
  numbered := Hall.numbered_start
  deque := rfl
  isOpen := by simp [start, Hall.start]
  pairs := by
    intro key value has
    cases has
  wrote := by
    intro client envelope member
    cases member

/-- The server's handling keeps the deque and the counter of ids. -/
theorem Serves.deque {room next : ChatRoom} {matching : Matching UInt32} {client : ConnectionPtr}
    {later : List Envelope} {envelope : Envelope}
    (serves : Serves room matching client later envelope next) :
    next.hall.server.dequeConnections = room.hall.server.dequeConnections ∧
      next.hall.server.nIDCounter = room.hall.server.nIDCounter ∧
        next.hall.peers = room.hall.peers := by
  cases serves with
  | _ => exact ⟨rfl, rfl, rfl⟩

/-- The server takes the message off the queue of its sender. -/
theorem Serves.outgoing {room next : ChatRoom} {matching : Matching UInt32} {client : ConnectionPtr}
    {later : List Envelope} {envelope : Envelope}
    (serves : Serves room matching client later envelope next) (other : ConnectionPtr) :
    (next.clients other).outgoing =
      if other = client then later else (room.clients other).outgoing := by
  cases serves with
  | _ => rfl

/-- What the server sends is appended, and nothing else of a client but its queue changes. -/
theorem Serves.clients {room next : ChatRoom} {matching : Matching UInt32} {client : ConnectionPtr}
    {later : List Envelope} {envelope : Envelope}
    (serves : Serves room matching client later envelope next) :
    ∃ calls, next.clients = room.settle client envelope later calls := by
  cases serves with
  | _ => exact ⟨_, rfl⟩

theorem Serves.id {room next : ChatRoom} {matching : Matching UInt32} {client : ConnectionPtr}
    {later : List Envelope} {envelope : Envelope}
    (serves : Serves room matching client later envelope next) (other : ConnectionPtr) :
    next.id other = room.id other := by
  rw [ChatRoom.id, Hall.view, serves.deque.2.2]
  rfl

theorem view_accept (hall : Hall) (client : ConnectionPtr) :
    hall.accept.view client =
      if client = hall.peers.length then ⟨hall.server.nIDCounter, true⟩ else hall.view client := by
  simp only [Hall.view, Hall.accept, List.getD_eq_getElem?_getD]
  rcases Nat.lt_trichotomy client hall.peers.length with before | rfl | after
  · rw [List.getElem?_append_left before, if_neg (Nat.ne_of_lt before)]
  · rw [List.getElem?_concat_length, if_pos rfl]
    rfl
  · rw [if_neg (Nat.ne_of_gt after), List.getElem?_eq_none (Nat.le_of_lt after),
      List.getElem?_eq_none (by rw [List.length_append, List.length_singleton]; exact after)]

theorem join_id (room : ChatRoom) {other : ConnectionPtr}
    (differs : other ≠ room.hall.peers.length) : room.join.id other = room.id other := by
  rw [ChatRoom.id, join, view_accept, if_neg differs]
  rfl

theorem join_length (room : ChatRoom) :
    room.join.hall.peers.length = room.hall.peers.length + 1 :=
  List.length_append

/-- As long as the ids do not wrap, they count from 10000. -/
theorem Honest.toNat_id {room : ChatRoom} (honest : Honest room)
    (few : room.hall.peers.length + 10000 ≤ 2 ^ 32) {client : ConnectionPtr}
    (known : client < room.hall.peers.length) : (room.id client).toNat = 10000 + client := by
  have isId := honest.numbered.ids client _ (List.getElem?_eq_getElem known)
  have small : 10000 + client < 2 ^ 32 :=
    Nat.lt_of_lt_of_le (Nat.add_lt_add_left known 10000) (Nat.add_comm _ _ ▸ few)
  rw [ChatRoom.id, Hall.view, List.getD_eq_getElem?_getD, List.getElem?_eq_getElem known,
    Option.getD_some, isId, UInt32.toNat_ofNat_of_lt' small]

theorem Honest.le_id {room : ChatRoom} (honest : Honest room)
    (few : room.hall.peers.length + 10000 ≤ 2 ^ 32) {client : ConnectionPtr}
    (known : client < room.hall.peers.length) : 10000 ≤ room.id client := by
  rw [UInt32.le_iff_toNat_le, honest.toNat_id few known]
  exact Nat.le_add_right 10000 client

theorem Honest.step {room next : ChatRoom} {event : Event} (honest : Honest room)
    (taken : room.step event = some next) : Honest next := by
  obtain ⟨running, acted⟩ := step_eq_some taken
  have listed : ∀ client ∈ room.hall.server.dequeConnections, client < room.hall.peers.length :=
    fun _ => honest.mem_deque_iff.mp
  cases event with
  | join =>
      cases acted
      have moved := hall_step_join running
      refine ⟨honest.paired.step moved, honest.numbered.accept, ?_, ?_,
        (Hall.pairsListed_step_iff honest.paired listed honest.pairs moved).mpr trivial, ?_⟩
      · change room.hall.server.dequeConnections ++ [room.hall.peers.length] = _
        rw [honest.deque]
        simp only [join, Hall.accept, List.length_append, List.length_singleton, List.range_succ]
      · intro client known
        rw [join, view_accept]
        split
        · rfl
        · rename_i notNew
          simp only [join, Hall.accept, List.length_append, List.length_singleton] at known
          exact honest.isOpen client (Nat.lt_of_le_of_ne (Nat.le_of_lt_succ known) notNew)
      · intro client envelope member
        by_cases isNew : client = room.hall.peers.length
        · subst isNew
          rw [join_new] at member
          cases member
        · rw [join_other room isNew] at member
          exact honest.wrote client envelope member
  | client client event =>
      obtain ⟨-, c, moved, rfl⟩ := act_client acted
      refine ⟨honest.paired, honest.numbered, honest.deque, honest.isOpen, honest.pairs, ?_⟩
      intro other envelope member
      by_cases isMover : other = client
      · subst isMover
        rw [moved_self] at member
        rcases (ChatClient.step_cases moved).sends with same | ⟨sent, wrote, appended⟩
        · exact honest.wrote other envelope (same ▸ member)
        · rw [appended] at member
          rcases List.mem_append.mp member with old | new
          · exact honest.wrote other envelope old
          · cases List.mem_singleton.mp new
            exact wrote
      · rw [moved_other room c isMover] at member
        exact honest.wrote other envelope member
  | serve client =>
      obtain ⟨known, envelope, later, queue, rfl⟩ := act_serve acted
      obtain ⟨matching, represents⟩ := honest.paired
      have wrote := honest.wrote client envelope (by rw [queue]; exact List.mem_cons_self)
      have serves := honest.serve_cases represents wrote later
      have moved := hall_step_serve envelope later running known
      obtain ⟨sameDeque, sameCounter, samePeers⟩ := serves.deque
      have spares : room.hall.SparesPairs (.message client envelope.msg) := by
        constructor
        · intro prunes
          rcases prunes with type | type
          all_goals exact absurd type (type_ne_of_wrote wrote (by decide))
        · intro makes
          exact ⟨client, honest.mem_deque_iff.mpr known, rfl⟩
      refine ⟨honest.paired.step moved, ⟨?_, ?_, ?_⟩, ?_, ?_,
        (Hall.pairsListed_step_iff honest.paired listed honest.pairs moved).mpr spares, ?_⟩
      · rw [samePeers]
        exact honest.numbered.ids
      · rw [sameCounter, samePeers]
        exact honest.numbered.counter
      · rw [sameDeque, samePeers]
        exact honest.numbered.deque
      · rw [sameDeque, samePeers]
        exact honest.deque
      · intro other isKnown
        rw [samePeers] at isKnown
        rw [Hall.view, samePeers]
        exact honest.isOpen other isKnown
      · intro other sent member
        rw [serves.outgoing] at member
        split at member
        · rename_i isSender
          subst isSender
          exact honest.wrote other sent (by rw [queue]; exact List.mem_cons_of_mem _ member)
        · exact honest.wrote other sent member

end ChatRoom

end NetworkChat
