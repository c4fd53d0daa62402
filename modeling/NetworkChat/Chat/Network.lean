import NetworkChat.Chat.Client
import NetworkChat.Chat.Texts
import NetworkChat.Connection.Conversation
import NetworkChat.Server.System

/-!
# The server and its clients over TCP

The server with its connections (`ChatServer`), and the process of each client: its end of the
TCP connection, the queue in which that puts what it reads, and the threads of `Custom_Client`.
Everything goes byte by byte: what a handler or a thread gives to `Send` is posted, laid out,
cut into pieces by the network, read and pushed again. The steps of all ends, of `Update` and of
the threads are taken in any order, operations may fail at any time, and the end of a client may
disconnect at any time.

What runs keep they keep as in a conversation: if the handler of a code gets the whole code and no
lambda of `Send` runs before the own code is handed over (`InOrder`).

Which request a message belongs to is not known here. What is given to `Send` of a connection,
and what is dropped by `Send` because the socket is closed, is kept beside the state of the
source.
-/

set_option autoImplicit false

namespace NetworkChat

open Foundation

open Connection (End IoEvent)

/-! ## The process of a client -/

structure Terminal where
  /-- `m_connection`. -/
  connection : Connection CustomMsgTypes
  /-- The threads of `Custom_Client`, with the queue that `ExecuteMessages` empties. -/
  threads : ChatClient
  /-- How many bytes of the server have arrived. -/
  toClient : ℕ
  /-- How many of its bytes have arrived at the server. -/
  toServer : ℕ
  /-- The messages given to `Send` of the connection. -/
  given : List (Message CustomMsgTypes)
  /-- The messages that `Send` has dropped. -/
  lost : List (Message CustomMsgTypes)

namespace Terminal

/-- The connection was made, so its socket is open; the handler of `async_connect` has still to
run. -/
def start : Terminal := ⟨{ Connection.connect with isOpen := true }, .start, 0, 0, [], []⟩

/-- `client_interface::Send`. -/
def send (t : Terminal) (msg : Message CustomMsgTypes) : Terminal :=
  if t.connection.isConnected then
    { t with connection := t.connection.send msg, given := t.given ++ [msg] }
  else { t with lost := t.lost ++ [msg] }

/-- After a step of a thread. -/
def threadStepped (t : Terminal) (c : ChatClient) : Terminal :=
  (c.outgoing.map Envelope.msg).foldl send { t with threads := { c with outgoing := [] } }

/-- After something has happened to the connection: what it has pushed is in the queue. -/
def ioStepped (t : Terminal) (d : Connection CustomMsgTypes) : Terminal :=
  let pushed := d.qMessagesIn.drop t.connection.qMessagesIn.length
  { t with
    connection := d,
    threads := { t.threads with
      incoming := t.threads.incoming ++ pushed.map fun msg => ⟨0, msg, none⟩ } }

/-- `ExecuteMessages` takes a message off the queue only while the socket is open. -/
def MayStep (t : Terminal) (event : ChatClient.Event) : Prop :=
  event = .execute → t.threads.execute = .idle → t.connection.isConnected = true

instance (t : Terminal) (event : ChatClient.Event) : Decidable (t.MayStep event) :=
  inferInstanceAs (Decidable (_ → _ → _))

end Terminal

/-! ## The network -/

structure ChatNetwork where
  chat : ChatServer
  terminals : ConnectionPtr → Terminal

namespace ChatNetwork

def start : ChatNetwork := ⟨ChatServer.start, fun _ => .start⟩

inductive Event where
  /-- A client connects and is accepted; the clock gives the validation code. -/
  | accept (clock : UInt64)
  /-- Something happens to one of the ends of a connection, or bytes arrive. -/
  | io (client : ConnectionPtr) (event : Handshake.Event CustomMsgTypes)
  /-- `Update` handles the next message. -/
  | update
  /-- A thread of a client takes a step. -/
  | thread (client : ConnectionPtr) (event : ChatClient.Event)

/-- What happens without `Update` and the threads of the client. Only a client disconnects. -/
def ofIo : Handshake.Event CustomMsgTypes → Bool
  | .server event => ChatServer.ofIo event
  | .client (.send _) => false
  | _ => true

/-- The network with another state of one client. -/
def put (n : ChatNetwork) (client : ConnectionPtr) (t : Terminal) : ChatNetwork :=
  { n with terminals := Function.update n.terminals client t }

/-- A connection, whose end at the server is `c`. -/
def wire (n : ChatNetwork) (client : ConnectionPtr) (c : Connection CustomMsgTypes) :
    Handshake CustomMsgTypes :=
  let t := n.terminals client
  ⟨c, t.connection, t.toClient, t.toServer⟩

/-- After something has happened to a connection. Each end pushes what it reads into the queue of
its process. -/
def ioStepped (n : ChatNetwork) (client : ConnectionPtr) (c : Connection CustomMsgTypes)
    (h : Handshake CustomMsgTypes) : ChatNetwork :=
  let t := n.terminals client
  let pushed := h.server.qMessagesIn.drop c.qMessagesIn.length
  { chat := { n.chat with
      connections := n.chat.connections.set client h.server,
      qMessagesIn := n.chat.qMessagesIn ++ pushed.map fun msg => (client, msg) },
    terminals := Function.update n.terminals client
      { t.ioStepped h.client with toClient := h.toClient, toServer := h.toServer } }

/-- The next state, if the event can happen. -/
def act (n : ChatNetwork) : Event → Option ChatNetwork
  | .accept clock =>
      some ({ n with chat := n.chat.accept clock }.put n.chat.connections.length .start)
  | .io client event =>
      match n.chat.connections[client]? with
      | some c =>
          if ofIo event then (Conversation.step (n.wire client c) event).map (n.ioStepped client c)
          else none
      | none => none
  | .update => (n.chat.act .update).map fun chat => { n with chat }
  | .thread client event =>
      let t := n.terminals client
      if client < n.chat.connections.length ∧ t.MayStep event then
        (t.threads.step client event).map fun c => n.put client (t.threadStepped c)
      else none

/-- One step. Nothing happens after an abort of the server. -/
def step (n : ChatNetwork) (event : Event) : Option ChatNetwork :=
  match n.chat.aborted with
  | some _ => none
  | none => n.act event

/-- The handshakes come in order. -/
def InOrder (n : ChatNetwork) : Event → Prop
  | .io client event =>
      ∀ c ∈ n.chat.connections[client]?, Conversation.InOrder (n.wire client c) event
  | .accept _ => True
  | .update => True
  | .thread _ _ => True

instance decidableInOrder (n : ChatNetwork) : ∀ event, Decidable (n.InOrder event)
  | .io client event => inferInstanceAs (Decidable
      (∀ c ∈ n.chat.connections[client]?, Conversation.InOrder (n.wire client c) event))
  | .accept _ => .isTrue trivial
  | .update => .isTrue trivial
  | .thread _ _ => .isTrue trivial

/-! ## Inversion -/

theorem step_eq_some {n next : ChatNetwork} {event : Event} (taken : n.step event = some next) :
    n.chat.aborted = none ∧ n.act event = some next := by
  cases aborted : n.chat.aborted with
  | none => exact ⟨rfl, by simpa only [step, aborted] using taken⟩
  | some fault => simp only [step, aborted] at taken; cases taken

theorem act_io {n next : ChatNetwork} {client : ConnectionPtr}
    {event : Handshake.Event CustomMsgTypes} (taken : n.act (.io client event) = some next) :
    ∃ c h, n.chat.connections[client]? = some c ∧ ofIo event = true ∧
      Conversation.step (n.wire client c) event = some h ∧ next = n.ioStepped client c h := by
  simp only [act] at taken
  split at taken
  case h_1 c found =>
    split at taken
    case isTrue allowed =>
      obtain ⟨h, moved, rfl⟩ := Option.map_eq_some_iff.mp taken
      exact ⟨c, h, found, allowed, moved, rfl⟩
    case isFalse => cases taken
  case h_2 => cases taken

theorem act_update {n next : ChatNetwork} (taken : n.act .update = some next) :
    ∃ client msg later, n.chat.qMessagesIn = (client, msg) :: later ∧
      next = { n with chat := n.chat.handle client msg later } := by
  obtain ⟨chat, handled, rfl⟩ := Option.map_eq_some_iff.mp taken
  obtain ⟨client, msg, later, queue, rfl⟩ := ChatServer.act_update handled
  exact ⟨client, msg, later, queue, rfl⟩

theorem act_thread {n next : ChatNetwork} {client : ConnectionPtr} {event : ChatClient.Event}
    (taken : n.act (.thread client event) = some next) :
    client < n.chat.connections.length ∧ (n.terminals client).MayStep event ∧
      ∃ c, (n.terminals client).threads.step client event = some c ∧
        next = n.put client ((n.terminals client).threadStepped c) := by
  simp only [act] at taken
  split at taken
  case isTrue allowed =>
    obtain ⟨c, moved, rfl⟩ := Option.map_eq_some_iff.mp taken
    exact ⟨allowed.1, allowed.2, c, moved, rfl⟩
  case isFalse => cases taken

end ChatNetwork

/-! ## What runs keep -/

namespace Terminal

/-- What a client keeps that the server was given these messages for, with the server's end. -/
structure Sound (told : List (Message CustomMsgTypes)) (c : Connection CustomMsgTypes)
    (t : Terminal) : Prop where
  talks : Conversation.Talks told t.given ⟨c, t.connection, t.toClient, t.toServer⟩
  openOrDown : t.connection.isOpen = true ∨ t.connection.Down
  lost : t.lost ≠ [] → t.connection.Down
  sentOff : t.threads.outgoing = []

variable {told : List (Message CustomMsgTypes)} {c : Connection CustomMsgTypes} {t : Terminal}

/-- `Send` hands the message to the connection, or drops it for good. -/
theorem Sound.send (sound : Sound told c t) (msg : Message CustomMsgTypes) :
    Sound told c (t.send msg) := by
  rw [Terminal.send]
  split
  case isTrue isOpen =>
    refine ⟨⟨sound.talks.server, sound.talks.client.send msg, sound.talks.atClient,
      sound.talks.atServer⟩, sound.openOrDown, fun some => ?_, sound.sentOff⟩
    exact absurd (isOpen.symm.trans (sound.lost some).1) (by decide)
  case isFalse isClosed =>
    exact ⟨sound.talks, sound.openOrDown, fun _ => sound.openOrDown.resolve_left isClosed,
      sound.sentOff⟩

theorem Sound.foldl_send (sound : Sound told c t) (msgs : List (Message CustomMsgTypes)) :
    Sound told c (msgs.foldl Terminal.send t) := by
  induction msgs generalizing t with
  | nil => exact sound
  | cons msg msgs ih => exact ih (sound.send msg)

/-- What is sent is given to the connection or lost. -/
theorem Sound.sent (sound : Sound told c t) (msgs : List (Message CustomMsgTypes)) :
    (msgs.foldl Terminal.send t).given ++ (msgs.foldl Terminal.send t).lost =
      t.given ++ t.lost ++ msgs := by
  induction msgs generalizing t with
  | nil => exact (List.append_nil _).symm
  | cons msg msgs ih =>
      have first : (t.send msg).given ++ (t.send msg).lost = t.given ++ t.lost ++ [msg] := by
        rw [Terminal.send]
        split
        case isTrue isOpen =>
          have noneLost : t.lost = [] := by
            by_contra some
            exact absurd (isOpen.symm.trans (sound.lost some).1) (by decide)
          simp only [noneLost, List.append_nil]
        case isFalse => simp only [List.append_assoc]
      rw [List.foldl_cons, ih (sound.send msg), first, List.append_assoc]
      rfl

/-- `Send` leaves the threads and what was read alone. -/
theorem foldl_send_frame (t : Terminal) (msgs : List (Message CustomMsgTypes)) :
    (msgs.foldl Terminal.send t).threads = t.threads ∧
      (msgs.foldl Terminal.send t).connection.qMessagesIn = t.connection.qMessagesIn := by
  induction msgs generalizing t with
  | nil => exact ⟨rfl, rfl⟩
  | cons msg msgs ih =>
      have first : (t.send msg).threads = t.threads ∧
          (t.send msg).connection.qMessagesIn = t.connection.qMessagesIn := by
        rw [Terminal.send]
        split <;> exact ⟨rfl, rfl⟩
      exact ⟨(ih _).1.trans first.1, (ih _).2.trans first.2⟩

/-- The server gives messages to `Send` of its end. -/
theorem Sound.tell (sound : Sound told c t) (msgs : List (Message CustomMsgTypes)) :
    Sound (told ++ msgs) (msgs.foldl Connection.send c) t := by
  have sent : (msgs.foldl Connection.send c).sent = c.sent := by rw [Connection.foldl_send]
  refine ⟨⟨sound.talks.server.foldl_send msgs, ?_, ?_, sound.talks.atServer⟩, sound.openOrDown,
    sound.lost, sound.sentOff⟩
  · simpa only [Handshake.atClient, Handshake.handedOver, sent] using sound.talks.client
  · simpa only [sent] using sound.talks.atClient

/-- The threads are elsewhere, and what they sent is still to be given to `Send`. -/
theorem Sound.reset (sound : Sound told c t) (d : ChatClient) :
    Sound told c { t with threads := { d with outgoing := [] } } :=
  ⟨sound.talks, sound.openOrDown, sound.lost, rfl⟩

theorem Sound.threadStepped (sound : Sound told c t) (d : ChatClient) :
    Sound told c (t.threadStepped d) :=
  (sound.reset d).foldl_send _

end Terminal

namespace ChatNetwork

/-- An event of the server's end is one of the `io_context`, and a client does not call `Send`. -/
theorem ends_of_ofIo {h next : Handshake CustomMsgTypes}
    {event : Handshake.Event CustomMsgTypes} (allowed : ofIo event = true)
    (moved : Conversation.step h event = some next) :
    (next.server = h.server ∨
        ∃ seen, ChatServer.ofIo seen = true ∧ h.server.step seen = some next.server) ∧
      (next.client = h.client ∨ ∃ seen, h.client.step seen = some next.client) ∧
      Conversation.serverGiven [event] = [] ∧ Conversation.clientGiven [event] = [] := by
  cases event with
  | server event =>
      obtain ⟨server, taken, rfl⟩ := Option.map_eq_some_iff.mp moved
      refine ⟨.inr ⟨event, allowed, (Conversation.endStep_eq_some taken).2⟩, .inl rfl, ?_, rfl⟩
      cases event <;> first | rfl | cases allowed
  | client event =>
      obtain ⟨client, taken, rfl⟩ := Option.map_eq_some_iff.mp moved
      refine ⟨.inl rfl, .inr ⟨event, (Conversation.endStep_eq_some taken).2⟩, rfl, ?_⟩
      cases event <;> first | rfl | cases allowed
  | toClient count =>
      simp only [Conversation.step, Handshake.step] at moved
      split at moved
      case isTrue =>
        obtain ⟨client, taken, rfl⟩ := Option.map_eq_some_iff.mp moved
        exact ⟨.inl rfl, .inr ⟨_, taken⟩, rfl, rfl⟩
      case isFalse => cases moved
  | toServer count =>
      simp only [Conversation.step, Handshake.step] at moved
      split at moved
      case isTrue =>
        obtain ⟨server, taken, rfl⟩ := Option.map_eq_some_iff.mp moved
        exact ⟨.inr ⟨_, rfl, taken⟩, .inl rfl, rfl, rfl⟩
      case isFalse => cases moved

/-- **The server of a network moves as the server by itself does**, or stays. -/
theorem step_chat {n next : ChatNetwork} {event : Event} (taken : n.step event = some next) :
    next.chat = n.chat ∨ ∃ seen, n.chat.step seen = some next.chat := by
  obtain ⟨running, acted⟩ := step_eq_some taken
  have acts : ∀ seen, n.chat.step seen = n.chat.act seen := fun seen => by
    simp only [ChatServer.step, running]
  cases event with
  | accept clock => cases acted; exact .inr ⟨.accept clock, acts _⟩
  | update =>
      obtain ⟨chat, handled, rfl⟩ := Option.map_eq_some_iff.mp acted
      exact .inr ⟨.update, (acts _).trans handled⟩
  | thread client event => obtain ⟨-, -, c, -, rfl⟩ := act_thread acted; exact .inl rfl
  | io client event =>
      obtain ⟨c, h, found, allowed, moved, rfl⟩ := act_io acted
      rcases (ends_of_ofIo allowed moved).1 with same | ⟨seen, ofServer, stepped⟩
      · refine .inl ?_
        have stays : n.chat.connections.set client c = n.chat.connections := by
          obtain ⟨known, rfl⟩ := List.getElem?_eq_some_iff.mp found
          exact List.set_getElem_self known
        simp only [ioStepped, same, wire, List.drop_length, List.map_nil, List.append_nil, stays]
      · refine .inr ⟨.io client seen, (acts _).trans ?_⟩
        have stepped : c.step seen = some h.server := stepped
        simp only [ChatServer.act, found, ofServer, if_true, stepped, Option.map_some]
        rfl

/-- The server is sound, and so is every client with its end there. -/
structure Sound (n : ChatNetwork) : Prop where
  chat : ChatServer.Sound n.chat
  terminals : ∀ client c, n.chat.connections[client]? = some c →
    Terminal.Sound (messagesOf client n.chat.sends) c (n.terminals client)

theorem sound_start : Sound start :=
  ⟨ChatServer.sound_start, fun client c found => by cases found⟩

/-- The socket of a client is open when the server accepts it. -/
theorem sound_accepted (clock : UInt64) (welcome : List (Message CustomMsgTypes)) (uid : UInt32) :
    Terminal.Sound welcome (Connection.accept clock welcome uid) Terminal.start where
  talks := by
    have opened : Conversation.step (Handshake.start clock welcome uid) (.client .socketOpened) =
        some ⟨Connection.accept clock welcome uid, Terminal.start.connection, 0, 0⟩ := rfl
    have inOrder : Conversation.InOrder (Handshake.start clock welcome uid)
        (.client .socketOpened) := ⟨trivial, trivial⟩
    have talks := (Conversation.talks_start clock welcome uid).step inOrder opened
    have nothing : welcome ++ Conversation.serverGiven
        [Handshake.Event.client (IoEvent.socketOpened (T := CustomMsgTypes))] = welcome :=
      List.append_nil welcome
    rwa [nothing] at talks
  openOrDown := .inl rfl
  lost := fun some => absurd rfl some
  sentOff := rfl

/-- A connection that is accepted is given its welcome only. -/
theorem sends_accept {s : ChatServer} (sound : ChatServer.Sound s) (clock : UInt64) :
    messagesOf s.connections.length (s.accept clock).sends =
      [CustomServer.idMsg .serverAccept s.server.nIDCounter] := by
  simp only [ChatServer.accept]
  rw [messagesOf_concat_self,
    messagesOf_eq_nil fun entry member => (sound.knownSends entry member).ne]
  rfl

theorem sends_accept_other (s : ChatServer) (clock : UInt64) {client : ConnectionPtr}
    (isOld : client ≠ s.connections.length) :
    messagesOf client (s.accept clock).sends = messagesOf client s.sends :=
  messagesOf_concat_other isOld.symm _ _

theorem Sound.accept {n : ChatNetwork} (sound : Sound n) (clock : UInt64) :
    Sound ({ n with chat := n.chat.accept clock }.put n.chat.connections.length .start) where
  chat := sound.chat.accept clock
  terminals client c found := by
    rcases getElem?_concat found with ⟨before, old⟩ | ⟨rfl, rfl⟩
    · simp only [put, sends_accept_other n.chat clock before.ne, Function.update_of_ne before.ne]
      exact sound.terminals client c old
    · simp only [put, sends_accept sound.chat clock, Function.update_self]
      exact sound_accepted clock _ _

theorem Sound.io {n : ChatNetwork} {client : ConnectionPtr} {c : Connection CustomMsgTypes}
    {event : Handshake.Event CustomMsgTypes} {h : Handshake CustomMsgTypes} (sound : Sound n)
    (running : n.chat.aborted = none) (found : n.chat.connections[client]? = some c)
    (allowed : ofIo event = true) (inOrder : Conversation.InOrder (n.wire client c) event)
    (moved : Conversation.step (n.wire client c) event = some h) :
    Sound (n.ioStepped client c h) := by
  obtain ⟨-, ofClient, noneTold, noneSaid⟩ := ends_of_ofIo allowed moved
  have stepped : n.step (.io client event) = some (n.ioStepped client c h) := by
    simp only [step, running, act, found, allowed, if_true, moved, Option.map_some]
  refine ⟨?_, fun other e at_ => ?_⟩
  · rcases step_chat stepped with same | ⟨seen, taken⟩
    · rw [same]
      exact sound.chat
    · exact sound.chat.step taken
  · have before := sound.terminals client c found
    have talks := before.talks.step inOrder moved
    rw [noneTold, noneSaid, List.append_nil, List.append_nil] at talks
    simp only [ioStepped, List.getElem?_set] at at_ ⊢
    split at at_
    case isTrue same =>
      subst same
      split at at_
      · cases at_
        rw [Function.update_self]
        have socket : Connection.SocketMoves (n.terminals client).connection h.client := by
          rcases ofClient with same | ⟨seen, taken⟩
          · exact same ▸ .same rfl rfl
          · exact Connection.socketMoves_of_act (Connection.step_eq_some taken).2
        exact ⟨talks, socket.openOrDown before.openOrDown,
          fun some => socket.down (before.lost some), before.sentOff⟩
      · cases at_
    case isFalse differs =>
      rw [Function.update_of_ne (Ne.symm differs)]
      exact sound.terminals other e at_

theorem Sound.handle {n : ChatNetwork} {client : ConnectionPtr} {msg : Message CustomMsgTypes}
    {later : List Owned} (sound : Sound n) (queue : n.chat.qMessagesIn = (client, msg) :: later) :
    Sound { n with chat := n.chat.handle client msg later } := by
  refine ⟨sound.chat.handle queue, fun other e at_ => ?_⟩
  rcases ChatServer.handle_cases n.chat client msg later with
    ⟨server, calls, -, handled⟩ | ⟨fault, -, failed⟩
  · simp only [handled] at at_ ⊢
    rw [List.getElem?_mapIdx] at at_
    obtain ⟨c, found, rfl⟩ := Option.map_eq_some_iff.mp at_
    have before := sound.terminals other c found
    rw [messagesOf_append]
    exact before.tell _
  · simp only [failed] at at_ ⊢
    exact sound.terminals other e at_

theorem Sound.thread {n : ChatNetwork} (sound : Sound n) (client : ConnectionPtr)
    (d : ChatClient) : Sound (n.put client ((n.terminals client).threadStepped d)) where
  chat := sound.chat
  terminals other c found := by
    by_cases same : other = client
    · subst same
      simp only [put, Function.update_self]
      exact (sound.terminals other c found).threadStepped d
    · simp only [put, Function.update_of_ne same]
      exact sound.terminals other c found

/-- **Every step that comes in order keeps the network sound.** -/
theorem Sound.step {n next : ChatNetwork} {event : Event} (sound : Sound n)
    (inOrder : n.InOrder event) (taken : n.step event = some next) : Sound next := by
  obtain ⟨running, acted⟩ := step_eq_some taken
  cases event with
  | accept clock => cases acted; exact sound.accept clock
  | io client event =>
      obtain ⟨c, h, found, allowed, moved, rfl⟩ := act_io acted
      exact sound.io running found allowed (inOrder c found) moved
  | update =>
      obtain ⟨client, msg, later, queue, rfl⟩ := act_update acted
      exact sound.handle queue
  | thread client event =>
      obtain ⟨-, -, c, -, rfl⟩ := act_thread acted
      exact sound.thread client c

end ChatNetwork

end NetworkChat
