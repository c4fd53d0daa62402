import NetworkChat.Chat.Texts
import NetworkChat.Chat.Understood

/-!
# Messages that arrive as they were sent

The read loop leaves the body of the previous message in the buffer when a message has none. Of the
messages that a client and the server send only a close has none, and nobody reads the body of a
close. So an end has pushed the first messages that were given to `Send` at the other end up to
that (`SameMessage`, `firstOf_heard`).

This needs that each of these messages declares its body (`Plain`). What the threads of a client
send is plain if the texts fit in a header (`ChatClient.plain_sent`), and what the server sends in
answer to plain messages is plain (`ChatRoom.plain_calls`).
-/

set_option autoImplicit false

namespace NetworkChat

open Foundation

open ChatClient (Wrote)

/-! ## Messages over a connection -/

/-- The same message, up to the body of a close, which nobody reads. -/
def SameMessage (got msg : Message CustomMsgTypes) : Prop :=
  got = msg ∨ (msg.header.id = .closeClient ∧ got.header = msg.header)

/-- A message whose header declares its body, and that has one unless it is a close. -/
structure Plain (msg : Message CustomMsgTypes) : Prop where
  framed : msg.Framed
  bodied : msg.header.id ≠ .closeClient → msg.body ≠ []

section Same

variable {got msg : Message CustomMsgTypes}

theorem SameMessage.readMessage (same : SameMessage got msg) :
    readMessage got = readMessage msg := by
  rcases same with rfl | ⟨type, header⟩
  · rfl
  · simp only [NetworkChat.readMessage, header, type]

theorem SameMessage.textOf (same : SameMessage got msg) : textOf got = textOf msg := by
  simp only [NetworkChat.textOf, same.readMessage]

theorem SameMessage.onMessage (same : SameMessage got msg) (view : ConnectionPtr → Peer)
    (server : CustomServer) (client : ConnectionPtr) :
    server.onMessage view client got = server.onMessage view client msg := by
  rcases same with rfl | ⟨type, header⟩
  · rfl
  · obtain ⟨gotHeader, body⟩ := got
    obtain rfl : gotHeader = msg.header := header
    exact CustomServer.onMessage_stale view server client (.inr (.inr type)) body

end Same

/-- Each of the messages that were got is the same as the one at its place. -/
def FirstOf (got msgs : List (Message CustomMsgTypes)) : Prop :=
  ∀ (index : ℕ) (msg : Message CustomMsgTypes), got[index]? = some msg →
    ∃ same, msgs[index]? = some same ∧ SameMessage msg same

/-- The loop pushes the first messages that were given, as far as somebody reads them. -/
theorem firstOf_receive (buffer : List UInt8) {msgs : List (Message CustomMsgTypes)}
    (plain : ∀ msg ∈ msgs, Plain msg) : FirstOf (receive buffer (msgs.map Message.frame)) msgs := by
  induction msgs generalizing buffer with
  | nil => exact fun index msg found => by cases found
  | cons msg msgs ih =>
      have isPlain := plain msg List.mem_cons_self
      intro index found at_
      cases index with
      | zero =>
          cases at_
          refine ⟨msg, rfl, ?_⟩
          by_cases isClose : msg.header.id = .closeClient
          · exact .inr ⟨isClose, rfl⟩
          · have body : (if msg.frame.2 = [] then buffer else msg.frame.2) = msg.body :=
              if_neg (isPlain.bodied isClose)
            exact .inl (congrArg (Message.mk msg.header) body)
      | succ index =>
          have others : ∀ later ∈ msgs, Plain later := fun later member =>
            plain later (List.mem_cons_of_mem _ member)
          exact ih _ others index found at_

theorem FirstOf.mono {got msgs : List (Message CustomMsgTypes)} (first : FirstOf got msgs)
    (later : List (Message CustomMsgTypes)) : FirstOf got (msgs ++ later) := by
  intro index msg at_
  obtain ⟨same, found, isSame⟩ := first index msg at_
  exact ⟨same, List.getElem?_append_left (List.getElem?_eq_some_iff.mp found).1 ▸ found, isSame⟩

theorem FirstOf.length_le {got msgs : List (Message CustomMsgTypes)} (first : FirstOf got msgs) :
    got.length ≤ msgs.length := by
  cases length : got.length with
  | zero => exact Nat.zero_le _
  | succ count =>
      have known : count < got.length := by omega
      obtain ⟨same, found, -⟩ := first count _ (List.getElem?_eq_getElem known)
      exact (List.getElem?_eq_some_iff.mp found).1

/-- The next message that was got is the next one of those that were given. -/
theorem FirstOf.next {got msgs later : List (Message CustomMsgTypes)} {msg : Message CustomMsgTypes}
    {count : ℕ} (first : FirstOf got msgs) (queue : got.drop count = msg :: later) :
    ∃ same, SameMessage msg same ∧ msgs.drop count = same :: msgs.drop (count + 1) ∧
      later = got.drop (count + 1) ∧ count + 1 ≤ got.length := by
  have known : count < got.length := by
    by_contra beyond
    rw [List.drop_of_length_le (Nat.le_of_not_lt beyond)] at queue
    cases queue
  rw [List.drop_eq_getElem_cons known] at queue
  obtain ⟨rfl, rfl⟩ := List.cons.inj queue
  obtain ⟨same, found, isSame⟩ := first count _ (List.getElem?_eq_getElem known)
  obtain ⟨isKnown, rfl⟩ := List.getElem?_eq_some_iff.mp found
  exact ⟨_, isSame, List.drop_eq_getElem_cons isKnown, rfl, known⟩

/-- What an end has pushed are the first messages that the other one was given. -/
theorem firstOf_heard {given answers : List (Message CustomMsgTypes)} {received : List UInt8}
    {count : ℕ} {speaker hearer : Connection CustomMsgTypes}
    (speaking : Connection.End given received speaker)
    (hearing : Connection.End answers ((Handshake.handedOver speaker).take count) hearer)
    (plain : ∀ msg ∈ given, Plain msg) : FirstOf hearer.qMessagesIn given := by
  obtain ⟨heard, ⟨later, rfl⟩, pushed⟩ :=
    speaking.heard hearing fun msg member => (plain msg member).framed
  rw [pushed]
  refine (firstOf_receive [] fun msg member => plain msg ?_).mono later
  exact List.mem_append_left later member

/-! ## Plain messages -/

/-- The text and its length word are not longer than a header can declare. -/
def FitsHeader (data : List UInt8) : Prop := data.length + FixedLayout.size UInt64 < 2 ^ 32

instance decidableFitsHeader (data : List UInt8) : Decidable (FitsHeader data) :=
  inferInstanceAs (Decidable (_ < _))

theorem FitsHeader.short {data : List UInt8} (fits : FitsHeader data) : ShortLine data :=
  Nat.le_of_lt (Nat.lt_of_lt_of_le fits (by decide))

theorem plain_push {Data : Type} [FixedLayout Data] (msg : Message CustomMsgTypes) (data : Data)
    (some : 0 < FixedLayout.size Data) (small : msg.body.length + FixedLayout.size Data < 2 ^ 32) :
    Plain (msg.push data) where
  framed := by
    refine Message.framed_resized ?_
    rwa [List.length_append, FixedLayout.length_toBytes]
  bodied := by
    intro _ empty
    have length := congrArg List.length empty
    simp only [Message.push, Message.resized, List.length_append, FixedLayout.length_toBytes,
      List.length_nil] at length
    omega

theorem plain_idMsg (type : CustomMsgTypes) (id : UInt32) : Plain (CustomServer.idMsg type id) :=
  plain_push (.ofType type) id (by decide) (show 0 + 4 < 2 ^ 32 by decide)

theorem plain_close : Plain CustomServer.closeMsg :=
  ⟨rfl, fun other => absurd rfl other⟩

theorem plain_sendToClient {data : List UInt8} (fits : FitsHeader data) :
    Plain (CustomClient.sendToClient data) := by
  refine plain_push _ _ (by decide) ?_
  have length : data.length + FixedLayout.size UInt64 < 2 ^ 32 := fits
  simpa only [Message.resized, Message.ofType, List.nil_append] using length

/-- The messages of a step are plain if the texts fit. -/
theorem ChatClient.plain_sent {self : ConnectionPtr} {c d : ChatClient} {event : ChatClient.Event}
    (fits : ∀ caller data, (c.user = .checkChat caller data ∨ c.user = .sendText caller data) →
      FitsHeader data)
    (taken : c.step self event = some d) :
    ∀ envelope ∈ d.outgoing.drop c.outgoing.length, Plain envelope.msg := by
  have nothing : d.outgoing = c.outgoing →
      ∀ envelope ∈ d.outgoing.drop c.outgoing.length, Plain envelope.msg := by
    intro same envelope member
    rw [same, List.drop_length] at member
    cases member
  have one : ∀ sent, d.outgoing = c.outgoing ++ [sent] → Plain sent.msg →
      ∀ envelope ∈ d.outgoing.drop c.outgoing.length, Plain envelope.msg := by
    intro sent appended plain envelope member
    rw [appended, List.drop_left] at member
    cases List.mem_singleton.mp member
    exact plain
  cases step_cases taken with
  | connectTo id line => exact one _ rfl (plain_push _ id (by decide) (by decide))
  | sendAnswer accepted ticket line =>
      exact one _ rfl (plain_push (.ofType .requestAnswer) _ (by decide) (by decide))
  | sendText caller data line => exact one _ rfl (plain_sendToClient (fits caller data (.inr line)))
  | sendClose event line abort passes erases => exact one _ rfl plain_close
  | _ => exact nothing rfl

namespace ChatRoom

variable {room : ChatRoom} {matching : Matching UInt32} {client : ConnectionPtr}
  {envelope : Envelope} {after : CustomServer} {calls : List Call}

/-- What the server sends in answer to a plain message of an honest client is plain. -/
theorem plain_calls
    (represents : room.hall.server.clientConnections = matching.partner)
    (wrote : Wrote client envelope) (plain : Plain envelope.msg)
    (returned : room.hall.server.onMessage room.hall.view client envelope.msg = .ok (after, calls))
    {receiver : ConnectionPtr} {msg : Message CustomMsgTypes}
    (called : .send receiver msg ∈ calls) : Plain msg := by
  cases CustomServer.onMessage_effect represents returned with
  | unknown id rest type => cases List.mem_singleton.mp called; exact plain_idMsg _ _
  | busy id rest other type => cases List.mem_singleton.mp called; exact plain_idMsg _ _
  | pair id rest other type => cases List.mem_singleton.mp called; exact plain_idMsg _ _
  | relay id other type paired found => cases List.mem_singleton.mp called; exact plain
  | drop id type paired absent => cases called
  | hangUp id other type => cases List.mem_singleton.mp called; exact plain_close
  | close id type paired =>
      rw [CustomServer.sendToId] at called
      split at called
      case h_1 => cases List.mem_singleton.mp called; exact plain_close
      case h_2 => cases called
  | echo type => exact absurd type (type_ne_of_wrote wrote (by decide))
  | greet type => exact absurd type (type_ne_of_wrote wrote (by decide))
  | list type => exact absurd type (type_ne_of_wrote wrote (by decide))
  | ignore type => cases called

/-- What is sent to a client is what its connection is given. -/
theorem deliveries_eq (calls : List Call) (client : ConnectionPtr) :
    deliveries calls client = messagesOf client (sendsOf calls) := by
  rw [deliveries, messagesOf, sendsOf, List.filterMap_filterMap]
  refine List.filterMap_congr fun call _ => ?_
  cases call with
  | send receiver msg => rfl
  | onClientDisconnect other => rfl

end ChatRoom

end NetworkChat
