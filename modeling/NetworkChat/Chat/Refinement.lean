import NetworkChat.Chat.Bare
import NetworkChat.Chat.Network
import NetworkChat.Chat.Plain

/-!
# A network of clients is a room

In a room (`ChatRoom`) every message waits in one queue from `Send` to the handler. In a network it
is posted, laid out, cut into pieces, read and pushed before it waits there. A room shows a network
if every client stands where the threads of its terminal stand, the server has still to handle what
it has not handled of what was given to `Send`, and of what waits for a client in the room the first
messages have arrived (`Mirrors`, `Shows`).

What is handled is the message that was sent, up to the body of a close, if the texts fit in a
header (`FitsHeader`).

As long as the handshakes come in order and the sockets of the server stay open, every step of a
network is a step of the room that shows it, with the same texts typed, sent on and shown, or the
room stays (`Refines.simulates`). Such a run of a network is shown by a run of a room
(`refines_of_run`).
-/

set_option autoImplicit false

namespace NetworkChat

open Foundation

/-! ## A room that shows a network -/

/-- A client of a room stands where a terminal stands. The server has still to handle what the
terminal has sent and the server has not handled, and `ExecuteMessages` has taken as many messages
off the queue. Of what waits for it in the room, the first messages have arrived at the terminal. -/
structure Mirrors (handled : ℕ) (told : List (Message CustomMsgTypes)) (t : Terminal)
    (c : ChatClient) : Prop where
  threads : c.bare = t.threads.bare
  outgoing : c.outgoing.map Envelope.msg = (t.given ++ t.lost).drop handled
  incoming : ∃ taken ≤ t.connection.qMessagesIn.length,
    c.incoming.map Envelope.msg = told.drop taken ∧
      t.threads.incoming.map Envelope.msg = t.connection.qMessagesIn.drop taken

/-- What a client's end has pushed arrives in the queue of `ExecuteMessages`. -/
theorem Mirrors.io {handled : ℕ} {told : List (Message CustomMsgTypes)} {t : Terminal}
    {c : ChatClient} (mirrors : Mirrors handled told t c) {d : Connection CustomMsgTypes}
    (pushed : ∃ more, d.qMessagesIn = t.connection.qMessagesIn ++ more) (toClient toServer : ℕ) :
    Mirrors handled told
      { t.ioStepped d with toClient := toClient, toServer := toServer } c where
  threads := mirrors.threads
  outgoing := mirrors.outgoing
  incoming := by
    obtain ⟨more, pushed⟩ := pushed
    obtain ⟨taken, within, waits, arrived⟩ := mirrors.incoming
    refine ⟨taken, ?_, waits, ?_⟩
    · change taken ≤ d.qMessagesIn.length
      rw [pushed, List.length_append]
      exact within.trans (Nat.le_add_right _ _)
    · simp only [Terminal.ioStepped, pushed, List.drop_left, List.map_append, arrived, List.map_map,
        List.drop_append_of_le_length within]
      simp [Function.comp_def]

/-- The server handles the next message. -/
theorem Mirrors.handle {handled : ℕ} {told : List (Message CustomMsgTypes)} {t : Terminal}
    {c : ChatClient} (mirrors : Mirrors handled told t c) {rest : List Envelope}
    (queue : rest.map Envelope.msg = (t.given ++ t.lost).drop (handled + 1)) :
    Mirrors (handled + 1) told t { c with outgoing := rest } :=
  ⟨mirrors.threads, queue, mirrors.incoming⟩

/-- The client is told something. -/
theorem Mirrors.tell {handled : ℕ} {told : List (Message CustomMsgTypes)} {t : Terminal}
    {c : ChatClient} (mirrors : Mirrors handled told t c)
    (heard : t.connection.qMessagesIn.length ≤ told.length) (envelopes : List Envelope) :
    Mirrors handled (told ++ envelopes.map Envelope.msg) t
      { c with incoming := c.incoming ++ envelopes } where
  threads := mirrors.threads
  outgoing := mirrors.outgoing
  incoming := by
    obtain ⟨taken, within, waits, arrived⟩ := mirrors.incoming
    refine ⟨taken, within, ?_, arrived⟩
    rw [List.map_append, waits, List.drop_append_of_le_length (within.trans heard)]

section Thread

variable {handled : ℕ} {told : List (Message CustomMsgTypes)} {server : Connection CustomMsgTypes}
  {t : Terminal} {c : ChatClient} {self : ConnectionPtr}

/-- `ExecuteMessages` takes the next message. -/
theorem Mirrors.take (mirrors : Mirrors handled told t c) (sound : Terminal.Sound told server t)
    (heard : FirstOf t.connection.qMessagesIn told) (idle : t.threads.execute = .idle)
    {first : Envelope} {later : List Envelope} (queue : t.threads.incoming = first :: later) :
    ∃ second rest e, c.incoming = second :: rest ∧ SameMessage first.msg second.msg ∧
      c.step self .execute = some e ∧ e.outgoing = c.outgoing ∧
      Mirrors handled told (t.threadStepped
        { t.threads with incoming := later, execute := ChatClient.executeLine first }) e := by
  obtain ⟨taken, within, waits, arrived⟩ := mirrors.incoming
  rw [queue, List.map_cons] at arrived
  obtain ⟨same, isSame, next, others, further⟩ := heard.next arrived.symm
  rw [next] at waits
  obtain ⟨second, rest, split, rfl, remaining⟩ := List.map_eq_cons_iff.mp waits
  obtain ⟨e, moved, bare, incoming, outgoing⟩ :=
    ChatClient.exists_take_of_bare self mirrors.threads.symm idle later split isSame.readMessage
  have noneSent : t.threadStepped
      { t.threads with incoming := later, execute := ChatClient.executeLine first } =
      { t with threads :=
        { t.threads with
          incoming := later, execute := ChatClient.executeLine first, outgoing := [] } } := by
    simp only [Terminal.threadStepped, sound.sentOff, List.map_nil, List.foldl_nil]
  refine ⟨second, rest, e, split, isSame, moved, outgoing, ?_⟩
  rw [noneSent]
  refine ⟨bare, ?_, taken + 1, further, ?_, others⟩
  · rw [outgoing]
    exact mirrors.outgoing
  · rw [incoming]
    exact remaining

/-- A thread takes another step. -/
theorem Mirrors.thread (mirrors : Mirrors handled told t c) (sound : Terminal.Sound told server t)
    (within : handled ≤ (t.given ++ t.lost).length) {event : ChatClient.Event} {d : ChatClient}
    (noMessage : ¬ t.threads.Takes event) (moved : t.threads.step self event = some d) :
    ∃ e, c.step self event = some e ∧ Mirrors handled told (t.threadStepped d) e := by
  obtain ⟨e, stepped, bare, incoming, sent⟩ :=
    ChatClient.exists_step_of_bare mirrors.threads.symm noMessage moved
  have stays := ChatClient.incoming_step noMessage moved
  rw [sound.sentOff, List.length_nil, List.drop_zero] at sent
  have sends := (sound.reset d).sent (d.outgoing.map Envelope.msg)
  obtain ⟨threads, pushed⟩ := Terminal.foldl_send_frame
    { t with threads := { d with outgoing := [] } } (d.outgoing.map Envelope.msg)
  refine ⟨e, stepped, ?_, ?_, ?_⟩
  · rw [Terminal.threadStepped, threads, bare]
    rfl
  · rw [Terminal.threadStepped, sends, sent, mirrors.outgoing, List.drop_append_of_le_length within]
  · obtain ⟨taken, enough, waits, arrived⟩ := mirrors.incoming
    refine ⟨taken, ?_, incoming ▸ waits, ?_⟩
    · rw [Terminal.threadStepped, pushed]
      exact enough
    · rw [Terminal.threadStepped, pushed, threads, ← arrived, ← stays]

end Thread

namespace ChatNetwork

/-- A room shows a network. -/
structure Shows (n : ChatNetwork) (room : ChatRoom) : Prop where
  hall : room.hall = n.chat.hall
  clients : ∀ client < n.chat.connections.length,
    Mirrors (messagesOf client n.chat.handled).length (messagesOf client n.chat.sends)
      (n.terminals client) (room.clients client)

/-- What has arrived at an end are the first of the messages that were given to `Send` of the other
end, as far as somebody reads them. -/
structure Arrived (n : ChatNetwork) : Prop where
  atServer : ∀ client c, n.chat.connections[client]? = some c →
    FirstOf c.qMessagesIn (n.terminals client).given
  atClient : ∀ client c, n.chat.connections[client]? = some c →
    FirstOf (n.terminals client).connection.qMessagesIn (messagesOf client n.chat.sends)

/-- The sockets of the server are open. -/
def AllOpen (n : ChatNetwork) : Prop := ∀ c ∈ n.chat.connections, c.isOpen = true

instance (n : ChatNetwork) : Decidable n.AllOpen :=
  inferInstanceAs (Decidable (∀ c ∈ n.chat.connections, c.isOpen = true))

/-- The lines that the users type fit. -/
def ShortEvent : Event → Prop
  | .thread _ (.type data) => FitsHeader data
  | _ => True

instance decidableShortEvent (event : Event) : Decidable (ShortEvent event) :=
  match event with
  | .thread _ (.type data) => decidableFitsHeader data
  | .thread _ (.command _) => .isTrue trivial
  | .thread _ .user => .isTrue trivial
  | .thread _ (.abort _) => .isTrue trivial
  | .thread _ .execute => .isTrue trivial
  | .accept _ => .isTrue trivial
  | .io _ _ => .isTrue trivial
  | .update => .isTrue trivial

/-- What the steps of a network keep with the room that shows it. -/
structure Refines (n : ChatNetwork) (room : ChatRoom) : Prop where
  sound : Sound n
  shown : Shows n room
  honest : room.Honest
  given : ∀ client < n.chat.connections.length,
    ∀ msg ∈ (n.terminals client).given ++ (n.terminals client).lost, Plain msg
  told : ∀ entry ∈ n.chat.sends, Plain entry.2
  fits : ∀ client caller data, ((room.clients client).user = .checkChat caller data ∨
    (room.clients client).user = .sendText caller data) → FitsHeader data

theorem refines_start : Refines start ChatRoom.start where
  sound := sound_start
  shown := ⟨rfl, fun client known => absurd known (Nat.not_lt_zero client)⟩
  honest := ChatRoom.honest_start
  given client known := absurd known (Nat.not_lt_zero client)
  told entry member := by cases member
  fits client caller data stands := by rcases stands with line | line <;> cases line

variable {n next : ChatNetwork} {room : ChatRoom} {client : ConnectionPtr}

theorem Shows.length (shown : Shows n room) :
    room.hall.peers.length = n.chat.connections.length := by
  rw [shown.hall]
  exact List.length_map _

theorem Shows.running (shown : Shows n room) (running : n.chat.aborted = none) :
    room.hall.aborted = none := by
  rw [shown.hall]
  exact running

/-- The server of the room does with a message what the server of the network does. -/
theorem Shows.onMessage (shown : Shows n room) (client : ConnectionPtr)
    {got msg : Message CustomMsgTypes} (same : SameMessage got msg) :
    room.hall.server.onMessage room.hall.view client msg =
      n.chat.server.onMessage n.chat.view client got := by
  rw [shown.hall, same.onMessage]
  rfl

/-- **What has arrived are the first messages that were sent.** -/
theorem Refines.arrived (refines : Refines n room) : n.Arrived where
  atServer client c found := by
    have known := (List.getElem?_eq_some_iff.mp found).1
    have talks := (refines.sound.terminals client c found).talks
    refine firstOf_heard talks.client talks.server fun msg member => ?_
    exact refines.given client known msg (List.mem_append_left _ member)
  atClient client c found := by
    have talks := (refines.sound.terminals client c found).talks
    refine firstOf_heard talks.server talks.client fun msg member => ?_
    exact refines.told _ (mem_entriesOf.mp member)

/-! ### A client connects -/

theorem hall_accept (s : ChatServer) (clock : UInt64) : (s.accept clock).hall = s.hall.accept := by
  simp only [Hall.accept, ChatServer.hall, ChatServer.accept, List.map_append, List.map_singleton,
    List.length_map, Connection.accept_eq]
  rfl

theorem Refines.accept (refines : Refines n room) (running : n.chat.aborted = none)
    (clock : UInt64) :
    Refines ({ n with chat := n.chat.accept clock }.put n.chat.connections.length .start)
      room.join := by
  have length := refines.shown.length
  have joined : room.step .join = some room.join := by
    simp only [ChatRoom.step, refines.shown.running running]
    rfl
  have isNew : ∀ client, client < (n.chat.connections ++
      [Connection.accept clock [CustomServer.idMsg .serverAccept n.chat.server.nIDCounter]
        n.chat.server.nIDCounter]).length → client ≠ n.chat.connections.length →
        client < n.chat.connections.length := by
    intro client known differs
    rw [List.length_append, List.length_singleton] at known
    omega
  refine ⟨refines.sound.accept clock, ⟨?_, fun client known => ?_⟩, refines.honest.step joined,
    fun client known msg member => ?_, fun entry member => ?_, fun client caller data stands => ?_⟩
  · change room.hall.accept = (n.chat.accept clock).hall
    rw [refines.shown.hall, hall_accept]
  · by_cases isLast : client = n.chat.connections.length
    · subst isLast
      have nobody : messagesOf n.chat.connections.length n.chat.handled = [] :=
        messagesOf_eq_nil fun entry member =>
          (refines.sound.chat.knownMessages entry (List.mem_append_left _ member)).ne
      change Mirrors (messagesOf _ n.chat.handled).length (messagesOf _ (n.chat.accept clock).sends)
        (Function.update n.terminals n.chat.connections.length .start _) _
      rw [nobody, sends_accept refines.sound.chat clock, Function.update_self, ← length,
        ChatRoom.join_new, refines.shown.hall]
      exact ⟨rfl, rfl, 0, le_rfl, rfl, rfl⟩
    · have before := refines.shown.clients client (isNew client known isLast)
      rw [ChatRoom.join_other room (length ▸ isLast)]
      simp only [put, sends_accept_other n.chat clock isLast, Function.update_of_ne isLast]
      exact before
  · by_cases isLast : client = n.chat.connections.length
    · subst isLast
      simp only [put, Function.update_self] at member
      cases member
    · simp only [put, Function.update_of_ne isLast] at member
      exact refines.given client (isNew client known isLast) msg member
  · rcases List.mem_append.mp member with old | new
    · exact refines.told entry old
    · cases List.mem_singleton.mp new
      exact plain_idMsg _ _
  · by_cases isLast : client = room.hall.peers.length
    · subst isLast
      rw [ChatRoom.join_new] at stands
      rcases stands with line | line <;> cases line
    · rw [ChatRoom.join_other room isLast] at stands
      exact refines.fits client caller data stands

/-! ### Something happens to a connection -/

theorem Refines.io {c : Connection CustomMsgTypes} {event : Handshake.Event CustomMsgTypes}
    {h : Handshake CustomMsgTypes} (refines : Refines n room) (running : n.chat.aborted = none)
    (found : n.chat.connections[client]? = some c) (allowed : ofIo event = true)
    (inOrder : Conversation.InOrder (n.wire client c) event)
    (moved : Conversation.step (n.wire client c) event = some h) (isOpen : h.server.isOpen = true) :
    Refines (n.ioStepped client c h) room := by
  obtain ⟨ofServer, ofClient, -, -⟩ := ends_of_ofIo allowed moved
  have same : ChatServer.peer h.server = ChatServer.peer c := by
    rcases ofServer with stays | ⟨seen, -, taken⟩
    · rw [stays]
      rfl
    · obtain ⟨-, goesOn⟩ := (refines.sound.chat.serves client c found).step taken
      have wasOpen : c.isOpen = true := goesOn.closed isOpen
      rw [ChatServer.peer, ChatServer.peer, Connection.isConnected, Connection.isConnected, isOpen,
        wasOpen, goesOn.id]
  have pushed : ∃ more, h.client.qMessagesIn =
      (n.terminals client).connection.qMessagesIn ++ more := by
    rcases ofClient with stays | ⟨seen, taken⟩
    · exact ⟨[], by rw [stays, List.append_nil]; rfl⟩
    · exact Connection.exists_pushed_of_act (Connection.step_eq_some taken).2
  have length : (n.ioStepped client c h).chat.connections.length = n.chat.connections.length :=
    List.length_set
  refine ⟨refines.sound.io running found allowed inOrder moved, ⟨?_, fun other known => ?_⟩,
    refines.honest,
    fun other known msg member => ?_, refines.told, refines.fits⟩
  · rw [refines.shown.hall]
    simp only [ChatServer.hall, ioStepped, ChatServer.map_peer_set found same]
  · rw [length] at known
    have before := refines.shown.clients other known
    by_cases isMover : other = client
    · subst isMover
      simp only [ioStepped, Function.update_self]
      exact before.io pushed h.toClient h.toServer
    · simp only [ioStepped, Function.update_of_ne isMover]
      exact before
  · rw [length] at known
    by_cases isMover : other = client
    · subst isMover
      simp only [ioStepped, Function.update_self] at member
      exact refines.given other known msg member
    · simp only [ioStepped, Function.update_of_ne isMover] at member
      exact refines.given other known msg member

/-! ### The server handles a message -/

/-- The next message of the server's queue is the next one that the room has of the client. -/
theorem Refines.exists_envelope {msg : Message CustomMsgTypes} {later : List Owned}
    (refines : Refines n room) (queue : n.chat.qMessagesIn = (client, msg) :: later) :
    client < n.chat.connections.length ∧ ∃ envelope rest,
      (room.clients client).outgoing = envelope :: rest ∧ SameMessage msg envelope.msg ∧
        rest.map Envelope.msg = ((n.terminals client).given ++ (n.terminals client).lost).drop
          ((messagesOf client n.chat.handled).length + 1) := by
  have known : client < n.chat.connections.length :=
    refines.sound.chat.knownMessages (client, msg) (by rw [queue]; simp)
  have found := List.getElem?_eq_getElem known
  have heard := (refines.arrived.atServer client _ found).mono (n.terminals client).lost
  have pushed := refines.sound.chat.queue client _ found
  rw [queue, messagesOf_append] at pushed
  have next : (n.chat.connections[client]).qMessagesIn.drop
      (messagesOf client n.chat.handled).length = msg :: messagesOf client later := by
    rw [← pushed, List.drop_left]
    simp [messagesOf]
  obtain ⟨same, isSame, waits, -, -⟩ := heard.next next
  rw [← (refines.shown.clients client known).outgoing] at waits
  obtain ⟨envelope, rest, split, rfl, others⟩ := List.map_eq_cons_iff.mp waits
  exact ⟨known, envelope, rest, split, isSame, others⟩

/-- One more message of the sender is handled, and the clients are told what the calls tell them. -/
theorem Refines.settle (refines : Refines n room) (msg : Message CustomMsgTypes)
    (envelope : Envelope) {rest : List Envelope}
    (others : rest.map Envelope.msg = ((n.terminals client).given ++ (n.terminals client).lost).drop
      ((messagesOf client n.chat.handled).length + 1))
    (calls : List Call) {other : ConnectionPtr} (known : other < n.chat.connections.length) :
    Mirrors (messagesOf other (n.chat.handled ++ [(client, msg)])).length
      (messagesOf other n.chat.sends ++ ChatRoom.deliveries calls other) (n.terminals other)
      (room.settle client envelope rest calls other) := by
  have before := refines.shown.clients other known
  have heard := (refines.arrived.atClient other _ (List.getElem?_eq_getElem known)).length_le
  let told := (ChatRoom.deliveries calls other).map fun sent =>
    (⟨envelope.sender, sent, envelope.ticket⟩ : Envelope)
  have messages : told.map Envelope.msg = ChatRoom.deliveries calls other := by
    simp [told, Function.comp_def]
  by_cases isSender : other = client
  · subst isSender
    have after := (before.handle others).tell heard told
    rw [messages] at after
    rw [messagesOf_concat_self, List.length_append, List.length_singleton]
    simpa only [ChatRoom.settle, if_true] using after
  · have after := before.tell heard told
    rw [messages] at after
    rw [messagesOf_concat_other (Ne.symm isSender)]
    simpa only [ChatRoom.settle, if_neg isSender] using after

/-- The server of a network and that of a room have handled a message with the same calls. -/
structure HandledAlike (n next : ChatNetwork) (room after : ChatRoom) (client : ConnectionPtr)
    (msg : Message CustomMsgTypes) (envelope : Envelope) (rest : List Envelope)
    (calls : List Call) : Prop where
  hall : after.hall = next.chat.hall
  clients : after.clients = room.settle client envelope rest calls
  length : next.chat.connections.length = n.chat.connections.length
  handled : next.chat.handled = n.chat.handled ++ [(client, msg)]
  sends : next.chat.sends = n.chat.sends ++ sendsOf calls

/-- Both servers abort without a call, or both do what the handler says. -/
theorem Shows.exists_calls (shown : Shows n room) (client : ConnectionPtr)
    {msg : Message CustomMsgTypes} {envelope : Envelope} (same : SameMessage msg envelope.msg)
    (later : List Owned) (rest : List Envelope) :
    ∃ calls, HandledAlike n { n with chat := n.chat.handle client msg later } room
        (room.serve client envelope rest) client msg envelope rest calls ∧
      (calls = [] ∨ ∃ server,
        room.hall.server.onMessage room.hall.view client envelope.msg = .ok (server, calls)) := by
  have agrees := shown.onMessage client same
  rcases ChatServer.handle_cases n.chat client msg later with
    ⟨server, calls, returned, handled⟩ | ⟨fault, failed, ended⟩
  · refine ⟨calls, ⟨?_, ?_, ?_, ?_, ?_⟩, .inr ⟨server, agrees.trans returned⟩⟩
    · simp only [ChatRoom.serve, agrees, returned]
      simp only [shown.hall, handled, ChatServer.hall, ChatServer.map_peer_giveAll]
    · simp only [ChatRoom.serve, agrees, returned]
    · simp only [handled, List.length_mapIdx]
    · simp only [handled]
    · simp only [handled]
  · refine ⟨[], ⟨?_, ?_, ?_, ?_, ?_⟩, .inl rfl⟩
    · simp only [ChatRoom.serve, agrees, failed]
      simp only [shown.hall, ended, ChatServer.hall]
    · simp only [ChatRoom.serve, agrees, failed]
    · simp only [ended]
    · simp only [ended]
    · simp only [ended, sendsOf, List.filterMap_nil, List.append_nil]

theorem Refines.handle {msg : Message CustomMsgTypes} {later : List Owned} {envelope : Envelope}
    {rest : List Envelope} (refines : Refines n room) (running : n.chat.aborted = none)
    (queue : n.chat.qMessagesIn = (client, msg) :: later)
    (known : client < n.chat.connections.length)
    (split : (room.clients client).outgoing = envelope :: rest)
    (same : SameMessage msg envelope.msg)
    (others : rest.map Envelope.msg = ((n.terminals client).given ++ (n.terminals client).lost).drop
      ((messagesOf client n.chat.handled).length + 1)) :
    Refines { n with chat := n.chat.handle client msg later }
      (room.serve client envelope rest) := by
  have served : room.step (.serve client) = some (room.serve client envelope rest) := by
    simp only [ChatRoom.step, refines.shown.running running, ChatRoom.act,
      if_pos (refines.shown.length ▸ known), split]
  obtain ⟨calls, alike, returned⟩ := refines.shown.exists_calls client same later rest
  obtain ⟨matching, represents⟩ := refines.honest.paired
  have member : envelope ∈ (room.clients client).outgoing := by
    rw [split]
    exact List.mem_cons_self
  have wrote := refines.honest.wrote client envelope member
  have plain : Plain envelope.msg := by
    refine refines.given client known _ ?_
    have among := (refines.shown.clients client known).outgoing ▸ List.mem_map_of_mem member
    exact List.mem_of_mem_drop among
  refine ⟨refines.sound.handle queue, ⟨alike.hall, fun other otherKnown => ?_⟩,
    refines.honest.step served, fun other otherKnown => ?_, fun entry among => ?_,
    fun other caller data stands => ?_⟩
  · rw [alike.length] at otherKnown
    have after := refines.settle msg envelope others calls otherKnown
    rw [ChatRoom.deliveries_eq, ← messagesOf_append] at after
    rwa [alike.clients, alike.handled, alike.sends]
  · rw [alike.length] at otherKnown
    exact refines.given other otherKnown
  · rw [alike.sends] at among
    rcases List.mem_append.mp among with old | new
    · exact refines.told entry old
    · rcases returned with rfl | ⟨server, returned⟩
      · cases new
      · exact ChatRoom.plain_calls represents wrote plain returned (mem_sendsOf.mp new)
  · rw [alike.clients] at stands
    exact refines.fits other caller data stands

/-! ### A thread of a client takes a step -/

/-- The client of the room takes the same step. -/
theorem Refines.exists_threadStep {event : ChatClient.Event} {d : ChatClient}
    (refines : Refines n room) (known : client < n.chat.connections.length)
    (moved : (n.terminals client).threads.step client event = some d) :
    ∃ e, (room.clients client).step client event = some e ∧
      ((n.terminals client).threads.prints event).map Prod.snd =
        ((room.clients client).prints event).map Prod.snd ∧
      Mirrors (messagesOf client n.chat.handled).length (messagesOf client n.chat.sends)
        ((n.terminals client).threadStepped d) e := by
  have found := List.getElem?_eq_getElem known
  have mirrors := refines.shown.clients client known
  have sound := refines.sound.terminals client _ found
  by_cases takes : (n.terminals client).threads.Takes event
  · obtain ⟨rfl, idle⟩ := takes
    obtain ⟨first, later, queue, rfl⟩ := ChatClient.eq_of_take idle moved
    obtain ⟨second, rest, e, split, same, stepped, -, after⟩ :=
      mirrors.take sound (refines.arrived.atClient client _ found) idle queue
    have idleToo := ChatClient.idle_of_bare mirrors.threads.symm idle
    refine ⟨e, stepped, ?_, after⟩
    simp only [ChatClient.prints, idle, queue, idleToo, split, same.textOf, List.map_map]
    rfl
  · have within : (messagesOf client n.chat.handled).length ≤
        ((n.terminals client).given ++ (n.terminals client).lost).length := by
      have heard := (refines.arrived.atServer client _ found).length_le
      have queue := congrArg List.length (refines.sound.chat.queue client _ found)
      rw [messagesOf_append, List.length_append] at queue
      rw [List.length_append]
      omega
    obtain ⟨e, stepped, after⟩ := mirrors.thread sound within takes moved
    refine ⟨e, stepped, ?_, after⟩
    have busy : ∀ c : ChatClient, ¬ c.Takes event → c.prints event = [] := by
      intro c noMessage
      cases event with
      | execute =>
          cases line : c.execute with
          | idle => exact absurd ⟨rfl, line⟩ noMessage
          | _ => simp only [ChatClient.prints, line]
      | _ => rfl
    have other : ¬ (room.clients client).Takes event := fun alsoTakes =>
      takes ⟨alsoTakes.1, ChatClient.idle_of_bare mirrors.threads alsoTakes.2⟩
    rw [busy _ takes, busy _ other]

theorem Refines.thread {event : ChatClient.Event} {d e : ChatClient} (refines : Refines n room)
    (running : n.chat.aborted = none) (known : client < n.chat.connections.length)
    (typed : ∀ data, event = .type data → FitsHeader data)
    (moved : (n.terminals client).threads.step client event = some d)
    (stepped : (room.clients client).step client event = some e)
    (mirrors : Mirrors (messagesOf client n.chat.handled).length (messagesOf client n.chat.sends)
      ((n.terminals client).threadStepped d) e) :
    Refines (n.put client ((n.terminals client).threadStepped d)) (room.moved client e) := by
  have found := List.getElem?_eq_getElem known
  have sound := refines.sound.terminals client _ found
  have taken : room.step (.client client event) = some (room.moved client e) := by
    simp only [ChatRoom.step, refines.shown.running running, ChatRoom.act,
      if_pos (refines.shown.length ▸ known), stepped, Option.map_some]
  have fits : ∀ caller data, ((n.terminals client).threads.user = .checkChat caller data ∨
      (n.terminals client).threads.user = .sendText caller data) → FitsHeader data :=
    fun caller data stands => refines.fits client caller data
      (ChatClient.reads_of_bare (refines.shown.clients client known).threads.symm stands)
  refine ⟨refines.sound.thread client d, ⟨refines.shown.hall, fun other otherKnown => ?_⟩,
    refines.honest.step taken, fun other otherKnown msg member => ?_, refines.told,
    fun other caller data stands => ?_⟩
  · by_cases isMover : other = client
    · subst isMover
      simp only [put, Function.update_self, ChatRoom.moved_self]
      exact mirrors
    · simp only [put, Function.update_of_ne isMover, ChatRoom.moved_other room e isMover]
      exact refines.shown.clients other otherKnown
  · by_cases isMover : other = client
    · subst isMover
      simp only [put, Function.update_self, Terminal.threadStepped] at member
      rw [(sound.reset d).sent] at member
      rcases List.mem_append.mp member with old | new
      · exact refines.given other known msg old
      · obtain ⟨envelope, isSent, rfl⟩ := List.mem_map.mp new
        refine ChatClient.plain_sent fits moved envelope ?_
        rwa [sound.sentOff]
    · simp only [put, Function.update_of_ne isMover] at member
      exact refines.given other otherKnown msg member
  · by_cases isMover : other = client
    · subst isMover
      rw [ChatRoom.moved_self] at stands
      exact ChatClient.reads_step (refines.fits other) typed stepped caller data stands
    · rw [ChatRoom.moved_other room e isMover] at stands
      exact refines.fits other caller data stands

/-! ### Texts -/

/-- What happens to texts in a step. -/
def passages (n : ChatNetwork) : Event → List ChatRoom.Passage
  | .accept _ => []
  | .io _ _ => []
  | .update =>
      match n.chat.qMessagesIn with
      | [] => []
      | (client, msg) :: _ =>
          match n.chat.server.onMessage n.chat.view client msg with
          | .ok (_, calls) => (sentTexts calls).map fun sent => .sentOn client sent.1 sent.2
          | .error _ => []
  | .thread client event =>
      let c := (n.terminals client).threads
      (c.sends event).map (.typed client) ++
        (c.prints event).map fun entry => .shown entry.1 client entry.2

/-- Without the writer of what is shown, which no client knows. -/
def unsigned : ChatRoom.Passage → ChatRoom.Passage
  | .shown _ reader text => .shown 0 reader text
  | passage => passage

/-! ### Steps -/

/-- **A step of the network is a step of the room that it shows, or the room stays**, as long as
the sockets of the server stay open. The same happens to the texts. -/
theorem Refines.simulates {event : Event} (refines : Refines n room) (short : ShortEvent event)
    (inOrder : n.InOrder event) (allOpen : next.AllOpen) (taken : n.step event = some next) :
    (Refines next room ∧ n.passages event = []) ∨
      ∃ seen after, room.step seen = some after ∧ ChatRoom.ShortEvent seen ∧ Refines next after ∧
        (n.passages event).map unsigned = (room.passages seen).map unsigned := by
  obtain ⟨running, acted⟩ := step_eq_some taken
  have acts : ∀ seen, room.step seen = room.act seen := fun seen => by
    simp only [ChatRoom.step, refines.shown.running running]
  cases event with
  | accept clock =>
      cases acted
      exact .inr ⟨.join, room.join, acts _, trivial, refines.accept running clock, rfl⟩
  | io client event =>
      obtain ⟨c, h, found, allowed, moved, rfl⟩ := act_io acted
      have known := (List.getElem?_eq_some_iff.mp found).1
      refine .inl ⟨refines.io running found allowed (inOrder c found) moved ?_, rfl⟩
      exact allOpen _ (List.mem_set known _)
  | update =>
      obtain ⟨client, msg, later, queue, rfl⟩ := act_update acted
      obtain ⟨known, envelope, rest, split, same, others⟩ := refines.exists_envelope queue
      refine .inr ⟨.serve client, room.serve client envelope rest, ?_, trivial,
        refines.handle running queue known split same others, ?_⟩
      · simp only [acts, ChatRoom.act, if_pos (refines.shown.length ▸ known), split]
      · have returned := refines.shown.onMessage client same
        cases handled : n.chat.server.onMessage n.chat.view client msg with
        | ok result =>
            simp only [passages, queue, ChatRoom.passages, split, returned, handled]
        | error fault =>
            simp only [passages, queue, ChatRoom.passages, split, returned, handled]
  | thread client event =>
      obtain ⟨known, -, d, moved, rfl⟩ := act_thread acted
      obtain ⟨e, stepped, prints, mirrors⟩ := refines.exists_threadStep known moved
      have typed : ∀ data, event = .type data → FitsHeader data := by
        rintro data rfl
        exact short
      refine .inr ⟨.client client event, room.moved client e, ?_, ?_,
        refines.thread running known typed moved stepped mirrors, ?_⟩
      · simp only [acts, ChatRoom.act, if_pos (refines.shown.length ▸ known), stepped,
          Option.map_some]
      · cases event with
        | type data => exact FitsHeader.short short
        | _ => trivial
      · have sends := ChatClient.sends_of_bare (refines.shown.clients client known).threads event
        have shown : ∀ entries : List (ConnectionPtr × List UInt8),
            (entries.map fun entry => ChatRoom.Passage.shown entry.1 client entry.2).map unsigned =
              (entries.map Prod.snd).map (.shown 0 client) := by
          intro entries
          simp [unsigned, Function.comp_def]
        simp only [passages, ChatRoom.passages, List.map_append, sends, shown, prints]

/-- A socket of the server that is open was open. -/
theorem AllOpen.before {event : Event} (sound : Sound n) (taken : n.step event = some next)
    (allOpen : next.AllOpen) : n.AllOpen := by
  obtain ⟨running, acted⟩ := step_eq_some taken
  cases event with
  | accept clock =>
      cases acted
      exact fun c member => allOpen c (List.mem_append_left _ member)
  | thread client event =>
      obtain ⟨-, -, d, -, rfl⟩ := act_thread acted
      exact allOpen
  | update =>
      obtain ⟨client, msg, later, -, rfl⟩ := act_update acted
      intro c member
      rcases ChatServer.handle_cases n.chat client msg later with
        ⟨server, calls, -, handled⟩ | ⟨fault, -, ended⟩
      · obtain ⟨index, found⟩ := List.mem_iff_getElem?.mp member
        have given : (n.chat.connections.mapIdx (ChatServer.giveAll calls))[index]? =
            some (ChatServer.giveAll calls index c) := by
          rw [List.getElem?_mapIdx, found]
          rfl
        have isOpen := allOpen (ChatServer.giveAll calls index c) (by
          rw [handled]
          exact List.mem_of_getElem? given)
        rwa [ChatServer.giveAll, Connection.foldl_send] at isOpen
      · rw [AllOpen, ended] at allOpen
        exact allOpen c member
  | io client event =>
      obtain ⟨c, h, found, allowed, moved, rfl⟩ := act_io acted
      intro e member
      obtain ⟨index, at_⟩ := List.mem_iff_getElem?.mp member
      have known := (List.getElem?_eq_some_iff.mp found).1
      by_cases isMover : client = index
      · subst isMover
        cases found.symm.trans at_
        have isOpen : h.server.isOpen = true := allOpen _ (List.mem_set known _)
        rcases (ends_of_ofIo allowed moved).1 with stays | ⟨seen, -, stepped⟩
        · rwa [stays] at isOpen
        · exact ((sound.chat.serves client c found).step stepped).2.closed isOpen
      · refine allOpen e (List.mem_of_getElem? (i := index) ?_)
        simp only [ioStepped]
        rwa [List.getElem?_set_ne isMover]

/-- The room that shows a network after a run, with what has become of the texts. -/
theorem refines_of_run {events : List Event} {final : ChatNetwork × List ChatRoom.Passage}
    (run : runFrom (logged step passages) (start, []) events = some final)
    (short : ∀ event ∈ events, ShortEvent event) (inOrder : Meets step InOrder start events)
    (allOpen : final.1.AllOpen) :
    ∃ seen shown, runFrom (logged ChatRoom.step ChatRoom.passages) (ChatRoom.start, []) seen =
        some shown ∧ (∀ event ∈ seen, ChatRoom.ShortEvent event) ∧
      Refines final.1 shown.1 ∧ final.2.map unsigned = shown.2.map unsigned := by
  let relates (state : ChatNetwork × List ChatRoom.Passage)
      (image : ChatRoom × List ChatRoom.Passage) : Prop :=
    Refines state.1 image.1 ∧ state.2.map unsigned = image.2.map unsigned
  let allowed (state : ChatNetwork × List ChatRoom.Passage) (event : Event) : Prop :=
    ShortEvent event ∧ state.1.InOrder event
  have simulates : ∀ state event next image, relates state image → allowed state event →
      next.1.AllOpen → logged step passages state event = some next →
      relates next image ∨ ∃ seen after,
        logged ChatRoom.step ChatRoom.passages image seen = some after ∧
          ChatRoom.ShortEvent seen ∧ relates next after := by
    rintro ⟨n, log⟩ event ⟨next, longer⟩ ⟨room, roomLog⟩ ⟨refines, sameLog⟩ ⟨isShort, ordered⟩
      isOpen
      taken
    obtain ⟨moved, rfl⟩ := logged_eq_some taken
    rcases refines.simulates isShort ordered isOpen moved with
      ⟨stays, nothing⟩ | ⟨seen, after, stepped, seenShort, refinesNext, same⟩
    · refine .inl ⟨stays, ?_⟩
      simpa only [nothing, List.append_nil] using sameLog
    · refine .inr ⟨seen, (after, roomLog ++ room.passages seen), ?_, seenShort, refinesNext, ?_⟩
      · simp only [logged, stepped, Option.map_some]
      · simp only [List.map_append, sameLog, same]
  let holds (state : ChatNetwork × List ChatRoom.Passage) : Prop := Sound state.1
  have keeps : ∀ state event next, holds state → allowed state event →
      logged step passages state event = some next → holds next :=
    fun _ _ _ sound isAllowed taken => Sound.step sound isAllowed.2 (logged_eq_some taken).1
  have lost : ∀ state event next, holds state →
      logged step passages state event = some next → next.1.AllOpen → state.1.AllOpen :=
    fun _ _ _ sound taken isOpen => AllOpen.before sound (logged_eq_some taken).1 isOpen
  have related : relates (start, []) (ChatRoom.start, []) := ⟨refines_start, rfl⟩
  have initially : holds (start, []) := sound_start
  obtain ⟨seen, shown, imageRun, seenShort, ends⟩ :=
    exists_run_of_simulation keeps lost simulates initially related run
      (((meets_iff_forall run).mpr short).and (inOrder.logged [])) allOpen
  exact ⟨seen, shown, imageRun, seenShort, ends⟩

/-- **Every state that a network reaches is shown by a state that a room reaches**, as long as the
handshakes come in order and the sockets of the server are open, and what has arrived are the first
messages that were sent. -/
theorem refines_room {events : List Event} {final : ChatNetwork}
    (run : runFrom step start events = some final) (short : ∀ event ∈ events, ShortEvent event)
    (inOrder : Meets step InOrder start events) (allOpen : final.AllOpen) :
    (∃ seen room, runFrom ChatRoom.step ChatRoom.start seen = some room ∧ Shows final room) ∧
      final.Arrived := by
  obtain ⟨log, logs⟩ : ∃ log, runFrom (logged step passages) (start, []) events =
      some (final, [] ++ log) := exists_log_of_run [] run
  obtain ⟨seen, ⟨room, roomLog⟩, roomRun, -, refines, -⟩ :=
    refines_of_run logs short inOrder allOpen
  exact ⟨⟨seen, room, run_of_logged roomRun, refines.shown⟩, refines.arrived⟩

/-! ### A run -/

/-- A client connects, and each end gets the code of the other. -/
def connecting (client : ConnectionPtr) : List Event :=
  .accept 0x0123456789abcdef :: Handshake.byteByByte.tail.map (.io client)

/-- The next message of a client goes to the server. -/
def upwards (client : ConnectionPtr) (size : ℕ) : List Event :=
  [.client .runPosted, .client (.transfer 0 8), .client (.writeDone 0), .client (.transfer 0 size),
    .client (.writeDone 0), .toServer (8 + size), .server (.fill 8), .server .readDone,
    .server (.fill size), .server .readDone].map (.io client)

/-- The next message of the server goes to a client. -/
def downwards (client : ConnectionPtr) (size : ℕ) : List Event :=
  [.server .runPosted, .server (.transfer 0 8), .server (.writeDone 0), .server (.transfer 0 size),
    .server (.writeDone 0), .toClient (8 + size), .client (.fill 8), .client .readDone,
    .client (.fill size), .client .readDone].map (.io client)

/-- Two clients chat. The first line of the second client is printed, the second one waits. -/
def greeted : List Event :=
  [connecting 0, downwards 0 4, connecting 1, downwards 1 4,
    [.thread 0 .execute, .thread 1 .execute, .thread 0 (.command (.connectTo 10001)),
      .thread 0 .user],
    upwards 0 4, [.update], downwards 1 4,
    [.thread 1 .execute, .thread 1 .execute, .thread 1 (.command .requestAccept), .thread 1 .user,
      .thread 1 .user, .thread 1 .user],
    upwards 1 4, [.update], downwards 0 4,
    [.thread 0 .execute, .thread 0 .execute, .thread 0 .execute, .thread 0 .execute,
      .thread 1 (.type [104, 105]), .thread 1 .user, .thread 1 .user],
    upwards 1 10, [.update], downwards 0 10,
    [.thread 0 .execute, .thread 1 (.type [104]), .thread 1 .user, .thread 1 .user]].flatten

/-- Where the second line waits. -/
def afterGreeting : ChatNetwork × List ChatRoom.Passage :=
  (runFrom (logged step passages) (start, []) greeted).get (by decide +kernel)

theorem run_greeted :
    runFrom (logged step passages) (start, []) greeted = some afterGreeting :=
  (Option.some_get _).symm

theorem inOrder_greeted : Meets step InOrder start greeted := by decide +kernel

theorem refines_room_greeted :
    (∃ seen room, runFrom ChatRoom.step ChatRoom.start seen = some room ∧
      Shows afterGreeting.1 room) ∧ afterGreeting.1.Arrived :=
  refines_room (run_of_logged run_greeted) (by decide +kernel) inOrder_greeted (by decide +kernel)

end ChatNetwork

end NetworkChat
