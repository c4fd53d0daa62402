import NetworkChat.Chat.Refinement

/-!
# The texts of a chat over TCP

A text that was typed is on its way to the server while the message that holds it is posted, written
or in the network, has been read in part or waits for `Update`, or after `Send` has dropped it
(`toBeHandled`). A text that was sent on is on its way to its reader until `ExecuteMessages` takes
its message off the queue (`toBeTaken`).

The room that shows a network accounts for all texts, so the network does (`texts_accounted`): in
order, and none twice, however the messages are cut into pieces and the ends take turns, if the
handshakes come in order. A text can be missing only while something is on its way, or if `Send` has
dropped it (`texts_delivered`).
-/

set_option autoImplicit false

namespace NetworkChat

open Foundation

/-! ## Logs without writers -/

namespace ChatRoom

section Unsigned

variable {first second : List Passage}
  (same : first.map ChatNetwork.unsigned = second.map ChatNetwork.unsigned)

include same

/-- What is read in a log without its writers is read the same in logs that differ in them only. -/
theorem filterMap_of_unsigned {Value : Type*} {reads : Passage → Option Value}
    (bare : ∀ passage, reads (ChatNetwork.unsigned passage) = reads passage) :
    first.filterMap reads = second.filterMap reads := by
  have unsigned : ∀ log : List Passage,
      (log.map ChatNetwork.unsigned).filterMap reads = log.filterMap reads := by
    intro log
    rw [List.filterMap_map]
    exact List.filterMap_congr fun passage _ => bare passage
  rw [← unsigned first, same, unsigned second]

theorem typedBy_of_unsigned (writer : ConnectionPtr) :
    typedBy writer first = typedBy writer second :=
  filterMap_of_unsigned same fun passage => by cases passage <;> rfl

theorem sentOnFrom_of_unsigned (writer : ConnectionPtr) :
    sentOnFrom writer first = sentOnFrom writer second :=
  filterMap_of_unsigned same fun passage => by cases passage <;> rfl

theorem sentOnTo_of_unsigned (reader : ConnectionPtr) :
    sentOnTo reader first = sentOnTo reader second :=
  filterMap_of_unsigned same fun passage => by cases passage <;> rfl

theorem shownTo_of_unsigned (reader : ConnectionPtr) :
    (shownTo reader first).map Prod.snd = (shownTo reader second).map Prod.snd := by
  rw [shownTo, shownTo, List.map_filterMap, List.map_filterMap]
  refine filterMap_of_unsigned same fun passage => ?_
  cases passage with
  | shown writer client text =>
      simp only [ChatNetwork.unsigned]
      split <;> rfl
  | typed writer text => rfl
  | sentOn writer client text => rfl

end Unsigned

end ChatRoom

/-! ## What is on its way -/

namespace ChatNetwork

/-- What was given to `Send` of a client and the server has not handled. -/
def toBeHandled (n : ChatNetwork) (client : ConnectionPtr) : List (Message CustomMsgTypes) :=
  let t := n.terminals client
  (t.given ++ t.lost).drop (messagesOf client n.chat.handled).length

/-- What the server has given to `Send` and `ExecuteMessages` of the client has not taken. -/
def toBeTaken (n : ChatNetwork) (client : ConnectionPtr) : List (Message CustomMsgTypes) :=
  let t := n.terminals client
  (messagesOf client n.chat.sends).drop
    (t.connection.qMessagesIn.length - t.threads.incoming.length)

/-- Where every text is. -/
structure Accounted (n : ChatNetwork) (log : List ChatRoom.Passage) : Prop where
  typed : ∀ writer < n.chat.connections.length, ChatRoom.typedBy writer log =
    (ChatRoom.sentOnFrom writer log).map Prod.snd ++ (n.toBeHandled writer).filterMap textOf
  sentOn : ∀ reader < n.chat.connections.length, (ChatRoom.sentOnTo reader log).map Prod.snd =
    (ChatRoom.shownTo reader log).map Prod.snd ++ (n.toBeTaken reader).filterMap textOf

variable {n : ChatNetwork} {room : ChatRoom} {client : ConnectionPtr}

theorem Shows.toBeSentOn (shown : Shows n room) (known : client < n.chat.connections.length) :
    (room.clients client).toBeSentOn = (n.toBeHandled client).filterMap textOf := by
  rw [toBeHandled, ← (shown.clients client known).outgoing, List.filterMap_map]
  rfl

theorem Shows.toBeShown (shown : Shows n room) (known : client < n.chat.connections.length) :
    (room.clients client).toBeShown.map Prod.snd = (n.toBeTaken client).filterMap textOf := by
  obtain ⟨taken, within, waits, arrived⟩ := (shown.clients client known).incoming
  have length := congrArg List.length arrived
  rw [List.length_map, List.length_drop] at length
  have isTaken : (n.terminals client).connection.qMessagesIn.length -
      (n.terminals client).threads.incoming.length = taken := by omega
  rw [toBeTaken, isTaken, ← waits, List.filterMap_map, ChatClient.toBeShown, List.map_filterMap]
  refine List.filterMap_congr fun envelope _ => ?_
  simp only [Function.comp_apply, Option.map_map]
  exact Option.map_id'

/-- The room that shows a network accounts for its texts. -/
theorem Refines.accounted {log roomLog : List ChatRoom.Passage} (refines : Refines n room)
    (rooms : ChatRoom.Accounted room roomLog) (same : log.map unsigned = roomLog.map unsigned) :
    Accounted n log where
  typed writer known := by
    rw [ChatRoom.typedBy_of_unsigned same, ChatRoom.sentOnFrom_of_unsigned same,
      rooms.typed writer, refines.shown.toBeSentOn known]
  sentOn reader known := by
    rw [ChatRoom.sentOnTo_of_unsigned same, ChatRoom.shownTo_of_unsigned same,
      rooms.sentOn reader, List.map_append, refines.shown.toBeShown known]

/-- Where a client is up and the server has read all of it, nothing waits but for `Update`. -/
theorem Refines.toBeHandled_eq_nil {c : Connection CustomMsgTypes} (refines : Refines n room)
    (found : n.chat.connections[client]? = some c)
    (settled : Conversation.Settled (n.terminals client).connection c
      (n.terminals client).toServer) (idle : n.chat.qMessagesIn = []) :
    n.toBeHandled client = [] := by
  have known := (List.getElem?_eq_some_iff.mp found).1
  have sound := refines.sound.terminals client c found
  have framed : ∀ msg ∈ (n.terminals client).given, msg.Framed := fun msg member =>
    (refines.given client known msg (List.mem_append_left _ member)).framed
  have heard := sound.talks.client.heard_whole sound.talks.server framed settled.up
    settled.noLambda settled.noWrite settled.arrived settled.waits settled.allRead
  have queue := refines.sound.chat.queue client c found
  rw [idle, List.append_nil, heard] at queue
  have noneLost : (n.terminals client).lost = [] := by
    by_contra some
    exact settled.up (sound.lost some)
  rw [toBeHandled, noneLost, queue, length_receive, List.length_map, List.append_nil,
    List.drop_length]

/-- Where the server is up and a client has read all of it, nothing waits but for
`ExecuteMessages`. -/
theorem Refines.toBeTaken_eq_nil {c : Connection CustomMsgTypes} (refines : Refines n room)
    (found : n.chat.connections[client]? = some c)
    (settled : Conversation.Settled c (n.terminals client).connection
      (n.terminals client).toClient) (idle : (n.terminals client).threads.incoming = []) :
    n.toBeTaken client = [] := by
  have sound := refines.sound.terminals client c found
  have framed : ∀ msg ∈ messagesOf client n.chat.sends, msg.Framed := fun msg member =>
    (refines.told _ (mem_entriesOf.mp member)).framed
  have heard := sound.talks.server.heard_whole sound.talks.client framed settled.up
    settled.noLambda settled.noWrite settled.arrived settled.waits settled.allRead
  rw [toBeTaken, idle, heard, length_receive, List.length_map, List.length_nil, Nat.sub_zero,
    List.drop_length]

section Texts

variable {events : List Event} {final : ChatNetwork × List ChatRoom.Passage}

/-- The network is shown by a room, which accounts for its texts. -/
theorem accounted_of_run (run : runFrom (logged step passages) (start, []) events = some final)
    (short : ∀ event ∈ events, ShortEvent event) (inOrder : Meets step InOrder start events)
    (allOpen : final.1.AllOpen) (running : final.1.chat.aborted = none) :
    ∃ room, Refines final.1 room ∧ Accounted final.1 final.2 := by
  obtain ⟨seen, ⟨room, log⟩, roomRun, seenShort, refines, same⟩ :=
    refines_of_run run short inOrder allOpen
  have keeps := ChatRoom.keepsTexts_of_run roomRun seenShort
  exact ⟨room, refines, refines.accounted (keeps.accounted (refines.shown.running running)) same⟩

/-- **Every text that was typed was sent on once or is on its way to the server, and every text sent
on was shown once or is on its way to its reader**, in order, as long as the handshakes come in
order, the server runs and its sockets are open. -/
theorem texts_accounted (run : runFrom (logged step passages) (start, []) events = some final)
    (short : ∀ event ∈ events, ShortEvent event) (inOrder : Meets step InOrder start events)
    (allOpen : final.1.AllOpen) (running : final.1.chat.aborted = none) :
    Accounted final.1 final.2 := by
  obtain ⟨room, -, accounted⟩ := accounted_of_run run short inOrder allOpen running
  exact accounted

/-- **No text is missing where nothing is on its way.** -/
theorem texts_delivered (run : runFrom (logged step passages) (start, []) events = some final)
    (short : ∀ event ∈ events, ShortEvent event) (inOrder : Meets step InOrder start events)
    (allOpen : final.1.AllOpen) (running : final.1.chat.aborted = none) {client : ConnectionPtr}
    {c : Connection CustomMsgTypes} (found : final.1.chat.connections[client]? = some c) :
    (Conversation.Settled (final.1.terminals client).connection c
          (final.1.terminals client).toServer →
        final.1.chat.qMessagesIn = [] →
        (ChatRoom.sentOnFrom client final.2).map Prod.snd = ChatRoom.typedBy client final.2) ∧
      (Conversation.Settled c (final.1.terminals client).connection
          (final.1.terminals client).toClient →
        (final.1.terminals client).threads.incoming = [] →
        (ChatRoom.shownTo client final.2).map Prod.snd =
          (ChatRoom.sentOnTo client final.2).map Prod.snd) := by
  obtain ⟨room, refines, accounted⟩ := accounted_of_run run short inOrder allOpen running
  have known := (List.getElem?_eq_some_iff.mp found).1
  constructor
  · intro settled idle
    rw [accounted.typed client known, refines.toBeHandled_eq_nil found settled idle]
    exact (List.append_nil _).symm
  · intro settled idle
    rw [accounted.sentOn client known, refines.toBeTaken_eq_nil found settled idle]
    exact (List.append_nil _).symm

end Texts

theorem texts_accounted_greeted : Accounted afterGreeting.1 afterGreeting.2 :=
  texts_accounted run_greeted (by decide +kernel) inOrder_greeted (by decide +kernel)
    (by decide +kernel)

/-- The second line is printed too. -/
def goneOn : List Event :=
  greeted ++ upwards 1 9 ++ [.update] ++ downwards 0 9 ++ [.thread 0 .execute]

/-- Where nothing is on its way. -/
def afterGoingOn : ChatNetwork × List ChatRoom.Passage :=
  (runFrom (logged step passages) (start, []) goneOn).get (by decide +kernel)

theorem run_goneOn :
    runFrom (logged step passages) (start, []) goneOn = some afterGoingOn :=
  (Option.some_get _).symm

theorem texts_delivered_goneOn :
    (ChatRoom.sentOnFrom 1 afterGoingOn.2).map Prod.snd = ChatRoom.typedBy 1 afterGoingOn.2 ∧
      (ChatRoom.shownTo 0 afterGoingOn.2).map Prod.snd =
        (ChatRoom.sentOnTo 0 afterGoingOn.2).map Prod.snd := by
  have short : ∀ event ∈ goneOn, ShortEvent event := by decide +kernel
  have inOrder : Meets step InOrder start goneOn := by decide +kernel
  have allOpen : afterGoingOn.1.AllOpen := by decide +kernel
  have running : afterGoingOn.1.chat.aborted = none := by decide +kernel
  constructor
  · exact (texts_delivered run_goneOn short inOrder allOpen running
      (List.getElem?_eq_getElem (by decide +kernel))).1 (by decide +kernel) (by decide +kernel)
  · exact (texts_delivered run_goneOn short inOrder allOpen running
      (List.getElem?_eq_getElem (by decide +kernel))).2 (by decide +kernel) (by decide +kernel)

example : ChatRoom.typedBy 1 afterGoingOn.2 = [[104, 105], [104]] := by decide +kernel

end ChatNetwork

end NetworkChat
