import NetworkChat.Server.Pairing

/-!
# What the server sends

`OnMessage` passes a ping, a text and an answer on as it got them, and builds everything
else itself. `relayTarget` computes from the state before it to which connection a message
is passed on (`relayTarget_sends`); everything else that is sent is built by the server
(`onMessage_calls`).
-/

set_option autoImplicit false

namespace NetworkChat

open Foundation

namespace CustomServer

/-- The answer to `ClientList`. -/
def listMsg (ids : List UInt32) : Message CustomMsgTypes :=
  ids.foldl Message.push (Message.ofType CustomMsgTypes.clientList)

/-- The messages of bounded size that the server builds: an id for an accepted client, a
greeting or an answer to a request, and a close. -/
inductive ServerBuilt : Message CustomMsgTypes → Prop where
  | serverAccept (id : UInt32) : ServerBuilt (idMsg .serverAccept id)
  | serverMessage (id : UInt32) : ServerBuilt (idMsg .serverMessage id)
  | requestToClient (id : UInt32) : ServerBuilt (idMsg .requestToClient id)
  | closeClient : ServerBuilt closeMsg

variable {view : ConnectionPtr → Peer} {server : CustomServer} {client : ConnectionPtr}
  {msg : Message CustomMsgTypes}

/-- The connection to which `OnMessage` passes the message on. -/
def relayTarget (view : ConnectionPtr → Peer) (server : CustomServer) (client : ConnectionPtr)
    (msg : Message CustomMsgTypes) : Option ConnectionPtr :=
  match msg.header.id with
  | .serverPing => some client
  | .textClient => do
      let id ← server.clientConnections (view client).id
      let receiver ← server.findClient view id
      if (view receiver).isConnected then some receiver else none
  | .requestAnswer => do
      let id ← server.clientConnections (view client).id
      server.findClient view id
  | _ => none

/-- The loop that looks for an id stops at its first holder. -/
theorem findClient_eq_head? (id : UInt32) :
    server.findClient view id = (holders view server.dequeConnections id).head? :=
  List.head?_filter.symm

/-! ## The loop of texts -/

/-- Without its sender in the map the loop passes nothing on. -/
theorem relayText_sends_close {id : UInt32} {clients : List ConnectionPtr} {after : CustomServer}
    {calls : List Call} (notKey : server.clientConnections (view client).id = none)
    (done : relayText view client msg id clients server = .ok (after, calls)) :
    calls = [] := by
  cases split : holders view clients id with
  | nil =>
      rw [relayText_of_none split] at done
      cases done
      rfl
  | cons first more =>
      obtain ⟨before, rest, rfl, others, isHolder, -⟩ := holders_eq_cons split
      have notPaired : ¬ (0 < server.clientConnections.count (view client).id ∧
          (view first).isConnected = true) := by
        rintro ⟨isKey, -⟩
        rw [ConnectionMap.count_pos_iff, notKey] at isKey
        cases isKey
      rw [relayText_append others, relayText, if_pos isHolder, if_neg notPaired] at done
      have refused : (server.disconnectClients id (view client).id).isOk = false := by
        rw [Bool.eq_false_iff]
        intro isOk
        have isKey := ((disconnectClients_isOk_iff _ _).mp isOk).2.1
        rw [notKey] at isKey
        cases isKey
      cases disconnected : server.disconnectClients id (view client).id with
      | error fault => rw [disconnected] at done; cases done
      | ok next => rw [disconnected] at refused; cases refused

/-- `DisconnectClients` leaves neither client a key. -/
theorem disconnectClients_erases {clientA clientB : UInt32} {after : CustomServer}
    (done : server.disconnectClients clientA clientB = .ok after) :
    after.clientConnections clientB = none := by
  simp only [disconnectClients] at done
  cases first : server.clientConnections clientA with
  | none => rw [ConnectionMap.eraseFound_of_none first] at done; cases done
  | some value =>
      rw [ConnectionMap.eraseFound_of_some first] at done
      change (ConnectionMap.eraseFound _ clientB >>= _) = _ at done
      cases second : Function.update server.clientConnections clientA none clientB with
      | none => rw [ConnectionMap.eraseFound_of_none second] at done; cases done
      | some value =>
          rw [ConnectionMap.eraseFound_of_some second] at done
          cases done
          exact Function.update_self _ _ _

/-- The calls of the loop of texts: the text for the first holder of the id when its
socket is open, and a close for the sender when it is not. -/
theorem relayText_calls {id : UInt32} {clients : List ConnectionPtr} {after : CustomServer}
    {calls : List Call} (isKey : (server.clientConnections (view client).id).isSome = true)
    (done : relayText view client msg id clients server = .ok (after, calls)) :
    calls = match (holders view clients id).head? with
      | none => []
      | some first =>
          if (view first).isConnected then [.send first msg] else [.send client closeMsg] := by
  cases split : holders view clients id with
  | nil =>
      rw [relayText_of_none split] at done
      cases done
      rfl
  | cons first more =>
      cases isConnected : (view first).isConnected with
      | true =>
          rw [relayText_of_open split isKey isConnected] at done
          cases done
          simp only [List.head?_cons, isConnected, if_true]
      | false =>
          obtain ⟨rest, -, onClosed⟩ : ∃ rest, holders view rest id = more ∧
              relayText view client msg id clients server = _ :=
            relayText_of_closed split isConnected
          rw [onClosed] at done
          cases disconnected : server.disconnectClients id (view client).id with
          | error fault => rw [disconnected] at done; cases done
          | ok next =>
              rw [disconnected] at done
              change (relayText view client msg id rest next >>= _) = _ at done
              cases relayed : relayText view client msg id rest next with
              | error fault => rw [relayed] at done; cases done
              | ok last =>
                  obtain ⟨final, more⟩ := last
                  have nothing := relayText_sends_close (disconnectClients_erases disconnected)
                    relayed
                  rw [relayed] at done
                  cases done
                  rw [nothing]
                  simp only [List.head?_cons, isConnected, Bool.false_eq_true, if_false]

/-! ## `OnMessage` -/

theorem mem_of_findClient {id : UInt32} {receiver : ConnectionPtr}
    (found : server.findClient view id = some receiver) : receiver ∈ server.dequeConnections :=
  List.mem_of_find?_eq_some found

/-- Requests are answered, and passed to the other client, with a message of the
server. -/
theorem requestToClient_sends {id : UInt32} {receiver : ConnectionPtr}
    {sent : Message CustomMsgTypes}
    (member : Call.send receiver sent ∈ (server.requestToClient view client id).2) :
    (receiver = client ∨ receiver ∈ server.dequeConnections) ∧ ServerBuilt sent := by
  cases found : server.findClient view id with
  | none =>
      simp only [requestToClient, found, List.mem_singleton, Call.send.injEq] at member
      exact ⟨.inl member.1, member.2 ▸ .requestToClient 0⟩
  | some client_ =>
      rcases answer : server.connectClients (view client).id id with ⟨_ | _, after⟩
      · simp only [requestToClient, found, answer, List.mem_singleton, Call.send.injEq] at member
        exact ⟨.inl member.1, member.2 ▸ .requestToClient 1⟩
      · simp only [requestToClient, found, answer, List.mem_singleton, Call.send.injEq] at member
        exact ⟨.inr (member.1 ▸ mem_of_findClient found), member.2 ▸ .requestToClient _⟩

theorem sendToId_eq (id : UInt32) (sent : Message CustomMsgTypes) :
    server.sendToId view id sent = (server.findClient view id).toList.map fun receiver =>
      .send receiver sent := by
  rw [sendToId]
  cases server.findClient view id <;> rfl

/-- Where a message comes from that a handler sends. -/
inductive SentBy (view : ConnectionPtr → Peer) (server : CustomServer) (client : ConnectionPtr)
    (msg : Message CustomMsgTypes) (receiver : ConnectionPtr) : Message CustomMsgTypes → Prop where
  | relayed (relays : relayTarget view server client msg = some receiver) :
      SentBy view server client msg receiver msg
  | built (sent : Message CustomMsgTypes) (built : ServerBuilt sent) :
      SentBy view server client msg receiver sent
  | listed (isList : msg.header.id = .clientList) :
      SentBy view server client msg receiver (listMsg (server.getClientList view).1)

section Calls

variable {after : CustomServer} {calls : List Call} {receiver : ConnectionPtr}
  {sent : Message CustomMsgTypes}

/-- A text goes to the partner, or the sender hears that it is gone. -/
theorem onMessage_textClient_calls (type : msg.header.id = .textClient)
    (done : server.onMessage view client msg = .ok (after, calls))
    (member : Call.send receiver sent ∈ calls) :
    (receiver = client ∨ receiver ∈ server.dequeConnections) ∧
      SentBy view server client msg receiver sent := by
  simp only [onMessage, type] at done
  cases found : server.clientConnections (view client).id with
  | none => rw [ConnectionMap.atKey_of_none found] at done; cases done
  | some id =>
      rw [ConnectionMap.atKey_of_some found] at done
      have isKey : (server.clientConnections (view client).id).isSome = true := by
        rw [found]
        rfl
      rw [relayText_calls isKey done, ← findClient_eq_head?] at member
      cases receives : server.findClient view id with
      | none => rw [receives] at member; cases member
      | some first =>
          rw [receives] at member
          simp only at member
          split at member
          case isTrue isOpen =>
            cases List.mem_singleton.mp member
            refine ⟨.inr (mem_of_findClient receives), .relayed ?_⟩
            simp only [relayTarget, type, found, Option.bind_eq_bind, Option.bind_some, receives,
              isOpen, if_true]
          case isFalse =>
            cases List.mem_singleton.mp member
            exact ⟨.inl rfl, .built _ .closeClient⟩

/-- An answer goes to the partner. -/
theorem onMessage_requestAnswer_calls (type : msg.header.id = .requestAnswer)
    (done : server.onMessage view client msg = .ok (after, calls))
    (member : Call.send receiver sent ∈ calls) :
    (receiver = client ∨ receiver ∈ server.dequeConnections) ∧
      SentBy view server client msg receiver sent := by
  simp only [onMessage, type] at done
  cases found : server.clientConnections (view client).id with
  | none => rw [ConnectionMap.atKey_of_none found] at done; cases done
  | some id =>
      rw [ConnectionMap.atKey_of_some found] at done
      cases done
      rw [sendToId_eq] at member
      obtain ⟨first, among, same⟩ := List.mem_map.mp member
      cases same
      have receives := Option.mem_toList.mp among
      refine ⟨.inr (mem_of_findClient receives), .relayed ?_⟩
      simp only [relayTarget, type, found, Option.bind_eq_bind, Option.bind_some, receives]

/-- The partner hears of a close. -/
theorem onMessage_closeClient_calls (type : msg.header.id = .closeClient)
    (done : server.onMessage view client msg = .ok (after, calls))
    (member : Call.send receiver sent ∈ calls) :
    (receiver = client ∨ receiver ∈ server.dequeConnections) ∧
      SentBy view server client msg receiver sent := by
  simp only [onMessage, type] at done
  cases found : server.clientConnections (view client).id with
  | none => rw [ConnectionMap.atKey_of_none found] at done; cases done
  | some id =>
      rw [ConnectionMap.atKey_of_some found] at done
      change (server.disconnectClients (view client).id id >>= _) = _ at done
      cases disconnected : server.disconnectClients (view client).id id with
      | error fault => rw [disconnected] at done; cases done
      | ok next =>
          rw [disconnected] at done
          cases done
          rw [sendToId_eq] at member
          obtain ⟨first, among, same⟩ := List.mem_map.mp member
          cases same
          exact ⟨.inr (mem_of_findClient (Option.mem_toList.mp among)), .built _ .closeClient⟩

/-- **What a handler sends is its message, passed on, or built by the server**, and goes
to the sender or to a connection of the deque. -/
theorem onMessage_calls (done : server.onMessage view client msg = .ok (after, calls))
    (member : Call.send receiver sent ∈ calls) :
    (receiver = client ∨ receiver ∈ server.dequeConnections) ∧
      SentBy view server client msg receiver sent := by
  cases type : msg.header.id with
  | textClient => exact onMessage_textClient_calls type done member
  | requestAnswer => exact onMessage_requestAnswer_calls type done member
  | closeClient => exact onMessage_closeClient_calls type done member
  | serverPing =>
      simp only [onMessage, type] at done
      cases done
      cases List.mem_singleton.mp member
      exact ⟨.inl rfl, .relayed (by simp only [relayTarget, type])⟩
  | messageAll =>
      simp only [onMessage, type] at done
      cases done
      obtain ⟨client_, isClient, called⟩ := List.mem_flatMap.mp member
      split at called
      · split at called
        · cases List.mem_singleton.mp called
          exact ⟨.inr isClient, .built _ (.serverMessage _)⟩
        · cases called
      · cases List.mem_singleton.mp called
  | clientList =>
      simp only [onMessage, type] at done
      cases done
      rcases List.mem_append.mp member with called | called
      · obtain ⟨client_, -, called⟩ := List.mem_flatMap.mp called
        split at called
        · cases called
        · cases List.mem_singleton.mp called
      · cases List.mem_singleton.mp called
        exact ⟨.inl rfl, .listed type⟩
  | requestToClient =>
      simp only [onMessage, type] at done
      cases popped : msg.pop UInt32 with
      | error fault => rw [popped] at done; cases done
      | ok extracted =>
          rw [popped] at done
          have same : server.requestToClient view client extracted.1 = (after, calls) :=
            Except.ok.inj done
          have called : Call.send receiver sent ∈
              (server.requestToClient view client extracted.1).2 := by rwa [same]
          exact (requestToClient_sends called).imp_right (.built _)
  | serverAccept => simp only [onMessage, type] at done; cases done; cases member
  | serverDeny => simp only [onMessage, type] at done; cases done; cases member
  | serverMessage => simp only [onMessage, type] at done; cases done; cases member
  | unnamed value large => simp only [onMessage, type] at done; cases done; cases member

end Calls

/-- A message that is passed on is sent as it came, and nothing else changes. -/
theorem relayTarget_sends {receiver : ConnectionPtr}
    (relays : relayTarget view server client msg = some receiver) :
    ∃ calls, server.onMessage view client msg = .ok (server, calls) ∧
      Call.send receiver msg ∈ calls := by
  simp only [relayTarget] at relays
  simp only [onMessage]
  cases type : msg.header.id with
  | serverPing =>
      rw [type] at relays
      cases relays
      exact ⟨_, rfl, List.mem_singleton_self _⟩
  | textClient =>
      rw [type] at relays
      obtain ⟨id, found, relays⟩ := Option.bind_eq_some_iff.mp relays
      obtain ⟨first, receives, relays⟩ := Option.bind_eq_some_iff.mp relays
      split at relays
      case isTrue isOpen =>
        cases relays
        rw [ConnectionMap.atKey_of_some found]
        rw [findClient_eq_head?, List.head?_eq_some_iff] at receives
        obtain ⟨more, split⟩ := receives
        exact ⟨_, relayText_of_open split (by rw [found]; rfl) isOpen, List.mem_singleton_self _⟩
      case isFalse => cases relays
  | requestAnswer =>
      rw [type] at relays
      obtain ⟨id, found, receives⟩ := Option.bind_eq_some_iff.mp relays
      rw [ConnectionMap.atKey_of_some found]
      refine ⟨_, rfl, ?_⟩
      rw [sendToId_eq, receives]
      exact List.mem_singleton_self _
  | _ => rw [type] at relays; cases relays

/-- The answer to `ClientList` goes to the client. -/
theorem clientList_sends (view : ConnectionPtr → Peer) (server : CustomServer)
    (client : ConnectionPtr)
    (isList : msg.header.id = .clientList) :
    ∃ after calls, server.onMessage view client msg = .ok (after, calls) ∧
      Call.send client (listMsg (server.getClientList view).1) ∈ calls := by
  refine ⟨(server.getClientList view).2.1,
    (server.getClientList view).2.2 ++ [.send client (listMsg (server.getClientList view).1)], ?_,
      ?_⟩
  · simp only [onMessage, isList]
    rfl
  · exact List.mem_append_right _ (List.mem_singleton_self _)

end CustomServer

end NetworkChat
