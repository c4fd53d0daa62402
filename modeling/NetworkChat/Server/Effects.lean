import NetworkChat.Server.Sends

/-!
# What a handler does

`Effect` lists what `OnMessage` can do, one case for each branch that returns: how the
server changes and what is called. A handler that returns has one of these effects
(`onMessage_effect`), so a fact about all handlers is a case analysis of `Effect`.
-/

set_option autoImplicit false

namespace NetworkChat

open Foundation

namespace CustomServer

variable {view : ConnectionPtr → Peer} {server : CustomServer} {client : ConnectionPtr}
  {msg : Message CustomMsgTypes} {matching : Matching UInt32}

/-- The server with another map. -/
def withPairs (server : CustomServer) (map : ConnectionMap) : CustomServer :=
  { server with clientConnections := map }

@[simp] theorem withPairs_clientConnections (map : ConnectionMap) :
    (server.withPairs map).clientConnections = map := rfl

@[simp] theorem withPairs_dequeConnections (map : ConnectionMap) :
    (server.withPairs map).dequeConnections = server.dequeConnections := rfl

/-- The types that are passed on to the partner of their sender. -/
def ForPartner (type : CustomMsgTypes) : Prop := type = .textClient ∨ type = .requestAnswer

/-- What a handler that returns does, when the map is the partner map of the matching. -/
inductive Effect (view : ConnectionPtr → Peer) (server : CustomServer) (matching : Matching UInt32)
    (client : ConnectionPtr) (msg : Message CustomMsgTypes) : CustomServer → List Call → Prop where
  /-- A ping goes back. -/
  | echo (type : msg.header.id = .serverPing) : Effect view server matching client msg server
      [.send client msg]
  | greet (type : msg.header.id = .messageAll) : Effect view server matching client msg
      (server.messageAllClient view (idMsg .serverMessage (view client).id) (some client)).1
      (server.messageAllClient view (idMsg .serverMessage (view client).id) (some client)).2
  | list (type : msg.header.id = .clientList) : Effect view server matching client msg
      (server.getClientList view).2.1
      ((server.getClientList view).2.2 ++ [.send client (listMsg (server.getClientList view).1)])
  /-- Nobody has the id that is asked for. -/
  | unknown (id : UInt32) (rest : Message CustomMsgTypes) (type : msg.header.id = .requestToClient)
      (asks : msg.pop UInt32 = .ok (id, rest)) (absent : server.findClient view id = none) :
      Effect view server matching client msg server [.send client (idMsg .requestToClient 0)]
  /-- One of the two has a partner, or they are the same. -/
  | busy (id : UInt32) (rest : Message CustomMsgTypes) (receiver : ConnectionPtr)
      (type : msg.header.id = .requestToClient) (asks : msg.pop UInt32 = .ok (id, rest))
      (found : server.findClient view id = some receiver)
      (taken : (matching.partner (view client).id).isSome = true ∨
        (matching.partner id).isSome = true ∨ (view client).id = id) :
      Effect view server matching client msg server [.send client (idMsg .requestToClient 1)]
  | pair (id : UInt32) (rest : Message CustomMsgTypes) (receiver : ConnectionPtr)
      (type : msg.header.id = .requestToClient) (asks : msg.pop UInt32 = .ok (id, rest))
      (found : server.findClient view id = some receiver) (distinct : (view client).id ≠ id)
      (clientFree : matching.partner (view client).id = none)
      (idFree : matching.partner id = none) :
      Effect view server matching client msg
        (server.withPairs (matching.pair (view client).id id distinct clientFree idFree).partner)
        [.send receiver (idMsg .requestToClient (view client).id)]
  | relay (id : UInt32) (receiver : ConnectionPtr) (type : ForPartner msg.header.id)
      (paired : matching.partner (view client).id = some id)
      (found : server.findClient view id = some receiver) :
      Effect view server matching client msg server [.send receiver msg]
  /-- The partner is not in the deque any more. -/
  | drop (id : UInt32) (type : ForPartner msg.header.id)
      (paired : matching.partner (view client).id = some id)
      (absent : server.findClient view id = none) :
      Effect view server matching client msg server []
  /-- The socket of the partner is closed when a text is to be sent to it. -/
  | hangUp (id : UInt32) (receiver : ConnectionPtr) (type : msg.header.id = .textClient)
      (paired : matching.partner (view client).id = some id)
      (found : server.findClient view id = some receiver)
      (isClosed : (view receiver).isConnected = false) :
      Effect view server matching client msg
        (server.withPairs (matching.unpair (view client).id id paired).partner)
        [.send client closeMsg]
  | close (id : UInt32) (type : msg.header.id = .closeClient)
      (paired : matching.partner (view client).id = some id) :
      Effect view server matching client msg
        (server.withPairs (matching.unpair (view client).id id paired).partner)
        (server.sendToId view id closeMsg)
  | ignore (type : msg.header.id = .serverAccept ∨ msg.header.id = .serverDeny ∨
      msg.header.id = .serverMessage ∨ ∃ value large, msg.header.id = .unnamed value large) :
      Effect view server matching client msg server []

/-- Pairs are unordered. -/
theorem unpair_comm {first second : UInt32} (paired : matching.partner first = some second) :
    (matching.unpair second first (matching.symmetric _ _ paired)).partner =
      (matching.unpair first second paired).partner := by
  simp only [Matching.unpair]
  exact Function.update_comm (matching.ne_of_partner paired).symm none none matching.partner

/-- Requests. -/
theorem requestToClient_effect (represents : server.clientConnections = matching.partner)
    {id : UInt32} {rest : Message CustomMsgTypes} (type : msg.header.id = .requestToClient)
    (asks : msg.pop UInt32 = .ok (id, rest)) :
    Effect view server matching client msg (server.requestToClient view client id).1
      (server.requestToClient view client id).2 := by
  cases found : server.findClient view id with
  | none =>
      simp only [requestToClient, found]
      exact .unknown id rest type asks found
  | some receiver =>
      rcases connectClients_cases represents (view client).id id with
        ⟨distinct, clientFree, idFree, paired⟩ | ⟨refused, taken⟩
      · simp only [requestToClient, found, paired]
        exact .pair id rest receiver type asks found distinct clientFree idFree
      · simp only [requestToClient, found, refused]
        exact .busy id rest receiver type asks found taken

/-- Texts of a client that has a partner. -/
theorem relayText_effect (represents : server.clientConnections = matching.partner)
    {id : UInt32} {after : CustomServer} {calls : List Call} (type : msg.header.id = .textClient)
    (paired : matching.partner (view client).id = some id)
    (done : relayText view client msg id server.dequeConnections server = .ok (after, calls)) :
    Effect view server matching client msg after calls := by
  have isKey : (server.clientConnections (view client).id).isSome = true := by
    rw [represents, paired]
    rfl
  cases split : holders view server.dequeConnections id with
  | nil =>
      rw [relayText_of_none split] at done
      cases done
      refine .drop id (.inl type) paired ?_
      rw [findClient_eq_head?, split]
      rfl
  | cons first more =>
      have found : server.findClient view id = some first := by
        rw [findClient_eq_head?, split]
        rfl
      cases isConnected : (view first).isConnected with
      | true =>
          rw [relayText_of_open split isKey isConnected] at done
          cases done
          exact .relay id first (.inl type) paired found
      | false =>
          have back := matching.symmetric _ _ paired
          obtain ⟨rest, tail, onClosed⟩ : ∃ rest, holders view rest id = more ∧
              relayText view client msg id server.dequeConnections server = _ :=
            relayText_of_closed split isConnected
          rw [onClosed, disconnectClients_of_paired represents back, unpair_comm paired] at done
          change (relayText view client msg id rest
            (server.withPairs (matching.unpair (view client).id id paired).partner) >>= _) = _
              at done
          cases more with
          | nil =>
              rw [relayText_of_none tail] at done
              cases done
              exact .hangUp id first type paired found isConnected
          | cons second others =>
              rw [relayText_unpaired tail (by simp [Matching.unpair, Function.update_apply])
                (by simp [Matching.unpair])] at done
              cases done

/-- **A handler that returns has one of the effects.** -/
theorem onMessage_effect (represents : server.clientConnections = matching.partner)
    {after : CustomServer} {calls : List Call}
    (done : server.onMessage view client msg = .ok (after, calls)) :
    Effect view server matching client msg after calls := by
  simp only [onMessage] at done
  cases type : msg.header.id with
  | serverPing => rw [type] at done; cases done; exact .echo type
  | messageAll => rw [type] at done; cases done; exact .greet type
  | clientList => rw [type] at done; cases done; exact .list type
  | requestToClient =>
      rw [type] at done
      cases asks : msg.pop UInt32 with
      | error fault => rw [asks] at done; cases done
      | ok extracted =>
          rw [asks] at done
          have same : server.requestToClient view client extracted.1 = (after, calls) :=
            Except.ok.inj done
          have effect : Effect view server matching client msg _ _ :=
            requestToClient_effect represents type asks
          rwa [same] at effect
  | textClient =>
      rw [type] at done
      cases found : server.clientConnections (view client).id with
      | none => rw [ConnectionMap.atKey_of_none found] at done; cases done
      | some id =>
          rw [ConnectionMap.atKey_of_some found] at done
          exact relayText_effect represents type (represents ▸ found) done
  | requestAnswer =>
      rw [type] at done
      cases found : server.clientConnections (view client).id with
      | none => rw [ConnectionMap.atKey_of_none found] at done; cases done
      | some id =>
          have paired : matching.partner (view client).id = some id := represents ▸ found
          rw [ConnectionMap.atKey_of_some found] at done
          cases done
          cases receives : server.findClient view id with
          | none =>
              simp only [sendToId, receives]
              exact .drop id (.inr type) paired receives
          | some receiver =>
              simp only [sendToId, receives]
              exact .relay id receiver (.inr type) paired receives
  | closeClient =>
      rw [type] at done
      cases found : server.clientConnections (view client).id with
      | none => rw [ConnectionMap.atKey_of_none found] at done; cases done
      | some id =>
          have paired : matching.partner (view client).id = some id := represents ▸ found
          rw [ConnectionMap.atKey_of_some found] at done
          change (server.disconnectClients (view client).id id >>= _) = _ at done
          rw [disconnectClients_of_paired represents paired] at done
          cases done
          exact .close id type paired
  | serverAccept => rw [type] at done; cases done; exact .ignore (.inl type)
  | serverDeny => rw [type] at done; cases done; exact .ignore (.inr (.inl type))
  | serverMessage => rw [type] at done; cases done; exact .ignore (.inr (.inr (.inl type)))
  | unnamed value large =>
      rw [type] at done
      cases done
      exact .ignore (.inr (.inr (.inr ⟨value, large, type⟩)))

/-! ## What follows for the map -/

/-- A pair that is new after a handler was made by a request of one of the two, neither
of which had a partner. -/
theorem Effect.new_pair {after : CustomServer} {calls : List Call}
    (represents : server.clientConnections = matching.partner)
    (effect : Effect view server matching client msg after calls) {first second : UInt32}
    (paired : after.clientConnections first = some second)
    (new : server.clientConnections first ≠ some second) :
    ∃ id rest, msg.header.id = .requestToClient ∧ msg.pop UInt32 = .ok (id, rest) ∧
      ((first = (view client).id ∧ second = id) ∨ (first = id ∧ second = (view client).id)) ∧
        server.clientConnections first = none ∧ server.clientConnections second = none := by
  rw [represents] at new ⊢
  cases effect with
  | pair id rest receiver type asks found distinct clientFree idFree =>
      refine ⟨id, rest, type, asks, ?_⟩
      simp only [withPairs, Matching.pair, Function.update_apply] at paired
      split at paired
      case isTrue isId =>
        subst isId
        cases paired
        exact ⟨.inr ⟨rfl, rfl⟩, idFree, clientFree⟩
      case isFalse =>
        split at paired
        case isTrue isClient =>
          subst isClient
          cases paired
          exact ⟨.inl ⟨rfl, rfl⟩, clientFree, idFree⟩
        case isFalse => exact absurd paired new
  | hangUp id receiver type was found isClosed =>
      simp only [withPairs, Matching.unpair, Function.update_apply] at paired
      split at paired
      · cases paired
      · split at paired
        · cases paired
        · exact absurd paired new
  | close id type was =>
      simp only [withPairs, Matching.unpair, Function.update_apply] at paired
      split at paired
      · cases paired
      · split at paired
        · cases paired
        · exact absurd paired new
  | _ => exact absurd (represents ▸ paired) new

end CustomServer

end NetworkChat
