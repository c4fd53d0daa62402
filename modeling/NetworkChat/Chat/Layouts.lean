import NetworkChat.Chat.Client
import NetworkChat.Client.Extraction
import NetworkChat.Foundation.Exchange
import NetworkChat.Message.Stack
import NetworkChat.Server.System

/-!
# What the messages say

Clients write `Said` and read `Told`; the server reads the one and writes the other. Each is
laid out in a message by the program that writes it (`Said.message`, `Told.message`), and the
other program takes it apart again.

The same exchange is run on what is meant (`spoken`) and on the messages (`written`). Every run
on the messages is the run on what is meant, laid out (`layouts_agree`): whatever `operator>>`
is executed on either side, the body is long enough for it, and it yields what the sender
put in.
-/

set_option autoImplicit false

namespace NetworkChat

open Foundation

/-! ## The messages of a client -/

namespace CustomClient

/-- `PingServer`. -/
def pingServer (timeNow : TimePoint) : Message CustomMsgTypes :=
  (Message.ofType .serverPing).push timeNow

/-- `MessageAll`. -/
def messageAll : Message CustomMsgTypes := .ofType .messageAll

/-- `GetClientList`. -/
def getClientList : Message CustomMsgTypes := .ofType .clientList

end CustomClient

/-- A text that fits into a body together with its length word. -/
structure Text where
  bytes : List UInt8
  fits : bytes.length + FixedLayout.size UInt64 ≤ Message.maxStringSize

/-- What a client says to the server. -/
inductive Said where
  | serverPing (timeNow : TimePoint)
  | messageAll
  | clientList
  | requestToClient (id : UInt32)
  | textClient (text : Text)
  | requestAnswer (accepted : Bool)
  | closeClient

/-- The message in which a client says it (`Client.cpp`). -/
def Said.message : Said → Message CustomMsgTypes
  | .serverPing timeNow => CustomClient.pingServer timeNow
  | .messageAll => CustomClient.messageAll
  | .clientList => CustomClient.getClientList
  | .requestToClient id => CustomClient.connectRequest id
  | .textClient text => CustomClient.sendToClient text.bytes
  | .requestAnswer accepted => CustomClient.requestAnswer accepted
  | .closeClient => CustomClient.closeClient

/-- What a client is told by the server. -/
inductive Told where
  | serverAccept (id : UInt32)
  | serverPing (timeNow : TimePoint)
  | serverMessage (id : UInt32)
  | clientList (ids : List UInt32)
  /-- A code, or the id of another client. -/
  | requestToClient (id : UInt32)
  | textClient (text : Text)
  | requestAnswer (accepted : Bool)
  | closeClient

/-- The message in which a client is told it (`Server.cpp`). A ping, a text and an answer are
the message of the client that wrote it. -/
def Told.message : Told → Message CustomMsgTypes
  | .serverAccept id => CustomServer.idMsg .serverAccept id
  | .serverPing timeNow => CustomClient.pingServer timeNow
  | .serverMessage id => CustomServer.idMsg .serverMessage id
  | .clientList ids => CustomServer.listMsg ids
  | .requestToClient id => CustomServer.idMsg .requestToClient id
  | .textClient text => CustomClient.sendToClient text.bytes
  | .requestAnswer accepted => CustomClient.requestAnswer accepted
  | .closeClient => CustomServer.closeMsg

/-- The ids with their places, counted from one, the last one first. -/
def countdown (ids : List UInt32) : List (ℕ × UInt32) :=
  (ids.mapIdx fun place id => (place + 1, id)).reverse

/-- What `ExecuteMessages` is to extract. -/
def Told.received : Told → Received
  | .serverAccept id => .serverAccept id
  | .serverPing timeNow => .serverPing timeNow
  | .serverMessage id => .serverMessage id
  | .clientList ids => .clientList (countdown ids)
  | .requestToClient id => .requestToClient id
  | .textClient text => .textClient text.bytes
  | .requestAnswer accepted => .requestAnswer (if accepted then 1 else 0)
  | .closeClient => .closeClient

/-- Number `i` of the list is the `i`-th id. -/
theorem mem_countdown_iff {ids : List UInt32} {place : ℕ} {id : UInt32} :
    (place + 1, id) ∈ countdown ids ↔ ids[place]? = some id := by
  rw [countdown, List.mem_reverse, List.mem_mapIdx]
  constructor
  · rintro ⟨other, known, same⟩
    obtain ⟨here, isId⟩ := Prod.mk.inj same
    obtain rfl : other = place := Nat.succ.inj here
    rw [List.getElem?_eq_getElem known, isId]
  · intro found
    obtain ⟨known, isId⟩ := List.getElem?_eq_some_iff.mp found
    exact ⟨place, known, by rw [isId]⟩

theorem countdown_concat (ids : List UInt32) (id : UInt32) :
    countdown (ids ++ [id]) = (ids.length + 1, id) :: countdown ids := by
  rw [countdown, List.mapIdx_concat, List.reverse_append, List.reverse_singleton]
  rfl

/-! ## What a client extracts -/

/-- The value at the tail of a body. -/
theorem pop_of_body {Data : Type} [FixedLayout Data] {msg : Message CustomMsgTypes}
    {below : List UInt8} {data : Data} (body : msg.body = below ++ toBytes data) :
    msg.pop Data = .ok (data, msg.resized below) := by
  have length : msg.body.length - FixedLayout.size Data = below.length := by
    rw [body, List.length_append, FixedLayout.length_toBytes, Nat.add_sub_cancel]
  have enough : FixedLayout.size Data ≤ msg.body.length := by
    rw [body, List.length_append, FixedLayout.length_toBytes]
    exact Nat.le_add_left _ _
  rw [Message.pop_eq, if_pos enough, length, body, List.drop_left, List.take_left,
    FixedLayout.ofBytes_toBytes]

theorem body_foldl_push (ids : List UInt32) (msg : Message CustomMsgTypes) :
    (ids.foldl Message.push msg).body = msg.body ++ ids.flatMap toBytes := by
  induction ids generalizing msg with
  | nil => rw [List.foldl_nil, List.flatMap_nil, List.append_nil]
  | cons id ids ih =>
      rw [List.foldl_cons, ih, List.flatMap_cons, ← List.append_assoc]
      rfl

theorem length_flatMap_ids (ids : List UInt32) : (ids.flatMap toBytes).length = 4 * ids.length := by
  induction ids with
  | nil => rfl
  | cons id ids ih =>
      rw [List.flatMap_cons, List.length_append, ih, FixedLayout.length_toBytes, size_uint32,
        List.length_cons]
      omega

/-- **The loop from `listSize` down to one finds the ids from the last to the first.** -/
theorem readClientList_eq (ids : List UInt32) {msg : Message CustomMsgTypes}
    (body : msg.body = ids.flatMap toBytes) :
    readClientList ids.length msg = .ok (countdown ids) := by
  induction ids using List.reverseRecOn generalizing msg with
  | nil => rfl
  | append_singleton ids id ih =>
      have tail : msg.body = ids.flatMap toBytes ++ toBytes id := by
        rw [body, List.flatMap_append, List.flatMap_singleton]
      have rest : readClientList ids.length (msg.resized (ids.flatMap toBytes)) =
          .ok (countdown ids) := ih rfl
      rw [List.length_append, List.length_singleton, readClientList, pop_of_body tail]
      change (readClientList ids.length (msg.resized (ids.flatMap toBytes)) >>= _) = _
      rw [rest, countdown_concat]
      rfl

/-- **What a client is told is what it extracts.** -/
theorem readMessage_message (told : Told) : readMessage told.message = .ok told.received := by
  cases told with
  | serverAccept id =>
      change (Message.pop UInt32 (CustomServer.idMsg .serverAccept id) >>= _) = _
      rw [CustomServer.idMsg, Message.pop_push]
      rfl
  | serverPing timeNow =>
      change (Message.pop TimePoint (CustomClient.pingServer timeNow) >>= _) = _
      rw [CustomClient.pingServer, Message.pop_push]
      rfl
  | serverMessage id =>
      change (Message.pop UInt32 (CustomServer.idMsg .serverMessage id) >>= _) = _
      rw [CustomServer.idMsg, Message.pop_push]
      rfl
  | clientList ids =>
      have body : (CustomServer.listMsg ids).body = ids.flatMap toBytes := body_foldl_push ids _
      have count : (CustomServer.listMsg ids).size / FixedLayout.size UInt32 = ids.length := by
        rw [Message.size, body, length_flatMap_ids, size_uint32]
        omega
      have list : (CustomServer.listMsg ids).header.id = .clientList := id_listMsg ids
      simp only [Told.message, readMessage, list, count, readClientList_eq ids body]
      rfl
  | requestToClient id =>
      change (Message.pop UInt32 (CustomServer.idMsg .requestToClient id) >>= _) = _
      rw [CustomServer.idMsg, Message.pop_push]
      rfl
  | textClient text =>
      have word : text.bytes.length < 2 ^ 64 := by
        have fits := text.fits
        rw [Message.maxStringSize] at fits
        omega
      have room : ([] : List UInt8).length + text.bytes.length ≤ Message.maxStringSize := by
        have fits := text.fits
        rw [List.length_nil]
        omega
      change (Message.popString (CustomClient.sendToClient text.bytes) [] >>= _) = _
      rw [CustomClient.sendToClient, Message.popString,
        Message.popStringWithin_pushString _ word room, List.nil_append]
      rfl
  | requestAnswer accepted =>
      change (Message.pop CInt (CustomClient.requestAnswer accepted) >>= _) = _
      rw [CustomClient.requestAnswer, Message.pop_push]
      rfl
  | closeClient => rfl

/-! ## What the server does with what is said -/

namespace CustomServer

variable (view : ConnectionPtr → Peer)

/-- The loop of `case TextClient`. -/
def relaySaid (client : ConnectionPtr) (text : Text) (id : UInt32) :
    List ConnectionPtr → CustomServer → Except Fault (CustomServer × List (ConnectionPtr × Told))
  | [], server => .ok (server, [])
  | client_ :: rest, server =>
      if (view client_).id = id then
        if 0 < server.clientConnections.count (view client).id ∧ (view client_).isConnected then
          .ok (server, [(client_, .textClient text)])
        else do
          let server ← server.disconnectClients id (view client).id
          let (server, sends) ← relaySaid client text id rest server
          return (server, (client, .closeClient) :: sends)
      else relaySaid client text id rest server

/-- Tell the connection with the id, if the deque has one. -/
def tellId (server : CustomServer) (id : UInt32) (told : Told) : List (ConnectionPtr × Told) :=
  match server.findClient view id with
  | some client_ => [(client_, told)]
  | none => []

/-- `OnMessage` on what a client says: the server after it, and who is told what. -/
def onSaid (server : CustomServer) (client : ConnectionPtr) :
    Said → Except Fault (CustomServer × List (ConnectionPtr × Told))
  | .serverPing timeNow => .ok (server, [(client, .serverPing timeNow)])
  | .messageAll =>
      .ok ({ server with dequeConnections := prune view server.dequeConnections },
        server.dequeConnections.flatMap fun client_ =>
          if (view client_).isConnected then
            if client_ ≠ client then [(client_, .serverMessage (view client).id)] else []
          else [])
  | .clientList =>
      let (list, server, _) := server.getClientList view
      .ok (server, [(client, .clientList list)])
  | .requestToClient id =>
      match server.findClient view id with
      | some client_ =>
          match server.connectClients (view client).id id with
          | (true, server) => .ok (server, [(client_, .requestToClient (view client).id)])
          | (false, server) => .ok (server, [(client, .requestToClient 1)])
      | none => .ok (server, [(client, .requestToClient 0)])
  | .textClient text => do
      let id ← server.clientConnections.atKey (view client).id
      relaySaid view client text id server.dequeConnections server
  | .requestAnswer accepted => do
      let id ← server.clientConnections.atKey (view client).id
      return (server, server.tellId view id (.requestAnswer accepted))
  | .closeClient => do
      let id ← server.clientConnections.atKey (view client).id
      let sends := server.tellId view id .closeClient
      let server ← server.disconnectClients (view client).id id
      return (server, sends)

/-! ## The handlers agree -/

variable {view}

/-- The messages in which clients are told it. -/
def laidOut (sends : List (ConnectionPtr × Told)) : List Owned :=
  sends.map fun entry => (entry.1, entry.2.message)

/-- What a handler leaves behind and sends. -/
def outcome (result : Except Fault (CustomServer × List Call)) :
    Except Fault (CustomServer × List Owned) :=
  result.map fun done => (done.1, sendsOf done.2)

/-- What a handler leaves behind and tells, laid out. -/
def outcomeSaid (result : Except Fault (CustomServer × List (ConnectionPtr × Told))) :
    Except Fault (CustomServer × List Owned) :=
  result.map fun done => (done.1, laidOut done.2)

theorem relaySaid_laidOut (client : ConnectionPtr) (text : Text) (id : UInt32)
    (clients : List ConnectionPtr) (server : CustomServer) :
    outcome (relayText view client (Said.textClient text).message id clients server) =
      outcomeSaid (relaySaid view client text id clients server) := by
  induction clients generalizing server with
  | nil => rfl
  | cons client_ rest ih =>
      simp only [relayText, relaySaid]
      split
      · split
        · rfl
        · cases server.disconnectClients id (view client).id with
          | error fault => rfl
          | ok after =>
              have later := ih after
              change outcome (relayText _ _ _ _ _ _ >>= _) =
                outcomeSaid (relaySaid _ _ _ _ _ _ >>= _)
              cases relayed :
                  relayText view client (Said.textClient text).message id rest after with
              | error fault =>
                  rw [relayed] at later
                  cases said : relaySaid view client text id rest after with
                  | error other => rw [said] at later; cases later; rfl
                  | ok result => rw [said] at later; cases later
              | ok result =>
                  rw [relayed] at later
                  cases said : relaySaid view client text id rest after with
                  | error other => rw [said] at later; cases later
                  | ok told =>
                      rw [said] at later
                      obtain ⟨sameServer, sameSends⟩ := Prod.mk.inj (Except.ok.inj later)
                      change Except.ok (result.1, (client, closeMsg) :: sendsOf result.2) =
                        Except.ok (told.1, (client, closeMsg) :: laidOut told.2)
                      rw [sameServer, sameSends]
      · exact ih server

theorem tellId_laidOut (server : CustomServer) (id : UInt32) (told : Told) :
    sendsOf (server.sendToId view id told.message) = laidOut (server.tellId view id told) := by
  simp only [sendToId, tellId]
  cases server.findClient view id <;> rfl

/-- **What the server does with a message is what it does with what is said in it.** -/
theorem onMessage_message (server : CustomServer) (client : ConnectionPtr) (said : Said) :
    outcome (server.onMessage view client said.message) =
      outcomeSaid (server.onSaid view client said) := by
  cases said with
  | serverPing timeNow => rfl
  | messageAll =>
      have told : ∀ clients : List ConnectionPtr,
          (sendsOf (clients.flatMap fun client_ =>
            if (view client_).isConnected then
              if some client_ ≠ some client then
                [Call.send client_ (idMsg .serverMessage (view client).id)] else []
            else [.onClientDisconnect client_])) =
          laidOut (clients.flatMap fun client_ =>
            if (view client_).isConnected then
              if client_ ≠ client then [(client_, .serverMessage (view client).id)] else []
            else []) := by
        intro clients
        rw [sendsOf, laidOut, List.filterMap_flatMap, List.map_flatMap]
        congr 1
        funext client_
        by_cases isConnected : (view client_).isConnected = true
        · rw [if_pos isConnected, if_pos isConnected]
          by_cases same : client_ = client
          · simp [same]
          · simp [same, Call.send?, Told.message]
        · rw [if_neg isConnected, if_neg isConnected]
          rfl
      exact congrArg (fun sends => Except.ok (_, sends)) (told server.dequeConnections)
  | clientList =>
      have silent : ∀ clients : List ConnectionPtr, (sendsOf (clients.flatMap fun client =>
          if (view client).isConnected then [] else [Call.onClientDisconnect client])) = [] := by
        intro clients
        rw [sendsOf, List.filterMap_flatMap, List.flatMap_eq_nil_iff]
        intro other _
        split <;> rfl
      change Except.ok (_, sendsOf (server.dequeConnections.flatMap _ ++ [_])) = _
      rw [sendsOf, List.filterMap_append]
      change Except.ok (_, sendsOf (server.dequeConnections.flatMap _) ++ _) = _
      rw [silent]
      rfl
  | requestToClient id =>
      change outcome (Message.pop UInt32 (CustomClient.connectRequest id) >>= _) = _
      rw [CustomClient.connectRequest, Message.pop_push]
      change outcome (.ok (server.requestToClient view client id)) = _
      cases found : server.findClient view id with
      | none => simp only [requestToClient, onSaid, found]; rfl
      | some client_ =>
          rcases answer : server.connectClients (view client).id id with ⟨_ | _, after⟩
          · simp only [requestToClient, onSaid, found, answer]
            rfl
          · simp only [requestToClient, onSaid, found, answer]
            rfl
  | textClient text =>
      change outcome (server.clientConnections.atKey (view client).id >>= _) =
        outcomeSaid (server.clientConnections.atKey (view client).id >>= _)
      cases server.clientConnections.atKey (view client).id with
      | error fault => rfl
      | ok id => exact relaySaid_laidOut client text id _ server
  | requestAnswer accepted =>
      change outcome (server.clientConnections.atKey (view client).id >>= _) =
        outcomeSaid (server.clientConnections.atKey (view client).id >>= _)
      cases server.clientConnections.atKey (view client).id with
      | error fault => rfl
      | ok id =>
          change Except.ok (server, sendsOf _) = Except.ok (server, laidOut _)
          rw [← tellId_laidOut]
          rfl
  | closeClient =>
      change outcome (server.clientConnections.atKey (view client).id >>= _) =
        outcomeSaid (server.clientConnections.atKey (view client).id >>= _)
      cases server.clientConnections.atKey (view client).id with
      | error fault => rfl
      | ok id =>
          change outcome (server.disconnectClients (view client).id id >>= _) =
            outcomeSaid (server.disconnectClients (view client).id id >>= _)
          cases server.disconnectClients (view client).id id with
          | error fault => rfl
          | ok after =>
              change Except.ok (after, sendsOf _) = Except.ok (after, laidOut _)
              rw [← tellId_laidOut]
              rfl

end CustomServer

/-! ## The exchange -/

/-- What `OnMessage` extracts: the id of a request. -/
def extractId (msg : Message CustomMsgTypes) : Option (Except Fault UInt32) :=
  if msg.header.id = .requestToClient then some ((msg.pop UInt32).map Prod.fst) else none

def Said.id : Said → Option UInt32
  | .requestToClient id => some id
  | _ => none

namespace Hall

/-- A client connects, and `OnClientConnect` sends its id to it. -/
def welcome {Down : Type} (greeting : UInt32 → Down) (hall : Hall) : Hall × ConnectionPtr × Down :=
  (hall.accept, hall.peers.length, greeting hall.server.nIDCounter)

/-- `Update` handles a message, and ends with what leaves `OnMessage`. -/
def after {Down : Type} (hall : Hall) :
    Except Fault (CustomServer × List (ConnectionPtr × Down)) → Hall × List (ConnectionPtr × Down)
  | .ok (server, sends) => ({ hall with server }, sends)
  | .error fault => ({ hall with aborted := some fault }, [])

end Hall

/-- The clients and the server on messages. -/
def written : Conduct Hall ConnectionPtr Said (Message CustomMsgTypes) (Message CustomMsgTypes)
    (Option (Except Fault UInt32)) (Except Fault Received) where
  say said := said.message
  isRunning hall := hall.aborted.isNone
  knows hall client := decide (client < hall.peers.length)
  join := Hall.welcome (CustomServer.idMsg .serverAccept)
  close := Hall.close
  extract := extractId
  handle hall client msg :=
    hall.after (CustomServer.outcome (hall.server.onMessage hall.view client msg))
  read := readMessage

/-- The clients and the server on what is meant. -/
def spoken : Conduct Hall ConnectionPtr Said Said Told (Option UInt32) Received where
  say said := said
  isRunning hall := hall.aborted.isNone
  knows hall client := decide (client < hall.peers.length)
  join := Hall.welcome .serverAccept
  close := Hall.close
  extract := Said.id
  handle hall client said := hall.after (hall.server.onSaid hall.view client said)
  read := Told.received

/-- The server handles a message of the exchange as the hall does. -/
theorem handle_written (hall : Hall) (client : ConnectionPtr) (msg : Message CustomMsgTypes) :
    (written.handle hall client msg).1 = hall.handle client msg := by
  simp only [written, Hall.handle]
  cases hall.server.onMessage hall.view client msg with
  | ok result => rfl
  | error fault => rfl

theorem extractId_message (said : Said) : extractId said.message = said.id.map Except.ok := by
  cases said with
  | requestToClient id =>
      change some ((Message.pop UInt32 (CustomClient.connectRequest id)).map Prod.fst) = _
      rw [CustomClient.connectRequest, Message.pop_push]
      rfl
  | _ => rfl

/-- The messages lay out what is meant. -/
theorem written_codes :
    Exchange.Codes spoken written Said.message Told.message (Option.map Except.ok) Except.ok where
  say _ := rfl
  isRunning := rfl
  knows := rfl
  join _ := rfl
  close := rfl
  extract := extractId_message
  handle hall client said := by
    simp only [written, spoken, CustomServer.onMessage_message, CustomServer.outcomeSaid]
    cases hall.server.onSaid hall.view client said with
    | ok result => rfl
    | error fault => rfl
  read := readMessage_message

/-- **Client and server agree on every layout**: whatever clients join, say, read and lose, and
whatever the server handles, the run on messages is the run on what is meant. So every
extraction on either side succeeds, and yields what the sender put in. -/
theorem layouts_agree (events : List (Exchange.Event ConnectionPtr Said)) :
    runFrom (Exchange.step written) (Exchange.start Hall.start) events =
      (runFrom (Exchange.step spoken) (Exchange.start Hall.start) events).map
        (Exchange.map Said.message Told.message (Option.map Except.ok) Except.ok) :=
  Exchange.run_map written_codes (Exchange.start Hall.start) events

/-- Two clients join, and the second asks for the list. -/
def listAsked : List (Exchange.Event ConnectionPtr Said) :=
  [.join, .join, .say 1 .clientList, .serve 1, .read 1, .read 1]

example : (runFrom (Exchange.step written) (Exchange.start Hall.start) listAsked).map (·.got) =
    some [(1, .ok (.serverAccept 10001)), (1, .ok (.clientList [(2, 10001), (1, 10000)]))] := by
  decide

end NetworkChat
