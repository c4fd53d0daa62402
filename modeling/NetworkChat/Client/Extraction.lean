import NetworkChat.Client.Handlers
import NetworkChat.Server.Sends

/-!
# Extractions from messages of a peer

The bytes of a body come from a peer, and the server relays the bodies of texts,
answers and pings as they are. `operator>>` checks nothing, so both ends read outside
the body exactly when it does not hold the data of its type
(`onMessage_inside_iff`, `executeMessage_inside_iff`). What the server sends of its
own holds its data (`CustomServer.onMessage_calls`).
-/

set_option autoImplicit false

namespace NetworkChat

open Foundation

/-- The fault is that of an extraction: bytes outside the body are read, or the
target cannot grow to the length that the body declares. -/
def Fault.ofExtraction : Fault → Bool
  | .outOfBounds => true
  | .lengthError => true
  | _ => false

/-- Every extraction that is executed reads inside the body. -/
def StaysInside {Result : Type} (result : Except Fault Result) : Prop :=
  ∀ fault, result = .error fault → fault.ofExtraction = false

theorem staysInside_ok {Result : Type} (value : Result) :
    StaysInside (.ok value : Except Fault Result) := nofun

/-- What comes after an extraction does not change whether it stays inside, when it
executes no other. -/
theorem staysInside_bind_iff {First Second : Type} {result : Except Fault First}
    {next : First → Except Fault Second} (rest : ∀ value, StaysInside (next value)) :
    StaysInside (result >>= next) ↔ StaysInside result := by
  cases result with
  | error fault =>
      constructor
      · rintro inside _ ⟨⟩
        exact inside fault rfl
      · rintro inside _ ⟨⟩
        exact inside fault rfl
  | ok value => exact iff_of_true (rest value) (staysInside_ok value)

/-! ## Extractions -/

theorem staysInside_pop_iff {Data : Type} [FixedLayout Data] (msg : Message CustomMsgTypes) :
    StaysInside (msg.pop Data) ↔ FixedLayout.size Data ≤ msg.body.length := by
  rw [Message.pop_eq]
  by_cases enough : FixedLayout.size Data ≤ msg.body.length
  · rw [if_pos enough]
    exact iff_of_true (staysInside_ok _) enough
  · rw [if_neg enough]
    exact iff_of_false (fun inside => absurd (inside _ rfl) (by decide)) enough

/-- A string extraction, in a library whose strings may be as long as the body. -/
theorem staysInside_popStringWithin_iff {limit : ℕ} {msg : Message CustomMsgTypes}
    (bounded : msg.body.length ≤ limit) :
    StaysInside (msg.popStringWithin limit []) ↔ Message.HoldsString msg.body := by
  rw [← Message.popStringWithin_isOk_iff bounded]
  by_cases enough : 8 ≤ msg.body.length
  · rw [Message.popStringWithin_eq limit enough]
    split
    · exact iff_of_false (fun inside => absurd (inside _ rfl) (by decide)) (by decide)
    · split
      · exact iff_of_true (staysInside_ok _) rfl
      · exact iff_of_false (fun inside => absurd (inside _ rfl) (by decide)) (by decide)
  · rw [Message.popStringWithin_of_short limit enough]
    exact iff_of_false (fun inside => absurd (inside _ rfl) (by decide)) (by decide)

/-! ## The client -/

/-- The body holds the data that a client extracts from a message of its type. -/
def HoldsClientData (msg : Message CustomMsgTypes) : Prop :=
  match msg.header.id with
  | .serverPing => FixedLayout.size TimePoint ≤ msg.body.length
  | .serverMessage => FixedLayout.size UInt32 ≤ msg.body.length
  | .serverAccept => FixedLayout.size UInt32 ≤ msg.body.length
  | .requestToClient => FixedLayout.size UInt32 ≤ msg.body.length
  | .textClient => Message.HoldsString msg.body
  | .requestAnswer => FixedLayout.size CInt ≤ msg.body.length
  | _ => True

instance (msg : Message CustomMsgTypes) : Decidable (HoldsClientData msg) := by
  unfold HoldsClientData
  exact match msg.header.id with
    | .serverPing | .serverMessage | .serverAccept | .requestToClient | .requestAnswer =>
        Nat.decLe _ _
    | .textClient => inferInstanceAs (Decidable (Message.HoldsString _))
    | .serverDeny | .messageAll | .clientList | .closeClient | .unnamed _ _ => instDecidableTrue

/-- The loop extracts no more ids than the body holds. -/
theorem staysInside_readClientList {count : ℕ} {msg : Message CustomMsgTypes}
    (enough : count * FixedLayout.size UInt32 ≤ msg.body.length) :
    StaysInside (readClientList count msg) := by
  induction count generalizing msg with
  | zero => exact staysInside_ok _
  | succ count ih =>
      rw [Nat.succ_mul] at enough
      have here : FixedLayout.size UInt32 ≤ msg.body.length := by omega
      rw [readClientList, Message.pop_eq, if_pos here]
      change StaysInside (readClientList count _ >>= _)
      refine (staysInside_bind_iff fun _ => staysInside_ok _).mpr ?_
      apply ih
      change count * FixedLayout.size UInt32 ≤ (msg.body.take _).length
      rw [List.length_take]
      omega

theorem readMessage_inside_iff {msg : Message CustomMsgTypes}
    (bounded : msg.header.id = .textClient → msg.body.length ≤ Message.maxStringSize) :
    StaysInside (readMessage msg) ↔ HoldsClientData msg := by
  simp only [readMessage, HoldsClientData]
  cases type : msg.header.id with
  | serverPing =>
      exact (staysInside_bind_iff fun _ => staysInside_ok _).trans (staysInside_pop_iff msg)
  | serverMessage =>
      exact (staysInside_bind_iff fun _ => staysInside_ok _).trans (staysInside_pop_iff msg)
  | serverAccept =>
      exact (staysInside_bind_iff fun _ => staysInside_ok _).trans (staysInside_pop_iff msg)
  | requestToClient =>
      exact (staysInside_bind_iff fun _ => staysInside_ok _).trans (staysInside_pop_iff msg)
  | requestAnswer =>
      exact (staysInside_bind_iff fun _ => staysInside_ok _).trans (staysInside_pop_iff msg)
  | textClient =>
      exact (staysInside_bind_iff fun _ => staysInside_ok _).trans
        (staysInside_popStringWithin_iff (bounded type))
  | clientList =>
      refine iff_of_true ?_ trivial
      refine (staysInside_bind_iff fun _ => staysInside_ok _).mpr ?_
      exact staysInside_readClientList (Nat.div_mul_le_self _ _)
  | closeClient => exact iff_of_true (staysInside_ok _) trivial
  | serverDeny => exact iff_of_true (staysInside_ok _) trivial
  | messageAll => exact iff_of_true (staysInside_ok _) trivial
  | unnamed value large => exact iff_of_true (staysInside_ok _) trivial

/-- **A client stays inside the body exactly when the body holds the data of its
type.** -/
theorem executeMessage_inside_iff (client : CustomClient) {msg : Message CustomMsgTypes}
    (bounded : msg.header.id = .textClient → msg.body.length ≤ Message.maxStringSize) :
    StaysInside (client.executeMessage msg) ↔ HoldsClientData msg :=
  (staysInside_bind_iff fun _ => staysInside_ok _).trans (readMessage_inside_iff bounded)

/-! ## The server -/

section Server

variable {view : ConnectionPtr → Peer} {client : ConnectionPtr} {msg : Message CustomMsgTypes}

theorem staysInside_atKey (map : ConnectionMap) (key : UInt32) : StaysInside (map.atKey key) := by
  simp only [ConnectionMap.atKey]
  split
  · rintro _ ⟨⟩
    rfl
  · exact staysInside_ok _

theorem staysInside_disconnectClients (server : CustomServer) (clientA clientB : UInt32) :
    StaysInside (server.disconnectClients clientA clientB) := by
  have erase : ∀ (map : ConnectionMap) key, StaysInside (map.eraseFound key) := by
    intro map key
    simp only [ConnectionMap.eraseFound]
    split
    · rintro _ ⟨⟩
      rfl
    · exact staysInside_ok _
  refine (staysInside_bind_iff ?_).mpr (erase _ _)
  intro map
  exact (staysInside_bind_iff fun _ => staysInside_ok _).mpr (erase _ _)

theorem staysInside_relayText (id : UInt32) (clients : List ConnectionPtr)
    (server : CustomServer) :
    StaysInside (CustomServer.relayText view client msg id clients server) := by
  induction clients generalizing server with
  | nil => exact staysInside_ok _
  | cons client_ rest ih =>
      simp only [CustomServer.relayText]
      split
      · split
        · exact staysInside_ok _
        · refine (staysInside_bind_iff ?_).mpr (staysInside_disconnectClients _ _ _)
          intro server
          exact (staysInside_bind_iff fun _ => staysInside_ok _).mpr (ih server)
      · exact ih server

/-- **The server stays inside the body exactly when the body of a request holds an
id.** -/
theorem onMessage_inside_iff (server : CustomServer) :
    StaysInside (server.onMessage view client msg) ↔ CustomServer.LongEnough msg := by
  simp only [CustomServer.onMessage, CustomServer.LongEnough]
  cases type : msg.header.id with
  | requestToClient =>
      refine (staysInside_bind_iff fun _ => staysInside_ok _).trans ?_
      rw [staysInside_pop_iff]
      exact ⟨fun enough _ => enough, fun enough => enough rfl⟩
  | textClient =>
      refine iff_of_true ?_ (by simp)
      refine (staysInside_bind_iff fun _ => staysInside_relayText _ _ _).mpr ?_
      exact staysInside_atKey _ _
  | requestAnswer =>
      refine iff_of_true ?_ (by simp)
      refine (staysInside_bind_iff fun _ => staysInside_ok _).mpr ?_
      exact staysInside_atKey _ _
  | closeClient =>
      refine iff_of_true ?_ (by simp)
      refine (staysInside_bind_iff ?_).mpr (staysInside_atKey _ _)
      intro id
      refine (staysInside_bind_iff fun _ => staysInside_ok _).mpr ?_
      exact staysInside_disconnectClients _ _ _
  | serverAccept => exact iff_of_true (staysInside_ok _) (by simp)
  | serverDeny => exact iff_of_true (staysInside_ok _) (by simp)
  | serverPing => exact iff_of_true (staysInside_ok _) (by simp)
  | messageAll => exact iff_of_true (staysInside_ok _) (by simp)
  | serverMessage => exact iff_of_true (staysInside_ok _) (by simp)
  | clientList => exact iff_of_true (staysInside_ok _) (by simp)
  | unnamed value large => exact iff_of_true (staysInside_ok _) (by simp)

/-! ## Both ends -/

/-- A message that the server builds holds the data of its type. -/
theorem holdsClientData_of_serverBuilt {sent : Message CustomMsgTypes}
    (built : CustomServer.ServerBuilt sent) :
    sent.header.id ≠ .textClient ∧ HoldsClientData sent := by
  cases built with
  | serverAccept id => exact ⟨nofun, (FixedLayout.length_toBytes id).ge⟩
  | serverMessage id => exact ⟨nofun, (FixedLayout.length_toBytes id).ge⟩
  | requestToClient id => exact ⟨nofun, (FixedLayout.length_toBytes id).ge⟩
  | closeClient => exact ⟨nofun, trivial⟩

theorem id_listMsg (ids : List UInt32) : (CustomServer.listMsg ids).header.id = .clientList := by
  suffices kept : ∀ msg : Message CustomMsgTypes,
      (ids.foldl Message.push msg).header.id = msg.header.id from kept _
  induction ids with
  | nil => exact fun _ => rfl
  | cons id ids ih => exact fun msg => ih (msg.push id)

theorem holdsClientData_listMsg (ids : List UInt32) :
    HoldsClientData (CustomServer.listMsg ids) := by
  rw [HoldsClientData, id_listMsg]
  exact trivial

/-- Every extraction from the message of a peer, and from what the server sends for it,
stays inside the body, whatever client gets it. -/
structure HandledInside (view : ConnectionPtr → Peer) (server : CustomServer)
    (client : ConnectionPtr) (msg : Message CustomMsgTypes) : Prop where
  handler : StaysInside (server.onMessage view client msg)
  readers : ∀ after calls receiver sent (reader : CustomClient),
    server.onMessage view client msg = .ok (after, calls) → .send receiver sent ∈ calls →
      StaysInside (reader.executeMessage sent)

/-- Two clients that are paired. -/
def pairedClients : CustomServer where
  dequeConnections := [0, 1]
  nIDCounter := 10002
  clientConnections id := if id = 10000 then some 10001 else if id = 10001 then some 10000 else none

def pairedView (client : ConnectionPtr) : Peer := ⟨10000 + UInt32.ofNat client, true⟩

end Server

end NetworkChat
