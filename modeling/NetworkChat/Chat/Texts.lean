import NetworkChat.Chat.Layouts
import NetworkChat.Chat.Room

/-!
# The texts of a chat

A line typed in a chat is sent by the thread of the user, sent on by the server to the partner that
the writer has when its message is handled, and printed by `ExecuteMessages` of the reader
(`Passage`). Between these it waits in a queue.

The server sends on every text that it handles, to one client and unchanged, and it sends no text of
its own (`Honest.sentTexts_eq`). So as long as the server runs, every text that was typed has been
sent on once or waits to be, in the order in which its writer typed it; and every text sent on to a
client was printed there once or waits to be, in the order in which they were sent on
(`texts_in_order`). What a client has seen of another are lines of it, none twice and none before an
earlier one (`shown_of_typed`).
-/

set_option autoImplicit false

namespace NetworkChat

open Foundation

open ChatClient (Wrote)

/-! ## Texts -/

/-- The text that `ExecuteMessages` prints for a message. -/
def textOf (msg : Message CustomMsgTypes) : Option (List UInt8) :=
  match readMessage msg with
  | .ok (.textClient text) => some text
  | _ => none

/-- The line fits into a body together with its length word. -/
def ShortLine (data : List UInt8) : Prop :=
  data.length + FixedLayout.size UInt64 ≤ Message.maxStringSize

instance decidableShortLine (data : List UInt8) : Decidable (ShortLine data) :=
  inferInstanceAs (Decidable (_ ≤ _))

/-- A line is printed as it was typed. -/
theorem textOf_sendToClient {data : List UInt8} (short : ShortLine data) :
    textOf (CustomClient.sendToClient data) = some data := by
  have reads : readMessage (CustomClient.sendToClient data) = .ok (.textClient data) :=
    readMessage_message (.textClient ⟨data, short⟩)
  simp only [textOf, reads]

/-- Only messages of one type have a text. -/
theorem textOf_of_type {msg : Message CustomMsgTypes} (other : msg.header.id ≠ .textClient) :
    textOf msg = none := by
  cases type : msg.header.id with
  | textClient => exact absurd type other
  | serverPing =>
      simp only [textOf, readMessage, type]
      cases msg.pop TimePoint <;> rfl
  | clientList =>
      simp only [textOf, readMessage, type]
      cases readClientList (msg.size / FixedLayout.size UInt32) msg <;> rfl
  | requestAnswer =>
      simp only [textOf, readMessage, type]
      cases msg.pop CInt <;> rfl
  | serverMessage =>
      simp only [textOf, readMessage, type]
      cases msg.pop UInt32 <;> rfl
  | serverAccept =>
      simp only [textOf, readMessage, type]
      cases msg.pop UInt32 <;> rfl
  | requestToClient =>
      simp only [textOf, readMessage, type]
      cases msg.pop UInt32 <;> rfl
  | closeClient => simp only [textOf, readMessage, type]
  | serverDeny => simp only [textOf, readMessage, type]
  | messageAll => simp only [textOf, readMessage, type]
  | unnamed value large => simp only [textOf, readMessage, type]

/-- The texts that the server sends, each with the client that it is sent to. -/
def sentTexts (calls : List Call) : List (ConnectionPtr × List UInt8) :=
  calls.filterMap fun call =>
    match call with
    | .send receiver msg => (textOf msg).map fun text => (receiver, text)
    | .onClientDisconnect _ => none

theorem sentTexts_send (receiver : ConnectionPtr) (msg : Message CustomMsgTypes) :
    sentTexts [.send receiver msg] = (textOf msg).toList.map fun text => (receiver, text) := by
  cases text : textOf msg with
  | none => simp [sentTexts, text]
  | some data => simp [sentTexts, text]

theorem sentTexts_send_of_type {receiver : ConnectionPtr} {msg : Message CustomMsgTypes}
    (other : msg.header.id ≠ .textClient) : sentTexts [.send receiver msg] = [] := by
  rw [sentTexts_send, textOf_of_type other]
  rfl

/-- The texts among what is sent to a client are those that the client is to print. -/
theorem filterMap_deliveries (calls : List Call) (client : ConnectionPtr) :
    (ChatRoom.deliveries calls client).filterMap textOf = entriesOf client (sentTexts calls) := by
  rw [ChatRoom.deliveries, entriesOf, sentTexts, List.filterMap_filterMap, List.filterMap_filterMap]
  refine List.filterMap_congr fun call _ => ?_
  cases call with
  | onClientDisconnect other => rfl
  | send receiver msg =>
      by_cases isClient : receiver = client
      · cases text : textOf msg <;> simp [isClient, text]
      · cases text : textOf msg <;> simp [isClient, text]

/-! ## A client and its texts -/

namespace ChatClient

/-- The text that a step sends. -/
def sends (c : ChatClient) : Event → List (List UInt8)
  | .user =>
      match c.user with
      | .sendText _ text => [text]
      | _ => []
  | _ => []

/-- The text that a step prints, with its writer. -/
def prints (c : ChatClient) : Event → List (ConnectionPtr × List UInt8)
  | .execute =>
      match c.execute, c.incoming with
      | .idle, envelope :: _ => (textOf envelope.msg).toList.map fun text => (envelope.sender, text)
      | _, _ => []
  | _ => []

/-- The texts that the server has still to handle. -/
def toBeSentOn (c : ChatClient) : List (List UInt8) :=
  c.outgoing.filterMap fun envelope => textOf envelope.msg

/-- The texts that the client has still to print, each with its writer. -/
def toBeShown (c : ChatClient) : List (ConnectionPtr × List UInt8) :=
  c.incoming.filterMap fun envelope => (textOf envelope.msg).map fun text => (envelope.sender, text)

/-- The line that the thread of the user has read is short. -/
def ReadsShort (c : ChatClient) : Prop :=
  ∀ caller data, (c.user = .checkChat caller data ∨ c.user = .sendText caller data) →
    ShortLine data

variable {self : ConnectionPtr} {c d : ChatClient} {event : Event}

theorem toBeSentOn_send (self : ConnectionPtr) (c : ChatClient) (msg : Message CustomMsgTypes)
    (ticket : Option Ticket) :
    (c.send self msg ticket).toBeSentOn = c.toBeSentOn ++ (textOf msg).toList := by
  simp only [toBeSentOn, ChatClient.send, List.filterMap_append]
  cases text : textOf msg <;> simp [text]

/-- A message that is no text leaves the texts alone. -/
theorem toBeSentOn_send_of_type {msg : Message CustomMsgTypes}
    (other : msg.header.id ≠ .textClient) (ticket : Option Ticket) :
    (c.send self msg ticket).toBeSentOn = c.toBeSentOn := by
  rw [toBeSentOn_send, textOf_of_type other]
  exact List.append_nil _

/-- A line of `CloseClient` sends no text. -/
theorem toBeSentOn_closeLine (self : ConnectionPtr) (c : ChatClient) (line : CloseLine) :
    (c.closeLine self line).toBeSentOn = c.toBeSentOn := by
  cases line with
  | send => exact toBeSentOn_send_of_type (by decide) none
  | connected => rfl
  | request => rfl

/-- A step of the user's thread that is not at a text sends none. -/
theorem toBeSentOn_userStep (noText : ∀ caller data, c.user ≠ .sendText caller data)
    (taken : c.userStep self = some d) : d.toBeSentOn = c.toBeSentOn := by
  rw [userStep] at taken
  split at taken
  case h_13 caller data line => exact absurd line (noText caller data)
  case h_8 accepted ticket line =>
    cases taken
    exact toBeSentOn_send_of_type (fun isText => by cases isText) ticket
  case h_14 caller line =>
    cases taken
    exact toBeSentOn_closeLine self c .send
  all_goals try split at taken
  all_goals cases taken
  all_goals rfl

/-- **What a step sends is what waits for the server.** -/
theorem toBeSentOn_step (short : c.ReadsShort) (taken : c.step self event = some d) :
    d.toBeSentOn = c.toBeSentOn ++ c.sends event := by
  have silent : c.sends event = [] → d.toBeSentOn = c.toBeSentOn →
      d.toBeSentOn = c.toBeSentOn ++ c.sends event := by
    intro nothing same
    rw [nothing, same, List.append_nil]
  cases event with
  | command command =>
      refine silent rfl ?_
      simp only [step] at taken
      split at taken
      case isFalse => cases taken
      case isTrue =>
        cases taken
        cases command with
        | connectTo id => exact toBeSentOn_send_of_type (fun isText => by cases isText) _
        | _ =>
          simp only [ChatClient.command, answer]
          split <;> rfl
  | type data =>
      obtain ⟨caller, -, rfl⟩ := eq_of_type taken
      exact silent rfl rfl
  | user =>
      by_cases atText : ∃ caller data, c.user = .sendText caller data
      · obtain ⟨caller, data, line⟩ := atText
        simp only [step, userStep, line] at taken
        cases taken
        simp only [sends, line]
        have sent := toBeSentOn_send self c (CustomClient.sendToClient data) none
        rw [textOf_sendToClient (short caller data (.inr line))] at sent
        exact sent
      · simp only [not_exists] at atText
        exact silent (by simp only [sends]) (toBeSentOn_userStep atText taken)
  | abort pressed =>
      refine silent rfl ?_
      simp only [step, abortStep] at taken
      split at taken
      case h_4 id line =>
        cases taken
        exact toBeSentOn_closeLine self c .send
      all_goals try split at taken
      all_goals cases taken
      all_goals rfl
  | execute =>
      refine silent rfl ?_
      simp only [step, executeStep] at taken
      split at taken
      all_goals try split at taken
      all_goals cases taken
      all_goals rfl

/-- **What a step prints has waited for it.** -/
theorem toBeShown_step (taken : c.step self event = some d) :
    c.toBeShown = c.prints event ++ d.toBeShown := by
  cases event with
  | command command =>
      simp only [step] at taken
      split at taken
      case isFalse => cases taken
      case isTrue =>
        cases taken
        cases command with
        | connectTo id => rfl
        | _ =>
          simp only [ChatClient.command, answer]
          split <;> rfl
  | type data =>
      obtain ⟨caller, -, rfl⟩ := eq_of_type taken
      rfl
  | user =>
      simp only [step, userStep] at taken
      split at taken
      all_goals try split at taken
      all_goals cases taken
      all_goals rfl
  | abort pressed =>
      simp only [step, abortStep] at taken
      split at taken
      all_goals try split at taken
      all_goals cases taken
      all_goals rfl
  | execute =>
      cases line : c.execute with
      | idle =>
          cases queue : c.incoming with
          | nil => simp only [step, executeStep, line, queue] at taken; cases taken
          | cons envelope later =>
              simp only [step, executeStep, line, queue] at taken
              cases taken
              simp only [toBeShown, prints, line, queue]
              cases text : textOf envelope.msg <;> simp [text]
      | _ =>
          simp only [step, executeStep, line] at taken
          try split at taken
          all_goals cases taken
          all_goals simp only [prints, line, List.nil_append]
          all_goals rfl

/-- The thread of the user reads no line by itself, and sends the line that it has read. -/
theorem user_of_userStep (taken : c.userStep self = some d) :
    (∀ caller data, d.user ≠ .checkChat caller data) ∧
      ∀ caller data, d.user = .sendText caller data → c.user = .checkChat caller data := by
  rw [userStep] at taken
  split at taken
  case h_12 caller data line =>
    split at taken
    · cases taken
      by_cases closes : data = closeText
      · simp only [if_pos closes]
        constructor <;> intro _ _ same <;> cases same
      · simp only [if_neg closes]
        constructor <;> intro _ _ same <;> cases same
        exact line
    · cases taken
      cases caller <;> constructor <;> intro _ _ same <;> cases same
  case h_8 accepted ticket line =>
    cases taken
    cases accepted <;> constructor <;> intro _ _ same <;> cases same
  all_goals try split at taken
  all_goals cases taken
  all_goals constructor <;> intro _ _ same <;> cases same

/-- A line is read where it was typed, and sent where it was read. -/
theorem reads_step {holds : List UInt8 → Prop}
    (reads : ∀ caller data, (c.user = .checkChat caller data ∨ c.user = .sendText caller data) →
      holds data)
    (typed : ∀ data, event = .type data → holds data) (taken : c.step self event = some d) :
    ∀ caller data, (d.user = .checkChat caller data ∨ d.user = .sendText caller data) →
      holds data := by
  intro caller data stands
  cases event with
  | command command =>
      rcases user_of_command taken with line | ⟨ticket, line⟩ | ⟨accepted, ticket, line⟩
      all_goals
        rw [line] at stands
        rcases stands with same | same <;> cases same
  | type text =>
      obtain ⟨other, -, rfl⟩ := eq_of_type taken
      rcases stands with same | same
      · cases same
        exact typed data rfl
      · cases same
  | user =>
      have line := user_of_userStep taken
      rcases stands with isRead | isSent
      · exact absurd isRead (line.1 caller data)
      · exact reads caller data (.inl (line.2 caller data isSent))
  | abort pressed =>
      rw [(frame_of_abortStep taken).1] at stands
      exact reads caller data stands
  | execute =>
      rw [(frame_of_executeStep taken).1] at stands
      exact reads caller data stands

theorem readsShort_step (short : c.ReadsShort)
    (typed : ∀ data, event = .type data → ShortLine data) (taken : c.step self event = some d) :
    d.ReadsShort :=
  reads_step short typed taken

end ChatClient

namespace ChatRoom

section Serve

variable {room : ChatRoom} {matching : Matching UInt32} {client : ConnectionPtr}
  {envelope : Envelope} {after : CustomServer} {calls : List Call}

/-- The texts sent are this one at most, and they are sent to the partner of the writer. -/
structure SentToPartner (room : ChatRoom) (matching : Matching UInt32) (client : ConnectionPtr)
    (text : Option (List UInt8)) (sent : List (ConnectionPtr × List UInt8)) : Prop where
  texts : sent.map Prod.snd = text.toList
  known : ∀ entry ∈ sent, entry.1 < room.hall.peers.length
  partner : ∀ entry ∈ sent, matching.partner (room.id client) = some (room.id entry.1)

/-- **The server sends on the text that it handles**, to the partner of the writer, and no other. -/
theorem Honest.sentTexts_eq (honest : Honest room)
    (represents : room.hall.server.clientConnections = matching.partner)
    (wrote : Wrote client envelope)
    (returned : room.hall.server.onMessage room.hall.view client envelope.msg =
      .ok (after, calls)) :
    SentToPartner room matching client (textOf envelope.msg) (sentTexts calls) := by
  have silent : sentTexts calls = [] → envelope.msg.header.id ≠ .textClient →
      SentToPartner room matching client (textOf envelope.msg) (sentTexts calls) := by
    intro nothing other
    rw [nothing, textOf_of_type other]
    exact ⟨rfl, nofun, nofun⟩
  have noText : ∀ receiver id,
      sentTexts [.send receiver (CustomServer.idMsg .requestToClient id)] = [] :=
    fun receiver id => sentTexts_send_of_type fun isText => by cases isText
  cases CustomServer.onMessage_effect represents returned with
  | unknown id rest type => exact silent (noText client 0) (by rw [type]; decide)
  | busy id rest receiver type => exact silent (noText client 1) (by rw [type]; decide)
  | pair id rest receiver type => exact silent (noText receiver _) (by rw [type]; decide)
  | relay id receiver type paired found =>
      obtain ⟨known, rfl⟩ := honest.known_of_findClient found
      rw [sentTexts_send]
      refine ⟨by simp [Function.comp_def], fun entry member => ?_, fun entry member => ?_⟩
      · obtain ⟨text, -, rfl⟩ := List.mem_map.mp member
        exact known
      · obtain ⟨text, -, rfl⟩ := List.mem_map.mp member
        exact paired
  | drop id type paired absent =>
      obtain ⟨receiver, found⟩ := honest.found_of_paired represents paired
      cases absent.symm.trans found
  | hangUp id receiver type paired found isClosed =>
      have isOpen := honest.isOpen receiver (honest.known_of_findClient found).1
      cases isOpen.symm.trans isClosed
  | close id type paired =>
      refine silent ?_ (by rw [type]; decide)
      rw [CustomServer.sendToId]
      split
      case h_1 => exact sentTexts_send_of_type (by decide)
      case h_2 => rfl
  | echo type => exact absurd type (type_ne_of_wrote wrote (by decide))
  | greet type => exact absurd type (type_ne_of_wrote wrote (by decide))
  | list type => exact absurd type (type_ne_of_wrote wrote (by decide))
  | ignore type =>
      rcases type with type | type | type | ⟨value, large, type⟩
      all_goals exact absurd type (type_ne_of_wrote wrote (by simp))

end Serve

/-! ## What becomes of the texts -/

/-- What happens to a text: its writer sends it, the server sends it on, its reader prints it. -/
inductive Passage where
  | typed (writer : ConnectionPtr) (text : List UInt8)
  | sentOn (writer reader : ConnectionPtr) (text : List UInt8)
  | shown (writer reader : ConnectionPtr) (text : List UInt8)
  deriving DecidableEq, Repr

/-- What happens to texts in a step. -/
def passages (room : ChatRoom) : Event → List Passage
  | .join => []
  | .client client event =>
      ((room.clients client).sends event).map (.typed client) ++
        ((room.clients client).prints event).map fun entry => .shown entry.1 client entry.2
  | .serve client =>
      match (room.clients client).outgoing with
      | [] => []
      | envelope :: _ =>
          match room.hall.server.onMessage room.hall.view client envelope.msg with
          | .ok (_, calls) => (sentTexts calls).map fun sent => .sentOn client sent.1 sent.2
          | .error _ => []

/-- The texts that a client has sent. -/
def typedBy (writer : ConnectionPtr) (log : List Passage) : List (List UInt8) :=
  log.filterMap fun passage =>
    match passage with
    | .typed client text => if client = writer then some text else none
    | _ => none

/-- The texts of a client that the server has sent on, each with its reader. -/
def sentOnFrom (writer : ConnectionPtr) (log : List Passage) : List (ConnectionPtr × List UInt8) :=
  log.filterMap fun passage =>
    match passage with
    | .sentOn client reader text => if client = writer then some (reader, text) else none
    | _ => none

/-- The texts that the server has sent on to a client, each with its writer. -/
def sentOnTo (reader : ConnectionPtr) (log : List Passage) : List (ConnectionPtr × List UInt8) :=
  log.filterMap fun passage =>
    match passage with
    | .sentOn writer client text => if client = reader then some (writer, text) else none
    | _ => none

/-- The texts that a client has printed, each with its writer. -/
def shownTo (reader : ConnectionPtr) (log : List Passage) : List (ConnectionPtr × List UInt8) :=
  log.filterMap fun passage =>
    match passage with
    | .shown writer client text => if client = reader then some (writer, text) else none
    | _ => none

/-- Where every text is. -/
structure Accounted (room : ChatRoom) (log : List Passage) : Prop where
  typed : ∀ writer,
    typedBy writer log = (sentOnFrom writer log).map Prod.snd ++ (room.clients writer).toBeSentOn
  sentOn : ∀ reader, sentOnTo reader log = shownTo reader log ++ (room.clients reader).toBeShown

/-- The lines that the user types are short. -/
def ShortEvent : Event → Prop
  | .client _ (.type data) => ShortLine data
  | _ => True

instance decidableShortEvent (event : Event) : Decidable (ShortEvent event) :=
  match event with
  | .client _ (.type data) => decidableShortLine data
  | .client _ (.command _) => .isTrue trivial
  | .client _ .user => .isTrue trivial
  | .client _ (.abort _) => .isTrue trivial
  | .client _ .execute => .isTrue trivial
  | .join => .isTrue trivial
  | .serve _ => .isTrue trivial

/-! ### The log -/

@[simp] theorem typedBy_append (writer : ConnectionPtr) (first second : List Passage) :
    typedBy writer (first ++ second) = typedBy writer first ++ typedBy writer second :=
  List.filterMap_append

@[simp] theorem sentOnFrom_append (writer : ConnectionPtr) (first second : List Passage) :
    sentOnFrom writer (first ++ second) = sentOnFrom writer first ++ sentOnFrom writer second :=
  List.filterMap_append

@[simp] theorem sentOnTo_append (reader : ConnectionPtr) (first second : List Passage) :
    sentOnTo reader (first ++ second) = sentOnTo reader first ++ sentOnTo reader second :=
  List.filterMap_append

@[simp] theorem shownTo_append (reader : ConnectionPtr) (first second : List Passage) :
    shownTo reader (first ++ second) = shownTo reader first ++ shownTo reader second :=
  List.filterMap_append

section Projections

variable (client other : ConnectionPtr)

theorem typedBy_typed (texts : List (List UInt8)) :
    typedBy other (texts.map (.typed client)) = if client = other then texts else [] := by
  by_cases same : client = other
  · simp [typedBy, List.filterMap_map, same]
  · simp [typedBy, List.filterMap_map, same]

theorem shownTo_shown (entries : List (ConnectionPtr × List UInt8)) :
    shownTo other (entries.map fun entry => .shown entry.1 client entry.2) =
      if client = other then entries else [] := by
  by_cases same : client = other
  · simp [shownTo, List.filterMap_map, same]
  · simp [shownTo, List.filterMap_map, same]

theorem sentOnFrom_sentOn (entries : List (ConnectionPtr × List UInt8)) :
    sentOnFrom other (entries.map fun entry => .sentOn client entry.1 entry.2) =
      if client = other then entries else [] := by
  by_cases same : client = other
  · simp [sentOnFrom, List.filterMap_map, same]
  · simp [sentOnFrom, List.filterMap_map, same]

theorem sentOnTo_sentOn (entries : List (ConnectionPtr × List UInt8)) :
    sentOnTo other (entries.map fun entry => .sentOn client entry.1 entry.2) =
      (entriesOf other entries).map fun text => (client, text) := by
  simp only [sentOnTo, entriesOf, List.filterMap_map, List.map_filterMap]
  refine List.filterMap_congr fun entry _ => ?_
  by_cases same : entry.1 = other <;> simp [same]

/-- A text is in one place of the log only. -/
theorem others_of_passages (texts : List (List UInt8))
    (entries : List (ConnectionPtr × List UInt8)) :
    sentOnFrom other (texts.map (.typed client)) = [] ∧
      sentOnTo other (texts.map (.typed client)) = [] ∧
      shownTo other (texts.map (.typed client)) = [] ∧
      typedBy other (entries.map fun entry => .shown entry.1 client entry.2) = [] ∧
      sentOnFrom other (entries.map fun entry => .shown entry.1 client entry.2) = [] ∧
      sentOnTo other (entries.map fun entry => .shown entry.1 client entry.2) = [] ∧
      typedBy other (entries.map fun entry => .sentOn client entry.1 entry.2) = [] ∧
      shownTo other (entries.map fun entry => .sentOn client entry.1 entry.2) = [] := by
  simp [typedBy, sentOnFrom, sentOnTo, shownTo, List.filterMap_map]

end Projections

/-! ### Steps -/

/-- What the runs of a room keep of its texts. -/
structure KeepsTexts (room : ChatRoom) (log : List Passage) : Prop where
  honest : Honest room
  short : ∀ client, (room.clients client).ReadsShort
  absent : ∀ client, room.hall.peers.length ≤ client →
    (room.clients client).toBeSentOn = [] ∧ (room.clients client).toBeShown = []
  accounted : room.hall.aborted = none → Accounted room log

theorem keepsTexts_start : KeepsTexts start [] where
  honest := honest_start
  short := fun _ _ _ stands => by rcases stands with same | same <;> cases same
  absent := fun _ _ => ⟨rfl, rfl⟩
  accounted := fun _ => ⟨fun _ => rfl, fun _ => rfl⟩

variable {room next : ChatRoom} {log : List Passage}

/-- A client joins. -/
theorem KeepsTexts.join (keeps : KeepsTexts room log) (running : room.hall.aborted = none)
    (honest : Honest room.join) : KeepsTexts room.join log := by
  have same : ∀ client, (room.join.clients client).toBeSentOn = (room.clients client).toBeSentOn ∧
      (room.join.clients client).toBeShown = (room.clients client).toBeShown := by
    intro client
    by_cases isNew : client = room.hall.peers.length
    · subst isNew
      obtain ⟨nothing, unseen⟩ := keeps.absent _ le_rfl
      have noText : textOf (CustomServer.idMsg .serverAccept room.hall.server.nIDCounter) = none :=
        textOf_of_type fun isText => by cases isText
      rw [join_new, nothing, unseen]
      exact ⟨rfl, by simp [ChatClient.toBeShown, noText]⟩
    · rw [join_other room isNew]
      exact ⟨rfl, rfl⟩
  refine ⟨honest, fun client => ?_, fun client absent => ?_, fun _ => ?_⟩
  · by_cases isNew : client = room.hall.peers.length
    · subst isNew
      rw [join_new]
      exact fun caller data stands => by rcases stands with line | line <;> cases line
    · rw [join_other room isNew]
      exact keeps.short client
  · rw [(same client).1, (same client).2]
    exact keeps.absent client (by rw [join_length] at absent; omega)
  · obtain ⟨typed, sentOn⟩ := keeps.accounted running
    refine ⟨fun writer => ?_, fun reader => ?_⟩
    · rw [(same writer).1]
      exact typed writer
    · rw [(same reader).2]
      exact sentOn reader

/-- A thread of a client takes a step. -/
theorem KeepsTexts.client {client : ConnectionPtr} {event : ChatClient.Event} {c : ChatClient}
    (keeps : KeepsTexts room log) (running : room.hall.aborted = none)
    (known : client < room.hall.peers.length)
    (moves : (room.clients client).step client event = some c)
    (typed : ∀ data, event = .type data → ShortLine data) (honest : Honest (room.moved client c)) :
    KeepsTexts (room.moved client c) (log ++ room.passages (.client client event)) := by
  have sends := ChatClient.toBeSentOn_step (keeps.short client) moves
  have prints := ChatClient.toBeShown_step moves
  refine ⟨honest, fun other => ?_, fun other absent => ?_, fun _ => ?_⟩
  · by_cases isMover : other = client
    · subst isMover
      rw [moved_self]
      exact ChatClient.readsShort_step (keeps.short other) typed moves
    · rw [moved_other room c isMover]
      exact keeps.short other
  · have isOther : other ≠ client := fun same => Nat.not_le.mpr known (same ▸ absent)
    rw [moved_other room c isOther]
    exact keeps.absent other absent
  · obtain ⟨typed, sentOn⟩ := keeps.accounted running
    refine ⟨fun writer => ?_, fun reader => ?_⟩
    · obtain ⟨noneSent, -, -, noneTyped, noneSentOn, -, -, -⟩ := others_of_passages client writer
        ((room.clients client).sends event) ((room.clients client).prints event)
      rw [passages, typedBy_append, typedBy_append, typedBy_typed, noneTyped, sentOnFrom_append,
        sentOnFrom_append, noneSent, noneSentOn, typed]
      by_cases isMover : writer = client
      · subst isMover
        rw [moved_self, sends, if_pos rfl]
        simp only [List.append_nil, List.append_assoc]
      · rw [moved_other room c isMover, if_neg (Ne.symm isMover)]
        simp only [List.append_nil]
    · obtain ⟨-, noneSent, noneShown, -, -, noneSentOn, -, -⟩ := others_of_passages client reader
        ((room.clients client).sends event) ((room.clients client).prints event)
      rw [passages, sentOnTo_append, sentOnTo_append, noneSent, noneSentOn, shownTo_append,
        shownTo_append, noneShown, shownTo_shown, sentOn]
      by_cases isMover : reader = client
      · subst isMover
        rw [moved_self, prints, if_pos rfl]
        simp only [List.append_nil, List.nil_append, List.append_assoc]
      · rw [moved_other room c isMover, if_neg (Ne.symm isMover)]
        simp only [List.append_nil]

/-- What is still to be printed after the server has handled a message. -/
theorem toBeShown_settle (client other : ConnectionPtr) (envelope : Envelope)
    (later : List Envelope) (calls : List Call) :
    (room.settle client envelope later calls other).toBeShown =
      (room.clients other).toBeShown ++
        (entriesOf other (sentTexts calls)).map fun text => (envelope.sender, text) := by
  rw [← filterMap_deliveries]
  simp only [ChatClient.toBeShown, settle, List.filterMap_append, List.filterMap_map,
    List.map_filterMap]
  rfl

/-- The server handles a message. -/
theorem KeepsTexts.serve {client : ConnectionPtr} {envelope : Envelope} {later : List Envelope}
    (keeps : KeepsTexts room log) (running : room.hall.aborted = none)
    (known : client < room.hall.peers.length)
    (queue : (room.clients client).outgoing = envelope :: later)
    (honest : Honest (room.serve client envelope later)) :
    KeepsTexts (room.serve client envelope later) (log ++ room.passages (.serve client)) := by
  have short : ∀ calls other, (room.settle client envelope later calls other).ReadsShort :=
    fun _ other => keeps.short other
  obtain ⟨matching, represents⟩ := keeps.honest.paired
  have wrote := keeps.honest.wrote client envelope (by rw [queue]; exact List.mem_cons_self)
  have isSender : envelope.sender = client := by cases wrote <;> rfl
  have absentSent : ∀ other, room.hall.peers.length ≤ other → ∀ calls,
      (room.settle client envelope later calls other).toBeSentOn = [] := by
    intro other absent calls
    have isOther : other ≠ client := fun same => Nat.not_le.mpr known (same ▸ absent)
    simp only [settle, if_neg isOther]
    exact (keeps.absent other absent).1
  cases returned : room.hall.server.onMessage room.hall.view client envelope.msg with
  | error fault =>
      simp only [ChatRoom.serve, returned] at honest ⊢
      refine ⟨honest, short [], fun other absent => ⟨absentSent other absent [], ?_⟩, ?_⟩
      · rw [toBeShown_settle]
        simpa [sentTexts] using (keeps.absent other absent).2
      · intro stillRunning
        cases stillRunning
  | ok result =>
      obtain ⟨after, calls⟩ := result
      have sent := keeps.honest.sentTexts_eq represents wrote returned
      have entries : room.passages (.serve client) =
          (sentTexts calls).map fun sent => .sentOn client sent.1 sent.2 := by
        simp only [passages, queue, returned]
      simp only [ChatRoom.serve, returned] at honest ⊢
      rw [entries]
      refine ⟨honest, short calls, fun other absent => ⟨absentSent other absent calls, ?_⟩,
        fun _ => ⟨fun writer => ?_, fun reader => ?_⟩⟩
      · have unknown : entriesOf other (sentTexts calls) = [] :=
          entriesOf_eq_nil fun entry member same =>
            Nat.not_le.mpr (sent.known entry member) (same ▸ absent)
        rw [toBeShown_settle, unknown]
        simpa using (keeps.absent other absent).2
      · have typed := (keeps.accounted running).typed writer
        obtain ⟨-, -, -, -, -, -, noneTyped, -⟩ :=
          others_of_passages client writer [] (sentTexts calls)
        rw [typedBy_append, noneTyped, List.append_nil, sentOnFrom_append, sentOnFrom_sentOn, typed]
        by_cases isWriter : client = writer
        · subst isWriter
          have first : (room.clients client).toBeSentOn =
              (textOf envelope.msg).toList ++ later.filterMap fun sent => textOf sent.msg := by
            rw [ChatClient.toBeSentOn, queue]
            cases text : textOf envelope.msg <;> simp [text]
          simp only [settle, if_true, List.map_append, sent.texts, first, List.append_assoc]
          rfl
        · simp only [settle, if_neg (Ne.symm isWriter), if_neg isWriter, List.append_nil]
          rfl
      · have sentOn := (keeps.accounted running).sentOn reader
        obtain ⟨-, -, -, -, -, -, -, noneShown⟩ :=
          others_of_passages client reader [] (sentTexts calls)
        rw [sentOnTo_append, sentOnTo_sentOn, shownTo_append, noneShown, List.append_nil,
          toBeShown_settle, isSender, sentOn, List.append_assoc]

/-- **Every step keeps account of the texts.** -/
theorem KeepsTexts.step {event : Event} (keeps : KeepsTexts room log) (short : ShortEvent event)
    (taken : room.step event = some next) : KeepsTexts next (log ++ room.passages event) := by
  have honest := keeps.honest.step taken
  obtain ⟨running, acted⟩ := step_eq_some taken
  cases event with
  | join =>
      cases acted
      rw [passages, List.append_nil]
      exact keeps.join running honest
  | client client event =>
      obtain ⟨known, c, moves, rfl⟩ := act_client acted
      refine keeps.client running known moves (fun data isType => ?_) honest
      subst isType
      exact short
  | serve client =>
      obtain ⟨known, envelope, later, queue, rfl⟩ := act_serve acted
      exact keeps.serve running known queue honest

/-- Every run keeps account of the texts. -/
theorem keepsTexts_of_run {events : List Event} {final : ChatRoom × List Passage}
    (run : runFrom (logged step passages) (start, []) events = some final)
    (short : ∀ event ∈ events, ShortEvent event) : KeepsTexts final.1 final.2 := by
  let kept (past : List Event) (state : ChatRoom × List Passage) : Prop :=
    (∀ event ∈ past, ShortEvent event) → KeepsTexts state.1 state.2
  have keeps : ∀ past state event next, kept past state →
      logged step passages state event = some next → kept (past ++ [event]) next := by
    intro past state event next before taken allShort
    obtain ⟨moved, written⟩ := logged_eq_some taken
    rw [written]
    refine (before fun event member => ?_).step (allShort event (by simp)) moved
    exact allShort event (List.mem_append_left _ member)
  have initially : kept [] (start, []) := fun _ => keepsTexts_start
  exact history_invariant_of_run keeps initially run short

/-- **Every text that was typed was sent on once or waits to be, and every text sent on was printed
once or waits to be**, in order, as long as the server runs. -/
theorem texts_in_order {events : List Event} {final : ChatRoom × List Passage}
    (run : runFrom (logged step passages) (start, []) events = some final)
    (short : ∀ event ∈ events, ShortEvent event) (running : final.1.hall.aborted = none) :
    Accounted final.1 final.2 :=
  (keepsTexts_of_run run short).accounted running

/-- The texts of a writer to a reader, as they left the one and as they came to the other. -/
theorem entriesOf_sentOnFrom (writer reader : ConnectionPtr) (log : List Passage) :
    entriesOf reader (sentOnFrom writer log) = entriesOf writer (sentOnTo reader log) := by
  rw [entriesOf, entriesOf, sentOnFrom, sentOnTo, List.filterMap_filterMap,
    List.filterMap_filterMap]
  refine List.filterMap_congr fun passage _ => ?_
  cases passage with
  | typed client text => rfl
  | shown client other text => rfl
  | sentOn client other text =>
      by_cases isWriter : client = writer <;> by_cases isReader : other = reader <;>
        simp [isWriter, isReader]

/-- **What a client has printed of another are lines that the other typed**, none twice and none
before an earlier one; and they are the first of them if they were all sent on to that client. -/
theorem shown_of_typed {events : List Event} {final : ChatRoom × List Passage}
    (run : runFrom (logged step passages) (start, []) events = some final)
    (short : ∀ event ∈ events, ShortEvent event) (running : final.1.hall.aborted = none)
    (writer reader : ConnectionPtr) :
    (entriesOf writer (shownTo reader final.2)).Sublist (typedBy writer final.2) ∧
      ((∀ entry ∈ sentOnFrom writer final.2, entry.1 = reader) →
        entriesOf writer (shownTo reader final.2) <+: typedBy writer final.2) := by
  obtain ⟨typed, sentOn⟩ := (keepsTexts_of_run run short).accounted running
  have shown : entriesOf writer (shownTo reader final.2) <+:
      entriesOf reader (sentOnFrom writer final.2) := by
    rw [entriesOf_sentOnFrom, sentOn reader, entriesOf_append]
    exact List.prefix_append _ _
  have sent : (sentOnFrom writer final.2).map Prod.snd <+: typedBy writer final.2 := by
    rw [typed writer]
    exact List.prefix_append _ _
  refine ⟨(shown.sublist.trans (entriesOf_sublist _ _)).trans sent.sublist, fun oneReader => ?_⟩
  rw [entriesOf_eq_map oneReader] at shown
  exact shown.trans sent

/-- Two clients chat. The first line of the second client is printed, the second one waits. -/
def greeted : List Event :=
  [.join, .join, .client 0 .execute, .client 1 .execute,
    .client 0 (.command (.connectTo 10001)), .client 0 .user, .serve 0,
    .client 1 .execute, .client 1 .execute,
    .client 1 (.command .requestAccept), .client 1 .user, .client 1 .user, .client 1 .user,
    .serve 1, .client 0 .execute, .client 0 .execute, .client 0 .execute, .client 0 .execute,
    .client 1 (.type [104, 105]), .client 1 .user, .client 1 .user, .serve 1, .client 0 .execute,
    .client 1 (.type [104]), .client 1 .user, .client 1 .user]

/-- Where the second line waits. -/
def afterGreeting : ChatRoom × List Passage :=
  (runFrom (logged step passages) (start, []) greeted).get (by decide +kernel)

theorem run_greeted :
    runFrom (logged step passages) (start, []) greeted = some afterGreeting :=
  (Option.some_get _).symm

theorem texts_in_order_greeted : Accounted afterGreeting.1 afterGreeting.2 :=
  texts_in_order run_greeted (by decide) (by decide +kernel)

theorem shown_of_typed_greeted :
    entriesOf 1 (shownTo 0 afterGreeting.2) = [[104, 105]] ∧
      entriesOf 1 (shownTo 0 afterGreeting.2) <+: typedBy 1 afterGreeting.2 :=
  ⟨by decide +kernel, (shown_of_typed run_greeted (by decide) (by decide +kernel) 1 0).2
    (by decide +kernel)⟩

end ChatRoom

end NetworkChat
