import NetworkChat.Server.Isolation

/-!
# Why the server sends

The first message that a connection is sent is the `ServerAccept` with its id, and every
later one was caused by a message that was handled (`Reaches`). Every pair was asked for by a
request that was handled (`Asked`). Both are kept by every step (`Caused.step`).
-/

set_option autoImplicit false

namespace NetworkChat

open Foundation

namespace CustomServer

/-- Why a handler sends a message to a connection, when the connections have these ids. -/
inductive Reaches (id : ConnectionPtr → UInt32) (client : ConnectionPtr)
    (msg : Message CustomMsgTypes) (receiver : ConnectionPtr) : Message CustomMsgTypes → Prop where
  /-- It wrote the message itself. -/
  | own (sent : Message CustomMsgTypes) (isClient : receiver = client) :
      Reaches id client msg receiver sent
  | greeting (type : msg.header.id = .messageAll) :
      Reaches id client msg receiver (idMsg .serverMessage (id client))
  | request (rest : Message CustomMsgTypes) (type : msg.header.id = .requestToClient)
      (asks : msg.pop UInt32 = .ok (id receiver, rest)) :
      Reaches id client msg receiver (idMsg .requestToClient (id client))
  | relay (type : ForPartner msg.header.id) : Reaches id client msg receiver msg
  | close (type : msg.header.id = .closeClient) : Reaches id client msg receiver closeMsg

section Reaches

variable {view : ConnectionPtr → Peer} {server after : CustomServer}
  {client receiver : ConnectionPtr} {msg sent : Message CustomMsgTypes} {calls : List Call}
  {matching : Matching UInt32}

/-- Only the ids of the two connections matter. -/
theorem Reaches.congr {id id' : ConnectionPtr → UInt32}
    (reaches : Reaches id client msg receiver sent)
    (ofClient : id' client = id client) (ofReceiver : id' receiver = id receiver) :
    Reaches id' client msg receiver sent := by
  cases reaches with
  | own _ isClient => exact .own sent isClient
  | greeting type =>
      rw [← ofClient]
      exact .greeting type
  | request rest type asks =>
      rw [← ofReceiver] at asks
      rw [← ofClient]
      exact .request rest type asks
  | relay type => exact .relay type
  | close type => exact .close type

/-- A call of `Send` for one connection is the one that was made. -/
theorem send_of_mem_singleton {other : ConnectionPtr} {msg sent : Message CustomMsgTypes}
    (member : Call.send receiver sent ∈ [Call.send other msg]) : receiver = other ∧ sent = msg := by
  cases List.mem_singleton.mp member
  exact ⟨rfl, rfl⟩

/-- **What a handler sends, it sends for one of these reasons.** -/
theorem Effect.reaches (effect : Effect view server matching client msg after calls)
    (member : Call.send receiver sent ∈ calls) :
    Reaches (fun client => (view client).id) client msg receiver sent := by
  cases effect with
  | echo type => exact .own _ (send_of_mem_singleton member).1
  | greet type =>
      obtain ⟨other, -, called⟩ := List.mem_flatMap.mp member
      split at called
      · split at called
        · obtain ⟨rfl, rfl⟩ := send_of_mem_singleton called
          exact .greeting type
        · cases called
      · cases List.mem_singleton.mp called
  | list type =>
      rcases List.mem_append.mp member with called | called
      · obtain ⟨other, -, called⟩ := List.mem_flatMap.mp called
        split at called
        · cases called
        · cases List.mem_singleton.mp called
      · exact .own _ (send_of_mem_singleton called).1
  | unknown id rest type asks absent => exact .own _ (send_of_mem_singleton member).1
  | busy id rest other type asks found taken => exact .own _ (send_of_mem_singleton member).1
  | pair id rest other type asks found distinct clientFree idFree =>
      obtain ⟨rfl, rfl⟩ := send_of_mem_singleton member
      rw [← id_of_findClient found] at asks
      exact .request rest type asks
  | relay id other type paired found =>
      obtain ⟨rfl, rfl⟩ := send_of_mem_singleton member
      exact .relay type
  | drop id type paired absent => cases member
  | hangUp id other type paired found isClosed => exact .own _ (send_of_mem_singleton member).1
  | close id type paired =>
      rw [sendToId_eq] at member
      obtain ⟨other, -, same⟩ := List.mem_map.mp member
      cases same
      exact .close type
  | ignore type => cases member

end Reaches

end CustomServer

namespace ChatServer

open CustomServer (Reaches)

/-- `GetID` of a connection. -/
def id (s : ChatServer) (client : ConnectionPtr) : UInt32 := (s.view client).id

theorem id_eq {s : ChatServer} {client : ConnectionPtr} {c : Connection CustomMsgTypes}
    (found : s.connections[client]? = some c) : s.id client = c.id := by
  simp only [id, view, List.getD, List.getElem?_map, found]
  rfl

/-- **A connection keeps its id.** -/
theorem Sound.id_step {s next : ChatServer} {event : Event} (sound : Sound s)
    (taken : s.step event = some next) {client : ConnectionPtr}
    (known : client < s.connections.length) : next.id client = s.id client := by
  have found := List.getElem?_eq_getElem known
  obtain ⟨-, taken⟩ := step_eq_some taken
  cases event with
  | accept clock =>
      cases taken
      rw [id_eq found, id_eq (c := s.connections[client])]
      rw [ChatServer.accept, List.getElem?_append_left known]
      exact found
  | io other event =>
      obtain ⟨c, d, at_, -, moved, rfl⟩ := act_io taken
      obtain ⟨-, goesOn⟩ := (sound.serves other c at_).step moved
      by_cases same : other = client
      · subst same
        rw [id_eq at_, id_eq (List.getElem?_set_self known)]
        exact goesOn.id
      · rw [id_eq found, id_eq (c := s.connections[client])]
        rw [List.getElem?_set_ne same]
        exact found
  | update =>
      obtain ⟨other, msg, later, -, rfl⟩ := act_update taken
      rcases handle_cases s other msg later with ⟨server, calls, -, handled⟩ | ⟨fault, -, failed⟩
      · rw [handled, id_eq found, id_eq (c := giveAll calls client s.connections[client])]
        · rw [giveAll, Connection.foldl_send]
        · rw [List.getElem?_mapIdx, found]
          rfl
      · rw [failed]
        rfl

/-- A request that was handled asked for the pair. -/
def Asked (s : ChatServer) (first second : UInt32) : Prop :=
  ∃ sender msg id rest, (sender, msg) ∈ s.handled ∧ msg.header.id = .requestToClient ∧
    msg.pop UInt32 = .ok (id, rest) ∧
      ((first = s.id sender ∧ second = id) ∨ (first = id ∧ second = s.id sender))

/-- A message that was handled is why the connection is sent this one. -/
def HasCause (s : ChatServer) (receiver : ConnectionPtr) (sent : Message CustomMsgTypes) : Prop :=
  ∃ sender msg, (sender, msg) ∈ s.handled ∧ Reaches s.id sender msg receiver sent

/-- Everything the server has done has a cause. -/
structure Caused (s : ChatServer) : Prop where
  sound : Sound s
  sends : ∀ client < s.connections.length, ∃ later,
    messagesOf client s.sends = CustomServer.idMsg .serverAccept (s.id client) :: later ∧
      ∀ sent ∈ later, s.HasCause client sent
  pairs : ∀ first second, s.server.clientConnections first = some second → s.Asked first second

theorem caused_start : Caused start where
  sound := sound_start
  sends := by simp [start]
  pairs := by simp [start, CustomServer.start]

section Step

variable {s next : ChatServer}

/-- Causes stay when the messages that were handled and the ids stay. -/
theorem HasCause.mono {receiver : ConnectionPtr} {sent : Message CustomMsgTypes}
    (has : s.HasCause receiver sent) (sound : Sound s) (receives : receiver < s.connections.length)
    (handled : ∀ entry ∈ s.handled, entry ∈ next.handled)
    (ids : ∀ client < s.connections.length, next.id client = s.id client) :
    next.HasCause receiver sent := by
  obtain ⟨sender, msg, member, reaches⟩ := has
  have known := sound.knownMessages _ (List.mem_append_left _ member)
  exact ⟨sender, msg, handled _ member, reaches.congr (ids sender known) (ids receiver receives)⟩

theorem Asked.mono {first second : UInt32} (asked : s.Asked first second) (sound : Sound s)
    (handled : ∀ entry ∈ s.handled, entry ∈ next.handled)
    (ids : ∀ client < s.connections.length, next.id client = s.id client) :
    next.Asked first second := by
  obtain ⟨sender, msg, id, rest, member, type, asks, who⟩ := asked
  refine ⟨sender, msg, id, rest, handled _ member, type, asks, ?_⟩
  rwa [ids sender (sound.knownMessages _ (List.mem_append_left _ member))]

/-- What is handled is why everything is sent that its handler sends. -/
theorem Caused.handle {client : ConnectionPtr} {msg : Message CustomMsgTypes} {later : List Owned}
    (caused : Caused s) (sound : Sound (s.handle client msg later))
    (ids : ∀ other < s.connections.length, (s.handle client msg later).id other = s.id other)
    (known : client < s.connections.length) : Caused (s.handle client msg later) := by
  obtain ⟨matching, represents⟩ := caused.sound.pairing
  have more : ∀ entry ∈ s.handled, entry ∈ s.handled ++ [(client, msg)] :=
    fun _ member => List.mem_append_left _ member
  rcases handle_cases s client msg later with ⟨server, calls, done, handled⟩ | ⟨fault, -, failed⟩
  · have effect := CustomServer.onMessage_effect represents done
    rw [handled] at sound ids ⊢
    have here : (client, msg) ∈ s.handled ++ [(client, msg)] :=
      List.mem_append_right _ (List.mem_singleton_self _)
    refine ⟨sound, ?_, ?_⟩
    · intro other otherKnown
      rw [List.length_mapIdx] at otherKnown
      obtain ⟨earlier, first, causes⟩ := caused.sends other otherKnown
      refine ⟨earlier ++ messagesOf other (sendsOf calls), ?_, ?_⟩
      · rw [messagesOf_append, first, ids other otherKnown]
        rfl
      · intro sent member
        rcases List.mem_append.mp member with old | new
        · exact (causes sent old).mono caused.sound otherKnown more ids
        · have reaches := effect.reaches (mem_sendsOf.mp (mem_entriesOf.mp new))
          exact ⟨client, msg, here, reaches.congr (ids client known) (ids other otherKnown)⟩
    · intro first second paired
      by_cases old : s.server.clientConnections first = some second
      · exact (caused.pairs first second old).mono caused.sound more ids
      · obtain ⟨id, rest, type, asks, who, -⟩ := effect.new_pair represents paired old
        refine ⟨client, msg, id, rest, here, type, asks, ?_⟩
        rw [ids client known]
        exact who
  · rw [failed] at sound ids ⊢
    refine ⟨sound, ?_, ?_⟩
    · intro other otherKnown
      obtain ⟨earlier, first, causes⟩ := caused.sends other otherKnown
      exact ⟨earlier, first, fun sent member =>
        (causes sent member).mono caused.sound otherKnown more ids⟩
    · exact fun first second paired => (caused.pairs first second paired).mono caused.sound more ids

/-- **Every step has its causes.** -/
theorem Caused.step {event : Event} (caused : Caused s) (taken : s.step event = some next) :
    Caused next := by
  have sound := caused.sound.step taken
  have ids : ∀ client < s.connections.length, next.id client = s.id client :=
    fun client known => caused.sound.id_step taken known
  obtain ⟨-, taken⟩ := step_eq_some taken
  cases event with
  | accept clock =>
      cases taken
      refine ⟨sound, ?_, fun first second paired =>
        (caused.pairs first second paired).mono caused.sound (fun _ member => member) ids⟩
      intro client known
      rw [ChatServer.accept, List.length_append, List.length_singleton] at known
      by_cases before : client < s.connections.length
      · obtain ⟨later, first, causes⟩ := caused.sends client before
        refine ⟨later, ?_, fun sent member =>
          (causes sent member).mono caused.sound before (fun _ member => member) ids⟩
        rw [ids client before, ← first]
        exact messagesOf_concat_other (Nat.ne_of_gt before) _ _
      · obtain rfl : client = s.connections.length := by omega
        refine ⟨[], ?_, fun sent member => absurd member List.not_mem_nil⟩
        have isNew : (s.accept clock).id s.connections.length = s.server.nIDCounter := by
          rw [id_eq (List.getElem?_concat_length ..), Connection.accept_eq]
        rw [isNew, ChatServer.accept, messagesOf_concat_self,
          messagesOf_eq_nil fun entry member => (caused.sound.knownSends entry member).ne]
        rfl
  | io client event =>
      obtain ⟨c, d, -, -, -, rfl⟩ := act_io taken
      refine ⟨sound, ?_, fun first second paired =>
        (caused.pairs first second paired).mono caused.sound (fun _ member => member) ids⟩
      intro other known
      rw [List.length_set] at known
      obtain ⟨later, first, causes⟩ := caused.sends other known
      exact ⟨later, by rw [ids other known]; exact first, fun sent member =>
        (causes sent member).mono caused.sound known (fun _ member => member) ids⟩
  | update =>
      obtain ⟨client, msg, later, queue, rfl⟩ := act_update taken
      have known := caused.sound.knownMessages (client, msg) (by rw [queue]; simp)
      exact caused.handle sound ids known

end Step

theorem caused_of_run {events : List Event} {s : ChatServer}
    (run : runFrom step start events = some s) : Caused s :=
  invariant_of_run (fun _ _ _ caused taken => Caused.step caused taken) caused_start run

end ChatServer

end NetworkChat
