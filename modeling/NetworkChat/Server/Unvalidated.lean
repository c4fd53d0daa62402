import NetworkChat.Server.Admission
import NetworkChat.Server.Causes

/-!
# Peers that have not answered their code

A connection enters the deque, and is sent its `ServerAccept`, when it is accepted; nothing
that is done over the deque asks whether its `ReadValidation` has ended. So a peer that has not
answered is seen and spoken to as any other one (`stranger_is_seen`), but it is never heard:
what it is sent beyond its greeting, and a pair that it belongs to, comes from the messages of
others that have answered the right code (`unvalidated_unheard`). When its `ReadValidation` has
ended with another code or an error, its socket is closed.
-/

set_option autoImplicit false

namespace NetworkChat

open Foundation

namespace Connection

variable {T : Type}

def Note.isValidated : Note T → Bool
  | .validated _ => true
  | .generated _ => false
  | .rejected => false
  | .readHeader => false
  | .pushed _ => false

def Note.isRejected : Note T → Bool
  | .rejected => true
  | .generated _ => false
  | .validated _ => false
  | .readHeader => false
  | .pushed _ => false

/-- `ReadValidation` has ended with the right code. -/
def Validated (mine : List (Note T)) : Prop := ∃ note ∈ mine, note.isValidated = true

/-- `ReadValidation` has ended with another code, or with an error. -/
def Rejected (mine : List (Note T)) : Prop := ∃ note ∈ mine, note.isRejected = true

instance (mine : List (Note T)) : Decidable (Validated mine) :=
  inferInstanceAs (Decidable (∃ _ ∈ _, _))

instance (mine : List (Note T)) : Decidable (Rejected mine) :=
  inferInstanceAs (Decidable (∃ _ ∈ _, _))

/-- Only a connection that has answered the right code has pushed anything. -/
theorem Standing.validated_of_pushed {c : Connection T} {mine : List (Note T)} {msg : Message T}
    (standing : Standing c mine) (member : msg ∈ c.qMessagesIn) : Validated mine := by
  cases standing with
  | awaiting data reading unnotified silent => rw [silent] at member; cases member
  | refused stopped silent => rw [silent] at member; cases member
  | admitted later settled loops unnotified pushed =>
      exact ⟨.validated c.validatonCodeOut, by simp, rfl⟩

theorem not_rejected_loopNotes (c d : Connection T) : ¬ Rejected (c.loopNotes d) := by
  rintro ⟨note, member, isRejected⟩
  rcases List.mem_append.mp member with pushed | called
  · obtain ⟨msg, -, rfl⟩ := List.mem_map.mp pushed
    cases isRejected
  · split at called
    · cases List.mem_singleton.mp called
      cases isRejected
    · cases called

theorem rejected_append {first second : List (Note T)} :
    Rejected (first ++ second) ↔ Rejected first ∨ Rejected second := by
  simp only [Rejected, List.mem_append, or_and_right, exists_or]

/-- **A connection that was rejected is closed**, from the handler on. -/
theorem closed_of_rejected_step [FullLayout T] {c d : Connection T} {mine : List (Note T)}
    {event : IoEvent T} (admission : Admission c mine) (before : Rejected mine → c.isOpen = false)
    (taken : c.step event = some d) (isRejected : Rejected (mine ++ c.notes event)) :
    d.isOpen = false := by
  have noted : c.notes event = c.codeNotes event ++ c.loopNotes d := by
    simp only [notes, taken]
  have goesOn := (admission.serves.step taken).2
  rw [noted, rejected_append, rejected_append] at isRejected
  rcases isRejected with old | now | looped
  · rw [Bool.eq_false_iff]
    intro isOpen
    exact absurd (goesOn.closed isOpen) (by simp [before old])
  · obtain ⟨-, acted⟩ := step_eq_some taken
    obtain ⟨note, member, isRejected⟩ := now
    cases event with
    | readDone =>
        obtain ⟨kind, bytes, full, rfl⟩ := act_readDone acted
        cases kind with
        | validation =>
            simp only [codeNotes, full, validatonCodeIn_validationRead] at member
            split at member
            case isTrue right =>
              cases List.mem_singleton.mp member
              cases isRejected
            case isFalse wrong =>
              rw [← admission.codes] at wrong
              have read := validationRead_wrong (c := { c with reading := none })
                admission.serves.isServer wrong
              rw [Connection.readDone, read]
              rfl
        | header => simp only [codeNotes, full] at member; cases member
        | body => simp only [codeNotes, full] at member; cases member
    | readFail =>
        obtain ⟨kind, pending, rfl⟩ := act_readFail acted
        rfl
    | _ => cases member
  · exact absurd looped (not_rejected_loopNotes c d)

end Connection

namespace ChatServer

open Connection (Validated Rejected)

/-- The notes of all connections. -/
abbrev Log := List (ConnectionPtr × Connection.Note CustomMsgTypes)

/-- The server has sent the connection nothing, does not list its id and has paired it with
nobody. -/
def Unseen (s : ChatServer) (client : ConnectionPtr) : Prop :=
  messagesOf client s.sends = [] ∧ s.id client ∉ (s.server.getClientList s.view).1 ∧
    s.server.clientConnections (s.id client) = none

/-- What the server does with a connection that was not heard: beyond its greeting it is sent
what others have caused that were heard, its pairs are theirs, and once it was rejected it is
closed, not listed and not greeted. -/
structure Unheard (s : ChatServer) (log : Log) (client : ConnectionPtr) : Prop where
  silent : ∀ entry ∈ s.handled ++ s.qMessagesIn, entry.1 ≠ client
  sends : ∃ later,
    messagesOf client s.sends = CustomServer.idMsg .serverAccept (s.id client) :: later ∧
      ∀ sent ∈ later, ∃ sender msg, sender ≠ client ∧ Validated (entriesOf sender log) ∧
        (sender, msg) ∈ s.handled ∧ CustomServer.Reaches s.id sender msg client sent
  pairs : ∀ partner, s.server.clientConnections (s.id client) = some partner →
    ∃ sender msg asked rest, sender ≠ client ∧ Validated (entriesOf sender log) ∧
      (sender, msg) ∈ s.handled ∧ msg.header.id = .requestToClient ∧
        msg.pop UInt32 = .ok (asked, rest) ∧
          ((s.id client = s.id sender ∧ partner = asked) ∨
            (s.id client = asked ∧ partner = s.id sender))
  rejected : Rejected (entriesOf client log) → (s.view client).isConnected = false ∧
    (∀ listed ∈ (s.server.getClientList s.view).1, ∃ other ∈ s.server.dequeConnections,
      other ≠ client ∧ (s.view other).isConnected = true ∧ listed = s.id other) ∧
    ∀ msg ignored, .send client msg ∉ (s.server.messageAllClient s.view msg ignored).2

/-- Connections that were rejected are closed. -/
structure Closes (s : ChatServer) (log : Log) : Prop where
  recorded : Recorded s log
  closed : ∀ (client : ConnectionPtr) (c : Connection CustomMsgTypes),
    s.connections[client]? = some c → Rejected (entriesOf client log) → c.isOpen = false

theorem closes_start : Closes start [] where
  recorded := recorded_start
  closed := by simp [start]

theorem Closes.step {s next : ChatServer} {log : Log} {event : Event} (closes : Closes s log)
    (taken : s.step event = some next) : Closes next (log ++ s.noted event) := by
  have recorded := closes.recorded.step taken
  refine ⟨recorded, ?_⟩
  obtain ⟨-, taken⟩ := step_eq_some taken
  cases event with
  | accept clock =>
      cases taken
      intro client c found isRejected
      rcases getElem?_concat found with ⟨before, old⟩ | ⟨rfl, rfl⟩
      · rw [noted, entriesOf_concat_other before.ne'] at isRejected
        exact closes.closed client c old isRejected
      · rw [noted, entriesOf_concat_self,
          entriesOf_eq_nil fun entry member =>
            (closes.recorded.known entry member).ne] at isRejected
        obtain ⟨note, member, isRejected⟩ := isRejected
        cases List.mem_singleton.mp member
        cases isRejected
  | io client event =>
      obtain ⟨c, d, found, -, moved, rfl⟩ := act_io taken
      have notes : s.noted (.io client event) = (c.notes event).map fun note => (client, note) := by
        simp only [noted, found]
      rw [notes]
      intro other e at_ isRejected
      rw [entriesOf_append] at isRejected
      rw [List.getElem?_set] at at_
      split at at_
      case isTrue same =>
        subst same
        rw [if_pos (List.getElem?_eq_some_iff.mp found).1] at at_
        cases at_
        rw [entriesOf_own] at isRejected
        exact Connection.closed_of_rejected_step (closes.recorded.admission client c found)
          (closes.closed client c found) moved isRejected
      case isFalse differs =>
        rw [entriesOf_other differs, List.append_nil] at isRejected
        exact closes.closed other e at_ isRejected
  | update =>
      obtain ⟨client, msg, later, queue, rfl⟩ := act_update taken
      rw [noted, List.append_nil]
      rcases handle_cases s client msg later with ⟨server, calls, -, handled⟩ | ⟨fault, -, failed⟩
      · rw [handled]
        intro other e at_ isRejected
        rw [List.getElem?_mapIdx] at at_
        obtain ⟨c, found, rfl⟩ := Option.map_eq_some_iff.mp at_
        rw [giveAll, Connection.foldl_send]
        exact closes.closed other c found isRejected
      · rw [failed]
        exact closes.closed

theorem closes_of_run {events : List Event} {s : ChatServer} {log : Log}
    (run : runFrom (logged step noted) (start, []) events = some (s, log)) : Closes s log := by
  have keeps : ∀ (state : ChatServer × Log) event next,
      Closes state.1 state.2 → logged step noted state event = some next →
        Closes next.1 next.2 := by
    intro state event next closes taken
    obtain ⟨moved, written⟩ := logged_eq_some taken
    rw [written]
    exact closes.step moved
  exact invariant_of_run keeps closes_start run

/-- Who was heard has answered the right code. -/
theorem Recorded.validated {s : ChatServer} {log : Log} (recorded : Recorded s log) {entry : Owned}
    (member : entry ∈ s.handled ++ s.qMessagesIn) : Validated (entriesOf entry.1 log) := by
  have found := List.getElem?_eq_getElem (recorded.sound.knownMessages _ member)
  have queue := recorded.sound.queue entry.1 _ found
  have pushed : entry.2 ∈ messagesOf entry.1 (s.handled ++ s.qMessagesIn) :=
    mem_entriesOf.mpr member
  rw [queue] at pushed
  exact (recorded.admission entry.1 _ found).standing.validated_of_pushed pushed

/-- `GetClientList` returns the ids of the open connections of the deque. -/
theorem mem_getClientList {view : ConnectionPtr → Peer} {server : CustomServer} {listed : UInt32}
    (member : listed ∈ (server.getClientList view).1) :
    ∃ client ∈ server.dequeConnections, (view client).isConnected = true ∧
      listed = (view client).id := by
  obtain ⟨client, among, isListed⟩ := List.mem_flatMap.mp member
  split at isListed
  case isTrue isConnected => exact ⟨client, among, isConnected, List.mem_singleton.mp isListed⟩
  case isFalse => cases isListed

/-- `MessageAllClient` sends to open connections. -/
theorem isConnected_of_messageAll {view : ConnectionPtr → Peer} {server : CustomServer}
    {msg sent : Message CustomMsgTypes} {ignored : Option ConnectionPtr} {receiver : ConnectionPtr}
    (member : Call.send receiver sent ∈ (server.messageAllClient view msg ignored).2) :
    (view receiver).isConnected = true := by
  obtain ⟨client, -, called⟩ := List.mem_flatMap.mp member
  split at called
  case isTrue isConnected =>
    split at called
    · cases List.mem_singleton.mp called
      exact isConnected
    · cases called
  case isFalse => cases List.mem_singleton.mp called

/-- **A peer that has not answered the right code is not heard**: no message of it is handled,
and whatever it is sent, and whoever it is paired with, is the doing of others that have. -/
theorem unvalidated_unheard {events : List Event} {s : ChatServer} {log : Log}
    (run : runFrom (logged step noted) (start, []) events = some (s, log)) {client : ConnectionPtr}
    (known : client < s.connections.length) (unvalidated : ¬ Validated (entriesOf client log)) :
    Unheard s log client := by
  have closes := closes_of_run run
  have recorded := closes.recorded
  have caused : Caused s := caused_of_run (run_of_logged run)
  have silent : ∀ entry ∈ s.handled ++ s.qMessagesIn, entry.1 ≠ client := by
    intro entry member isClient
    exact unvalidated (isClient ▸ recorded.validated member)
  refine ⟨silent, ?_, ?_, ?_⟩
  · obtain ⟨later, first, causes⟩ := caused.sends client known
    refine ⟨later, first, ?_⟩
    intro sent member
    obtain ⟨sender, msg, wasHandled, reaches⟩ := causes sent member
    have among := List.mem_append_left s.qMessagesIn wasHandled
    exact ⟨sender, msg, silent _ among, recorded.validated among, wasHandled, reaches⟩
  · intro partner paired
    obtain ⟨sender, msg, asked, rest, wasHandled, type, asks, who⟩ := caused.pairs _ _ paired
    have among := List.mem_append_left s.qMessagesIn wasHandled
    exact ⟨sender, msg, asked, rest, silent _ among, recorded.validated among, wasHandled, type,
      asks, who⟩
  · intro isRejected
    have isClosed : (s.view client).isConnected = false := by
      have found := List.getElem?_eq_getElem known
      simp only [view, List.getD, List.getElem?_map, found]
      exact closes.closed client _ found isRejected
    refine ⟨isClosed, ?_, ?_⟩
    · intro listed member
      obtain ⟨other, among, isConnected, isId⟩ := mem_getClientList member
      refine ⟨other, among, ?_, isConnected, isId⟩
      rintro rfl
      exact absurd (isClosed.symm.trans isConnected) (by decide)
    · intro msg ignored member
      exact absurd (isClosed.symm.trans (isConnected_of_messageAll member)) (by decide)

/-- A message of a connection arrives, is read and handled. -/
def asks (client : ConnectionPtr) (msg : Message CustomMsgTypes) : List Event :=
  [.io client (.arrive (frameBytes msg.frame)), .io client (.fill 8), .io client .readDone] ++
    (if msg.body.isEmpty then []
      else [.io client (.fill msg.body.length), .io client .readDone]) ++ [.update]

/-- Two clients are accepted. The first does not answer its code. The second answers, greets all
clients and asks for the first. -/
def strangerAsked : List Event :=
  [.accept 0, .accept 0, .io 1 (.arrive (toBytes (Connection.scramble 0))), .io 1 (.fill 8),
    .io 1 .readDone] ++
    asks 1 (.ofType .messageAll) ++ asks 1 (CustomServer.idMsg .requestToClient 10000)

theorem strangerAsked_runs :
    (runFrom (logged step noted) (start, []) strangerAsked).isSome = true := by decide

/-- The state after the run, and its notes. -/
def afterStranger : ChatServer × Log :=
  (runFrom (logged step noted) (start, []) strangerAsked).get strangerAsked_runs

/-- The first client was sent its greeting, the message to all and the request, its id is
listed, and it is paired with the second. -/
theorem stranger_is_seen :
    runFrom (logged step noted) (start, []) strangerAsked = some afterStranger ∧
      ¬ Validated (entriesOf 0 afterStranger.2) ∧
        messagesOf 0 afterStranger.1.sends = [CustomServer.idMsg .serverAccept 10000,
          CustomServer.idMsg .serverMessage 10001, CustomServer.idMsg .requestToClient 10001] ∧
        10000 ∈ (afterStranger.1.server.getClientList afterStranger.1.view).1 ∧
        afterStranger.1.server.clientConnections 10000 = some 10001 ∧
        ¬ Unseen afterStranger.1 0 := by
  refine ⟨(Option.some_get _).symm, by decide, by decide, by decide, by decide, ?_⟩
  rintro ⟨nothing, -, -⟩
  exact absurd nothing (by decide)

/-- In the same run the first client was not heard. -/
theorem stranger_unheard : Unheard afterStranger.1 afterStranger.2 0 :=
  unvalidated_unheard (Option.some_get strangerAsked_runs).symm (by decide) (by decide)

end ChatServer

end NetworkChat
