import NetworkChat.Server.Sends
import NetworkChat.Server.Hall
import NetworkChat.Connection.Serving
import NetworkChat.Connection.WriteChain

/-!
# The server with its connections

The server, the connections it has accepted and the queue in which all of them put the
messages they read. The peers are free: any bytes arrive at a connection, in any pieces,
and its operations may fail at any time. `Update` takes the messages off the queue one by
one, and what `OnMessage` sends is posted to the connections.

Two logs are kept beside the state of the source: the messages that were handled and the
messages that were given to `Send`, each with its connection.

A run of this system is a run of the hall (`refines_hall`).
-/

set_option autoImplicit false

namespace NetworkChat

open Foundation

/-! ## Messages and their connections -/

/-- Messages, each with the connection it belongs to. -/
abbrev Owned := ConnectionPtr × Message CustomMsgTypes

/-- The messages of one connection, in order. -/
def messagesOf (client : ConnectionPtr) (entries : List Owned) : List (Message CustomMsgTypes) :=
  entries.filterMap fun entry => if entry.1 = client then some entry.2 else none

@[simp] theorem messagesOf_nil (client : ConnectionPtr) : messagesOf client [] = [] := rfl

@[simp] theorem messagesOf_append (client : ConnectionPtr) (first second : List Owned) :
    messagesOf client (first ++ second) = messagesOf client first ++ messagesOf client second :=
  entriesOf_append client first second

theorem messagesOf_own (client : ConnectionPtr) (msgs : List (Message CustomMsgTypes)) :
    messagesOf client (msgs.map fun msg => (client, msg)) = msgs :=
  entriesOf_own client msgs

theorem messagesOf_other {client other : ConnectionPtr} (differs : other ≠ client)
    (msgs : List (Message CustomMsgTypes)) :
    messagesOf client (msgs.map fun msg => (other, msg)) = [] :=
  entriesOf_other differs msgs

theorem messagesOf_concat_self (client : ConnectionPtr) (entries : List Owned)
    (msg : Message CustomMsgTypes) :
    messagesOf client (entries ++ [(client, msg)]) = messagesOf client entries ++ [msg] :=
  entriesOf_concat_self client entries msg

theorem messagesOf_concat_other {client other : ConnectionPtr} (differs : other ≠ client)
    (entries : List Owned) (msg : Message CustomMsgTypes) :
    messagesOf client (entries ++ [(other, msg)]) = messagesOf client entries :=
  entriesOf_concat_other differs entries msg

theorem messagesOf_eq_nil {client : ConnectionPtr} {entries : List Owned}
    (others : ∀ entry ∈ entries, entry.1 ≠ client) : messagesOf client entries = [] :=
  entriesOf_eq_nil others

/-- The messages that calls give to `Send`. -/
def Call.send? : Call → Option Owned
  | .send client msg => some (client, msg)
  | .onClientDisconnect _ => none

def sendsOf (calls : List Call) : List Owned := calls.filterMap Call.send?

theorem mem_sendsOf {calls : List Call} {entry : Owned} :
    entry ∈ sendsOf calls ↔ Call.send entry.1 entry.2 ∈ calls := by
  rw [sendsOf, List.mem_filterMap]
  constructor
  · rintro ⟨call, member, same⟩
    cases call with
    | send client msg => cases same; exact member
    | onClientDisconnect client => cases same
  · exact fun member => ⟨_, member, rfl⟩

/-! ## The system -/

structure ChatServer where
  server : CustomServer
  /-- The connections accepted so far. -/
  connections : List (Connection CustomMsgTypes)
  qMessagesIn : List Owned
  /-- The messages handled so far. -/
  handled : List Owned
  /-- The messages given to `Send` so far. -/
  sends : List Owned
  /-- What left `OnMessage`. -/
  aborted : Option Fault

namespace ChatServer

def start : ChatServer := ⟨CustomServer.start, [], [], [], [], none⟩

/-- `GetID` and `IsConnected`. -/
def peer (c : Connection CustomMsgTypes) : Peer := ⟨c.id, c.isConnected⟩

/-- What the handlers see of a connection. -/
def view (s : ChatServer) (client : ConnectionPtr) : Peer :=
  (s.connections.map peer).getD client ⟨0, false⟩

inductive Event where
  /-- A connection is accepted; the clock gives its validation code. -/
  | accept (clock : UInt64)
  /-- Something happens to a connection. -/
  | io (client : ConnectionPtr) (event : Connection.IoEvent CustomMsgTypes)
  /-- `Update` handles the next message. -/
  | update

/-- What happens to a connection on the thread of the `io_context`. -/
def ofIo : Connection.IoEvent CustomMsgTypes → Bool
  | .send _ => false
  | .disconnect => false
  | _ => true

/-- The handler of `async_accept`, with `OnClientConnect`. -/
def accept (s : ChatServer) (clock : UInt64) : ChatServer :=
  let id := s.server.nIDCounter
  let welcome := CustomServer.idMsg .serverAccept id
  { s with
    server := { s.server with
      dequeConnections := s.server.dequeConnections ++ [s.connections.length],
      nIDCounter := id + 1 },
    connections := s.connections ++ [Connection.accept clock [welcome] id],
    sends := s.sends ++ [(s.connections.length, welcome)] }

/-- The calls that are made for a connection. -/
def giveAll (calls : List Call) (client : ConnectionPtr) (c : Connection CustomMsgTypes) :
    Connection CustomMsgTypes :=
  (messagesOf client (sendsOf calls)).foldl Connection.send c

/-- `Update` handles one message. -/
def handle (s : ChatServer) (client : ConnectionPtr) (msg : Message CustomMsgTypes)
    (later : List Owned) : ChatServer :=
  let s := { s with qMessagesIn := later, handled := s.handled ++ [(client, msg)] }
  match s.server.onMessage s.view client msg with
  | .ok (server, calls) =>
      { s with
        server,
        connections := s.connections.mapIdx (giveAll calls),
        sends := s.sends ++ sendsOf calls }
  | .error fault => { s with aborted := some fault }

/-- The next state, if the event can happen. -/
def act (s : ChatServer) : Event → Option ChatServer
  | .accept clock => some (s.accept clock)
  | .io client event =>
      match s.connections[client]? with
      | some c =>
          if ofIo event then
            (c.step event).map fun d => { s with
              connections := s.connections.set client d,
              qMessagesIn := s.qMessagesIn ++
                (d.qMessagesIn.drop c.qMessagesIn.length).map fun msg => (client, msg) }
          else none
      | none => none
  | .update =>
      match s.qMessagesIn with
      | [] => none
      | (client, msg) :: later => some (s.handle client msg later)

/-- One step. Nothing happens after an abort. -/
def step (s : ChatServer) (event : Event) : Option ChatServer :=
  match s.aborted with
  | some _ => none
  | none => s.act event

/-! ## Inversion -/

theorem step_eq_some {s next : ChatServer} {event : Event} (taken : s.step event = some next) :
    s.aborted = none ∧ s.act event = some next := by
  cases aborted : s.aborted with
  | none => exact ⟨rfl, by simpa only [step, aborted] using taken⟩
  | some fault => simp only [step, aborted] at taken; cases taken

theorem act_io {s next : ChatServer} {client : ConnectionPtr}
    {event : Connection.IoEvent CustomMsgTypes} (taken : s.act (.io client event) = some next) :
    ∃ c d, s.connections[client]? = some c ∧ ofIo event = true ∧ c.step event = some d ∧
      next = { s with
        connections := s.connections.set client d,
        qMessagesIn := s.qMessagesIn ++
          (d.qMessagesIn.drop c.qMessagesIn.length).map fun msg => (client, msg) } := by
  simp only [act] at taken
  split at taken
  case h_1 c found =>
    split at taken
    case isTrue allowed =>
      obtain ⟨d, moved, rfl⟩ := Option.map_eq_some_iff.mp taken
      exact ⟨c, d, found, allowed, moved, rfl⟩
    case isFalse => cases taken
  case h_2 => cases taken

theorem act_update {s next : ChatServer} (taken : s.act .update = some next) :
    ∃ client msg later,
      s.qMessagesIn = (client, msg) :: later ∧ next = s.handle client msg later := by
  simp only [act] at taken
  split at taken
  case h_1 => cases taken
  case h_2 client msg later queue => cases taken; exact ⟨client, msg, later, queue, rfl⟩

/-- A message is handled, or what leaves `OnMessage` ends the server. -/
theorem handle_cases (s : ChatServer) (client : ConnectionPtr) (msg : Message CustomMsgTypes)
    (later : List Owned) :
    (∃ server calls, s.server.onMessage s.view client msg = .ok (server, calls) ∧
        s.handle client msg later = { s with
          server, connections := s.connections.mapIdx (giveAll calls), qMessagesIn := later,
          handled := s.handled ++ [(client, msg)], sends := s.sends ++ sendsOf calls }) ∨
      (∃ fault, s.server.onMessage s.view client msg = .error fault ∧
        s.handle client msg later = { s with
          qMessagesIn := later, handled := s.handled ++ [(client, msg)],
          aborted := some fault }) := by
  have sameView : ({ s with qMessagesIn := later, handled := s.handled ++ [(client, msg)] } :
      ChatServer).view = s.view := rfl
  cases returned : s.server.onMessage s.view client msg with
  | ok result =>
      obtain ⟨server, calls⟩ := result
      refine .inl ⟨server, calls, rfl, ?_⟩
      simp only [handle, sameView, returned]
  | error fault =>
      refine .inr ⟨fault, rfl, ?_⟩
      simp only [handle, sameView, returned]

/-! ## What runs keep -/

/-- Every connection writes what was given to it, and has pushed what was handled or is
still queued of it. -/
structure Sound (s : ChatServer) : Prop where
  writes : ∀ client c, s.connections[client]? = some c →
    Connection.WriteInvariant (messagesOf client s.sends) c
  serves : ∀ (client : ConnectionPtr) (c : Connection CustomMsgTypes),
    s.connections[client]? = some c → Connection.Serves c
  queue : ∀ client c, s.connections[client]? = some c →
    messagesOf client (s.handled ++ s.qMessagesIn) = c.qMessagesIn
  knownMessages : ∀ entry ∈ s.handled ++ s.qMessagesIn, entry.1 < s.connections.length
  knownSends : ∀ entry ∈ s.sends, entry.1 < s.connections.length
  deque : ∀ client ∈ s.server.dequeConnections, client < s.connections.length
  pairing : ∃ matching : Matching UInt32, s.server.clientConnections = matching.partner

theorem sound_start : Sound start where
  writes := by simp [start]
  serves := by simp [start]
  queue := by simp [start]
  knownMessages := by simp [start]
  knownSends := by simp [start]
  deque := by simp [start, CustomServer.start]
  pairing := ⟨Matching.empty, rfl⟩

/-- A connection that has read nothing, and was given its welcome only, is added. -/
theorem Sound.push {s : ChatServer} {d : Connection CustomMsgTypes}
    {welcome : Message CustomMsgTypes} (sound : Sound s)
    (writes : Connection.WriteInvariant [welcome] d) (serves : Connection.Serves d)
    (nothing : d.qMessagesIn = []) (counter : UInt32) :
    Sound { s with
      server := { s.server with
        dequeConnections := s.server.dequeConnections ++ [s.connections.length],
        nIDCounter := counter },
      connections := s.connections ++ [d],
      sends := s.sends ++ [(s.connections.length, welcome)] } := by
  have longer : ∀ client, client < s.connections.length →
      client < (s.connections ++ [d]).length := by
    intro client known
    rw [List.length_append, List.length_singleton]
    exact Nat.lt_succ_of_lt known
  have new : s.connections.length < (s.connections ++ [d]).length := by
    rw [List.length_append, List.length_singleton]
    exact Nat.lt_succ_self _
  refine ⟨?_, ?_, ?_, ?_, ?_, ?_, sound.pairing⟩
  · intro client c found
    rcases getElem?_concat found with ⟨before, old⟩ | ⟨rfl, rfl⟩
    · rw [messagesOf_concat_other before.ne']
      exact sound.writes client c old
    · rw [messagesOf_concat_self,
        messagesOf_eq_nil fun entry member => (sound.knownSends entry member).ne]
      exact writes
  · intro client c found
    rcases getElem?_concat found with ⟨-, old⟩ | ⟨-, rfl⟩
    · exact sound.serves client c old
    · exact serves
  · intro client c found
    rcases getElem?_concat found with ⟨-, old⟩ | ⟨rfl, rfl⟩
    · exact sound.queue client c old
    · rw [nothing]
      exact messagesOf_eq_nil fun entry member => (sound.knownMessages entry member).ne
  · exact fun entry member => longer _ (sound.knownMessages entry member)
  · intro entry member
    rcases List.mem_append.mp member with old | isNew
    · exact longer _ (sound.knownSends entry old)
    · rw [List.mem_singleton.mp isNew]
      exact new
  · intro client member
    rcases List.mem_append.mp member with old | isNew
    · exact longer _ (sound.deque client old)
    · rw [List.mem_singleton.mp isNew]
      exact new

theorem Sound.accept {s : ChatServer} (sound : Sound s) (clock : UInt64) :
    Sound (s.accept clock) := by
  refine sound.push (Connection.writeInvariant_accept _ _ _) (Connection.serves_accept _ _ _) ?_ _
  rw [Connection.accept_eq]
  rfl

/-- Something happens to a connection. -/
theorem Sound.io {s : ChatServer} {client : ConnectionPtr} {c d : Connection CustomMsgTypes}
    {event : Connection.IoEvent CustomMsgTypes} (sound : Sound s)
    (found : s.connections[client]? = some c) (allowed : ofIo event = true)
    (moved : c.step event = some d) :
    Sound { s with
      connections := s.connections.set client d,
      qMessagesIn := s.qMessagesIn ++
        (d.qMessagesIn.drop c.qMessagesIn.length).map fun msg => (client, msg) } := by
  obtain ⟨serves, goesOn⟩ := (sound.serves client c found).step moved
  have known : client < s.connections.length := (List.getElem?_eq_some_iff.mp found).1
  have nothingGiven : event.given = [] := by cases event <;> first | rfl | cases allowed
  refine ⟨?_, ?_, ?_, ?_, ?_, ?_, sound.pairing⟩
  · intro other e at_
    rw [List.getElem?_set] at at_
    split at at_
    case isTrue same =>
      subst same
      cases at_
      have written := (sound.writes client c found).step moved
      rwa [nothingGiven, List.append_nil] at written
    case isFalse => exact sound.writes other e at_
  · intro other e at_
    rw [List.getElem?_set] at at_
    split at at_
    case isTrue same =>
      cases at_
      exact serves
    case isFalse => exact sound.serves other e at_
  · intro other e at_
    rw [← List.append_assoc, messagesOf_append]
    rw [List.getElem?_set] at at_
    split at at_
    case isTrue same =>
      subst same
      cases at_
      obtain ⟨more, pushed⟩ := goesOn.pushed
      rw [messagesOf_own, sound.queue client c found, ← pushed, List.drop_left]
    case isFalse differs =>
      rw [messagesOf_other differs, List.append_nil]
      exact sound.queue other e at_
  · intro entry member
    rw [List.length_set]
    rw [← List.append_assoc] at member
    rcases List.mem_append.mp member with old | new
    · exact sound.knownMessages entry old
    · obtain ⟨msg, -, rfl⟩ := List.mem_map.mp new
      exact known
  · intro entry member
    rw [List.length_set]
    exact sound.knownSends entry member
  · intro other member
    rw [List.length_set]
    exact sound.deque other member

theorem sameReads_foldl_send (c : Connection CustomMsgTypes)
    (msgs : List (Message CustomMsgTypes)) :
    Connection.SameReads c (msgs.foldl Connection.send c) := by
  rw [Connection.foldl_send]
  exact .of_same rfl rfl rfl rfl rfl rfl rfl

/-- The next message is handled. -/
theorem Sound.handle {s : ChatServer} {client : ConnectionPtr} {msg : Message CustomMsgTypes}
    {later : List Owned} (sound : Sound s) (queue : s.qMessagesIn = (client, msg) :: later) :
    Sound (s.handle client msg later) := by
  have sameLog : s.handled ++ [(client, msg)] ++ later = s.handled ++ s.qMessagesIn := by
    rw [queue, List.append_assoc]
    rfl
  have known : client < s.connections.length :=
    sound.knownMessages (client, msg) (by rw [queue]; simp)
  obtain ⟨matching, represents⟩ := sound.pairing
  rcases handle_cases s client msg later with ⟨server, calls, done, handled⟩ | ⟨fault, -, failed⟩
  · obtain ⟨pairing, deque, -⟩ : CustomServer.Advances matching s.server server := by
      rcases CustomServer.onMessage_cases represents s.view client msg with
        ⟨-, -, after, _, returned, advances⟩ | ⟨-, fault, returned, -⟩
      · rw [done] at returned
        cases returned
        exact advances
      · rw [done] at returned
        cases returned
    have given : ∀ {other : ConnectionPtr} {e : Connection CustomMsgTypes},
        (s.connections.mapIdx (giveAll calls))[other]? = some e →
          ∃ c, s.connections[other]? = some c ∧ e = giveAll calls other c := by
      intro other e at_
      rw [List.getElem?_mapIdx] at at_
      obtain ⟨c, found, rfl⟩ := Option.map_eq_some_iff.mp at_
      exact ⟨c, found, rfl⟩
    rw [handled]
    refine ⟨?_, ?_, ?_, ?_, ?_, ?_, pairing.imp fun _ changed => changed.2⟩
    · intro other e at_
      obtain ⟨c, found, rfl⟩ := given at_
      rw [messagesOf_append]
      exact (sound.writes other c found).foldl_send _
    · intro other e at_
      obtain ⟨c, found, rfl⟩ := given at_
      exact (sound.serves other c found).congr (sameReads_foldl_send c _)
    · intro other e at_
      obtain ⟨c, found, rfl⟩ := given at_
      rw [sameLog, sound.queue other c found]
      exact (sameReads_foldl_send c _).queue.symm
    · intro entry member
      rw [sameLog] at member
      rw [List.length_mapIdx]
      exact sound.knownMessages entry member
    · intro entry member
      rw [List.length_mapIdx]
      rcases List.mem_append.mp member with old | new
      · exact sound.knownSends entry old
      · rcases (CustomServer.onMessage_calls done (mem_sendsOf.mp new)).1 with same | among
        · exact same ▸ known
        · exact sound.deque _ among
    · intro other member
      rw [List.length_mapIdx]
      exact sound.deque other (deque.subset member)
  · rw [failed]
    refine ⟨sound.writes, sound.serves, ?_, ?_, sound.knownSends, sound.deque, sound.pairing⟩
    · intro other c found
      rw [sameLog]
      exact sound.queue other c found
    · intro entry member
      rw [sameLog] at member
      exact sound.knownMessages entry member

/-- **Every step of the server keeps it sound**, whatever the peers do. -/
theorem Sound.step {s next : ChatServer} {event : Event} (sound : Sound s)
    (taken : s.step event = some next) : Sound next := by
  obtain ⟨-, taken⟩ := step_eq_some taken
  cases event with
  | accept clock => cases taken; exact sound.accept clock
  | io client event =>
      obtain ⟨c, d, found, allowed, moved, rfl⟩ := act_io taken
      exact sound.io found allowed moved
  | update =>
      obtain ⟨client, msg, later, queue, rfl⟩ := act_update taken
      exact sound.handle queue

/-! ## The hall -/

/-- The hall that a state of the system shows. -/
def hall (s : ChatServer) : Hall := ⟨s.server, s.connections.map peer, s.aborted⟩

/-- The handlers see the same of the connections. -/
theorem view_hall (s : ChatServer) : s.hall.view = s.view := rfl

theorem map_peer_set {connections : List (Connection CustomMsgTypes)} {client : ConnectionPtr}
    {c d : Connection CustomMsgTypes} (found : connections[client]? = some c)
    (same : peer d = peer c) : (connections.set client d).map peer = connections.map peer := by
  rw [List.map_set, same]
  refine List.ext_getElem? fun index => ?_
  rw [List.getElem?_set]
  split
  case isTrue here =>
    subst here
    rw [List.length_map, if_pos (List.getElem?_eq_some_iff.mp found).1, List.getElem?_map, found]
    rfl
  case isFalse => rfl

theorem map_peer_close {connections : List (Connection CustomMsgTypes)} {client : ConnectionPtr}
    {c d : Connection CustomMsgTypes} (found : connections[client]? = some c)
    (same : peer d = { peer c with isConnected := false }) :
    (connections.set client d).map peer = (connections.map peer).modify client
      fun peer => { peer with isConnected := false } := by
  refine List.ext_getElem? fun index => ?_
  rw [List.map_set, List.getElem?_set, List.getElem?_modify, List.getElem?_map, List.length_map]
  split
  case isTrue here =>
    subst here
    rw [if_pos (List.getElem?_eq_some_iff.mp found).1, found, same]
    rfl
  case isFalse => simp

theorem map_peer_giveAll (connections : List (Connection CustomMsgTypes)) (calls : List Call) :
    (connections.mapIdx (giveAll calls)).map peer = connections.map peer := by
  refine List.ext_getElem? fun index => ?_
  rw [List.getElem?_map, List.getElem?_mapIdx, List.getElem?_map, Option.map_map]
  have same : peer ∘ giveAll calls index = peer := by
    funext c
    rw [Function.comp_apply, giveAll, Connection.foldl_send]
    rfl
  rw [same]

/-- **A step of the system is a step of the hall, or the hall does not see it.** -/
theorem Sound.simulates {s next : ChatServer} {event : Event} (sound : Sound s)
    (taken : s.step event = some next) :
    next.hall = s.hall ∨ ∃ seen, s.hall.step seen = some next.hall := by
  obtain ⟨running, taken⟩ := step_eq_some taken
  have acts : ∀ seen, s.hall.step seen = s.hall.act seen := by
    intro seen
    simp only [Hall.step, hall, running]
  cases event with
  | accept clock =>
      cases taken
      refine .inr ⟨.accept, ?_⟩
      rw [acts]
      simp only [Hall.act, Hall.accept, hall, ChatServer.accept, List.map_append,
        List.map_singleton,
        List.length_map, Connection.accept_eq]
      rfl
  | io client event =>
      obtain ⟨c, d, found, -, moved, rfl⟩ := act_io taken
      obtain ⟨-, goesOn⟩ := (sound.serves client c found).step moved
      by_cases same : d.isOpen = c.isOpen
      · refine .inl ?_
        have seen : peer d = peer c := by
          rw [peer, peer, Connection.isConnected, Connection.isConnected, goesOn.id, same]
        simp only [hall, map_peer_set found seen]
      · have isClosed : d.isOpen = false := by
          cases isOpen : d.isOpen with
          | false => rfl
          | true => exact absurd (isOpen.trans (goesOn.closed isOpen).symm) same
        have seen : peer d = { peer c with isConnected := false } := by
          rw [peer, Connection.isConnected, isClosed, goesOn.id]
          rfl
        have known : client < s.hall.peers.length := by
          rw [hall, List.length_map]
          exact (List.getElem?_eq_some_iff.mp found).1
        refine .inr ⟨.close client, ?_⟩
        rw [acts, Hall.act, if_pos known]
        simp only [Hall.close, hall, map_peer_close found seen]
  | update =>
      obtain ⟨client, msg, later, queue, rfl⟩ := act_update taken
      have known : client < s.hall.peers.length := by
        rw [hall, List.length_map]
        exact sound.knownMessages (client, msg) (by rw [queue]; simp)
      refine .inr ⟨.message client msg, ?_⟩
      rw [acts, Hall.act, if_pos known]
      rcases handle_cases s client msg later with ⟨server, calls, done, handled⟩ |
          ⟨fault, failed, ended⟩
      · rw [handled, Hall.handle, view_hall]
        simp only [hall, done, map_peer_giveAll]
      · rw [ended, Hall.handle, view_hall]
        simp only [hall, failed]

/-- **Every state that a run of the system reaches shows a state that a run of the hall
reaches.** -/
theorem refines_hall {s : ChatServer} (reachable : Reachable step start s) :
    Sound s ∧ Reachable Hall.step Hall.start s.hall := by
  have keeps : ∀ (s : ChatServer) event next,
      (Sound s ∧ Reachable Hall.step Hall.start s.hall) → step s event = some next →
        (Sound next ∧ Reachable Hall.step Hall.start next.hall) := by
    rintro s event next ⟨sound, shown⟩ taken
    refine ⟨sound.step taken, ?_⟩
    rcases sound.simulates taken with same | ⟨seen, moved⟩
    · rw [same]
      exact shown
    · exact shown.tail moved
  exact invariant_of_reachable keeps ⟨sound_start, .refl _⟩ reachable

end ChatServer

end NetworkChat
