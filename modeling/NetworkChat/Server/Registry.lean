import NetworkChat.Server.Broadcast
import NetworkChat.Server.Effects
import NetworkChat.Server.Hall

/-!
# Who is on the deque

`m_dequeConnections` over whole runs of the server. A connection comes onto it when it is accepted,
and leaves it when `MessageAllClient` or `GetClientList` finds it closed, which then call
`OnClientDisconnect`; no other handler touches it (`Sweeps`).

So every connection that was accepted is on the deque, or was reported to `OnClientDisconnect` once
and was closed (`departures_of_run`). Hence the deque holds all open connections in the order in
which they were accepted, whatever was pruned before: a list names exactly these
(`list_names_open`), and a greeting goes to each of them but the sender (`greeting_reaches_open`).
-/

set_option autoImplicit false

namespace NetworkChat

open Foundation

namespace CustomServer

variable {view : ConnectionPtr → Peer} {server after : CustomServer} {matching : Matching UInt32}
  {client : ConnectionPtr} {msg : Message CustomMsgTypes} {calls : List Call}

/-- The connections that are reported to `OnClientDisconnect`. -/
def disconnected (calls : List Call) : List ConnectionPtr :=
  calls.filterMap fun call =>
    match call with
    | .onClientDisconnect client => some client
    | .send _ _ => none

/-- The messages that are sent, with the clients that they are sent to. -/
def messages (calls : List Call) : List (ConnectionPtr × Message CustomMsgTypes) :=
  calls.filterMap fun call =>
    match call with
    | .send client msg => some (client, msg)
    | .onClientDisconnect _ => none

/-- What a loop over the deque reports, when it reports the closed connections. -/
theorem disconnected_flatMap {turn : ConnectionPtr → List Call}
    (reports : ∀ client, disconnected (turn client) =
      if (view client).isConnected then [] else [client]) (clients : List ConnectionPtr) :
    disconnected (clients.flatMap turn) =
      clients.filter fun client => !(view client).isConnected := by
  induction clients with
  | nil => rfl
  | cons client clients ih =>
      have split : disconnected ((client :: clients).flatMap turn) =
          disconnected (turn client) ++ disconnected (clients.flatMap turn) := by
        rw [List.flatMap_cons]
        exact List.filterMap_append
      rw [split, reports, ih]
      cases isOpen : (view client).isConnected <;> simp [isOpen]

/-- What a loop over the deque sends, when it sends one message to some open connections. -/
theorem messages_flatMap {turn : ConnectionPtr → List Call} {which : ConnectionPtr → Bool}
    (sends : ∀ client, messages (turn client) = if which client then [(client, msg)] else [])
    (clients : List ConnectionPtr) :
    messages (clients.flatMap turn) = (clients.filter which).map fun client => (client, msg) := by
  induction clients with
  | nil => rfl
  | cons client clients ih =>
      have split : messages ((client :: clients).flatMap turn) =
          messages (turn client) ++ messages (clients.flatMap turn) := by
        rw [List.flatMap_cons]
        exact List.filterMap_append
      rw [split, sends, ih]
      cases isOne : which client <;> simp [isOne]

theorem disconnected_messageAllClient (ignoreClient : Option ConnectionPtr) :
    disconnected (server.messageAllClient view msg ignoreClient).2 =
      server.dequeConnections.filter fun client => !(view client).isConnected := by
  refine disconnected_flatMap (fun client => ?_) _
  split
  · split <;> rfl
  · rfl

theorem messages_messageAllClient (ignoreClient : Option ConnectionPtr) :
    messages (server.messageAllClient view msg ignoreClient).2 =
      (server.dequeConnections.filter fun client =>
        (view client).isConnected && decide (some client ≠ ignoreClient)).map
          fun client => (client, msg) := by
  refine messages_flatMap (fun client => ?_) _
  cases (view client).isConnected with
  | false => rfl
  | true =>
      by_cases ignored : some client ≠ ignoreClient
      · simp [ignored, messages]
      · simp [ignored, messages]

theorem disconnected_getClientList :
    disconnected (server.getClientList view).2.2 =
      server.dequeConnections.filter fun client => !(view client).isConnected := by
  refine disconnected_flatMap (fun client => ?_) _
  split <;> rfl

/-- `GetClientList` sends nothing. -/
theorem messages_getClientList : messages (server.getClientList view).2.2 = [] := by
  rw [messages, List.filterMap_eq_nil_iff]
  intro call member
  obtain ⟨client, -, isCall⟩ := List.mem_flatMap.mp member
  split at isCall
  · cases isCall
  · cases List.mem_singleton.mp isCall
    rfl

theorem list_getClientList :
    (server.getClientList view).1 =
      (server.dequeConnections.filter fun client => (view client).isConnected).map
        fun client => (view client).id :=
  (map_filter_eq_flatMap _ _ _).symm

/-- A handler leaves the deque alone and reports nobody, or takes the closed connections off it and
reports each of them. -/
inductive Sweeps (view : ConnectionPtr → Peer) (server after : CustomServer) (calls : List Call) :
    Prop where
  | leaves (deque : after.dequeConnections = server.dequeConnections)
      (nobody : disconnected calls = [])
  | prunes (deque : after.dequeConnections =
        server.dequeConnections.filter fun client => (view client).isConnected)
      (closed : disconnected calls =
        server.dequeConnections.filter fun client => !(view client).isConnected)

/-- **What a handler does to the deque.** -/
theorem onMessage_sweeps (represents : server.clientConnections = matching.partner)
    (returned : server.onMessage view client msg = .ok (after, calls)) :
    Sweeps view server after calls := by
  cases onMessage_effect represents returned with
  | greet type => exact .prunes (prune_eq_filter view _) (disconnected_messageAllClient _)
  | list type =>
      refine .prunes (prune_eq_filter view _) ?_
      have split : ∀ first second, disconnected (first ++ second) =
          disconnected first ++ disconnected second := fun _ _ => List.filterMap_append
      rw [split, disconnected_getClientList]
      exact List.append_nil _
  | close id type paired =>
      refine .leaves rfl ?_
      rw [sendToId]
      split <;> rfl
  | echo type => exact .leaves rfl rfl
  | unknown id rest type asks absent => exact .leaves rfl rfl
  | busy id rest receiver type asks found taken => exact .leaves rfl rfl
  | pair id rest receiver type asks found distinct clientFree idFree => exact .leaves rfl rfl
  | relay id receiver type paired found => exact .leaves rfl rfl
  | drop id type paired absent => exact .leaves rfl rfl
  | hangUp id receiver type paired found isClosed => exact .leaves rfl rfl
  | ignore type => exact .leaves rfl rfl

end CustomServer

namespace Hall

open CustomServer

/-- The connections that a step reports to `OnClientDisconnect`. -/
def reports (hall : Hall) : Event → List ConnectionPtr
  | .message client msg =>
      match hall.server.onMessage hall.view client msg with
      | .ok (_, calls) => disconnected calls
      | .error _ => []
  | _ => []

/-- Every connection is on the deque, or was reported once and is closed. -/
structure Registered (hall : Hall) (reported : List ConnectionPtr) : Prop where
  each : (reported ++ hall.server.dequeConnections).Perm (List.range hall.peers.length)
  closed : ∀ client ∈ reported, (hall.view client).isConnected = false

variable {hall next : Hall} {reported : List ConnectionPtr}

theorem registered_start : Registered start [] := ⟨.refl _, nofun⟩

/-- A closed connection stays closed. -/
theorem closed_of_accept {client : ConnectionPtr} (known : client < hall.peers.length)
    (closed : (hall.view client).isConnected = false) :
    (hall.accept.view client).isConnected = false := by
  rw [view, List.getD_eq_getElem?_getD] at closed ⊢
  rwa [accept, List.getElem?_append_left known]

theorem closed_of_close {client other : ConnectionPtr}
    (closed : (hall.view client).isConnected = false) :
    ((hall.close other).view client).isConnected = false := by
  rw [view, List.getD_eq_getElem?_getD] at closed ⊢
  simp only [close, List.getElem?_modify]
  cases found : hall.peers[client]? with
  | none => rfl
  | some peer =>
      rw [found] at closed
      by_cases same : other = client
      · simp [same]
      · simpa [same] using closed

theorem Registered.accept (registered : Registered hall reported) :
    Registered hall.accept reported where
  each := by
    simp only [Hall.accept, List.length_append, List.length_singleton, List.range_succ]
    rw [← List.append_assoc]
    exact registered.each.append_right _
  closed := by
    intro client member
    have known := List.mem_range.mp (registered.each.subset (List.mem_append_left _ member))
    exact closed_of_accept known (registered.closed client member)

theorem Registered.close (registered : Registered hall reported) (client : ConnectionPtr) :
    Registered (hall.close client) reported where
  each := by
    simp only [Hall.close, List.length_modify]
    exact registered.each
  closed := fun other member => closed_of_close (registered.closed other member)

/-- A message is handled. -/
theorem Registered.sweep (registered : Registered hall reported) {after : CustomServer}
    {calls : List Call} (sweeps : Sweeps hall.view hall.server after calls) :
    Registered { hall with server := after } (reported ++ disconnected calls) := by
  cases sweeps with
  | leaves deque nobody =>
      rw [nobody, List.append_nil]
      exact ⟨by simpa only [deque] using registered.each, registered.closed⟩
  | prunes deque closed =>
      refine ⟨?_, fun client member => ?_⟩
      · have parts := (List.filter_append_perm (fun client => (hall.view client).isConnected)
          hall.server.dequeConnections).symm.trans List.perm_append_comm
        rw [closed, deque, List.append_assoc]
        exact ((parts.append_left reported).symm).trans registered.each
      · rcases List.mem_append.mp member with before | now
        · exact registered.closed client before
        · rw [closed] at now
          have isClosed : (hall.view client).isConnected = false := by
            simpa using (List.mem_filter.mp now).2
          exact isClosed

/-- **Every step keeps the registry.** -/
theorem Registered.step {event : Event} (registered : Registered hall reported)
    (paired : Paired hall) (taken : hall.step event = some next) :
    Registered next (reported ++ hall.reports event) := by
  obtain ⟨matching, represents⟩ := paired
  obtain ⟨-, acted⟩ := step_eq_some taken
  cases event with
  | accept =>
      cases acted
      have nobody : reported ++ hall.reports .accept = reported := List.append_nil _
      rw [nobody]
      exact registered.accept
  | close client =>
      obtain ⟨-, rfl⟩ := act_close acted
      have nobody : reported ++ hall.reports (.close client) = reported := List.append_nil _
      rw [nobody]
      exact registered.close client
  | message client msg =>
      obtain ⟨-, rfl⟩ := act_message acted
      cases returned : hall.server.onMessage hall.view client msg with
      | ok result =>
          obtain ⟨after, calls⟩ := result
          simp only [reports, handle, returned]
          exact registered.sweep (onMessage_sweeps represents returned)
      | error fault =>
          simp only [reports, handle, returned, List.append_nil]
          exact ⟨registered.each, registered.closed⟩

theorem registered_of_logged {events : List Event} {final : Hall × List ConnectionPtr}
    (run : runFrom (logged step reports) (start, []) events = some final) :
    Paired final.1 ∧ Registered final.1 final.2 := by
  let kept (state : Hall × List ConnectionPtr) : Prop :=
    Paired state.1 ∧ Registered state.1 state.2
  have keeps : ∀ state event next, kept state → logged step reports state event = some next →
      kept next := by
    rintro state event next ⟨paired, registered⟩ taken
    obtain ⟨moved, written⟩ := logged_eq_some taken
    rw [show next = (next.1, next.2) from rfl, written]
    exact ⟨paired.step moved, registered.step paired moved⟩
  exact invariant_of_run keeps ⟨paired_start, registered_start⟩ run

/-- **Every connection that was accepted is on the deque, or was reported to `OnClientDisconnect`
once and is closed**, after every run of the server. -/
theorem departures_of_run {events : List Event} {final : Hall × List ConnectionPtr}
    (run : runFrom (logged step reports) (start, []) events = some final) :
    Registered final.1 final.2 :=
  (registered_of_logged run).2

/-! ## The open connections -/

/-- The open connections, in the order in which they were accepted. -/
def openClients (hall : Hall) : List ConnectionPtr :=
  (List.range hall.peers.length).filter fun client => (hall.view client).isConnected

/-- The open connections of the deque are all open connections. -/
theorem Registered.filter_deque (registered : Registered hall reported) (numbered : Numbered hall) :
    hall.server.dequeConnections.filter (fun client => (hall.view client).isConnected) =
      hall.openClients := by
  refine (numbered.deque.filter _).eq_of_length_le (List.Nodup.length_le_of_subset ?_ ?_)
  · exact List.nodup_range.filter _
  · intro client member
    obtain ⟨known, isOpen⟩ := List.mem_filter.mp member
    refine List.mem_filter.mpr ⟨?_, isOpen⟩
    rcases List.mem_append.mp (registered.each.symm.subset known) with gone | present
    · exact absurd ((registered.closed client gone).symm.trans isOpen) (by decide)
    · exact present

theorem registered_of_run {events : List Event} (run : runFrom step start events = some hall) :
    ∃ reported, Registered hall reported ∧ Numbered hall := by
  obtain ⟨reported, logRun⟩ : ∃ reported,
      runFrom (logged step reports) (start, []) events = some (hall, [] ++ reported) :=
    exists_log_of_run [] run
  have kept : Kept events hall :=
    history_invariant_of_run (fun _ _ _ _ kept taken => Kept.step kept taken) kept_start run
  exact ⟨_, (registered_of_logged logRun).2, kept.numbered⟩

/-- The list that is sent to a client, and the deque behind it. -/
theorem list_of_run {events : List Event} (run : runFrom step start events = some hall)
    (client : ConnectionPtr) :
    messages ((hall.server.getClientList hall.view).2.2 ++
        [.send client (listMsg (hall.server.getClientList hall.view).1)]) =
      [(client, listMsg (hall.openClients.map fun other => (hall.view other).id))] ∧
      (hall.server.getClientList hall.view).2.1.dequeConnections = hall.openClients := by
  obtain ⟨reported, registered, numbered⟩ := registered_of_run run
  have allOpen := registered.filter_deque numbered
  refine ⟨?_, (prune_eq_filter _ _).trans allOpen⟩
  have split : ∀ first second, messages (first ++ second) = messages first ++ messages second :=
    fun _ _ => List.filterMap_append
  rw [split, messages_getClientList, list_getClientList, allOpen]
  rfl

/-- **A list names exactly the open connections**, in the order in which they were accepted, and
these are then on the deque. -/
theorem list_names_open {events : List Event} (run : runFrom step start events = some hall)
    (client : ConnectionPtr) {msg : Message CustomMsgTypes} (type : msg.header.id = .clientList) :
    ∃ after calls, hall.server.onMessage hall.view client msg = .ok (after, calls) ∧
      messages calls =
        [(client, listMsg (hall.openClients.map fun other => (hall.view other).id))] ∧
      after.dequeConnections = hall.openClients :=
  ⟨_, _, by simp only [onMessage, type]; rfl, list_of_run run client⟩

/-- **A greeting goes to every open connection but the sender's**, once and in the order in which
they were accepted. -/
theorem greeting_reaches_open {events : List Event} (run : runFrom step start events = some hall)
    (client : ConnectionPtr) {msg : Message CustomMsgTypes} (type : msg.header.id = .messageAll) :
    ∃ after calls, hall.server.onMessage hall.view client msg = .ok (after, calls) ∧
      messages calls = (hall.openClients.filter fun other => other ≠ client).map
        (fun other => (other, idMsg .serverMessage (hall.view client).id)) ∧
      after.dequeConnections = hall.openClients := by
  obtain ⟨reported, registered, numbered⟩ := registered_of_run run
  have allOpen := registered.filter_deque numbered
  let greeting := idMsg .serverMessage (hall.view client).id
  refine ⟨(hall.server.messageAllClient hall.view greeting (some client)).1,
    (hall.server.messageAllClient hall.view greeting (some client)).2,
    by simp only [onMessage, type]; rfl, ?_, (prune_eq_filter _ _).trans allOpen⟩
  rw [messages_messageAllClient, ← allOpen, List.filter_filter]
  congr 2
  funext other
  simp [Bool.and_comm]

/-- Four clients connect, the sockets of two close, and the first client asks for the list. -/
def twoLeave : List Event :=
  [.accept, .accept, .close 1, .accept, .close 2, .message 0 (.ofType .clientList), .accept]

/-- Where two have left. -/
def afterTwoLeft : Hall × List ConnectionPtr :=
  (runFrom (logged step reports) (start, []) twoLeave).get (by decide)

theorem run_twoLeave :
    runFrom (logged step reports) (start, []) twoLeave = some afterTwoLeft :=
  (Option.some_get _).symm

theorem departures_twoLeave : Registered afterTwoLeft.1 afterTwoLeft.2 ∧
    afterTwoLeft.2 = [1, 2] ∧ afterTwoLeft.1.server.dequeConnections = [0, 3] :=
  ⟨departures_of_run run_twoLeave, by decide, by decide⟩

/-- Three clients connect, and the socket of the second closes. -/
def secondLeaves : List Event := [.accept, .accept, .close 1, .accept]

/-- Where the second has left, and nobody has noticed. -/
def afterSecondLeft : Hall := (runFrom step start secondLeaves).get (by decide)

theorem run_secondLeaves : runFrom step start secondLeaves = some afterSecondLeft :=
  (Option.some_get _).symm

theorem list_secondLeaves : ∃ after calls,
    afterSecondLeft.server.onMessage afterSecondLeft.view 0 (.ofType .clientList) =
        .ok (after, calls) ∧
      messages calls = [(0, listMsg [10000, 10002])] ∧ after.dequeConnections = [0, 2] := by
  have ids : afterSecondLeft.openClients.map (fun other => (afterSecondLeft.view other).id) =
      [10000, 10002] := by decide
  have isOpen : afterSecondLeft.openClients = [0, 2] := by decide
  have list := list_names_open run_secondLeaves 0
    (rfl : (Message.ofType CustomMsgTypes.clientList).header.id = _)
  rwa [ids, isOpen] at list

theorem greeting_secondLeaves : ∃ after calls,
    afterSecondLeft.server.onMessage afterSecondLeft.view 0 (.ofType .messageAll) =
        .ok (after, calls) ∧
      messages calls = [(2, idMsg .serverMessage 10000)] ∧ after.dequeConnections = [0, 2] := by
  have others : afterSecondLeft.openClients.filter (fun other => other ≠ 0) = [2] := by decide
  have isOpen : afterSecondLeft.openClients = [0, 2] := by decide
  have id : (afterSecondLeft.view 0).id = 10000 := by decide
  have greeting := greeting_reaches_open run_secondLeaves 0
    (rfl : (Message.ofType CustomMsgTypes.messageAll).header.id = _)
  rwa [others, isOpen, id] at greeting

end Hall

end NetworkChat
