import NetworkChat.Client.Handlers
import NetworkChat.Server.Isolation

/-!
# A decline

The server makes a pair when a request is handled and passes every answer on without a
look at its code. So a client that declines stays paired with the one it declined
(`decline_never_ends`): until one of the two closes, or texts to a socket that is closed,
every request of one of them or for one of them is refused as busy. An aborted request is
followed by a close, whose handler ends the pair; a declined one is not.
-/

set_option autoImplicit false

namespace NetworkChat

open Foundation

namespace CustomServer

variable {view : ConnectionPtr → Peer} {server : CustomServer} {client : ConnectionPtr}
  {msg : Message CustomMsgTypes} {matching : Matching UInt32}

/-- Texts and closes end pairs, nothing else does. -/
theorem Effect.keeps_pair_of_type {after : CustomServer} {calls : List Call}
    {first second : UInt32} (represents : server.clientConnections = matching.partner)
    (effect : Effect view server matching client msg after calls)
    (paired : matching.partner first = some second) (noText : msg.header.id ≠ .textClient)
    (noClose : msg.header.id ≠ .closeClient) : after.clientConnections first = some second := by
  cases effect with
  | pair id rest receiver type asks found distinct clientFree idFree =>
      have notClient : first ≠ (view client).id := by
        rintro rfl
        cases clientFree.symm.trans paired
      have notId : first ≠ id := by
        rintro rfl
        cases idFree.symm.trans paired
      simp [Matching.pair, notClient, notId, paired]
  | hangUp id receiver type => exact absurd type noText
  | close id type => exact absurd type noClose
  | _ => exact represents ▸ paired

/-- A request of a client that has a partner, or for one, is refused as busy if the id is
on the deque. -/
theorem requestToClient_busy {id : UInt32} {receiver : ConnectionPtr}
    (found : server.findClient view id = some receiver)
    (taken : (server.clientConnections (view client).id).isSome = true ∨
      (server.clientConnections id).isSome = true) :
    server.requestToClient view client id =
      (server, [.send client (idMsg .requestToClient 1)]) := by
  have refused : server.connectClients (view client).id id = (false, server) := by
    rw [connectClients, if_neg]
    rintro ⟨free, -⟩
    rw [Nat.add_eq_zero_iff, ConnectionMap.count_eq_zero_iff,
      ConnectionMap.count_eq_zero_iff] at free
    rcases taken with taken | taken
    · rw [free.1] at taken
      cases taken
    · rw [free.2] at taken
      cases taken
  simp only [requestToClient, found, refused]

end CustomServer

namespace Hall

/-- An answer with the code. -/
def AnswersWith (code : CInt) (msg : Message CustomMsgTypes) : Prop :=
  msg.header.id = .requestAnswer ∧ ∃ rest, msg.pop CInt = .ok (code, rest)

/-- The client asks for the id. -/
def Requests (id : UInt32) (msg : Message CustomMsgTypes) : Prop :=
  msg.header.id = .requestToClient ∧ ∃ rest, msg.pop UInt32 = .ok (id, rest)

/-- The client is on the deque, and its socket is open. -/
def Connected (hall : Hall) (client : ConnectionPtr) : Prop :=
  client ∈ hall.server.dequeConnections ∧ (hall.view client).isConnected = true

/-- The client is one of the two, or has no partner. -/
def FreeBeside (hall : Hall) (a b client : ConnectionPtr) : Prop :=
  client = a ∨ client = b ∨ hall.server.clientConnections (hall.view client).id = none

/-- The answer of the second client is passed on to the first and ends their pair alone;
after it both can ask for others, be asked for, and ask for each other again. -/
structure DeclineEnds (hall : Hall) (a b : ConnectionPtr) (msg : Message CustomMsgTypes) :
    Prop where
  forwarded : ∃ after, hall.server.onMessage hall.view b msg = .ok (after, [.send a msg])
  endedFirst : (hall.handle b msg).server.clientConnections (hall.view a).id = none
  endedSecond : (hall.handle b msg).server.clientConnections (hall.view b).id = none
  others : ∀ key, key ≠ (hall.view a).id → key ≠ (hall.view b).id →
    (hall.handle b msg).server.clientConnections key = hall.server.clientConnections key
  freed : ∀ client receiver request, (client = a ∨ client = b ∨ receiver = a ∨ receiver = b) →
    client ≠ receiver → hall.Connected client → hall.Connected receiver →
    hall.FreeBeside a b client → hall.FreeBeside a b receiver →
    Requests (hall.view receiver).id request →
      ∃ after, (hall.handle b msg).server.onMessage hall.view client request =
        .ok (after, [.send receiver (CustomServer.idMsg .requestToClient (hall.view client).id)])

/-- The step is no text and no close of one of the two. -/
def LeavesPair (first second : UInt32) (hall : Hall) : Event → Prop
  | .message client msg =>
      ((hall.view client).id ≠ first ∧ (hall.view client).id ≠ second) ∨
        (msg.header.id ≠ .textClient ∧ msg.header.id ≠ .closeClient)
  | _ => True

/-- Such a step keeps the pair. -/
theorem partners_of_step {hall next : Hall} {event : Event} {first second : UInt32}
    (paired : Paired hall) (partners : Partners first second hall)
    (leaves : hall.LeavesPair first second event) (taken : hall.step event = some next) :
    Partners first second next := by
  obtain ⟨-, taken⟩ := step_eq_some taken
  cases event with
  | accept => cases taken; exact partners
  | close client => obtain ⟨-, rfl⟩ := act_close taken; exact partners
  | message client msg =>
      obtain ⟨-, rfl⟩ := act_message taken
      obtain ⟨matching, represents⟩ := paired
      have has : matching.partner first = some second := represents ▸ partners.1
      have back : matching.partner second = some first := represents ▸ partners.2
      rw [handle]
      cases returned : hall.server.onMessage hall.view client msg with
      | error fault => exact partners
      | ok result =>
          have effect := CustomServer.onMessage_effect represents returned
          rcases leaves with ⟨notFirst, notSecond⟩ | ⟨noText, noClose⟩
          · exact ⟨effect.keeps_pair represents has notFirst notSecond,
              effect.keeps_pair represents back notSecond notFirst⟩
          · exact ⟨effect.keeps_pair_of_type represents has noText noClose,
              effect.keeps_pair_of_type represents back noText noClose⟩

/-- A pair stands as long as neither of the two texts or closes. -/
theorem partners_of_run {hall last : Hall} {later : List Event} {first second : UInt32}
    (paired : Paired hall) (partners : Partners first second hall)
    (leaves : Meets step (LeavesPair first second) hall later)
    (run : runFrom step hall later = some last) : Partners first second last := by
  let stands (hall : Hall) : Prop := Paired hall ∧ Partners first second hall
  have keeps : ∀ hall event next, stands hall → hall.LeavesPair first second event →
      step hall event = some next → stands next :=
    fun _ _ _ both leaves taken => ⟨both.1.step taken, partners_of_step both.1 both.2 leaves taken⟩
  have atEnd : stands last := invariant_of_meeting_run keeps ⟨paired, partners⟩ leaves run
  exact atEnd.2

/-- An answer changes nothing of the server. -/
theorem handle_answer {hall : Hall} {client : ConnectionPtr} {msg : Message CustomMsgTypes}
    {id : UInt32} (type : msg.header.id = .requestAnswer)
    (paired : hall.server.clientConnections (hall.view client).id = some id) :
    hall.handle client msg = hall := by
  have returned : hall.server.onMessage hall.view client msg =
      .ok (hall.server, hall.server.sendToId hall.view id msg) :=
    CustomServer.onMessage_answer type paired
  rw [handle, returned]

/-- A request that involves a partner is refused as busy. -/
theorem Partners.busy {hall : Hall} {first second id : UInt32} {client receiver : ConnectionPtr}
    {request : Message CustomMsgTypes} (partners : Partners first second hall)
    (requests : Requests id request) (found : hall.server.findClient hall.view id = some receiver)
    (involves : (hall.view client).id = first ∨ (hall.view client).id = second ∨
      id = first ∨ id = second) :
    hall.server.onMessage hall.view client request =
      .ok (hall.server, [.send client (CustomServer.idMsg .requestToClient 1)]) := by
  obtain ⟨type, rest, asks⟩ := requests
  rw [CustomServer.onMessage_request type asks, CustomServer.requestToClient_busy found]
  have isFirst : (hall.server.clientConnections first).isSome = true := by
    rw [partners.1]
    rfl
  have isSecond : (hall.server.clientConnections second).isSome = true := by
    rw [partners.2]
    rfl
  rcases involves with same | same | same | same
  · exact .inl (same ▸ isFirst)
  · exact .inl (same ▸ isSecond)
  · exact .inr (same ▸ isFirst)
  · exact .inr (same ▸ isSecond)

/-- **A decline never ends the pairing.** In whatever state a run leads to, the answer is
passed on and the pair stays. It stays in every state that is reached after it without a
text or a close of the two, and there every request of one of them or for one of them, for
an id of the deque, is refused as busy. -/
theorem decline_never_ends {final : Hall} {events : List Event}
    (run : runFrom step start events = some final) {a b : ConnectionPtr}
    (paired : PairedByRequest events (final.view a).id (final.view b).id)
    {msg : Message CustomMsgTypes} (declines : AnswersWith 0 msg) :
    ¬ DeclineEnds final a b msg ∧
      ∀ later last, runFrom step (final.handle b msg) later = some last →
        Meets step (LeavesPair (final.view a).id (final.view b).id) (final.handle b msg) later →
          Partners (final.view a).id (final.view b).id last ∧
            ∀ client receiver id request, Requests id request →
              last.server.findClient last.view id = some receiver →
              ((last.view client).id = (final.view a).id ∨
                (last.view client).id = (final.view b).id ∨
                id = (final.view a).id ∨ id = (final.view b).id) →
              last.server.onMessage last.view client request =
                .ok (last.server, [.send client (CustomServer.idMsg .requestToClient 1)]) := by
  have has : Partners (final.view a).id (final.view b).id final := paired.stands run
  have unchanged := handle_answer declines.1 has.2
  refine ⟨fun ends => ?_, fun later last more leaves => ?_⟩
  · have gone := ends.endedFirst
    rw [unchanged, has.1] at gone
    cases gone
  · rw [unchanged] at more leaves
    have stands := partners_of_run (paired_and_nodup run).1 has leaves more
    exact ⟨stands, fun client receiver id request requests found involves =>
      stands.busy requests found involves⟩

/-- The client's answer when it declines. -/
def declineMsg : Message CustomMsgTypes := (Message.ofType .requestAnswer).push (0 : CInt)

theorem threeClients_runs : (runFrom step start threeClients).isSome = true := by decide

/-- Three clients are connected, and the first has asked for the second. -/
def threeConnected : Hall := (runFrom step start threeClients).get threeClients_runs

theorem threeConnected_reached : runFrom step start threeClients = some threeConnected :=
  (Option.some_get threeClients_runs).symm

theorem threeConnected_paired :
    PairedByRequest threeClients (threeConnected.view 0).id (threeConnected.view 1).id := by
  refine ⟨[.accept, .accept], .message 0 (CustomServer.idMsg .requestToClient 10001), [.accept],
    (runFrom step start [.accept, .accept]).get (by decide),
    (runFrom step start requestToSecond).get (by decide), rfl, (Option.some_get _).symm, ?_, ?_, ?_⟩
  · exact (Option.some_get _).symm
  · exact ⟨0, _, .ofType .requestToClient, rfl, by decide, rfl, Message.pop_push .., by decide,
      by decide⟩
  · exact ⟨⟨by decide, by decide⟩, ⟨by decide, by decide⟩⟩

theorem declineMsg_answers : AnswersWith 0 declineMsg :=
  ⟨rfl, .ofType .requestAnswer, Message.pop_push ..⟩

/-- The second client declines, the first two stay partners, and a request of the third for
the second is refused as busy. -/
theorem declined_is_busy :
    runFrom step start threeClients = some threeConnected ∧
      PairedByRequest threeClients (threeConnected.view 0).id (threeConnected.view 1).id ∧
        AnswersWith 0 declineMsg ∧ ¬ DeclineEnds threeConnected 0 1 declineMsg ∧
          ((threeConnected.handle 1 declineMsg).server.onMessage threeConnected.view 2
              (CustomServer.idMsg .requestToClient 10001)).map Prod.snd =
            .ok [.send 2 (CustomServer.idMsg .requestToClient 1)] := by
  refine ⟨threeConnected_reached, threeConnected_paired, declineMsg_answers, ?_, by decide⟩
  intro ends
  exact absurd ends.endedFirst (by decide)

/-- The same from the theorem, also for the request after the decline. -/
theorem decline_never_ends_three :
    ¬ DeclineEnds threeConnected 0 1 declineMsg ∧
      ∃ last, runFrom step (threeConnected.handle 1 declineMsg) [.accept] = some last ∧
        last.server.onMessage last.view 2 (CustomServer.idMsg .requestToClient 10001) =
          .ok (last.server, [.send 2 (CustomServer.idMsg .requestToClient 1)]) := by
  have never := decline_never_ends threeConnected_reached threeConnected_paired declineMsg_answers
  have stands := never.2 [.accept]
    ((runFrom step (threeConnected.handle 1 declineMsg) [.accept]).get
    (by decide)) (Option.some_get _).symm ⟨trivial, trivial⟩
  have asks : Requests 10001 (CustomServer.idMsg .requestToClient 10001) :=
    ⟨rfl, .ofType .requestToClient, Message.pop_push ..⟩
  exact ⟨never.1, _, (Option.some_get _).symm,
    stands.2 2 1 10001 _ asks (by decide) (.inr (.inr (.inr (by decide))))⟩

end Hall

end NetworkChat
