import NetworkChat.Server.Consent
import NetworkChat.Server.System

/-!
# Pairs are left alone

A message of a client outside a pair changes nothing of the pair, whatever the message is,
and nothing is sent to either of the two but the greeting of a `MessageAll`, once, and a
request for one of them is answered to its sender alone (`pair_undisturbed`).
-/

set_option autoImplicit false

namespace NetworkChat

open Foundation

/-- The messages that calls give to `Send` for one connection. -/
def sentTo (receiver : ConnectionPtr) (calls : List Call) : List (Message CustomMsgTypes) :=
  messagesOf receiver (sendsOf calls)

@[simp] theorem sentTo_nil (receiver : ConnectionPtr) : sentTo receiver [] = [] := rfl

@[simp] theorem sentTo_append (receiver : ConnectionPtr) (first second : List Call) :
    sentTo receiver (first ++ second) = sentTo receiver first ++ sentTo receiver second := by
  rw [sentTo, sendsOf, List.filterMap_append, messagesOf_append]
  rfl

theorem sentTo_self (receiver : ConnectionPtr) (msg : Message CustomMsgTypes) :
    sentTo receiver [.send receiver msg] = [msg] := by
  simp [sentTo, sendsOf, Call.send?, messagesOf]

theorem sentTo_other {receiver other : ConnectionPtr} (differs : other ≠ receiver)
    (msg : Message CustomMsgTypes) : sentTo receiver [.send other msg] = [] := by
  simp [sentTo, sendsOf, Call.send?, messagesOf, differs]

@[simp] theorem sentTo_onClientDisconnect (receiver client : ConnectionPtr) :
    sentTo receiver [.onClientDisconnect client] = [] := rfl

namespace CustomServer

variable {view : ConnectionPtr → Peer} {server : CustomServer} {client receiver : ConnectionPtr}
  {msg : Message CustomMsgTypes} {matching : Matching UInt32}

/-- `MessageAllClient` sends its message once to every open connection of the deque but the
one it ignores. -/
theorem sentTo_messageAllClient (nodup : server.dequeConnections.Nodup)
    (ignoreClient : Option ConnectionPtr) :
    sentTo receiver (server.messageAllClient view msg ignoreClient).2 =
      if receiver ∈ server.dequeConnections ∧ (view receiver).isConnected = true ∧
          some receiver ≠ ignoreClient then [msg] else [] := by
  simp only [messageAllClient]
  generalize server.dequeConnections = clients at nodup ⊢
  induction clients with
  | nil => simp
  | cons first clients ih =>
      obtain ⟨notIn, nodup⟩ := List.nodup_cons.mp nodup
      rw [List.flatMap_cons, sentTo_append, ih nodup]
      by_cases same : first = receiver
      · subst same
        by_cases isOpen : (view first).isConnected = true
        · by_cases ignored : some first = ignoreClient
          · simp [isOpen, ignored]
          · simp [isOpen, ignored, notIn, sentTo_self]
        · simp [isOpen]
      · have other : ∀ call : List Call, call = [.send first msg] → sentTo receiver call = [] := by
          rintro call rfl
          exact sentTo_other same msg
        have notFirst : receiver ≠ first := Ne.symm same
        split
        · split <;> simp [other, notFirst]
        · simp [notFirst]

/-- `GetClientList` sends nothing. -/
theorem sentTo_getClientList : sentTo receiver (server.getClientList view).2.2 = [] := by
  simp only [getClientList]
  induction server.dequeConnections with
  | nil => rfl
  | cons first clients ih =>
      rw [List.flatMap_cons, sentTo_append, ih]
      split <;> rfl

theorem id_of_findClient {id : UInt32} (found : server.findClient view id = some receiver) :
    (view receiver).id = id := by
  simpa using List.find?_some found

/-- A handler leaves a pair alone that its sender does not belong to. -/
theorem Effect.keeps_pair {after : CustomServer} {calls : List Call} {first second : UInt32}
    (represents : server.clientConnections = matching.partner)
    (effect : Effect view server matching client msg after calls)
    (paired : matching.partner first = some second) (notFirst : (view client).id ≠ first)
    (notSecond : (view client).id ≠ second) : after.clientConnections first = some second := by
  cases effect with
  | pair id rest found type asks receives distinct clientFree idFree =>
      have notId : first ≠ id := by
        rintro rfl
        cases idFree.symm.trans paired
      simp [Matching.pair, notId, notFirst.symm, paired]
  | hangUp id found type has receives isClosed =>
      have notId : first ≠ id := by
        rintro rfl
        have back := matching.symmetric _ _ has
        exact notSecond (Option.some.inj (back.symm.trans paired))
      simp [Matching.unpair, notId, notFirst.symm, paired]
  | close id type has =>
      have notId : first ≠ id := by
        rintro rfl
        have back := matching.symmetric _ _ has
        exact notSecond (Option.some.inj (back.symm.trans paired))
      simp [Matching.unpair, notId, notFirst.symm, paired]
  | _ => exact represents ▸ paired

/-- A handler sends nothing to a client that is paired with another one than its sender,
but a greeting. -/
theorem Effect.sends_to_paired {after : CustomServer} {calls : List Call} {first second : UInt32}
    (nodup : server.dequeConnections.Nodup)
    (effect : Effect view server matching client msg after calls)
    (paired : matching.partner first = some second) (notFirst : (view client).id ≠ first)
    (notSecond : (view client).id ≠ second) (isFirst : (view receiver).id = first) :
    sentTo receiver calls = [] ∨
      (msg.header.id = .messageAll ∧
        sentTo receiver calls = [idMsg .serverMessage (view client).id]) := by
  have notSender : client ≠ receiver := by
    rintro rfl
    exact notFirst isFirst
  -- What goes to the partner of the sender does not go to the pair.
  have notPartner : ∀ id found, matching.partner (view client).id = some id →
      server.findClient view id = some found → found ≠ receiver := by
    rintro id found has receives rfl
    obtain rfl : first = id := isFirst.symm.trans (id_of_findClient receives)
    have back := matching.symmetric _ _ has
    exact notSecond (Option.some.inj (back.symm.trans paired))
  cases effect with
  | greet type =>
      rw [sentTo_messageAllClient nodup]
      split
      · exact .inr ⟨type, rfl⟩
      · exact .inl rfl
  | list =>
      rw [sentTo_append, sentTo_getClientList, sentTo_other notSender]
      exact .inl rfl
  | pair id rest found type asks receives distinct clientFree idFree =>
      have notFound : found ≠ receiver := by
        rintro rfl
        obtain rfl : first = id := isFirst.symm.trans (id_of_findClient receives)
        cases idFree.symm.trans paired
      exact .inl (sentTo_other notFound _)
  | relay id found type has receives =>
      exact .inl (sentTo_other (notPartner id found has receives) _)
  | close id type has =>
      refine .inl ?_
      rw [sendToId]
      cases receives : server.findClient view id with
      | none => rfl
      | some found => exact sentTo_other (notPartner id found has receives) _
  | drop => exact .inl rfl
  | ignore => exact .inl rfl
  | _ => exact .inl (sentTo_other notSender _)

/-- A request for a client that has a partner is refused, and its sender alone hears of
it. -/
theorem Effect.refuses {after : CustomServer} {calls : List Call} {first second : UInt32}
    {rest : Message CustomMsgTypes} (effect : Effect view server matching client msg after calls)
    (paired : matching.partner first = some second) (type : msg.header.id = .requestToClient)
    (asks : msg.pop UInt32 = .ok (first, rest)) :
    after = server ∧ ∃ code, calls = [.send client (idMsg .requestToClient code)] := by
  cases effect with
  | unknown => exact ⟨rfl, 0, rfl⟩
  | busy => exact ⟨rfl, 1, rfl⟩
  | pair id rest found _ asked receives distinct clientFree idFree =>
      cases asked.symm.trans asks
      cases idFree.symm.trans paired
  | echo other => cases other.symm.trans type
  | greet other => cases other.symm.trans type
  | list other => cases other.symm.trans type
  | relay id found other => rcases other with other | other <;> cases other.symm.trans type
  | drop id other => rcases other with other | other <;> cases other.symm.trans type
  | hangUp id found other => cases other.symm.trans type
  | close id other => cases other.symm.trans type
  | ignore other =>
      rcases other with other | other | other | ⟨value, large, other⟩
      all_goals cases other.symm.trans type

end CustomServer

namespace Hall

/-- What a run keeps of the pairing and of the deque. -/
theorem paired_and_nodup {final : Hall} {events : List Event}
    (run : runFrom step start events = some final) :
    Paired final ∧ final.server.dequeConnections.Nodup := by
  have kept : Kept events final :=
    history_invariant_of_run (fun _ _ _ _ kept taken => Kept.step kept taken) kept_start run
  exact ⟨kept.paired, List.nodup_range.sublist kept.numbered.deque⟩

/-- **A message of a client outside a pair leaves the pair alone**: its entries stay, and
nothing is sent to the two but the greeting of a `MessageAll`, once. -/
theorem pair_undisturbed {final : Hall} {events : List Event}
    (run : runFrom step start events = some final) {first second : UInt32}
    (paired : final.server.clientConnections first = some second) {client : ConnectionPtr}
    (notFirst : (final.view client).id ≠ first) (notSecond : (final.view client).id ≠ second)
    (msg : Message CustomMsgTypes) :
    Partners first second (final.handle client msg) ∧
      ∀ after calls, final.server.onMessage final.view client msg = .ok (after, calls) →
        (∀ receiver, (final.view receiver).id = first ∨ (final.view receiver).id = second →
          sentTo receiver calls = [] ∨
            sentTo receiver calls =
              [CustomServer.idMsg .serverMessage (final.view client).id]) ∧
        ∀ rest, msg.header.id = .requestToClient →
          (msg.pop UInt32 = .ok (first, rest) ∨ msg.pop UInt32 = .ok (second, rest)) →
            after = final.server ∧
              ∃ code, calls = [.send client (CustomServer.idMsg .requestToClient code)] := by
  obtain ⟨⟨matching, represents⟩, nodup⟩ := paired_and_nodup run
  have has : matching.partner first = some second := represents ▸ paired
  have back := matching.symmetric _ _ has
  constructor
  · rw [handle]
    cases returned : final.server.onMessage final.view client msg with
    | error fault => exact ⟨paired, represents ▸ back⟩
    | ok result =>
        have effect := CustomServer.onMessage_effect represents returned
        exact ⟨effect.keeps_pair represents has notFirst notSecond,
          effect.keeps_pair represents back notSecond notFirst⟩
  · intro after calls returned
    have effect := CustomServer.onMessage_effect represents returned
    constructor
    · intro receiver isOne
      rcases isOne with isFirst | isSecond
      · exact (effect.sends_to_paired nodup has notFirst notSecond isFirst).imp_right And.right
      · exact (effect.sends_to_paired nodup back notSecond notFirst isSecond).imp_right And.right
    · intro rest type asks
      rcases asks with asks | asks
      · exact effect.refuses has type asks
      · exact effect.refuses back type asks

/-- A third client connects. -/
def threeClients : List Event := requestToSecond ++ [.accept]

/-- The third client asks for the first of the two that are paired. -/
theorem pair_undisturbed_by_third :
    ∃ final, runFrom step start threeClients = some final ∧
      Partners 10000 10001 (final.handle 2 (CustomServer.idMsg .requestToClient 10000)) :=
  ⟨(runFrom step start threeClients).get (by decide), (Option.some_get _).symm,
    (pair_undisturbed (Option.some_get _).symm (by decide) (by decide) (by decide) _).1⟩

end Hall

end NetworkChat
