import NetworkChat.Server.Outcome

/-!
# Messages between partners

A text or an answer is meant for the partner of its sender. When the partner is open it is
passed on. When the partner is closed, the loop of `TextClient` ends the pair and tells the
sender, as long as the closed connection is still on the deque; the loop of `RequestAnswer`
sends to the closed socket, and when the connection was pruned both loops find nobody and do
nothing. `nothing_dropped_iff` says when a message between partners is passed on or its pair
ended.
-/

set_option autoImplicit false

namespace NetworkChat

open Foundation

namespace CustomServer

variable {view : ConnectionPtr → Peer} {server : CustomServer} {client : ConnectionPtr}
  {msg : Message CustomMsgTypes} {partner : UInt32}

theorem sendToId_of_holders {first : ConnectionPtr} {more : List ConnectionPtr}
    (split : holders view server.dequeConnections partner = first :: more) :
    server.sendToId view partner msg = [.send first msg] := by
  rw [sendToId, findClient_eq_head?, split, List.head?_cons]

theorem sendToId_of_none (none : holders view server.dequeConnections partner = []) :
    server.sendToId view partner msg = [] := by
  rw [sendToId, findClient_eq_head?, none, List.head?_nil]

/-- The only connection with the id of the partner is closed: a text ends the pair. -/
theorem onMessage_text_closed {matching : Matching UInt32} {first : ConnectionPtr}
    (represents : server.clientConnections = matching.partner) (type : msg.header.id = .textClient)
    (paired : matching.partner (view client).id = some partner)
    (split : holders view server.dequeConnections partner = [first])
    (isClosed : (view first).isConnected = false) :
    server.onMessage view client msg =
      .ok (server.withPairs (matching.unpair (view client).id partner paired).partner,
        [.send client closeMsg]) := by
  have back := matching.symmetric _ _ paired
  rw [onMessage_text type (represents ▸ paired)]
  obtain ⟨rest, tail, onClosed⟩ : ∃ rest, holders view rest partner = [] ∧
      relayText view client msg partner server.dequeConnections server = _ :=
    relayText_of_closed split isClosed
  rw [onClosed, disconnectClients_of_paired represents back]
  change (relayText view client msg partner rest _ >>= _) = _
  rw [relayText_of_none tail, unpair_comm paired]
  rfl

/-- A second connection has the id as well: the end iterator is erased. -/
theorem onMessage_text_closed_again {matching : Matching UInt32} {first second : ConnectionPtr}
    {more : List ConnectionPtr} (represents : server.clientConnections = matching.partner)
    (type : msg.header.id = .textClient)
    (paired : matching.partner (view client).id = some partner)
    (split : holders view server.dequeConnections partner = first :: second :: more)
    (isClosed : (view first).isConnected = false) :
    server.onMessage view client msg = .error .eraseEnd := by
  rw [onMessage_text type (represents ▸ paired)]
  rcases relayText_cases represents paired msg server.dequeConnections with
    ⟨one, -⟩ | ⟨-, failed⟩
  · rw [OneReceiver, split] at one
    exact absurd (one.symm.trans isClosed) (by decide)
  · exact failed

end CustomServer

namespace Hall

section Outcomes

variable (hall : Hall) (client : ConnectionPtr) (partner : UInt32) (msg : Message CustomMsgTypes)

/-- The partner is on the deque with an open socket, and one copy of the message is sent, to
it. -/
def PassedOn : Prop :=
  ∃ receiver after, hall.Connected receiver ∧ (hall.view receiver).id = partner ∧
    hall.server.onMessage hall.view client msg = .ok (after, [.send receiver msg])

/-- The partner is closed or not on the deque, both entries of the pair are removed, and the
sender alone is sent a close. -/
def HungUp : Prop :=
  (∀ receiver, hall.Connected receiver → (hall.view receiver).id ≠ partner) ∧
    ∃ after, hall.server.onMessage hall.view client msg =
      .ok (after, [.send client CustomServer.closeMsg]) ∧
      after.clientConnections =
        Function.update (Function.update hall.server.clientConnections (hall.view client).id none)
          partner none

/-- The first connection of the deque with the id of the partner is open; or it is closed, no
other one has the id, and the message is a text. -/
def MeetsPartner (type : CustomMsgTypes) : Prop :=
  match CustomServer.holders hall.view hall.server.dequeConnections partner with
  | [] => False
  | first :: more =>
      (hall.view first).isConnected = true ∨ (type = .textClient ∧ more = [])

instance (type : CustomMsgTypes) : Decidable (hall.MeetsPartner partner type) := by
  unfold MeetsPartner
  split <;> infer_instance

end Outcomes

variable {hall : Hall} {client first : ConnectionPtr} {partner : UInt32}
  {more : List ConnectionPtr} {msg : Message CustomMsgTypes} {after : CustomServer}
  {calls : List Call}

/-- A message is passed on exactly if the one call is a send to an open partner. -/
theorem passedOn_iff (handled : hall.server.onMessage hall.view client msg = .ok (after, calls)) :
    hall.PassedOn client partner msg ↔
      ∃ receiver, hall.Connected receiver ∧ (hall.view receiver).id = partner ∧
        calls = [.send receiver msg] := by
  constructor
  · rintro ⟨receiver, other, connected, isPartner, returned⟩
    exact ⟨receiver, connected, isPartner, (returned_once handled returned).2⟩
  · rintro ⟨receiver, connected, isPartner, rfl⟩
    exact ⟨receiver, after, connected, isPartner, handled⟩

/-- The sender hears of a closed partner only by a close. -/
theorem calls_of_hungUp (handled : hall.server.onMessage hall.view client msg = .ok (after, calls))
    (hungUp : hall.HungUp client partner msg) : calls = [.send client CustomServer.closeMsg] := by
  obtain ⟨-, other, returned, -⟩ := hungUp
  exact (returned_once handled returned).2

/-- A message that its handler drops has neither outcome. -/
theorem not_xor_of_nil (handled : hall.server.onMessage hall.view client msg = .ok (after, [])) :
    ¬ Xor (hall.PassedOn client partner msg) (hall.HungUp client partner msg) := by
  rintro (⟨passedOn, -⟩ | ⟨hungUp, -⟩)
  · obtain ⟨receiver, -, -, calls⟩ := (passedOn_iff handled).mp passedOn
    cases calls
  · cases calls_of_hungUp handled hungUp

theorem holders_cons_iff (split : CustomServer.holders hall.view hall.server.dequeConnections
    partner = first :: more) :
    first ∈ hall.server.dequeConnections ∧ (hall.view first).id = partner := by
  have member : first ∈ CustomServer.holders hall.view hall.server.dequeConnections partner := by
    rw [split]
    exact List.mem_cons_self
  simpa [CustomServer.holders] using member

/-- Neither has one that ends the server. -/
theorem not_xor_of_error {fault : Fault}
    (failed : hall.server.onMessage hall.view client msg = .error fault) :
    ¬ Xor (hall.PassedOn client partner msg) (hall.HungUp client partner msg) := by
  rintro (⟨⟨receiver, after, -, -, returned⟩, -⟩ | ⟨⟨-, after, returned, -⟩, -⟩)
  · cases failed.symm.trans returned
  · cases failed.symm.trans returned

/-- A message that is sent to the first holder of the partner's id alone is passed on, if that
one is open. -/
theorem xor_iff_of_first (noClose : msg.header.id ≠ .closeClient)
    (split : CustomServer.holders hall.view hall.server.dequeConnections partner = first :: more)
    (handled : hall.server.onMessage hall.view client msg = .ok (after, [.send first msg])) :
    Xor (hall.PassedOn client partner msg) (hall.HungUp client partner msg) ↔
      (hall.view first).isConnected = true := by
  obtain ⟨member, isPartner⟩ := holders_cons_iff split
  have notHungUp : ¬ hall.HungUp client partner msg := by
    intro hungUp
    have sent := (Call.send.inj (List.cons.inj (calls_of_hungUp handled hungUp)).1).2
    exact noClose (by rw [sent]; rfl)
  constructor
  · rintro (⟨passedOn, -⟩ | ⟨hungUp, -⟩)
    · obtain ⟨receiver, connected, -, calls⟩ := (passedOn_iff handled).mp passedOn
      obtain ⟨rfl, -⟩ := Call.send.inj (List.cons.inj calls).1
      exact connected.2
    · exact absurd hungUp notHungUp
  · intro isOpen
    exact .inl ⟨⟨first, after, ⟨member, isOpen⟩, isPartner, handled⟩, notHungUp⟩

/-- A text to a partner that is closed and still on the deque ends the pair. -/
theorem xor_of_closed {matching : Matching UInt32}
    (represents : hall.server.clientConnections = matching.partner)
    (type : msg.header.id = .textClient)
    (paired : matching.partner (hall.view client).id = some partner)
    (split : CustomServer.holders hall.view hall.server.dequeConnections partner = [first])
    (isClosed : (hall.view first).isConnected = false) :
    Xor (hall.PassedOn client partner msg) (hall.HungUp client partner msg) := by
  have handled := CustomServer.onMessage_text_closed represents type paired split isClosed
  have nobody : ∀ receiver, hall.Connected receiver → (hall.view receiver).id ≠ partner := by
    rintro receiver ⟨member, isOpen⟩ isPartner
    have holds :
        receiver ∈ CustomServer.holders hall.view hall.server.dequeConnections partner := by
      simpa [CustomServer.holders] using ⟨member, isPartner⟩
    rw [split, List.mem_singleton] at holds
    rw [holds, isClosed] at isOpen
    cases isOpen
  refine .inr ⟨⟨nobody, _, handled, ?_⟩, ?_⟩
  · rw [CustomServer.withPairs_clientConnections, represents]
    rfl
  · rintro ⟨receiver, other, connected, isPartner, -⟩
    exact nobody receiver connected isPartner

/-- **A text or an answer between partners is passed on, or its pair is ended and its sender
told, exactly when the partner is still on the deque, and open if the message is an answer**, in
every reachable state. -/
theorem nothing_dropped_iff {final : Hall} (reachable : Reachable step start final)
    {client : ConnectionPtr} {partner : UInt32}
    (paired : final.server.clientConnections (final.view client).id = some partner)
    {msg : Message CustomMsgTypes} (forPartner : CustomServer.ForPartner msg.header.id) :
    Xor (final.PassedOn client partner msg) (final.HungUp client partner msg) ↔
      final.MeetsPartner partner msg.header.id := by
  obtain ⟨⟨matching, represents⟩, -⟩ := openListed_of_reachable reachable
  have has : matching.partner (final.view client).id = some partner := represents ▸ paired
  have isKey : (final.server.clientConnections (final.view client).id).isSome = true := by
    rw [paired]
    rfl
  have noClose : msg.header.id ≠ .closeClient := by
    rcases forPartner with type | type <;> rw [type] <;> decide
  cases split : CustomServer.holders final.view final.server.dequeConnections partner with
  | nil =>
      simp only [MeetsPartner, split, iff_false]
      rcases forPartner with type | type
      · have handled : final.server.onMessage final.view client msg = .ok (final.server, []) := by
          rw [CustomServer.onMessage_text type paired, CustomServer.relayText_of_none split]
        exact not_xor_of_nil handled
      · have handled : final.server.onMessage final.view client msg = .ok (final.server, []) := by
          rw [CustomServer.onMessage_answer type paired, CustomServer.sendToId_of_none split]
        exact not_xor_of_nil handled
  | cons first more =>
      simp only [MeetsPartner, split]
      rcases forPartner with type | type
      · cases isConnected : (final.view first).isConnected with
        | true =>
            have handled : final.server.onMessage final.view client msg =
                .ok (final.server, [.send first msg]) := by
              rw [CustomServer.onMessage_text type paired,
                CustomServer.relayText_of_open split isKey isConnected]
            rw [xor_iff_of_first noClose split handled, isConnected]
            exact iff_of_true rfl (.inl rfl)
        | false =>
            cases more with
            | nil =>
                exact iff_of_true (xor_of_closed represents type has split isConnected)
                  (.inr ⟨type, rfl⟩)
            | cons second others =>
                have failed :=
                  CustomServer.onMessage_text_closed_again represents type has split isConnected
                refine iff_of_false (not_xor_of_error failed) ?_
                rintro (isOpen | ⟨-, alone⟩)
                · cases isOpen
                · cases alone
      · have handled : final.server.onMessage final.view client msg =
            .ok (final.server, [.send first msg]) := by
          rw [CustomServer.onMessage_answer type paired, CustomServer.sendToId_of_holders split]
        rw [xor_iff_of_first noClose split handled]
        simp [type]

/-- The text of the first client to its partner, which has closed and was taken off the deque. -/
def textMsg : Message CustomMsgTypes := Message.pushString (.ofType .textClient) [104]

theorem listAfterClose_runs : (runFrom step start listAfterClose).isSome = true := by decide

/-- Two clients are partners, and the second has been pruned. -/
def partnerPruned : Hall := (runFrom step start listAfterClose).get listAfterClose_runs

/-- Its text is dropped, the pair stays and nobody is told. -/
theorem text_is_dropped :
    runFrom step start listAfterClose = some partnerPruned ∧
      partnerPruned.server.clientConnections (partnerPruned.view 0).id = some 10001 ∧
        CustomServer.ForPartner textMsg.header.id ∧
          (partnerPruned.server.onMessage partnerPruned.view 0 textMsg).map Prod.snd = .ok [] ∧
            ¬ Xor (partnerPruned.PassedOn 0 10001 textMsg)
              (partnerPruned.HungUp 0 10001 textMsg) := by
  refine ⟨(Option.some_get listAfterClose_runs).symm, by decide, .inl rfl, by decide, ?_⟩
  have paired : partnerPruned.server.clientConnections (partnerPruned.view 0).id = some 10001 := by
    decide
  have handled : partnerPruned.server.onMessage partnerPruned.view 0 textMsg =
      .ok (partnerPruned.server, []) := by
    rw [CustomServer.onMessage_text rfl paired, CustomServer.relayText_of_none (by decide)]
  exact not_xor_of_nil handled

/-- While the partner is connected, the text is passed on to it. -/
theorem nothing_dropped_requestToSecond :
    ∃ final, runFrom step start requestToSecond = some final ∧
      Xor (final.PassedOn 0 10001 textMsg) (final.HungUp 0 10001 textMsg) :=
  ⟨(runFrom step start requestToSecond).get (by decide), (Option.some_get _).symm,
    (nothing_dropped_iff ⟨requestToSecond, (Option.some_get _).symm⟩ (by decide) (.inl rfl)).mpr
      (by decide)⟩

end Hall

end NetworkChat
