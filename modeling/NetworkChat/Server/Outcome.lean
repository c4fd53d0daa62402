import NetworkChat.Server.Decline
import NetworkChat.Server.Live

/-!
# The outcome of a request

A request is passed on, refused as busy or answered with "not found". The loop of
`RequestToClient` stops at the first connection of the deque that has the id and does not
ask whether it is open, as the loops of texts, greetings and lists do. So a request for a
closed client that is still on the deque is passed on to the closed socket and pairs the
sender with nobody. `one_outcome_iff` says when the three outcomes are those of the open
clients: when the connection that the loop stops at is open, or none is found.

An open connection is always on the deque (`openListed_of_reachable`).
-/

set_option autoImplicit false

namespace NetworkChat

open Foundation

/-- One of the three holds and no other one. -/
def ExactlyOne (first second third : Prop) : Prop :=
  (first ∧ ¬ second ∧ ¬ third) ∨ (¬ first ∧ second ∧ ¬ third) ∨ (¬ first ∧ ¬ second ∧ third)

section ExactlyOne

variable {first second third : Prop}

theorem exactlyOne_iff_first (noSecond : ¬ second) (noThird : ¬ third) :
    ExactlyOne first second third ↔ first := by
  simp [ExactlyOne, noSecond, noThird]

theorem exactlyOne_iff_second (noFirst : ¬ first) (noThird : ¬ third) :
    ExactlyOne first second third ↔ second := by
  simp [ExactlyOne, noFirst, noThird]

theorem exactlyOne_iff_third (noFirst : ¬ first) (noSecond : ¬ second) :
    ExactlyOne first second third ↔ third := by
  simp [ExactlyOne, noFirst, noSecond]

end ExactlyOne

/-! ## Open connections are on the deque -/

/-- No handler takes an open connection off the deque. -/
theorem CustomServer.Effect.keeps_open {view : ConnectionPtr → Peer} {server after : CustomServer}
    {matching : Matching UInt32} {client other : ConnectionPtr} {msg : Message CustomMsgTypes}
    {calls : List Call} (effect : Effect view server matching client msg after calls)
    (member : other ∈ server.dequeConnections) (isOpen : (view other).isConnected = true) :
    other ∈ after.dequeConnections := by
  have stays : other ∈ prune view server.dequeConnections := by
    rw [prune_eq_filter]
    exact List.mem_filter.mpr ⟨member, isOpen⟩
  cases effect with
  | greet => exact stays
  | list => exact stays
  | _ => exact member

namespace Hall

/-- Every open connection is on the deque. -/
def OpenListed (hall : Hall) : Prop :=
  ∀ client, (hall.view client).isConnected = true → client ∈ hall.server.dequeConnections

theorem view_accept {hall : Hall} {client : ConnectionPtr} (other : client ≠ hall.peers.length) :
    hall.accept.view client = hall.view client := by
  simp only [view, accept, List.getD]
  rcases Nat.lt_or_gt_of_ne other with before | after
  · rw [List.getElem?_append_left before]
  · rw [List.getElem?_eq_none (by simp; omega), List.getElem?_eq_none (by omega)]

/-- A connection that is open after a close was open before. -/
theorem open_of_close {hall : Hall} {client other : ConnectionPtr}
    (isOpen : ((hall.close client).view other).isConnected = true) :
    (hall.view other).isConnected = true := by
  simp only [view, close, List.getD, List.getElem?_modify] at isOpen ⊢
  cases found : hall.peers[other]? with
  | none => simp [found] at isOpen
  | some peer =>
      by_cases same : client = other
      · simp [found, same] at isOpen
      · simpa [found, same] using isOpen

theorem OpenListed.step {hall next : Hall} {event : Event} (paired : Paired hall)
    (listed : hall.OpenListed) (taken : hall.step event = some next) : next.OpenListed := by
  obtain ⟨-, taken⟩ := step_eq_some taken
  cases event with
  | accept =>
      cases taken
      intro client isOpen
      simp only [Hall.accept, List.mem_append, List.mem_singleton]
      by_cases isNew : client = hall.peers.length
      · exact .inr isNew
      · exact .inl (listed client (by rwa [view_accept isNew] at isOpen))
  | close client =>
      obtain ⟨-, rfl⟩ := act_close taken
      exact fun other isOpen => listed other (open_of_close isOpen)
  | message client msg =>
      obtain ⟨-, rfl⟩ := act_message taken
      obtain ⟨matching, represents⟩ := paired
      intro other isOpen
      rw [handle] at isOpen ⊢
      cases returned : hall.server.onMessage hall.view client msg with
      | error fault =>
          rw [returned] at isOpen
          exact listed other isOpen
      | ok result =>
          rw [returned] at isOpen
          have effect := CustomServer.onMessage_effect represents returned
          exact effect.keeps_open (listed other isOpen) isOpen

theorem openListed_of_reachable {final : Hall} (reachable : Reachable step start final) :
    Paired final ∧ final.OpenListed := by
  let kept (hall : Hall) : Prop := Paired hall ∧ hall.OpenListed
  have keeps : ∀ hall event next, kept hall → step hall event = some next → kept next :=
    fun _ _ _ both taken => ⟨both.1.step taken, both.2.step both.1 taken⟩
  have initially : kept start := by
    refine ⟨paired_start, fun client isOpen => ?_⟩
    simp [view, start] at isOpen
  exact invariant_of_reachable keeps initially reachable

/-! ## The three outcomes -/

section Outcomes

variable (hall : Hall) (client : ConnectionPtr) (id : UInt32) (msg : Message CustomMsgTypes)

/-- An open client with the id exists, neither it nor the sender has a partner: they become
partners, and it alone is sent the request. -/
def Forwarded : Prop :=
  ∃ receiver after, receiver ≠ client ∧ hall.Connected receiver ∧ (hall.view receiver).id = id ∧
    hall.server.clientConnections (hall.view client).id = none ∧
      hall.server.clientConnections id = none ∧
        hall.server.onMessage hall.view client msg =
          .ok (after, [.send receiver
            (CustomServer.idMsg .requestToClient (hall.view client).id)]) ∧
          after.clientConnections =
            Function.update (Function.update hall.server.clientConnections (hall.view client).id
              (some id)) id (some (hall.view client).id)

/-- An open client with the id exists, and it is the sender or one of the two has a partner:
no pair is made, and the sender alone is sent the code 1. -/
def Refused : Prop :=
  ∃ receiver after, hall.Connected receiver ∧ (hall.view receiver).id = id ∧
    (receiver = client ∨ (hall.server.clientConnections (hall.view client).id).isSome = true ∨
      (hall.server.clientConnections id).isSome = true) ∧
      hall.server.onMessage hall.view client msg =
        .ok (after, [.send client (CustomServer.idMsg .requestToClient 1)]) ∧
        after.clientConnections = hall.server.clientConnections

/-- No open client has the id: no pair is made, and the sender alone is sent the code 0. -/
def NotFound : Prop :=
  (∀ receiver, hall.Connected receiver → (hall.view receiver).id ≠ id) ∧
    ∃ after, hall.server.onMessage hall.view client msg =
      .ok (after, [.send client (CustomServer.idMsg .requestToClient 0)]) ∧
      after.clientConnections = hall.server.clientConnections

/-- The first connection of the deque with the id is open, if there is one; or it is closed,
an open one has the id as well, and the request would be refused for both. -/
def MeetsOpen : Prop :=
  match hall.server.findClient hall.view id with
  | none => True
  | some receiver => (hall.view receiver).isConnected = true ∨
      (hall.ListedOpen id ∧ ((hall.view client).id = id ∨
        (hall.server.clientConnections (hall.view client).id).isSome = true ∨
          (hall.server.clientConnections id).isSome = true))

instance : Decidable (hall.MeetsOpen client id) := by
  unfold MeetsOpen
  split <;> infer_instance

end Outcomes

section Cases

variable {hall : Hall} {client receiver : ConnectionPtr} {id : UInt32}
  {msg : Message CustomMsgTypes} {after : CustomServer} {calls : List Call}

theorem listedOpen_iff : hall.ListedOpen id ↔ ∃ receiver, hall.Connected receiver ∧
    (hall.view receiver).id = id := by
  constructor
  · rintro ⟨receiver, member, isId, isOpen⟩
    exact ⟨receiver, ⟨member, isOpen⟩, isId⟩
  · rintro ⟨receiver, ⟨member, isOpen⟩, isId⟩
    exact ⟨receiver, member, isId, isOpen⟩

/-- A handler returns once. -/
theorem returned_once {other : CustomServer} {otherCalls : List Call}
    (first : hall.server.onMessage hall.view client msg = .ok (after, calls))
    (second : hall.server.onMessage hall.view client msg = .ok (other, otherCalls)) :
    after = other ∧ calls = otherCalls :=
  Prod.mk.inj (Except.ok.inj (first.symm.trans second))

/-- Nobody has the id: the code 0. -/
theorem exactlyOne_of_absent (requests : Requests id msg)
    (absent : hall.server.findClient hall.view id = none) :
    ExactlyOne (hall.Forwarded client id msg) (hall.Refused client id msg)
      (hall.NotFound client id msg) := by
  obtain ⟨type, rest, asks⟩ := requests
  have nobody : ∀ receiver, hall.Connected receiver → (hall.view receiver).id ≠ id := by
    rintro receiver ⟨member, -⟩ isId
    have notId := List.find?_eq_none.mp absent receiver member
    simp [isId] at notId
  refine (exactlyOne_iff_third ?_ ?_).mpr ⟨nobody, hall.server, ?_, rfl⟩
  · rintro ⟨receiver, -, -, connected, isId, -⟩
    exact nobody receiver connected isId
  · rintro ⟨receiver, -, connected, isId, -⟩
    exact nobody receiver connected isId
  · rw [CustomServer.onMessage_request type asks]
    simp only [CustomServer.requestToClient, absent]

/-- A pair is made: that is as it should be exactly if the receiver is open. -/
theorem exactlyOne_of_pair (isFree : hall.server.clientConnections id = none)
    (clientFree : hall.server.clientConnections (hall.view client).id = none)
    (distinct : (hall.view client).id ≠ id)
    (found : hall.server.findClient hall.view id = some receiver)
    (returned : hall.server.onMessage hall.view client msg =
      .ok (after, [.send receiver (CustomServer.idMsg .requestToClient (hall.view client).id)]))
    (pairs : after.clientConnections =
      Function.update (Function.update hall.server.clientConnections (hall.view client).id
        (some id)) id (some (hall.view client).id)) :
    ExactlyOne (hall.Forwarded client id msg) (hall.Refused client id msg)
        (hall.NotFound client id msg) ↔
      (hall.view receiver).isConnected = true := by
  have isId := CustomServer.id_of_findClient found
  have changed : after.clientConnections ≠ hall.server.clientConnections := by
    intro same
    have value := congrFun (pairs.symm.trans same) id
    rw [Function.update_self, isFree] at value
    cases value
  have noSecond : ¬ hall.Refused client id msg := by
    rintro ⟨-, other, -, -, -, refused, same⟩
    obtain ⟨rfl, -⟩ := returned_once returned refused
    exact changed same
  have noThird : ¬ hall.NotFound client id msg := by
    rintro ⟨-, other, refused, same⟩
    obtain ⟨rfl, -⟩ := returned_once returned refused
    exact changed same
  rw [exactlyOne_iff_first noSecond noThird]
  constructor
  · rintro ⟨other, _, -, connected, -, -, -, forwarded, -⟩
    obtain ⟨-, calls⟩ := returned_once returned forwarded
    obtain ⟨rfl, -⟩ := Call.send.inj (List.cons.inj calls).1
    exact connected.2
  · intro isOpen
    refine ⟨receiver, after, ?_, ⟨List.mem_of_find?_eq_some found, isOpen⟩, isId, clientFree,
      isFree,
      returned, pairs⟩
    rintro rfl
    exact distinct isId

/-- The code 1: that is as it should be exactly if an open client has the id. -/
theorem exactlyOne_of_busy (connected : hall.Connected client)
    (taken : (hall.view client).id = id ∨
      (hall.server.clientConnections (hall.view client).id).isSome = true ∨
        (hall.server.clientConnections id).isSome = true)
    (returned : hall.server.onMessage hall.view client msg =
      .ok (hall.server, [.send client (CustomServer.idMsg .requestToClient 1)])) :
    ExactlyOne (hall.Forwarded client id msg) (hall.Refused client id msg)
        (hall.NotFound client id msg) ↔ hall.ListedOpen id := by
  have noFirst : ¬ hall.Forwarded client id msg := by
    rintro ⟨other, after, -, -, -, -, isFree, forwarded, pairs⟩
    obtain ⟨rfl, -⟩ := returned_once returned forwarded
    have value := congrFun pairs id
    rw [Function.update_self, isFree] at value
    cases value
  have noThird : ¬ hall.NotFound client id msg := by
    rintro ⟨-, after, notFound, -⟩
    obtain ⟨-, calls⟩ := returned_once returned notFound
    exact absurd (Call.send.inj (List.cons.inj calls).1).2 (by decide)
  rw [exactlyOne_iff_second noFirst noThird, listedOpen_iff]
  constructor
  · rintro ⟨other, after, isConnected, isId, -⟩
    exact ⟨other, isConnected, isId⟩
  · rintro ⟨other, isConnected, isId⟩
    rcases taken with isSelf | taken
    · exact ⟨client, hall.server, connected, isSelf, .inl rfl, returned, rfl⟩
    · exact ⟨other, hall.server, isConnected, isId, .inr taken, returned, rfl⟩

end Cases

/-- **A request has exactly one of the three outcomes precisely when the connection that
the loop stops at is open or none is found**, in every reachable state and for every id. -/
theorem one_outcome_iff {final : Hall} (reachable : Reachable step start final)
    {client : ConnectionPtr} (isOpen : (final.view client).isConnected = true) {id : UInt32}
    {msg : Message CustomMsgTypes} (requests : Requests id msg) :
    ExactlyOne (final.Forwarded client id msg) (final.Refused client id msg)
      (final.NotFound client id msg) ↔ final.MeetsOpen client id := by
  obtain ⟨⟨matching, represents⟩, listed⟩ := openListed_of_reachable reachable
  have connected : final.Connected client := ⟨listed client isOpen, isOpen⟩
  have handled : final.server.onMessage final.view client msg =
      .ok (final.server.requestToClient final.view client id) :=
    CustomServer.onMessage_request requests.1 requests.2.choose_spec
  cases found : final.server.findClient final.view id with
  | none =>
      simp only [MeetsOpen, found]
      exact iff_of_true (exactlyOne_of_absent requests found) trivial
  | some receiver =>
      have isId := CustomServer.id_of_findClient found
      simp only [MeetsOpen, found]
      rcases CustomServer.connectClients_cases represents (final.view client).id id with
        ⟨distinct, clientFree, idFree, paired⟩ | ⟨refused, taken⟩
      · simp only [CustomServer.requestToClient, found, paired] at handled
        rw [← represents] at clientFree idFree
        rw [exactlyOne_of_pair idFree clientFree distinct found handled
          (by simp only [Matching.pair, represents])]
        constructor
        · exact .inl
        · rintro (isOpen | ⟨-, isSelf | taken | taken⟩)
          · exact isOpen
          · exact absurd isSelf distinct
          · rw [clientFree] at taken
            cases taken
          · rw [idFree] at taken
            cases taken
      · simp only [CustomServer.requestToClient, found, refused] at handled
        rw [← represents] at taken
        have taken : (final.view client).id = id ∨
            (final.server.clientConnections (final.view client).id).isSome = true ∨
              (final.server.clientConnections id).isSome = true := by
          rcases taken with taken | taken | isSelf
          · exact .inr (.inl taken)
          · exact .inr (.inr taken)
          · exact .inl isSelf
        rw [exactlyOne_of_busy connected taken handled]
        constructor
        · exact fun listedOpen => .inr ⟨listedOpen, taken⟩
        · rintro (isOpen | ⟨listedOpen, -⟩)
          · exact ⟨receiver, List.mem_of_find?_eq_some found, isId, isOpen⟩
          · exact listedOpen

/-- Two clients connect. -/
def twoConnect : List Event := [.accept, .accept]

/-- The second of two clients has closed and is still on the deque. -/
def secondCloses : List Event := [.accept, .accept, .close 1]

theorem secondCloses_runs : (runFrom step start secondCloses).isSome = true := by decide

def secondClosed : Hall := (runFrom step start secondCloses).get secondCloses_runs

theorem request_10001 : Requests 10001 (CustomServer.idMsg .requestToClient 10001) :=
  ⟨rfl, .ofType .requestToClient, Message.pop_push ..⟩

/-- The first client asks for the closed one: it is sent nothing, and it has a partner. -/
theorem closed_is_paired :
    runFrom step start secondCloses = some secondClosed ∧
      (secondClosed.view 0).isConnected = true ∧
        Requests 10001 (CustomServer.idMsg .requestToClient 10001) ∧
          (secondClosed.server.onMessage secondClosed.view 0
              (CustomServer.idMsg .requestToClient 10001)).map Prod.snd =
            .ok [.send 1 (CustomServer.idMsg .requestToClient 10000)] ∧
            ¬ ExactlyOne
              (secondClosed.Forwarded 0 10001 (CustomServer.idMsg .requestToClient 10001))
              (secondClosed.Refused 0 10001 (CustomServer.idMsg .requestToClient 10001))
              (secondClosed.NotFound 0 10001 (CustomServer.idMsg .requestToClient 10001)) := by
  refine ⟨(Option.some_get secondCloses_runs).symm, by decide, request_10001, by decide, ?_⟩
  have handled : secondClosed.server.onMessage secondClosed.view 0
      (CustomServer.idMsg .requestToClient 10001) =
        .ok ((secondClosed.server.requestToClient secondClosed.view 0 10001).1,
          [.send 1 (CustomServer.idMsg .requestToClient (secondClosed.view 0).id)]) :=
    CustomServer.onMessage_request request_10001.1 request_10001.2.choose_spec
  rw [exactlyOne_of_pair (by decide) (by decide) (by decide) (by decide) handled rfl]
  decide

/-- The same two clients while both are open. -/
theorem one_outcome_twoConnect :
    ∃ final, runFrom step start twoConnect = some final ∧
      ExactlyOne (final.Forwarded 0 10001 (CustomServer.idMsg .requestToClient 10001))
        (final.Refused 0 10001 (CustomServer.idMsg .requestToClient 10001))
        (final.NotFound 0 10001 (CustomServer.idMsg .requestToClient 10001)) :=
  ⟨(runFrom step start twoConnect).get (by decide), (Option.some_get _).symm,
    (one_outcome_iff ⟨twoConnect, (Option.some_get _).symm⟩ (by decide) request_10001).mpr
      (by decide)⟩

end Hall

end NetworkChat
