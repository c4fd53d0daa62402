import NetworkChat.Server.Handlers
import NetworkChat.Foundation.Matching

/-!
# The pairing is a matching

`ClientConnections` is changed in steps of two entries: `ConnectClients` adds a
pair of clients that had no partner, `DisconnectClients` erases a pair. As long as
the map is the partner map of a matching, every handler that returns changes the
matching in one of these two ways or not at all.

Whether a handler returns depends on the state before it (`onMessage_cases`).
The handlers of texts, answers and closes look their sender up with `at`, which
throws when the sender has no partner. The loop of texts does not stop after it
has disconnected a pair, so a second connection with the partner's id makes it
erase the end iterator.
-/

set_option autoImplicit false

namespace NetworkChat

open Foundation

namespace ConnectionMap

variable {map : ConnectionMap} {key value : UInt32}

theorem count_eq_zero_iff : map.count key = 0 ↔ map key = none := by
  simp only [count]
  cases map key <;> simp

theorem count_pos_iff : 0 < map.count key ↔ (map key).isSome = true := by
  simp only [count]
  cases map key <;> simp

theorem emplace_of_none (free : map key = none) :
    map.emplace key value = Function.update map key (some value) := by
  simp only [emplace, free, Option.isSome_none, Bool.false_eq_true, if_false]

theorem eraseFound_of_some (found : map key = some value) :
    map.eraseFound key = .ok (Function.update map key none) := by
  simp only [eraseFound, found]

theorem eraseFound_of_none (absent : map key = none) :
    map.eraseFound key = .error .eraseEnd := by
  simp only [eraseFound, absent]

theorem atKey_of_some (found : map key = some value) : map.atKey key = .ok value := by
  simp only [atKey, found]

theorem atKey_of_none (absent : map key = none) : map.atKey key = .error .outOfRange := by
  simp only [atKey, absent]

end ConnectionMap

namespace CustomServer

variable {server : CustomServer} {matching : Matching UInt32}

/-! ## Two entries at once -/

/-- `ConnectClients` answers true exactly for two different clients without
partners, and then makes them partners. -/
theorem connectClients_cases (represents : server.clientConnections = matching.partner)
    (clientA clientB : UInt32) :
    (∃ distinct firstFree secondFree, server.connectClients clientA clientB =
        (true, { server with
          clientConnections :=
            (matching.pair clientA clientB distinct firstFree secondFree).partner })) ∨
      (server.connectClients clientA clientB = (false, server) ∧
        ((matching.partner clientA).isSome = true ∨ (matching.partner clientB).isSome = true ∨
          clientA = clientB)) := by
  simp only [connectClients, Nat.add_eq_zero_iff, ConnectionMap.count_eq_zero_iff, represents]
  by_cases allowed : (matching.partner clientA = none ∧ matching.partner clientB = none) ∧
      clientA ≠ clientB
  · obtain ⟨⟨firstFree, secondFree⟩, distinct⟩ := allowed
    refine .inl ⟨distinct, firstFree, secondFree, ?_⟩
    have stillFree : Function.update matching.partner clientA (some clientB) clientB = none := by
      rw [Function.update_of_ne distinct.symm, secondFree]
    rw [if_pos ⟨⟨firstFree, secondFree⟩, distinct⟩, ConnectionMap.emplace_of_none firstFree,
      ConnectionMap.emplace_of_none stillFree]
    rfl
  · refine .inr ⟨if_neg allowed, ?_⟩
    by_contra free
    simp only [not_or, Bool.not_eq_true, Option.isSome_eq_false_iff, Option.isNone_iff_eq_none]
      at free
    exact allowed ⟨⟨free.1, free.2.1⟩, free.2.2⟩

/-- `DisconnectClients` of two partners finds both keys and erases them. -/
theorem disconnectClients_of_paired (represents : server.clientConnections = matching.partner)
    {clientA clientB : UInt32} (paired : matching.partner clientA = some clientB) :
    server.disconnectClients clientA clientB =
      .ok { server with clientConnections :=
        (matching.unpair clientA clientB paired).partner } := by
  have back : Function.update matching.partner clientA none clientB = some clientA := by
    rw [Function.update_of_ne (matching.ne_of_partner paired).symm]
    exact matching.symmetric _ _ paired
  simp only [disconnectClients, represents, ConnectionMap.eraseFound_of_some paired]
  change (ConnectionMap.eraseFound _ clientB >>= _) = _
  rw [ConnectionMap.eraseFound_of_some back]
  rfl

/-- **`DisconnectClients` erases no end iterator exactly when both clients are
keys** and differ. -/
theorem disconnectClients_isOk_iff (clientA clientB : UInt32) :
    (server.disconnectClients clientA clientB).isOk = true ↔
      (server.clientConnections clientA).isSome = true ∧
        (server.clientConnections clientB).isSome = true ∧ clientA ≠ clientB := by
  simp only [disconnectClients]
  cases first : server.clientConnections clientA with
  | none =>
      rw [ConnectionMap.eraseFound_of_none first]
      simp [Except.isOk, Except.toBool, Bind.bind, Except.bind]
  | some value =>
      rw [ConnectionMap.eraseFound_of_some first]
      change Except.isOk (ConnectionMap.eraseFound _ clientB >>= _) = true ↔ _
      by_cases same : clientA = clientB
      · rw [ConnectionMap.eraseFound_of_none (by simp [same])]
        simp [same, Except.isOk, Except.toBool, Bind.bind, Except.bind]
      · cases second : server.clientConnections clientB with
        | none =>
            rw [ConnectionMap.eraseFound_of_none (by simp [Ne.symm same, second])]
            simp [Except.isOk, Except.toBool, Bind.bind, Except.bind]
        | some value =>
            have found : Function.update server.clientConnections clientA none clientB =
                some value := by
              simp [Ne.symm same, second]
            rw [ConnectionMap.eraseFound_of_some found]
            simp [same, Except.isOk, Except.toBool, Bind.bind, Except.bind, pure, Except.pure]

/-! ## The loop of texts -/

section RelayText

variable {view : ConnectionPtr → Peer} {client : ConnectionPtr} {msg : Message CustomMsgTypes}
  {id : UInt32}

/-- The connections of the deque with an id, in order. -/
def holders (view : ConnectionPtr → Peer) (clients : List ConnectionPtr) (id : UInt32) :
    List ConnectionPtr :=
  clients.filter fun client => (view client).id == id

/-- The loop passes over connections with other ids. -/
theorem relayText_append {before rest : List ConnectionPtr}
    (others : ∀ client_ ∈ before, (view client_).id ≠ id) :
    relayText view client msg id (before ++ rest) server =
      relayText view client msg id rest server := by
  induction before with
  | nil => rfl
  | cons client_ before ih =>
      rw [List.forall_mem_cons] at others
      rw [List.cons_append, relayText, if_neg others.1]
      exact ih others.2

theorem relayText_of_none {clients : List ConnectionPtr} (none : holders view clients id = []) :
    relayText view client msg id clients server = .ok (server, []) := by
  have others : ∀ client_ ∈ clients, (view client_).id ≠ id := by
    simpa [holders, List.filter_eq_nil_iff] using none
  have skipped : relayText view client msg id (clients ++ []) server = .ok (server, []) :=
    relayText_append others
  rwa [List.append_nil] at skipped

theorem holders_eq_cons {clients : List ConnectionPtr} {first : ConnectionPtr}
    {more : List ConnectionPtr} (split : holders view clients id = first :: more) :
    ∃ before rest, clients = before ++ first :: rest ∧
      (∀ client_ ∈ before, (view client_).id ≠ id) ∧ (view first).id = id ∧
        holders view rest id = more := by
  obtain ⟨before, rest, rfl, others, isHolder, tail⟩ := List.filter_eq_cons_iff.mp split
  exact ⟨before, rest, rfl, by simpa using others, by simpa using isHolder, tail⟩

/-- The text goes to the first connection with the partner's id, if its socket is
open. -/
theorem relayText_of_open {clients : List ConnectionPtr} {first : ConnectionPtr}
    {more : List ConnectionPtr} (split : holders view clients id = first :: more)
    (isKey : (server.clientConnections (view client).id).isSome = true)
    (isOpen : (view first).isConnected = true) :
    relayText view client msg id clients server = .ok (server, [.send first msg]) := by
  obtain ⟨before, rest, rfl, others, isHolder, -⟩ := holders_eq_cons split
  rw [relayText_append others, relayText, if_pos isHolder,
    if_pos ⟨ConnectionMap.count_pos_iff.mpr isKey, isOpen⟩]

/-- When its socket is closed, the pair is disconnected and the loop goes on. -/
theorem relayText_of_closed {clients : List ConnectionPtr} {first : ConnectionPtr}
    {more : List ConnectionPtr} (split : holders view clients id = first :: more)
    (isClosed : (view first).isConnected = false) :
    ∃ rest, holders view rest id = more ∧
      relayText view client msg id clients server =
        (do
          let server ← server.disconnectClients id (view client).id
          let (server, calls) ← relayText view client msg id rest server
          return (server, .send client closeMsg :: calls)) := by
  obtain ⟨before, rest, rfl, others, isHolder, tail⟩ := holders_eq_cons split
  refine ⟨rest, tail, ?_⟩
  have notOpen : ¬ (0 < server.clientConnections.count (view client).id ∧
      (view first).isConnected = true) := by
    rintro ⟨-, isOpen⟩
    exact absurd (isOpen.symm.trans isClosed) (by decide)
  rw [relayText_append others, relayText, if_pos isHolder, if_neg notOpen]

/-- A pair that was disconnected cannot be disconnected again. -/
theorem relayText_unpaired {clients : List ConnectionPtr} {first : ConnectionPtr}
    {more : List ConnectionPtr} (split : holders view clients id = first :: more)
    (notKey : server.clientConnections (view client).id = none)
    (absent : server.clientConnections id = none) :
    relayText view client msg id clients server = .error .eraseEnd := by
  obtain ⟨before, rest, rfl, others, isHolder, -⟩ := holders_eq_cons split
  have notPaired : ¬ (0 < server.clientConnections.count (view client).id ∧
      (view first).isConnected = true) := by
    rintro ⟨isKey, -⟩
    rw [ConnectionMap.count_pos_iff, notKey] at isKey
    cases isKey
  rw [relayText_append others, relayText, if_pos isHolder, if_neg notPaired]
  simp only [disconnectClients, ConnectionMap.eraseFound_of_none absent]
  rfl

/-- The loop of texts meets at most one connection with the id, or an open one
first. -/
def OneReceiver (view : ConnectionPtr → Peer) (clients : List ConnectionPtr) (id : UInt32) : Prop :=
  match holders view clients id with
  | first :: _ :: _ => (view first).isConnected = true
  | _ => True

instance (clients : List ConnectionPtr) : Decidable (OneReceiver view clients id) := by
  unfold OneReceiver
  split <;> infer_instance

/-- What the loop of texts does for a sender who has a partner. -/
theorem relayText_cases (represents : server.clientConnections = matching.partner)
    (paired : matching.partner (view client).id = some id) (msg : Message CustomMsgTypes)
    (clients : List ConnectionPtr) :
    (OneReceiver view clients id ∧ ∃ calls after,
        relayText view client msg id clients server =
          .ok ({ server with clientConnections := after.partner }, calls) ∧
            matching.Change after) ∨
      (¬ OneReceiver view clients id ∧
        relayText view client msg id clients server = .error .eraseEnd) := by
  have isKey : (server.clientConnections (view client).id).isSome = true := by
    rw [represents, paired]
    rfl
  have same : server = { server with clientConnections := matching.partner } := by
    rw [← represents]
  cases split : holders view clients id with
  | nil =>
      refine .inl ⟨by rw [OneReceiver, split]; trivial, [], matching, ?_, .keep⟩
      rw [relayText_of_none split, ← same]
  | cons first more =>
      cases isConnected : (view first).isConnected with
      | true =>
          refine .inl ⟨?_, [.send first msg], matching, ?_, .keep⟩
          · rw [OneReceiver, split]
            cases more with
            | nil => trivial
            | cons => exact isConnected
          · rw [relayText_of_open split isKey isConnected, ← same]
      | false =>
          have back := matching.symmetric _ _ paired
          obtain ⟨rest, tail, onClosed⟩ : ∃ rest, holders view rest id = more ∧
              relayText view client msg id clients server = _ :=
            relayText_of_closed split isConnected
          rw [onClosed, disconnectClients_of_paired represents back]
          cases more with
          | nil =>
              refine .inl ⟨by rw [OneReceiver, split]; trivial, [.send client closeMsg],
                matching.unpair id (view client).id back, ?_, .unpair _ _ back⟩
              change (relayText view client msg id rest _ >>= _) = _
              rw [relayText_of_none tail]
              rfl
          | cons second others =>
              refine .inr ⟨?_, ?_⟩
              · rw [OneReceiver, split]
                exact fun isOpen => absurd (isOpen.symm.trans isConnected) (by decide)
              · change (relayText view client msg id rest _ >>= _) = _
                rw [relayText_unpaired tail (by simp [Matching.unpair])
                  (by simp [Matching.unpair, Function.update_apply])]
                rfl

end RelayText

/-! ## `OnMessage` -/

variable {view : ConnectionPtr → Peer} {client : ConnectionPtr} {msg : Message CustomMsgTypes}

/-- The body is long enough for what the handler takes from it. -/
def LongEnough (msg : Message CustomMsgTypes) : Prop :=
  msg.header.id = .requestToClient → FixedLayout.size UInt32 ≤ msg.body.length

instance : Decidable (LongEnough msg) := by
  unfold LongEnough
  infer_instance

/-- The sender of a text, an answer or a close has a partner, and the partner's id
names at most one connection or an open one first. -/
def Answerable (view : ConnectionPtr → Peer) (server : CustomServer) (client : ConnectionPtr)
    (msg : Message CustomMsgTypes) : Prop :=
  match msg.header.id with
  | .textClient =>
      match server.clientConnections (view client).id with
      | none => False
      | some id => OneReceiver view server.dequeConnections id
  | .requestAnswer => (server.clientConnections (view client).id).isSome = true
  | .closeClient => (server.clientConnections (view client).id).isSome = true
  | _ => True

instance : Decidable (Answerable view server client msg) := by
  unfold Answerable
  split
  · split <;> infer_instance
  all_goals infer_instance

/-- A handler has changed the pairing in one of the ways of a matching, has taken
connections from the deque at most, and has left the counter alone. -/
structure Advances (matching : Matching UInt32) (server after : CustomServer) : Prop where
  pairing : ∃ changed, matching.Change changed ∧ after.clientConnections = changed.partner
  deque : after.dequeConnections.Sublist server.dequeConnections
  counter : after.nIDCounter = server.nIDCounter

theorem reduceOption_resetInvalid (view : ConnectionPtr → Peer) (clients : List ConnectionPtr) :
    (resetInvalid view clients).reduceOption =
      clients.filter fun client => (view client).isConnected := by
  induction clients with
  | nil => rfl
  | cons client clients ih =>
      cases isConnected : (view client).isConnected <;>
        simp_all [resetInvalid, List.reduceOption]

theorem prune_eq_filter (view : ConnectionPtr → Peer) (clients : List ConnectionPtr) :
    prune view clients = clients.filter fun client => (view client).isConnected := by
  simp only [prune, reduceOption_resetInvalid]
  split
  · rfl
  · rename_i noneInvalid
    have allOpen : ∀ client ∈ clients, (view client).isConnected = true := by
      simpa [resetInvalid, Option.isNone_iff_eq_none] using noneInvalid
    exact (List.filter_eq_self.mpr allOpen).symm

theorem Advances.of_deque (represents : server.clientConnections = matching.partner)
    {clients : List ConnectionPtr} (sublist : clients.Sublist server.dequeConnections) :
    Advances matching server { server with dequeConnections := clients } :=
  ⟨⟨matching, .keep, represents⟩, sublist, rfl⟩

theorem Advances.refl (represents : server.clientConnections = matching.partner) :
    Advances matching server server :=
  ⟨⟨matching, .keep, represents⟩, List.Sublist.refl _, rfl⟩

theorem requestToClient_advances (represents : server.clientConnections = matching.partner)
    (id : UInt32) : Advances matching server (server.requestToClient view client id).1 := by
  simp only [requestToClient]
  cases server.findClient view id with
  | none => exact .refl represents
  | some client_ =>
      rcases connectClients_cases represents (view client).id id with
        ⟨distinct, firstFree, secondFree, paired⟩ | ⟨refused, -⟩
      · simp only [paired]
        exact ⟨⟨_, .pair _ _ distinct firstFree secondFree, rfl⟩, List.Sublist.refl _, rfl⟩
      · simp only [refused]
        exact .refl represents

/-- What `OnMessage` does with a request that can be extracted. -/
theorem onMessage_request {id : UInt32} {rest : Message CustomMsgTypes}
    (type : msg.header.id = .requestToClient) (asks : msg.pop UInt32 = .ok (id, rest)) :
    server.onMessage view client msg = .ok (server.requestToClient view client id) := by
  simp only [onMessage, type, asks]
  rfl

/-- A text goes through the loop with the id of the partner. -/
theorem onMessage_text {partner : UInt32} (type : msg.header.id = .textClient)
    (paired : server.clientConnections (view client).id = some partner) :
    server.onMessage view client msg =
      relayText view client msg partner server.dequeConnections server := by
  simp only [onMessage, type, ConnectionMap.atKey_of_some paired]
  rfl

/-- An answer goes to the first connection with the id of the partner. -/
theorem onMessage_answer {partner : UInt32} (type : msg.header.id = .requestAnswer)
    (paired : server.clientConnections (view client).id = some partner) :
    server.onMessage view client msg = .ok (server, server.sendToId view partner msg) := by
  simp only [onMessage, type, ConnectionMap.atKey_of_some paired]
  rfl

/-- **A handler returns exactly when its message is answerable**, and then it has
changed the pairing as a matching changes. -/
theorem onMessage_cases (represents : server.clientConnections = matching.partner)
    (view : ConnectionPtr → Peer) (client : ConnectionPtr) (msg : Message CustomMsgTypes) :
    (LongEnough msg ∧ Answerable view server client msg ∧
        ∃ after calls, server.onMessage view client msg = .ok (after, calls) ∧
          Advances matching server after) ∨
      (¬ (LongEnough msg ∧ Answerable view server client msg) ∧
        ∃ fault, server.onMessage view client msg = .error fault ∧
          (fault = .eraseEnd → ∃ id, ¬ OneReceiver view server.dequeConnections id)) := by
  simp only [onMessage, LongEnough, Answerable]
  cases type : msg.header.id with
  | requestToClient =>
      rw [Message.pop_eq]
      by_cases enough : FixedLayout.size UInt32 ≤ msg.body.length
      · refine .inl ⟨fun _ => enough, trivial, ?_⟩
        simp only [if_pos enough]
        exact ⟨_, _, rfl, requestToClient_advances represents _⟩
      · refine .inr ⟨fun both => enough (both.1 rfl), ?_⟩
        simp only [if_neg enough]
        exact ⟨.outOfBounds, rfl, nofun⟩
  | textClient =>
      cases found : server.clientConnections (view client).id with
      | none =>
          rw [ConnectionMap.atKey_of_none found]
          exact .inr ⟨fun both => both.2, .outOfRange, rfl, nofun⟩
      | some id =>
          rw [ConnectionMap.atKey_of_some found]
          rcases relayText_cases represents (represents ▸ found) msg
            server.dequeConnections with ⟨one, calls, after, relayed, change⟩ | ⟨several, failed⟩
          · exact .inl ⟨nofun, one, _, calls, relayed, ⟨after, change, rfl⟩, List.Sublist.refl _,
              rfl⟩
          · exact .inr ⟨fun both => several both.2, .eraseEnd, failed, fun _ => ⟨id, several⟩⟩
  | requestAnswer =>
      cases found : server.clientConnections (view client).id with
      | none =>
          rw [ConnectionMap.atKey_of_none found]
          exact .inr ⟨fun both => absurd both.2 Bool.false_ne_true, .outOfRange, rfl, nofun⟩
      | some id =>
          rw [ConnectionMap.atKey_of_some found]
          exact .inl ⟨nofun, rfl, _, _, rfl, .refl represents⟩
  | closeClient =>
      cases found : server.clientConnections (view client).id with
      | none =>
          rw [ConnectionMap.atKey_of_none found]
          exact .inr ⟨fun both => absurd both.2 Bool.false_ne_true, .outOfRange, rfl, nofun⟩
      | some id =>
          have paired : matching.partner (view client).id = some id := represents ▸ found
          rw [ConnectionMap.atKey_of_some found]
          refine .inl ⟨nofun, rfl,
            { server with
              clientConnections := (matching.unpair (view client).id id paired).partner },
            server.sendToId view id closeMsg, ?_, ⟨_, .unpair _ _ paired, rfl⟩, List.Sublist.refl _,
              rfl⟩
          change (server.disconnectClients (view client).id id >>= _) = _
          rw [disconnectClients_of_paired represents paired]
          rfl
  | messageAll =>
      refine .inl ⟨nofun, trivial, _, _, rfl, .of_deque represents ?_⟩
      rw [prune_eq_filter]
      exact List.filter_sublist
  | clientList =>
      refine .inl ⟨nofun, trivial, _, _, rfl, .of_deque represents ?_⟩
      rw [prune_eq_filter]
      exact List.filter_sublist
  | _ => exact .inl ⟨nofun, trivial, _, _, rfl, .refl represents⟩

end CustomServer

end NetworkChat
