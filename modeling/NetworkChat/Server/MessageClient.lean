import NetworkChat.Server.Pairing

/-!
# `MessageClient`

A message to a connection that is closed takes the connection off the deque, by
`std::remove` and `erase`. `MessageAllClient` and `GetClientList` remove what they reset
between `begin` and `end` (`prune_eq_eraseRemove`); `MessageClient` removes between
`begin` and `begin`, and erases from there to the end. So it clears the deque
(`messageClient_closed`), and takes off the closed connection alone only if there is no
other one (`removesOnly_iff`).
-/

set_option autoImplicit false

namespace NetworkChat

/-! ## The erase-remove idiom -/

section EraseRemove

variable {α : Type}

theorem reduceOption_map_some (entries : List α) : (entries.map some).reduceOption = entries := by
  rw [List.reduceOption, List.filterMap_map]
  exact List.filterMap_some

variable [DecidableEq α]

/-- `entries.erase(std::remove(first, last, value), entries.end())`, with the iterators
as indices. -/
def eraseRemove (entries : List α) (first last : ℕ) (value : α) : List α :=
  entries.take first ++ ((entries.take last).drop first).filter (· ≠ value)

/-- The whole range: the other entries stay, in their order. -/
theorem eraseRemove_whole (entries : List α) (value : α) :
    eraseRemove entries 0 entries.length value = entries.filter (· ≠ value) := by
  rw [eraseRemove, List.take_zero, List.nil_append, List.take_length, List.drop_zero]

/-- An empty range: everything behind it is erased, whatever the value. -/
theorem eraseRemove_empty (entries : List α) (first : ℕ) (value : α) :
    eraseRemove entries first first value = entries.take first := by
  have behind : (entries.take first).drop first = [] :=
    List.drop_eq_nil_of_le (List.length_take_le ..)
  rw [eraseRemove, behind, List.filter_nil, List.append_nil]

/-- Removing the null pointers leaves the pointers that are not null. -/
theorem eraseRemove_null (slots : List (Option α)) :
    eraseRemove slots 0 slots.length none = slots.reduceOption.map some := by
  rw [eraseRemove_whole]
  induction slots with
  | nil => rfl
  | cons slot slots ih =>
      cases slot with
      | none => simpa [List.filter_cons] using ih
      | some entry => simpa [List.filter_cons] using ih

/-- Taking an entry off leaves nothing exactly if it is the only one. -/
theorem filter_ne_eq_nil_iff {entries : List α} {entry : α} (distinct : entries.Nodup)
    (member : entry ∈ entries) : entries.filter (· ≠ entry) = [] ↔ entries = [entry] := by
  constructor
  · intro isNil
    have same : ∀ other ∈ entries, other = entry := by
      intro other isMember
      simpa using List.filter_eq_nil_iff.mp isNil other isMember
    obtain ⟨size, repeated⟩ : ∃ size, entries = List.replicate size entry :=
      ⟨entries.length, List.eq_replicate_of_mem same⟩
    rw [repeated] at distinct member ⊢
    have atMostOne := List.nodup_replicate.mp distinct
    have atLeastOne : size ≠ 0 := by
      rintro rfl
      cases member
    obtain rfl : size = 1 := by omega
    rfl
  · rintro rfl
    simp

end EraseRemove

namespace CustomServer

variable (view : ConnectionPtr → Peer)

/-- The loops over all connections remove what they reset in the whole deque. -/
theorem prune_eq_eraseRemove (clients : List ConnectionPtr) :
    prune view clients =
      (eraseRemove (resetInvalid view clients) 0 clients.length none).reduceOption := by
  have same : (resetInvalid view clients).length = clients.length := List.length_map ..
  rw [← same, eraseRemove_null, reduceOption_map_some, prune_eq_filter, reduceOption_resetInvalid]

/-- `MessageClient`, for a client that is not null. `client` is reset before it is
looked for, and looked for between `begin` and `begin`. -/
def messageClient (server : CustomServer) (client : ConnectionPtr) (msg : Message CustomMsgTypes) :
    CustomServer × List Call :=
  if (view client).isConnected then (server, [.send client msg])
  else
    let slots := server.dequeConnections.map some
    ({ server with dequeConnections := (eraseRemove slots 0 0 none).reduceOption },
      [.onClientDisconnect client])

variable {view} {server : CustomServer} {client : ConnectionPtr} {msg : Message CustomMsgTypes}

theorem messageClient_open (isOpen : (view client).isConnected = true) :
    server.messageClient view client msg = (server, [.send client msg]) :=
  if_pos isOpen

/-- A message to a closed connection clears the deque. -/
theorem messageClient_closed (isClosed : (view client).isConnected = false) :
    server.messageClient view client msg =
      ({ server with dequeConnections := [] }, [.onClientDisconnect client]) := by
  rw [messageClient, if_neg (by rw [isClosed]; exact Bool.false_ne_true)]
  simp only [eraseRemove_empty, List.take_zero, List.reduceOption_nil]

/-- A message to a connection is sent, or takes this connection off the deque and
leaves the others. -/
def RemovesOnly (view : ConnectionPtr → Peer) (server : CustomServer) (client : ConnectionPtr)
    (msg : Message CustomMsgTypes) : Prop :=
  server.messageClient view client msg =
    if (view client).isConnected then (server, [.send client msg])
    else ({ server with dequeConnections := server.dequeConnections.filter (· ≠ client) },
      [.onClientDisconnect client])

/-- **A closed connection is taken off the deque alone exactly when no other one is on
it.** -/
theorem removesOnly_iff (distinct : server.dequeConnections.Nodup)
    (member : client ∈ server.dequeConnections) :
    RemovesOnly view server client msg ↔
      (view client).isConnected = true ∨ server.dequeConnections = [client] := by
  cases isConnected : (view client).isConnected with
  | true =>
      refine iff_of_true ?_ (.inl rfl)
      rw [RemovesOnly, messageClient_open isConnected, if_pos isConnected]
  | false =>
      rw [RemovesOnly, messageClient_closed isConnected,
        if_neg (by rw [isConnected]; exact Bool.false_ne_true)]
      constructor
      · intro same
        refine .inr ((filter_ne_eq_nil_iff distinct member).mp ?_)
        exact (congrArg (fun result => result.1.dequeConnections) same).symm
      · rintro (never | only)
        · cases never
        · rw [(filter_ne_eq_nil_iff distinct member).mpr only]

/-- Two connections on the deque, the first one closed. -/
def firstClosed : ConnectionPtr → Peer
  | 0 => ⟨10000, false⟩
  | _ => ⟨10001, true⟩

def twoListed : CustomServer := ⟨[0, 1], 10002, fun _ => none⟩

/-- A message to the closed connection takes the open one off the deque as well. -/
theorem open_client_removed :
    twoListed.dequeConnections.Nodup ∧ 0 ∈ twoListed.dequeConnections ∧
      (firstClosed 1).isConnected = true ∧
        (twoListed.messageClient firstClosed 0 closeMsg).1.dequeConnections = [] ∧
          ¬ RemovesOnly firstClosed twoListed 0 closeMsg := by
  refine ⟨by decide, by decide, rfl, rfl, fun removes => ?_⟩
  have same := congrArg (fun result => result.1.dequeConnections) removes
  exact absurd same (by decide)

/-- A message to the open connection leaves the deque alone, and the closed connection alone on the
deque is removed as it should be. -/
theorem only_client_removed :
    RemovesOnly firstClosed twoListed 1 closeMsg ∧
      RemovesOnly firstClosed ⟨[0], 10001, fun _ => none⟩ 0 closeMsg :=
  ⟨(removesOnly_iff (by decide) (by decide)).mpr (.inl rfl),
    (removesOnly_iff (by simp) (by simp)).mpr (.inr rfl)⟩

end CustomServer

end NetworkChat
