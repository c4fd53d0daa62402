import NetworkChat.Server.Isolation

/-!
# Pairs and the deque

`MessageAllClient` and `GetClientList` take closed connections off the deque and leave the
pairs of their clients in the map. So a pair may name a client that nobody finds any more;
its partner stays paired, and every request of it or for it is refused.

`SparesPairs` is the condition on a step under which the pairs go on to name connections of
the deque, and `pairs_live_iff` says that it is exact.
-/

set_option autoImplicit false

namespace NetworkChat

open Foundation

namespace Hall

/-- A connection of the deque has the id. -/
def Listed (hall : Hall) (id : UInt32) : Prop :=
  ∃ client ∈ hall.server.dequeConnections, (hall.view client).id = id

/-- A connection of the deque that is open has the id. -/
def ListedOpen (hall : Hall) (id : UInt32) : Prop :=
  ∃ client ∈ hall.server.dequeConnections,
    (hall.view client).id = id ∧ (hall.view client).isConnected = true

instance (hall : Hall) (id : UInt32) : Decidable (hall.Listed id) :=
  inferInstanceAs (Decidable (∃ _ ∈ _, _))

instance (hall : Hall) (id : UInt32) : Decidable (hall.ListedOpen id) :=
  inferInstanceAs (Decidable (∃ _ ∈ _, _))

/-- Every key and every value of `ClientConnections` is the id of a connection of the
deque. -/
def PairsListed (hall : Hall) : Prop :=
  ∀ key value, hall.server.clientConnections key = some value →
    hall.Listed key ∧ hall.Listed value

/-- The message makes the handler take closed connections off the deque. -/
def Prunes (msg : Message CustomMsgTypes) : Prop :=
  msg.header.id = .messageAll ∨ msg.header.id = .clientList

instance (msg : Message CustomMsgTypes) : Decidable (Prunes msg) :=
  inferInstanceAs (Decidable (_ ∨ _))

/-- The request makes a pair. -/
def MakesPair (hall : Hall) (client : ConnectionPtr) (msg : Message CustomMsgTypes) : Prop :=
  msg.header.id = .requestToClient ∧
    match msg.pop UInt32 with
    | .error _ => False
    | .ok (id, _) =>
        hall.Listed id ∧ hall.server.clientConnections (hall.view client).id = none ∧
          hall.server.clientConnections id = none ∧ (hall.view client).id ≠ id

instance (hall : Hall) (client : ConnectionPtr) (msg : Message CustomMsgTypes) :
    Decidable (hall.MakesPair client msg) := by
  unfold MakesPair
  refine @instDecidableAnd _ _ inferInstance ?_
  split <;> infer_instance

/-- No closed connection whose client has a partner is taken off the deque, and no pair is
made for a client that was taken off it. -/
def SparesPairs (hall : Hall) : Event → Prop
  | .message client msg =>
      (Prunes msg → ∀ other ∈ hall.server.dequeConnections,
        (hall.server.clientConnections (hall.view other).id).isSome = true →
          hall.ListedOpen (hall.view other).id) ∧
      (hall.MakesPair client msg → hall.Listed (hall.view client).id)
  | _ => True

instance (hall : Hall) (event : Event) : Decidable (hall.SparesPairs event) := by
  apply Event.casesOn (motive := fun event => Decidable (hall.SparesPairs event)) event
  all_goals
    intros
    unfold SparesPairs
    infer_instance

/-- In a matching the keys are the values. -/
theorem pairsListed_iff {hall : Hall} (paired : Paired hall) :
    hall.PairsListed ↔
      ∀ key, (hall.server.clientConnections key).isSome = true → hall.Listed key := by
  constructor
  · intro listed key isKey
    obtain ⟨value, has⟩ := Option.isSome_iff_exists.mp isKey
    exact (listed key value has).1
  · intro listed key value has
    have back := (paired.partners has).2
    exact ⟨listed key (by rw [has]; rfl), listed value (by rw [back]; rfl)⟩

/-! ## Steps -/

theorem listed_of_findClient {hall : Hall} {id : UInt32} {receiver : ConnectionPtr}
    (found : hall.server.findClient hall.view id = some receiver) : hall.Listed id :=
  ⟨receiver, List.mem_of_find?_eq_some found, CustomServer.id_of_findClient found⟩

theorem exists_findClient_of_listed {hall : Hall} {id : UInt32} (listed : hall.Listed id) :
    ∃ receiver, hall.server.findClient hall.view id = some receiver := by
  obtain ⟨client, member, isId⟩ := listed
  cases found : hall.server.findClient hall.view id with
  | some receiver => exact ⟨receiver, rfl⟩
  | none =>
      have notId := List.find?_eq_none.mp found client member
      simp [isId] at notId

/-- What is on the deque after it was pruned. -/
theorem listed_prune_iff {hall : Hall} (id : UInt32) :
    (∃ client ∈ CustomServer.prune hall.view hall.server.dequeConnections,
      (hall.view client).id = id) ↔ hall.ListedOpen id := by
  rw [CustomServer.prune_eq_filter]
  simp only [List.mem_filter, ListedOpen]
  constructor
  · rintro ⟨client, ⟨member, isOpen⟩, isId⟩
    exact ⟨client, member, isId, isOpen⟩
  · rintro ⟨client, member, isId, isOpen⟩
    exact ⟨client, ⟨member, isOpen⟩, isId⟩

/-- A handler that neither prunes nor makes a pair spares the pairs. -/
theorem sparesPairs_of_not {hall : Hall} {client : ConnectionPtr} {msg : Message CustomMsgTypes}
    (noPrune : ¬ Prunes msg) (noPair : ¬ hall.MakesPair client msg) :
    hall.SparesPairs (.message client msg) :=
  ⟨fun prunes => absurd prunes noPrune, fun makes => absurd makes noPair⟩

/-- Pairs that were there before name connections that are still on the deque. -/
theorem PairsListed.of_listed {hall next : Hall} (listed : hall.PairsListed)
    (still : ∀ id, hall.Listed id → next.Listed id)
    (fewer : ∀ key value, next.server.clientConnections key = some value →
      hall.server.clientConnections key = some value) : next.PairsListed := by
  intro key value has
  have before := listed key value (fewer key value has)
  exact ⟨still key before.1, still value before.2⟩

/-- Pairs that were there before name the same connections on the same deque. -/
theorem PairsListed.of_fewer {hall : Hall} {after : CustomServer} (listed : hall.PairsListed)
    (deque : after.dequeConnections = hall.server.dequeConnections)
    (fewer : ∀ key value, after.clientConnections key = some value →
      hall.server.clientConnections key = some value) :
    ({ hall with server := after } : Hall).PairsListed := by
  refine listed.of_listed ?_ fewer
  rintro id ⟨client, member, isId⟩
  exact ⟨client, deque ▸ member, isId⟩

/-- A connection is accepted. -/
theorem PairsListed.accept {hall : Hall} (listed : hall.PairsListed)
    (known : ∀ client ∈ hall.server.dequeConnections, client < hall.peers.length) :
    hall.accept.PairsListed := by
  refine listed.of_listed ?_ fun _ _ has => has
  rintro id ⟨client, member, isId⟩
  refine ⟨client, List.mem_append_left _ member, ?_⟩
  rw [view, List.getD_eq_getElem?_getD] at isId ⊢
  rwa [Hall.accept, List.getElem?_append_left (known client member)]

/-- A socket closes, and its connection stays on the deque. -/
theorem PairsListed.close {hall : Hall} (listed : hall.PairsListed) (other : ConnectionPtr) :
    (hall.close other).PairsListed := by
  refine listed.of_listed ?_ fun _ _ has => has
  rintro id ⟨client, member, rfl⟩
  refine ⟨client, member, ?_⟩
  simp only [view, Hall.close, List.getD_eq_getElem?_getD, List.getElem?_modify]
  cases hall.peers[client]? with
  | none => rfl
  | some peer => simp only [Option.getD_some]; split <;> rfl

/-- The handlers that prune. -/
theorem pairsListed_prune_iff {hall : Hall} {client : ConnectionPtr} {msg : Message CustomMsgTypes}
    {after : CustomServer} (paired : Paired hall) (listed : hall.PairsListed)
    (pairs : after.clientConnections = hall.server.clientConnections)
    (deque : after.dequeConnections = CustomServer.prune hall.view hall.server.dequeConnections)
    (prunes : Prunes msg) :
    ({ hall with server := after } : Hall).PairsListed ↔
      hall.SparesPairs (.message client msg) := by
  have noPair : ¬ hall.MakesPair client msg := by
    rintro ⟨type, -⟩
    rcases prunes with other | other <;> cases other.symm.trans type
  have stillPaired : Paired { hall with server := after } := by
    obtain ⟨matching, represents⟩ := paired
    exact ⟨matching, pairs.trans represents⟩
  have stillListed : ∀ id,
      ({ hall with server := after } : Hall).Listed id ↔ hall.ListedOpen id := by
    intro id
    rw [← listed_prune_iff id, ← deque]
    rfl
  rw [pairsListed_iff stillPaired]
  simp only [stillListed, pairs]
  constructor
  · intro spared
    exact ⟨fun _ other _ isKey => spared _ isKey, fun makes => absurd makes noPair⟩
  · rintro ⟨spared, -⟩ key isKey
    obtain ⟨other, member, rfl⟩ := (pairsListed_iff paired).mp listed key isKey
    exact spared prunes other member isKey

/-- The handler that makes a pair. -/
theorem pairsListed_pair_iff {hall : Hall} {client : ConnectionPtr} {msg : Message CustomMsgTypes}
    {matching : Matching UInt32} (represents : hall.server.clientConnections = matching.partner)
    (listed : hall.PairsListed) {id : UInt32} {rest : Message CustomMsgTypes}
    (type : msg.header.id = .requestToClient) (asks : msg.pop UInt32 = .ok (id, rest))
    (isListed : hall.Listed id) (distinct : (hall.view client).id ≠ id)
    (clientFree : matching.partner (hall.view client).id = none)
    (idFree : matching.partner id = none) {after : CustomServer}
    (made : after = hall.server.withPairs
      (matching.pair (hall.view client).id id distinct clientFree idFree).partner) :
    ({ hall with server := after } : Hall).PairsListed ↔
      hall.SparesPairs (.message client msg) := by
  subst made
  have makes : hall.MakesPair client msg := by
    refine ⟨type, ?_⟩
    rw [asks, represents]
    exact ⟨isListed, clientFree, idFree, distinct⟩
  have noPrune : ¬ Prunes msg := by
    rintro (other | other) <;> cases other.symm.trans type
  rw [pairsListed_iff ⟨matching.pair (hall.view client).id id distinct clientFree idFree, rfl⟩]
  constructor
  · intro nowListed
    refine ⟨fun prunes => absurd prunes noPrune, fun _ => ?_⟩
    exact nowListed (hall.view client).id (by simp [Matching.pair, distinct])
  · rintro ⟨-, spared⟩ key isKey
    by_cases isClient : key = (hall.view client).id
    · exact isClient ▸ spared makes
    · by_cases isId : key = id
      · exact isId ▸ isListed
      · refine (pairsListed_iff ⟨matching, represents⟩).mp listed key ?_
        rw [represents]
        simpa [Matching.pair, isClient, isId] using isKey

theorem not_prunes {msg : Message CustomMsgTypes} {type : CustomMsgTypes}
    (isType : msg.header.id = type) (notAll : type ≠ .messageAll) (notList : type ≠ .clientList) :
    ¬ Prunes msg := by
  rintro (other | other)
  · exact notAll (isType.symm.trans other)
  · exact notList (isType.symm.trans other)

theorem not_makesPair {hall : Hall} {client : ConnectionPtr} {msg : Message CustomMsgTypes}
    {type : CustomMsgTypes} (isType : msg.header.id = type) (notRequest : type ≠ .requestToClient) :
    ¬ hall.MakesPair client msg :=
  fun makes => notRequest (isType.symm.trans makes.1)

/-- Ending a pair makes none. -/
theorem partner_of_unpair {matching : Matching UInt32} {first second key value : UInt32}
    (paired : matching.partner first = some second)
    (has : (matching.unpair first second paired).partner key = some value) :
    matching.partner key = some value := by
  simp only [Matching.unpair, Function.update_apply] at has
  split at has
  · cases has
  · split at has
    · cases has
    · exact has

/-- A handler that throws has neither pruned nor made a pair. -/
theorem sparesPairs_of_error {hall : Hall} {client : ConnectionPtr} {msg : Message CustomMsgTypes}
    {fault : Fault} (returned : hall.server.onMessage hall.view client msg = .error fault) :
    hall.SparesPairs (.message client msg) := by
  refine sparesPairs_of_not ?_ ?_
  · rintro (type | type) <;> simp only [CustomServer.onMessage, type] at returned <;>
      cases returned
  · rintro ⟨type, makes⟩
    simp only [CustomServer.onMessage, type] at returned
    cases asks : msg.pop UInt32 with
    | error fault => rw [asks] at makes; exact makes
    | ok extracted => rw [asks] at returned; cases returned

/-- A handler of a message that neither prunes nor asks for a client, and makes no pair. -/
theorem pairsListed_other_iff {hall : Hall} {client : ConnectionPtr} {msg : Message CustomMsgTypes}
    {after : CustomServer} (listed : hall.PairsListed) {type : CustomMsgTypes}
    (isType : msg.header.id = type) (other : type ∉ [.messageAll, .clientList, .requestToClient])
    (deque : after.dequeConnections = hall.server.dequeConnections)
    (fewer : ∀ key value, after.clientConnections key = some value →
      hall.server.clientConnections key = some value) :
    ({ hall with server := after } : Hall).PairsListed ↔
      hall.SparesPairs (.message client msg) := by
  simp only [List.mem_cons, List.not_mem_nil, or_false, not_or] at other
  exact iff_of_true (listed.of_fewer deque fewer) (sparesPairs_of_not
    (not_prunes isType other.1 other.2.1) (not_makesPair isType other.2.2))

/-- A request that makes no pair. -/
theorem pairsListed_refused_iff {hall : Hall} {client : ConnectionPtr}
    {msg : Message CustomMsgTypes} (listed : hall.PairsListed)
    (type : msg.header.id = .requestToClient) (noPair : ¬ hall.MakesPair client msg) :
    hall.PairsListed ↔ hall.SparesPairs (.message client msg) :=
  iff_of_true listed (sparesPairs_of_not (not_prunes type (by decide) (by decide)) noPair)

/-- **What a message does to the server keeps the pairs on the deque exactly if it spares
them.** -/
theorem pairsListed_effect_iff {hall : Hall} {client : ConnectionPtr}
    {msg : Message CustomMsgTypes} {after : CustomServer} {calls : List Call}
    {matching : Matching UInt32} (represents : hall.server.clientConnections = matching.partner)
    (listed : hall.PairsListed)
    (returned : hall.server.onMessage hall.view client msg = .ok (after, calls)) :
    ({ hall with server := after } : Hall).PairsListed ↔
      hall.SparesPairs (.message client msg) := by
  cases CustomServer.onMessage_effect represents returned with
  | greet type => exact pairsListed_prune_iff ⟨matching, represents⟩ listed rfl rfl (.inl type)
  | list type => exact pairsListed_prune_iff ⟨matching, represents⟩ listed rfl rfl (.inr type)
  | pair id rest receiver type asks found distinct clientFree idFree =>
      exact pairsListed_pair_iff represents listed type asks (listed_of_findClient found)
        distinct clientFree idFree rfl
  | unknown id rest type asks absent =>
      refine pairsListed_refused_iff listed type ?_
      rintro ⟨-, makes⟩
      rw [asks] at makes
      obtain ⟨receiver, found⟩ := exists_findClient_of_listed makes.1
      cases absent.symm.trans found
  | busy id rest receiver type asks found taken =>
      refine pairsListed_refused_iff listed type ?_
      rintro ⟨-, makes⟩
      rw [asks, represents] at makes
      obtain ⟨-, clientFree, idFree, distinct⟩ := makes
      rw [clientFree, idFree] at taken
      rcases taken with taken | taken | same
      · cases taken
      · cases taken
      · exact distinct same
  | hangUp id receiver type has found isClosed =>
      refine pairsListed_other_iff listed type (by decide) rfl ?_
      intro key value stays
      exact represents ▸ partner_of_unpair has stays
  | close id type has =>
      refine pairsListed_other_iff listed type (by decide) rfl ?_
      intro key value stays
      exact represents ▸ partner_of_unpair has stays
  | echo type => exact pairsListed_other_iff listed type (by decide) rfl fun _ _ has => has
  | relay id receiver type =>
      rcases type with type | type
      all_goals exact pairsListed_other_iff listed type (by decide) rfl fun _ _ has => has
  | drop id type =>
      rcases type with type | type
      all_goals exact pairsListed_other_iff listed type (by decide) rfl fun _ _ has => has
  | ignore type =>
      rcases type with type | type | type | ⟨value, large, type⟩
      all_goals exact pairsListed_other_iff listed type (by simp) rfl fun _ _ has => has

/-- **A step keeps the pairs on the deque exactly if it spares them.** -/
theorem pairsListed_step_iff {hall next : Hall} {event : Event} (paired : Paired hall)
    (known : ∀ client ∈ hall.server.dequeConnections, client < hall.peers.length)
    (listed : hall.PairsListed) (taken : hall.step event = some next) :
    next.PairsListed ↔ hall.SparesPairs event := by
  obtain ⟨-, taken⟩ := step_eq_some taken
  cases event with
  | accept =>
      cases taken
      exact iff_of_true (listed.accept known) trivial
  | close other =>
      obtain ⟨-, rfl⟩ := act_close taken
      exact iff_of_true (listed.close other) trivial
  | message client msg =>
      obtain ⟨-, rfl⟩ := act_message taken
      obtain ⟨matching, represents⟩ := paired
      cases returned : hall.server.onMessage hall.view client msg with
      | error fault =>
          rw [handle, returned]
          exact iff_of_true listed (sparesPairs_of_error returned)
      | ok result =>
          rw [handle, returned]
          exact pairsListed_effect_iff represents listed returned

/-! ## Runs -/

/-- **Every pair names connections of the deque throughout a run exactly if every step spares
the pairs**: no `MessageAll` or `ClientList` takes a closed connection off the deque whose
client has a partner, and no request makes a pair for a client that was taken off it. -/
theorem pairs_live_iff {final : Hall} {events : List Event}
    (run : runFrom step start events = some final) :
    Throughout step PairsListed start events ↔ Meets step SparesPairs start events := by
  have keeps : ∀ hall event next, (∃ past, Kept past hall) → step hall event = some next →
      ∃ past, Kept past next :=
    fun _ event _ ⟨past, kept⟩ taken => ⟨past ++ [event], kept.step taken⟩
  have exact_step : ∀ hall event next, (∃ past, Kept past hall) → PairsListed hall → True →
      step hall event = some next → (PairsListed next ↔ SparesPairs hall event) := by
    rintro hall event next ⟨past, kept⟩ listed - taken
    refine pairsListed_step_iff kept.paired ?_ listed taken
    intro client member
    exact List.mem_range.mp (kept.numbered.deque.subset member)
  exact throughout_iff_meets keeps exact_step ⟨[], kept_start⟩ nofun (fun _ _ => trivial) run

/-- Two clients are partners, the socket of the second closes, and the first asks for the
list of clients. -/
def listAfterClose : List Event :=
  requestToSecond ++ [.close 1, .message 0 (.ofType .clientList)]

/-- The first client is still paired with the second, which has left the deque. -/
theorem pair_of_pruned_client :
    ∃ final, runFrom step start listAfterClose = some final ∧
      final.server.clientConnections 10000 = some 10001 ∧ ¬ final.Listed 10001 :=
  ⟨(runFrom step start listAfterClose).get (by decide), (Option.some_get _).symm, by decide,
    by decide⟩

theorem pairs_live_requestToSecond : Throughout step PairsListed start requestToSecond :=
  (pairs_live_iff (Option.some_get (by decide)).symm).mpr (by decide)

end Hall

end NetworkChat
