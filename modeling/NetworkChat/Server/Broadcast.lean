import NetworkChat.Foundation.Sweep
import NetworkChat.Server.MessageClient
import Mathlib.Data.List.Induction

/-!
# Loops over all connections

`MessageAllClient` and `GetClientList` as they are written: a loop over the deque that resets the
pointers to closed connections, sets a flag when it does, and erases the null pointers behind the
loop if the flag is set. A socket may close while the loop runs, so what a test finds may depend
on the turn.

Every turn sends, lists or resets the connection that it visits and no other one, so each
connection is treated once and the deque keeps the open ones in their order
(`visits_each_once`). While no socket closes, the loops do what the handlers of the server use
(`messageAllClient_eq_loop`, `getClientList_eq_loop`).
-/

set_option autoImplicit false

namespace NetworkChat

open Foundation

namespace CustomServer

/-! ## The loops -/

/-- What a loop calls. `OnClientDisconnect` is given the pointer as it is in the deque. -/
inductive LoopCall where
  | send (client : ConnectionPtr) (msg : Message CustomMsgTypes)
  | onClientDisconnect (client : Option ConnectionPtr)
  deriving DecidableEq

/-- The local variables of a loop, and the calls it has made. -/
structure LoopLocals where
  invalidClientExists : Bool
  clientList : List UInt32
  calls : List LoopCall

/-- Before the first turn. -/
def LoopLocals.start : LoopLocals := ⟨false, [], []⟩

/-- `OnClientDisconnect(client)`, `client.reset()` and the flag. -/
def disconnectTurn (client : Option ConnectionPtr) (locals : LoopLocals) :
    Option ConnectionPtr × LoopLocals :=
  (none, { locals with
    invalidClientExists := true, calls := locals.calls ++ [.onClientDisconnect client] })

/-- The turn of `MessageAllClient`. `isConnected` is what the test of the turn finds. -/
def messageAllTurn (isConnected : ℕ → ConnectionPtr → Bool) (msg : Message CustomMsgTypes)
    (ignoreClient : Option ConnectionPtr) (position : ℕ) (client : Option ConnectionPtr)
    (locals : LoopLocals) : Option ConnectionPtr × LoopLocals :=
  match client with
  | none => disconnectTurn client locals
  | some pointer =>
      if isConnected position pointer then
        if client ≠ ignoreClient then
          (client, { locals with calls := locals.calls ++ [.send pointer msg] })
        else (client, locals)
      else disconnectTurn client locals

/-- The turn of `GetClientList`. -/
def clientListTurn (getID : ConnectionPtr → UInt32) (isConnected : ℕ → ConnectionPtr → Bool)
    (position : ℕ) (client : Option ConnectionPtr) (locals : LoopLocals) :
    Option ConnectionPtr × LoopLocals :=
  match client with
  | none => disconnectTurn client locals
  | some pointer =>
      if isConnected position pointer then
        (client, { locals with clientList := locals.clientList ++ [getID pointer] })
      else disconnectTurn client locals

/-- `if (InvalidClientExists)` behind the loop. -/
def eraseInvalid (swept : List (Option ConnectionPtr) × LoopLocals) : List (Option ConnectionPtr) :=
  if swept.2.invalidClientExists then eraseRemove swept.1 0 swept.1.length none else swept.1

/-- `MessageAllClient` on a deque: the deque after it and the calls. -/
def messageAllLoop (isConnected : ℕ → ConnectionPtr → Bool) (deque : List (Option ConnectionPtr))
    (msg : Message CustomMsgTypes) (ignoreClient : Option ConnectionPtr) :
    List (Option ConnectionPtr) × List LoopCall :=
  let swept := sweep (messageAllTurn isConnected msg ignoreClient) deque .start
  (eraseInvalid swept, swept.2.calls)

/-- `GetClientList` on a deque: the list, the deque after it and the calls. -/
def clientListLoop (getID : ConnectionPtr → UInt32) (isConnected : ℕ → ConnectionPtr → Bool)
    (deque : List (Option ConnectionPtr)) :
    List UInt32 × List (Option ConnectionPtr) × List LoopCall :=
  let swept := sweep (clientListTurn getID isConnected) deque .start
  (swept.2.clientList, eraseInvalid swept, swept.2.calls)

/-! ## Who is open when its turn comes -/

section Entries

variable (isConnected : ℕ → ConnectionPtr → Bool)

/-- The connections that are open when they are tested, in order. -/
def openEntries (clients : List ConnectionPtr) : List ConnectionPtr :=
  (clients.zipIdx.filter fun entry => isConnected entry.2 entry.1).map Prod.fst

/-- The connections that are closed when they are tested, in order. -/
def closedEntries (clients : List ConnectionPtr) : List ConnectionPtr :=
  (clients.zipIdx.filter fun entry => !isConnected entry.2 entry.1).map Prod.fst

variable {isConnected}

theorem openEntries_concat_open {clients : List ConnectionPtr} {client : ConnectionPtr}
    (isOpen : isConnected clients.length client = true) :
    openEntries isConnected (clients ++ [client]) =
      openEntries isConnected clients ++ [client] := by
  simp [openEntries, List.zipIdx_append, isOpen]

theorem openEntries_concat_closed {clients : List ConnectionPtr} {client : ConnectionPtr}
    (isClosed : isConnected clients.length client = false) :
    openEntries isConnected (clients ++ [client]) = openEntries isConnected clients := by
  simp [openEntries, List.zipIdx_append, isClosed]

theorem closedEntries_concat_open {clients : List ConnectionPtr} {client : ConnectionPtr}
    (isOpen : isConnected clients.length client = true) :
    closedEntries isConnected (clients ++ [client]) = closedEntries isConnected clients := by
  simp [closedEntries, List.zipIdx_append, isOpen]

theorem closedEntries_concat_closed {clients : List ConnectionPtr} {client : ConnectionPtr}
    (isClosed : isConnected clients.length client = false) :
    closedEntries isConnected (clients ++ [client]) =
      closedEntries isConnected clients ++ [client] := by
  simp [closedEntries, List.zipIdx_append, isClosed]

/-- While no socket closes, the turn does not matter. -/
theorem openEntries_const (clients : List ConnectionPtr) (isOpen : ConnectionPtr → Bool) :
    openEntries (fun _ => isOpen) clients = clients.filter isOpen := by
  have filtered : clients.zipIdx.filter (fun entry => isOpen entry.1) =
      clients.zipIdx.filter (isOpen ∘ Prod.fst) := rfl
  rw [openEntries, filtered, ← List.filter_map, List.zipIdx_map_fst]

end Entries

/-- A deque without null pointers. -/
theorem map_some_reduceOption {slots : List (Option ConnectionPtr)}
    (noNull : slots.any Option.isNone = false) : slots.reduceOption.map some = slots := by
  induction slots with
  | nil => rfl
  | cons slot slots ih =>
      cases slot with
      | none => cases noNull
      | some pointer => rw [List.reduceOption_cons_of_some, List.map_cons, ih noNull]

/-! ## What the turns keep -/

/-- The calls of `MessageAllClient`, turn by turn. -/
def messageAllCalls (isConnected : ℕ → ConnectionPtr → Bool) (msg : Message CustomMsgTypes)
    (ignoreClient : Option ConnectionPtr) (clients : List ConnectionPtr) : List LoopCall :=
  clients.zipIdx.flatMap fun entry =>
    if isConnected entry.2 entry.1 then
      if some entry.1 ≠ ignoreClient then [.send entry.1 msg] else []
    else [.onClientDisconnect (some entry.1)]

theorem messageAllCalls_concat (isConnected : ℕ → ConnectionPtr → Bool)
    (msg : Message CustomMsgTypes) (ignoreClient : Option ConnectionPtr)
    (clients : List ConnectionPtr) (client : ConnectionPtr) :
    messageAllCalls isConnected msg ignoreClient (clients ++ [client]) =
      messageAllCalls isConnected msg ignoreClient clients ++
        if isConnected clients.length client then
          if some client ≠ ignoreClient then [.send client msg] else []
        else [.onClientDisconnect (some client)] := by
  simp [messageAllCalls, List.zipIdx_append]

/-- A pointer that was visited is null exactly if its connection was closed, and the flag says
whether there is one. -/
structure Swept (isConnected : ℕ → ConnectionPtr → Bool) (clients : List ConnectionPtr)
    (slots : List (Option ConnectionPtr)) (locals : LoopLocals) : Prop where
  kept : slots.reduceOption = openEntries isConnected clients
  flag : locals.invalidClientExists = slots.any Option.isNone

section Swept

variable {isConnected : ℕ → ConnectionPtr → Bool} {clients : List ConnectionPtr}
  {client : ConnectionPtr} {slots : List (Option ConnectionPtr)} {locals : LoopLocals}

theorem swept_start : Swept isConnected [] [] .start := ⟨rfl, rfl⟩

/-- A turn that leaves its entry. -/
theorem Swept.keep (swept : Swept isConnected clients slots locals)
    (isOpen : isConnected clients.length client = true) {after : LoopLocals}
    (sameFlag : after.invalidClientExists = locals.invalidClientExists) :
    Swept isConnected (clients ++ [client]) (slots ++ [some client]) after where
  kept := by
    rw [List.reduceOption_append, swept.kept, openEntries_concat_open isOpen]
    rfl
  flag := by
    rw [sameFlag, swept.flag, List.any_append]
    exact (Bool.or_false _).symm

/-- A turn that resets its entry. -/
theorem Swept.reset (swept : Swept isConnected clients slots locals)
    (isClosed : isConnected clients.length client = false) {after : LoopLocals}
    (isSet : after.invalidClientExists = true) :
    Swept isConnected (clients ++ [client]) (slots ++ [none]) after where
  kept := by
    rw [List.reduceOption_append, swept.kept, openEntries_concat_closed isClosed]
    exact List.append_nil _
  flag := by
    rw [isSet, List.any_append]
    exact (Bool.or_true _).symm

/-- Behind the loop the deque holds the open connections, and no null pointer. -/
theorem Swept.erased (swept : Swept isConnected clients slots locals) :
    eraseInvalid (slots, locals) = (openEntries isConnected clients).map some := by
  rw [eraseInvalid, ← swept.kept, swept.flag]
  split
  case isTrue => exact eraseRemove_null slots
  case isFalse noNull => exact (map_some_reduceOption (Bool.eq_false_iff.mpr noNull)).symm

end Swept

/-- What the rule keeps for a deque without null pointers. -/
theorem sweep_clients {turnOf : ℕ → Option ConnectionPtr → LoopLocals →
      Option ConnectionPtr × LoopLocals}
    {holds : List ConnectionPtr → List (Option ConnectionPtr) → LoopLocals → Prop}
    (keeps : ∀ clients slots client locals, holds clients slots locals →
      holds (clients ++ [client]) (slots ++ [(turnOf clients.length (some client) locals).1])
        (turnOf clients.length (some client) locals).2)
    (initially : holds [] [] .start) (clients : List ConnectionPtr) :
    holds clients (sweep turnOf (clients.map some) .start).1
      (sweep turnOf (clients.map some) .start).2 := by
  let general (visited slots : List (Option ConnectionPtr)) (locals : LoopLocals) : Prop :=
    ∀ clients, visited = clients.map some → holds clients slots locals
  have kept : ∀ visited slots entry locals, general visited slots locals →
      general (visited ++ [entry]) (slots ++ [(turnOf visited.length entry locals).1])
        (turnOf visited.length entry locals).2 := by
    rintro visited slots entry locals before clients split
    obtain ⟨earlier, last, rfl, rfl, single⟩ := List.map_eq_append_iff.mp split.symm
    obtain ⟨client, rfl, rfl⟩ := List.map_eq_singleton_iff.mp single
    have next := keeps earlier slots client locals (before earlier rfl)
    rwa [List.length_map]
  have first : general [] [] .start := by
    intro clients isNil
    rw [List.map_eq_nil_iff.mp isNil.symm]
    exact initially
  have whole : general (clients.map some) _ _ := sweep_invariant kept first (clients.map some)
  exact whole clients rfl

/-- **The loop of `MessageAllClient`.** -/
theorem swept_messageAll (isConnected : ℕ → ConnectionPtr → Bool) (msg : Message CustomMsgTypes)
    (ignoreClient : Option ConnectionPtr) (clients : List ConnectionPtr) :
    Swept isConnected clients
        (sweep (messageAllTurn isConnected msg ignoreClient) (clients.map some) .start).1
        (sweep (messageAllTurn isConnected msg ignoreClient) (clients.map some) .start).2 ∧
      (sweep (messageAllTurn isConnected msg ignoreClient) (clients.map some) .start).2.calls =
        messageAllCalls isConnected msg ignoreClient clients := by
  let holds (clients : List ConnectionPtr) (slots : List (Option ConnectionPtr))
      (locals : LoopLocals) : Prop := Swept isConnected clients slots locals ∧
    locals.calls = messageAllCalls isConnected msg ignoreClient clients
  suffices keeps : ∀ clients slots client locals, holds clients slots locals →
      holds (clients ++ [client])
        (slots ++ [(messageAllTurn isConnected msg ignoreClient clients.length (some client)
          locals).1])
        (messageAllTurn isConnected msg ignoreClient clients.length (some client) locals).2 by
    have whole : holds clients _ _ := sweep_clients keeps ⟨swept_start, rfl⟩ clients
    exact whole
  rintro clients slots client locals ⟨swept, calls⟩
  simp only [holds]
  rw [messageAllCalls_concat]
  cases isOpen : isConnected clients.length client with
  | true =>
      by_cases ignored : some client = ignoreClient
      · simp only [messageAllTurn, isOpen, ignored, if_true, ne_eq, not_true_eq_false, if_false,
          List.append_nil]
        exact ⟨ignored ▸ swept.keep isOpen rfl, calls⟩
      · simp only [messageAllTurn, isOpen, ignored, if_true, ne_eq, not_false_eq_true, calls]
        exact ⟨swept.keep isOpen rfl, trivial⟩
  | false =>
      simp only [messageAllTurn, disconnectTurn, isOpen, Bool.false_eq_true, if_false, calls]
      exact ⟨swept.reset isOpen rfl, trivial⟩

/-- **The loop of `GetClientList`.** -/
theorem swept_clientList (getID : ConnectionPtr → UInt32) (isConnected : ℕ → ConnectionPtr → Bool)
    (clients : List ConnectionPtr) :
    Swept isConnected clients
        (sweep (clientListTurn getID isConnected) (clients.map some) .start).1
        (sweep (clientListTurn getID isConnected) (clients.map some) .start).2 ∧
      (sweep (clientListTurn getID isConnected) (clients.map some) .start).2.clientList =
          (openEntries isConnected clients).map getID ∧
        (sweep (clientListTurn getID isConnected) (clients.map some) .start).2.calls =
          (closedEntries isConnected clients).map fun client =>
            .onClientDisconnect (some client) := by
  let holds (clients : List ConnectionPtr) (slots : List (Option ConnectionPtr))
      (locals : LoopLocals) : Prop := Swept isConnected clients slots locals ∧
    locals.clientList = (openEntries isConnected clients).map getID ∧
      locals.calls = (closedEntries isConnected clients).map fun client =>
        .onClientDisconnect (some client)
  suffices keeps : ∀ clients slots client locals, holds clients slots locals →
      holds (clients ++ [client])
        (slots ++ [(clientListTurn getID isConnected clients.length (some client) locals).1])
        (clientListTurn getID isConnected clients.length (some client) locals).2 by
    have whole : holds clients _ _ := sweep_clients keeps ⟨swept_start, rfl, rfl⟩ clients
    exact whole
  rintro clients slots client locals ⟨swept, list, calls⟩
  simp only [holds]
  cases isOpen : isConnected clients.length client with
  | true =>
      simp only [clientListTurn, isOpen, if_true, list, calls, openEntries_concat_open isOpen,
        closedEntries_concat_open isOpen, List.map_append, List.map_singleton]
      exact ⟨swept.keep isOpen rfl, trivial, trivial⟩
  | false =>
      simp only [clientListTurn, disconnectTurn, isOpen, Bool.false_eq_true, if_false, list, calls,
        openEntries_concat_closed isOpen, closedEntries_concat_closed isOpen, List.map_append,
        List.map_singleton]
      exact ⟨swept.reset isOpen rfl, trivial, trivial⟩

/-! ## Every connection once -/

/-- The messages that a loop gives to `Send`, each with its connection. -/
def sentBy (calls : List LoopCall) : List (ConnectionPtr × Message CustomMsgTypes) :=
  calls.filterMap fun call =>
    match call with
    | .send client msg => some (client, msg)
    | .onClientDisconnect _ => none

/-- The pointers that a loop gives to `OnClientDisconnect`. -/
def disconnectedBy (calls : List LoopCall) : List (Option ConnectionPtr) :=
  calls.filterMap fun call =>
    match call with
    | .send _ _ => none
    | .onClientDisconnect client => some client

theorem disconnectedBy_map (clients : List ConnectionPtr) :
    disconnectedBy (clients.map fun client => .onClientDisconnect (some client)) =
      clients.map some := by
  induction clients with
  | nil => rfl
  | cons client clients ih => exact congrArg (some client :: ·) ih

theorem sentBy_map (clients : List ConnectionPtr) :
    sentBy (clients.map fun client => .onClientDisconnect (some client)) = [] := by
  induction clients with
  | nil => rfl
  | cons client clients ih => exact ih

/-- `MessageAllClient` sends to the open connections but the one that it ignores. -/
theorem sentBy_messageAllCalls (isConnected : ℕ → ConnectionPtr → Bool)
    (msg : Message CustomMsgTypes) (ignoreClient : Option ConnectionPtr)
    (clients : List ConnectionPtr) :
    sentBy (messageAllCalls isConnected msg ignoreClient clients) =
      ((openEntries isConnected clients).filter fun client => some client ≠ ignoreClient).map
        fun client => (client, msg) := by
  induction clients using List.reverseRecOn with
  | nil => rfl
  | append_singleton clients client ih =>
      rw [messageAllCalls_concat, sentBy, List.filterMap_append, ← sentBy, ih]
      cases isOpen : isConnected clients.length client with
      | true =>
          rw [openEntries_concat_open isOpen, List.filter_append, List.map_append]
          by_cases ignored : some client = ignoreClient
          · simp [ignored]
          · simp [ignored]
      | false => rw [openEntries_concat_closed isOpen]; simp

/-- It calls `OnClientDisconnect` for the closed ones. -/
theorem disconnectedBy_messageAllCalls (isConnected : ℕ → ConnectionPtr → Bool)
    (msg : Message CustomMsgTypes) (ignoreClient : Option ConnectionPtr)
    (clients : List ConnectionPtr) :
    disconnectedBy (messageAllCalls isConnected msg ignoreClient clients) =
      (closedEntries isConnected clients).map some := by
  induction clients using List.reverseRecOn with
  | nil => rfl
  | append_singleton clients client ih =>
      rw [messageAllCalls_concat, disconnectedBy, List.filterMap_append, ← disconnectedBy, ih]
      cases isOpen : isConnected clients.length client with
      | true =>
          rw [closedEntries_concat_open isOpen]
          by_cases ignored : some client = ignoreClient
          · simp [ignored]
          · simp [ignored]
      | false => rw [closedEntries_concat_closed isOpen]; simp

/-- **Each connection is treated once**: `MessageAllClient` sends to the open ones but the one that
it ignores, `GetClientList` lists the open ones, both in the order of the deque; both call
`OnClientDisconnect` for the closed ones before they reset them, and leave the open ones on the
deque in their order, without a null pointer. -/
theorem visits_each_once (getID : ConnectionPtr → UInt32)
    (isConnected : ℕ → ConnectionPtr → Bool) (clients : List ConnectionPtr)
    (msg : Message CustomMsgTypes) (ignoreClient : Option ConnectionPtr) :
    (sentBy (messageAllLoop isConnected (clients.map some) msg ignoreClient).2 =
        ((openEntries isConnected clients).filter fun client => some client ≠ ignoreClient).map
          fun client => (client, msg)) ∧
      ((clientListLoop getID isConnected (clients.map some)).1 =
          (openEntries isConnected clients).map getID ∧
        sentBy (clientListLoop getID isConnected (clients.map some)).2.2 = []) ∧
      (disconnectedBy (messageAllLoop isConnected (clients.map some) msg ignoreClient).2 =
          (closedEntries isConnected clients).map some ∧
        disconnectedBy (clientListLoop getID isConnected (clients.map some)).2.2 =
          (closedEntries isConnected clients).map some) ∧
      (messageAllLoop isConnected (clients.map some) msg ignoreClient).1 =
          (openEntries isConnected clients).map some ∧
        (clientListLoop getID isConnected (clients.map some)).2.1 =
          (openEntries isConnected clients).map some := by
  obtain ⟨sweptAll, calls⟩ := swept_messageAll isConnected msg ignoreClient clients
  obtain ⟨sweptList, list, disconnects⟩ := swept_clientList getID isConnected clients
  refine ⟨?_, ⟨list, ?_⟩, ⟨?_, ?_⟩, sweptAll.erased, sweptList.erased⟩
  · exact (congrArg sentBy calls).trans
      (sentBy_messageAllCalls isConnected msg ignoreClient clients)
  · exact (congrArg sentBy disconnects).trans (sentBy_map _)
  · exact (congrArg disconnectedBy calls).trans
      (disconnectedBy_messageAllCalls isConnected msg ignoreClient clients)
  · exact (congrArg disconnectedBy disconnects).trans (disconnectedBy_map _)

/-- The first of three connections is closed, and the last one is ignored. -/
example :
    messageAllLoop (fun _ client => client ≠ 0) [some 0, some 1, some 2] closeMsg (some 2) =
      ([some 1, some 2], [.onClientDisconnect (some 0), .send 1 closeMsg]) := by decide

/-! ## The handlers of the server -/

/-- A call as a loop makes it. -/
def LoopCall.ofCall : Call → LoopCall
  | .send client msg => .send client msg
  | .onClientDisconnect client => .onClientDisconnect (some client)

variable (view : ConnectionPtr → Peer) (server : CustomServer)

theorem flatMap_zipIdx {Value : Type} (f : ConnectionPtr → List Value)
    (clients : List ConnectionPtr) :
    (clients.zipIdx.flatMap fun entry => f entry.1) = clients.flatMap f := by
  have same : (clients.zipIdx.flatMap fun entry => f entry.1) =
      (clients.zipIdx.map Prod.fst).flatMap f := (List.flatMap_map ..).symm
  rw [same, List.zipIdx_map_fst]

/-- The values of some entries, entry by entry. -/
theorem map_filter_eq_flatMap {Value : Type} (which : ConnectionPtr → Bool)
    (f : ConnectionPtr → Value) (clients : List ConnectionPtr) :
    (clients.filter which).map f =
      clients.flatMap fun client => if which client then [f client] else [] := by
  induction clients with
  | nil => rfl
  | cons client clients ih =>
      rw [List.flatMap_cons, ← ih]
      cases isOne : which client with
      | true => rw [List.filter_cons_of_pos isOne]; rfl
      | false => rw [List.filter_cons_of_neg (by rw [isOne]; exact Bool.false_ne_true)]; rfl

theorem closedEntries_const (clients : List ConnectionPtr) (isOpen : ConnectionPtr → Bool) :
    closedEntries (fun _ => isOpen) clients = clients.filter fun client => !isOpen client := by
  have filtered : clients.zipIdx.filter (fun entry => !isOpen entry.1) =
      clients.zipIdx.filter ((fun client => !isOpen client) ∘ Prod.fst) := rfl
  rw [closedEntries, filtered, ← List.filter_map, List.zipIdx_map_fst]

/-- **While no socket closes, the loop is what the handlers of the server use.** -/
theorem messageAllClient_eq_loop (msg : Message CustomMsgTypes)
    (ignoreClient : Option ConnectionPtr) :
    messageAllLoop (fun _ client => (view client).isConnected) (server.dequeConnections.map some)
      msg
        ignoreClient =
      ((server.messageAllClient view msg ignoreClient).1.dequeConnections.map some,
        (server.messageAllClient view msg ignoreClient).2.map LoopCall.ofCall) := by
  obtain ⟨swept, calls⟩ := swept_messageAll (fun _ client => (view client).isConnected) msg
    ignoreClient server.dequeConnections
  have deque := swept.erased
  rw [openEntries_const] at deque
  have sameCalls : messageAllCalls (fun _ client => (view client).isConnected) msg ignoreClient
      server.dequeConnections =
        (server.messageAllClient view msg ignoreClient).2.map LoopCall.ofCall := by
    have turns := flatMap_zipIdx (fun client =>
      if (view client).isConnected then
        if some client ≠ ignoreClient then [LoopCall.send client msg] else []
      else [.onClientDisconnect (some client)]) server.dequeConnections
    refine turns.trans ?_
    rw [messageAllClient, List.map_flatMap]
    congr 1
    funext client
    split
    · split <;> rfl
    · rfl
  refine Prod.ext ?_ (calls.trans sameCalls)
  rw [messageAllClient, prune_eq_filter]
  exact deque

theorem getClientList_eq_loop :
    clientListLoop (fun client => (view client).id) (fun _ client => (view client).isConnected)
        (server.dequeConnections.map some) =
      ((server.getClientList view).1,
        (server.getClientList view).2.1.dequeConnections.map some,
        (server.getClientList view).2.2.map LoopCall.ofCall) := by
  obtain ⟨swept, list, calls⟩ := swept_clientList (fun client => (view client).id)
    (fun _ client => (view client).isConnected) server.dequeConnections
  have deque := swept.erased
  rw [openEntries_const] at deque list
  rw [closedEntries_const] at calls
  have sameList : (server.dequeConnections.filter fun client => (view client).isConnected).map
      (fun client => (view client).id) = (server.getClientList view).1 :=
    map_filter_eq_flatMap _ _ _
  have sameCalls : (server.dequeConnections.filter fun client => !(view client).isConnected).map
      (fun client => .onClientDisconnect (some client)) =
        (server.getClientList view).2.2.map LoopCall.ofCall := by
    rw [map_filter_eq_flatMap, getClientList, List.map_flatMap]
    congr 1
    funext client
    cases (view client).isConnected <;> rfl
  refine Prod.ext (list.trans sameList) (Prod.ext ?_ (calls.trans sameCalls))
  rw [getClientList, prune_eq_filter]
  exact deque

end CustomServer

end NetworkChat
