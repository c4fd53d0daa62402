import NetworkChat.Connection.Handlers
import NetworkChat.Server.Pairing

/-!
# The owners of connections

`server_interface` (`net_server.h`) with the `std::shared_ptr`s to its connections. A
connection is owned by an entry of the deque, by a message in the queue of received
messages, and by the message that `Update` holds while `OnMessage` runs. Its handlers own
nothing: the lambdas posted by `Send`, the outstanding read and the outstanding writes all
capture `this`.

The two threads take turns in steps. `OnClientConnect` is free to send and to deny, the
callers of `Send` and `Disconnect` are free, and the loops of `MessageAllClient` and
`GetClientList` visit one entry of the deque a step, so that the handlers of connections may
run between two entries. Accesses to the deque are atomic. Nothing happens to a connection
that has no owner: its memory is gone.

A connection with outstanding work has an owner throughout a run exactly if every step that
drops the last owner of a connection finds it idle (`handlersOwned_iff`).
-/

set_option autoImplicit false

namespace NetworkChat

open Foundation

variable {T : Type}

/-- Nothing is posted for the connection, and no operation of it is outstanding. -/
def Connection.isIdle (c : Connection T) : Bool :=
  c.posted.isEmpty && c.reading.isNone && c.writing.isEmpty

/-- The loop of `MessageAllClient` or of `GetClientList`. -/
structure DequeLoop (T : Type) where
  /-- What `MessageAllClient` sends, and the client that it leaves out. -/
  broadcast : Option (Message T × Option ConnectionPtr)
  /-- The entry it visits next. -/
  index : ℕ
  /-- Its end. -/
  last : ℕ
  invalidClientExists : Bool

/-- The members of `server_interface` that own connections, and the connections. -/
structure ServerInterface (T : Type) where
  /-- Every connection that was made. -/
  connections : List (Connection T)
  dequeConnections : List (Option ConnectionPtr)
  qMessagesIn : List (ConnectionPtr × Message T)
  /-- The remote of the message that `Update` holds. -/
  remote : Option ConnectionPtr
  loop : Option (DequeLoop T)
  nIDCounter : UInt32

namespace ServerInterface

def start : ServerInterface T := ⟨[], [], [], none, none, 10000⟩

inductive Event (T : Type) where
  /-- A connection is accepted, `OnClientConnect` sends to it and approves it or not. -/
  | accept (clock : UInt64) (welcome : List (Message T)) (approved : Bool)
  /-- Something happens to a connection, or a thread calls `Send` or `Disconnect`. -/
  | io (client : ConnectionPtr) (event : Connection.IoEvent T)
  /-- `Update` takes a message off the queue and calls `OnMessage`. -/
  | update
  /-- `OnMessage` returns. -/
  | handled
  /-- The remote of the message is left out, or nobody. -/
  | messageAllClient (msg : Message T) (ignoreClient : Option ConnectionPtr)
  | getClientList
  /-- A loop over the deque visits its next entry. -/
  | visit
  /-- A loop over the deque ends. -/
  | loopDone

/-- Some `std::shared_ptr` points to the connection. -/
def Owned (s : ServerInterface T) (client : ConnectionPtr) : Prop :=
  some client ∈ s.dequeConnections ∨ client ∈ s.qMessagesIn.map Prod.fst ∨ s.remote = some client

instance (s : ServerInterface T) (client : ConnectionPtr) : Decidable (s.Owned client) :=
  inferInstanceAs (Decidable (_ ∨ _ ∨ _))

/-! ## Steps -/

/-- The handler of `async_accept`. A connection that is denied is pointed to by a local
only. -/
def accept [Inhabited T] (s : ServerInterface T) (clock : UInt64) (welcome : List (Message T))
    (approved : Bool) : ServerInterface T :=
  if approved then
    { s with
      connections := s.connections ++ [Connection.accept clock welcome s.nIDCounter],
      dequeConnections := s.dequeConnections ++ [some s.connections.length],
      nIDCounter := s.nIDCounter + 1 }
  else
    { s with
      connections := s.connections ++
        [welcome.foldl Connection.send (.construct .server true clock)] }

/-- A message that a connection has pushed points to it. -/
def settle (s : ServerInterface T) (client : ConnectionPtr) (c d : Connection T) :
    ServerInterface T :=
  { s with
    connections := s.connections.set client d,
    qMessagesIn := s.qMessagesIn ++
      (d.qMessagesIn.drop c.qMessagesIn.length).map fun msg => (client, msg) }

/-- `MessageAllClient` and `GetClientList` start to go over the deque. -/
def startLoop (s : ServerInterface T) (broadcast : Option (Message T × Option ConnectionPtr)) :
    ServerInterface T :=
  { s with loop := some ⟨broadcast, 0, s.dequeConnections.length, false⟩ }

/-- What a loop sends to an open connection. -/
def DequeLoop.give (loop : DequeLoop T) (client : ConnectionPtr) (c : Connection T) :
    Connection T :=
  match loop.broadcast with
  | some (msg, ignoreClient) => if some client ≠ ignoreClient then c.send msg else c
  | none => c

/-- The body of the loop. -/
def visit (s : ServerInterface T) (loop : DequeLoop T) : Option (ServerInterface T) :=
  match s.dequeConnections[loop.index]? with
  | none => none
  | some none => some { s with
      loop := some { loop with index := loop.index + 1, invalidClientExists := true } }
  | some (some client) =>
      match s.connections[client]? with
      | none => none
      | some c =>
          if c.isConnected then
            some { s with
              connections := s.connections.set client (DequeLoop.give loop client c),
              loop := some { loop with index := loop.index + 1 } }
          else
            some { s with
              dequeConnections := s.dequeConnections.set loop.index none,
              loop := some { loop with index := loop.index + 1, invalidClientExists := true } }

/-- `erase(remove(nullptr))`, if an invalid client exists. -/
def loopDone (s : ServerInterface T) (loop : DequeLoop T) : ServerInterface T :=
  { s with
    dequeConnections :=
      if loop.invalidClientExists then s.dequeConnections.filter Option.isSome
      else s.dequeConnections,
    loop := none }

/-- The next state, if the event can happen. -/
def step [FullLayout T] [Inhabited T] (s : ServerInterface T) :
    Event T → Option (ServerInterface T)
  | .accept clock welcome approved => some (s.accept clock welcome approved)
  | .io client event =>
      match s.connections[client]? with
      | some c => if s.Owned client then (c.step event).map (s.settle client c) else none
      | none => none
  | .update =>
      match s.loop, s.remote, s.qMessagesIn with
      | none, none, (client, _) :: later =>
          some { s with remote := some client, qMessagesIn := later }
      | _, _, _ => none
  | .handled =>
      match s.loop, s.remote with
      | none, some _ => some { s with remote := none }
      | _, _ => none
  | .messageAllClient msg ignoreClient =>
      match s.loop with
      | none =>
          if ignoreClient = none ∨ ignoreClient = s.remote then
            some (s.startLoop (some (msg, ignoreClient)))
          else none
      | some _ => none
  | .getClientList =>
      match s.loop with
      | none => some (s.startLoop none)
      | some _ => none
  | .visit =>
      match s.loop with
      | some loop => if loop.index < loop.last then s.visit loop else none
      | none => none
  | .loopDone =>
      match s.loop with
      | some loop => if loop.index < loop.last then none else some (s.loopDone loop)
      | none => none

/-! ## Inversion -/

section Inversion

variable [FullLayout T] [Inhabited T] {s next : ServerInterface T}

theorem step_io {client : ConnectionPtr} {event : Connection.IoEvent T}
    (taken : s.step (.io client event) = some next) :
    ∃ c d, s.connections[client]? = some c ∧ s.Owned client ∧ next = s.settle client c d := by
  simp only [step] at taken
  split at taken
  case h_1 c found =>
    split at taken
    case isTrue owned =>
      obtain ⟨d, -, rfl⟩ := Option.map_eq_some_iff.mp taken
      exact ⟨c, d, found, owned, rfl⟩
    case isFalse => cases taken
  case h_2 => cases taken

theorem step_update (taken : s.step .update = some next) :
    ∃ client msg later, s.remote = none ∧ s.qMessagesIn = (client, msg) :: later ∧
      next = { s with remote := some client, qMessagesIn := later } := by
  simp only [step] at taken
  split at taken
  case h_1 client msg later loop remote queue =>
    cases taken
    exact ⟨client, msg, later, remote, queue, rfl⟩
  case h_2 => cases taken

theorem step_handled (taken : s.step .handled = some next) :
    ∃ client, s.remote = some client ∧ next = { s with remote := none } := by
  simp only [step] at taken
  split at taken
  case h_1 client loop remote => cases taken; exact ⟨client, remote, rfl⟩
  case h_2 => cases taken

theorem step_messageAllClient {msg : Message T} {ignoreClient : Option ConnectionPtr}
    (taken : s.step (.messageAllClient msg ignoreClient) = some next) :
    next = s.startLoop (some (msg, ignoreClient)) := by
  simp only [step] at taken
  split at taken
  case h_1 =>
    split at taken
    case isTrue => cases taken; rfl
    case isFalse => cases taken
  case h_2 => cases taken

theorem step_getClientList (taken : s.step .getClientList = some next) :
    next = s.startLoop none := by
  simp only [step] at taken
  split at taken
  case h_1 => cases taken; rfl
  case h_2 => cases taken

/-- A loop passes over a null entry, sends to an open client at most, or resets the entry of
a closed one. -/
theorem step_visit (taken : s.step .visit = some next) :
    ∃ loop, s.loop = some loop ∧
      ((s.dequeConnections[loop.index]? = some none ∧ ∃ later, next = { s with loop := later }) ∨
        (∃ client c later, s.dequeConnections[loop.index]? = some (some client) ∧
          s.connections[client]? = some c ∧ c.isConnected = true ∧ next = { s with
            connections := s.connections.set client (DequeLoop.give loop client c),
            loop := later }) ∨
        ∃ client c later, s.dequeConnections[loop.index]? = some (some client) ∧
          s.connections[client]? = some c ∧ c.isConnected = false ∧ next = { s with
            dequeConnections := s.dequeConnections.set loop.index none, loop := later }) := by
  simp only [step] at taken
  split at taken
  case h_2 => cases taken
  case h_1 loop looping =>
    refine ⟨loop, looping, ?_⟩
    split at taken
    case isFalse => cases taken
    case isTrue =>
      simp only [visit] at taken
      split at taken
      case h_1 => cases taken
      case h_2 entry => cases taken; exact .inl ⟨entry, _, rfl⟩
      case h_3 client entry =>
        split at taken
        case h_1 => cases taken
        case h_2 c found =>
          split at taken
          case isTrue isOpen =>
            cases taken
            exact .inr (.inl ⟨client, c, _, entry, found, isOpen, rfl⟩)
          case isFalse closed =>
            cases taken
            exact .inr (.inr ⟨client, c, _, entry, found, Bool.not_eq_true _ ▸ closed, rfl⟩)

theorem step_loopDone (taken : s.step .loopDone = some next) :
    ∃ loop, s.loop = some loop ∧ next = s.loopDone loop := by
  simp only [step] at taken
  split at taken
  case h_1 loop looping =>
    split at taken
    case isTrue => cases taken
    case isFalse => cases taken; exact ⟨loop, looping, rfl⟩
  case h_2 => cases taken

end Inversion

/-! ## Loops that nothing interrupts -/

/-- The connection was made and its socket is open. -/
def openAt (s : ServerInterface T) (client : ConnectionPtr) : Bool :=
  (s.connections[client]?).any Connection.isConnected

theorem DequeLoop.give_isConnected (loop : DequeLoop T) (client : ConnectionPtr)
    (c : Connection T) : (DequeLoop.give loop client c).isConnected = c.isConnected := by
  rw [DequeLoop.give]
  split
  · split <;> rfl
  · rfl

/-- What a visit leaves of an entry. -/
def slot (s : ServerInterface T) (client : ConnectionPtr) : Option ConnectionPtr :=
  if s.openAt client then some client else none

/-- One visit: the entry of a closed client is reset, and no socket changes. -/
theorem visit_slot {s : ServerInterface T} {loop : DequeLoop T} {client : ConnectionPtr}
    (entry : s.dequeConnections[loop.index]? = some (some client))
    (known : client < s.connections.length) :
    ∃ next, s.visit loop = some next ∧ next.openAt = s.openAt ∧
      next.connections.length = s.connections.length ∧
      next.dequeConnections = s.dequeConnections.set loop.index (s.slot client) ∧
      next.loop = some { loop with
        index := loop.index + 1,
        invalidClientExists := loop.invalidClientExists || (s.slot client).isNone } := by
  obtain ⟨c, found⟩ : ∃ c, s.connections[client]? = some c := ⟨_, List.getElem?_eq_getElem known⟩
  simp only [visit, entry, found]
  cases isOpen : c.isConnected with
  | false =>
      have reset : s.slot client = none := by simp [slot, openAt, found, isOpen]
      rw [reset]
      exact ⟨_, rfl, rfl, rfl, rfl, by simp⟩
  | true =>
      have kept : s.slot client = some client := by simp [slot, openAt, found, isOpen]
      rw [kept]
      refine ⟨_, rfl, ?_, List.length_set, ?_, by simp⟩
      · funext other
        by_cases here : other = client
        · subst here
          simp only [openAt, List.getElem?_set_self known, found, Option.any_some,
            DequeLoop.give_isConnected]
        · simp only [openAt, List.getElem?_set_ne (Ne.symm here)]
      · obtain ⟨inside, same⟩ := List.getElem?_eq_some_iff.mp entry
        rw [← same, List.set_getElem_self]

/-- The visits reset the entries of closed clients, one after the other. -/
theorem run_visits [FullLayout T] [Inhabited T] {clients : List ConnectionPtr} :
    ∀ {s : ServerInterface T} {loop : DequeLoop T} (done : List (Option ConnectionPtr)),
      s.loop = some loop → loop.index = done.length →
      loop.last = done.length + clients.length →
      s.dequeConnections = done ++ clients.map some →
      (∀ client ∈ clients, client < s.connections.length) →
      ∃ final, runFrom step s (List.replicate clients.length .visit) = some final ∧
        final.dequeConnections = done ++ clients.map s.slot ∧
        final.loop = some { loop with
          index := loop.last,
          invalidClientExists :=
            loop.invalidClientExists || (clients.map s.slot).any Option.isNone } := by
  induction clients with
  | nil =>
      intro s loop done looping atIndex last entries _
      obtain ⟨broadcast, index, ending, invalid⟩ := loop
      subst atIndex last
      exact ⟨s, rfl, entries, by simp [looping]⟩
  | cons client clients ih =>
      intro s loop done looping atIndex last entries known
      rw [List.forall_mem_cons] at known
      have entry : s.dequeConnections[loop.index]? = some (some client) := by
        rw [entries, atIndex, List.map_cons, List.getElem?_append_right (Nat.le_refl _),
          Nat.sub_self]
        rfl
      obtain ⟨next, visited, sameOpen, sameLength, nextEntries, nextLoop⟩ :=
        visit_slot entry known.1
      have sameSlot : next.slot = s.slot := by
        funext other
        rw [slot, slot, sameOpen]
      have taken : s.step .visit = some next := by
        have inside : loop.index < loop.last := by rw [atIndex, last, List.length_cons]; omega
        simp only [step, looping, if_pos inside, visited]
      obtain ⟨final, run, finalEntries, finalLoop⟩ := ih (done ++ [s.slot client]) nextLoop
        (by rw [List.length_append, List.length_singleton, atIndex])
        (by rw [last, List.length_append, List.length_singleton, List.length_cons]; omega)
        (by rw [nextEntries, entries, atIndex, List.map_cons,
          List.set_append_right _ _ (Nat.le_refl _),
              Nat.sub_self, List.set_cons_zero, List.append_assoc, List.singleton_append])
        (by rw [sameLength]; exact known.2)
      refine ⟨final, ?_, ?_, ?_⟩
      · rw [List.length_cons, List.replicate_succ, runFrom_cons taken]
        exact run
      · rw [finalEntries, sameSlot, List.append_assoc, List.map_cons, List.singleton_append]
      · rw [finalLoop, sameSlot, List.map_cons, List.any_cons, Bool.or_assoc]

/-- The entries that are left are those of open clients. -/
theorem filter_slots (s : ServerInterface T) (clients : List ConnectionPtr) :
    (clients.map s.slot).filter Option.isSome = (clients.filter s.openAt).map some := by
  induction clients with
  | nil => rfl
  | cons client clients ih =>
      cases isOpen : s.openAt client with
      | false => simpa [slot, isOpen] using ih
      | true => simpa [slot, isOpen] using ih

/-- **A loop that nothing interrupts leaves the deque as `prune` does.** -/
theorem run_getClientList [FullLayout T] [Inhabited T] {s : ServerInterface T}
    {clients : List ConnectionPtr} {view : ConnectionPtr → Peer} (free : s.loop = none)
    (entries : s.dequeConnections = clients.map some)
    (known : ∀ client ∈ clients, client < s.connections.length)
    (viewed : ∀ client, (view client).isConnected = s.openAt client) :
    ∃ final, runFrom step s
        (.getClientList :: (List.replicate clients.length .visit ++ [.loopDone])) = some final ∧
      final.dequeConnections = (CustomServer.prune view clients).map some := by
  have begun : s.step .getClientList = some (s.startLoop none) := by simp only [step, free]
  obtain ⟨visited, run, reset, looping⟩ :=
    run_visits (s := s.startLoop none) [] rfl rfl (by simp [entries]) entries known
  obtain ⟨loop, looping, atEnd, invalid⟩ : ∃ loop, visited.loop = some loop ∧
      ¬ loop.index < loop.last ∧
        loop.invalidClientExists = (clients.map s.slot).any Option.isNone :=
    ⟨_, looping, Nat.lt_irrefl _, Bool.false_or _⟩
  have ended : visited.step .loopDone = some (visited.loopDone loop) := by
    simp only [step, looping, if_neg atEnd]
  refine ⟨visited.loopDone loop, ?_, ?_⟩
  · rw [runFrom_cons begun]
    exact runFrom_trans run (by rw [runFrom_cons ended]; rfl)
  · have pruned : CustomServer.prune view clients = clients.filter s.openAt := by
      simp only [CustomServer.prune_eq_filter, viewed]
    have slots : visited.dequeConnections = clients.map s.slot := reset
    simp only [pruned, ← filter_slots, loopDone, slots, invalid]
    split
    · rfl
    · rename_i whole
      refine (List.filter_eq_self.mpr ?_).symm
      intro entry member
      rw [Bool.not_eq_true, List.any_eq_false] at whole
      simpa [Option.isSome_iff_ne_none] using whole entry member

/-! ## Owners and outstanding work -/

/-- A connection with outstanding work has an owner. -/
def HandlersOwned (s : ServerInterface T) : Prop :=
  ∀ client c, s.connections[client]? = some c → c.isIdle = false → s.Owned client

/-- The connection has no outstanding work. -/
def idleAt (s : ServerInterface T) (client : ConnectionPtr) : Bool :=
  (s.connections[client]?).all Connection.isIdle

/-- The entry that a loop is about to reset, and the client in it. -/
def invalidEntry (s : ServerInterface T) : Option (ℕ × ConnectionPtr) := do
  let loop ← s.loop
  let client ← (s.dequeConnections[loop.index]?).join
  let c ← s.connections[client]?
  if c.isConnected then none else some (loop.index, client)

/-- The step drops the last owner of a connection only if the connection is idle: nothing was
sent to a connection that is denied, and the remote of a message or an entry that is reset has
another owner or no outstanding work. -/
def DropsIdle (s : ServerInterface T) : Event T → Prop
  | .accept _ welcome approved => approved = true ∨ welcome = []
  | .handled => ∀ client ∈ s.remote,
      (some client ∈ s.dequeConnections ∨ client ∈ s.qMessagesIn.map Prod.fst) ∨
        s.idleAt client = true
  | .visit => ∀ entry ∈ s.invalidEntry,
      (some entry.2 ∈ s.dequeConnections.set entry.1 none ∨
        entry.2 ∈ s.qMessagesIn.map Prod.fst ∨ s.remote = some entry.2) ∨
        s.idleAt entry.2 = true
  | _ => True

/-- Pointers point to connections that were made. -/
def Known (s : ServerInterface T) : Prop := ∀ client, s.Owned client → client < s.connections.length

theorem known_start : (start : ServerInterface T).Known := by
  simp [Known, Owned, start]

theorem handlersOwned_start : (start : ServerInterface T).HandlersOwned := by
  simp [HandlersOwned, start]

theorem idleAt_eq_false {s : ServerInterface T} {client : ConnectionPtr} :
    s.idleAt client = false ↔ ∃ c, s.connections[client]? = some c ∧ c.isIdle = false := by
  rw [idleAt]
  cases s.connections[client]? with
  | none => simp
  | some c => simp

/-- Nobody loses an owner, and new work is that of an owned connection. -/
theorem HandlersOwned.mono {s next : ServerInterface T} (before : s.HandlersOwned)
    (more : ∀ client, s.Owned client → next.Owned client)
    (work : ∀ client c, next.connections[client]? = some c → c.isIdle = false →
      next.Owned client ∨ s.idleAt client = false) : next.HandlersOwned := by
  intro client c found busy
  rcases work client c found busy with owned | busyBefore
  · exact owned
  · obtain ⟨b, foundBefore, busy⟩ := idleAt_eq_false.mp busyBefore
    exact more client (before client b foundBefore busy)

/-- One connection loses an owner. -/
theorem HandlersOwned.drop_iff {s next : ServerInterface T} {client : ConnectionPtr}
    (before : s.HandlersOwned) (same : next.connections = s.connections)
    (others : ∀ other, other ≠ client → s.Owned other → next.Owned other) :
    next.HandlersOwned ↔ next.Owned client ∨ s.idleAt client = true := by
  constructor
  · intro after
    rw [or_iff_not_imp_right, Bool.not_eq_true, idleAt_eq_false]
    rintro ⟨c, found, busy⟩
    rw [← same] at found
    exact after client c found busy
  · intro spared other c found busy
    rw [same] at found
    by_cases dropped : other = client
    · subst dropped
      rcases spared with owned | idle
      · exact owned
      · rw [idleAt, found] at idle
        exact absurd (idle.symm.trans busy) (by decide)
    · exact others other dropped (before other c found busy)

/-! ## What a step does to the owners -/

theorem owned_settle {s : ServerInterface T} {client other : ConnectionPtr} {c d : Connection T}
    (owned : s.Owned client) : (s.settle client c d).Owned other ↔ s.Owned other := by
  simp only [Owned, settle, List.map_append, List.mem_append, List.map_map]
  constructor
  · rintro (entry | (queued | pushed) | held)
    · exact .inl entry
    · exact .inr (.inl queued)
    · obtain ⟨msg, -, rfl⟩ := List.mem_map.mp pushed
      exact owned
    · exact .inr (.inr held)
  · rintro (entry | queued | held)
    · exact .inl entry
    · exact .inr (.inl (.inl queued))
    · exact .inr (.inr held)

theorem owned_update {s : ServerInterface T} {client other : ConnectionPtr} {msg : Message T}
    {later : List (ConnectionPtr × Message T)} (remote : s.remote = none)
    (queue : s.qMessagesIn = (client, msg) :: later) :
    ({ s with remote := some client, qMessagesIn := later } : ServerInterface T).Owned other ↔
      s.Owned other := by
  simp only [Owned, remote, queue, List.map_cons, List.mem_cons, Option.some.injEq, reduceCtorEq,
    or_false]
  tauto

theorem owned_loopDone {s : ServerInterface T} {loop : DequeLoop T} {client : ConnectionPtr} :
    (s.loopDone loop).Owned client ↔ s.Owned client := by
  simp only [Owned, loopDone]
  split
  · simp only [List.mem_filter, Option.isSome_some, and_true]
  · rfl

/-- No entry but the reset one leaves the deque. -/
theorem owned_reset {s : ServerInterface T} {index : ℕ} {client other : ConnectionPtr}
    {loop : Option (DequeLoop T)} (entry : s.dequeConnections[index]? = some (some client))
    (differs : other ≠ client) (owned : s.Owned other) :
    ({ s with dequeConnections := s.dequeConnections.set index none, loop := loop } :
      ServerInterface T).Owned other := by
  rcases owned with member | elsewhere
  · obtain ⟨position, found⟩ := List.mem_iff_getElem?.mp member
    have apart : index ≠ position := by
      rintro rfl
      rw [entry] at found
      cases found
      exact differs rfl
    refine .inl (List.mem_iff_getElem?.mpr ⟨position, ?_⟩)
    rw [List.getElem?_set_ne apart]
    exact found
  · exact .inr elsewhere

section Steps

variable [FullLayout T] [Inhabited T] {s next : ServerInterface T} {event : Event T}

theorem Known.step (known : s.Known) (taken : s.step event = some next) : next.Known := by
  intro client owned
  cases event with
  | accept clock welcome approved =>
      cases taken
      cases approved with
      | false =>
          simp only [accept, Bool.false_eq_true, if_false, List.length_append]
          exact Nat.lt_of_lt_of_le (known client owned) (Nat.le_add_right _ _)
      | true =>
          simp only [accept, if_true, List.length_append, List.length_singleton]
          simp only [Owned, accept, if_true, List.mem_append, List.mem_singleton,
            Option.some.injEq] at owned
          rcases owned with (entry | last) | elsewhere
          · exact Nat.lt_succ_of_lt (known client (.inl entry))
          · rw [last]
            exact Nat.lt_succ_self _
          · exact Nat.lt_succ_of_lt (known client (.inr elsewhere))
  | io client event =>
      obtain ⟨c, d, found, ownedClient, rfl⟩ := step_io taken
      rw [settle, List.length_set]
      exact known _ ((owned_settle ownedClient).mp owned)
  | update =>
      obtain ⟨_, msg, later, remote, queue, rfl⟩ := step_update taken
      exact known client ((owned_update remote queue).mp owned)
  | handled =>
      obtain ⟨_, remote, rfl⟩ := step_handled taken
      refine known client (owned.imp_right (Or.imp_right ?_))
      intro held
      cases held
  | messageAllClient msg ignoreClient =>
      rw [step_messageAllClient taken] at owned ⊢
      exact known client owned
  | getClientList =>
      rw [step_getClientList taken] at owned ⊢
      exact known client owned
  | visit =>
      obtain ⟨loop, -, visited⟩ := step_visit taken
      rcases visited with ⟨-, later, rfl⟩ | ⟨_, c, later, -, -, -, rfl⟩ |
          ⟨_, c, later, -, -, -, rfl⟩
      · exact known client owned
      · rw [List.length_set]
        exact known client owned
      · refine known client (owned.imp_left ?_)
        intro entry
        rcases List.mem_or_eq_of_mem_set entry with old | null
        · exact old
        · cases null
  | loopDone =>
      obtain ⟨loop, -, rfl⟩ := step_loopDone taken
      exact known client (owned_loopDone.mp owned)

omit [FullLayout T] in
/-- A connection that is approved is put into the deque. -/
theorem HandlersOwned.approve (before : s.HandlersOwned) (clock : UInt64)
    (welcome : List (Message T)) : (s.accept clock welcome true).HandlersOwned := by
  simp only [accept, if_true]
  refine before.mono (fun client => Or.imp_left (List.mem_append_left _)) ?_
  intro client c found busy
  rcases getElem?_concat found with ⟨-, old⟩ | ⟨rfl, -⟩
  · exact .inr (idleAt_eq_false.mpr ⟨c, old, busy⟩)
  · exact .inl (.inl (List.mem_append_right _ (List.mem_singleton_self _)))

omit [FullLayout T] in
/-- A connection that is denied is idle exactly if nothing was sent to it. -/
theorem HandlersOwned.deny_iff (before : s.HandlersOwned) (known : s.Known) (clock : UInt64)
    (welcome : List (Message T)) :
    (s.accept clock welcome false).HandlersOwned ↔ welcome = [] := by
  have idle : (welcome.foldl Connection.send (.construct .server true clock)).isIdle = true ↔
      welcome = [] := by
    rw [Connection.foldl_send]
    simp [Connection.isIdle, Connection.construct]
  simp only [accept, Bool.false_eq_true, if_false]
  constructor
  · intro after
    by_contra sentTo
    have busy := Bool.not_eq_true _ ▸ mt idle.mp sentTo
    have owned : s.Owned s.connections.length := after _ _ List.getElem?_concat_length busy
    exact absurd (known _ owned) (Nat.lt_irrefl _)
  · intro silent
    refine before.mono (fun _ owned => owned) ?_
    intro client c found busy
    rcases getElem?_concat found with ⟨-, old⟩ | ⟨-, rfl⟩
    · exact .inr (idleAt_eq_false.mpr ⟨c, old, busy⟩)
    · rw [idle.mpr silent] at busy
      cases busy

omit [FullLayout T] [Inhabited T] in
/-- What happens to an owned connection is the work of an owned connection. -/
theorem HandlersOwned.set {client : ConnectionPtr} {c : Connection T} (before : s.HandlersOwned)
    (owned : s.Owned client) (connections : next.connections = s.connections.set client c)
    (more : ∀ other, s.Owned other → next.Owned other) : next.HandlersOwned := by
  refine before.mono more ?_
  intro other d found busy
  by_cases here : other = client
  · subst here
    exact .inl (more other owned)
  · rw [connections, List.getElem?_set_ne (Ne.symm here)] at found
    exact .inr (idleAt_eq_false.mpr ⟨d, found, busy⟩)

/-- **A step keeps the owners of all handlers exactly if it drops the last owner of idle
connections only.** -/
theorem HandlersOwned.step_iff (before : s.HandlersOwned) (known : s.Known)
    (taken : s.step event = some next) : next.HandlersOwned ↔ s.DropsIdle event := by
  cases event with
  | accept clock welcome approved =>
      cases taken
      cases approved with
      | true => exact iff_of_true (before.approve clock welcome) (.inl rfl)
      | false => simpa [DropsIdle] using before.deny_iff known clock welcome
  | io client event =>
      obtain ⟨c, d, found, owned, rfl⟩ := step_io taken
      exact iff_of_true (before.set owned rfl fun _ => (owned_settle owned).mpr) trivial
  | update =>
      obtain ⟨client, msg, later, remote, queue, rfl⟩ := step_update taken
      refine iff_of_true (before.mono (fun _ => (owned_update remote queue).mpr) ?_) trivial
      exact fun other c found busy => .inr (idleAt_eq_false.mpr ⟨c, found, busy⟩)
  | handled =>
      obtain ⟨client, remote, rfl⟩ := step_handled taken
      have others : ∀ other, other ≠ client → s.Owned other →
          ({ s with remote := none } : ServerInterface T).Owned other := by
        intro other differs owned
        refine owned.imp_right (Or.imp_right ?_)
        intro held
        exact absurd (Option.some.inj (remote.symm.trans held)) differs.symm
      refine Iff.trans (before.drop_iff rfl others) ?_
      simp [DropsIdle, Owned, remote]
  | messageAllClient msg ignoreClient =>
      rw [step_messageAllClient taken]
      exact iff_of_true before trivial
  | getClientList =>
      rw [step_getClientList taken]
      exact iff_of_true before trivial
  | visit =>
      obtain ⟨loop, looping, visited⟩ := step_visit taken
      rcases visited with ⟨entry, later, rfl⟩ | ⟨client, c, later, entry, found, isOpen, rfl⟩ |
        ⟨client, c, later, entry, found, closed, rfl⟩
      · refine iff_of_true before ?_
        simp [DropsIdle, invalidEntry, looping, entry]
      · have owned : s.Owned client := .inl (List.mem_of_getElem? entry)
        refine iff_of_true (before.set owned rfl fun _ owned => owned) ?_
        simp [DropsIdle, invalidEntry, looping, entry, found, isOpen]
      · have others : ∀ other, other ≠ client → s.Owned other →
            ({ s with dequeConnections := s.dequeConnections.set loop.index none, loop := later } :
              ServerInterface T).Owned other := fun _ => owned_reset entry
        refine Iff.trans (before.drop_iff rfl others) ?_
        simp [DropsIdle, invalidEntry, looping, entry, found, closed, Owned]
  | loopDone =>
      obtain ⟨loop, -, rfl⟩ := step_loopDone taken
      refine iff_of_true (before.mono (fun _ => owned_loopDone.mpr) ?_) trivial
      exact fun other c found busy => .inr (idleAt_eq_false.mpr ⟨c, found, busy⟩)

end Steps

/-! ## Runs -/

/-- **Every connection with outstanding work has an owner throughout a run exactly if every
step of the run that drops the last owner of a connection finds it idle.** -/
theorem handlersOwned_iff [FullLayout T] [Inhabited T] {events : List (Event T)}
    {final : ServerInterface T} (run : runFrom step start events = some final) :
    Throughout step HandlersOwned start events ↔ Meets step DropsIdle start events := by
  have keeps : ∀ (s : ServerInterface T) event next, Known s → step s event = some next →
      Known next := fun _ _ _ known taken => known.step taken
  have exact_step : ∀ (s : ServerInterface T) event next, Known s → HandlersOwned s → True →
      step s event = some next → (HandlersOwned next ↔ DropsIdle s event) :=
    fun _ _ _ known before _ taken => before.step_iff known taken
  exact throughout_iff_meets keeps exact_step known_start handlersOwned_start
    (fun _ _ => trivial) run

instance (s : ServerInterface T) (event : Event T) : Decidable (s.DropsIdle event) := by
  apply Event.casesOn (motive := fun event => Decidable (s.DropsIdle event)) event
  case accept =>
    intro clock welcome approved
    exact decidable_of_iff (approved = true ∨ welcome.isEmpty = true) (by simp [DropsIdle])
  all_goals
    intros
    unfold DropsIdle
    infer_instance

/-- A client is accepted and hangs up, its writes end, and a loop takes it off the deque. -/
def prunedWhenIdle : List (Event CustomMsgTypes) :=
  [.accept 5 [CustomServer.idMsg .serverAccept 10000] true, .io 0 .runPosted, .io 0 .readFail,
    .io 0 (.writeFail 0), .io 0 (.writeFail 0), .getClientList, .visit, .loopDone]

theorem handlersOwned_prunedWhenIdle : Throughout step HandlersOwned start prunedWhenIdle :=
  (handlersOwned_iff (Option.some_get (by decide)).symm).mpr (by decide)

/-- Two clients are accepted, the second hangs up before its welcome is written, and the first
asks for the list of the clients. -/
def prunedWithWrites : List (Event CustomMsgTypes) :=
  [.accept 5 [CustomServer.idMsg .serverAccept 10000] true,
    .accept 7 [CustomServer.idMsg .serverAccept 10001] true, .io 1 .runPosted, .io 1 .readFail,
    .io 0 (.arrive (toBytes (Connection.scramble 5))), .io 0 (.fill 8), .io 0 .readDone,
    .io 0 (.arrive (toBytes (Message.ofType CustomMsgTypes.clientList).header)), .io 0 (.fill 8),
    .io 0 .readDone, .update, .getClientList, .visit, .visit, .loopDone]

/-- **The entry of the second client was its only owner**, and two writes of it are still to
end. -/
theorem pruned_with_writes :
    ∃ final, runFrom step start prunedWithWrites = some final ∧ ¬ final.HandlersOwned := by
  refine ⟨(runFrom step start prunedWithWrites).get (by decide), (Option.some_get _).symm, ?_⟩
  intro owned
  have busy : ((runFrom step start prunedWithWrites).get (by decide)).idleAt 1 = false := by decide
  obtain ⟨c, found, working⟩ := idleAt_eq_false.mp busy
  exact absurd (owned 1 c found working) (by decide)

end ServerInterface

end NetworkChat
