import NetworkChat.Server.Causes

/-!
# Ids of clients

The id that a connection gets is the one that was announced to it: `OnClientConnect` reads the
counter, and `ConnectToClient` is given the same value. The counter has 32 bits and starts at
10000, so the ids are at least 10000 and differ from each other exactly until it wraps
(`idsStand_iff`).
-/

set_option autoImplicit false

namespace NetworkChat

open Foundation

namespace ChatServer

def Event.isAccept : Event → Bool
  | .accept _ => true
  | .io _ _ => false
  | .update => false

/-- How many connections were accepted. -/
def accepted (events : List Event) : ℕ := events.countP Event.isAccept

/-- Every client was told the id of its connection before anything else, the ids are no codes,
and no other connection of the deque has the same. -/
structure IdsStand (s : ChatServer) : Prop where
  announced : ∀ client < s.connections.length,
    (messagesOf client s.sends).head? = some (CustomServer.idMsg .serverAccept (s.id client))
  atLeast : ∀ client < s.connections.length, 10000 ≤ s.id client
  distinct : ∀ client < s.connections.length, ∀ other ∈ s.server.dequeConnections,
    other ≠ client → s.id other ≠ s.id client

/-- Connections are only ever added, one for each that is accepted. -/
theorem length_step {s next : ChatServer} {event : Event} (taken : s.step event = some next) :
    next.connections.length = s.connections.length + accepted [event] := by
  obtain ⟨-, taken⟩ := step_eq_some taken
  cases event with
  | accept clock =>
      cases taken
      exact List.length_append
  | io client event =>
      obtain ⟨c, d, -, -, -, rfl⟩ := act_io taken
      exact List.length_set ..
  | update =>
      obtain ⟨client, msg, later, -, rfl⟩ := act_update taken
      rcases handle_cases s client msg later with ⟨server, calls, -, handled⟩ | ⟨fault, -, failed⟩
      · rw [handled]
        exact List.length_mapIdx
      · rw [failed]
        rfl

theorem length_of_run {events : List Event} {s : ChatServer}
    (run : runFrom step start events = some s) : s.connections.length = accepted events := by
  let counted (past : List Event) (s : ChatServer) : Prop := s.connections.length = accepted past
  have keeps : ∀ past s event next, counted past s → step s event = some next →
      counted (past ++ [event]) next := by
    intro past s event next same taken
    change next.connections.length = accepted (past ++ [event])
    rw [length_step taken, same, accepted, accepted, accepted, List.countP_append]
  have last : counted events s := history_invariant_of_run keeps rfl run
  exact last

/-- The ids are given in order. -/
theorem id_of_run {events : List Event} {s : ChatServer} (run : runFrom step start events = some s)
    {client : ConnectionPtr} (known : client < s.connections.length) :
    (s.id client).toNat = (10000 + client) % 2 ^ 32 := by
  obtain ⟨hallEvents, hallRun⟩ := (refines_hall ⟨events, run⟩).2
  have kept : Hall.Kept hallEvents s.hall :=
    history_invariant_of_run (fun _ _ _ _ kept taken => Hall.Kept.step kept taken) Hall.kept_start
      hallRun
  have found := List.getElem?_eq_getElem known
  have isPeer : s.hall.peers[client]? = some (peer s.connections[client]) := by
    rw [hall, List.getElem?_map, found]
    rfl
  have isId : s.id client = UInt32.ofNat (10000 + client) := by
    rw [id_eq found]
    exact kept.numbered.ids client _ isPeer
  rw [isId, UInt32.toNat_ofNat']

/-- **The ids stand exactly as long as the counter has not wrapped.** -/
theorem idsStand_iff {events : List Event} {s : ChatServer}
    (run : runFrom step start events = some s) :
    IdsStand s ↔ accepted events ≤ 2 ^ 32 - 10000 := by
  have caused := caused_of_run run
  have isLeast : (10000 : UInt32).toNat = 10000 := rfl
  rw [← length_of_run run]
  constructor
  · intro stands
    by_contra many
    -- The connection that is accepted as the counter wraps.
    obtain ⟨wrapped, isWrapped⟩ : ∃ wrapped, 10000 + wrapped = 2 ^ 32 := ⟨2 ^ 32 - 10000, by omega⟩
    have known : wrapped < s.connections.length := by omega
    have least := stands.atLeast wrapped known
    rw [UInt32.le_iff_toNat_le, id_of_run run known, isLeast, isWrapped] at least
    omega
  · intro few
    have idOf : ∀ client < s.connections.length, (s.id client).toNat = 10000 + client := by
      intro client known
      rw [id_of_run run known, Nat.mod_eq_of_lt (by omega)]
    refine ⟨?_, ?_, ?_⟩
    · intro client known
      obtain ⟨later, first, -⟩ := caused.sends client known
      rw [first]
      rfl
    · intro client known
      rw [UInt32.le_iff_toNat_le, idOf client known, isLeast]
      exact Nat.le_add_right _ _
    · intro client known other member differs same
      have values := congrArg UInt32.toNat same
      rw [idOf other (caused.sound.deque other member), idOf client known] at values
      exact differs (Nat.add_left_cancel values)

/-- Two clients are accepted. -/
theorem idsStand_twoAccepted :
    ∃ s, runFrom step start [.accept 0, .accept 0] = some s ∧ IdsStand s :=
  ⟨(runFrom step start [.accept 0, .accept 0]).get (by decide), (Option.some_get _).symm,
    (idsStand_iff (Option.some_get _).symm).mpr (by decide)⟩

/-- Clients are accepted, one after the other. -/
def accepts (count : ℕ) : List Event := List.replicate count (.accept 0)

theorem accepted_accepts (count : ℕ) : accepted (accepts count) = count := by
  rw [accepted, accepts, List.countP_replicate]
  exact if_pos rfl

/-- Nothing keeps the server from accepting. -/
theorem exists_run_accepts (count : ℕ) {s : ChatServer} (running : s.aborted = none) :
    ∃ final, runFrom step s (accepts count) = some final := by
  induction count generalizing s with
  | zero => exact ⟨s, rfl⟩
  | succ count ih =>
      have taken : s.step (.accept 0) = some (s.accept 0) := by
        simp only [step, running]
        rfl
      obtain ⟨final, run⟩ := ih (s := s.accept 0) running
      refine ⟨final, ?_⟩
      rw [accepts, List.replicate_succ, runFrom_cons taken]
      exact run

/-- The client that is accepted after 2^32 - 10000 others is told the id 0. -/
theorem id_wraps :
    ∃ s, runFrom step start (accepts (2 ^ 32 - 9999)) = some s ∧
      (s.id (2 ^ 32 - 10000)).toNat = 0 ∧ ¬ IdsStand s := by
  obtain ⟨s, run⟩ := exists_run_accepts (2 ^ 32 - 9999) (s := start) rfl
  have length := length_of_run run
  rw [accepted_accepts] at length
  have known : 2 ^ 32 - 10000 < s.connections.length := by omega
  have isZero : (s.id (2 ^ 32 - 10000)).toNat = 0 := by
    rw [id_of_run run known]
    omega
  refine ⟨s, run, isZero, ?_⟩
  intro stands
  have least := stands.atLeast _ known
  have isLeast : (10000 : UInt32).toNat = 10000 := rfl
  rw [UInt32.le_iff_toNat_le, isZero, isLeast] at least
  omega

end ChatServer

end NetworkChat
