import NetworkChat.Server.Hall

/-!
# The server goes on accepting

`Start` starts one `async_accept`, and its handler starts the next one at its end, whether the
accept failed, was denied or was approved. Before that it prints the endpoint of the peer, with
the overload of `remote_endpoint` that throws, and the peer may have gone already. An exception
that leaves a handler leaves `m_context.run()`, and nothing catches it there.

So the server goes on accepting exactly as long as no peer has gone when the handler of its
accept runs (`serving_iff`). What the handler does to the server is `Hall.accept`
(`hall_of_run`).
-/

set_option autoImplicit false

namespace NetworkChat

open Foundation

/-- `std::system_error`, as the calls of the handler throw it. -/
inductive SystemError where
  /-- The endpoint of a socket whose peer has gone. -/
  | notConnected
  deriving DecidableEq, Repr

/-- How an `async_accept` ends. -/
inductive Completion where
  | error
  | success (peerConnected : Bool)
  deriving DecidableEq, Repr

structure Acceptor where
  hall : Hall
  /-- How many `async_accept` are outstanding. -/
  outstanding : ℕ
  /-- The thread is in `m_context.run()`. -/
  ioRunning : Bool

namespace Acceptor

/-- `WaitForClientConnection`. -/
def waitForClientConnection (a : Acceptor) : Acceptor :=
  { a with outstanding := a.outstanding + 1 }

/-- `Start`: the first `async_accept`, then the thread. -/
def start : Acceptor :=
  { waitForClientConnection ⟨Hall.start, 0, false⟩ with ioRunning := true }

/-- `socket.remote_endpoint()`. -/
def remoteEndpoint (peerConnected : Bool) : Except SystemError Unit :=
  if peerConnected then .ok () else .error .notConnected

/-- The handler of `async_accept`. `approves` is the answer of `OnClientConnect`. -/
def acceptHandler (a : Acceptor) (completion : Completion) (approves : Bool) :
    Except SystemError Acceptor :=
  match completion with
  | .error => .ok a.waitForClientConnection
  | .success peerConnected => do
      remoteEndpoint peerConnected
      let a := if approves then { a with hall := a.hall.accept } else a
      return a.waitForClientConnection

/-- The end of an `async_accept`, and the answer of `OnClientConnect` if it is asked. -/
structure Event where
  completion : Completion
  approves : Bool
  deriving DecidableEq, Repr

/-- The handler has run. -/
def complete (a : Acceptor) (event : Event) : Acceptor :=
  let a := { a with outstanding := a.outstanding - 1 }
  match a.acceptHandler event.completion event.approves with
  | .ok next => next
  | .error _ => { a with ioRunning := false }

/-- An outstanding `async_accept` ends, while the thread runs. -/
def step (a : Acceptor) (event : Event) : Option Acceptor :=
  if a.ioRunning = true ∧ 0 < a.outstanding then some (a.complete event) else none

/-- One `async_accept` is outstanding, and the thread runs. -/
def Serving (a : Acceptor) : Prop := a.outstanding = 1 ∧ a.ioRunning = true

/-- The accept succeeds for a peer that has gone. -/
def PeerGone (event : Event) : Prop := event.completion = .success false

instance (event : Event) : Decidable (PeerGone event) := inferInstanceAs (Decidable (_ = _))

theorem step_eq_some {a next : Acceptor} {event : Event} (taken : a.step event = some next) :
    (a.ioRunning = true ∧ 0 < a.outstanding) ∧ next = a.complete event := by
  simp only [step] at taken
  split at taken
  case isTrue may => cases taken; exact ⟨may, rfl⟩
  case isFalse => cases taken

/-- The handler returns with a new `async_accept`, or throws. -/
theorem complete_cases (a : Acceptor) (event : Event) :
    (¬ PeerGone event ∧ (a.complete event).outstanding = a.outstanding - 1 + 1 ∧
        (a.complete event).ioRunning = a.ioRunning) ∨
      (PeerGone event ∧ (a.complete event).outstanding = a.outstanding - 1 ∧
        (a.complete event).ioRunning = false) := by
  obtain ⟨completion, approves⟩ := event
  cases completion with
  | error => exact .inl ⟨nofun, rfl, rfl⟩
  | success peerConnected =>
      cases peerConnected with
      | false => exact .inr ⟨rfl, rfl, rfl⟩
      | true =>
          refine .inl ⟨nofun, ?_, ?_⟩
          · cases approves <;> rfl
          · cases approves <;> rfl

/-- While the server accepts, the next handler leaves it accepting exactly if the peer has not
gone. -/
theorem serving_step_iff {a next : Acceptor} {event : Event} (serving : Serving a)
    (taken : a.step event = some next) : Serving next ↔ ¬ PeerGone event := by
  obtain ⟨-, rfl⟩ := step_eq_some taken
  obtain ⟨one, running⟩ := serving
  rcases complete_cases a event with ⟨here, armed, goesOn⟩ | ⟨gone, -, ended⟩
  · refine iff_of_true ⟨?_, goesOn.trans running⟩ here
    rw [armed, one]
  · refine iff_of_false ?_ (not_not_intro gone)
    rintro ⟨-, stillRunning⟩
    exact absurd (ended.symm.trans stillRunning) (by decide)

/-- **The server goes on accepting exactly as long as no peer has gone when its accept is
handled.** -/
theorem serving_iff {final : Acceptor} {events : List Event}
    (run : runFrom step start events = some final) :
    Throughout step Serving start events ↔ ∀ event ∈ events, ¬ PeerGone event := by
  rw [← meets_iff_forall run]
  have exact_step : ∀ (a : Acceptor) event next, Serving a → step a event = some next →
      (Serving next ↔ ¬ PeerGone event) :=
    fun _ _ _ serving taken => serving_step_iff serving taken
  exact throughout_iff_meets_of_step exact_step ⟨rfl, rfl⟩ run

/-- An accept fails, one is denied and one approved. -/
def threeEnds : List Event :=
  [⟨.error, true⟩, ⟨.success true, false⟩, ⟨.success true, true⟩]

theorem serving_threeEnds : Throughout step Serving start threeEnds := by
  have run := Option.some_get (by decide : (runFrom step start threeEnds).isSome = true)
  exact (serving_iff run.symm).mpr (by decide)

/-- The first peer has gone when the handler of its accept runs: no `async_accept` is
outstanding, and the thread has ended. -/
theorem gone_peer_ends_accepting :
    ∃ final, runFrom step start [⟨.success false, true⟩] = some final ∧
      final.outstanding = 0 ∧ final.ioRunning = false ∧ ¬ Serving final := by
  refine ⟨(runFrom step start [⟨.success false, true⟩]).get (by decide), (Option.some_get _).symm,
    by decide, by decide, ?_⟩
  rintro ⟨one, -⟩
  exact absurd one (by decide)

/-! ## The hall -/

/-- What the hall sees of the end of an accept. -/
def seen (event : Event) : List Hall.Event :=
  if event.completion = .success true ∧ event.approves = true then [.accept] else []

/-- **The server that an acceptor leaves is the one that the accepts of the hall leave.** -/
theorem hall_of_run {final : Acceptor} {events : List Event}
    (run : runFrom step start events = some final) :
    final.hall.aborted = none ∧
      runFrom Hall.step Hall.start (events.flatMap seen) = some final.hall := by
  let shown (past : List Event) (a : Acceptor) : Prop :=
    a.hall.aborted = none ∧ runFrom Hall.step Hall.start (past.flatMap seen) = some a.hall
  have keeps : ∀ past a event next, shown past a → step a event = some next →
      shown (past ++ [event]) next := by
    rintro past a ⟨completion, approves⟩ next ⟨running, reached⟩ taken
    obtain ⟨-, rfl⟩ := step_eq_some taken
    have unseen : ∀ {event : Event}, seen event = [] → (a.complete event).hall = a.hall →
        shown (past ++ [event]) (a.complete event) := by
      intro event nothing same
      change (a.complete event).hall.aborted = none ∧ _ = some (a.complete event).hall
      rw [List.flatMap_append, List.flatMap_singleton, nothing, List.append_nil, same]
      exact ⟨running, reached⟩
    cases completion with
    | error => exact unseen rfl rfl
    | success peerConnected =>
        cases peerConnected with
        | false => exact unseen rfl rfl
        | true =>
            cases approves with
            | false => exact unseen rfl rfl
            | true =>
                have taken : a.hall.step .accept = some a.hall.accept := by
                  simp only [Hall.step, running]
                  rfl
                have accepted : runFrom Hall.step a.hall (seen ⟨.success true, true⟩) =
                    some a.hall.accept := runFrom_cons taken []
                refine ⟨running, ?_⟩
                rw [List.flatMap_append, List.flatMap_singleton]
                exact runFrom_trans reached accepted
  have last : shown events final := history_invariant_of_run keeps ⟨rfl, rfl⟩ run
  exact last

end Acceptor

end NetworkChat
