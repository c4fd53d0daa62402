import NetworkChat.Chat.Leaving

/-!
# The return from a request

A `ConnectTo` whose request is done with is to leave its loop, and to return to the prompt or to
open the chat. As long as the steps meet the condition, its threads have a step that brings them
nearer to that (`Good.nears`), and `left` counts how far they are.

`released_iff_keepsDone` says when every request that is done with is left and its command returns.
-/

set_option autoImplicit false

namespace NetworkChat

open Foundation

/-- How many lines the thread of the user has before it. -/
def UserLine.left : UserLine → ℕ
  | .lockConnect _ => 4
  | .wait _ => 4
  | .checkRequest _ => 3
  | .checkConnected => 2
  | .joinAbort => 1
  | _ => 0

/-- How many steps of the thread that polls are left, its notification included. -/
def AbortLine.left : AbortLine → ℕ
  | .off => 0
  | .check _ => 1
  | .poll _ => 2
  | .getChar _ => 2
  | .lock _ => 4
  | .close _ .request => 5
  | .close _ .connected => 6
  | .close _ .send => 7

theorem AbortLine.left_le (line : AbortLine) : AbortLine.left line ≤ 7 := by
  cases line with
  | close id closeLine => cases closeLine <;> (simp only [AbortLine.left]; omega)
  | _ => simp only [AbortLine.left]; omega

namespace Requester

variable {self : ConnectionPtr} {r next : Requester} {event : Event} {d : ChatClient}

/-! ## The property and the condition -/

/-- A request that is done with is no longer waited for, and its command returns to the prompt or
opens the chat. -/
structure Released (own : ConnectionPtr) (r : Requester) : Prop where
  guard : r.Guarded
  returns : ∀ ticket ∈ r.command, ticket ∈ r.answered → r.Returns own

/-- The guard is false once the request is done with, and the command is not caught on its way
out. -/
def KeepsDone (r : Requester) (event : Event) : Prop := r.KeepsGuard event ∧ r.KeepsLeaving event

instance (r : Requester) (event : Event) : Decidable (r.KeepsDone event) :=
  inferInstanceAs (Decidable (_ ∧ _))

/-! ## What every step keeps -/

/-- What every run keeps as long as its steps meet the condition. -/
structure Good (r : Requester) : Prop where
  held : Held r
  guard : Guarded r
  askedId : AskedId r
  notified : Notified r
  leaves : Leaves r

theorem good_start : Good start where
  held := held_start
  guard ticket awaits := by cases awaits
  askedId ticket awaits := by cases awaits
  notified ticket waits := by cases waits
  leaves ticket isCommand := by cases isCommand

theorem Good.step (good : Good r) (keeps : r.KeepsDone event)
    (taken : r.step self event = some next) : Good next := by
  have guard : Guarded next := (guarded_step_iff good.held good.guard taken).mpr keeps.1
  exact ⟨good.held.step taken, guard, good.askedId.step guard taken,
    good.notified.step good.held good.guard taken,
    (leaves_step_iff good.held good.guard good.leaves taken).mpr keeps.2⟩

/-- How far a command whose request is done with is from its return. -/
def left (r : Requester) : ℕ :=
  20 * UserLine.left r.client.user + AbortLine.left r.client.abort +
    (if r.notifies.isSome then 1 else 0) + if r.sleep = .awake then 1 else 0

/-- A step of its own that brings the command of the request nearer to its return. -/
def Nears (self : ConnectionPtr) (r : Requester) (ticket : Ticket) : Prop :=
  ∃ event next, event.ofCommand = true ∧ r.step self event = some next ∧ r.KeepsDone event ∧
    (next.Returned ∨ next.command = some ticket ∧ ticket ∈ next.answered ∧ next.left < r.left)

variable {ticket : Ticket}

/-- A notification that is to come is given. -/
theorem nears_notify (isCommand : r.command = some ticket) (done : ticket ∈ r.answered)
    {notifier : Notifier} (isNotifier : r.notifies = some notifier) : Nears self r ticket := by
  have taken : r.step self .notify = some
      { r with notifies := none, sleep := if r.sleep = .blocked then .woken else r.sleep } := by
    simp only [step, isNotifier]
  refine ⟨.notify, _, rfl, taken, ⟨trivial, trivial⟩, .inr ⟨isCommand, done, ?_⟩⟩
  simp only [left, isNotifier]
  cases r.sleep <;> simp

/-- The wait gives the lock back. -/
theorem nears_block (isCommand : r.command = some ticket) (done : ticket ∈ r.answered)
    (enters : r.entersWait = true) : Nears self r ticket := by
  have taken : r.step self .block = some { r with sleep := .blocked } := by
    simp only [step, enters, if_true]
  have awake : r.sleep = .awake := by
    simp only [entersWait, Bool.and_eq_true, decide_eq_true_eq] at enters
    exact enters.2
  refine ⟨.block, _, rfl, taken, ⟨trivial, trivial⟩, .inr ⟨isCommand, done, ?_⟩⟩
  simp [left, awake]

/-- The thread of the user takes a line. -/
theorem nears_user (allowed : r.allows .user = true) (taken : r.client.userStep self = some d)
    (quiet : r.notifies = none) (storing : ChatClient.UserLine.storing r.client.user = none)
    (keeps : r.KeepsLeaving (.client .user))
    (nears : (r.after d .user).Returned ∨ r.commandAt d.user = some ticket ∧ ticket ∈ r.answered ∧
      UserLine.left d.user < UserLine.left r.client.user) : Nears self r ticket := by
  have keepsGuard : r.KeepsGuard (.client .user) := by
    intro other isStoring
    rw [storing] at isStoring
    cases isStoring
  have step : r.step self (.client .user) = some (r.after d .user) := by
    simp only [step, allowed, if_true, ChatClient.step, taken, Option.map_some]
  refine ⟨.client .user, _, rfl, step, ⟨keepsGuard, keeps⟩, nears.imp_right ?_⟩
  rintro ⟨isCommand, done, less⟩
  refine ⟨isCommand, done, ?_⟩
  have few := AbortLine.left_le d.abort
  simp only [left, after, quiet, Option.isSome_none, Bool.false_eq_true, if_false, if_true]
  omega

/-- The thread that polls has a line to take, which brings it nearer to its end. -/
theorem exists_abortStep (self : ConnectionPtr) (isOn : r.client.abort ≠ .off)
    (quiet : r.notifies = none)
    (differs : ∀ id ∈ AbortLine.request r.client.abort, r.client.ids.connectionRequestId ≠ id)
    (free : ∀ id, r.client.abort = .lock id → r.client.muxFree = true) :
    ∃ d, r.client.abortStep self false = some d ∧ (r.after d (.abort false)).left < r.left := by
  cases line : r.client.abort with
  | off => exact absurd line isOn
  | check id =>
      have other := differs id (by rw [line]; rfl)
      refine ⟨{ r.client with abort := .off }, ?_, ?_⟩
      · simp only [ChatClient.abortStep, line, if_neg other]
      · simp [left, after, line, AbortLine.left]
  | poll id =>
      refine ⟨{ r.client with abort := .check id }, ?_, ?_⟩
      · simp only [ChatClient.abortStep, line, Bool.false_eq_true, if_false]
      · simp [left, after, line, AbortLine.left]
  | close id closeLine =>
      cases closeLine with
      | send =>
          refine ⟨{ r.client.closeLine self .send with abort := .close id .connected }, ?_, ?_⟩
          · simp only [ChatClient.abortStep, line]
          · simp [left, after, line, AbortLine.left, ChatClient.closeLine, ChatClient.send]
      | connected =>
          refine ⟨{ r.client.closeLine self .connected with abort := .close id .request }, ?_, ?_⟩
          · simp only [ChatClient.abortStep, line]
          · simp [left, after, line, AbortLine.left, ChatClient.closeLine,
              ChatClient.changeConnectedToId]
      | request =>
          refine ⟨{ r.client.closeLine self .request with abort := .lock id }, ?_, ?_⟩
          · simp only [ChatClient.abortStep, line]
          · simp [left, after, line, AbortLine.left, ChatClient.closeLine,
              ChatClient.storeRequestId]
  | lock id =>
      refine ⟨{ r.client with abort := .getChar id }, ?_, ?_⟩
      · simp only [ChatClient.abortStep, line, free id line, if_true]
      · simp [left, after, line, AbortLine.left, quiet]
  | getChar id =>
      refine ⟨{ r.client with abort := .check id }, ?_, ?_⟩
      · simp only [ChatClient.abortStep, line]
      · simp [left, after, line, AbortLine.left]

/-- The thread that polls takes a line. -/
theorem nears_abort (isCommand : r.command = some ticket) (done : ticket ∈ r.answered)
    (isOn : r.client.abort ≠ .off) (quiet : r.notifies = none) (enters : r.entersWait = false)
    (differs : ∀ id ∈ AbortLine.request r.client.abort, r.client.ids.connectionRequestId ≠ id)
    (free : ∀ id, r.client.abort = .lock id → r.client.muxFree = true)
    (keeps : r.KeepsDone (.client (.abort false))) : Nears self r ticket := by
  obtain ⟨d, taken, less⟩ := exists_abortStep self isOn quiet differs free
  have allowed : r.allows (.abort false) = true := by
    simp only [allows]
    split
    all_goals simp [quiet, enters]
  have step : r.step self (.client (.abort false)) = some (r.after d (.abort false)) := by
    simp only [step, allowed, if_true, ChatClient.step, taken, Option.map_some]
  refine ⟨.client (.abort false), _, rfl, step, keeps, .inr ⟨?_, ?_, less⟩⟩
  · simp only [after]
    split <;> exact isCommand
  · exact mem_answered_abort.mpr (.inl done)

/-- The thread that polls goes on while the user waits for it. -/
theorem Good.nears_wait (good : Good r) (line : r.client.user = .wait ticket)
    (done : ticket ∈ r.answered) (quiet : r.notifies = none) : Nears self r ticket := by
  have awaits : ticket ∈ UserLine.awaits r.client.user := by rw [line]; rfl
  have isCommand := good.held.command ticket awaits
  have differs := good.guard ticket awaits done
  by_cases enters : r.entersWait = true
  · exact nears_block isCommand done enters
  rw [Bool.not_eq_true] at enters
  by_cases off : r.client.abort = .off
  · have free : r.client.muxFree = true := by
      rw [ChatClient.muxFree, line, off]
      rfl
    have woken : r.sleep = .woken := by
      refine (good.notified ticket (by rw [line]; rfl) done).resolve_right ?_
      simp [notifying, quiet, off]
    refine nears_user (d := { r.client with user := .checkRequest ticket }) ?_ ?_ quiet
      (by rw [line]; rfl) ?_ (.inr ⟨?_, done, ?_⟩)
    · simp only [allows, line, woken, quiet]
      rfl
    · simp only [ChatClient.userStep, line, free, if_true]
    · intro other _ _
      simp [endsAt, pressesAt, off, AbortLine.ends]
    · simpa only [commandAt, line, UserLine.connects, if_true] using isCommand
    · simp [line, UserLine.left]
  · refine nears_abort isCommand done off quiet enters ?_ ?_ ⟨?_, ?_⟩
    · intro id polls
      rw [good.held.polls ticket isCommand id polls]
      exact differs
    · intro id isLine
      rw [ChatClient.muxFree, line, isLine]
      rfl
    · intro stored stores other isAwaited
      rw [line] at isAwaited
      cases isAwaited
      rw [requestStore_abort stored stores]
      exact (good.askedId ticket awaits done).symm
    · intro leaves
      have holds := (leavesAt_iff.mp leaves).1
      rw [line] at holds
      cases holds

/-- A thread that ends by itself finds another id. -/
theorem differs_of_ends
    (ends : AbortLine.ends r.client.ids.connectionRequestId r.client.abort = true) :
    ∀ id ∈ AbortLine.request r.client.abort, r.client.ids.connectionRequestId ≠ id := by
  intro id polls
  cases line : r.client.abort with
  | off => rw [line] at polls; cases polls
  | close other closeLine => rw [line] at ends; cases ends
  | lock other => rw [line] at ends; cases ends
  | _ =>
      rw [line] at ends polls
      cases polls
      exact of_decide_eq_true ends

/-- The thread that polls is joined. -/
theorem Good.nears_join (good : Good r) (line : r.client.user = .joinAbort)
    (isCommand : r.command = some ticket) (done : ticket ∈ r.answered)
    (quiet : r.notifies = none) : Nears self r ticket := by
  have ends : AbortLine.ends r.client.ids.connectionRequestId r.client.abort = true := by
    rcases good.leaves ticket isCommand done (by rw [line]; rfl) with ⟨notJoin, -⟩ | ends
    · exact absurd line notJoin
    · exact ends
  by_cases off : r.client.abort = .off
  · refine nears_user (d := { r.client with user := .prompt }) ?_ ?_ quiet (by rw [line]; rfl)
      (keepsLeaving_of_waits (by rw [line]; rfl)) (.inl (.inl rfl))
    · simp only [allows, line]
    · simp only [ChatClient.userStep, line, off, if_true]
  · have enters : r.entersWait = false := by
      rw [entersWait, line]
      rfl
    have storesNothing : r.client.requestStore (.abort false) = none := by
      cases isLine : r.client.abort with
      | close id closeLine => rw [isLine] at ends; cases ends
      | _ => simp only [ChatClient.requestStore, isLine]
    refine nears_abort isCommand done off quiet enters ?_ ?_ ⟨?_, ?_⟩
    · exact differs_of_ends ends
    · intro id isLine
      rw [isLine] at ends
      cases ends
    · intro stored stores
      rw [storesNothing] at stores
      cases stores
    · intro _
      rw [endsAt, storesNothing]
      simp [pressesAt, ends]

/-- **A command whose request is done with has returned or comes nearer to its return.** -/
theorem Good.nears (good : Good r) (isCommand : r.command = some ticket)
    (done : ticket ∈ r.answered) : Nears self r ticket := by
  have connects := good.held.connects (by rw [isCommand]; rfl)
  cases notifies : r.notifies with
  | some notifier => exact nears_notify isCommand done notifies
  | none =>
      cases line : r.client.user with
      | lockConnect other =>
          have awaits : other ∈ UserLine.awaits r.client.user := by rw [line]; rfl
          have off : r.client.abort = .off :=
            good.held.joined (by rw [line]; rfl) (by rw [line]; rfl)
          have free : r.client.muxFree = true := by
            rw [ChatClient.muxFree, line, off]
            rfl
          refine nears_user
            (d := { r.client with user := .checkRequest other, abort := .check other.asked })
            ?_ ?_ notifies (by rw [line]; rfl) (keepsLeaving_of_waits (by rw [line]; rfl))
            (.inr ⟨?_, done, ?_⟩)
          · simp [allows, line, notifies]
          · simp only [ChatClient.userStep, line, free, off, and_self, if_true]
          · simpa only [commandAt, line, UserLine.connects, if_true] using isCommand
          · simp [line, UserLine.left]
      | checkRequest other =>
          have awaits : other ∈ UserLine.awaits r.client.user := by rw [line]; rfl
          have same := good.held.command other awaits
          rw [isCommand] at same
          cases same
          have differs := good.guard ticket awaits done
          refine nears_user (d := { r.client with user := .checkConnected }) ?_ ?_ notifies
            (by rw [line]; rfl) (keepsLeaving_of_waits (by rw [line]; rfl)) (.inr ⟨?_, done, ?_⟩)
          · simp only [allows, line]
          · simp only [ChatClient.userStep, line, if_neg differs]
          · simpa only [commandAt, line, UserLine.connects, if_true] using isCommand
          · simp [line, UserLine.left]
      | wait other =>
          have awaits : other ∈ UserLine.awaits r.client.user := by rw [line]; rfl
          have same := good.held.command other awaits
          rw [isCommand] at same
          cases same
          exact good.nears_wait line done notifies
      | checkConnected =>
          by_cases connected : 10000 ≤ r.client.ids.connectedToId
          · refine nears_user (d := { r.client with user := .chat .connectTo }) ?_ ?_ notifies
              (by rw [line]; rfl) (keepsLeaving_of_waits (by rw [line]; rfl)) (.inl (.inr rfl))
            · simp only [allows, line]
            · simp only [ChatClient.userStep, line, if_pos connected]
          · refine nears_user (d := { r.client with user := .joinAbort }) ?_ ?_ notifies
              (by rw [line]; rfl) (keepsLeaving_of_waits (by rw [line]; rfl)) (.inr ⟨?_, done, ?_⟩)
            · simp only [allows, line]
            · simp only [ChatClient.userStep, line, if_neg connected]
            · simpa only [commandAt, line, UserLine.connects, if_true] using isCommand
            · simp [line, UserLine.left]
      | joinAbort => exact good.nears_join line isCommand done notifies
      | _ => rw [line] at connects; cases connects

theorem Good.returns (good : Good r) (isCommand : r.command = some ticket)
    (done : ticket ∈ r.answered) : r.Returns self := by
  induction size : r.left using Nat.strong_induction_on generalizing r with
  | _ size ih =>
      obtain ⟨event, next, own, taken, keeps, returned | ⟨isNext, doneNext, less⟩⟩ :=
        good.nears isCommand done
      · refine ⟨[event], next, by simpa using own, ?_, returned⟩
        rw [runFrom_cons taken]
        rfl
      · obtain ⟨events, final, all, run, returned⟩ :=
          ih next.left (size ▸ less) (good.step keeps taken) isNext doneNext rfl
        refine ⟨event :: events, final, List.forall_mem_cons.mpr ⟨own, all⟩, ?_, returned⟩
        rw [runFrom_cons taken, run]

theorem Good.released (good : Good r) : Released self r where
  guard := good.guard
  returns _ isCommand done := good.returns isCommand done

/-- **Requests that are done with are released throughout a run exactly if every step meets the
condition.** -/
theorem released_iff_keepsDone (self : ConnectionPtr) {events : List Event} {final : Requester}
    (run : runFrom (step self) start events = some final) :
    Throughout (step self) (Released self) start events ↔
      Meets (step self) KeepsDone start events := by
  let every (_ : Event) : Prop := True
  have keeps : ∀ state event next, Good state → every event → state.step self event = some next →
      state.KeepsDone event → Good next := fun _ _ _ good _ taken keeps => good.step keeps taken
  have loses : ∀ state event next, Good state → every event → state.step self event = some next →
      next.Released self → state.KeepsDone event := by
    intro state event next good _ taken released
    refine ⟨(guarded_step_iff good.held good.guard taken).mp released.guard,
      (leaves_step_iff good.held good.guard good.leaves taken).mp ?_⟩
    by_contra notLeaves
    have caught : Caught next := caught_of_not_leaves (good.held.step taken) released.guard
      (good.askedId.step released.guard taken) notLeaves
    simp only [Leaves, not_forall] at notLeaves
    obtain ⟨ticket, isCommand, done, -⟩ := notLeaves
    exact caught.not_returns (released.returns ticket isCommand done)
  exact throughout_iff_meets_of_good (fun _ good => good.released) keeps loses good_start
    (fun _ _ => trivial) run

/-- The user presses the key, the request is closed, and the user is woken. -/
def aborted : List Event :=
  asked ++ [.client (.abort false), .client (.abort true), .client (.abort false),
    .client (.abort false), .client (.abort false), .client (.abort false), .notify,
    .client (.abort false), .client (.abort false), .client .user, .client .user, .client .user,
    .client .user]

theorem released_accepted :
    Throughout (step 0) (Released 0) start accepted ∧
      Throughout (step 0) (Released 0) start aborted :=
  ⟨(released_iff_keepsDone 0 (Option.some_get (by decide +kernel)).symm).mpr (by decide +kernel),
    (released_iff_keepsDone 0 (Option.some_get (by decide +kernel)).symm).mpr (by decide +kernel)⟩

/-- The reply comes before the id of the request is stored. -/
def early : List Event :=
  [.client (.command (.connectTo 10001)),
    .arrive ⟨0, CustomServer.idMsg .requestToClient 0, some ⟨0, 10001, 0⟩⟩, .client .execute,
    .client .execute, .notify, .client .user, .client .user, .client .user, .block]

/-- The user asks for 0, and the reply is that nobody has this id. -/
def askedZero : List Event :=
  [.client (.command (.connectTo 0)), .client .user, .client .user, .client .user, .block,
    .arrive ⟨0, CustomServer.idMsg .requestToClient 0, some ⟨0, 0, 0⟩⟩, .client .execute,
    .client .execute, .notify, .client .user, .client .user, .block]

/-- The key is seen before the thread of the user comes to the wait. -/
def pressed : List Event :=
  [.client (.command (.connectTo 10001)), .client .user, .client .user, .client (.abort false),
    .client (.abort true), .client (.abort false), .client (.abort false), .client (.abort false),
    .client .user, .client .user]

/-- **The reply was handled, and the user waits. The user has aborted, and the command never
returns.** -/
theorem answered_waits :
    (∃ final, runFrom (step 0) start early = some final ∧
      final.client.user = .wait ⟨0, 10001, 0⟩ ∧ final.sleep = .blocked ∧
        ⟨0, 10001, 0⟩ ∈ final.answered ∧ ¬ Released 0 final) ∧
      (∃ final, runFrom (step 0) start askedZero = some final ∧
        final.client.user = .wait ⟨0, 0, 0⟩ ∧ final.sleep = .blocked ∧
          ⟨0, 0, 0⟩ ∈ final.answered ∧ ¬ Released 0 final) ∧
        ∃ final, runFrom (step 0) start pressed = some final ∧
          final.client.user = .joinAbort ∧ final.client.abort = .lock 10001 ∧
            ⟨0, 10001, 0⟩ ∈ final.answered ∧ ¬ Returns 0 final ∧ ¬ Released 0 final := by
  refine ⟨?_, ?_, ?_⟩
  · refine ⟨(runFrom (step 0) start early).get (by decide +kernel), (Option.some_get _).symm,
      by decide +kernel, by decide +kernel, by decide +kernel, ?_⟩
    intro released
    exact released.guard ⟨0, 10001, 0⟩ (by decide +kernel) (by decide +kernel) (by decide +kernel)
  · refine ⟨(runFrom (step 0) start askedZero).get (by decide +kernel), (Option.some_get _).symm,
      by decide +kernel, by decide +kernel, by decide +kernel, ?_⟩
    intro released
    exact released.guard ⟨0, 0, 0⟩ (by decide +kernel) (by decide +kernel) (by decide +kernel)
  · have caught : Caught ((runFrom (step 0) start pressed).get (by decide +kernel)) :=
      ⟨by decide +kernel, .inl (by decide +kernel)⟩
    refine ⟨_, (Option.some_get _).symm, by decide +kernel, by decide +kernel, by decide +kernel,
      caught.not_returns, ?_⟩
    intro released
    exact caught.not_returns
      (released.returns ⟨0, 10001, 0⟩ (by decide +kernel) (by decide +kernel))

end Requester

end NetworkChat
