import NetworkChat.Chat.Requester

/-!
# The wait for a request

A `ConnectTo` returns from its wait when `ConnectionRequestId` is no longer the id that was asked
for and the thread of the user is woken to see it.

`ExecuteMessages` notifies after the stores under the lock, and the thread that polls after its
close. The stores without the lock, of a request that comes in and of a close of the partner, notify
nobody: `wakes_iff_notifiesStores` says that these are the stores that leave the thread asleep.
-/

set_option autoImplicit false

namespace NetworkChat

open Foundation

namespace Requester

variable {self : ConnectionPtr} {r next : Requester} {event : Event} {d : ChatClient}

/-! ## Notifications -/

/-- A `notify_one` is still to come of a thread that has changed `ConnectionRequestId`. -/
def notifying (r : Requester) : Bool :=
  r.notifies.isSome || match r.client.abort with
    | .lock _ => true
    | _ => false

/-- A thread that is blocked in the wait of a request that `ConnectionRequestId` no longer names is
to be notified. -/
def Wakes (r : Requester) : Prop :=
  r.sleep = .blocked → ∀ ticket ∈ UserLine.waits r.client.user,
    r.client.ids.connectionRequestId ≠ ticket.asked → r.notifying = true

/-- When a wait blocks, `ConnectionRequestId` still names its request; and while a thread is
blocked, what `ExecuteMessages` stores without a notification is the id that is waited for. Both
unless a notification is to come anyway. -/
def NotifiesStores (r : Requester) : Event → Prop
  | .block => r.notifying = true ∨ ∀ ticket ∈ UserLine.waits r.client.user,
      r.client.ids.connectionRequestId = ticket.asked
  | .client .execute => r.sleep = .blocked → r.notifying = true ∨ r.client.execute = .reset ∨
      ∀ stored ∈ r.client.requestStore .execute, ∀ ticket ∈ UserLine.waits r.client.user,
        stored = ticket.asked
  | _ => True

instance (r : Requester) : Decidable (Wakes r) := inferInstanceAs (Decidable (_ → _))

instance (r : Requester) (event : Event) : Decidable (r.NotifiesStores event) := by
  apply event.casesOn (motive := fun event => Decidable (r.NotifiesStores event))
  case arrive | notify | wakeUp => intros; exact .isTrue trivial
  case block => unfold NotifiesStores; infer_instance
  case client =>
    intro event
    cases event with
    | execute =>
        -- The ids are too many to be tried one after the other.
        let stores : Decidable (∀ stored ∈ r.client.requestStore .execute,
            ∀ ticket ∈ UserLine.waits r.client.user, stored = ticket.asked) :=
          @Option.decidableForallMem _ _ (fun _ => inferInstance) _
        unfold NotifiesStores
        infer_instance
    | _ => exact .isTrue trivial

theorem notifying_iff : r.notifying = true ↔
    r.notifies.isSome = true ∨ ∃ id, r.client.abort = .lock id := by
  rw [notifying, Bool.or_eq_true]
  cases r.client.abort with
  | lock id => exact iff_of_true (.inr rfl) (.inr ⟨id, rfl⟩)
  | _ => simp

/-- A thread that is not blocked need not be notified. -/
theorem Wakes.of_not_blocked (awake : r.sleep ≠ .blocked) : Wakes r :=
  fun blocked => absurd blocked awake

theorem notifying_after_abort (pressed : Bool) (notifying : r.notifying = true) :
    (r.after d (.abort pressed)).notifying = true := by
  refine notifying_iff.mpr (.inl ?_)
  rcases notifying_iff.mp notifying with pending | ⟨id, line⟩
  · simp only [after]
    split
    · rfl
    · exact pending
    · exact pending
  · simp only [after, line]
    rfl

/-- The thread that polls stores nothing, or goes to notify. -/
theorem notifying_of_abort {pressed : Bool} (taken : r.client.step self (.abort pressed) = some d) :
    r.client.requestStore (.abort pressed) = none ∨
      (r.after d (.abort pressed)).notifying = true := by
  simp only [ChatClient.step, ChatClient.abortStep] at taken
  split at taken
  case h_6 id line =>
    cases taken
    right
    refine notifying_iff.mpr (.inr ⟨id, ?_⟩)
    rw [after_client]
  all_goals exact .inl (by simp only [ChatClient.requestStore, *])

theorem Wakes.abort {pressed : Bool} (wakes : Wakes r)
    (taken : r.client.step self (.abort pressed) = some d) :
    Wakes (r.after d (.abort pressed)) := by
  rcases notifying_of_abort taken with storesNothing | notifies
  · intro blocked ticket waits differs
    rw [after_sleep_abort] at blocked
    rw [after_client, (ChatClient.frame_of_abortStep taken).1] at waits
    rw [after_client, ChatClient.connectionRequestId_step taken, storesNothing] at differs
    exact notifying_after_abort pressed (wakes blocked ticket waits differs)
  · exact fun _ _ _ _ => notifies

/-- A notification is to come after a store under the lock, or one that was to come before. -/
theorem notifying_after_execute (taken : r.client.step self .execute = some d) :
    (r.after d .execute).notifying = true ↔ r.notifying = true ∨ r.client.execute = .reset := by
  rw [notifying_iff, notifying_iff, after_client, (ChatClient.frame_of_executeStep taken).2]
  simp only [after]
  split
  case h_1 line => simp only [line, reduceCtorEq, or_false]
  case h_2 line => exact iff_of_true (.inl rfl) (.inr line)
  case h_3 notReset => simp only [or_iff_left notReset]

theorem wakes_execute_iff (wakes : Wakes r) (taken : r.client.step self .execute = some d) :
    Wakes (r.after d .execute) ↔ r.NotifiesStores (.client .execute) := by
  have field := ChatClient.connectionRequestId_step taken
  have user := (ChatClient.frame_of_executeStep taken).1
  constructor
  · intro wakesAfter blocked
    by_cases notifies : (r.after d .execute).notifying = true
    · rcases (notifying_after_execute taken).mp notifies with before | line
      · exact .inl before
      · exact .inr (.inl line)
    · refine .inr (.inr fun stored stores ticket waits => ?_)
      by_contra differs
      refine notifies (wakesAfter (by rwa [after_sleep_execute]) ticket ?_ ?_)
      · rwa [after_client, user]
      · rwa [after_client, field, Option.mem_def.mp stores]
  · intro stores blocked ticket waits differs
    rw [after_sleep_execute] at blocked
    rw [after_client, user] at waits
    rw [after_client, field] at differs
    rw [notifying_after_execute taken]
    rcases stores blocked with notifies | line | same
    · exact .inl notifies
    · exact .inr line
    · cases store : r.client.requestStore .execute with
      | none =>
          rw [store] at differs
          exact .inl (wakes blocked ticket waits differs)
      | some stored =>
          rw [store] at differs
          exact absurd (same stored store ticket waits) differs

/-- **A step leaves no thread asleep exactly if it meets the condition.** -/
theorem wakes_step_iff (wakes : Wakes r) (taken : r.step self event = some next) :
    Wakes next ↔ r.NotifiesStores event := by
  cases step_cases taken with
  | arrive envelope => exact iff_of_true wakes trivial
  | client event d allowed moved =>
      cases event with
      | abort pressed => exact iff_of_true (wakes.abort moved) trivial
      | execute => exact wakes_execute_iff wakes moved
      | _ => exact iff_of_true (.of_not_blocked nofun) trivial
  | block enters =>
      constructor
      · intro wakesAfter
        by_cases notifies : r.notifying = true
        · exact .inl notifies
        · refine .inr fun ticket waits => ?_
          by_contra differs
          exact notifies (wakesAfter rfl ticket waits differs)
      · rintro (notifies | same) blocked ticket waits differs
        · exact notifies
        · exact absurd (same ticket waits) differs
  | notify notifier isNotifier =>
      refine iff_of_true (.of_not_blocked ?_) trivial
      intro blocked
      split at blocked
      case isTrue => cases blocked
      case isFalse awake => exact awake blocked
  | wakeUp blocked => exact iff_of_true (.of_not_blocked nofun) trivial

/-- **No wakeup is lost throughout a run exactly if every step meets the condition.** -/
theorem wakes_iff_notifiesStores (self : ConnectionPtr) {events : List Event} {final : Requester}
    (run : runFrom (step self) start events = some final) :
    Throughout (step self) Wakes start events ↔ Meets (step self) NotifiesStores start events := by
  have initially : Wakes start := .of_not_blocked nofun
  exact throughout_iff_meets_of_step (fun _ _ _ => wakes_step_iff) initially run

/-- The user asks for 10001, its id is stored, and the thread blocks. -/
def asked : List Event :=
  [.client (.command (.connectTo 10001)), .client .user, .client .user, .client .user, .block]

/-- The reply comes, and the user is woken. -/
def accepted : List Event :=
  asked ++ [.arrive ⟨1, CustomClient.requestAnswer true, some ⟨0, 10001, 0⟩⟩, .client .execute,
    .client .execute, .client .execute, .client .execute, .notify, .client .user, .client .user]

theorem wakes_accepted : Throughout (step 0) Wakes start accepted :=
  (wakes_iff_notifiesStores 0 (Option.some_get (by decide +kernel)).symm).mpr (by decide +kernel)

/-- The partner closes while the user waits. -/
def closed : List Event :=
  asked ++ [.arrive ⟨1, CustomServer.closeMsg, none⟩, .client .execute, .client .execute,
    .client .execute]

/-- **A close ends the request and wakes nobody.** -/
theorem closed_sleeps :
    ∃ final, runFrom (step 0) start closed = some final ∧
      final.client.user = .wait ⟨0, 10001, 0⟩ ∧ final.sleep = .blocked ∧
        final.client.ids.connectionRequestId = 0 ∧ final.notifying = false ∧ ¬ Wakes final := by
  refine ⟨(runFrom (step 0) start closed).get (by decide +kernel), (Option.some_get _).symm,
    by decide +kernel, by decide +kernel, by decide +kernel, by decide +kernel, ?_⟩
  decide +kernel

end Requester

end NetworkChat
