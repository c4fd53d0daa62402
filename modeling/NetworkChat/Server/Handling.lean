import NetworkChat.Server.Update

/-!
# Messages are handled once and in order

The messages handled are a prefix of the messages pushed, whatever limits the calls of
`Update` have (`handled_in_order`). A call counts what it has handled (`Counted`), so it
handles no more than its limit, for every `size_t` and also for -1, and it stops below the
limit only after it has found the queue empty (`findsEmpty_of_step`).
-/

set_option autoImplicit false

namespace NetworkChat

open Foundation

/-- The body of the loop has been entered and not left. -/
def UpdatePlace.inBody {T : Type} : UpdatePlace T → Bool
  | .idle => false
  | .wait => false
  | .compare => false
  | _ => true

/-- The message that is handled and not yet counted. -/
def UpdatePlace.given {T : Type} : UpdatePlace T → ℕ
  | .inOnMessage => 1
  | _ => 0

namespace Updates

variable {Msg : Type}

/-! ## One call of `Update` -/

section Calls

variable {s next : Updates Msg} {nMaxMessages : UInt64} {already : ℕ}

/-- How far a call with this limit has come that began when `already` messages were
handled. -/
structure Counted (nMaxMessages : UInt64) (already : ℕ) (s : Updates Msg) : Prop where
  limit : s.nMaxMessages = nMaxMessages
  count : s.handled.length = already + s.msgCount.toNat + s.place.given
  below : s.msgCount ≤ nMaxMessages
  inBody : s.place.inBody = true → s.msgCount < nMaxMessages

theorem Counted.work {event : TsQueue.Event (ConnectionPtr × Msg)}
    {place : UpdatePlace (ConnectionPtr × Msg)} (counted : Counted nMaxMessages already s)
    (taken : s.work event place = some next) (given : place.given = s.place.given)
    (inBody : place.inBody = true → s.msgCount < nMaxMessages) :
    Counted nMaxMessages already next := by
  obtain ⟨queue, -, rfl⟩ := work_eq_some taken
  exact ⟨counted.limit, by rw [given]; exact counted.count, counted.below, inBody⟩

theorem Counted.go {place : UpdatePlace (ConnectionPtr × Msg)}
    (counted : Counted nMaxMessages already s) (given : place.given = s.place.given)
    (inBody : place.inBody = true → s.msgCount < nMaxMessages) :
    Counted nMaxMessages already { s with place := place } :=
  ⟨counted.limit, by rw [given]; exact counted.count, counted.below, inBody⟩

theorem not_inBody {place : UpdatePlace (ConnectionPtr × Msg)} {claim : Prop}
    (outside : place.inBody = false) (inBody : place.inBody = true) : claim :=
  absurd (outside.symm.trans inBody) Bool.false_ne_true

/-- Below the limit the counter does not wrap. -/
theorem toNat_succ_of_lt {count limit : UInt64} (below : count < limit) :
    (count + 1).toNat = count.toNat + 1 := by
  have small := UInt64.lt_iff_toNat_lt.mp below
  have limited := limit.toNat_lt
  rw [UInt64.toNat_add]
  exact Nat.mod_eq_of_lt (by simp; omega)

theorem Counted.threadStep (counted : Counted nMaxMessages already s)
    (taken : s.threadStep = some next) : Counted nMaxMessages already next := by
  have limit := counted.limit
  have count := counted.count
  have inBody := counted.inBody
  cases threadMove_of_step taken with
  | works inside taken => exact counted.work taken rfl inBody
  | waited place returned goes =>
      subst goes
      exact counted.go (by rw [place]; rfl) (not_inBody rfl)
  | enters place below taken => exact counted.work taken (by rw [place]; rfl) fun _ => limit ▸ below
  | leaves place reached goes =>
      subst goes
      exact counted.go (by rw [place]; rfl) (not_inBody rfl)
  | looks place stands taken =>
      exact counted.work taken (by rw [place]; rfl) fun _ => inBody (by rw [place]; rfl)
  | stops place returned goes =>
      subst goes
      exact counted.go (by rw [place]; rfl) (not_inBody rfl)
  | finds place returned taken =>
      exact counted.work taken (by rw [place]; rfl) fun _ => inBody (by rw [place]; rfl)
  | pops msg later place stands elements taken =>
      exact counted.work taken (by rw [place]; rfl) fun _ => inBody (by rw [place]; rfl)
  | popped msg place returned goes =>
      subst goes
      exact counted.go (by rw [place]; rfl) fun _ => inBody (by rw [place]; rfl)
  | gives msg place goes =>
      subst goes
      rw [place] at count
      refine ⟨limit, ?_, counted.below, fun _ => inBody (by rw [place]; rfl)⟩
      rw [List.length_append, count]
      rfl
  | counts place goes =>
      subst goes
      have below := inBody (by rw [place]; rfl)
      rw [place] at count
      refine ⟨limit, ?_, ?_, not_inBody rfl⟩
      · rw [toNat_succ_of_lt below, count]
        show already + s.msgCount.toNat + 1 = already + (s.msgCount.toNat + 1) + 0
        omega
      · rw [UInt64.le_iff_toNat_le, toNat_succ_of_lt below]
        exact UInt64.lt_iff_toNat_lt.mp below

/-- The events of one call, and of everything that happens beside it. -/
def Event.inCall : Event Msg → Bool
  | .update _ _ => false
  | _ => true

theorem Counted.step {event : Event Msg} (counted : Counted nMaxMessages already s)
    (inCall : event.inCall = true) (taken : s.step event = some next) :
    Counted nMaxMessages already next := by
  cases event with
  | addToIncomimgMessageQueue client msg =>
      obtain ⟨queue, -, rfl⟩ := Option.map_eq_some_iff.mp taken
      exact ⟨counted.limit, counted.count, counted.below, counted.inBody⟩
  | push client =>
      obtain ⟨queue, -, rfl⟩ := Option.map_eq_some_iff.mp taken
      exact ⟨counted.limit, counted.count, counted.below, counted.inBody⟩
  | spuriousWakeup => exact counted.work taken rfl counted.inBody
  | update nMaxMessages lowcpu => cases inCall
  | thread => exact counted.threadStep taken

/-- `Update` is called. -/
theorem counted_of_update {lowcpu : Bool}
    (taken : s.step (.update nMaxMessages lowcpu) = some next) :
    Counted nMaxMessages s.handled.length next ∧ (next.place = .wait ∨ next.place = .compare) := by
  simp only [Updates.step] at taken
  have fresh : Counted nMaxMessages s.handled.length
      { s with nMaxMessages := nMaxMessages, msgCount := 0, place := .wait } :=
    ⟨rfl, rfl, UInt64.zero_le, not_inBody rfl⟩
  cases place : s.place with
  | idle =>
      simp only [place] at taken
      cases lowcpu with
      | true =>
          obtain ⟨queue, -, rfl⟩ := work_eq_some taken
          exact ⟨⟨fresh.limit, fresh.count, fresh.below, fresh.inBody⟩, .inl rfl⟩
      | false =>
          cases taken
          exact ⟨⟨fresh.limit, fresh.count, fresh.below, fresh.inBody⟩, .inr rfl⟩
  | _ => simp only [place] at taken; cases taken

/-- The thread looks at the queue and finds it empty. -/
def FindsEmpty (s : Updates Msg) (event : Event Msg) : Prop :=
  event = .thread ∧ s.place = .empty ∧ s.qMessagesIn.consumer = .operate .empty ∧
    s.qMessagesIn.deqQueue = []

/-- The call stops or has stopped below its limit. -/
def StopsEarly (s : Updates Msg) : Prop :=
  (s.place = .emptyReturns true ∨ s.place = .idle) ∧ s.msgCount < s.nMaxMessages

/-- A call stops below its limit only after it has found the queue empty. -/
theorem findsEmpty_of_step {event : Event Msg} (taken : s.step event = some next)
    (before : ¬ StopsEarly s) (after : StopsEarly next) : FindsEmpty s event := by
  cases event with
  | addToIncomimgMessageQueue client msg =>
      obtain ⟨queue, -, rfl⟩ := Option.map_eq_some_iff.mp taken
      exact absurd after before
  | push client =>
      obtain ⟨queue, -, rfl⟩ := Option.map_eq_some_iff.mp taken
      exact absurd after before
  | spuriousWakeup =>
      obtain ⟨queue, -, rfl⟩ := work_eq_some taken
      exact absurd after before
  | update nMaxMessages lowcpu =>
      obtain ⟨-, place⟩ := counted_of_update taken
      obtain ⟨stops, -⟩ := after
      rcases place with place | place <;> simp [place] at stops
  | thread =>
      obtain ⟨stops, below⟩ := after
      cases threadMove_of_step taken with
      | works inside taken =>
          obtain ⟨queue, -, rfl⟩ := work_eq_some taken
          exact absurd ⟨stops, below⟩ before
      | leaves place reached goes => subst goes; exact absurd below reached
      | looks place stands taken =>
          obtain ⟨queue, -, rfl⟩ := work_eq_some taken
          exact ⟨rfl, place, stands, by simpa using stops⟩
      | stops place returned goes => subst goes; exact absurd ⟨.inl place, below⟩ before
      | waited place returned goes => subst goes; simp at stops
      | enters place below taken => obtain ⟨queue, -, rfl⟩ := work_eq_some taken; simp at stops
      | finds place returned taken => obtain ⟨queue, -, rfl⟩ := work_eq_some taken; simp at stops
      | pops msg later place stands elements taken =>
          obtain ⟨queue, -, rfl⟩ := work_eq_some taken
          simp at stops
      | popped msg place returned goes => subst goes; simp at stops
      | gives msg place goes => subst goes; simp at stops
      | counts place goes => subst goes; simp at stops

end Calls

/-- **Every message is handled once and in order.** In every run the messages handled
are a prefix of the messages pushed: what follows is the message in the hand of the
thread and the messages in the queue. For every connection they are a prefix of what it
read. The last call of `Update` has handled no more than its limit, and if it has
returned before, it has found the queue empty and handled nothing since. -/
theorem handled_in_order {s : Updates Msg} {events : List (Event Msg)}
    (run : runFrom step start events = some s) :
    s.handled <+: s.pushed ∧ s.pushed = s.handled ++ s.place.inHand ++ s.qMessagesIn.deqQueue ∧
      (∀ client, entriesOf client s.handled <+: entriesOf client s.read) ∧
        ∀ earlier called nMaxMessages lowcpu before after,
          events = before ++ .update nMaxMessages lowcpu :: after →
          (∀ event ∈ after, event.inCall = true) →
          runFrom step start before = some earlier →
          step earlier (.update nMaxMessages lowcpu) = some called →
            s.handled.length ≤ earlier.handled.length + nMaxMessages.toNat ∧
              (s.place = .idle →
                s.handled.length < earlier.handled.length + nMaxMessages.toNat →
                  Since step called FindsEmpty StopsEarly after) := by
  have sound := sound_of_reachable ⟨events, run⟩
  have isPrefix : s.handled <+: s.pushed :=
    ⟨s.place.inHand ++ s.qMessagesIn.deqQueue, by rw [sound.conserved, List.append_assoc]⟩
  refine ⟨isPrefix, sound.conserved, fun client => ?_, ?_⟩
  · obtain ⟨msgs, -, read⟩ := sound.pushing client
    rw [read]
    exact (isPrefix.filterMap _).trans (List.prefix_append ..)
  · rintro earlier called nMaxMessages lowcpu before after rfl inCall first taken
    obtain ⟨fresh, place⟩ := counted_of_update taken
    obtain ⟨middle, reached, rest⟩ := runFrom_append_eq_some run
    cases first.symm.trans reached
    rw [runFrom_cons taken] at rest
    have counted : Counted nMaxMessages earlier.handled.length s :=
      invariant_of_meeting_run (fun _ _ _ counted inCall moved => counted.step inCall moved) fresh
        ((meets_iff_forall rest).mpr inCall) rest
    have count := counted.count
    have below := UInt64.le_iff_toNat_le.mp counted.below
    refine ⟨?_, fun returned early => ?_⟩
    · cases given : s.place with
      | inOnMessage =>
          have inBody := counted.inBody (by rw [given]; rfl)
          rw [given] at count
          have small := UInt64.lt_iff_toNat_lt.mp inBody
          have one : (UpdatePlace.inOnMessage : UpdatePlace (ConnectionPtr × Msg)).given = 1 := rfl
          omega
      | _ =>
          rw [given] at count
          simp only [UpdatePlace.given] at count
          omega
    · rw [returned] at count
      have none : (UpdatePlace.idle : UpdatePlace (ConnectionPtr × Msg)).given = 0 := rfl
      have stopped : StopsEarly s := by
        refine ⟨.inr returned, ?_⟩
        rw [counted.limit, UInt64.lt_iff_toNat_lt]
        omega
      have notYet : ¬ StopsEarly called := by
        rintro ⟨stops, -⟩
        rcases place with place | place <;> simp [place] at stops
      have keeps : ∀ (s : Updates Msg) event next, True → Updates.step s event = some next → True :=
        fun _ _ _ _ _ => trivial
      exact since_of_run keeps
        (fun _ _ _ _ taken before after => findsEmpty_of_step taken before after) trivial notYet
        rest stopped

/-- A message of each of two connections is pushed. -/
def pushTwo : List (Event ℕ) :=
  .addToIncomimgMessageQueue 0 7 :: List.replicate 6 (.push 0) ++
    .addToIncomimgMessageQueue 1 8 :: List.replicate 6 (.push 1)

/-- A call without a limit to its end. -/
def updateAll : List (Event ℕ) := List.replicate 27 .thread

theorem pushTwo_runs : (runFrom step start pushTwo).isSome = true := by decide

theorem updateAll_runs :
    (runFrom step start (pushTwo ++ .update (-1) false :: updateAll)).isSome = true := by decide

/-- The call handles the two messages, finds the queue empty and returns. -/
theorem updateAll_in_order : ∃ s earlier called : Updates ℕ,
    s.handled = [(0, 7), (1, 8)] ∧ s.place = .idle ∧ s.handled <+: s.pushed ∧
      Since step called FindsEmpty StopsEarly updateAll ∧
        s.handled.length ≤ earlier.handled.length + (-1 : UInt64).toNat := by
  have ordered := handled_in_order (Option.some_get updateAll_runs).symm
  have last := ordered.2.2.2 _ (((runFrom step start pushTwo).get pushTwo_runs).step
    (.update (-1) false) |>.get (by decide)) (-1) false pushTwo updateAll rfl
    (fun event member => by rw [List.eq_of_mem_replicate member]; rfl)
    (Option.some_get pushTwo_runs).symm (Option.some_get _).symm
  exact ⟨_, _, _, by decide, by decide, ordered.1, last.2 (by decide) (by decide), last.1⟩

end Updates

end NetworkChat
