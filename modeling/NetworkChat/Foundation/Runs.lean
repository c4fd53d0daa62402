import Mathlib.Data.List.Infix
import Mathlib.Order.Basic

/-!
# Runs of event-labelled systems

A system is a partial step function: a state takes an event to a next state or
refuses it. All nondeterminism is in the choice of the events, so a run is the
list of the events taken and its result is computed by `runFrom`.

The rules are the ones every later module uses.

* An invariant that the start has and every step keeps holds at the end of every
  run (`invariant_of_run`), also when steps keep it only under a condition on the
  state before them (`invariant_of_meeting_run`), and when it speaks about the
  events taken so far (`history_invariant_of_run`, `history_invariant_of_meeting_run`).
* When, from the states of an invariant, a step keeps a property exactly if it
  meets a condition, the property holds throughout a run exactly if every step of
  the run meets the condition (`throughout_iff_meets`).
* When a property that is lost is lost for good, it holds at the end of a run exactly if every
  step of the run meets the condition under which a step keeps it (`final_iff_meets`).
* What stands at the end of a run and not at its start was made by a step of the run and
  has stood since (`since_of_run`).
* A run may keep a log of what its steps record (`exists_log_of_run`), and a log with keys
  is a log for every key (`entriesOf`).
* A map that commutes with steps commutes with runs (`runFrom_map`), and a simulation of
  steps is one of runs (`exists_run_of_simulation`).
* Steps that decrease a measure can be taken until none is left
  (`exists_exhausted_run`).
-/

set_option autoImplicit false

namespace NetworkChat.Foundation

universe u v

variable {State : Type u} {Event : Type v} {step : State → Event → Option State}

/-- Take the events one after the other. The run fails at the first event that
is refused. -/
def runFrom (step : State → Event → Option State) : State → List Event → Option State
  | state, [] => some state
  | state, event :: events =>
      match step state event with
      | none => none
      | some next => runFrom step next events

/-- Some run leads from the start to the state. -/
def Reachable (step : State → Event → Option State) (start state : State) : Prop :=
  ∃ events, runFrom step start events = some state

@[simp] theorem runFrom_nil (state : State) : runFrom step state [] = some state := rfl

theorem runFrom_cons {state next : State} {event : Event} (taken : step state event = some next)
    (events : List Event) : runFrom step state (event :: events) = runFrom step next events := by
  simp only [runFrom, taken]

/-- A run that takes an event first takes it from its start. -/
theorem runFrom_cons_eq_some {state final : State} {event : Event} {events : List Event}
    (run : runFrom step state (event :: events) = some final) :
    ∃ next, step state event = some next ∧ runFrom step next events = some final := by
  cases taken : step state event with
  | none => simp only [runFrom, taken] at run; cases run
  | some next => exact ⟨next, rfl, by simpa only [runFrom, taken] using run⟩

theorem runFrom_append (state : State) (first second : List Event) :
    runFrom step state (first ++ second) =
      (runFrom step state first).bind fun middle => runFrom step middle second := by
  induction first generalizing state with
  | nil => rfl
  | cons event first ih =>
      cases taken : step state event with
      | none => simp only [List.cons_append, runFrom, taken, Option.bind_none]
      | some next => simpa only [List.cons_append, runFrom, taken] using ih next

/-- Two runs that meet are one run. -/
theorem runFrom_trans {start middle final : State} {first second : List Event}
    (earlier : runFrom step start first = some middle)
    (later : runFrom step middle second = some final) :
    runFrom step start (first ++ second) = some final := by
  rw [runFrom_append, earlier]
  exact later

/-- A run of a concatenation passes through the state between the parts. -/
theorem runFrom_append_eq_some {start final : State} {first second : List Event}
    (run : runFrom step start (first ++ second) = some final) :
    ∃ middle, runFrom step start first = some middle ∧
      runFrom step middle second = some final := by
  rw [runFrom_append] at run
  exact Option.bind_eq_some_iff.mp run

theorem Reachable.refl (start : State) : Reachable step start start := ⟨[], rfl⟩

theorem Reachable.tail {start state next : State} {event : Event}
    (reachable : Reachable step start state) (taken : step state event = some next) :
    Reachable step start next := by
  obtain ⟨events, run⟩ := reachable
  exact ⟨events ++ [event], runFrom_trans run (by rw [runFrom_cons taken]; rfl)⟩

/-! ## Invariants -/

/-- **What the start has and every step keeps holds at the end of every run.** -/
theorem invariant_of_run {holds : State → Prop}
    (keeps : ∀ state event next, holds state → step state event = some next → holds next)
    {start final : State} {events : List Event} (initially : holds start)
    (run : runFrom step start events = some final) : holds final := by
  induction events generalizing start with
  | nil =>
      simp only [runFrom_nil, Option.some.injEq] at run
      exact run ▸ initially
  | cons event events ih =>
      obtain ⟨next, taken, rest⟩ := runFrom_cons_eq_some run
      exact ih (keeps start event next initially taken) rest

theorem invariant_of_reachable {holds : State → Prop}
    (keeps : ∀ state event next, holds state → step state event = some next → holds next)
    {start state : State} (initially : holds start) (reachable : Reachable step start state) :
    holds state := by
  obtain ⟨events, run⟩ := reachable
  exact invariant_of_run keeps initially run

/-! ## Runs whose steps meet a condition -/

/-- Every step of the run meets the condition on the state before it and its
event. -/
def Meets (step : State → Event → Option State) (condition : State → Event → Prop) :
    State → List Event → Prop
  | _, [] => True
  | state, event :: events => condition state event ∧
      match step state event with
      | none => True
      | some next => Meets step condition next events

/-- A decidable condition can be checked along a run. -/
instance decidableMeets {condition : State → Event → Prop}
    [∀ state event, Decidable (condition state event)] :
    ∀ state events, Decidable (Meets step condition state events)
  | _, [] => .isTrue trivial
  | state, event :: events =>
      @instDecidableAnd _ _ inferInstance
        (match step state event with
          | none => .isTrue trivial
          | some next => decidableMeets next events)

/-- Every state of the run, the first and the last included, has the property. -/
def Throughout (step : State → Event → Option State) (property : State → Prop) :
    State → List Event → Prop
  | state, [] => property state
  | state, event :: events => property state ∧
      match step state event with
      | none => True
      | some next => Throughout step property next events

theorem Meets.tail {condition : State → Event → Prop} {start next : State} {event : Event}
    {events : List Event} (meets : Meets step condition start (event :: events))
    (taken : step start event = some next) : Meets step condition next events := by
  simpa only [Meets, taken] using meets.2

theorem meets_true (start : State) (events : List Event) :
    Meets step (fun _ _ => True) start events := by
  induction events generalizing start with
  | nil => trivial
  | cons event events ih =>
      refine ⟨trivial, ?_⟩
      cases taken : step start event with
      | none => trivial
      | some next => exact ih next

theorem Meets.and {first second : State → Event → Prop} {start : State} {events : List Event}
    (meetsFirst : Meets step first start events) (meetsSecond : Meets step second start events) :
    Meets step (fun state event => first state event ∧ second state event) start events := by
  induction events generalizing start with
  | nil => trivial
  | cons event events ih =>
      refine ⟨⟨meetsFirst.1, meetsSecond.1⟩, ?_⟩
      cases taken : step start event with
      | none => trivial
      | some next => exact ih (meetsFirst.tail taken) (meetsSecond.tail taken)

theorem Throughout.tail {property : State → Prop} {start next : State} {event : Event}
    {events : List Event} (throughout : Throughout step property start (event :: events))
    (taken : step start event = some next) : Throughout step property next events := by
  simpa only [Throughout, taken] using throughout.2

theorem Throughout.start {property : State → Prop} {start : State} {events : List Event}
    (throughout : Throughout step property start events) : property start := by
  cases events with
  | nil => exact throughout
  | cons event events => exact throughout.1

/-- What holds throughout a run holds at its end. -/
theorem Throughout.final {property : State → Prop} {start final : State} {events : List Event}
    (throughout : Throughout step property start events)
    (run : runFrom step start events = some final) : property final := by
  induction events generalizing start with
  | nil =>
      simp only [runFrom_nil, Option.some.injEq] at run
      exact run ▸ throughout
  | cons event events ih =>
      obtain ⟨next, taken, rest⟩ := runFrom_cons_eq_some run
      exact ih (throughout.tail taken) rest

/-- **What the steps that meet a condition keep holds throughout every run whose
steps all meet it.** -/
theorem throughout_of_meets {holds : State → Prop} {condition : State → Event → Prop}
    (keeps : ∀ state event next, holds state → condition state event →
      step state event = some next → holds next)
    {start : State} {events : List Event} (initially : holds start)
    (meets : Meets step condition start events) : Throughout step holds start events := by
  induction events generalizing start with
  | nil => exact initially
  | cons event events ih =>
      refine ⟨initially, ?_⟩
      cases taken : step start event with
      | none => trivial
      | some next => exact ih (keeps start event next initially meets.1 taken) (meets.tail taken)

theorem invariant_of_meeting_run {holds : State → Prop} {condition : State → Event → Prop}
    (keeps : ∀ state event next, holds state → condition state event →
      step state event = some next → holds next)
    {start final : State} {events : List Event} (initially : holds start)
    (meets : Meets step condition start events)
    (run : runFrom step start events = some final) : holds final :=
  (throughout_of_meets keeps initially meets).final run

/-- An invariant of the state and of the events taken so far, in a run whose steps all meet the
condition. -/
theorem history_invariant_of_meeting_run {holds : List Event → State → Prop}
    {condition : State → Event → Prop}
    (keeps : ∀ past state event next, holds past state → condition state event →
      step state event = some next → holds (past ++ [event]) next)
    {start final : State} {events : List Event} (initially : holds [] start)
    (meets : Meets step condition start events)
    (run : runFrom step start events = some final) : holds events final := by
  suffices general : ∀ (past : List Event) (state : State), holds past state →
      Meets step condition state events → runFrom step state events = some final →
        holds (past ++ events) final from
    general [] start initially meets run
  clear run initially meets
  induction events with
  | nil =>
      intro past state before _ run
      simp only [runFrom_nil, Option.some.injEq] at run
      rw [List.append_nil]
      exact run ▸ before
  | cons event events ih =>
      intro past state before meets run
      obtain ⟨next, taken, rest⟩ := runFrom_cons_eq_some run
      have kept := keeps past state event next before meets.1 taken
      have later := ih (past ++ [event]) next kept (meets.tail taken) rest
      rwa [List.append_assoc, List.singleton_append] at later

/-- An invariant of the state and of the events taken so far. -/
theorem history_invariant_of_run {holds : List Event → State → Prop}
    (keeps : ∀ past state event next, holds past state → step state event = some next →
      holds (past ++ [event]) next)
    {start final : State} {events : List Event} (initially : holds [] start)
    (run : runFrom step start events = some final) : holds events final := by
  let every (_ : State) (_ : Event) : Prop := True
  have keepsAll : ∀ past state event next, holds past state → every state event →
      step state event = some next → holds (past ++ [event]) next :=
    fun past state event next before _ taken => keeps past state event next before taken
  exact history_invariant_of_meeting_run keepsAll initially (meets_true start events) run

theorem Throughout.mono {weaker stronger : State → Prop}
    (implies : ∀ state, stronger state → weaker state) {start : State} {events : List Event}
    (throughout : Throughout step stronger start events) :
    Throughout step weaker start events := by
  induction events generalizing start with
  | nil => exact implies start throughout
  | cons event events ih =>
      refine ⟨implies start throughout.1, ?_⟩
      cases taken : step start event with
      | none => trivial
      | some next => exact ih (throughout.tail taken)

/-- A run that has the property throughout goes on with a state that has it. -/
theorem Throughout.concat {property : State → Prop} {start final last : State} {event : Event}
    {events : List Event} (throughout : Throughout step property start events)
    (run : runFrom step start events = some final) (taken : step final event = some last)
    (has : property last) : Throughout step property start (events ++ [event]) := by
  induction events generalizing start with
  | nil =>
      simp only [runFrom_nil, Option.some.injEq] at run
      subst run
      refine ⟨throughout, ?_⟩
      simpa only [taken, Throughout] using has
  | cons first events ih =>
      obtain ⟨next, moved, rest⟩ := runFrom_cons_eq_some run
      refine ⟨throughout.1, ?_⟩
      simp only [moved]
      exact ih (throughout.tail moved) rest

/-! ## What stands since a step -/

/-- A step of the run made the property hold, and it has held since. -/
def Since (step : State → Event → Option State) (start : State) (made : State → Event → Prop)
    (stands : State → Prop) (events : List Event) : Prop :=
  ∃ before event after middle next, events = before ++ event :: after ∧
    runFrom step start before = some middle ∧ step middle event = some next ∧
      made middle event ∧ Throughout step stands next after

/-- **What stands now was made by a step and has stood since**, when it did not stand at
the start and only such steps make it. -/
theorem since_of_run {holds stands : State → Prop} {made : State → Event → Prop}
    (keeps : ∀ state event next, holds state → step state event = some next → holds next)
    (makes : ∀ state event next, holds state → step state event = some next →
      ¬ stands state → stands next → made state event)
    {start final : State} {events : List Event} (initially : holds start) (notYet : ¬ stands start)
    (run : runFrom step start events = some final) (now : stands final) :
    Since step start made stands events := by
  let known (past : List Event) (state : State) : Prop :=
    holds state ∧ runFrom step start past = some state ∧
      (stands state → Since step start made stands past)
  have kept : ∀ past state event next, known past state → step state event = some next →
      known (past ++ [event]) next := by
    rintro past state event next ⟨good, before, since⟩ taken
    refine ⟨keeps state event next good taken,
      runFrom_trans before (by rw [runFrom_cons taken]; rfl), ?_⟩
    intro stood
    by_cases stoodBefore : stands state
    · obtain ⟨earlier, maker, after, middle, first, rfl, reached, made, isMade, throughout⟩ :=
        since stoodBefore
      obtain ⟨other, again, rest⟩ := runFrom_append_eq_some before
      cases reached.symm.trans again
      rw [runFrom_cons made] at rest
      exact ⟨earlier, maker, after ++ [event], middle, first, by simp, reached, made, isMade,
        throughout.concat rest taken stood⟩
    · exact ⟨past, event, [], state, next, rfl, before, taken,
        makes state event next good taken stoodBefore stood, stood⟩
  have last : known events final :=
    history_invariant_of_run kept ⟨initially, rfl, fun stood => absurd stood notYet⟩ run
  exact last.2.2 now

/-- What has stood since a step stands. -/
theorem Since.stands {made : State → Event → Prop} {stands : State → Prop} {start final : State}
    {events : List Event} (since : Since step start made stands events)
    (run : runFrom step start events = some final) : stands final := by
  obtain ⟨before, event, after, middle, next, rfl, reached, taken, -, throughout⟩ := since
  obtain ⟨other, again, rest⟩ := runFrom_append_eq_some run
  cases reached.symm.trans again
  rw [runFrom_cons taken] at rest
  exact throughout.final rest

/-- **A property holds throughout a run exactly if every step meets the
condition**, when good states have the property, stay good through the steps of
admissible events that meet the condition, and lose the property through the
others. -/
theorem throughout_iff_meets_of_good {good property : State → Prop}
    {condition : State → Event → Prop} {admissible : Event → Prop}
    (has : ∀ state, good state → property state)
    (keeps : ∀ state event next, good state → admissible event → step state event = some next →
      condition state event → good next)
    (loses : ∀ state event next, good state → admissible event → step state event = some next →
      property next → condition state event)
    {start final : State} {events : List Event} (initially : good start)
    (allAdmissible : ∀ event ∈ events, admissible event)
    (run : runFrom step start events = some final) :
    Throughout step property start events ↔ Meets step condition start events := by
  induction events generalizing start with
  | nil => exact iff_of_true (has start initially) trivial
  | cons event events ih =>
      rw [List.forall_mem_cons] at allAdmissible
      obtain ⟨next, taken, rest⟩ := runFrom_cons_eq_some run
      constructor
      · intro throughout
        have tail := throughout.tail taken
        have met := loses start event next initially allAdmissible.1 taken tail.start
        have later := keeps start event next initially allAdmissible.1 taken met
        refine ⟨met, ?_⟩
        simpa only [taken] using (ih later allAdmissible.2 rest).mp tail
      · intro meets
        have later := keeps start event next initially allAdmissible.1 taken meets.1
        refine ⟨has start initially, ?_⟩
        simpa only [taken] using (ih later allAdmissible.2 rest).mpr (meets.tail taken)

/-- The same, when from the states of an invariant a step of an admissible event
keeps the property exactly if it meets the condition. -/
theorem throughout_iff_meets {holds property : State → Prop}
    {condition : State → Event → Prop} {admissible : Event → Prop}
    (keeps : ∀ state event next, holds state → step state event = some next → holds next)
    (exact_step : ∀ state event next, holds state → property state → admissible event →
      step state event = some next → (property next ↔ condition state event))
    {start final : State} {events : List Event} (initially : holds start)
    (first : property start) (allAdmissible : ∀ event ∈ events, admissible event)
    (run : runFrom step start events = some final) :
    Throughout step property start events ↔ Meets step condition start events := by
  have has : ∀ state, (holds state ∧ property state) → property state := fun _ both => both.2
  have good : ∀ state event next, (holds state ∧ property state) → admissible event →
      step state event = some next → condition state event → (holds next ∧ property next) := by
    intro state event next both legal taken met
    exact ⟨keeps state event next both.1 taken,
      (exact_step state event next both.1 both.2 legal taken).mpr met⟩
  have loses : ∀ state event next, (holds state ∧ property state) → admissible event →
      step state event = some next → property next → condition state event := by
    intro state event next both legal taken has
    exact (exact_step state event next both.1 both.2 legal taken).mp has
  exact throughout_iff_meets_of_good has good loses ⟨initially, first⟩ allAdmissible run

/-- The same without invariant: every step that is taken where the property holds keeps it exactly
if it meets the condition. -/
theorem throughout_iff_meets_of_step {property : State → Prop} {condition : State → Event → Prop}
    (exact_step : ∀ state event next, property state → step state event = some next →
      (property next ↔ condition state event))
    {start final : State} {events : List Event} (first : property start)
    (run : runFrom step start events = some final) :
    Throughout step property start events ↔ Meets step condition start events := by
  let every (event : Event) : Prop := True
  have keeps : ∀ state event next, property state → every event → step state event = some next →
      condition state event → property next :=
    fun state event next has _ taken => (exact_step state event next has taken).mpr
  have loses : ∀ state event next, property state → every event → step state event = some next →
      property next → condition state event :=
    fun state event next has _ taken => (exact_step state event next has taken).mp
  exact throughout_iff_meets_of_good (fun _ has => has) keeps loses first (fun _ _ => trivial) run

/-- **A property that is lost for good holds at the end of a run exactly if it held at the start and
every step met the condition**, when a step leads to the property exactly if the property held
before it and the step meets the condition. -/
theorem final_iff_meets {holds property : State → Prop} {condition : State → Event → Prop}
    (keeps : ∀ state event next, holds state → step state event = some next → holds next)
    (exact_step : ∀ state event next, holds state → step state event = some next →
      (property next ↔ property state ∧ condition state event))
    {start final : State} {events : List Event} (initially : holds start)
    (run : runFrom step start events = some final) :
    property final ↔ property start ∧ Meets step condition start events := by
  induction events generalizing start with
  | nil =>
      simp only [runFrom_nil, Option.some.injEq] at run
      subst run
      exact (and_iff_left trivial).symm
  | cons event events ih =>
      obtain ⟨next, taken, rest⟩ := runFrom_cons_eq_some run
      rw [ih (keeps start event next initially taken) rest,
        exact_step start event next initially taken, and_assoc]
      refine and_congr_right fun _ => ?_
      simp only [Meets, taken]

/-- A condition on events is met by the steps of a run exactly if its events meet it. -/
theorem meets_iff_forall {condition : Event → Prop} {start final : State} {events : List Event}
    (run : runFrom step start events = some final) :
    Meets step (fun _ event => condition event) start events ↔
      ∀ event ∈ events, condition event := by
  induction events generalizing start with
  | nil => exact iff_of_true trivial nofun
  | cons event events ih =>
      obtain ⟨next, taken, rest⟩ := runFrom_cons_eq_some run
      rw [List.forall_mem_cons, ← ih rest]
      constructor
      · exact fun meets => ⟨meets.1, meets.tail taken⟩
      · rintro ⟨met, later⟩
        refine ⟨met, ?_⟩
        simpa only [taken] using later

/-- A run of a system that refuses more events is a run. -/
theorem runFrom_of_restricted {restricted : State → Event → Option State}
    (allowed : ∀ state event next, restricted state event = some next →
      step state event = some next)
    {start final : State} {events : List Event}
    (run : runFrom restricted start events = some final) :
    runFrom step start events = some final := by
  induction events generalizing start with
  | nil => exact run
  | cons event events ih =>
      obtain ⟨next, taken, rest⟩ := runFrom_cons_eq_some run
      rw [runFrom_cons (allowed start event next taken)]
      exact ih rest

/-- A map that commutes with the steps of two systems commutes with their runs. -/
theorem runFrom_map {Image : Type*} {onImage : Image → Event → Option Image} {image : State → Image}
    (commutes : ∀ state event, onImage (image state) event = (step state event).map image)
    (start : State) (events : List Event) :
    runFrom onImage (image start) events = (runFrom step start events).map image := by
  induction events generalizing start with
  | nil => rfl
  | cons event events ih =>
      cases taken : step start event with
      | none => simp only [runFrom, commutes, taken, Option.map_none]
      | some next => simpa only [runFrom, commutes, taken, Option.map_some] using ih next

/-- A run of translated events. -/
theorem runFrom_map_events {Source : Type*} (translate : Source → Event) (start : State)
    (events : List Source) :
    runFrom step start (events.map translate) =
      runFrom (fun state event => step state (translate event)) start events := by
  induction events generalizing start with
  | nil => rfl
  | cons event events ih =>
      cases taken : step start (translate event) with
      | none => simp only [List.map_cons, runFrom, taken]
      | some next => simpa only [List.map_cons, runFrom, taken] using ih next

/-! ## Simulation -/

section Simulation

variable {Image : Type*} {ImageEvent : Type*} {imageStep : Image → ImageEvent → Option Image}
  {holds stands : State → Prop} {allowed : State → Event → Prop} {imageAllowed : ImageEvent → Prop}
  {relates : State → Image → Prop}

/-- A property that is not regained holds at the start of a run if it holds at its end. -/
theorem stands_of_run
    (keeps : ∀ state event next, holds state → allowed state event →
      step state event = some next → holds next)
    (lost : ∀ state event next, holds state → step state event = some next → stands next →
      stands state)
    {start final : State} {events : List Event} (initially : holds start)
    (run : runFrom step start events = some final) (all : Meets step allowed start events)
    (standing : stands final) : stands start := by
  induction events generalizing start with
  | nil => cases run; exact standing
  | cons event events ih =>
      obtain ⟨next, taken, rest⟩ := runFrom_cons_eq_some run
      have held := keeps start event next initially all.1 taken
      exact lost start event next initially taken (ih held rest (all.tail taken))

/-- **A simulation carries over to runs.** As long as a property stands that is not regained, each
allowed step is one of the image, or the image stays. -/
theorem exists_run_of_simulation
    (keeps : ∀ state event next, holds state → allowed state event →
      step state event = some next → holds next)
    (lost : ∀ state event next, holds state → step state event = some next → stands next →
      stands state)
    (simulates : ∀ state event next image, relates state image → allowed state event →
      stands next → step state event = some next → relates next image ∨
        ∃ seen after, imageStep image seen = some after ∧ imageAllowed seen ∧ relates next after)
    {start final : State} {image : Image} {events : List Event} (initially : holds start)
    (related : relates start image) (run : runFrom step start events = some final)
    (all : Meets step allowed start events) (standing : stands final) :
    ∃ seen shown, runFrom imageStep image seen = some shown ∧ (∀ event ∈ seen, imageAllowed event) ∧
      relates final shown := by
  induction events generalizing start image with
  | nil => cases run; exact ⟨[], image, rfl, nofun, related⟩
  | cons event events ih =>
      obtain ⟨next, taken, rest⟩ := runFrom_cons_eq_some run
      have held := keeps start event next initially all.1 taken
      have later := all.tail taken
      have stays : stands next := stands_of_run keeps lost held rest later standing
      rcases simulates start event next image related all.1 stays taken with
        relatedNext | ⟨first, after, moved, firstAllowed, relatedNext⟩
      · exact ih held relatedNext rest later
      · obtain ⟨seen, shown, imageRun, seenAllowed, ends⟩ := ih held relatedNext rest later
        refine ⟨first :: seen, shown, ?_,
          List.forall_mem_cons.mpr ⟨firstAllowed, seenAllowed⟩, ends⟩
        rw [runFrom_cons moved, imageRun]

end Simulation

/-! ## Logs -/

/-- The system that keeps a log of what its steps record. -/
def logged {Record : Type*} (step : State → Event → Option State)
    (record : State → Event → List Record) (state : State × List Record) (event : Event) :
    Option (State × List Record) :=
  (step state.1 event).map fun next => (next, state.2 ++ record state.1 event)

section Logs

variable {Record : Type*} {record : State → Event → List Record}

theorem logged_eq_some {state next : State × List Record} {event : Event}
    (taken : logged step record state event = some next) :
    step state.1 event = some next.1 ∧ next.2 = state.2 ++ record state.1 event := by
  obtain ⟨after, moved, rfl⟩ := Option.map_eq_some_iff.mp taken
  exact ⟨moved, rfl⟩

/-- **Every run has a log.** -/
theorem exists_log_of_run {start final : State} {events : List Event} (log : List Record)
    (run : runFrom step start events = some final) :
    ∃ written, runFrom (logged step record) (start, log) events = some (final, log ++ written) := by
  induction events generalizing start log with
  | nil =>
      simp only [runFrom_nil, Option.some.injEq] at run
      exact ⟨[], by rw [runFrom_nil, run, List.append_nil]⟩
  | cons event events ih =>
      obtain ⟨next, taken, rest⟩ := runFrom_cons_eq_some run
      obtain ⟨written, later⟩ := ih (log ++ record start event) rest
      have moved : logged step record (start, log) event =
          some (next, log ++ record start event) := by
        rw [logged, taken]
        rfl
      refine ⟨record start event ++ written, ?_⟩
      rw [runFrom_cons moved, later, List.append_assoc]

/-- The log does not change what a run meets. -/
theorem Meets.logged {condition : State → Event → Prop} {start : State} {events : List Event}
    (meets : Meets step condition start events) (log : List Record) :
    Meets (logged step record) (fun state event => condition state.1 event) (start, log)
      events := by
  induction events generalizing start log with
  | nil => trivial
  | cons event events ih =>
      refine ⟨meets.1, ?_⟩
      cases taken : step start event with
      | none => simp only [Foundation.logged, taken, Option.map_none]
      | some next =>
          simp only [Foundation.logged, taken, Option.map_some]
          exact ih (meets.tail taken) _

/-- A run with a log is a run. -/
theorem run_of_logged {start final : State × List Record} {events : List Event}
    (run : runFrom (logged step record) start events = some final) :
    runFrom step start.1 events = some final.1 := by
  induction events generalizing start with
  | nil =>
      simp only [runFrom_nil, Option.some.injEq] at run
      rw [runFrom_nil, run]
  | cons event events ih =>
      obtain ⟨next, taken, rest⟩ := runFrom_cons_eq_some run
      rw [runFrom_cons (logged_eq_some taken).1]
      exact ih rest

end Logs

/-! ## Logs with keys -/

section Entries

variable {Key : Type*} {Value : Type*} [DecidableEq Key]

/-- The entries of one key, in order. -/
def entriesOf (key : Key) (log : List (Key × Value)) : List Value :=
  log.filterMap fun entry => if entry.1 = key then some entry.2 else none

@[simp] theorem entriesOf_nil (key : Key) : entriesOf key ([] : List (Key × Value)) = [] := rfl

theorem entriesOf_append (key : Key) (first second : List (Key × Value)) :
    entriesOf key (first ++ second) = entriesOf key first ++ entriesOf key second :=
  List.filterMap_append

theorem entriesOf_own (key : Key) (values : List Value) :
    entriesOf key (values.map fun value => (key, value)) = values := by
  simp [entriesOf, List.filterMap_map]

theorem entriesOf_other {key other : Key} (differs : other ≠ key) (values : List Value) :
    entriesOf key (values.map fun value => (other, value)) = [] := by
  simp [entriesOf, List.filterMap_map, differs]

theorem entriesOf_concat_self (key : Key) (log : List (Key × Value)) (value : Value) :
    entriesOf key (log ++ [(key, value)]) = entriesOf key log ++ [value] := by
  rw [entriesOf_append, ← List.map_singleton (f := fun value => (key, value)), entriesOf_own]

theorem entriesOf_concat_other {key other : Key} (differs : other ≠ key) (log : List (Key × Value))
    (value : Value) : entriesOf key (log ++ [(other, value)]) = entriesOf key log := by
  rw [entriesOf_append, ← List.map_singleton (f := fun value => (other, value)),
    entriesOf_other differs, List.append_nil]

theorem entriesOf_eq_nil {key : Key} {log : List (Key × Value)}
    (others : ∀ entry ∈ log, entry.1 ≠ key) : entriesOf key log = [] := by
  rw [entriesOf, List.filterMap_eq_nil_iff]
  exact fun entry member => if_neg (others entry member)

/-- The entries of one key are among all entries, in order. -/
theorem entriesOf_sublist (key : Key) (log : List (Key × Value)) :
    (entriesOf key log).Sublist (log.map Prod.snd) := by
  rw [← List.filterMap_eq_map]
  induction log with
  | nil => exact .slnil
  | cons entry log ih =>
      by_cases isKey : entry.1 = key
      · simpa [entriesOf, isKey] using ih.cons_cons entry.2
      · simpa [entriesOf, isKey] using ih.cons entry.2

theorem entriesOf_eq_map {key : Key} {log : List (Key × Value)}
    (own : ∀ entry ∈ log, entry.1 = key) : entriesOf key log = log.map Prod.snd := by
  rw [entriesOf, ← List.filterMap_eq_map]
  exact List.filterMap_congr fun entry member => if_pos (own entry member)

theorem mem_entriesOf {key : Key} {value : Value} {log : List (Key × Value)} :
    value ∈ entriesOf key log ↔ (key, value) ∈ log := by
  rw [entriesOf, List.mem_filterMap]
  constructor
  · rintro ⟨⟨other, entry⟩, member, same⟩
    split at same
    case isTrue isKey => cases same; cases isKey; exact member
    case isFalse => cases same
  · exact fun member => ⟨(key, value), member, if_pos rfl⟩

end Entries

/-! ## Runs that go on until nothing is left to do -/

/-- No event of the kind can be taken. -/
def Exhausted (step : State → Event → Option State) (kind : Event → Prop) (state : State) : Prop :=
  ∀ event, kind event → step state event = none

/-- **Steps that decrease a measure can be taken until none is left.** -/
theorem exists_exhausted_run {kind : Event → Prop} (measure : State → ℕ)
    {holds : State → Prop}
    (keeps : ∀ state event next, holds state → kind event → step state event = some next →
      holds next ∧ measure next < measure state)
    (start : State) (initially : holds start) :
    ∃ events final, (∀ event ∈ events, kind event) ∧
      runFrom step start events = some final ∧ Exhausted step kind final := by
  induction bound : measure start using Nat.strongRecOn generalizing start with
  | ind size ih =>
      by_cases done : Exhausted step kind start
      · exact ⟨[], start, by simp, rfl, done⟩
      · simp only [Exhausted, not_forall] at done
        obtain ⟨event, isKind, enabled⟩ := done
        obtain ⟨next, taken⟩ := Option.ne_none_iff_exists'.mp enabled
        obtain ⟨kept, smaller⟩ := keeps start event next initially isKind taken
        obtain ⟨events, final, kinds, run, exhausted⟩ :=
          ih (measure next) (bound ▸ smaller) next kept rfl
        refine ⟨event :: events, final, ?_, ?_, exhausted⟩
        · simpa only [List.forall_mem_cons] using ⟨isKind, kinds⟩
        · rw [runFrom_cons taken]
          exact run

end NetworkChat.Foundation
