import NetworkChat.Foundation.Runs
import Mathlib.Data.List.Count
import Mathlib.Data.Multiset.Count
import Mathlib.Logic.Function.Basic

/-!
# Objects that threads share

An object has a state, and its operations return results (`ObjectSpec`). Threads call operations and
get results back; in between, at one moment, the operation takes effect. `Atomic` is the system of
an object and its threads in which this is all that happens, so that its runs are the sequences of
marks that a clock would see.

A history of calls and returns is linearizable when marks of effects can be inserted into it so that
the whole is a run of the atomic object (`Linearizable`). Every operation then takes effect between
its call and its return; the effects, one after the other, are operations of the object alone
(`legal_of_run`); and what a thread is returned is the result of its effects (`Tally`).

A program whose steps are matched by marks has linearizable histories only
(`linearizable_of_simulation`).
-/

set_option autoImplicit false

namespace NetworkChat.Foundation

universe u v w x

/-- An object: what an operation makes of a state, and what it returns. An operation that is not
defined there, or waits, has no result. -/
structure ObjectSpec (State : Type u) (Op : Type v) (Result : Type w) where
  apply : State → Op → Option (State × Result)

/-- Where a thread is with its operation. -/
inductive Phase (Op : Type v) (Result : Type w) where
  | idle
  | called (op : Op)
  /-- The operation has taken effect and has not returned. -/
  | done (op : Op) (result : Result)
  deriving DecidableEq

/-- What happens to an object: a thread calls an operation, the operation takes effect, it
returns. -/
inductive Mark (Thread : Type x) (Op : Type v) (Result : Type w) where
  | called (thread : Thread) (op : Op)
  | effect (thread : Thread) (op : Op) (result : Result)
  | returned (thread : Thread) (op : Op) (result : Result)
  deriving DecidableEq

/-- The threads see calls and returns. -/
def Mark.isSeen {Thread : Type x} {Op : Type v} {Result : Type w} : Mark Thread Op Result → Bool
  | .effect _ _ _ => false
  | _ => true

/-- An object and the phases of its threads. -/
structure Atomic (Thread : Type x) (State : Type u) (Op : Type v) (Result : Type w) where
  state : State
  phase : Thread → Phase Op Result

variable {Thread : Type x} {State : Type u} {Op : Type v} {Result : Type w}

namespace Atomic

/-- The object before any call. -/
def fresh (state : State) : Atomic Thread State Op Result := ⟨state, fun _ => .idle⟩

def setPhase [DecidableEq Thread] (object : Atomic Thread State Op Result) (thread : Thread)
    (phase : Phase Op Result) :
    Atomic Thread State Op Result :=
  { object with phase := Function.update object.phase thread phase }

/-- The phase of the thread itself, and of another one. -/
theorem setPhase_cases [DecidableEq Thread] (object : Atomic Thread State Op Result)
    (thread : Thread) (phase : Phase Op Result) (other : Thread) :
    (other = thread ∧ (object.setPhase thread phase).phase other = phase) ∨
      (other ≠ thread ∧ (object.setPhase thread phase).phase other = object.phase other) := by
  by_cases same : other = thread
  · subst same
    exact .inl ⟨rfl, Function.update_self ..⟩
  · exact .inr ⟨same, Function.update_of_ne same ..⟩

variable [DecidableEq Thread] [DecidableEq Op] [DecidableEq Result]

/-- The next state, if what the mark says can happen. -/
def step (spec : ObjectSpec State Op Result) (object : Atomic Thread State Op Result) :
    Mark Thread Op Result → Option (Atomic Thread State Op Result)
  | .called thread op =>
      if object.phase thread = .idle then some (object.setPhase thread (.called op)) else none
  | .effect thread op result =>
      match spec.apply object.state op with
      | some (state, value) =>
          if object.phase thread = .called op ∧ value = result then
            some ({ object with state }.setPhase thread (.done op result))
          else none
      | none => none
  | .returned thread op result =>
      if object.phase thread = .done op result then some (object.setPhase thread .idle) else none

end Atomic

section Histories

variable [DecidableEq Thread] [DecidableEq Op] [DecidableEq Result]

/-- Marks of effects can be inserted into the calls and returns so that the whole is a run of the
atomic object. -/
def Linearizable (spec : ObjectSpec State Op Result) (start : State)
    (history : List (Mark Thread Op Result)) : Prop :=
  ∃ marks final, runFrom (Atomic.step spec) (Atomic.fresh start) marks = some final ∧
    marks.filter Mark.isSeen = history

/-- **A program whose steps are matched by marks, with the calls and returns that it records, has
linearizable histories.** -/
theorem linearizable_of_simulation {Impl : Type*} {Event : Type*}
    {program : Impl → Event → Option Impl} {record : Impl → Event → List (Mark Thread Op Result)}
    {spec : ObjectSpec State Op Result} {holds : Impl → Prop}
    {shows : Impl → Atomic Thread State Op Result}
    (keeps : ∀ impl event next, holds impl → program impl event = some next → holds next)
    (matches_ : ∀ impl event next, holds impl → program impl event = some next →
      ∃ marks, runFrom (Atomic.step spec) (shows impl) marks = some (shows next) ∧
        marks.filter Mark.isSeen = record impl event)
    {start final : Impl} {state : State} {events : List Event}
    {history : List (Mark Thread Op Result)} (initially : holds start)
    (isFresh : shows start = Atomic.fresh state)
    (run : runFrom (logged program record) (start, []) events = some (final, history)) :
    ∃ marks, runFrom (Atomic.step spec) (Atomic.fresh state) marks = some (shows final) ∧
      marks.filter Mark.isSeen = history := by
  let shown (point : Impl × List (Mark Thread Op Result)) : Prop :=
    holds point.1 ∧ ∃ marks,
      runFrom (Atomic.step spec) (Atomic.fresh state) marks = some (shows point.1) ∧
        marks.filter Mark.isSeen = point.2
  have kept : ∀ point event next, shown point → logged program record point event = some next →
      shown next := by
    rintro point event next ⟨has, marks, reached, seen⟩ taken
    obtain ⟨moved, appended⟩ := logged_eq_some taken
    obtain ⟨more, goesOn, recorded⟩ := matches_ point.1 event next.1 has moved
    refine ⟨keeps point.1 event next.1 has moved, marks ++ more, runFrom_trans reached goesOn, ?_⟩
    rw [List.filter_append, seen, recorded, appended]
  have begins : shown (start, []) := ⟨initially, [], by rw [isFresh]; rfl, rfl⟩
  exact (invariant_of_run kept begins run).2

end Histories

/-! ## What the effects say -/

namespace Mark

/-- The effect of a mark. -/
def effect? : Mark Thread Op Result → Option (Op × Result)
  | .effect _ op result => some (op, result)
  | _ => none

/-- The call of a mark, with its thread. -/
def call? : Mark Thread Op Result → Option (Thread × Op)
  | .called thread op => some (thread, op)
  | _ => none

/-- The effect of a mark, with its thread. -/
def threadEffect? : Mark Thread Op Result → Option (Thread × (Op × Result))
  | .effect thread op result => some (thread, (op, result))
  | _ => none

/-- The return of a mark, with its thread. -/
def return? : Mark Thread Op Result → Option (Thread × (Op × Result))
  | .returned thread op result => some (thread, (op, result))
  | _ => none

theorem filterMap_call?_filter (marks : List (Mark Thread Op Result)) :
    (marks.filter isSeen).filterMap call? = marks.filterMap call? := by
  rw [List.filterMap_filter]
  congr 1
  funext mark
  cases mark <;> rfl

theorem filterMap_return?_filter (marks : List (Mark Thread Op Result)) :
    (marks.filter isSeen).filterMap return? = marks.filterMap return? := by
  rw [List.filterMap_filter]
  congr 1
  funext mark
  cases mark <;> rfl

theorem map_filterMap_threadEffect? (marks : List (Mark Thread Op Result)) :
    (marks.filterMap threadEffect?).map Prod.snd = marks.filterMap effect? := by
  rw [List.map_filterMap]
  congr 1
  funext mark
  cases mark <;> rfl

end Mark

/-- The operation that was called and has not taken effect. -/
def Phase.awaited : Phase Op Result → List Op
  | .called op => [op]
  | _ => []

/-- The operation that took effect and has not returned. -/
def Phase.unreturned : Phase Op Result → List (Op × Result)
  | .done op result => [(op, result)]
  | _ => []

@[simp] theorem Phase.awaited_idle : (Phase.idle : Phase Op Result).awaited = [] := rfl

@[simp] theorem Phase.awaited_called (op : Op) :
    (Phase.called op : Phase Op Result).awaited = [op] := rfl

@[simp] theorem Phase.awaited_done (op : Op) (result : Result) :
    (Phase.done op result).awaited = [] := rfl

@[simp] theorem Phase.unreturned_idle : (Phase.idle : Phase Op Result).unreturned = [] := rfl

@[simp] theorem Phase.unreturned_called (op : Op) :
    (Phase.called op : Phase Op Result).unreturned = [] := rfl

@[simp] theorem Phase.unreturned_done (op : Op) (result : Result) :
    (Phase.done op result).unreturned = [(op, result)] := rfl

/-- The operations, one after the other, lead from one state to the other and return these
results. -/
def Legal (spec : ObjectSpec State Op Result) : State → List (Op × Result) → State → Prop
  | state, [], final => state = final
  | state, (op, result) :: later, final =>
      ∃ next, spec.apply state op = some (next, result) ∧ Legal spec next later final

theorem Legal.append {spec : ObjectSpec State Op Result} {start middle final : State}
    {first second : List (Op × Result)} (earlier : Legal spec start first middle)
    (later : Legal spec middle second final) : Legal spec start (first ++ second) final := by
  induction first generalizing start with
  | nil =>
      cases earlier
      exact later
  | cons entry first ih =>
      obtain ⟨next, applied, rest⟩ := earlier
      exact ⟨next, applied, ih rest⟩

/-! ## Logs of threads -/

section Logs

variable {Key Value Image : Type*} [DecidableEq Key]

/-- The entries of a key, when the values are mapped. -/
theorem entriesOf_map_snd (key : Key) (image : Value → Image) (log : List (Key × Value)) :
    entriesOf key (log.map fun entry => (entry.1, image entry.2)) =
      (entriesOf key log).map image := by
  induction log with
  | nil => rfl
  | cons entry log ih =>
      by_cases same : entry.1 = key
      · simpa [entriesOf, same] using ih
      · simpa [entriesOf, same] using ih

/-- A log holds an entry as often as the entries of its key hold the value. -/
theorem count_eq_count_entriesOf [DecidableEq Value] (log : List (Key × Value)) (key : Key)
    (value : Value) :
    Multiset.count (key, value) (log : Multiset (Key × Value)) =
      Multiset.count value (entriesOf key log : Multiset Value) := by
  induction log with
  | nil => rfl
  | cons entry log ih =>
      obtain ⟨other, held⟩ := entry
      rw [← Multiset.cons_coe, Multiset.count_cons, ih]
      by_cases same : other = key
      · subst same
        have own : entriesOf other ((other, held) :: log) = held :: entriesOf other log := by
          simp [entriesOf]
        rw [own, ← Multiset.cons_coe, Multiset.count_cons]
        simp only [Prod.mk.injEq, true_and]
      · have others : entriesOf key ((other, held) :: log) = entriesOf key log := by
          simp [entriesOf, same]
        rw [others, if_neg fun equal => same (congrArg Prod.fst equal).symm, Nat.add_zero]

/-- A log is part of another one when the entries of every key are. -/
theorem log_le_log [DecidableEq Value] {first second : List (Key × Value)}
    (entries : ∀ key, (entriesOf key first).Sublist (entriesOf key second)) :
    (first : Multiset (Key × Value)) ≤ (second : Multiset (Key × Value)) := by
  rw [Multiset.le_iff_count]
  rintro ⟨key, value⟩
  rw [count_eq_count_entriesOf, count_eq_count_entriesOf]
  exact Multiset.count_le_of_le value (Multiset.coe_le.mpr (entries key).subperm)

/-- Two logs are equal, but for the order, when the entries of every key are. -/
theorem log_eq_log [DecidableEq Value] {first second : List (Key × Value)}
    (entries : ∀ key, entriesOf key first = entriesOf key second) :
    (first : Multiset (Key × Value)) = (second : Multiset (Key × Value)) :=
  le_antisymm (log_le_log fun key => by rw [entries key])
    (log_le_log fun key => by rw [entries key])

/-- The entries of a key, when the values are chosen from. -/
theorem entriesOf_filterMap (key : Key) (choose : Value → Option Image)
    (log : List (Key × Value)) :
    entriesOf key (log.filterMap fun entry => (choose entry.2).map fun image => (entry.1, image)) =
      (entriesOf key log).filterMap choose := by
  induction log with
  | nil => rfl
  | cons entry log ih =>
      cases chosen : choose entry.2 with
      | none =>
          by_cases same : entry.1 = key
          · simpa [entriesOf, chosen, same] using ih
          · simpa [entriesOf, chosen, same] using ih
      | some image =>
          by_cases same : entry.1 = key
          · simpa [entriesOf, chosen, same] using ih
          · simpa [entriesOf, chosen, same] using ih

/-- What is chosen from a log is chosen from the entries of one key, if the others have none. -/
theorem filterMap_eq_filterMap_entriesOf {key : Key} {choose : Value → Option Image}
    {log : List (Key × Value)}
    (others : ∀ entry ∈ log, entry.1 ≠ key → choose entry.2 = none) :
    log.filterMap (fun entry => choose entry.2) = (entriesOf key log).filterMap choose := by
  induction log with
  | nil => rfl
  | cons entry log ih =>
      have rest := ih fun other member => others other (List.mem_cons_of_mem _ member)
      by_cases same : entry.1 = key
      · simp only [entriesOf, List.filterMap_cons, if_pos same] at rest ⊢
        rw [rest]
      · simp only [entriesOf, List.filterMap_cons, if_neg same,
          others entry List.mem_cons_self same] at rest ⊢
        exact rest

end Logs

namespace Atomic

/-! ### Calls, effects and returns of a thread -/

/-- What a thread has called, what took effect of it and what was returned to it, at every moment:
all that it has called took effect, but for the operation that it waits for, and all that took
effect was returned, but for the last. -/
structure Tally [DecidableEq Thread] (marks : List (Mark Thread Op Result))
    (object : Atomic Thread State Op Result) : Prop where
  calls : ∀ thread, entriesOf thread (marks.filterMap Mark.call?) =
    (entriesOf thread (marks.filterMap Mark.threadEffect?)).map Prod.fst ++
      (object.phase thread).awaited
  returns : ∀ thread, entriesOf thread (marks.filterMap Mark.threadEffect?) =
    entriesOf thread (marks.filterMap Mark.return?) ++ (object.phase thread).unreturned

theorem tally_fresh [DecidableEq Thread] (state : State) :
    Tally ([] : List (Mark Thread Op Result)) (Atomic.fresh state) :=
  ⟨fun _ => rfl, fun _ => rfl⟩

/-! ### Inversion -/

variable [DecidableEq Thread] [DecidableEq Op] [DecidableEq Result]
  {spec : ObjectSpec State Op Result} {object next : Atomic Thread State Op Result}

theorem step_called {thread : Thread} {op : Op}
    (taken : step spec object (.called thread op) = some next) :
    object.phase thread = .idle ∧ next = object.setPhase thread (.called op) := by
  simp only [step] at taken
  split at taken
  case isTrue isIdle => cases taken; exact ⟨isIdle, rfl⟩
  case isFalse => cases taken

theorem step_effect {thread : Thread} {op : Op} {result : Result}
    (taken : step spec object (.effect thread op result) = some next) :
    ∃ state, spec.apply object.state op = some (state, result) ∧
      object.phase thread = .called op ∧
        next = { object with state }.setPhase thread (.done op result) := by
  simp only [step] at taken
  split at taken
  case h_1 state value applied =>
    split at taken
    case isTrue allowed =>
      cases taken
      exact ⟨state, allowed.2 ▸ applied, allowed.1, rfl⟩
    case isFalse => cases taken
  case h_2 => cases taken

theorem step_returned {thread : Thread} {op : Op} {result : Result}
    (taken : step spec object (.returned thread op result) = some next) :
    object.phase thread = .done op result ∧ next = object.setPhase thread .idle := by
  simp only [step] at taken
  split at taken
  case isTrue isDone => cases taken; exact ⟨isDone, rfl⟩
  case isFalse => cases taken

/-- **The effects of a run are operations of the object alone.** -/
theorem legal_of_run {final : Atomic Thread State Op Result} {marks : List (Mark Thread Op Result)}
    (run : runFrom (step spec) object marks = some final) :
    Legal spec object.state (marks.filterMap Mark.effect?) final.state := by
  let legal (past : List (Mark Thread Op Result))
      (reached : Atomic Thread State Op Result) : Prop :=
    Legal spec object.state (past.filterMap Mark.effect?) reached.state
  have keeps : ∀ past reached mark next, legal past reached → step spec reached mark = some next →
      legal (past ++ [mark]) next := by
    intro past reached mark next soFar taken
    change Legal spec object.state ((past ++ [mark]).filterMap Mark.effect?) next.state
    rw [List.filterMap_append]
    refine soFar.append ?_
    cases mark with
    | called thread op =>
        obtain ⟨-, rfl⟩ := step_called taken
        exact rfl
    | effect thread op result =>
        obtain ⟨state, applied, -, rfl⟩ := step_effect taken
        exact ⟨state, applied, rfl⟩
    | returned thread op result =>
        obtain ⟨-, rfl⟩ := step_returned taken
        exact rfl
  have begins : legal [] object := rfl
  exact history_invariant_of_run keeps begins run

/-! ### Runs -/

theorem Tally.step {marks : List (Mark Thread Op Result)} {mark : Mark Thread Op Result}
    (tally : Tally marks object) (taken : step spec object mark = some next) :
    Tally (marks ++ [mark]) next := by
  have calls := tally.calls
  have returns := tally.returns
  cases mark with
  | called thread op =>
      obtain ⟨isIdle, rfl⟩ := step_called taken
      constructor
      · intro other
        simp only [List.filterMap_append, List.filterMap_cons, List.filterMap_nil, Mark.call?,
          Mark.threadEffect?, List.append_nil]
        rcases setPhase_cases object thread (.called op) other with ⟨rfl, isCalled⟩ |
            ⟨differs, same⟩
        · rw [entriesOf_concat_self, calls, isIdle, isCalled]
          simp
        · rw [entriesOf_concat_other differs.symm, calls, same]
      · intro other
        simp only [List.filterMap_append, List.filterMap_cons, List.filterMap_nil, Mark.return?,
          Mark.threadEffect?, List.append_nil]
        rcases setPhase_cases object thread (.called op) other with ⟨rfl, isCalled⟩ |
            ⟨differs, same⟩
        · rw [returns, isIdle, isCalled]
          simp
        · rw [returns, same]
  | effect thread op result =>
      obtain ⟨state, -, isCalled, rfl⟩ := step_effect taken
      constructor
      · intro other
        simp only [List.filterMap_append, List.filterMap_cons, List.filterMap_nil, Mark.call?,
          Mark.threadEffect?, List.append_nil]
        rcases setPhase_cases { object with state } thread (.done op result) other with
          ⟨rfl, isDone⟩ | ⟨differs, same⟩
        · rw [entriesOf_concat_self, calls, isCalled, isDone]
          simp
        · rw [entriesOf_concat_other differs.symm, calls, same]
      · intro other
        simp only [List.filterMap_append, List.filterMap_cons, List.filterMap_nil, Mark.return?,
          Mark.threadEffect?, List.append_nil]
        rcases setPhase_cases { object with state } thread (.done op result) other with
          ⟨rfl, isDone⟩ | ⟨differs, same⟩
        · rw [entriesOf_concat_self, returns, isCalled, isDone]
          simp
        · rw [entriesOf_concat_other differs.symm, returns, same]
  | returned thread op result =>
      obtain ⟨isDone, rfl⟩ := step_returned taken
      constructor
      · intro other
        simp only [List.filterMap_append, List.filterMap_cons, List.filterMap_nil, Mark.call?,
          Mark.threadEffect?, List.append_nil]
        rcases setPhase_cases object thread .idle other with ⟨rfl, isIdle⟩ | ⟨differs, same⟩
        · rw [calls, isDone, isIdle]
          simp
        · rw [calls, same]
      · intro other
        simp only [List.filterMap_append, List.filterMap_cons, List.filterMap_nil, Mark.return?,
          Mark.threadEffect?, List.append_nil]
        rcases setPhase_cases object thread .idle other with ⟨rfl, isIdle⟩ | ⟨differs, same⟩
        · rw [entriesOf_concat_self, returns, isDone, isIdle]
          simp
        · rw [entriesOf_concat_other differs.symm, returns, same]

/-- **The tally is right in every run of a fresh object.** -/
theorem tally_of_run {state : State} {final : Atomic Thread State Op Result}
    {marks : List (Mark Thread Op Result)}
    (run : runFrom (Atomic.step spec) (Atomic.fresh state) marks = some final) :
    Tally marks final :=
  history_invariant_of_run (fun _ _ _ _ tally taken => Tally.step tally taken) (tally_fresh state)
    run

end Atomic

end NetworkChat.Foundation
