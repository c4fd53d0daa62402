import NetworkChat.TsQueue.Linearizable
import Mathlib.Algebra.Order.Group.Multiset
import Mathlib.Tactic.Abel

/-!
# What becomes of the messages of a shared queue

The functions take effect one after the other (`linearizable`), so that what a deque does to its
elements, one function after the other, is what the threads see of their messages.

* Nothing is popped that was not pushed, and nothing twice (`popped_le_pushed`).
* When all functions have returned, and nobody has called `clear`, what was pushed was popped or is
  still there (`popped_add_deque`).
* When messages are pushed at the back and one thread takes them from the front, that thread gets
  the messages of every other one in the order in which they were pushed and without a gap
  (`popped_in_order`).
-/

set_option autoImplicit false

namespace NetworkChat

open Foundation

namespace SharedQueue

variable {T : Type}

/-! ## Pushes and pops -/

/-- The message that a function pushes. -/
def Operation.pushed? : Operation T → Option T
  | .pushBack msg => some msg
  | .pushFront msg => some msg
  | _ => none

/-- The message that a pop returns. -/
def popped? : Operation T × Value T → Option T
  | (.popFront, .message msg) => some msg
  | (.popBack, .message msg) => some msg
  | _ => none

/-- The messages that were given to the pushes. -/
def pushedIn (history : List (Mark ℕ (Operation T) (Value T))) : List T :=
  (history.filterMap Mark.call?).filterMap fun call => call.2.pushed?

/-- The messages that the pops have returned. -/
def poppedIn (history : List (Mark ℕ (Operation T) (Value T))) : List T :=
  (history.filterMap Mark.return?).filterMap fun ret => popped? ret.2

/-! ## One function after the other -/

/-- A function takes out what it returns and puts in what it was given. Only `clear` loses
messages. -/
theorem apply_accounts {deque next : List T} {operation : Operation T} {value : Value T}
    (applied : apply deque operation = some (next, value)) :
    operation = .clear ∧ next = [] ∨
      ((popped? (operation, value)).toList ++ next).Perm (operation.pushed?.toList ++ deque) := by
  cases operation with
  | front =>
      obtain ⟨msg, -, equal⟩ := Option.map_eq_some_iff.mp applied
      cases equal
      exact .inr (.refl _)
  | back =>
      obtain ⟨msg, -, equal⟩ := Option.map_eq_some_iff.mp applied
      cases equal
      exact .inr (.refl _)
  | pushBack msg =>
      cases applied
      have behind : (deque ++ [msg]).Perm ([msg] ++ deque) := List.perm_append_comm
      exact .inr behind
  | pushFront msg =>
      cases applied
      exact .inr (.refl _)
  | empty =>
      cases applied
      exact .inr (.refl _)
  | clear =>
      cases applied
      exact .inl ⟨rfl, rfl⟩
  | count =>
      cases applied
      exact .inr (.refl _)
  | popFront =>
      obtain ⟨msg, first, equal⟩ := Option.map_eq_some_iff.mp applied
      cases equal
      obtain ⟨rest, rfl⟩ := List.head?_eq_some_iff.mp first
      exact .inr (.refl _)
  | popBack =>
      obtain ⟨msg, last, equal⟩ := Option.map_eq_some_iff.mp applied
      cases equal
      obtain ⟨rest, rfl⟩ := List.getLast?_eq_some_iff.mp last
      rw [List.dropLast_concat]
      exact .inr List.perm_append_comm
  | wait =>
      simp only [apply] at applied
      split at applied
      case isTrue => cases applied
      case isFalse => cases applied; exact .inr (.refl _)

/-- The messages of a list, in any order. -/
abbrev bag (messages : List T) : Multiset T := messages

theorem bag_append (first second : List T) : bag (first ++ second) = bag first + bag second :=
  (Multiset.coe_add first second).symm

theorem filterMap_cons_toList {Entry : Type} (choose : Entry → Option T) (entry : Entry)
    (entries : List Entry) :
    (entry :: entries).filterMap choose = (choose entry).toList ++ entries.filterMap choose := by
  cases chosen : choose entry with
  | none => rw [List.filterMap_cons_none chosen]; rfl
  | some msg => rw [List.filterMap_cons_some chosen]; rfl

/-- One function after the other: nothing is popped that was not pushed, and without `clear` all
that was pushed is popped or still there. -/
theorem accounts_of_legal {deque final : List T} {entries : List (Operation T × Value T)}
    (legal : Legal spec deque entries final) :
    bag (entries.filterMap popped?) + bag final ≤
        bag (entries.filterMap fun entry => entry.1.pushed?) + bag deque ∧
      ((∀ entry ∈ entries, entry.1 ≠ .clear) →
        bag (entries.filterMap popped?) + bag final =
          bag (entries.filterMap fun entry => entry.1.pushed?) + bag deque) := by
  induction entries generalizing deque with
  | nil =>
      cases legal
      exact ⟨le_rfl, fun _ => rfl⟩
  | cons entry entries ih =>
      obtain ⟨operation, value⟩ := entry
      obtain ⟨next, applied, later⟩ := legal
      have ⟨atMost, exactly⟩ := ih later
      rw [filterMap_cons_toList, filterMap_cons_toList, bag_append, bag_append]
      rcases apply_accounts applied with ⟨rfl, rfl⟩ | accounted
      · cases applied
        have none_popped : bag (popped? (Operation.clear, (Value.nothing : Value T))).toList = 0 :=
          rfl
        have none_pushed : bag (Operation.clear : Operation T).pushed?.toList = 0 := rfl
        rw [none_popped, none_pushed, zero_add, zero_add]
        refine ⟨atMost.trans ?_, fun none => absurd rfl (none _ List.mem_cons_self)⟩
        exact add_le_add_right (Multiset.zero_le _) _
      · have same : bag (popped? (operation, value)).toList + bag next =
            bag operation.pushed?.toList + bag deque := by
          rw [← bag_append, ← bag_append]
          exact Multiset.coe_eq_coe.mpr accounted
        refine ⟨?_, fun noClear => ?_⟩
        · calc _ = bag (popped? (operation, value)).toList +
                (bag (entries.filterMap popped?) + bag final) := add_assoc _ _ _
            _ ≤ bag (popped? (operation, value)).toList +
                (bag (entries.filterMap fun entry => entry.1.pushed?) + bag next) :=
              add_le_add_right atMost _
            _ = bag (entries.filterMap fun entry => entry.1.pushed?) +
                (bag operation.pushed?.toList + bag deque) := by rw [← same]; abel
            _ = _ := by abel
        · have rest := exactly fun entry member => noClear entry (List.mem_cons_of_mem _ member)
          calc _ = bag (popped? (operation, value)).toList +
                (bag (entries.filterMap popped?) + bag final) := add_assoc _ _ _
            _ = bag (entries.filterMap fun entry => entry.1.pushed?) +
                (bag operation.pushed?.toList + bag deque) := by rw [rest, ← same]; abel
            _ = _ := by abel

/-! ## In at the back, out at the front -/

/-- The functions that keep a deque a queue: they push at the back, take from the front, or only
look. -/
def Operation.inOrder : Operation T → Bool
  | .pushFront _ => false
  | .popBack => false
  | .clear => false
  | _ => true

theorem apply_inOrder {deque next : List T} {operation : Operation T} {value : Value T}
    (inOrder : operation.inOrder = true) (applied : apply deque operation = some (next, value)) :
    deque ++ operation.pushed?.toList = (popped? (operation, value)).toList ++ next := by
  cases operation with
  | front =>
      obtain ⟨msg, -, equal⟩ := Option.map_eq_some_iff.mp applied
      cases equal
      exact List.append_nil _
  | back =>
      obtain ⟨msg, -, equal⟩ := Option.map_eq_some_iff.mp applied
      cases equal
      exact List.append_nil _
  | pushBack msg =>
      cases applied
      rfl
  | pushFront msg => cases inOrder
  | empty =>
      cases applied
      exact List.append_nil _
  | clear => cases inOrder
  | count =>
      cases applied
      exact List.append_nil _
  | popFront =>
      obtain ⟨msg, first, equal⟩ := Option.map_eq_some_iff.mp applied
      cases equal
      obtain ⟨rest, rfl⟩ := List.head?_eq_some_iff.mp first
      exact List.append_nil _
  | popBack => cases inOrder
  | wait =>
      simp only [apply] at applied
      split at applied
      case isTrue => cases applied
      case isFalse => cases applied; exact List.append_nil _

/-- What is popped, one after the other, is what was pushed, one after the other. -/
theorem inOrder_of_legal {deque final : List T} {entries : List (Operation T × Value T)}
    (inOrder : ∀ entry ∈ entries, entry.1.inOrder = true)
    (legal : Legal spec deque entries final) :
    deque ++ entries.filterMap (fun entry => entry.1.pushed?) =
      entries.filterMap popped? ++ final := by
  induction entries generalizing deque with
  | nil =>
      cases legal
      exact List.append_nil _
  | cons entry entries ih =>
      obtain ⟨operation, value⟩ := entry
      obtain ⟨next, applied, later⟩ := legal
      have rest := ih (fun entry member => inOrder entry (List.mem_cons_of_mem _ member)) later
      have here := apply_inOrder (inOrder _ List.mem_cons_self) applied
      rw [filterMap_cons_toList, filterMap_cons_toList, ← List.append_assoc, here,
        List.append_assoc, rest, List.append_assoc]

/-! ## What the threads see -/

variable [DecidableEq T]

section Runs

variable {movedFrom : T → T} {events : List (Event T)} {final : SharedQueue T}
  {history : List (Mark ℕ (Operation T) (Value T))}

/-- The effects of a run, with their threads: they lead from the empty deque to the one that is
shown, and they agree with the calls and the returns. -/
theorem effects_of_run
    (run : runFrom (logged (SharedQueue.step movedFrom) record) (start, []) events =
      some (final, history)) :
    ∃ effects : List (ℕ × (Operation T × Value T)),
      Legal spec [] (effects.map Prod.snd) final.shown ∧
        (∀ thread, entriesOf thread (history.filterMap Mark.call?) =
          (entriesOf thread effects).map Prod.fst ++ (final.place thread).phase.awaited) ∧
        ∀ thread, entriesOf thread effects =
          entriesOf thread (history.filterMap Mark.return?) ++
            (final.place thread).phase.unreturned := by
  obtain ⟨marks, reached, rfl⟩ := marks_of_run run
  have tally := Atomic.tally_of_run reached
  refine ⟨marks.filterMap Mark.threadEffect?, ?_, ?_, ?_⟩
  · rw [Mark.map_filterMap_threadEffect?]
    exact Atomic.legal_of_run reached
  · intro thread
    rw [Mark.filterMap_call?_filter]
    exact tally.calls thread
  · intro thread
    rw [Mark.filterMap_return?_filter]
    exact tally.returns thread

/-- What the pops have returned took effect. -/
theorem popped_le_effects {effects : List (ℕ × (Operation T × Value T))}
    (returns : ∀ thread, (entriesOf thread (history.filterMap Mark.return?)).Sublist
      (entriesOf thread effects)) :
    bag (poppedIn history) ≤ bag ((effects.map Prod.snd).filterMap popped?) := by
  have returned : (history.filterMap Mark.return? : Multiset (ℕ × (Operation T × Value T))) ≤
      (effects : List _) := log_le_log returns
  rw [List.filterMap_map]
  exact Multiset.filterMap_le_filterMap (fun entry => popped? entry.2) returned

/-- The pushes that took effect were called. -/
theorem effects_le_pushed {effects : List (ℕ × (Operation T × Value T))}
    (calls : ∀ thread, ((entriesOf thread effects).map Prod.fst).Sublist
      (entriesOf thread (history.filterMap Mark.call?))) :
    bag ((effects.map Prod.snd).filterMap fun entry => entry.1.pushed?) ≤
      bag (pushedIn history) := by
  have called : (effects.map fun entry => (entry.1, entry.2.1) : Multiset (ℕ × Operation T)) ≤
      (history.filterMap Mark.call? : List _) :=
    log_le_log fun thread => by
      rw [entriesOf_map_snd thread Prod.fst]
      exact calls thread
  have chosen := Multiset.filterMap_le_filterMap (fun entry => entry.2.pushed?) called
  rw [Multiset.filterMap_coe, Multiset.filterMap_coe, List.filterMap_map] at chosen
  rw [List.filterMap_map]
  exact chosen

/-- **Nothing is popped that was not pushed, and nothing twice**, and what is still there was not
popped. -/
theorem popped_le_pushed
    (run : runFrom (logged (SharedQueue.step movedFrom) record) (start, []) events =
      some (final, history)) :
    bag (poppedIn history) + bag final.shown ≤ bag (pushedIn history) := by
  obtain ⟨effects, legal, calls, returns⟩ := effects_of_run run
  have popped : bag (poppedIn history) ≤ bag ((effects.map Prod.snd).filterMap popped?) :=
    popped_le_effects fun thread => by
      rw [returns thread]
      exact List.sublist_append_left _ _
  have pushed : bag ((effects.map Prod.snd).filterMap fun entry => entry.1.pushed?) ≤
      bag (pushedIn history) :=
    effects_le_pushed fun thread => by
      rw [calls thread]
      exact List.sublist_append_left _ _
  calc bag (poppedIn history) + bag final.shown
      ≤ bag ((effects.map Prod.snd).filterMap popped?) + bag final.shown :=
        add_le_add_left popped _
    _ ≤ bag ((effects.map Prod.snd).filterMap fun entry => entry.1.pushed?) + bag [] :=
        (accounts_of_legal legal).1
    _ ≤ bag (pushedIn history) := by
        rw [show bag ([] : List T) = 0 from rfl, add_zero]
        exact pushed

theorem popped_le_pushed_passing :
    ∃ final, runFrom (logged (SharedQueue.step fun _ => 0) record) (start, []) passing =
      some (final, passed) ∧
        bag (poppedIn passed) + bag final.shown ≤ bag (pushedIn passed) :=
  ⟨_, rfl, @popped_le_pushed ℕ _ (fun _ => 0) passing _ passed rfl⟩

/-- **When all functions have returned and nobody has cleared the queue, what was pushed was popped
or is still there.** -/
theorem popped_add_deque
    (run : runFrom (logged (SharedQueue.step movedFrom) record) (start, []) events =
      some (final, history))
    (allReturned : ∀ thread, final.place thread = .idle)
    (notCleared : ∀ thread, Mark.called thread .clear ∉ history) :
    bag (poppedIn history) + bag final.deqQueue = bag (pushedIn history) := by
  obtain ⟨effects, legal, calls, returns⟩ := effects_of_run run
  have idle : ∀ thread, (final.place thread).phase = .idle := fun thread => by
    rw [allReturned thread]
    rfl
  have sameCalls : (effects.map fun entry => (entry.1, entry.2.1) : Multiset (ℕ × Operation T)) =
      (history.filterMap Mark.call? : List _) :=
    log_eq_log fun thread => by
      rw [entriesOf_map_snd thread Prod.fst, calls thread, idle thread]
      simp
  have sameReturns : (effects : Multiset (ℕ × (Operation T × Value T))) =
      (history.filterMap Mark.return? : List _) :=
    log_eq_log fun thread => by
      rw [returns thread, idle thread]
      simp
  have popped : bag (poppedIn history) = bag ((effects.map Prod.snd).filterMap popped?) := by
    rw [List.filterMap_map]
    exact congrArg (Multiset.filterMap fun entry => popped? entry.2) sameReturns.symm
  have pushed : bag ((effects.map Prod.snd).filterMap fun entry => entry.1.pushed?) =
      bag (pushedIn history) := by
    have chosen := congrArg (Multiset.filterMap fun entry => entry.2.pushed?) sameCalls
    rw [Multiset.filterMap_coe, Multiset.filterMap_coe, List.filterMap_map] at chosen
    rw [List.filterMap_map]
    exact chosen
  have noClear : ∀ entry ∈ effects.map Prod.snd, entry.1 ≠ .clear := by
    rintro entry member isClear
    obtain ⟨⟨thread, effect⟩, inEffects, rfl⟩ := List.mem_map.mp member
    have called : (thread, Operation.clear) ∈ history.filterMap Mark.call? := by
      rw [← Multiset.mem_coe, ← sameCalls, Multiset.mem_coe]
      exact List.mem_map.mpr ⟨(thread, effect), inEffects, by rw [← isClear]⟩
    obtain ⟨mark, inHistory, isCall⟩ := List.mem_filterMap.mp called
    cases mark with
    | called other operation =>
        cases isCall
        exact notCleared thread inHistory
    | effect => cases isCall
    | returned => cases isCall
  have untouched : final.shown = final.deqQueue :=
    shown_of_leaves fun thread => by
      rw [allReturned thread]
      rfl
  rw [popped, ← pushed, ← untouched, (accounts_of_legal legal).2 noClear]
  exact add_zero _

theorem popped_add_deque_passing :
    ∃ final, runFrom (logged (SharedQueue.step fun _ => 0) record) (start, []) passing =
      some (final, passed) ∧
        bag (poppedIn passed) + bag final.deqQueue = bag (pushedIn passed) := by
  refine ⟨_, rfl, @popped_add_deque ℕ _ (fun _ => 0) passing _ passed rfl ?_ ?_⟩
  · rintro (_ | _ | other)
    · rfl
    · rfl
    · rfl
  · simp [passed]

/-- The messages that a thread has given to its pushes. -/
def pushedBy (thread : ℕ) (history : List (Mark ℕ (Operation T) (Value T))) : List T :=
  (entriesOf thread (history.filterMap Mark.call?)).filterMap Operation.pushed?

/-- The messages of the pushes that have returned to a thread. -/
def returnedTo (thread : ℕ) (history : List (Mark ℕ (Operation T) (Value T))) : List T :=
  (entriesOf thread (history.filterMap Mark.return?)).filterMap fun ret => ret.1.pushed?

omit [DecidableEq T] in
theorem called_of_mem {thread : ℕ} {operation : Operation T}
    (member : operation ∈ entriesOf thread (history.filterMap Mark.call?)) :
    Mark.called thread operation ∈ history := by
  obtain ⟨mark, inHistory, isCall⟩ := List.mem_filterMap.mp (mem_entriesOf.mp member)
  cases mark with
  | called other operation => cases isCall; exact inHistory
  | effect => cases isCall
  | returned => cases isCall

/-- **One thread that pops gets the messages of every other one in the order in which they were
pushed, without a gap.** There is one order of all messages such that what was popped, perhaps one
that has not been returned yet, and what is in the queue make it up, and the messages of a thread
stand in it as the thread has pushed them: all those whose push has returned, and perhaps one
more. -/
theorem popped_in_order {consumer : ℕ}
    (run : runFrom (logged (SharedQueue.step movedFrom) record) (start, []) events =
      some (final, history))
    (inOrder : ∀ thread operation, Mark.called thread operation ∈ history →
      operation.inOrder = true)
    (oneConsumer : ∀ thread, Mark.called thread .popFront ∈ history → thread = consumer) :
    ∃ (order : List (ℕ × T)) (last : List T), last.length ≤ 1 ∧
      order.map Prod.snd = poppedIn history ++ last ++ final.shown ∧
        ∀ producer, returnedTo producer history <+: entriesOf producer order ∧
          entriesOf producer order <+: pushedBy producer history := by
  obtain ⟨effects, legal, calls, returns⟩ := effects_of_run run
  -- what took effect was called
  have called : ∀ entry ∈ effects, Mark.called entry.1 entry.2.1 ∈ history := by
    intro entry member
    refine called_of_mem ?_
    rw [calls entry.1]
    exact List.mem_append_left _ (List.mem_map_of_mem (mem_entriesOf.mpr member))
  have fifo := inOrder_of_legal (fun entry member => by
    obtain ⟨effect, inEffects, rfl⟩ := List.mem_map.mp member
    exact inOrder effect.1 effect.2.1 (called effect inEffects)) legal
  rw [List.nil_append, List.filterMap_map, List.filterMap_map] at fifo
  -- the pops are those of the consumer
  have onlyConsumer : ∀ entry ∈ effects, entry.1 ≠ consumer → popped? entry.2 = none := by
    rintro ⟨thread, operation, value⟩ member differs
    have isCalled : Mark.called thread operation ∈ history := called _ member
    cases operation with
    | popFront => exact absurd (oneConsumer thread isCalled) differs
    | popBack => exact absurd (inOrder thread _ isCalled) Bool.false_ne_true
    | _ => rfl
  have onlyReturned : ∀ entry ∈ history.filterMap Mark.return?, entry.1 ≠ consumer →
      popped? entry.2 = none := by
    rintro entry member differs
    refine onlyConsumer entry (mem_entriesOf.mp ?_) differs
    rw [returns entry.1]
    exact List.mem_append_left _ (mem_entriesOf.mpr member)
  have popped : effects.filterMap (popped? ∘ Prod.snd) =
      poppedIn history ++ (final.place consumer).phase.unreturned.filterMap popped? := by
    rw [poppedIn, filterMap_eq_filterMap_entriesOf onlyReturned, ← List.filterMap_append,
      ← returns consumer]
    exact filterMap_eq_filterMap_entriesOf onlyConsumer
  refine ⟨effects.filterMap fun entry => entry.2.1.pushed?.map fun msg => (entry.1, msg),
    (final.place consumer).phase.unreturned.filterMap popped?, ?_, ?_, fun producer => ?_⟩
  · refine (List.length_filterMap_le _ _).trans ?_
    cases (final.place consumer).phase <;> simp
  · rw [← popped, ← fifo, List.map_filterMap]
    refine List.filterMap_congr fun entry _ => ?_
    cases chosen : entry.2.1.pushed? <;> simp [chosen]
  · have own : entriesOf producer
        (effects.filterMap fun entry => entry.2.1.pushed?.map fun msg => (entry.1, msg)) =
          (entriesOf producer effects).filterMap fun entry => entry.1.pushed? :=
      entriesOf_filterMap producer (fun entry : Operation T × Value T => entry.1.pushed?) effects
    rw [own]
    constructor
    · rw [returnedTo, returns producer, List.filterMap_append]
      exact List.prefix_append _ _
    · rw [pushedBy, calls producer, List.filterMap_append, List.filterMap_map]
      exact List.prefix_append _ _

theorem popped_in_order_passing :
    ∃ final, runFrom (logged (SharedQueue.step fun _ => 0) record) (start, []) passing =
      some (final, passed) ∧
        ∃ (order : List (ℕ × ℕ)) (last : List ℕ), last.length ≤ 1 ∧
          order.map Prod.snd = poppedIn passed ++ last ++ final.shown ∧
            ∀ producer, returnedTo producer passed <+: entriesOf producer order ∧
              entriesOf producer order <+: pushedBy producer passed := by
  refine ⟨_, rfl, @popped_in_order ℕ _ (fun _ => 0) passing _ passed 0 rfl ?_ ?_⟩
  · intro thread operation called
    simp only [passed, List.mem_cons, Mark.called.injEq, reduceCtorEq, List.not_mem_nil,
      or_false] at called
    rcases called with ⟨-, rfl⟩ | ⟨-, rfl⟩ <;> rfl
  · simp [passed]

end Runs

end SharedQueue

end NetworkChat
