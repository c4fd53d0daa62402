import NetworkChat.Connection.Handlers

/-!
# One write at a time

Two handlers start a write without knowing of another one: the lambda of `Send`
looks at the queue of messages only, and the client's handler of the validation
code looks at nothing. Every other handler starts a write in place of the one that
has just ended. So at most one write is outstanding throughout a run exactly when
these two find none outstanding (`one_write_iff`).
-/

set_option autoImplicit false

namespace NetworkChat

open Foundation

namespace Connection

variable {T : Type}

/-- A connection as it is when it begins: accepted by the server, or connecting to
it. -/
inductive Begins [Inhabited T] : Connection T → Prop where
  | accepted (clock : UInt64) (welcome : List (Message T)) (uid : UInt32) :
      Begins (accept clock welcome uid)
  | connecting : Begins connect

/-- At most one `async_write` is outstanding. -/
def OneWrite (c : Connection T) : Prop := c.writing.length ≤ 1

/-- The lambda of `Send` that finds the queue empty, and the client's handler of
the code, run only while no write is outstanding. -/
def StartsAlone (c : Connection T) : IoEvent T → Prop
  | .runPosted =>
      match c.posted, c.qMessagesOut with
      | .send _ :: _, [] => c.writing = []
      | _, _ => True
  | .readDone =>
      match c.ownerType, c.reading with
      | .client, some ⟨.validation, some _⟩ => c.writing = []
      | _, _ => True
  | _ => True

instance (c : Connection T) (event : IoEvent T) : Decidable (StartsAlone c event) := by
  have noWrite : Decidable (c.writing = []) :=
    decidable_of_iff (c.writing.isEmpty = true) List.isEmpty_iff
  apply IoEvent.casesOn (motive := fun event => Decidable (StartsAlone c event)) event
  all_goals
    intros
    unfold StartsAlone
  case runPosted =>
    exact match c.posted, c.qMessagesOut with
      | .send _ :: _, [] => noWrite
      | [], _ | .close :: _, _ | .send _ :: _, _ :: _ => instDecidableTrue
  case readDone =>
    exact match c.ownerType, c.reading with
      | .client, some ⟨.validation, some _⟩ => noWrite
      | .server, _ | .client, none | .client, some ⟨.header, _⟩ | .client, some ⟨.body, _⟩
      | .client, some ⟨.validation, none⟩ => instDecidableTrue
  all_goals infer_instance

theorem length_startWrite (c : Connection T) (kind : WriteKind) (bytes : List UInt8) :
    (c.startWrite kind bytes).writing.length = c.writing.length + 1 :=
  List.length_append

theorem oneWrite_startWrite_iff (c : Connection T) (kind : WriteKind) (bytes : List UInt8) :
    (c.startWrite kind bytes).OneWrite ↔ c.writing = [] := by
  rw [OneWrite, length_startWrite, ← List.length_eq_zero_iff]
  omega

theorem Begins.oneWrite [Inhabited T] {c : Connection T} (begins : Begins c) : c.OneWrite := by
  cases begins with
  | connecting => exact Nat.zero_le 1
  | accepted clock welcome uid =>
      rw [accept_eq]
      exact le_rfl

variable [FullLayout T]

/-! ## Handlers -/

/-- Starting the next header adds at most one write. -/
theorem length_settle_writeHeader (c d : Connection T) (same : d.writing = c.writing) :
    (c.settle d.writeHeader).writing.length ≤ c.writing.length + 1 := by
  simp only [writeHeader]
  split
  · exact Nat.le_succ _
  · simp only [settle]
    rw [length_startWrite, same]

theorem length_settle_popAndContinue (c : Connection T) :
    (c.settle c.popAndContinue).writing.length ≤ c.writing.length + 1 := by
  simp only [popAndContinue]
  split
  · exact Nat.le_succ _
  · split
    · exact Nat.le_succ _
    · exact length_settle_writeHeader c _ rfl

/-- The handler of a write starts at most one write. -/
theorem length_settle_writeDone (c : Connection T) (kind : WriteKind) :
    (c.settle (c.writeDone kind)).writing.length ≤ c.writing.length + 1 := by
  cases kind with
  | validation =>
      simp only [Connection.writeDone, validationWritten, settle]
      split <;> exact Nat.le_succ _
  | body => exact length_settle_popAndContinue c
  | header =>
      simp only [Connection.writeDone, headerWritten]
      split
      · exact Nat.le_succ _
      · split
        · simp only [writeBody]
          split
          · exact Nat.le_succ _
          · exact (length_startWrite c .body _).le
        · exact length_settle_popAndContinue c

/-- The lambda of `Send` starts a write exactly when it finds the queue empty. -/
theorem oneWrite_runSend_iff (c : Connection T) (msg : Message T) :
    (c.settle (c.runSend msg)).OneWrite ↔
      match c.qMessagesOut with
      | [] => c.writing = []
      | _ :: _ => c.OneWrite := by
  simp only [runSend]
  cases queue : c.qMessagesOut with
  | nil =>
      simp only [List.isEmpty_nil, Bool.not_true, Bool.false_eq_true, if_false, List.nil_append,
        writeHeader, settle]
      exact oneWrite_startWrite_iff _ _ _
  | cons front later =>
      simp only [List.isEmpty_cons, Bool.not_false, if_true, settle]
      exact Iff.rfl

/-- The handlers of reads start a write only for the client's reply. -/
theorem oneWrite_readDone_iff (c : Connection T) (kind : ReadKind) (bytes : List UInt8) :
    (c.readDone kind bytes).OneWrite ↔
      match c.ownerType, kind with
      | .client, .validation => c.writing = []
      | _, _ => c.OneWrite := by
  cases kind with
  | header =>
      simp only [Connection.readDone, headerRead]
      cases c.ownerType <;> split <;> exact Iff.rfl
  | body => cases c.ownerType <;> exact Iff.rfl
  | validation =>
      simp only [Connection.readDone, validationRead]
      cases c.ownerType with
      | server =>
          simp only
          split <;> exact Iff.rfl
      | client => exact oneWrite_startWrite_iff _ _ _

/-! ## Steps -/

/-- From a state with at most one write, a step keeps it so exactly when the two
handlers start alone. -/
theorem step_oneWrite_iff {c d : Connection T} {event : IoEvent T} (one : c.OneWrite)
    (taken : c.step event = some d) : d.OneWrite ↔ StartsAlone c event := by
  obtain ⟨-, taken⟩ := step_eq_some taken
  cases event with
  | send msg => cases taken; exact iff_of_true one trivial
  | disconnect =>
      cases taken
      refine iff_of_true ?_ trivial
      simp only [disconnect]
      split <;> exact one
  | socketOpened =>
      obtain ⟨-, -, rfl⟩ := act_socketOpened taken
      exact iff_of_true one trivial
  | connected =>
      obtain ⟨-, -, rfl⟩ := act_connected taken
      exact iff_of_true one trivial
  | connectFailed =>
      obtain ⟨-, rfl⟩ := act_connectFailed taken
      exact iff_of_true one trivial
  | arrive piece =>
      obtain ⟨-, rfl⟩ := act_arrive taken
      exact iff_of_true one trivial
  | fill count =>
      obtain ⟨kind, -, -, -, -, rfl⟩ := act_fill taken
      exact iff_of_true one trivial
  | readFail =>
      obtain ⟨kind, -, rfl⟩ := act_readFail taken
      exact iff_of_true one trivial
  | transfer index count =>
      obtain ⟨op, -, -, -, -, rfl⟩ := act_transfer taken
      refine iff_of_true ?_ trivial
      rw [OneWrite, List.length_set]
      exact one
  | writeFail index =>
      obtain ⟨op, -, -, rfl⟩ := act_writeFail taken
      exact iff_of_true ((List.length_eraseIdx_le _ _).trans one) trivial
  | writeDone index =>
      obtain ⟨kind, found, rfl⟩ := act_writeDone taken
      have within : index < c.writing.length := (List.getElem?_eq_some_iff.mp found).1
      have shorter := List.length_eraseIdx_add_one within
      have longer := length_settle_writeDone { c with writing := c.writing.eraseIdx index } kind
      refine iff_of_true ?_ trivial
      rw [OneWrite] at one ⊢
      exact longer.trans (shorter.le.trans one)
  | runPosted =>
      obtain ⟨lambda, rest, posted, rfl⟩ := act_runPosted taken
      cases lambda with
      | close =>
          refine iff_of_true one ?_
          simp only [StartsAlone, posted]
      | send msg =>
          have starts := oneWrite_runSend_iff { c with posted := rest } msg
          simp only [StartsAlone, posted]
          refine starts.trans ?_
          cases queue : c.qMessagesOut with
          | nil => exact Iff.rfl
          | cons front later => exact iff_of_true one trivial
  | readDone =>
      obtain ⟨kind, bytes, full, rfl⟩ := act_readDone taken
      have starts := oneWrite_readDone_iff { c with reading := none } kind bytes
      simp only [StartsAlone, full]
      refine starts.trans ?_
      cases owner : c.ownerType with
      | server => exact iff_of_true one trivial
      | client =>
          cases kind with
          | validation => exact Iff.rfl
          | _ => exact iff_of_true one trivial

/-- **At most one write is outstanding throughout a run exactly when no write is
started beside another one**: the lambda of `Send` that finds an empty queue runs
only while the validation code is not being written, and the client writes its
reply only while no message is being written. -/
theorem one_write_iff [Inhabited T] {start final : Connection T} {events : List (IoEvent T)}
    (begins : Begins start) (run : runFrom step start events = some final) :
    Throughout step OneWrite start events ↔ Meets step StartsAlone start events := by
  have exact_step : ∀ c event d, OneWrite c → step c event = some d →
      (OneWrite d ↔ StartsAlone c event) :=
    fun (c : Connection T) _ _ one taken => step_oneWrite_iff one taken
  exact throughout_iff_meets_of_step exact_step begins.oneWrite run

/-- A connection of the server that has welcomed its client. -/
def welcomed : Connection CustomMsgTypes :=
  accept 5 [(Message.ofType .serverAccept).push (10000 : UInt32)] 10000

/-- The lambda of the welcome runs after the validation code is written. -/
theorem one_write_welcomed :
    Throughout step OneWrite welcomed [.transfer 0 8, .writeDone 0, .runPosted] :=
  (one_write_iff (.accepted _ _ _) (Option.some_get (by decide)).symm).mpr (by decide)

/-- The lambda of the welcome starts the first header beside the validation code. -/
theorem welcome_beside_validation :
    ∃ final, runFrom step welcomed [.runPosted] = some final ∧ ¬ final.OneWrite :=
  ⟨(runFrom step welcomed [.runPosted]).get (by decide), (Option.some_get _).symm,
    by simp only [OneWrite]; decide⟩

end Connection

end NetworkChat
