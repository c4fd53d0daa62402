import NetworkChat.Server.System

/-!
# Who is admitted

A connection of the server is admitted when `ReadValidation` ends without error and with the
scrambled code, and then its read loop starts. The log of a run notes for every connection
how `ReadValidation` ended, every call of `ReadHeader` and every message that is pushed
(`Connection.notes`). `Standing` says what the notes of a connection can look like.

So messages come from admitted connections only (`only_admitted_are_heard`).

`OnClientValidated` is called in the branch of the wrong code and not in that of the right
one, so it reports the admitted connections only as long as no peer has answered
(`reportsAdmitted_iff`).
-/

set_option autoImplicit false

namespace NetworkChat

open Foundation

namespace Connection

variable {T : Type}

/-- What the log notes of a connection. -/
inductive Note (T : Type) where
  /-- The constructor generated the code. -/
  | generated (code : UInt64)
  /-- `ReadValidation` ended without error, and with `Scramble` of the code. -/
  | validated (code : UInt64)
  /-- `ReadValidation` ended with another code, or with an error. -/
  | rejected
  /-- `ReadHeader` was called. -/
  | readHeader
  | pushed (msg : Message T)
  deriving DecidableEq

def Note.message? : Note T → Option (Message T)
  | .pushed msg => some msg
  | _ => none

/-- The messages that were pushed. -/
def pushedMessages (notes : List (Note T)) : List (Message T) := notes.filterMap Note.message?

/-- The messages pushed in a step, and whether it called `ReadHeader`. -/
def loopNotes (c d : Connection T) : List (Note T) :=
  (d.qMessagesIn.drop c.qMessagesIn.length).map .pushed ++
    if d.reading = some ⟨.header, none⟩ ∧ c.reading ≠ some ⟨.header, none⟩ then [.readHeader]
    else []

/-- How `ReadValidation` ends. -/
def codeNotes (c : Connection T) : IoEvent T → List (Note T)
  | .readDone =>
      match c.reading with
      | some ⟨.validation, some bytes⟩ =>
          if (c.validationRead bytes).validatonCodeIn = scramble c.validatonCodeOut then
            [.validated c.validatonCodeOut]
          else [.rejected]
      | _ => []
  | .readFail =>
      match c.reading with
      | some ⟨.validation, none⟩ => [.rejected]
      | _ => []
  | _ => []

variable [FullLayout T]

/-- What is noted of a step. -/
def notes (c : Connection T) (event : IoEvent T) : List (Note T) :=
  match c.step event with
  | none => []
  | some d => c.codeNotes event ++ c.loopNotes d

/-! ## Steps that handle no read -/

/-- The loop is where it was: a read may have been filled. -/
structure SameLoop (c d : Connection T) : Prop where
  reading : d.reading = c.reading ∨ ∃ kind bytes, c.reading = some ⟨kind, none⟩ ∧
    d.reading = some ⟨kind, some bytes⟩
  pushed : d.qMessagesIn = c.qMessagesIn
  notified : d.clientValidated = c.clientValidated
  codeOut : d.validatonCodeOut = c.validatonCodeOut
  codeSum : d.validatonCodeSum = c.validatonCodeSum

omit [FullLayout T] in
theorem SameLoop.of_onlyWrites {c d e : Connection T} (same : SameLoop c d)
    (only : OnlyWrites d e) :
    SameLoop c e := by
  obtain ⟨queue, writing, fault, -, rfl⟩ := only
  exact ⟨same.reading, same.pushed, same.notified, same.codeOut, same.codeSum⟩

omit [FullLayout T] in
theorem SameLoop.of_closeSocket {c d : Connection T} (same : SameLoop c d) :
    SameLoop c d.closeSocket :=
  ⟨same.reading, same.pushed, same.notified, same.codeOut, same.codeSum⟩

/-- No other event than the end of a read moves the loop of a server connection. -/
theorem SameLoop.of_act {c d : Connection T} {event : IoEvent T} (serves : Serves c)
    (taken : c.act event = some d) (notDone : event ≠ .readDone) (notFail : event ≠ .readFail) :
    SameLoop c d := by
  have notConnecting : ¬ c.connecting = true := by simp [serves.accepted]
  have refl : SameLoop c c := ⟨.inl rfl, rfl, rfl, rfl, rfl⟩
  cases event with
  | readDone => exact absurd rfl notDone
  | readFail => exact absurd rfl notFail
  | send msg => cases taken; exact ⟨.inl rfl, rfl, rfl, rfl, rfl⟩
  | disconnect =>
      cases taken
      simp only [disconnect]
      split
      · exact ⟨.inl rfl, rfl, rfl, rfl, rfl⟩
      · exact refl
  | socketOpened => exact absurd (act_socketOpened taken).1 notConnecting
  | connected => exact absurd (act_connected taken).1 notConnecting
  | connectFailed => exact absurd (act_connectFailed taken).1 notConnecting
  | runPosted =>
      obtain ⟨lambda, rest, -, rfl⟩ := act_runPosted taken
      have popped : SameLoop c { c with posted := rest } := ⟨.inl rfl, rfl, rfl, rfl, rfl⟩
      cases lambda with
      | close => exact popped.of_closeSocket
      | send msg => exact popped.of_onlyWrites (OnlyWrites.settle_runSend _ msg)
  | arrive piece => obtain ⟨-, rfl⟩ := act_arrive taken; exact ⟨.inl rfl, rfl, rfl, rfl, rfl⟩
  | fill count =>
      obtain ⟨kind, pending, -, -, -, rfl⟩ := act_fill taken
      exact ⟨.inr ⟨kind, _, pending, rfl⟩, rfl, rfl, rfl, rfl⟩
  | transfer index count =>
      obtain ⟨op, -, -, -, -, rfl⟩ := act_transfer taken
      exact ⟨.inl rfl, rfl, rfl, rfl, rfl⟩
  | writeDone index =>
      obtain ⟨kind, -, rfl⟩ := act_writeDone taken
      have erased : SameLoop c { c with writing := c.writing.eraseIdx index } :=
        ⟨.inl rfl, rfl, rfl, rfl, rfl⟩
      by_cases isCode : kind = .validation
      · subst isCode
        rwa [settle_validationWritten_server (c := { c with writing := c.writing.eraseIdx index })
          serves.isServer]
      · exact erased.of_onlyWrites (OnlyWrites.settle_writeDone _ isCode)
  | writeFail index =>
      obtain ⟨op, -, -, rfl⟩ := act_writeFail taken
      exact SameLoop.of_closeSocket ⟨.inl rfl, rfl, rfl, rfl, rfl⟩

/-! ## Where a connection stands -/

/-- What a connection of the server has done, and what is noted of it. -/
inductive Standing (c : Connection T) : List (Note T) → Prop where
  | awaiting (data : Option (List UInt8)) (reading : c.reading = some ⟨.validation, data⟩)
      (unnotified : c.clientValidated = 0) (silent : c.qMessagesIn = []) :
      Standing c [.generated c.validatonCodeOut]
  | admitted (later : List (Note T)) (settled : .rejected ∉ later)
      (loops : ∀ data, c.reading ≠ some ⟨.validation, data⟩) (unnotified : c.clientValidated = 0)
      (pushed : pushedMessages later = c.qMessagesIn) :
      Standing c (.generated c.validatonCodeOut :: .validated c.validatonCodeOut ::
        .readHeader :: later)
  | refused (stopped : c.reading = none) (silent : c.qMessagesIn = []) :
      Standing c [.generated c.validatonCodeOut, .rejected]

structure Admission (c : Connection T) (mine : List (Note T)) : Prop where
  serves : Serves c
  codes : c.validatonCodeSum = scramble c.validatonCodeOut
  standing : Standing c mine

omit [FullLayout T] in
/-- A step that does not end a read notes nothing. -/
theorem SameLoop.loopNotes_eq {c d : Connection T} (same : SameLoop c d) : c.loopNotes d = [] := by
  have noCall : ¬ (d.reading = some ⟨.header, none⟩ ∧ c.reading ≠ some ⟨.header, none⟩) := by
    rintro ⟨now, before⟩
    rcases same.reading with reading | ⟨kind, bytes, -, filled⟩
    · exact before (reading.symm.trans now)
    · cases filled.symm.trans now
  rw [loopNotes, same.pushed, List.drop_length, if_neg noCall]
  rfl

omit [FullLayout T] in
theorem Standing.of_sameLoop {c d : Connection T} {mine : List (Note T)}
    (standing : Standing c mine)
    (same : SameLoop c d) : Standing d mine := by
  cases standing with
  | awaiting data reading unnotified silent =>
      rw [← same.codeOut]
      rcases same.reading with stays | ⟨kind, bytes, pending, filled⟩
      · exact .awaiting data (stays.trans reading) (same.notified.trans unnotified)
          (same.pushed.trans silent)
      · cases pending.symm.trans reading
        exact .awaiting (some bytes) filled (same.notified.trans unnotified)
          (same.pushed.trans silent)
  | admitted later settled loops unnotified pushed =>
      rw [← same.codeOut]
      refine .admitted later settled ?_ (same.notified.trans unnotified)
        (pushed.trans same.pushed.symm)
      intro data reading
      rcases same.reading with stays | ⟨kind, bytes, pending, filled⟩
      · exact loops data (stays.symm.trans reading)
      · cases filled.symm.trans reading
        exact loops none pending
  | refused stopped silent =>
      rw [← same.codeOut]
      rcases same.reading with stays | ⟨kind, bytes, pending, filled⟩
      · exact .refused (stays.trans stopped) (same.pushed.trans silent)
      · cases pending.symm.trans stopped

/-! ## The end of a read -/

/-- What a handler of the loop does: it may push, and it starts the next read. -/
structure LoopsOn (c d : Connection T) : Prop where
  pushed : c.qMessagesIn <+: d.qMessagesIn
  reading : ∃ kind, kind ≠ .validation ∧ d.reading = some ⟨kind, none⟩
  notified : d.clientValidated = c.clientValidated
  codeOut : d.validatonCodeOut = c.validatonCodeOut
  codeSum : d.validatonCodeSum = c.validatonCodeSum

theorem LoopsOn.readDone {c : Connection T} {kind : ReadKind} (ofLoop : kind ≠ .validation)
    (bytes : List UInt8) : LoopsOn c ({ c with reading := none }.readDone kind bytes) := by
  cases kind with
  | validation => exact absurd rfl ofLoop
  | body => exact ⟨List.prefix_append _ _, ⟨.header, by decide, rfl⟩, rfl, rfl, rfl⟩
  | header =>
      simp only [Connection.readDone, headerRead]
      split
      · exact ⟨List.prefix_refl _, ⟨.body, by decide, rfl⟩, rfl, rfl, rfl⟩
      · exact ⟨List.prefix_append _ _, ⟨.header, by decide, rfl⟩, rfl, rfl, rfl⟩

omit [FullLayout T] in
/-- The notes of a handler of the loop are the messages it pushed. -/
theorem LoopsOn.loopNotes {c d : Connection T} (loops : LoopsOn c d) :
    .rejected ∉ c.loopNotes d ∧
      c.qMessagesIn ++ pushedMessages (c.loopNotes d) = d.qMessagesIn := by
  obtain ⟨more, pushed⟩ := loops.pushed
  rw [Connection.loopNotes, ← pushed, List.drop_left]
  refine ⟨?_, ?_⟩
  · split <;> simp
  · split <;> simp [pushedMessages, Note.message?, Function.comp_def]

omit [FullLayout T] in
/-- An admitted connection stays admitted as its loop goes on. -/
theorem LoopsOn.admitted {c d : Connection T} (next : LoopsOn c d) {later : List (Note T)}
    (settled : .rejected ∉ later) (unnotified : c.clientValidated = 0)
    (pushed : pushedMessages later = c.qMessagesIn) :
    Standing d (.generated c.validatonCodeOut :: .validated c.validatonCodeOut ::
      .readHeader :: (later ++ c.loopNotes d)) := by
  obtain ⟨noRejected, account⟩ := next.loopNotes
  obtain ⟨other, notValidation, reading⟩ := next.reading
  rw [← next.codeOut]
  refine .admitted _ (List.not_mem_append settled noRejected) ?_
    (next.notified.trans unnotified) ?_
  · intro data same
    cases reading.symm.trans same
    exact notValidation rfl
  · rw [← account, ← pushed, pushedMessages, pushedMessages, List.filterMap_append]
    rfl

/-- `Validaton_code_in` after the bytes were read. -/
def codeRead (c : Connection T) (bytes : List UInt8) : UInt64 :=
  ofBytes (bytes ++ (toBytes c.validatonCodeIn).drop bytes.length)

omit [FullLayout T] in
theorem validatonCodeIn_validationRead (c : Connection T) (bytes : List UInt8) :
    (c.validationRead bytes).validatonCodeIn = c.codeRead bytes := by
  simp only [validationRead]
  split
  · split <;> rfl
  · rfl

omit [FullLayout T] in
/-- The right code starts the loop. -/
theorem validationRead_right {c : Connection T} {bytes : List UInt8}
    (isServer : c.ownerType = .server)
    (right : c.codeRead bytes = c.validatonCodeSum) :
    c.validationRead bytes =
      { c with validatonCodeIn := c.codeRead bytes, reading := some ⟨.header, none⟩ } := by
  cases c
  cases isServer
  exact if_pos right

omit [FullLayout T] in
/-- Another code closes the socket and calls `OnClientValidated`. -/
theorem validationRead_wrong {c : Connection T} {bytes : List UInt8}
    (isServer : c.ownerType = .server)
    (wrong : c.codeRead bytes ≠ c.validatonCodeSum) :
    c.validationRead bytes = { c.closeSocket with
      validatonCodeIn := c.codeRead bytes, clientValidated := c.clientValidated + 1 } := by
  cases c
  cases isServer
  exact if_neg wrong

/-- The handlers of reads leave the code of a server and its sum alone. -/
theorem codes_readDone (c : Connection T) (kind : ReadKind) (bytes : List UInt8)
    (isServer : c.ownerType = .server) :
    ({ c with reading := none }.readDone kind bytes).validatonCodeOut = c.validatonCodeOut ∧
      ({ c with reading := none }.readDone kind bytes).validatonCodeSum = c.validatonCodeSum := by
  by_cases isCode : kind = .validation
  · subst isCode
    simp only [Connection.readDone, Connection.validationRead, isServer]
    split <;> exact ⟨rfl, rfl⟩
  · have loops := LoopsOn.readDone (c := c) isCode bytes
    exact ⟨loops.codeOut, loops.codeSum⟩

omit [FullLayout T] in
/-- `ReadValidation` ends with a code. -/
theorem Standing.readCode {c : Connection T} {bytes : List UInt8} (isServer : c.ownerType = .server)
    (codes : c.validatonCodeSum = scramble c.validatonCodeOut)
    (full : c.reading = some ⟨.validation, some bytes⟩) (unnotified : c.clientValidated = 0)
    (silent : c.qMessagesIn = []) :
    Standing ({ c with reading := none }.validationRead bytes)
      ([.generated c.validatonCodeOut] ++
        (c.codeNotes .readDone ++
          c.loopNotes ({ c with reading := none }.validationRead bytes))) := by
  have noted : c.codeNotes .readDone =
      if c.codeRead bytes = c.validatonCodeSum then [.validated c.validatonCodeOut]
      else [.rejected] := by
    simp only [codeNotes, full, validatonCodeIn_validationRead, codes]
  rw [noted]
  by_cases right : c.codeRead bytes = c.validatonCodeSum
  · have read := validationRead_right (c := { c with reading := none }) isServer right
    have looped : c.loopNotes ({ c with reading := none }.validationRead bytes) =
      [.readHeader] := by
      rw [read, loopNotes, full]
      simp [silent]
    rw [if_pos right, looped, read]
    exact .admitted [] nofun nofun unnotified silent.symm
  · have read := validationRead_wrong (c := { c with reading := none }) isServer right
    have looped : c.loopNotes ({ c with reading := none }.validationRead bytes) = [] := by
      rw [read, loopNotes, full]
      simp [silent, closeSocket]
    rw [if_neg right, looped, read]
    exact .refused rfl silent

/-- Every read that ends leaves the connection standing somewhere. -/
theorem Standing.readDone {c : Connection T} {mine : List (Note T)} {kind : ReadKind}
    {bytes : List UInt8} (standing : Standing c mine) (isServer : c.ownerType = .server)
    (codes : c.validatonCodeSum = scramble c.validatonCodeOut)
    (full : c.reading = some ⟨kind, some bytes⟩) :
    Standing ({ c with reading := none }.readDone kind bytes)
      (mine ++ (c.codeNotes .readDone ++
        c.loopNotes ({ c with reading := none }.readDone kind bytes))) := by
  cases standing with
  | awaiting data reading unnotified silent =>
      cases full.symm.trans reading
      exact .readCode isServer codes full unnotified silent
  | admitted later settled loops unnotified pushed =>
      have ofLoop : kind ≠ .validation := by
        rintro rfl
        exact loops _ full
      have noCode : c.codeNotes .readDone = [] := by
        cases kind with
        | validation => exact absurd rfl ofLoop
        | _ => simp only [codeNotes, full]
      have next := LoopsOn.readDone (c := c) ofLoop bytes
      rw [noCode]
      exact next.admitted settled unnotified pushed
  | refused stopped => cases full.symm.trans stopped

omit [FullLayout T] in
/-- A read that fails closes the socket, and the connection is refused if it was that of the
code. -/
theorem Standing.readFail {c : Connection T} {mine : List (Note T)} {kind : ReadKind}
    (standing : Standing c mine) (pending : c.reading = some ⟨kind, none⟩) :
    Standing { c with reading := none }.closeSocket
      (mine ++ (c.codeNotes .readFail ++ c.loopNotes { c with reading := none }.closeSocket)) := by
  have looped : c.loopNotes { c with reading := none }.closeSocket = [] := by
    simp [loopNotes, closeSocket]
  rw [looped, List.append_nil]
  cases standing with
  | awaiting data reading unnotified silent =>
      cases pending.symm.trans reading
      have noted : c.codeNotes .readFail = [.rejected] := by simp only [codeNotes, pending]
      rw [noted]
      exact .refused rfl silent
  | admitted later settled loops unnotified pushed =>
      have noted : c.codeNotes .readFail = [] := by
        cases kind with
        | validation => exact absurd pending (loops none)
        | _ => simp only [codeNotes, pending]
      rw [noted, List.append_nil]
      refine .admitted later settled ?_ unnotified pushed
      intro data reading
      cases reading
  | refused stopped => cases pending.symm.trans stopped

/-- **Every step of a server connection is noted.** -/
theorem Admission.step {c d : Connection T} {mine : List (Note T)} {event : IoEvent T}
    (admission : Admission c mine) (taken : c.step event = some d) :
    Admission d (mine ++ c.notes event) := by
  have serves := (admission.serves.step taken).1
  have noted : c.notes event = c.codeNotes event ++ c.loopNotes d := by
    simp only [notes, taken]
  have isServer := admission.serves.isServer
  obtain ⟨-, acted⟩ := step_eq_some taken
  rw [noted]
  by_cases isDone : event = .readDone
  · subst isDone
    obtain ⟨kind, bytes, full, rfl⟩ := act_readDone acted
    refine ⟨serves, ?_, admission.standing.readDone isServer admission.codes full⟩
    obtain ⟨sameOut, sameSum⟩ := codes_readDone c kind bytes isServer
    rw [sameOut, sameSum]
    exact admission.codes
  · by_cases isFail : event = .readFail
    · subst isFail
      obtain ⟨kind, pending, rfl⟩ := act_readFail acted
      exact ⟨serves, admission.codes, admission.standing.readFail pending⟩
    · have same := SameLoop.of_act admission.serves acted isDone isFail
      have noCode : c.codeNotes event = [] := by
        cases event with
        | readDone => exact absurd rfl isDone
        | readFail => exact absurd rfl isFail
        | _ => rfl
      rw [noCode, same.loopNotes_eq, List.append_nil, List.append_nil]
      exact ⟨serves, same.codeSum.trans (admission.codes.trans (by rw [same.codeOut])),
        admission.standing.of_sameLoop same⟩

/-- A connection that was accepted has generated its code and awaits the reply. -/
theorem admission_accept [Inhabited T] (clock : UInt64) (welcome : List (Message T))
    (uid : UInt32) :
    Admission (accept clock welcome uid)
      [.generated (construct .server true clock : Connection T).validatonCodeOut] := by
  refine ⟨serves_accept clock welcome uid, ?_, ?_⟩
  · rw [accept_eq]
    rfl
  · rw [accept_eq]
    exact .awaiting none rfl rfl rfl

/-- `Send` changes nothing that is noted. -/
theorem Admission.foldl_send {c : Connection T} {mine : List (Note T)}
    (admission : Admission c mine) (msgs : List (Message T)) :
    Admission (msgs.foldl send c) mine := by
  rw [Connection.foldl_send]
  refine ⟨admission.serves.congr (.of_same rfl rfl rfl rfl rfl rfl rfl),
    admission.codes, ?_⟩
  exact admission.standing.of_sameLoop ⟨.inl rfl, rfl, rfl, rfl, rfl⟩

omit [FullLayout T] in
/-- What is pushed is pushed behind the right code, and what was rejected pushes nothing. -/
theorem Standing.validated_before {c : Connection T} {mine before after : List (Note T)}
    {msg : Message T} (standing : Standing c mine)
    (splits : mine = before ++ .pushed msg :: after) :
    [.generated c.validatonCodeOut, .validated c.validatonCodeOut] <+: before := by
  have member : .pushed msg ∈ mine := by simp [splits]
  cases standing with
  | awaiting => simp at member
  | refused => simp at member
  | admitted later settled loops unnotified pushed =>
      rcases before with - | ⟨first, - | ⟨second, before⟩⟩
      · cases splits
      · cases splits
      · obtain ⟨rfl, rest⟩ := List.cons.inj splits
        obtain ⟨rfl, -⟩ := List.cons.inj rest
        exact ⟨before, rfl⟩

omit [FullLayout T] in
theorem Standing.rejected_silent {c : Connection T} {mine : List (Note T)}
    (standing : Standing c mine) (isRejected : .rejected ∈ mine) (msg : Message T) :
    .pushed msg ∉ mine := by
  cases standing with
  | awaiting => simp
  | refused => simp
  | admitted later settled => simp [settled] at isRejected

omit [FullLayout T] in
/-- What the connection has pushed is noted. -/
theorem Standing.pushed_noted {c : Connection T} {mine : List (Note T)} {msg : Message T}
    (standing : Standing c mine) (member : msg ∈ c.qMessagesIn) : .pushed msg ∈ mine := by
  cases standing with
  | awaiting data reading unnotified silent => rw [silent] at member; cases member
  | refused stopped silent => rw [silent] at member; cases member
  | admitted later settled loops unnotified pushed =>
      rw [← pushed] at member
      obtain ⟨note, among, same⟩ := List.mem_filterMap.mp member
      cases note with
      | pushed other =>
          cases same
          exact List.mem_cons_of_mem _ (List.mem_cons_of_mem _ (List.mem_cons_of_mem _ among))
      | generated code => cases same
      | validated code => cases same
      | rejected => cases same
      | readHeader => cases same

/-! ## Notifications -/

/-- `OnClientValidated` was called once if the loop was started and never otherwise, and never
for a connection that was rejected. -/
structure Notified (c : Connection T) (mine : List (Note T)) : Prop where
  once : .readHeader ∈ mine → c.clientValidated = 1
  notOther : .readHeader ∉ mine → c.clientValidated = 0
  notRejected : .rejected ∈ mine → c.clientValidated = 0

omit [FullLayout T] in
/-- Before the loop starts, being notified is not having been called. -/
theorem notified_iff_of_not_started {c : Connection T} {mine : List (Note T)}
    (notStarted : .readHeader ∉ mine) : Notified c mine ↔ c.clientValidated = 0 := by
  constructor
  · exact fun notified => notified.notOther notStarted
  · intro unnotified
    exact ⟨fun started => absurd started notStarted, fun _ => unnotified, fun _ => unnotified⟩

omit [FullLayout T] in
theorem Standing.not_notified {c : Connection T} {mine : List (Note T)} (standing : Standing c mine)
    (started : .readHeader ∈ mine) : ¬ Notified c mine := by
  intro notified
  have once := notified.once started
  cases standing with
  | awaiting => simp at started
  | refused => simp at started
  | admitted later settled loops unnotified => exact absurd (unnotified.symm.trans once) (by decide)

omit [FullLayout T] in
/-- The branch of the right code starts the loop and is not reported, the branch of another
code is reported and starts no loop. -/
theorem Standing.not_notified_after_code {c : Connection T} {mine : List (Note T)}
    (standing : Standing c mine)
    (branch : c.reading = some ⟨.header, none⟩ ∨ c.clientValidated ≠ 0) : ¬ Notified c mine := by
  cases standing with
  | awaiting data reading unnotified =>
      rcases branch with started | called
      · cases started.symm.trans reading
      · exact absurd unnotified called
  | admitted later settled loops unnotified pushed =>
      exact (Standing.admitted later settled loops unnotified pushed).not_notified (by simp)
  | refused stopped =>
      rcases branch with started | called
      · cases started.symm.trans stopped
      · rw [notified_iff_of_not_started (by simp)]
        exact called

/-- A step of a connection that was neither reported nor started keeps this, if it ends no
read of a code. -/
theorem Admission.unreported {c d : Connection T} {mine : List (Note T)} {event : IoEvent T}
    (admission : Admission c mine) (taken : c.act event = some d)
    (notStarted : .readHeader ∉ mine) (noAnswer : ¬ HandlesCode c event) :
    d.clientValidated = c.clientValidated ∧ .readHeader ∉ c.codeNotes event ++ c.loopNotes d := by
  by_cases isDone : event = .readDone
  · subst isDone
    obtain ⟨kind, bytes, full, rfl⟩ := act_readDone taken
    cases admission.standing with
    | awaiting data reading =>
        cases full.symm.trans reading
        exact absurd ⟨rfl, bytes, full⟩ noAnswer
    | admitted => simp at notStarted
    | refused stopped => cases full.symm.trans stopped
  · by_cases isFail : event = .readFail
    · subst isFail
      obtain ⟨kind, pending, rfl⟩ := act_readFail taken
      refine ⟨rfl, ?_⟩
      cases kind <;> simp [codeNotes, loopNotes, pending, closeSocket]
    · have same := SameLoop.of_act admission.serves taken isDone isFail
      refine ⟨same.notified, ?_⟩
      rw [same.loopNotes_eq, List.append_nil]
      cases event with
      | readDone => exact absurd rfl isDone
      | readFail => exact absurd rfl isFail
      | _ => simp [codeNotes]

/-- **Of a connection that was reported as it was admitted, exactly the ends of
`ReadValidation` without error are not.** -/
theorem Admission.notified_step_iff {c d : Connection T} {mine : List (Note T)} {event : IoEvent T}
    (admission : Admission c mine) (before : Notified c mine) (taken : c.step event = some d) :
    Notified d (mine ++ c.notes event) ↔ ¬ HandlesCode c event := by
  have after := admission.step taken
  have notStarted : .readHeader ∉ mine :=
    fun started => admission.standing.not_notified started before
  have noted : c.notes event = c.codeNotes event ++ c.loopNotes d := by
    simp only [notes, taken]
  obtain ⟨-, acted⟩ := step_eq_some taken
  constructor
  · rintro notified ⟨rfl, bytes, answered⟩
    obtain ⟨kind, other, full, rfl⟩ := act_readDone acted
    cases full.symm.trans answered
    have isServer := admission.serves.isServer
    refine after.standing.not_notified_after_code ?_ notified
    by_cases right : c.codeRead bytes = c.validatonCodeSum
    · refine .inl ?_
      rw [Connection.readDone,
        validationRead_right (c := { c with reading := none }) isServer right]
    · refine .inr ?_
      rw [Connection.readDone,
        validationRead_wrong (c := { c with reading := none }) isServer right]
      exact Nat.succ_ne_zero _
  · intro noAnswer
    obtain ⟨sameCalls, noStart⟩ := admission.unreported acted notStarted noAnswer
    rw [notified_iff_of_not_started notStarted] at before
    rw [noted, notified_iff_of_not_started (List.not_mem_append notStarted noStart), sameCalls]
    exact before

end Connection

namespace ChatServer

open Connection (Note Admission)

/-! ## The log of the server -/

/-- What a step of the server notes, each with its connection. -/
def noted (s : ChatServer) : Event → List (ConnectionPtr × Note CustomMsgTypes)
  | .accept clock =>
      [(s.connections.length,
        .generated
          (Connection.construct .server true clock : Connection CustomMsgTypes).validatonCodeOut)]
  | .io client event =>
      match s.connections[client]? with
      | some c => (c.notes event).map fun note => (client, note)
      | none => []
  | .update => []

/-- Every connection stands where its notes say. -/
structure Recorded (s : ChatServer) (log : List (ConnectionPtr × Note CustomMsgTypes)) : Prop where
  sound : Sound s
  admission : ∀ (client : ConnectionPtr) (c : Connection CustomMsgTypes),
    s.connections[client]? = some c → Admission c (entriesOf client log)
  known : ∀ entry ∈ log, entry.1 < s.connections.length

theorem recorded_start : Recorded start [] where
  sound := sound_start
  admission := by simp [start]
  known := nofun

theorem Recorded.step {s next : ChatServer} {log : List (ConnectionPtr × Note CustomMsgTypes)}
    {event : Event} (recorded : Recorded s log) (taken : s.step event = some next) :
    Recorded next (log ++ s.noted event) := by
  have sound := recorded.sound.step taken
  obtain ⟨-, taken⟩ := step_eq_some taken
  cases event with
  | accept clock =>
      cases taken
      refine ⟨sound, ?_, ?_⟩
      · intro client c found
        rcases getElem?_concat found with ⟨before, old⟩ | ⟨rfl, rfl⟩
        · rw [noted, entriesOf_concat_other before.ne']
          exact recorded.admission client c old
        · rw [noted, entriesOf_concat_self,
            entriesOf_eq_nil fun entry member => (recorded.known entry member).ne]
          exact Connection.admission_accept clock _ _
      · intro entry member
        rw [ChatServer.accept, List.length_append, List.length_singleton]
        rcases List.mem_append.mp member with old | new
        · exact Nat.lt_succ_of_lt (recorded.known entry old)
        · rw [List.mem_singleton.mp new]
          exact Nat.lt_succ_self _
  | io client event =>
      obtain ⟨c, d, found, -, moved, rfl⟩ := act_io taken
      have notes : s.noted (.io client event) = (c.notes event).map fun note => (client, note) := by
        simp only [noted, found]
      rw [notes]
      refine ⟨sound, ?_, ?_⟩
      · intro other e at_
        rw [entriesOf_append]
        rw [List.getElem?_set] at at_
        split at at_
        case isTrue same =>
          subst same
          rw [if_pos (List.getElem?_eq_some_iff.mp found).1] at at_
          cases at_
          rw [entriesOf_own]
          exact (recorded.admission client c found).step moved
        case isFalse differs =>
          rw [entriesOf_other differs, List.append_nil]
          exact recorded.admission other e at_
      · intro entry member
        rw [List.length_set]
        rcases List.mem_append.mp member with old | new
        · exact recorded.known entry old
        · obtain ⟨note, -, rfl⟩ := List.mem_map.mp new
          exact (List.getElem?_eq_some_iff.mp found).1
  | update =>
      obtain ⟨client, msg, later, queue, rfl⟩ := act_update taken
      rw [noted, List.append_nil]
      rcases handle_cases s client msg later with ⟨server, calls, -, handled⟩ | ⟨fault, -, failed⟩
      · rw [handled] at sound ⊢
        refine ⟨sound, ?_, ?_⟩
        · intro other e at_
          rw [List.getElem?_mapIdx] at at_
          obtain ⟨c, found, rfl⟩ := Option.map_eq_some_iff.mp at_
          exact (recorded.admission other c found).foldl_send _
        · intro entry member
          rw [List.length_mapIdx]
          exact recorded.known entry member
      · rw [failed] at sound ⊢
        exact ⟨sound, recorded.admission, recorded.known⟩

theorem recorded_of_run {events : List Event} {s : ChatServer}
    {log : List (ConnectionPtr × Note CustomMsgTypes)}
    (run : runFrom (logged step noted) (start, []) events = some (s, log)) : Recorded s log := by
  have keeps : ∀ (state : ChatServer × List (ConnectionPtr × Note CustomMsgTypes)) event next,
      Recorded state.1 state.2 → logged step noted state event = some next →
        Recorded next.1 next.2 := by
    intro state event next recorded taken
    obtain ⟨moved, written⟩ := logged_eq_some taken
    rw [written]
    exact recorded.step moved
  exact invariant_of_run keeps recorded_start run

/-- **Only those whose code was right are heard**: what is pushed comes behind the right code
of its connection, nothing comes from a connection that was rejected, and what `OnMessage` was
or will be called with was pushed. -/
theorem only_admitted_are_heard {events : List Event} {s : ChatServer}
    (run : runFrom step start events = some s) :
    ∃ log, runFrom (logged step noted) (start, []) events = some (s, log) ∧
      (∀ client before msg after, entriesOf client log = before ++ .pushed msg :: after →
        ∃ code, [.generated code, .validated code] <+: before) ∧
      (∀ client, .rejected ∈ entriesOf client log → ∀ msg, .pushed msg ∉ entriesOf client log) ∧
      ∀ entry ∈ s.handled ++ s.qMessagesIn, .pushed entry.2 ∈ entriesOf entry.1 log := by
  obtain ⟨log, written⟩ : ∃ log,
      runFrom (logged step noted) (start, []) events = some (s, [] ++ log) :=
    exists_log_of_run [] run
  rw [List.nil_append] at written
  have recorded := recorded_of_run written
  have ofNote : ∀ (client : ConnectionPtr) (note : Note CustomMsgTypes),
      note ∈ entriesOf client log →
      ∃ c, s.connections[client]? = some c ∧ Admission c (entriesOf client log) := by
    intro client note member
    have found := List.getElem?_eq_getElem (recorded.known _ (mem_entriesOf.mp member))
    exact ⟨_, found, recorded.admission client _ found⟩
  refine ⟨log, written, ?_, ?_, ?_⟩
  · intro client before msg after splits
    obtain ⟨c, -, admission⟩ := ofNote client (.pushed msg) (by simp [splits])
    exact ⟨_, admission.standing.validated_before splits⟩
  · intro client isRejected msg
    obtain ⟨c, -, admission⟩ := ofNote client .rejected isRejected
    exact admission.standing.rejected_silent isRejected msg
  · rintro ⟨client, msg⟩ member
    have found := List.getElem?_eq_getElem (recorded.sound.knownMessages _ member)
    refine (recorded.admission client _ found).standing.pushed_noted ?_
    rw [← recorded.sound.queue client _ found]
    exact mem_entriesOf.mpr member

/-- A client is accepted and answers its code. -/
def answer (code : UInt64) : List Event :=
  [.accept 0, .io 0 (.arrive (toBytes code)), .io 0 (.fill 8), .io 0 .readDone]

/-- With the right code, it asks for the list. -/
def listAfterCode : List Event :=
  answer (Connection.scramble 0) ++
    [.io 0 (.arrive (frameBytes (Message.ofType CustomMsgTypes.clientList).frame)), .io 0 (.fill 8),
      .io 0 .readDone, .update]

theorem heard_after_code :
    ∃ s log, runFrom (logged step noted) (start, []) listAfterCode = some (s, log) ∧
      s.handled.length = 1 ∧ ∀ entry ∈ s.handled, .pushed entry.2 ∈ entriesOf entry.1 log := by
  have run := Option.some_get (by decide : (runFrom step start listAfterCode).isSome = true)
  obtain ⟨log, written, -, -, heard⟩ := only_admitted_are_heard run.symm
  refine ⟨_, log, written, by decide, ?_⟩
  exact fun entry member => heard entry (List.mem_append_left _ member)

/-! ## What `OnClientValidated` reports -/

/-- `OnClientValidated` reports exactly the connections whose loop was started. -/
def ReportsAdmitted (state : ChatServer × List (ConnectionPtr × Note CustomMsgTypes)) : Prop :=
  ∀ (client : ConnectionPtr) (c : Connection CustomMsgTypes),
    state.1.connections[client]? = some c →
    Connection.Notified c (entriesOf client state.2)

/-- `ReadValidation` of a connection ends without error. -/
def Answers (s : ChatServer) : Event → Prop
  | .io client event => ∃ c, s.connections[client]? = some c ∧ Connection.HandlesCode c event
  | _ => False

theorem Recorded.reportsAdmitted_step_iff {s next : ChatServer}
    {log : List (ConnectionPtr × Note CustomMsgTypes)} {event : Event} (recorded : Recorded s log)
    (before : ReportsAdmitted (s, log)) (taken : s.step event = some next) :
    ReportsAdmitted (next, log ++ s.noted event) ↔ ¬ Answers s event := by
  obtain ⟨-, taken⟩ := step_eq_some taken
  cases event with
  | accept clock =>
      cases taken
      refine iff_of_true ?_ nofun
      intro client c found
      rcases getElem?_concat found with ⟨known, old⟩ | ⟨rfl, rfl⟩
      · rw [noted, entriesOf_concat_other known.ne']
        exact before client c old
      · rw [noted, entriesOf_concat_self,
          entriesOf_eq_nil fun entry member => (recorded.known entry member).ne,
          Connection.notified_iff_of_not_started (by simp), Connection.accept_eq]
        rfl
  | io client event =>
      obtain ⟨c, d, found, -, moved, rfl⟩ := act_io taken
      have notes : s.noted (.io client event) = (c.notes event).map fun note => (client, note) := by
        simp only [noted, found]
      have ofClient : Answers s (.io client event) ↔ Connection.HandlesCode c event := by
        simp only [Answers, found, Option.some.injEq, exists_eq_left']
      rw [notes, ofClient,
        ← (recorded.admission client c found).notified_step_iff (before client c found) moved]
      constructor
      · intro reports
        have own := reports client d
          (List.getElem?_set_self (List.getElem?_eq_some_iff.mp found).1)
        rwa [entriesOf_append, entriesOf_own] at own
      · intro notified other e at_
        rw [entriesOf_append]
        rw [List.getElem?_set] at at_
        split at at_
        case isTrue same =>
          subst same
          rw [if_pos (List.getElem?_eq_some_iff.mp found).1] at at_
          cases at_
          rwa [entriesOf_own]
        case isFalse differs =>
          rw [entriesOf_other differs, List.append_nil]
          exact before other e at_
  | update =>
      obtain ⟨client, msg, later, queue, rfl⟩ := act_update taken
      refine iff_of_true ?_ nofun
      rw [noted, List.append_nil]
      rcases handle_cases s client msg later with ⟨server, calls, -, handled⟩ | ⟨fault, -, failed⟩
      · rw [handled]
        intro other e at_
        rw [List.getElem?_mapIdx] at at_
        obtain ⟨c, found, rfl⟩ := Option.map_eq_some_iff.mp at_
        have same : (giveAll calls other c).clientValidated = c.clientValidated := by
          rw [giveAll, Connection.foldl_send]
        have notified := before other c found
        exact ⟨fun started => same.trans (notified.once started),
          fun notStarted => same.trans (notified.notOther notStarted),
          fun isRejected => same.trans (notified.notRejected isRejected)⟩
      · rw [failed]
        exact before

/-- **`OnClientValidated` reports the admitted connections throughout a run exactly when no
`ReadValidation` of the run ends without error**: with the right code it is not called, with
another one it is. -/
theorem reportsAdmitted_iff {events : List Event}
    {final : ChatServer × List (ConnectionPtr × Note CustomMsgTypes)}
    (run : runFrom (logged step noted) (start, []) events = some final) :
    Throughout (logged step noted) ReportsAdmitted (start, []) events ↔
      Meets (logged step noted) (fun state event => ¬ Answers state.1 event) (start, [])
        events := by
  have keeps : ∀ (state : ChatServer × List (ConnectionPtr × Note CustomMsgTypes)) event next,
      Recorded state.1 state.2 → logged step noted state event = some next →
        Recorded next.1 next.2 := by
    intro state event next recorded taken
    obtain ⟨moved, written⟩ := logged_eq_some taken
    rw [written]
    exact recorded.step moved
  refine throughout_iff_meets keeps ?_ recorded_start ?_ (fun _ _ => trivial) run
  · rintro ⟨s, log⟩ event ⟨next, written⟩ recorded before - taken
    obtain ⟨moved, rfl⟩ := logged_eq_some taken
    exact recorded.reportsAdmitted_step_iff before moved
  · intro client c found
    simp [start] at found

instance (s : ChatServer) (event : Event) : Decidable (Answers s event) := by
  apply Event.casesOn (motive := fun event => Decidable (Answers s event)) event
  all_goals
    intros
    unfold Answers
  case io client event => exact inferInstanceAs (Decidable (∃ c ∈ s.connections[client]?, _))
  all_goals infer_instance

/-- A client is accepted and hangs up. -/
def hangUp : List Event := [.accept 0, .io 0 .readFail]

theorem reportsAdmitted_hangUp :
    Throughout (logged step noted) ReportsAdmitted (start, []) hangUp :=
  (reportsAdmitted_iff (Option.some_get
    (by decide : (runFrom (logged step noted) (start, []) hangUp).isSome = true)).symm).mpr
      (by decide)

/-- The right code starts the loop and is not reported, and another code is reported. -/
theorem answers_misreported :
    (∃ final,
      runFrom (logged step noted) (start, []) (answer (Connection.scramble 0)) = some final ∧
      ¬ ReportsAdmitted final) ∧
    ∃ final, runFrom (logged step noted) (start, []) (answer 0) = some final ∧
      ¬ ReportsAdmitted final := by
  constructor
  · refine ⟨(runFrom (logged step noted) (start, []) (answer (Connection.scramble 0))).get
      (by decide),
      (Option.some_get _).symm, ?_⟩
    intro reports
    exact absurd ((reports 0 _ rfl).once (by decide)) (by decide)
  · refine ⟨(runFrom (logged step noted) (start, []) (answer 0)).get (by decide),
      (Option.some_get _).symm, ?_⟩
    intro reports
    exact absurd ((reports 0 _ rfl).notRejected (by decide)) (by decide)

end ChatServer

end NetworkChat
