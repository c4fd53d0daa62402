import NetworkChat.Connection.Handshaking

/-!
# A connection of the server

The peer of a connection of the server may send anything, and the operations of the
connection may fail at any time. `Serves` is what the connection keeps all the same
(`Serves.step`): it has read nothing, or its loop stands in the stream that follows the
handshake. So what it has pushed is what the loop makes of some frames
(`Serves.receives`).
-/

set_option autoImplicit false

namespace NetworkChat

open Foundation

namespace Connection

variable {T : Type}

/-- What a connection of the server keeps, whatever its peer does: nothing was read
before the loop started, and the loop stands in the stream that follows. -/
structure Serves [FullLayout T] (c : Connection T) : Prop where
  isServer : c.ownerType = .server
  accepted : c.connecting = false
  reads : (Untouched c ∧ (c.reading = none ∨ ∃ data, c.reading = some ⟨.validation, data⟩)) ∨
    ∃ stream, Reads stream c

/-- A step goes on from a connection: its id stays, it stays closed, and messages are
only added to those it has pushed. -/
structure GoesOn (c d : Connection T) : Prop where
  id : d.id = c.id
  closed : d.isOpen = true → c.isOpen = true
  pushed : c.qMessagesIn <+: d.qMessagesIn

variable [FullLayout T]

theorem serves_accept [Inhabited T] (clock : UInt64) (welcome : List (Message T)) (uid : UInt32) :
    Serves (accept clock welcome uid) := by
  rw [accept_eq]
  exact ⟨rfl, rfl, .inl ⟨⟨rfl, rfl⟩, .inr ⟨none, rfl⟩⟩⟩

/-- What the loop does not work on may change. -/
theorem Serves.congr {c d : Connection T} (serves : Serves c) (same : SameReads c d) :
    Serves d := by
  refine ⟨same.ownerType.trans serves.isServer, same.connecting serves.accepted, ?_⟩
  rcases serves.reads with ⟨untouched, before⟩ | ⟨stream, reads⟩
  · refine .inl ⟨?_, ?_⟩
    · rw [Untouched, same.buffer, same.queue]
      exact untouched
    · rw [same.reading]
      exact before
  · exact .inr ⟨stream, reads.congr same⟩

theorem Serves.handshakeOver {c : Connection T} (serves : Serves c) : HandshakeOver c :=
  ⟨serves.accepted, fun isClient => absurd (serves.isServer.symm.trans isClient) (by decide)⟩

/-- The handler of a filled read. -/
theorem Serves.readDone {c : Connection T} {kind : ReadKind} {bytes : List UInt8}
    (serves : Serves c) (full : c.reading = some ⟨kind, some bytes⟩) :
    Serves ({ c with reading := none }.readDone kind bytes) ∧
      GoesOn c ({ c with reading := none }.readDone kind bytes) := by
  rcases serves.reads with ⟨untouched, before⟩ | ⟨stream, reads⟩
  · obtain rfl : kind = .validation := by
      rcases before with noRead | ⟨data, reading⟩
      · rw [full] at noRead
        cases noRead
      · rw [full] at reading
        cases reading
        rfl
    simp only [Connection.readDone, validationRead, serves.isServer]
    split
    · have started := reads_start (c := { c with
        validatonCodeIn := ofBytes (bytes ++ (toBytes c.validatonCodeIn).drop bytes.length) })
        ⟨serves.handshakeOver.connected, serves.handshakeOver.replied⟩ untouched
      refine ⟨⟨rfl, serves.accepted, .inr ⟨c.inbox, ?_⟩⟩, rfl, fun isOpen => isOpen,
        List.prefix_refl _⟩
      have isServer := serves.isServer
      rw [← isServer]
      exact started
    · exact ⟨⟨rfl, rfl, .inl ⟨untouched, .inl rfl⟩⟩, rfl, by simp [closeSocket], List.prefix_refl _⟩
  · have next := reads.readDone full
    refine ⟨⟨?_, next.isOver.connected, .inr ⟨stream, next⟩⟩, ?_⟩
    · cases kind with
      | validation => simp only [Connection.readDone, validationRead, serves.isServer]; split <;>
            rfl
      | body => exact serves.isServer
      | header => simp only [Connection.readDone, headerRead]; split <;> exact serves.isServer
    · cases kind with
      | validation =>
          simp only [Connection.readDone, validationRead, serves.isServer]
          split
          · exact ⟨rfl, fun isOpen => isOpen, List.prefix_refl _⟩
          · exact ⟨rfl, by simp [closeSocket], List.prefix_refl _⟩
      | body => exact ⟨rfl, fun isOpen => isOpen, List.prefix_append _ _⟩
      | header =>
          simp only [Connection.readDone, headerRead]
          split
          · exact ⟨rfl, fun isOpen => isOpen, List.prefix_refl _⟩
          · exact ⟨rfl, fun isOpen => isOpen, List.prefix_append _ _⟩

omit [FullLayout T] in
theorem GoesOn.of_onlyWrites {c d e : Connection T} (same : GoesOn c d) (only : OnlyWrites d e) :
    GoesOn c e := by
  obtain ⟨queue, writing, fault, -, rfl⟩ := only
  exact ⟨same.id, same.closed, same.pushed⟩

omit [FullLayout T] in
theorem GoesOn.of_closeSocket {c d : Connection T} (same : GoesOn c d) : GoesOn c d.closeSocket :=
  ⟨same.id, nofun, same.pushed⟩

/-- **Every event keeps a connection of the server.** -/
theorem Serves.step {c d : Connection T} {event : IoEvent T} (serves : Serves c)
    (taken : c.step event = some d) : Serves d ∧ GoesOn c d := by
  obtain ⟨-, taken⟩ := step_eq_some taken
  have isOver := serves.handshakeOver
  have notConnecting : ¬ c.connecting = true := by simp [serves.accepted]
  cases event with
  | send msg =>
      refine ⟨serves.congr (SameReads.of_act isOver taken not_false), ?_⟩
      cases taken
      exact ⟨rfl, fun isOpen => isOpen, List.prefix_refl _⟩
  | disconnect =>
      refine ⟨serves.congr (SameReads.of_act isOver taken not_false), ?_⟩
      cases taken
      simp only [disconnect]
      split <;> exact ⟨rfl, fun isOpen => isOpen, List.prefix_refl _⟩
  | socketOpened => exact absurd (act_socketOpened taken).1 notConnecting
  | connected => exact absurd (act_connected taken).1 notConnecting
  | connectFailed => exact absurd (act_connectFailed taken).1 notConnecting
  | runPosted =>
      refine ⟨serves.congr (SameReads.of_act isOver taken not_false), ?_⟩
      obtain ⟨lambda, rest, -, rfl⟩ := act_runPosted taken
      have same : GoesOn c { c with posted := rest } :=
        ⟨rfl, fun isOpen => isOpen, List.prefix_refl _⟩
      cases lambda with
      | close => exact same.of_closeSocket
      | send msg => exact same.of_onlyWrites (OnlyWrites.settle_runSend _ msg)
  | arrive piece =>
      obtain ⟨-, rfl⟩ := act_arrive taken
      refine ⟨⟨serves.isServer, serves.accepted, ?_⟩, rfl, fun isOpen => isOpen, List.prefix_refl _⟩
      refine serves.reads.imp (fun before => before) ?_
      rintro ⟨stream, reads⟩
      exact ⟨_, reads.arrive piece⟩
  | fill count =>
      obtain ⟨kind, pending, -, may, within, rfl⟩ := act_fill taken
      refine ⟨⟨serves.isServer, serves.accepted, ?_⟩, rfl, fun isOpen => isOpen, List.prefix_refl _⟩
      refine serves.reads.imp ?_ ?_
      · rintro ⟨untouched, noRead | ⟨data, reading⟩⟩
        · rw [pending] at noRead
          cases noRead
        · rw [pending] at reading
          cases reading
          exact ⟨untouched, .inr ⟨_, rfl⟩⟩
      · rintro ⟨stream, reads⟩
        exact ⟨stream, reads.fill pending may within⟩
  | readDone =>
      obtain ⟨kind, bytes, full, rfl⟩ := act_readDone taken
      exact serves.readDone full
  | readFail =>
      obtain ⟨kind, pending, rfl⟩ := act_readFail taken
      refine ⟨⟨serves.isServer, rfl, ?_⟩, rfl, by simp [closeSocket], List.prefix_refl _⟩
      rcases serves.reads with ⟨untouched, -⟩ | ⟨stream, isOver, frames, wellFramed, pushed, phase⟩
      · exact .inl ⟨untouched, .inl rfl⟩
      · exact .inr ⟨_, ⟨rfl, isOver.replied⟩, frames, wellFramed, pushed, .ended frames [] rfl⟩
  | transfer index count =>
      refine ⟨serves.congr (SameReads.of_act isOver taken not_false), ?_⟩
      obtain ⟨op, -, -, -, -, rfl⟩ := act_transfer taken
      exact ⟨rfl, fun isOpen => isOpen, List.prefix_refl _⟩
  | writeDone index =>
      refine ⟨serves.congr (SameReads.of_act isOver taken not_false), ?_⟩
      obtain ⟨kind, -, rfl⟩ := act_writeDone taken
      have same : GoesOn c { c with writing := c.writing.eraseIdx index } :=
        ⟨rfl, fun isOpen => isOpen, List.prefix_refl _⟩
      by_cases ofMessage : kind = .validation
      · subst ofMessage
        rwa [settle_validationWritten_server (c := { c with writing := c.writing.eraseIdx index })
          serves.isServer]
      · exact same.of_onlyWrites (OnlyWrites.settle_writeDone _ ofMessage)
  | writeFail index =>
      refine ⟨serves.congr (SameReads.of_act isOver taken not_false), ?_⟩
      obtain ⟨op, -, -, rfl⟩ := act_writeFail taken
      exact GoesOn.of_closeSocket ⟨rfl, fun isOpen => isOpen, List.prefix_refl _⟩

/-- What a connection of the server has pushed are messages made from frames of its
stream. -/
theorem Serves.receives {c : Connection T} (serves : Serves c) :
    ∃ frames, (∀ frame ∈ frames, WellFramed MessageHeader.declared frame) ∧
      c.qMessagesIn = receive [] frames := by
  rcases serves.reads with ⟨⟨-, nothing⟩, -⟩ | ⟨stream, -, frames, wellFramed, pushed, -⟩
  · exact ⟨[], nofun, nothing⟩
  · exact ⟨frames, wellFramed, pushed⟩

end Connection

end NetworkChat
