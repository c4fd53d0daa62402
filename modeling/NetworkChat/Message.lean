import NetworkChat.Foundation.Layout
import Mathlib.Tactic.IntervalCases

/-!
# Messages

A message is a header and a body of bytes (`net_message.h`). Values are appended
to the body with `<<` and taken back from its tail with `>>`, the last one pushed
first. The two `<<` are `push` and `pushString`, the two `>>` are `pop` and
`popString`.

The extraction computes its index in `size_t`, where a subtraction below zero
wraps, and copies from there without a check. `copyOut` is that copy; it faults
where the source reads outside the body. So an extraction succeeds exactly when
the body is long enough (`pop_isOk_iff`, `popStringWithin_isOk_iff`).

Sizes are those of a 64-bit `size_t`; `header.size` has 32 bits and is assigned
by truncation.
-/

set_option autoImplicit false

namespace NetworkChat

open Foundation

/-- How a function of the source ends when it does not return. -/
inductive Fault where
  /-- Bytes outside a body are read, or outside a string written: undefined. -/
  | outOfBounds
  /-- `std::length_error` from `std::string::resize`. -/
  | lengthError
  /-- `std::out_of_range` from `std::unordered_map::at`. -/
  | outOfRange
  /-- `erase` is given the end iterator of a map: undefined. -/
  | eraseEnd
  /-- `front` or `pop_front` of an empty deque: undefined. -/
  | emptyDeque
  deriving DecidableEq, Repr

instance decidableEqExcept {Error Value : Type} [DecidableEq Error] [DecidableEq Value] :
    DecidableEq (Except Error Value)
  | .ok first, .ok second => decidable_of_iff (first = second) (by simp)
  | .error first, .error second => decidable_of_iff (first = second) (by simp)
  | .ok _, .error _ => .isFalse (by simp)
  | .error _, .ok _ => .isFalse (by simp)

/-! ## Message types -/

/-- The types of messages. The underlying type is `uint32_t`, so a received type
may be a value that no enumerator names. -/
inductive CustomMsgTypes where
  | serverAccept
  | serverDeny
  | serverPing
  | messageAll
  | serverMessage
  | clientList
  | requestToClient
  | textClient
  | requestAnswer
  | closeClient
  | unnamed (value : UInt32) (large : 10 ≤ value)
  deriving DecidableEq

namespace CustomMsgTypes

/-- The enumerators in their order, the first is zero. -/
def enumerators : List CustomMsgTypes :=
  [serverAccept, serverDeny, serverPing, messageAll, serverMessage, clientList, requestToClient,
    textClient, requestAnswer, closeClient]

def toUInt32 : CustomMsgTypes → UInt32
  | serverAccept => 0
  | serverDeny => 1
  | serverPing => 2
  | messageAll => 3
  | serverMessage => 4
  | clientList => 5
  | requestToClient => 6
  | textClient => 7
  | requestAnswer => 8
  | closeClient => 9
  | unnamed value _ => value

def ofUInt32 (value : UInt32) : CustomMsgTypes :=
  if small : value.toNat < 10 then enumerators.get ⟨value.toNat, small⟩
  else .unnamed value (by rw [UInt32.le_iff_toNat_le]; exact Nat.le_of_not_lt small)

theorem ofUInt32_toUInt32 (type : CustomMsgTypes) : ofUInt32 type.toUInt32 = type := by
  cases type with
  | unnamed value large =>
      have notSmall : ¬ value.toNat < 10 := by
        rw [UInt32.le_iff_toNat_le] at large
        exact Nat.not_lt.mpr large
      exact dif_neg notSmall
  | _ => rfl

theorem toUInt32_ofUInt32 (value : UInt32) : (ofUInt32 value).toUInt32 = value := by
  by_cases small : value.toNat < 10
  · rw [ofUInt32, dif_pos small]
    apply UInt32.toNat_inj.mp
    generalize value.toNat = position at small
    interval_cases position <;> rfl
  · rw [ofUInt32, dif_neg small, toUInt32]

/-- An enumeration is laid out as its underlying type. -/
instance : FullLayout CustomMsgTypes :=
  .transport toUInt32 ofUInt32 ofUInt32_toUInt32 toUInt32_ofUInt32

/-- Value initialisation gives the enumerator zero. -/
instance : Inhabited CustomMsgTypes := ⟨serverAccept⟩

end CustomMsgTypes

/-! ## Headers and messages -/

/-- `message_header`: the type of the message and the length of its body. -/
structure MessageHeader (T : Type) where
  id : T
  size : UInt32
  deriving DecidableEq, Repr

/-- `message`. -/
structure Message (T : Type) where
  header : MessageHeader T
  body : List UInt8
  deriving DecidableEq, Repr

variable {T : Type}

instance [Inhabited T] : Inhabited (MessageHeader T) := ⟨⟨default, 0⟩⟩

instance [Inhabited T] : Inhabited (Message T) := ⟨⟨default, []⟩⟩

/-- The members of a header follow each other without padding, as they do for
the four bytes of `CustomMsgTypes`. -/
instance [FullLayout T] : FullLayout (MessageHeader T) :=
  .transport (fun header => (header.id, header.size)) (fun pair => ⟨pair.1, pair.2⟩)
    (fun _ => rfl) (fun _ => rfl)

/-- `sizeof(message_header<CustomMsgTypes>)`. -/
theorem size_messageHeader : FixedLayout.size (MessageHeader CustomMsgTypes) = 8 := rfl

namespace Message

/-- `header.size = size()`: the length of the body, truncated to 32 bits. -/
def resized (msg : Message T) (body : List UInt8) : Message T :=
  { header := { msg.header with size := UInt32.ofNat body.length }, body }

/-- A message of the given type with an empty body. -/
def ofType (id : T) : Message T := ⟨⟨id, 0⟩, []⟩

/-- `size()`. -/
def size (msg : Message T) : ℕ := msg.body.length

/-- The number of body bytes the header declares is the length of the body. -/
def Framed (msg : Message T) : Prop := msg.header.size.toNat = msg.body.length

instance (msg : Message T) : Decidable msg.Framed :=
  inferInstanceAs (Decidable (_ = _))

/-! ## Insertion -/

/-- `operator<<(message&, const DataType&)`. -/
def push {Data : Type} [FixedLayout Data] (msg : Message T) (data : Data) : Message T :=
  msg.resized (msg.body ++ toBytes data)

/-- `operator<<(message&, std::string&)`: the bytes of the string, then its
length as a `size_t`. -/
def pushString (msg : Message T) (data : List UInt8) : Message T :=
  (msg.resized (msg.body ++ data)).push (UInt64.ofNat data.length)

/-! ## Extraction -/

/-- Subtraction in `size_t`: it wraps below zero. -/
def sizeSub (left right : ℕ) : ℕ :=
  if right ≤ left then left - right else left + 2 ^ 64 - right

/-- `std::memcpy` of `count` bytes from `body.data() + index`. Reading a byte
outside the body is undefined. -/
def copyOut (body : List UInt8) (index count : ℕ) : Except Fault (List UInt8) :=
  if index + count ≤ body.length then .ok ((body.drop index).take count)
  else .error .outOfBounds

/-- `operator>>(message&, DataType&)`. -/
def pop (Data : Type) [FixedLayout Data] (msg : Message T) : Except Fault (Data × Message T) := do
  let i := sizeSub msg.body.length (FixedLayout.size Data)
  let bytes ← copyOut msg.body i (FixedLayout.size Data)
  return (ofBytes bytes, msg.resized (msg.body.take i))

/-- `std::string::resize`, the new size computed in `size_t`, where a string holds at
most `limit` bytes. -/
def resizeString (limit length : ℕ) : Except Fault Unit :=
  if limit < length % 2 ^ 64 then .error .lengthError else .ok ()

/-- `operator>>(message&, std::string&)`: the length is taken from the tail, the
target grows by it, and that many bytes are copied behind what the target held.
A length that wraps the new size of the target is one the body cannot hold. -/
def popStringWithin (limit : ℕ) (msg : Message T) (data : List UInt8) :
    Except Fault (List UInt8 × Message T) := do
  let (length, msg) ← msg.pop UInt64
  resizeString limit (data.length + length.toNat)
  let i := sizeSub msg.body.length length.toNat
  let bytes ← copyOut msg.body i length.toNat
  return (data ++ bytes, msg.resized (msg.body.take i))

/-- `std::string::max_size`. Each library has its own value, and what a body holds is
extracted alike with any that it fits (`popStringWithin_toOption`). -/
def maxStringSize : ℕ := 2 ^ 63 - 1

/-- `operator>>(message&, std::string&)` with the strings of the library. -/
def popString (msg : Message T) (data : List UInt8) : Except Fault (List UInt8 × Message T) :=
  msg.popStringWithin maxStringSize data

/-! ## When extraction stays inside the body -/

theorem framed_resized {msg : Message T} {body : List UInt8} (small : body.length < 2 ^ 32) :
    (msg.resized body).Framed := by
  change (UInt32.ofNat body.length).toNat = body.length
  rw [UInt32.toNat_ofNat', Nat.mod_eq_of_lt small]

theorem sizeSub_of_le {left right : ℕ} (le : right ≤ left) : sizeSub left right = left - right :=
  if_pos le

/-- The copy that starts at a wrapped index leaves the body. -/
theorem copyOut_sizeSub (body : List UInt8) (count : ℕ) :
    copyOut body (sizeSub body.length count) count =
      if count ≤ body.length then .ok (body.drop (body.length - count))
      else .error .outOfBounds := by
  by_cases enough : count ≤ body.length
  · rw [sizeSub_of_le enough, copyOut, if_pos (by omega), if_pos enough,
      List.take_of_length_le (by rw [List.length_drop]; omega)]
  · rw [copyOut, sizeSub, if_neg enough, if_neg enough, if_neg (by omega)]

theorem pop_eq {Data : Type} [FixedLayout Data] (msg : Message T) :
    msg.pop Data =
      if FixedLayout.size Data ≤ msg.body.length then
        .ok (ofBytes (msg.body.drop (msg.body.length - FixedLayout.size Data)),
          msg.resized (msg.body.take (msg.body.length - FixedLayout.size Data)))
      else .error .outOfBounds := by
  rw [pop, copyOut_sizeSub]
  by_cases enough : FixedLayout.size Data ≤ msg.body.length
  · simp only [if_pos enough, sizeSub_of_le enough]
    rfl
  · simp only [if_neg enough]
    rfl

/-- **A fixed-size extraction stays inside the body exactly when the body is at
least as long as the value.** -/
theorem pop_isOk_iff {Data : Type} [FixedLayout Data] (msg : Message T) :
    (msg.pop Data).isOk ↔ FixedLayout.size Data ≤ msg.body.length := by
  rw [pop_eq]
  split <;> simp_all [Except.isOk, Except.toBool]

/-- Popping undoes pushing, up to the declared size. -/
theorem pop_push {Data : Type} [FixedLayout Data] (msg : Message T) (data : Data) :
    (msg.push data).pop Data = .ok (data, msg.resized msg.body) := by
  have length : (msg.push data).body.length = msg.body.length + FixedLayout.size Data := by
    simp only [push, resized, List.length_append, FixedLayout.length_toBytes]
  have index : (msg.push data).body.length - FixedLayout.size Data = msg.body.length := by omega
  rw [pop_eq, if_pos (by omega), index]
  simp only [push, resized, List.drop_left, List.take_left, FixedLayout.ofBytes_toBytes]

/-- The length word of a string at the tail of a body. -/
def stringLength (body : List UInt8) : ℕ :=
  (ofBytes (body.drop (body.length - 8)) : UInt64).toNat

/-- The body ends with a length word and as many bytes before it as that says. -/
def HoldsString (body : List UInt8) : Prop :=
  8 ≤ body.length ∧ stringLength body ≤ body.length - 8

instance (body : List UInt8) : Decidable (HoldsString body) :=
  inferInstanceAs (Decidable (_ ∧ _))

/-- What a string extraction does when the body holds a length word. -/
theorem popStringWithin_eq (limit : ℕ) {msg : Message T} (enough : 8 ≤ msg.body.length)
    (data : List UInt8) :
    msg.popStringWithin limit data =
      if limit < (data.length + stringLength msg.body) % 2 ^ 64 then
        .error .lengthError
      else if stringLength msg.body ≤ msg.body.length - 8 then
        let rest := msg.body.take (msg.body.length - 8)
        let index := rest.length - stringLength msg.body
        .ok (data ++ rest.drop index, (msg.resized rest).resized (rest.take index))
      else .error .outOfBounds := by
  obtain ⟨length, word⟩ : ∃ length : UInt64,
      ofBytes (msg.body.drop (msg.body.length - 8)) = length := ⟨_, rfl⟩
  have popped : msg.pop UInt64 =
      .ok (length, msg.resized (msg.body.take (msg.body.length - 8))) := by
    rw [pop_eq, size_uint64, if_pos enough, word]
  have declared : stringLength msg.body = length.toNat := congrArg UInt64.toNat word
  have rest : (msg.body.take (msg.body.length - 8)).length = msg.body.length - 8 := by
    rw [List.length_take]
    omega
  rw [popStringWithin, popped, declared]
  simp only [bind, Except.bind, resized, resizeString]
  rw [copyOut_sizeSub, rest]
  by_cases long : limit < (data.length + length.toNat) % 2 ^ 64
  · simp only [if_pos long]
  · by_cases fits : length.toNat ≤ msg.body.length - 8
    · simp only [if_neg long, if_pos fits, sizeSub_of_le fits]
      rfl
    · simp only [if_neg long, if_neg fits]

/-- A body that is too short for the length word. -/
theorem popStringWithin_of_short (limit : ℕ) {msg : Message T} (short : ¬ 8 ≤ msg.body.length)
    (data : List UInt8) : msg.popStringWithin limit data = .error .outOfBounds := by
  have refused : msg.pop UInt64 = .error .outOfBounds := by
    rw [pop_eq, size_uint64, if_neg short]
  rw [popStringWithin, refused]
  rfl

/-- **Two limits that the body fits extract the same**, or both fail. -/
theorem popStringWithin_toOption {limit other : ℕ} {msg : Message T} {data : List UInt8}
    (fits : data.length + msg.body.length ≤ limit)
    (fitsOther : data.length + msg.body.length ≤ other) :
    (msg.popStringWithin limit data).toOption = (msg.popStringWithin other data).toOption := by
  by_cases enough : 8 ≤ msg.body.length
  · rw [popStringWithin_eq limit enough, popStringWithin_eq other enough]
    by_cases inside : stringLength msg.body ≤ msg.body.length - 8
    · have atMost := Nat.mod_le (data.length + stringLength msg.body) (2 ^ 64)
      have grows : ¬ limit < (data.length + stringLength msg.body) % 2 ^ 64 := by omega
      have growsOther : ¬ other < (data.length + stringLength msg.body) % 2 ^ 64 := by omega
      simp only [if_neg grows, if_neg growsOther]
    · simp only [if_neg inside]
      split <;> split <;> rfl
  · rw [popStringWithin_of_short limit enough, popStringWithin_of_short other enough]

/-- **A string extraction into an empty string stays inside the body exactly when
the body holds the length word and the bytes it counts**, whatever the limit is that
the body fits. -/
theorem popStringWithin_isOk_iff {limit : ℕ} {msg : Message T}
    (bounded : msg.body.length ≤ limit) :
    (msg.popStringWithin limit []).isOk ↔ HoldsString msg.body := by
  by_cases enough : 8 ≤ msg.body.length
  · have word : stringLength msg.body < 2 ^ 64 := UInt64.toNat_lt _
    rw [popStringWithin_eq limit enough, List.length_nil, Nat.zero_add, Nat.mod_eq_of_lt word]
    by_cases fits : stringLength msg.body ≤ msg.body.length - 8
    · rw [if_neg (by omega), if_pos fits]
      exact iff_of_true rfl ⟨enough, fits⟩
    · rw [if_neg fits]
      refine iff_of_false ?_ (fun holds => fits holds.2)
      split <;> exact Bool.false_ne_true
  · rw [popStringWithin_of_short limit enough]
    exact iff_of_false Bool.false_ne_true fun holds => enough holds.1

end Message

end NetworkChat
