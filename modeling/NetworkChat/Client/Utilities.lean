import NetworkChat.Foundation.Numerals

/-!
# Commands of the user

`StrToCommand` (`Utilities.h`) cuts a line at its first space, looks the first word up and reads an
id from the rest of the line for `ConnectTo`. Without a space `pos` is `npos`, and the rest that
starts at `pos + 1` is the whole line.

The id is read by `std::stoul` and narrowed to 32 bits, so a blank or a sign before the digits, any
text behind them and the upper bits of a larger number are accepted as well. `readsExactly_iff` says
for which lines the command is the one that was typed.
-/

set_option autoImplicit false

namespace NetworkChat

open Foundation

/-- The bytes of an ASCII text. -/
def ascii (text : String) : List UInt8 := text.toList.map fun char => UInt8.ofNat char.toNat

/-- `CommandPrefix`. -/
inductive CommandPrefix where
  | serverPing
  | clientList
  | helloAll
  | connectTo
  | requestAccept
  | requestDecline
  | closeClient
  | help
  | blank
  deriving DecidableEq, Repr

/-- How many bits an `unsigned long` has. -/
inductive LongWidth where
  | bits32
  | bits64
  deriving DecidableEq, Repr

def LongWidth.bits : LongWidth → ℕ
  | .bits32 => 32
  | .bits64 => 64

namespace Utilities

/-- `Command`. -/
structure Command where
  command : CommandPrefix
  id : UInt32
  deriving DecidableEq, Repr

/-- `SimpleCommands`. -/
def simpleCommands : List (List UInt8 × CommandPrefix) :=
  [(ascii "Ping", .serverPing), (ascii "Clients", .clientList), (ascii "HelloAll", .helloAll),
    (ascii "Accept", .requestAccept), (ascii "Decline", .requestDecline), (ascii "Help", .help)]

/-- `CommandsWithID`. -/
def commandsWithID : List (List UInt8 × CommandPrefix) := [(ascii "ConnectTo", .connectTo)]

/-- `find_first_of(" ")`; none is `npos`. -/
def findFirstOf (string : List UInt8) : Option ℕ := string.findIdx? fun byte => byte = 32

/-- `substr(0, pos)`. -/
def firstWord (string : List UInt8) : List UInt8 :=
  match findFirstOf string with
  | some pos => string.take pos
  | none => string

/-- `substr(pos + 1)`; `npos + 1` is zero. -/
def argument (string : List UInt8) : List UInt8 :=
  match findFirstOf string with
  | some pos => string.drop (pos + 1)
  | none => string

/-- `StrToCommand`. -/
def strToCommand (long : LongWidth) (string : List UInt8) : Command :=
  match simpleCommands.lookup (firstWord string) with
  | some command => ⟨command, 0⟩
  | none =>
      match commandsWithID.lookup (firstWord string) with
      | some command =>
          match stoul long.bits (argument string) with
          | .ok value => ⟨command, UInt32.ofNat value⟩
          | .error _ => ⟨.blank, 0⟩
      | none => ⟨.blank, 0⟩

/-! ## What a line says -/

/-- The line is `ConnectTo`, one space and a numeral that denotes the id. -/
def Names (string : List UInt8) (id : UInt32) : Prop :=
  ∃ digits, string = ascii "ConnectTo" ++ 32 :: digits ∧ IsNumeral digits ∧
    decimalValue digits = id.toNat

/-- The command is the one that the line says: `ConnectTo` with the id that it names, and nothing
if its first word is `ConnectTo` and it names none. -/
def ReadsExactly (long : LongWidth) (string : List UInt8) : Prop :=
  (∀ id, strToCommand long string = ⟨.connectTo, id⟩ ↔ Names string id) ∧
    (firstWord string = ascii "ConnectTo" → (∀ id, ¬ Names string id) →
      strToCommand long string = ⟨.blank, 0⟩)

/-- The argument of a `ConnectTo` is a numeral of 32 bits; or no digit stands where a number would
start, or the digits there denote more than an `unsigned long` holds. -/
def PlainArgument (long : LongWidth) (string : List UInt8) : Prop :=
  firstWord string = ascii "ConnectTo" →
    (IsNumeral (argument string) ∧ decimalValue (argument string) < 2 ^ 32) ∨
      digitsRead (argument string) = [] ∨
        2 ^ long.bits ≤ decimalValue (digitsRead (argument string))

instance (long : LongWidth) (string : List UInt8) : Decidable (PlainArgument long string) :=
  inferInstanceAs (Decidable (_ → _))

variable {long : LongWidth} {string : List UInt8} {id : UInt32}

/-- A line with a space in it is its first word, the space and the rest. -/
theorem eq_of_findFirstOf {pos : ℕ} (found : findFirstOf string = some pos) :
    string = firstWord string ++ 32 :: argument string := by
  obtain ⟨inside, isSpace, -⟩ := List.findIdx?_eq_some_iff_getElem.mp found
  have cut : string.drop pos = string[pos] :: string.drop (pos + 1) :=
    List.drop_eq_getElem_cons inside
  have space : string[pos] = 32 := of_decide_eq_true isSpace
  rw [space] at cut
  simp only [firstWord, argument, found]
  rw [← cut, List.take_append_drop]

/-- Where `ConnectTo` and its argument are cut. -/
theorem cut_connectTo (digits : List UInt8) :
    firstWord (ascii "ConnectTo" ++ 32 :: digits) = ascii "ConnectTo" ∧
      argument (ascii "ConnectTo" ++ 32 :: digits) = digits :=
  ⟨rfl, rfl⟩

/-- A line names an id exactly if its first word is `ConnectTo` and its argument the numeral of the
id. -/
theorem names_iff : Names string id ↔ firstWord string = ascii "ConnectTo" ∧
    IsNumeral (argument string) ∧ decimalValue (argument string) = id.toNat := by
  constructor
  · rintro ⟨digits, rfl, numeral, value⟩
    obtain ⟨word, rest⟩ := cut_connectTo digits
    exact ⟨word, by rwa [rest], by rwa [rest]⟩
  · rintro ⟨word, numeral, value⟩
    cases found : findFirstOf string with
    | some pos => exact ⟨argument string, word ▸ eq_of_findFirstOf found, numeral, value⟩
    | none =>
        -- the whole line is the word, and no numeral
        have same : argument string = firstWord string := by simp only [argument, firstWord, found]
        rw [same, word] at numeral
        exact absurd numeral (by decide)

/-- The id that a line names has 32 bits, so `std::stoul` reads it. -/
theorem stoul_of_names (long : LongWidth) (names : Names string id) :
    stoul long.bits (argument string) = .ok id.toNat := by
  obtain ⟨-, numeral, value⟩ := names_iff.mp names
  have small : decimalValue (argument string) < 2 ^ 32 := by
    rw [value]
    exact UInt32.toNat_lt id
  have fits : ¬ 2 ^ long.bits ≤ decimalValue (argument string) := by
    cases long with
    | bits32 => exact Nat.not_le.mpr small
    | bits64 => exact Nat.not_le.mpr (small.trans (by decide))
  rw [stoul_of_isNumeral numeral, if_neg fits, value]

/-! ## What the command is -/

theorem strToCommand_connectTo (long : LongWidth) (word : firstWord string = ascii "ConnectTo") :
    strToCommand long string =
      match stoul long.bits (argument string) with
      | .ok value => ⟨.connectTo, UInt32.ofNat value⟩
      | .error _ => ⟨.blank, 0⟩ := by
  have notSimple : simpleCommands.lookup (ascii "ConnectTo") = none := by decide
  have withID : commandsWithID.lookup (ascii "ConnectTo") = some .connectTo := by decide
  simp only [strToCommand, word, notSimple, withID]

/-- No other word connects. -/
theorem strToCommand_other (long : LongWidth) (word : firstWord string ≠ ascii "ConnectTo") :
    (strToCommand long string).command ≠ .connectTo := by
  have notWithID : commandsWithID.lookup (firstWord string) = none := by
    refine List.lookup_eq_none_iff.mpr fun entry member => ?_
    cases List.mem_singleton.mp member
    exact bne_iff_ne.mpr word
  simp only [strToCommand, notWithID]
  split
  case h_1 command found =>
    have listed : ∀ entry ∈ simpleCommands, entry.2 ≠ .connectTo := by decide
    obtain ⟨before, after, split, -⟩ := List.lookup_eq_some_iff.mp found
    exact listed (firstWord string, command) (by rw [split]; simp)
  case h_2 =>
    intro same
    cases same

/-- When a number is read, it is the one that was typed exactly if the argument is a numeral of 32
bits. -/
theorem readsExactly_iff_of_ok {value : ℕ} (word : firstWord string = ascii "ConnectTo")
    (read : stoul long.bits (argument string) = .ok value)
    (command : strToCommand long string = ⟨.connectTo, UInt32.ofNat value⟩) :
    ReadsExactly long string ↔ PlainArgument long string := by
  have isNumber := (stoul_isOk_iff long.bits (argument string)).mp (by rw [read]; rfl)
  constructor
  · rintro ⟨exact_, -⟩ -
    obtain ⟨-, numeral, same⟩ := names_iff.mp ((exact_ _).mp command)
    refine .inl ⟨numeral, ?_⟩
    rw [same]
    exact UInt32.toNat_lt _
  · intro plain
    rcases plain word with ⟨numeral, small⟩ | noDigit | large
    · have named : Names string (UInt32.ofNat (decimalValue (argument string))) := by
        refine names_iff.mpr ⟨word, numeral, ?_⟩
        rw [UInt32.toNat_ofNat', Nat.mod_eq_of_lt small]
      refine ⟨fun id => ?_, fun _ none => absurd named (none _)⟩
      have readAs := stoul_of_names long named
      rw [UInt32.toNat_ofNat', Nat.mod_eq_of_lt small, read] at readAs
      cases readAs
      rw [command]
      constructor
      · intro same
        cases same
        exact named
      · intro names
        have value := (names_iff.mp names).2.2
        rw [value, UInt32.ofNat_toNat]
    · exact absurd noDigit isNumber.1
    · exact absurd isNumber.2 (Nat.not_lt.mpr large)

/-- **The command is the one that was typed exactly when the argument of a `ConnectTo` is a numeral
of 32 bits or no number at all.** -/
theorem readsExactly_iff (long : LongWidth) (string : List UInt8) :
    ReadsExactly long string ↔ PlainArgument long string := by
  by_cases word : firstWord string = ascii "ConnectTo"
  · have command := strToCommand_connectTo long word
    cases read : stoul long.bits (argument string) with
    | ok value =>
        rw [read] at command
        exact readsExactly_iff_of_ok word read command
    | error error =>
        rw [read] at command
        have noNumber : ¬ (digitsRead (argument string) ≠ [] ∧
            decimalValue (digitsRead (argument string)) < 2 ^ long.bits) := by
          rw [← stoul_isOk_iff, read]
          exact Bool.false_ne_true
        have namesNone : ∀ id, ¬ Names string id := by
          intro id names
          rw [stoul_of_names long names] at read
          cases read
        refine iff_of_true ⟨fun id => ?_, fun _ _ => command⟩ fun _ => .inr ?_
        · refine iff_of_false ?_ (namesNone id)
          intro same
          cases command.symm.trans same
        · by_cases noDigit : digitsRead (argument string) = []
          · exact .inl noDigit
          · exact .inr (Nat.le_of_not_lt fun small => noNumber ⟨noDigit, small⟩)
  · refine iff_of_true ⟨fun id => ?_, fun same => absurd same word⟩ fun same => absurd same word
    refine iff_of_false ?_ fun names => word (names_iff.mp names).1
    intro same
    exact strToCommand_other long word (by rw [same])

/-- An id of 33 bits, and one with a text behind it. -/
def longId : List UInt8 := ascii "ConnectTo 4294977296"

def trailingText : List UInt8 := ascii "ConnectTo 10000x"

/-- Both connect to the client 10000, which neither line names. -/
theorem other_id_is_read :
    strToCommand .bits64 longId = ⟨.connectTo, 10000⟩ ∧ ¬ ReadsExactly .bits64 longId ∧
      (∀ long, strToCommand long trailingText = ⟨.connectTo, 10000⟩) ∧
        ∀ long, ¬ ReadsExactly long trailingText := by
  have long : strToCommand .bits64 longId = ⟨.connectTo, 10000⟩ := by decide
  have trailing : ∀ long, strToCommand long trailingText = ⟨.connectTo, 10000⟩ := by
    intro long
    cases long <;> decide
  refine ⟨long, fun reads => ?_, trailing, fun long reads => ?_⟩
  · have value := (names_iff.mp ((reads.1 10000).mp long)).2.2
    exact absurd value (by decide)
  · have numeral := (names_iff.mp ((reads.1 10000).mp (trailing long))).2.1
    exact absurd numeral (by decide)

/-- The lines that are read exactly: an id, a word alone and a word that is no number. -/
example : ∀ long, PlainArgument long (ascii "ConnectTo 10000") ∧
    PlainArgument long (ascii "ConnectTo") ∧ PlainArgument long (ascii "ConnectTo me") := by
  intro long
  cases long <;> decide

end Utilities

end NetworkChat
