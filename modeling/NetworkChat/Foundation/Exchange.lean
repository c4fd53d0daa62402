import NetworkChat.Foundation.Runs
import Mathlib.Logic.Function.Basic

/-!
# Clients that exchange messages with a server

A server with a state, and clients with two channels each, one to the server and one from it.
A channel keeps its order, and what was sent last on it may be lost. How the server answers and
what the messages are is left open (`Conduct`), so that one exchange can be run on values and on
their representation. When one conduct writes and reads the representations of what another one
writes and reads (`Codes`), its exchanges represent those of the other (`run_map`).
-/

set_option autoImplicit false

namespace NetworkChat.Foundation

universe u v w

/-- What the server and its clients do with messages: `Up` go to the server, `Down` come from
it. -/
structure Conduct (Server Key Saying : Type u) (Up Down Asked Got : Type v) where
  /-- A client writes a message. -/
  say : Saying → Up
  isRunning : Server → Bool
  knows : Server → Key → Bool
  /-- A client joins: the server after it, the client and the greeting. -/
  join : Server → Server × Key × Down
  close : Server → Key → Server
  /-- What the server reads from a message. -/
  extract : Up → Asked
  /-- The server handles a message: the server after it, and what it sends to whom. -/
  handle : Server → Key → Up → Server × List (Key × Down)
  /-- What a client reads from a message. -/
  read : Down → Got

/-- The server, the messages on their way, and what was read so far. -/
structure Exchange (Server Key : Type u) (Up Down Asked Got : Type v) where
  server : Server
  outgoing : Key → List Up
  incoming : Key → List Down
  asked : List (Key × Asked)
  got : List (Key × Got)

namespace Exchange

variable {Server Key Saying : Type u} {Up Down Asked Got : Type v}
  {Up' Down' Asked' Got' : Type w}

inductive Event (Key Saying : Type u) where
  | join
  | close (key : Key)
  | say (key : Key) (saying : Saying)
  /-- The server handles the next message of a client. -/
  | serve (key : Key)
  /-- A client reads its next message. -/
  | read (key : Key)
  /-- All but the first messages to the server are lost. -/
  | loseUp (key : Key) (kept : ℕ)
  /-- All but the first messages from the server are lost. -/
  | loseDown (key : Key) (kept : ℕ)

def start (server : Server) : Exchange Server Key Up Down Asked Got :=
  ⟨server, fun _ => [], fun _ => [], [], []⟩

/-- The exchange with other messages. -/
def map (up : Up → Up') (down : Down → Down') (asked : Asked → Asked') (got : Got → Got')
    (x : Exchange Server Key Up Down Asked Got) : Exchange Server Key Up' Down' Asked' Got' where
  server := x.server
  outgoing key := (x.outgoing key).map up
  incoming key := (x.incoming key).map down
  asked := x.asked.map fun entry => (entry.1, asked entry.2)
  got := x.got.map fun entry => (entry.1, got entry.2)

variable [DecidableEq Key]

/-- The next state, if the event can happen. -/
def step (conduct : Conduct Server Key Saying Up Down Asked Got)
    (x : Exchange Server Key Up Down Asked Got) :
    Event Key Saying → Option (Exchange Server Key Up Down Asked Got)
  | .join =>
      if conduct.isRunning x.server then
        let joined := conduct.join x.server
        some { x with
          server := joined.1,
          incoming := Function.update x.incoming joined.2.1
            (x.incoming joined.2.1 ++ [joined.2.2]) }
      else none
  | .close key =>
      if conduct.knows x.server key then some { x with server := conduct.close x.server key }
      else none
  | .say key saying =>
      if conduct.knows x.server key then
        some { x with
          outgoing := Function.update x.outgoing key (x.outgoing key ++ [conduct.say saying]) }
      else none
  | .serve key =>
      match x.outgoing key with
      | [] => none
      | msg :: later =>
          if conduct.isRunning x.server then
            let handled := conduct.handle x.server key msg
            some { x with
              server := handled.1,
              outgoing := Function.update x.outgoing key later,
              incoming := fun other => x.incoming other ++ entriesOf other handled.2,
              asked := x.asked ++ [(key, conduct.extract msg)] }
          else none
  | .read key =>
      match x.incoming key with
      | [] => none
      | msg :: later =>
          some { x with
            incoming := Function.update x.incoming key later,
            got := x.got ++ [(key, conduct.read msg)] }
  | .loseUp key kept =>
      some { x with outgoing := Function.update x.outgoing key ((x.outgoing key).take kept) }
  | .loseDown key kept =>
      some { x with incoming := Function.update x.incoming key ((x.incoming key).take kept) }

/-- The second conduct writes the representation of what the first one writes, and reads from it
the representation of what the first one reads. -/
structure Codes (values : Conduct Server Key Saying Up Down Asked Got)
    (wire : Conduct Server Key Saying Up' Down' Asked' Got') (up : Up → Up') (down : Down → Down')
    (asked : Asked → Asked') (got : Got → Got') : Prop where
  say : ∀ saying, wire.say saying = up (values.say saying)
  isRunning : wire.isRunning = values.isRunning
  knows : wire.knows = values.knows
  join : ∀ server, wire.join server =
    ((values.join server).1, (values.join server).2.1, down (values.join server).2.2)
  close : wire.close = values.close
  extract : ∀ msg, wire.extract (up msg) = asked (values.extract msg)
  handle : ∀ server key msg, wire.handle server key (up msg) =
    ((values.handle server key msg).1,
      (values.handle server key msg).2.map fun entry => (entry.1, down entry.2))
  read : ∀ msg, wire.read (down msg) = got (values.read msg)

theorem map_update {Value Value' : Type*} (f : Value → Value') (channel : Key → List Value)
    (key : Key) (entries : List Value) :
    (fun other => (Function.update channel key entries other).map f) =
      Function.update (fun other => (channel other).map f) key (entries.map f) := by
  funext other
  by_cases same : other = key
  · subst same
    rw [Function.update_self, Function.update_self]
  · rw [Function.update_of_ne same, Function.update_of_ne same]

theorem entriesOf_map {Value Value' : Type*} (f : Value → Value') (key : Key)
    (log : List (Key × Value)) :
    entriesOf key (log.map fun entry => (entry.1, f entry.2)) = (entriesOf key log).map f := by
  rw [entriesOf, entriesOf, List.filterMap_map, List.map_filterMap]
  congr 1
  funext entry
  by_cases same : entry.1 = key
  · simp only [Function.comp_apply, if_pos same, Option.map_some]
  · simp only [Function.comp_apply, if_neg same, Option.map_none]

section Codes

variable {values : Conduct Server Key Saying Up Down Asked Got}
  {wire : Conduct Server Key Saying Up' Down' Asked' Got'} {up : Up → Up'} {down : Down → Down'}
  {asked : Asked → Asked'} {got : Got → Got'}

/-- **A step on representations is the representation of the step on values.** -/
theorem step_map (codes : Codes values wire up down asked got)
    (x : Exchange Server Key Up Down Asked Got) (event : Event Key Saying) :
    step wire (x.map up down asked got) event =
      (step values x event).map (map up down asked got) := by
  cases event with
  | join =>
      simp only [step, map, codes.isRunning, codes.join]
      split
      · simp only [Option.map_some, map, map_update, List.map_append, List.map_cons, List.map_nil]
      · rfl
  | close key =>
      simp only [step, map, codes.knows, codes.close]
      split
      · rfl
      · rfl
  | say key saying =>
      simp only [step, map, codes.knows, codes.say]
      split
      · simp only [Option.map_some, map, map_update, List.map_append, List.map_cons, List.map_nil]
      · rfl
  | serve key =>
      simp only [step, map]
      cases x.outgoing key with
      | nil => rfl
      | cons msg later =>
          simp only [List.map_cons, codes.isRunning, codes.handle, codes.extract]
          split
          · simp only [Option.map_some, map, map_update, entriesOf_map, List.map_append,
              List.map_cons, List.map_nil]
          · rfl
  | read key =>
      simp only [step, map]
      cases x.incoming key with
      | nil => rfl
      | cons msg later =>
          simp only [List.map_cons, codes.read, Option.map_some, map, map_update, List.map_append,
            List.map_nil]
  | loseUp key kept => simp only [step, map, Option.map_some, map_update, List.map_take]
  | loseDown key kept => simp only [step, map, Option.map_some, map_update, List.map_take]

/-- **An exchange of representations is the representation of an exchange of values.** -/
theorem run_map (codes : Codes values wire up down asked got)
    (x : Exchange Server Key Up Down Asked Got) (events : List (Event Key Saying)) :
    runFrom (step wire) (x.map up down asked got) events =
      (runFrom (step values) x events).map (map up down asked got) :=
  runFrom_map (step_map codes) x events

end Codes

end Exchange

end NetworkChat.Foundation
