import NetworkChat.Foundation.Matching
import Mathlib.Tactic.Tauto

/-!
# Copies of a matching

An exchange keeps a matching of parties, and each party keeps a copy of its own
partner, which it writes at another moment than the exchange. One of two partners
consents and writes its copy, the other writes its copy when it hears the consent.
Either of them may leave: it tells the exchange and erases its copy, the exchange ends
the pair and dismisses the other, which erases its copy when it hears of that.

`Party` is what the argument sees of a party and of the messages on their way to it and
from it. `Accord` says of every copy that differs from the matching what is on its way
that will change it. It is kept

* when a party moves on its own (`Accord.move`), where a copy is written only if it is
  `Current`, or if a dismissal will erase it, and for a consent only after the partner has
  written its own (`PartnerWrote`),
* when the exchange passes a consent on (`Accord.pass`), ends a pair (`Accord.part`), makes
  one (`Accord.join`) or hears a party that has no partner (`Accord.lose`).

When nothing is on its way, a copy is the partner, whose copy is the first party
(`Accord.agree`).
-/

set_option autoImplicit false

namespace NetworkChat.Foundation

universe u

/-- What the argument sees of a party. -/
structure Party (Id : Type u) where
  copy : Option Id
  /-- It has told the exchange that it leaves, and the exchange has not heard it. -/
  leaves : Prop
  /-- It has told the exchange that it leaves, and has yet to erase its copy. -/
  erases : Prop
  /-- It is about to hear that its partner left. -/
  dismissed : Prop
  /-- It has consented, and the exchange has not heard it. -/
  consents : Prop
  /-- It has consented, and has yet to write its copy. -/
  writes : Prop
  /-- It is about to hear a consent and to write its copy, and no dismissal comes after
  that. -/
  hears : Prop

namespace Party

variable {Id : Type u}

/-- Its copy is the other one and stays so, or the other one will be dismissed. -/
def Bound (party : Party Id) (other : Id) : Prop :=
  (party.copy = some other ∧ ¬ party.dismissed) ∨ party.leaves

/-- The value may become the copy of a party: it is the partner, or nobody where the
party leaves or has no partner, unless the party is about to be dismissed. -/
def Current (partner : Option Id) (party : Party Id) (value : Option Id) : Prop :=
  (¬ party.leaves ∧ ¬ party.dismissed ∧ partner ≠ none ∧ value = partner) ∨
    ((party.leaves ∨ partner = none) ∧ (value = none ∨ party.dismissed))

/-- No consent that it gave or is about to hear is left over from an earlier pair. -/
def Settled (party : Party Id) : Prop := ¬ party.consents ∧ ¬ party.writes ∧ ¬ party.hears

/-- What holds of one party and its partner. -/
structure Sound (partner : Option Id) (party : Party Id) : Prop where
  erases : party.erases → party.leaves
  leaves : party.leaves → party.copy = none ∨ party.dismissed ∨ party.erases
  consents : ∀ other, partner = some other → party.consents → party.Bound other ∨ party.writes

/-- What a party may do on its own. A new copy is the partner's name, and a consent was
given for it, or heard when the partner was `told`. -/
structure Move (partner : Option Id) (told : Prop) (before after : Party Id) : Prop where
  sound : after.Sound partner
  bound : ∀ other, partner = some other → before.Bound other → after.Bound other
  consents : before.consents → after.consents
  heard : before.hears → after.hears ∨ ∀ other, partner = some other → after.Bound other
  hears : after.hears → before.hears
  written : before.writes → after.writes ∨ ∀ other, partner = some other → after.Bound other
  writes : after.writes → before.writes ∨ after.consents
  copy : ∀ other, after.copy = some other → after.dismissed ∨
    (before.copy = some other ∧ ¬ before.dismissed) ∨
      (partner = some other ∧ (after.consents ∨ before.writes ∨ (before.hears ∧ told)))

variable {partner : Option Id} {told : Prop} {party : Party Id}

/-! ## Moves -/

/-- Nothing of what the argument sees is changed. -/
theorem Sound.stay (sound : party.Sound partner) : Move partner told party party where
  sound := sound
  bound := fun _ _ bound => bound
  consents := id
  heard := .inl
  hears := id
  written := .inl
  writes := .inl
  copy := by
    intro other held
    by_cases dismissed : party.dismissed
    · exact .inl dismissed
    · exact .inr (.inl ⟨held, dismissed⟩)

/-- It tells the exchange that it leaves. -/
theorem Sound.leave (sound : party.Sound partner) :
    Move partner told party { party with leaves := True, erases := True } where
  sound :=
    { sound with
      erases := fun _ => trivial
      leaves := fun _ => .inr (.inr trivial)
      consents := fun _ _ _ => .inl (.inr trivial) }
  bound := fun _ _ _ => .inr trivial
  consents := id
  heard := .inl
  hears := id
  written := .inl
  writes := .inl
  copy := sound.stay.copy

/-- It erases its copy, because it has left. -/
theorem Sound.erase (sound : party.Sound partner) (erases : party.erases) {more : Prop} :
    Move partner told party { party with copy := none, erases := more } where
  sound :=
    { sound with
      erases := fun _ => sound.erases erases
      leaves := fun _ => .inl rfl
      consents := fun _ _ _ => .inl (.inr (sound.erases erases)) }
  bound := fun _ _ _ => .inr (sound.erases erases)
  consents := id
  heard := .inl
  hears := id
  written := .inl
  writes := .inl
  copy := nofun

/-- It erases its copy, because it has been dismissed. -/
theorem Sound.hearDismissal (sound : party.Sound partner) (dismissed : party.dismissed)
    {more : Prop} :
    Move partner told party { party with copy := none, dismissed := more } := by
  -- What is bound while it is dismissed is bound because it leaves.
  have bound : ∀ other, party.Bound other →
      Bound { party with copy := none, dismissed := more } other := by
    intro other before
    rcases before with ⟨-, stays⟩ | leaves
    · exact absurd dismissed stays
    · exact .inr leaves
  exact
    { sound :=
        { sound with
          leaves := fun _ => .inl rfl
          consents := fun other partnered consents =>
            (sound.consents other partnered consents).imp_left (bound other) }
      bound := fun other _ => bound other
      consents := id
      heard := .inl
      hears := id
      written := .inl
      writes := .inl
      copy := nofun }

/-- Its copy is overwritten before a dismissal erases it. -/
theorem Sound.overwrite (sound : party.Sound partner) (dismissed : party.dismissed)
    {value : Option Id} : Move partner told party { party with copy := value } := by
  have bound : ∀ other, party.Bound other → Bound { party with copy := value } other := by
    intro other before
    rcases before with ⟨-, stays⟩ | leaves
    · exact absurd dismissed stays
    · exact .inr leaves
  exact
    { sound :=
        { sound with
          leaves := fun _ => .inr (.inl dismissed)
          consents := fun other partnered consents =>
            (sound.consents other partnered consents).imp_left (bound other) }
      bound := fun other _ => bound other
      consents := id
      heard := .inl
      hears := id
      written := .inl
      writes := .inl
      copy := fun _ _ => .inl dismissed }

/-- It consents. -/
theorem Sound.consent (sound : party.Sound partner) :
    Move partner told party { party with consents := True, writes := True } where
  sound :=
    { sound with consents := fun _ _ _ => .inr trivial }
  bound := fun _ _ bound => bound
  consents := fun _ => trivial
  heard := .inl
  hears := id
  written := fun _ => .inl trivial
  writes := fun _ => .inr trivial
  copy := by
    intro other held
    by_cases dismissed : party.dismissed
    · exact .inl dismissed
    · exact .inr (.inl ⟨held, dismissed⟩)

/-- A current copy binds it to its partner. -/
theorem Current.bound {value : Option Id} (current : party.Current partner value) {other : Id}
    (partnered : partner = some other) :
    (value = some other ∧ ¬ party.dismissed) ∨ party.leaves := by
  rcases current with ⟨-, stays, -, same⟩ | ⟨leaves | alone, -⟩
  · exact .inl ⟨same.trans partnered, stays⟩
  · exact .inr leaves
  · cases alone.symm.trans partnered

/-- A party that leaves stays without copy, unless it is about to be dismissed. -/
theorem Current.leaves {value : Option Id} (current : party.Current partner value)
    (leaves : party.leaves) : value = none ∨ party.dismissed := by
  rcases current with ⟨remains, -⟩ | ⟨-, nobody⟩
  · exact absurd leaves remains
  · exact nobody

/-- A copy that is current is the partner. -/
theorem Current.partner_eq {other : Id} (current : party.Current partner (some other)) :
    party.dismissed ∨ partner = some other := by
  rcases current with ⟨-, -, -, same⟩ | ⟨-, nobody | dismissed⟩
  · exact .inr same.symm
  · cases nobody
  · exact .inl dismissed

/-- It writes its copy after its consent. -/
theorem Sound.write (sound : party.Sound partner) (writes : party.writes) {value : Option Id}
    (current : party.Current partner value) {more : Prop} :
    Move partner told party { party with copy := value, writes := more } where
  sound :=
    { sound with
      leaves := fun leaves => (current.leaves leaves).imp_right .inl
      consents := fun _ partnered _ => .inl (current.bound partnered) }
  bound := fun _ partnered _ => current.bound partnered
  consents := id
  heard := .inl
  hears := id
  written := fun _ => .inr fun _ partnered => current.bound partnered
  writes := fun _ => .inl writes
  copy := by
    rintro other rfl
    exact current.partner_eq.imp_right fun partnered => .inr ⟨partnered, .inr (.inl writes)⟩

/-- It hears a consent and writes its copy. -/
theorem Sound.hear (sound : party.Sound partner) (hears : party.hears) (isTold : told)
    {value : Option Id} (current : party.Current partner value) {more : Prop} :
    Move partner told party { party with copy := value, hears := more } where
  sound :=
    { sound with
      leaves := fun leaves => (current.leaves leaves).imp_right .inl
      consents := fun _ partnered _ => .inl (current.bound partnered) }
  bound := fun _ partnered _ => current.bound partnered
  consents := id
  heard := fun _ => .inr fun _ partnered => current.bound partnered
  hears := fun _ => hears
  written := .inl
  writes := .inl
  copy := by
    rintro other rfl
    exact current.partner_eq.imp_right fun partnered =>
      .inr ⟨partnered, .inr (.inr ⟨hears, isTold⟩)⟩

end Party

/-! ## All parties together -/

variable {Id : Type u} {matching : Matching Id} {party : Id → Party Id}

/-- A party may have its partner as its copy: the partner has it too, or will hear of it. -/
def Excused (party : Id → Party Id) (key other : Id) : Prop :=
  (party other).Bound key ∨ (party key).consents ∨ (party other).hears

/-- The partner of a party has its copy, or is not about to write it. -/
def PartnerWrote (matching : Matching Id) (party : Id → Party Id) (key : Id) : Prop :=
  ∀ other, matching.partner key = some other → (party other).Bound key ∨ ¬ (party other).writes

/-- Every copy is the partner, or something is on its way that will change it. -/
structure Accord (matching : Matching Id) (party : Id → Party Id) : Prop where
  sound : ∀ key, (party key).Sound (matching.partner key)
  copies : ∀ key other, (party key).copy = some other → (party key).dismissed ∨
    (matching.partner key = some other ∧ Excused party key other)
  hears : ∀ key other, matching.partner key = some other → (party key).hears →
    (party other).Bound key ∨ (party other).writes
  writes : ∀ key other, matching.partner key = some other → (party key).writes →
    Excused party key other

theorem eq_or_eq_or_ne (key first second : Id) :
    key = first ∨ key = second ∨ (key ≠ first ∧ key ≠ second) := by
  tauto

namespace Accord

/-- **When nothing is on its way, partners have copies of each other**, and nobody else
has a copy. -/
theorem agree (accord : Accord matching party)
    (quiet : ∀ key, ¬ (party key).leaves ∧ ¬ (party key).dismissed ∧ ¬ (party key).consents ∧
      ¬ (party key).hears)
    {key other : Id} (held : (party key).copy = some other) :
    (party other).copy = some key ∧ matching.partner key = some other ∧
      matching.partner other = some key := by
  rcases accord.copies key other held with dismissed | ⟨partnered, bound | consents | hears⟩
  · exact absurd dismissed (quiet key).2.1
  · rcases bound with ⟨same, -⟩ | leaves
    · exact ⟨same, partnered, matching.symmetric key other partnered⟩
    · exact absurd leaves (quiet other).1
  · exact absurd consents (quiet key).2.2.1
  · exact absurd hears (quiet other).2.2.2

/-- A partner has a partner. -/
theorem ne_of_partnered {alone key other : Id} (nobody : matching.partner alone = none)
    (has : matching.partner key = some other) : other ≠ alone := by
  rintro rfl
  cases nobody.symm.trans (matching.symmetric key other has)

variable [DecidableEq Id]

/-- What excuses a copy is kept by a move. -/
theorem excused_move {mover : Id} {told : Prop} {after : Party Id}
    (moved : (party mover).Move (matching.partner mover) told after) {key other : Id}
    (partnered : matching.partner key = some other) (excused : Excused party key other) :
    Excused (Function.update party mover after) key other := by
  have back := matching.symmetric key other partnered
  rcases excused with before | consents | hears
  · left
    by_cases isMover : other = mover
    · subst isMover
      rw [Function.update_self]
      exact moved.bound key back before
    · rwa [Function.update_of_ne isMover]
  · refine .inr (.inl ?_)
    by_cases isMover : key = mover
    · subst isMover
      rw [Function.update_self]
      exact moved.consents consents
    · rwa [Function.update_of_ne isMover]
  · by_cases isMover : other = mover
    · subst isMover
      rw [Excused, Function.update_self]
      exact (moved.heard hears).elim (fun hears => .inr (.inr hears)) fun bound =>
        .inl (bound key back)
    · refine .inr (.inr ?_)
      rwa [Function.update_of_ne isMover]

/-- **A move of a party keeps the accord.** -/
theorem move (accord : Accord matching party) {mover : Id} {after : Party Id}
    (moved :
      (party mover).Move (matching.partner mover) (PartnerWrote matching party mover) after) :
    Accord matching (Function.update party mover after) := by
  refine ⟨?_, ?_, ?_, ?_⟩
  · intro key
    by_cases isMover : key = mover
    · subst isMover
      rw [Function.update_self]
      exact moved.sound
    · rw [Function.update_of_ne isMover]
      exact accord.sound key
  · intro key other held
    by_cases isMover : key = mover
    · subst isMover
      rw [Function.update_self] at held
      rcases moved.copy other held with dismissed | ⟨before, notDismissed⟩ | ⟨partnered, given⟩
      · rw [Function.update_self]
        exact .inl dismissed
      · rcases accord.copies key other before with dismissed | ⟨partnered, excused⟩
        · exact absurd dismissed notDismissed
        · exact .inr ⟨partnered, excused_move moved partnered excused⟩
      · refine .inr ⟨partnered, ?_⟩
        rcases given with consents | writes | ⟨hears, told⟩
        · refine .inr (.inl ?_)
          rwa [Function.update_self]
        · exact excused_move moved partnered (accord.writes key other partnered writes)
        · -- what it hears of was written before it writes
          have bound := (accord.hears key other partnered hears).elim id fun writes =>
            (told other partnered).resolve_right fun notWrites => notWrites writes
          exact excused_move moved partnered (.inl bound)
    · rw [Function.update_of_ne isMover] at held ⊢
      exact (accord.copies key other held).imp_right fun ⟨partnered, excused⟩ =>
        ⟨partnered, excused_move moved partnered excused⟩
  · intro key other partnered hears
    have before : (party key).hears := by
      by_cases isMover : key = mover
      · subst isMover
        rw [Function.update_self] at hears
        exact moved.hears hears
      · rwa [Function.update_of_ne isMover] at hears
    have back := matching.symmetric key other partnered
    by_cases isMover : other = mover
    · subst isMover
      rw [Function.update_self]
      rcases accord.hears key other partnered before with bound | writes
      · exact .inl (moved.bound key back bound)
      · exact (moved.written writes).elim .inr fun bound => .inl (bound key back)
    · rw [Function.update_of_ne isMover]
      exact accord.hears key other partnered before
  · intro key other partnered writes
    by_cases isMover : key = mover
    · subst isMover
      rw [Function.update_self] at writes
      rcases moved.writes writes with before | consents
      · exact excused_move moved partnered (accord.writes key other partnered before)
      · refine .inr (.inl ?_)
        rwa [Function.update_self]
    · rw [Function.update_of_ne isMover] at writes
      exact excused_move moved partnered (accord.writes key other partnered writes)

/-! ## What the exchange does -/

section Exchange

variable {after : Id → Party Id} {first second : Id}

omit [DecidableEq Id] in
/-- **The exchange passes a consent on** to the partner of the party that has given it. -/
theorem pass (accord : Accord matching party) (partnered : matching.partner first = some second)
    (consents : (party first).consents) {more : Prop}
    (sender : after first = { party first with consents := more })
    (receiver : after second = { party second with hears := True })
    (others : ∀ key, key ≠ first → key ≠ second → after key = party key) :
    Accord matching after := by
  have same : ∀ key, (after key).copy = (party key).copy ∧
      (after key).leaves = (party key).leaves ∧ (after key).dismissed = (party key).dismissed ∧
        (after key).writes = (party key).writes := by
    intro key
    rcases eq_or_eq_or_ne key first second with rfl | rfl | ⟨notFirst, notSecond⟩
    · rw [sender]
      exact ⟨rfl, rfl, rfl, rfl⟩
    · rw [receiver]
      exact ⟨rfl, rfl, rfl, rfl⟩
    · rw [others key notFirst notSecond]
      exact ⟨rfl, rfl, rfl, rfl⟩
  have bound : ∀ key other, (party key).Bound other → (after key).Bound other := by
    intro key other before
    obtain ⟨copy, leaves, dismissed, -⟩ := same key
    rwa [Party.Bound, copy, leaves, dismissed]
  have excused : ∀ key other, matching.partner key = some other → Excused party key other →
      Excused after key other := by
    intro key other has excuse
    rcases excuse with before | consented | heard
    · exact .inl (bound other key before)
    · rcases eq_or_eq_or_ne key first second with rfl | rfl | ⟨notFirst, notSecond⟩
      · obtain rfl : second = other := Option.some.inj (partnered.symm.trans has)
        refine .inr (.inr ?_)
        rw [receiver]
        trivial
      · refine .inr (.inl ?_)
        rw [receiver]
        exact consented
      · refine .inr (.inl ?_)
        rw [others key notFirst notSecond]
        exact consented
    · refine .inr (.inr ?_)
      rcases eq_or_eq_or_ne other first second with rfl | rfl | ⟨notFirst, notSecond⟩
      · rw [sender]
        exact heard
      · rw [receiver]
        trivial
      · rw [others other notFirst notSecond]
        exact heard
  refine ⟨?_, ?_, ?_, ?_⟩
  · intro key
    have sound := accord.sound key
    rcases eq_or_eq_or_ne key first second with rfl | rfl | ⟨notFirst, notSecond⟩
    · rw [sender]
      exact { sound with consents := fun other has _ => sound.consents other has consents }
    · rw [receiver]
      exact { sound with }
    · rwa [others key notFirst notSecond]
  · intro key other held
    rw [(same key).1] at held
    rw [(same key).2.2.1]
    exact (accord.copies key other held).imp_right fun ⟨has, excuse⟩ =>
      ⟨has, excused key other has excuse⟩
  · intro key other has heard
    rw [(same other).2.2.2]
    refine Or.imp_left (bound other key) ?_
    rcases eq_or_eq_or_ne key first second with rfl | rfl | ⟨notFirst, notSecond⟩
    · rw [sender] at heard
      exact accord.hears key other has heard
    · obtain rfl : first = other :=
        matching.partner_injective partnered (matching.symmetric key other has)
      exact (accord.sound first).consents key partnered consents
    · rw [others key notFirst notSecond] at heard
      exact accord.hears key other has heard
  · intro key other has writes
    rw [(same key).2.2.2] at writes
    exact excused key other has (accord.writes key other has writes)

/-- **The exchange ends a pair** when it hears that one of the two leaves, which has erased
its copy, and dismisses the other. -/
theorem part (accord : Accord matching party) (partnered : matching.partner first = some second)
    (leaves : (party first).leaves) (erased : ¬ (party first).erases) {more : Prop}
    (sender : after first = { party first with leaves := more })
    (receiver : after second = { party second with dismissed := True, hears := False })
    (others : ∀ key, key ≠ first → key ≠ second → after key = party key) :
    Accord (matching.unpair first second partnered) after := by
  have firstAlone : (matching.unpair first second partnered).partner first = none := by
    simp [Matching.unpair, Function.update_apply]
  have secondAlone : (matching.unpair first second partnered).partner second = none := by
    simp [Matching.unpair]
  have same : ∀ key, key ≠ first → key ≠ second →
      (matching.unpair first second partnered).partner key = matching.partner key := by
    intro key notFirst notSecond
    simp [Matching.unpair, notFirst, notSecond]
  -- The partner of another party is another party.
  have away : ∀ key other, key ≠ first → key ≠ second → matching.partner key = some other →
      after other = party other := by
    intro key other notFirst notSecond has
    apply others
    · rintro rfl
      exact notSecond (matching.partner_injective has (matching.symmetric _ _ partnered))
    · rintro rfl
      exact notFirst (matching.partner_injective has partnered)
  refine ⟨?_, ?_, ?_, ?_⟩
  · intro key
    have sound := accord.sound key
    rcases eq_or_eq_or_ne key first second with rfl | rfl | ⟨notFirst, notSecond⟩
    · rw [sender, firstAlone]
      exact {
        erases := fun erases => absurd erases erased
        leaves := fun _ => sound.leaves leaves
        consents := nofun }
    · rw [receiver, secondAlone]
      exact { sound with
        leaves := fun _ => .inr (.inl trivial)
        consents := nofun }
    · rwa [others key notFirst notSecond, same key notFirst notSecond]
  · intro key other held
    rcases eq_or_eq_or_ne key first second with rfl | rfl | ⟨notFirst, notSecond⟩
    · rw [sender] at held ⊢
      refine .inl ?_
      rcases (accord.sound key).leaves leaves with nobody | dismissed | erases
      · cases nobody.symm.trans held
      · exact dismissed
      · exact absurd erases erased
    · rw [receiver]
      exact .inl trivial
    · rw [others key notFirst notSecond] at held ⊢
      refine (accord.copies key other held).imp_right fun ⟨has, excuse⟩ => ?_
      rw [same key notFirst notSecond, Excused, away key other notFirst notSecond has,
        others key notFirst notSecond]
      exact ⟨has, excuse⟩
  · intro key other has heard
    rcases eq_or_eq_or_ne key first second with rfl | rfl | ⟨notFirst, notSecond⟩
    · cases firstAlone.symm.trans has
    · cases secondAlone.symm.trans has
    · rw [same key notFirst notSecond] at has
      rw [others key notFirst notSecond] at heard
      rw [away key other notFirst notSecond has]
      exact accord.hears key other has heard
  · intro key other has writes
    rcases eq_or_eq_or_ne key first second with rfl | rfl | ⟨notFirst, notSecond⟩
    · cases firstAlone.symm.trans has
    · cases secondAlone.symm.trans has
    · rw [same key notFirst notSecond] at has
      rw [others key notFirst notSecond] at writes
      rw [Excused, away key other notFirst notSecond has, others key notFirst notSecond]
      exact accord.writes key other has writes

/-- **The exchange makes a pair** of two settled parties. -/
theorem join (accord : Accord matching party) (distinct : first ≠ second)
    (firstFree : matching.partner first = none) (secondFree : matching.partner second = none)
    (firstSettled : (party first).Settled) (secondSettled : (party second).Settled) :
    Accord (matching.pair first second distinct firstFree secondFree) party := by
  have same : ∀ key, key ≠ first → key ≠ second →
      (matching.pair first second distinct firstFree secondFree).partner key =
        matching.partner key := by
    intro key notFirst notSecond
    simp [Matching.pair, notFirst, notSecond]
  -- What a settled party asks of its partner holds of any partner.
  have settledSound : ∀ key, (party key).Settled → ∀ partner, (party key).Sound partner := by
    intro key settled partner
    exact { accord.sound key with consents := fun _ _ consents => absurd consents settled.1 }
  -- A copy of a party that had no partner will be erased.
  have doomed : ∀ key other, matching.partner key = none → (party key).copy = some other →
      (party key).dismissed := by
    intro key other alone held
    rcases accord.copies key other held with dismissed | ⟨partnered, -⟩
    · exact dismissed
    · cases alone.symm.trans partnered
  refine ⟨?_, ?_, ?_, ?_⟩
  · intro key
    rcases eq_or_eq_or_ne key first second with rfl | rfl | ⟨notFirst, notSecond⟩
    · exact settledSound key firstSettled _
    · exact settledSound key secondSettled _
    · rw [same key notFirst notSecond]
      exact accord.sound key
  · intro key other held
    rcases eq_or_eq_or_ne key first second with rfl | rfl | ⟨notFirst, notSecond⟩
    · exact .inl (doomed key other firstFree held)
    · exact .inl (doomed key other secondFree held)
    · rw [same key notFirst notSecond]
      exact accord.copies key other held
  · intro key other has heard
    rcases eq_or_eq_or_ne key first second with rfl | rfl | ⟨notFirst, notSecond⟩
    · exact absurd heard firstSettled.2.2
    · exact absurd heard secondSettled.2.2
    · rw [same key notFirst notSecond] at has
      exact accord.hears key other has heard
  · intro key other has writes
    rcases eq_or_eq_or_ne key first second with rfl | rfl | ⟨notFirst, notSecond⟩
    · exact absurd writes firstSettled.2.1
    · exact absurd writes secondSettled.2.1
    · rw [same key notFirst notSecond] at has
      exact accord.writes key other has writes

/-- **The exchange hears a party that has no partner**, and nothing comes of it. -/
theorem lose (accord : Accord matching party) (alone : matching.partner first = none)
    {leaves consents : Prop} (left : leaves → (party first).leaves)
    (erased : (party first).erases → leaves)
    (sender : after first = { party first with leaves := leaves, consents := consents })
    (others : ∀ key, key ≠ first → after key = party key) : Accord matching after := by
  refine ⟨?_, ?_, ?_, ?_⟩
  · intro key
    by_cases isFirst : key = first
    · rw [isFirst, sender, alone]
      exact
        { erases := erased
          leaves := fun leaves => (accord.sound first).leaves (left leaves)
          consents := nofun }
    · rw [others key isFirst]
      exact accord.sound key
  · intro key other held
    by_cases isFirst : key = first
    · subst isFirst
      rw [sender] at held ⊢
      rcases accord.copies key other held with dismissed | ⟨has, -⟩
      · exact .inl dismissed
      · cases alone.symm.trans has
    · rw [others key isFirst] at held ⊢
      refine (accord.copies key other held).imp_right ?_
      rintro ⟨has, excuse⟩
      rw [Excused, others other (ne_of_partnered alone has), others key isFirst]
      exact ⟨has, excuse⟩
  · intro key other has heard
    by_cases isFirst : key = first
    · cases alone.symm.trans (isFirst ▸ has)
    · rw [others key isFirst] at heard
      rw [others other (ne_of_partnered alone has)]
      exact accord.hears key other has heard
  · intro key other has writes
    by_cases isFirst : key = first
    · cases alone.symm.trans (isFirst ▸ has)
    · rw [others key isFirst] at writes
      rw [Excused, others other (ne_of_partnered alone has), others key isFirst]
      exact accord.writes key other has writes

end Exchange

end Accord

end NetworkChat.Foundation
