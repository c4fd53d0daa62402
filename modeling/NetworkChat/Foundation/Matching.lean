import Mathlib.Data.Option.Basic
import Mathlib.Logic.Function.Basic

/-!
# Matchings as partner maps

A matching on the keys: every key has at most one partner, partners have each
other, and no key is its own partner. The laws are members of the structure, so
`pair` and `unpair` ask for what keeps them.
-/

set_option autoImplicit false

namespace NetworkChat.Foundation

/-- A symmetric irreflexive partial map. -/
structure Matching (Key : Type*) where
  partner : Key → Option Key
  symmetric : ∀ first second, partner first = some second → partner second = some first
  irreflexive : ∀ key, partner key ≠ some key

namespace Matching

variable {Key : Type*}

/-- Nobody has a partner. -/
def empty : Matching Key := ⟨fun _ => none, nofun, nofun⟩

/-- Nobody is the partner of two. -/
theorem partner_injective (matching : Matching Key) {first second key : Key}
    (firstHas : matching.partner first = some key)
    (secondHas : matching.partner second = some key) : first = second := by
  have back := matching.symmetric _ _ firstHas
  rw [matching.symmetric _ _ secondHas] at back
  exact (Option.some.inj back).symm

theorem ne_of_partner (matching : Matching Key) {first second : Key}
    (paired : matching.partner first = some second) : first ≠ second := by
  rintro rfl
  exact matching.irreflexive first paired

variable [DecidableEq Key]

/-- Two different keys without partners become partners. -/
def pair (matching : Matching Key) (first second : Key) (distinct : first ≠ second)
    (firstFree : matching.partner first = none) (secondFree : matching.partner second = none) :
    Matching Key where
  partner := Function.update (Function.update matching.partner first (some second)) second
    (some first)
  symmetric := by
    have unused : ∀ key other, matching.partner key = some other →
        key ≠ first ∧ key ≠ second := by
      intro key other has
      exact ⟨by rintro rfl; simp [firstFree] at has, by rintro rfl; simp [secondFree] at has⟩
    intro key other has
    simp only [Function.update_apply] at has ⊢
    by_cases isSecond : key = second
    · simp only [isSecond, if_true, Option.some.injEq] at has
      simp [← has, distinct, isSecond]
    · by_cases isFirst : key = first
      · simp only [isFirst, distinct, if_true, if_false, Option.some.injEq] at has
        simp [← has, isFirst]
      · simp only [isSecond, isFirst, if_false] at has
        have other := unused _ _ (matching.symmetric _ _ has)
        simp only [other.1, other.2, if_false]
        exact matching.symmetric _ _ has
  irreflexive := by
    intro key
    simp only [Function.update_apply]
    split
    · rename_i isSecond
      simpa [isSecond] using distinct
    · split
      · rename_i isFirst
        simpa [isFirst] using distinct.symm
      · exact matching.irreflexive key

/-- Two partners lose each other. -/
def unpair (matching : Matching Key) (first second : Key)
    (paired : matching.partner first = some second) : Matching Key where
  partner := Function.update (Function.update matching.partner first none) second none
  symmetric := by
    intro key other has
    simp only [Function.update_apply] at has ⊢
    have notSecond : key ≠ second := by rintro rfl; simp at has
    have notFirst : key ≠ first := by rintro rfl; simp [notSecond] at has
    simp only [notSecond, notFirst, if_false] at has
    have otherNotSecond : other ≠ second := by
      rintro rfl
      exact notFirst (matching.partner_injective has paired)
    have otherNotFirst : other ≠ first := by
      rintro rfl
      exact notSecond (matching.partner_injective has (matching.symmetric _ _ paired))
    simp only [otherNotSecond, otherNotFirst, if_false]
    exact matching.symmetric _ _ has
  irreflexive := by
    intro key
    simp only [Function.update_apply]
    split
    · nofun
    · split
      · nofun
      · exact matching.irreflexive key

/-- What may happen to a matching at once. -/
inductive Change (matching : Matching Key) : Matching Key → Prop where
  | keep : Change matching matching
  | pair (first second : Key) (distinct : first ≠ second)
      (firstFree : matching.partner first = none) (secondFree : matching.partner second = none) :
      Change matching (matching.pair first second distinct firstFree secondFree)
  | unpair (first second : Key) (paired : matching.partner first = some second) :
      Change matching (matching.unpair first second paired)

end Matching

end NetworkChat.Foundation
