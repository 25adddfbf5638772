/-!
# Checks of a payment

Three checks have to pass before a payment can be confirmed. A check that has passed stays passed.
-/

namespace Clearing

/-- A kind of check. -/
inductive Check where
  | sanction
  | auth
  | userConfirmation
  deriving DecidableEq, Repr

namespace Check

/-- The name of a check in messages. -/
def name : Check → String
  | .sanction => "SANCTION_CHECK"
  | .auth => "AUTH_CHECK"
  | .userConfirmation => "USER_CONFIRMATION_CHECK"

instance : ToString Check := ⟨name⟩

/-- Every check. -/
def all : List Check := [.sanction, .auth, .userConfirmation]

/-- The check of a name. -/
def ofName? (s : String) : Option Check := all.find? (·.name == s)

/-- A name leads back to its check. -/
theorem ofName?_name (c : Check) : ofName? c.name = some c := by
  cases c <;> decide

end Check

/-- Which checks have passed. -/
structure Checks where
  sanction : Bool
  auth : Bool
  userConfirmation : Bool
  deriving DecidableEq, Repr

namespace Checks

/-- No check has passed. -/
def none : Checks := ⟨false, false, false⟩

/-- Whether a check has passed. -/
def passed (p : Checks) : Check → Bool
  | .sanction => p.sanction
  | .auth => p.auth
  | .userConfirmation => p.userConfirmation

/-- Note that a check has passed. -/
def mark (p : Checks) : Check → Checks
  | .sanction => { p with sanction := true }
  | .auth => { p with auth := true }
  | .userConfirmation => { p with userConfirmation := true }

/-- Note that a check has passed and tell whether that is new. -/
def record (p : Checks) (c : Check) : Bool × Checks := (!p.passed c, p.mark c)

/-- Whether every check has passed. -/
def complete (p : Checks) : Bool := p.sanction && p.auth && p.userConfirmation

/-- Exactly the marked check is added. -/
@[simp] theorem passed_mark (p : Checks) (c d : Check) :
    (p.mark c).passed d = (p.passed d || d == c) := by
  cases c <;> cases d <;> simp [mark, passed]

/-- The checks are complete when each of them has passed. -/
theorem complete_iff {p : Checks} : p.complete = true ↔ ∀ c, p.passed c = true := by
  constructor
  · intro h c
    simp only [complete, Bool.and_eq_true] at h
    cases c <;> simp [passed, h]
  · intro h
    have h₁ := h .sanction
    have h₂ := h .auth
    have h₃ := h .userConfirmation
    simp only [passed] at h₁ h₂ h₃
    simp [complete, h₁, h₂, h₃]

end Checks

end Clearing
