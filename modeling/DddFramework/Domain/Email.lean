import DddFramework.Library.Lookup
import DddFramework.Library.Strip

/-! `Email`, an address in its normal form, and its comparison with strings. -/
namespace DddFramework.Domain
open Library

/-- `validate_email`, which normalizes an address or raises `EmailNotValidError`. -/
structure EmailValidator where
  validateEmail : String → Option String
  idempotent : ∀ {text normalized}, validateEmail text = some normalized →
    validateEmail normalized = some normalized

/-- A value that `__post_init__` has left: the normal form of a text that is not blank. -/
@[ext] structure Email (validator : EmailValidator) where
  value : String
  constructed : ∃ text, strip isSpace text.toList ≠ [] ∧
    validator.validateEmail text = some value

structure ValueError where
  message : String
deriving DecidableEq

inductive Operand (validator : EmailValidator) where
  | email (other : Email validator)
  | str (other : String)
  | object

namespace Email
variable {validator : EmailValidator}

def make (validator : EmailValidator) (value : String) : Except ValueError (Email validator) :=
  if hblank : strip isSpace value.toList = [] then .error ⟨"Email cannot be empty"⟩
  else
    match hvalue : validator.validateEmail value with
    | none => .error ⟨"Invalid email address"⟩
    | some normalized => .ok ⟨normalized, value, hblank, hvalue⟩

/-- `__eq__`; `none` is `NotImplemented`. A string is compared by validating the value of the
`Email` itself. -/
def eq (self : Email validator) : Operand validator → Option Bool
  | .email other => some (self.value == other.value)
  | .str _ =>
    match validator.validateEmail self.value with
    | none => some false
    | some normalized => some (self.value == normalized)
  | .object => none

theorem validateEmail_value (e : Email validator) :
    validator.validateEmail e.value = some e.value := by
  obtain ⟨text, -, htext⟩ := e.constructed
  exact validator.idempotent htext

end Email

section operands
variable {validator : EmailValidator}

/-- `x == y`, where a string leaves the answer to an `Email` on the right. -/
def Operand.eq : Operand validator → Operand validator → Option Bool
  | .email e, y => e.eq y
  | x, .email e => e.eq x
  | .str s, .str t => some (s == t)
  | _, _ => none

def Operand.isEmail : Operand validator → Bool
  | .email _ => true
  | _ => false

def ThroughEmail (x y : Operand validator) : Prop := x.isEmail ∨ y.isEmail

def SoundFor (e : Email validator) (s : String) : Prop :=
  (Operand.email e).eq (.str s) = some true ↔ validator.validateEmail s = some e.value

def SymmetricFor (x y : Operand validator) : Prop :=
  ThroughEmail x y → x.eq y = some true → y.eq x = some true

def TransitiveFor (x y z : Operand validator) : Prop :=
  ThroughEmail x y → ThroughEmail y z → ThroughEmail x z →
    x.eq y = some true → y.eq z = some true → x.eq z = some true

theorem Email.eq_str (e : Email validator) (s : String) : e.eq (.str s) = some true := by
  simp only [Email.eq, e.validateEmail_value, beq_self_eq_true]

theorem Email.eq_email {e other : Email validator} :
    e.eq (.email other) = some true ↔ e.value = other.value := by
  rw [Email.eq, Option.some_inj, beq_iff_eq]

@[simp] theorem Operand.object_eq (x : Operand validator) : Operand.object.eq x = none := by
  cases x <;> rfl

@[simp] theorem Operand.eq_object (x : Operand validator) : x.eq .object = none := by
  cases x <;> rfl

@[simp] theorem throughEmail_strs {s : String} {x : Operand validator} :
    ThroughEmail (.str s) x ↔ x.isEmail := by
  simp [ThroughEmail, Operand.isEmail]

theorem symmetricFor (x y : Operand validator) : SymmetricFor x y := by
  intro hthrough hxy
  cases x with
  | object => simp at hxy
  | email e =>
    cases y with
    | email other => exact Email.eq_email.mpr (Email.eq_email.mp hxy).symm
    | str s => exact e.eq_str s
    | object => simp at hxy
  | str s =>
    cases y with
    | email other => exact other.eq_str s
    | str t => exact absurd (throughEmail_strs.mp hthrough) Bool.false_ne_true
    | object => simp at hxy

theorem transitiveFor_email {e : Email validator} (x z : Operand validator) :
    TransitiveFor x (.email e) z := by
  intro _ _ hthrough hxy hyz
  cases x with
  | object => simp at hxy
  | email first =>
    cases z with
    | email last =>
      exact Email.eq_email.mpr ((Email.eq_email.mp hxy).trans (Email.eq_email.mp hyz))
    | str s => exact first.eq_str s
    | object => simp at hyz
  | str s =>
    cases z with
    | email last => exact last.eq_str s
    | str t => exact absurd (throughEmail_strs.mp hthrough) Bool.false_ne_true
    | object => simp at hyz

theorem transitiveFor_str {s : String} (x z : Operand validator) :
    TransitiveFor x (.str s) z ↔
      ∀ e other, x = .email e → z = .email other → e.value = other.value := by
  apply Iff.intro
  · rintro h e other rfl rfl
    exact Email.eq_email.mp (h (.inl rfl) (.inr rfl) (.inl rfl) (e.eq_str s) (other.eq_str s))
  · intro hvalues hxs hsz _ hxy hyz
    cases x with
    | object => simp at hxy
    | str t => exact absurd (throughEmail_strs.mp hxs) Bool.false_ne_true
    | email e =>
      cases z with
      | object => simp at hyz
      | str t => exact absurd (throughEmail_strs.mp hsz) Bool.false_ne_true
      | email other => exact Email.eq_email.mpr (hvalues e other rfl rfl)

/-- The comparison with a string is right for the spellings of the address only, as it validates
the value of the `Email` in place of the string. Through a string, any two are equal. -/
theorem email_eq_sound_iff :
    (∀ (e : Email validator) s, SoundFor e s ↔ validator.validateEmail s = some e.value) ∧
    (∀ x y : Operand validator, SymmetricFor x y) ∧
    ∀ x y z : Operand validator, TransitiveFor x y z ↔
      ∀ e s other, x = .email e → y = .str s → z = .email other → e.value = other.value := by
  refine ⟨?_, symmetricFor, ?_⟩
  · intro e s
    have heq : (Operand.email e).eq (.str s) = some true := e.eq_str s
    rw [SoundFor, heq]
    simp
  · intro x y z
    cases y with
    | email e => simp [transitiveFor_email x z]
    | object => simp [TransitiveFor]
    | str s =>
      rw [transitiveFor_str]
      apply Iff.intro
      · intro h e t other hx _ hz
        exact h e other hx hz
      · intro h e other hx hz
        exact h e s other hx rfl hz

end operands

def directory : EmailValidator where
  validateEmail := fun text =>
    [("ann@Example.com", "ann@example.com"), ("ann@example.com", "ann@example.com"),
      ("bob@example.com", "bob@example.com")].lookup text
  idempotent := by
    intro text normalized h
    have hmem := mem_of_lookup h
    simp only [List.mem_cons, Prod.mk.injEq, List.not_mem_nil, or_false] at hmem
    rcases hmem with ⟨-, rfl⟩ | ⟨-, rfl⟩ | ⟨-, rfl⟩ <;> rfl

def ann : Email directory := ⟨"ann@example.com", "ann@Example.com", by decide, rfl⟩

def bob : Email directory := ⟨"bob@example.com", "bob@example.com", by decide, rfl⟩

/-- The address of another, and no address at all, are equal to an `Email`. -/
theorem ann_eq_bob_str :
    ¬ SoundFor ann "bob@example.com" ∧ ¬ SoundFor ann "nobody" ∧
      ¬ TransitiveFor (.email ann) (.str "bob@example.com") (.email bob) := by
  refine ⟨?_, ?_, ?_⟩
  · intro h
    exact absurd (h.mp rfl) (by decide)
  · intro h
    exact absurd (h.mp rfl) (by decide)
  · intro h
    exact absurd (h (.inl rfl) (.inr rfl) (.inl rfl) rfl rfl) (by decide)

end DddFramework.Domain
