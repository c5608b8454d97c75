import Mathlib.Data.List.Basic

/-! Strong Kleene logic: predicates that may stay undecided. A conjunction is
decided by one refuted part, a disjunction by one established part. -/
namespace DddFramework.Library

inductive Truth where
  | yes
  | no
  | unknown
deriving DecidableEq

namespace Truth

def ofBool : Bool → Truth
  | true => yes
  | false => no

def neg : Truth → Truth
  | yes => no
  | no => yes
  | unknown => unknown

def conj : Truth → Truth → Truth
  | no, _ => no
  | _, no => no
  | yes, yes => yes
  | _, _ => unknown

def disj : Truth → Truth → Truth
  | yes, _ => yes
  | _, yes => yes
  | no, no => no
  | _, _ => unknown

def all (parts : List Truth) : Truth := parts.foldr conj yes

def any (parts : List Truth) : Truth := parts.foldr disj no

@[simp] theorem ofBool_eq_yes {b : Bool} : ofBool b = yes ↔ b = true := by
  cases b <;> simp [ofBool]

@[simp] theorem ofBool_eq_no {b : Bool} : ofBool b = no ↔ b = false := by
  cases b <;> simp [ofBool]

@[simp] theorem ofBool_ne_unknown {b : Bool} : ofBool b ≠ unknown := by
  cases b <;> simp [ofBool]

@[simp] theorem neg_eq_yes {t : Truth} : neg t = yes ↔ t = no := by
  cases t <;> simp [neg]

@[simp] theorem neg_eq_no {t : Truth} : neg t = no ↔ t = yes := by
  cases t <;> simp [neg]

theorem conj_eq_yes {s t : Truth} : conj s t = yes ↔ s = yes ∧ t = yes := by
  cases s <;> cases t <;> simp [conj]

theorem disj_eq_yes {s t : Truth} : disj s t = yes ↔ s = yes ∨ t = yes := by
  cases s <;> cases t <;> simp [disj]

theorem disj_eq_no {s t : Truth} : disj s t = no ↔ s = no ∧ t = no := by
  cases s <;> cases t <;> simp [disj]

theorem all_eq_yes {parts : List Truth} : all parts = yes ↔ ∀ t ∈ parts, t = yes := by
  induction parts with
  | nil => simp [all]
  | cons t parts ih =>
    rw [List.forall_mem_cons, ← ih]
    exact conj_eq_yes

theorem any_eq_yes {parts : List Truth} : any parts = yes ↔ ∃ t ∈ parts, t = yes := by
  induction parts with
  | nil => simp [any]
  | cons t parts ih =>
    rw [List.exists_mem_cons_iff, ← ih]
    exact disj_eq_yes

theorem any_eq_no {parts : List Truth} : any parts = no ↔ ∀ t ∈ parts, t = no := by
  induction parts with
  | nil => simp [any]
  | cons t parts ih =>
    rw [List.forall_mem_cons, ← ih]
    exact disj_eq_no

theorem any_eq_unknown {parts : List Truth} (hyes : ∀ t ∈ parts, t ≠ yes)
    (hopen : ∃ t ∈ parts, t ≠ no) : any parts = unknown := by
  cases h : any parts with
  | unknown => rfl
  | yes =>
    obtain ⟨t, ht, rfl⟩ := any_eq_yes.mp h
    exact absurd rfl (hyes _ ht)
  | no =>
    obtain ⟨t, ht, hne⟩ := hopen
    exact absurd (any_eq_no.mp h t ht) hne

end Truth
end DddFramework.Library
