import Mathlib.Data.List.Sort

/-! Orders a query asks for: one comparison after another, each of which may leave
rows tied. Sorting by such an order is strict on rows that are never tied. -/
namespace DddFramework.Library

variable {α : Type}

/-- A strict order in which being tied is transitive. -/
structure WeakOrder (lt : α → α → Bool) : Prop where
  asymm : ∀ {a b}, lt a b = true → lt b a = false
  split : ∀ {a c} (b), lt a c = true → lt a b = true ∨ lt b c = true

namespace WeakOrder
variable {lt : α → α → Bool}

theorem irrefl (w : WeakOrder lt) (a : α) : lt a a = false := by
  cases h : lt a a with
  | false => rfl
  | true => rw [← w.asymm h, h]

theorem trans (w : WeakOrder lt) {a b c : α} (hab : lt a b = true) (hbc : lt b c = true) :
    lt a c = true := by
  rcases w.split c hab with hac | hcb
  · exact hac
  · rw [w.asymm hbc] at hcb
    cases hcb

theorem of_key {K : Type} [LinearOrder K] (key : α → K) :
    WeakOrder fun a b => decide (key a < key b) where
  asymm h := by
    simp only [decide_eq_true_eq, decide_eq_false_iff_not, not_lt] at h ⊢
    exact h.le
  split b h := by
    simp only [decide_eq_true_eq] at h ⊢
    rcases lt_or_ge (key _) (key b) with hab | hba
    · exact .inl hab
    · exact .inr (hba.trans_lt h)

theorem swap (w : WeakOrder lt) : WeakOrder fun a b => lt b a where
  asymm h := w.asymm h
  split b h := (w.split b h).symm

end WeakOrder

theorem lt_or_tied {K : Type} [LinearOrder K] (x y : K) (tie : Bool) :
    (decide (x < y) || (!decide (y < x) && tie)) =
      (decide (x < y) || (decide (x = y) && tie)) := by
  rcases lt_trichotomy x y with h | rfl | h
  · simp [h]
  · simp
  · simp [h, h.ne', h.not_gt]

/-- The first comparison that separates two rows decides. -/
def lex : List (α → α → Bool) → α → α → Bool
  | [], _, _ => false
  | lt :: rest, a, b => lt a b || (!lt b a && lex rest a b)

theorem lex_weak {orders : List (α → α → Bool)} (h : ∀ lt ∈ orders, WeakOrder lt) :
    WeakOrder (lex orders) := by
  induction orders with
  | nil => constructor <;> simp [lex]
  | cons lt rest ih =>
    rw [List.forall_mem_cons] at h
    obtain ⟨hlt, hrest⟩ := h
    have hih := ih hrest
    constructor
    · intro a b hab
      simp only [lex, Bool.or_eq_true, Bool.and_eq_true, Bool.not_eq_true'] at hab
      rcases hab with hab | ⟨hba, hab⟩
      · simp [lex, hab, hlt.asymm hab]
      · simp [lex, hba, hih.asymm hab]
    · intro a c b hac
      simp only [lex, Bool.or_eq_true, Bool.and_eq_true, Bool.not_eq_true'] at hac ⊢
      rcases hac with hac | ⟨hca, hac⟩
      · rcases hlt.split b hac with hab | hbc
        · exact .inl (.inl hab)
        · exact .inr (.inl hbc)
      · by_cases hab : lt a b = true
        · exact .inl (.inl hab)
        · by_cases hbc : lt b c = true
          · exact .inr (.inl hbc)
          · -- `b` is tied with both ends in the first comparison
            have hba : lt b a = false := by
              cases hba : lt b a with
              | false => rfl
              | true => rcases hlt.split c hba with hbc' | hca' <;> simp_all
            have hcb : lt c b = false := by
              cases hcb : lt c b with
              | false => rfl
              | true => rcases hlt.split a hcb with hca' | hab' <;> simp_all
            rcases hih.split b hac with hab' | hbc'
            · exact .inl (.inr ⟨hba, hab'⟩)
            · exact .inr (.inr ⟨hcb, hbc'⟩)

def sortBy (lt : α → α → Bool) (rows : List α) : List α := rows.mergeSort fun a b => !lt b a

def Distinct (lt : α → α → Bool) (rows : List α) : Prop :=
  rows.Pairwise fun a b => lt a b = true ∨ lt b a = true

section
variable {lt : α → α → Bool} {rows : List α}

theorem sortBy_perm (lt : α → α → Bool) (rows : List α) : (sortBy lt rows).Perm rows :=
  List.mergeSort_perm rows _

theorem mem_sortBy {a : α} : a ∈ sortBy lt rows ↔ a ∈ rows := (sortBy_perm lt rows).mem_iff

theorem Distinct.filter (h : Distinct lt rows) (p : α → Bool) : Distinct lt (rows.filter p) :=
  List.Pairwise.filter p h

theorem sortBy_pairwise (w : WeakOrder lt) (h : Distinct lt rows) :
    (sortBy lt rows).Pairwise fun a b => lt a b = true := by
  have hle : (sortBy lt rows).Pairwise fun a b => (!lt b a) = true := by
    apply List.pairwise_mergeSort
    · intro a b c hab hbc
      simp only [Bool.not_eq_true'] at hab hbc ⊢
      cases hca : lt c a with
      | false => rfl
      | true => rcases w.split b hca with hcb | hba <;> simp_all
    · intro a b
      cases hba : lt b a with
      | false => simp
      | true => simp [w.asymm hba]
  have hdistinct : (sortBy lt rows).Pairwise fun a b => lt a b = true ∨ lt b a = true :=
    ((sortBy_perm lt rows).pairwise_iff fun h => h.symm).mpr h
  exact (hle.and hdistinct).imp fun ⟨hnot, hone⟩ => hone.resolve_right (by simpa using hnot)

theorem eq_of_perm_of_strict (w : WeakOrder lt) {xs ys : List α}
    (hxs : xs.Pairwise fun a b => lt a b = true) (hys : ys.Pairwise fun a b => lt a b = true)
    (h : xs.Perm ys) : xs = ys := by
  apply h.eq_of_pairwise _ hxs hys
  intro a b _ _ hab hba
  rw [w.asymm hab] at hba
  cases hba

theorem sortBy_filter (w : WeakOrder lt) (h : Distinct lt rows) (p : α → Bool) :
    sortBy lt (rows.filter p) = (sortBy lt rows).filter p := by
  apply eq_of_perm_of_strict w (sortBy_pairwise w (h.filter p))
    ((sortBy_pairwise w h).filter p)
  exact (sortBy_perm lt _).trans ((sortBy_perm lt rows).filter p).symm

end
end DddFramework.Library
