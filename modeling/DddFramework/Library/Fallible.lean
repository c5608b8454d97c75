import Mathlib.Data.List.Forall2

/-! Computations that stop at the first error, alone, in sequence and over a list. -/
namespace DddFramework.Library.Fallible
variable {ε α β : Type}

theorem bind_eq_ok {x : Except ε α} {f : α → Except ε β} {b : β} :
    (x >>= f) = .ok b ↔ ∃ a, x = .ok a ∧ f a = .ok b := by
  cases x <;> simp [bind, Except.bind]

theorem bind_eq_error {x : Except ε α} {f : α → Except ε β} {e : ε} :
    (x >>= f) = .error e ↔ x = .error e ∨ ∃ a, x = .ok a ∧ f a = .error e := by
  cases x <;> simp [bind, Except.bind]

theorem map_eq_ok {x : Except ε α} {f : α → β} {b : β} :
    x.map f = .ok b ↔ ∃ a, x = .ok a ∧ f a = b := by
  cases x <;> simp [Except.map]

theorem map_eq_error {x : Except ε α} {f : α → β} {e : ε} :
    x.map f = .error e ↔ x = .error e := by
  cases x <;> simp [Except.map]

theorem ok_or_error (x : Except ε α) : (∃ a, x = .ok a) ∨ ∃ e, x = .error e := by
  cases x <;> simp

theorem mapM_eq_ok {f : α → Except ε β} {xs : List α} {ys : List β} :
    xs.mapM f = .ok ys ↔ List.Forall₂ (fun x y => f x = .ok y) xs ys := by
  induction xs generalizing ys with
  | nil => cases ys <;> simp [pure, Except.pure]
  | cons x xs ih =>
    simp only [List.mapM_cons, bind_eq_ok, ih, pure, Except.pure, Except.ok.injEq,
      List.forall₂_cons_left_iff]
    constructor
    · rintro ⟨y, hy, rest, hrest, rfl⟩
      exact ⟨y, rest, hy, hrest, rfl⟩
    · rintro ⟨y, rest, hy, hrest, rfl⟩
      exact ⟨y, hy, rest, hrest, rfl⟩

theorem mapM_eq_error {f : α → Except ε β} {xs : List α} {e : ε} (h : xs.mapM f = .error e) :
    ∃ x ∈ xs, f x = .error e := by
  induction xs with
  | nil => simp [pure, Except.pure] at h
  | cons x xs ih =>
    simp only [List.mapM_cons, bind_eq_error, pure, Except.pure, reduceCtorEq, and_false,
      exists_false, or_false] at h
    rcases h with hx | ⟨-, -, hxs⟩
    · exact ⟨x, by simp, hx⟩
    · obtain ⟨x', hx', he⟩ := ih hxs
      exact ⟨x', by simp [hx'], he⟩

theorem exists_mapM_eq_ok {f : α → Except ε β} {xs : List α} :
    (∃ ys, xs.mapM f = .ok ys) ↔ ∀ x ∈ xs, ∃ y, f x = .ok y := by
  constructor
  · rintro ⟨ys, h⟩
    have hpairs := mapM_eq_ok.mp h
    clear h
    induction hpairs with
    | nil => simp
    | cons hxy _ ih => exact List.forall_mem_cons.mpr ⟨⟨_, hxy⟩, ih⟩
  · intro h
    rcases ok_or_error (xs.mapM f) with hok | ⟨e, he⟩
    · exact hok
    · obtain ⟨x, hx, hxe⟩ := mapM_eq_error he
      obtain ⟨y, hy⟩ := h x hx
      rw [hy] at hxe
      cases hxe

theorem exists_of_mem_mapM {f : α → Except ε β} {xs : List α} {ys : List β}
    (h : xs.mapM f = .ok ys) {y : β} (hy : y ∈ ys) : ∃ x ∈ xs, f x = .ok y := by
  have hpairs := mapM_eq_ok.mp h
  clear h
  induction hpairs with
  | nil => simp at hy
  | cons hxy _ ih =>
    rcases List.mem_cons.mp hy with rfl | hy
    · exact ⟨_, by simp, hxy⟩
    · obtain ⟨x, hx, hxy⟩ := ih hy
      exact ⟨x, by simp [hx], hxy⟩

theorem forall_mem_mapM {f : α → Except ε β} {xs : List α} {ys : List β} {P : β → Prop}
    (h : xs.mapM f = .ok ys) : (∀ y ∈ ys, P y) ↔ ∀ x ∈ xs, ∃ y, f x = .ok y ∧ P y := by
  have hpairs := mapM_eq_ok.mp h
  clear h
  induction hpairs with
  | nil => simp
  | cons hxy _ ih => simp [ih, hxy]

theorem exists_mem_mapM {f : α → Except ε β} {xs : List α} {ys : List β} {P : β → Prop}
    (h : xs.mapM f = .ok ys) : (∃ y ∈ ys, P y) ↔ ∃ x ∈ xs, ∃ y, f x = .ok y ∧ P y := by
  have hpairs := mapM_eq_ok.mp h
  clear h
  induction hpairs with
  | nil => simp
  | cons hxy _ ih => simp [ih, hxy]

theorem map_of_mapM {f : α → Except ε β} {xs : List α} {ys : List β} {γ : Type} {g : β → γ}
    {r : α → γ} (h : xs.mapM f = .ok ys) (hg : ∀ x ∈ xs, ∀ y, f x = .ok y → g y = r x) :
    ys.map g = xs.map r := by
  have hpairs := mapM_eq_ok.mp h
  clear h
  induction hpairs with
  | nil => rfl
  | cons hxy _ ih =>
    rw [List.map_cons, List.map_cons, hg _ (by simp) _ hxy,
      ih fun x hx => hg x (List.mem_cons_of_mem _ hx)]

def FailsOnly (P : ε → Prop) (x : Except ε α) : Prop := ∀ e, x = .error e → P e

@[simp] theorem failsOnly_ok {P : ε → Prop} {a : α} : FailsOnly P (.ok a : Except ε α) := by
  intro e h
  cases h

@[simp] theorem failsOnly_error {P : ε → Prop} {e : ε} :
    FailsOnly P (.error e : Except ε α) ↔ P e := by
  simp [FailsOnly]

def errorOf : Except ε α → Option ε
  | .ok _ => none
  | .error e => some e

@[simp] theorem errorOf_ok {a : α} : errorOf (.ok a : Except ε α) = none := rfl

@[simp] theorem errorOf_error {e : ε} : errorOf (.error e : Except ε α) = some e := rfl

@[simp] theorem errorOf_map (x : Except ε α) (f : α → β) : errorOf (x.map f) = errorOf x := by
  cases x <;> rfl

theorem failsOnly_iff_errorOf {P : ε → Prop} {x : Except ε α} :
    FailsOnly P x ↔ ∀ e, errorOf x = some e → P e := by
  cases x <;> simp

theorem errorOf_mapM (f : α → Except ε β) (xs : List α) :
    errorOf (xs.mapM f) = xs.findSome? fun x => errorOf (f x) := by
  induction xs with
  | nil => rfl
  | cons x xs ih =>
    rw [List.mapM_cons, List.findSome?_cons, ← ih]
    cases f x with
    | error e => rfl
    | ok y => cases xs.mapM f <;> rfl

/-- The first error of a list is of a kind exactly when an error of that kind comes before
each one that is not. -/
theorem findSome?_forall_iff {P : β → Prop} {f : α → Option β} {xs : List α} :
    (∀ e, xs.findSome? f = some e → P e) ↔
      ∀ before x after, xs = before ++ x :: after → (∃ e, f x = some e ∧ ¬P e) →
        ∃ y ∈ before, ∃ e, f y = some e ∧ P e := by
  constructor
  · rintro h before x after rfl ⟨e, he, hP⟩
    cases hbefore : before.findSome? f with
    | none => exact absurd (h e (by simp [hbefore, he])) hP
    | some e' =>
      obtain ⟨y, hy, hfy⟩ := List.exists_of_findSome?_eq_some hbefore
      exact ⟨y, hy, e', hfy, h e' (by simp [hbefore])⟩
  · intro h e he
    obtain ⟨before, x, after, hxs, hfx, hnone⟩ := List.findSome?_eq_some_iff.mp he
    by_contra hP
    obtain ⟨y, hy, e', hfy, -⟩ := h before x after hxs ⟨e, hfx, hP⟩
    rw [hnone y hy] at hfy
    cases hfy

end DddFramework.Library.Fallible
