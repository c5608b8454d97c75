import DddFramework.Library.Machine
import Mathlib.Data.List.Basic
import Mathlib.Logic.Function.Basic

/-! Machines that drive machines. A layer says which inputs a step of the upper
machine passes down and what it hears back. Every run of the upper machine then
contains a run of the lower one, so what is proved of all runs below holds above.
Machines indexed by a key and run side by side are a layer over each of them. -/
namespace DddFramework.Library

/-- How an upper machine uses a lower one. -/
structure Layer {σ τ ι κ ο π : Type*} (upper : Machine σ ι ο) (lower : Machine τ κ π) where
  view : σ → τ
  down : σ → ι → List κ
  heard : ο → Option π
  view_init : view upper.init = lower.init
  view_step : ∀ state input,
    view (upper.step state input).1 = lower.after (view state) (down state input)
  heard_step : ∀ state input,
    (upper.step state input).2.filterMap heard = lower.emitted (view state) (down state input)

namespace Layer
variable {σ τ υ ι κ μ ο π ν : Type*} {upper : Machine σ ι ο} {lower : Machine τ κ π}
  {bottom : Machine υ μ ν}

def passed (layer : Layer upper lower) (state : σ) : List ι → List κ
  | [] => []
  | input :: rest => layer.down state input ++ layer.passed (upper.step state input).1 rest

variable (layer : Layer upper lower)

theorem passed_eq_flatMap {f : ι → List κ} (h : ∀ state input, layer.down state input = f input)
    (state : σ) (inputs : List ι) : layer.passed state inputs = inputs.flatMap f := by
  induction inputs generalizing state with
  | nil => rfl
  | cons input inputs ih => rw [passed, ih, h, List.flatMap_cons]

theorem view_after (state : σ) (inputs : List ι) :
    layer.view (upper.after state inputs) =
      lower.after (layer.view state) (layer.passed state inputs) := by
  induction inputs generalizing state with
  | nil => rfl
  | cons input inputs ih =>
    rw [Machine.after, ih, layer.view_step, passed, Machine.after_append]

theorem heard_emitted (state : σ) (inputs : List ι) :
    (upper.emitted state inputs).filterMap layer.heard =
      lower.emitted (layer.view state) (layer.passed state inputs) := by
  induction inputs generalizing state with
  | nil => rfl
  | cons input inputs ih =>
    rw [Machine.emitted, List.filterMap_append, layer.heard_step, ih, layer.view_step, passed,
      Machine.emitted_append]

theorem heard_run (inputs : List ι) :
    (upper.emitted upper.init inputs).filterMap layer.heard =
      lower.emitted lower.init (layer.passed upper.init inputs) := by
  rw [layer.heard_emitted, layer.view_init]

theorem view_run (inputs : List ι) :
    layer.view (upper.after upper.init inputs) =
      lower.after lower.init (layer.passed upper.init inputs) := by
  rw [layer.view_after, layer.view_init]

theorem mem_passed {state : σ} {inputs : List ι} {x : κ} :
    x ∈ layer.passed state inputs ↔
      ∃ past input rest, inputs = past ++ input :: rest ∧
        x ∈ layer.down (upper.after state past) input := by
  induction inputs generalizing state with
  | nil => simp [passed]
  | cons input inputs ih =>
    rw [passed, List.mem_append, ih]
    constructor
    · rintro (hx | ⟨past, next, rest, rfl, hx⟩)
      · exact ⟨[], input, inputs, rfl, hx⟩
      · exact ⟨input :: past, next, rest, rfl, hx⟩
    · rintro ⟨past, next, rest, hsplit, hx⟩
      cases past with
      | nil =>
        obtain ⟨rfl, rfl⟩ := List.cons.inj hsplit
        exact .inl hx
      | cons first past =>
        obtain ⟨rfl, rfl⟩ := List.cons.inj hsplit
        exact .inr ⟨past, next, rest, rfl, hx⟩

theorem passed_ordered {T : Type*} [Preorder T] {clock : ι → T} {clockBelow : κ → T}
    (hclock : ∀ state input, ∀ x ∈ layer.down state input, clockBelow x = clock input)
    {state : σ} {inputs : List ι} (h : (inputs.map clock).Pairwise (· ≤ ·)) :
    ((layer.passed state inputs).map clockBelow).Pairwise (· ≤ ·) := by
  induction inputs generalizing state with
  | nil => exact .nil
  | cons input inputs ih =>
    rw [List.map_cons, List.pairwise_cons] at h
    rw [passed, List.map_append, List.pairwise_append]
    refine ⟨?_, ih h.2, ?_⟩
    · rw [List.pairwise_map]
      apply List.pairwise_of_forall_mem_list
      intro x hx y hy
      rw [hclock state input x hx, hclock state input y hy]
    · intro s hs t ht
      obtain ⟨x, hx, rfl⟩ := List.mem_map.mp hs
      obtain ⟨y, hy, rfl⟩ := List.mem_map.mp ht
      obtain ⟨past, next, rest, rfl, hnext⟩ := layer.mem_passed.mp hy
      rw [hclock state input x hx, hclock _ next y hnext]
      exact h.1 _ (List.mem_map_of_mem (by simp))

def comp (below : Layer lower bottom) : Layer upper bottom where
  view state := below.view (layer.view state)
  down state input := below.passed (layer.view state) (layer.down state input)
  heard item := (layer.heard item).bind below.heard
  view_init := by rw [layer.view_init, below.view_init]
  view_step state input := by rw [layer.view_step, below.view_after]
  heard_step state input := by
    rw [← List.filterMap_filterMap, layer.heard_step, below.heard_emitted]

end Layer

section keyed
variable {κ σ ι ο : Type*} [DecidableEq κ]

def Machine.keyed (m : κ → Machine σ ι ο) : Machine (κ → σ) (κ × ι) (κ × ο) where
  init key := (m key).init
  step states input :=
    (Function.update states input.1 ((m input.1).step (states input.1) input.2).1,
      ((m input.1).step (states input.1) input.2).2.map (input.1, ·))

def atKey {α : Type*} (key : κ) (x : κ × α) : Option α := if x.1 = key then some x.2 else none

theorem filterMap_atKey_map {α : Type*} (key other : κ) (xs : List α) :
    (xs.map (other, ·)).filterMap (atKey key) = if other = key then xs else [] := by
  rw [List.filterMap_map]
  by_cases hkey : other = key
  · have hsome : atKey key ∘ (other, ·) = @some α := by
      funext x
      exact if_pos hkey
    rw [if_pos hkey, hsome, List.filterMap_some]
  · have hnone : atKey key ∘ (other, ·) = fun _ : α => none := by
      funext x
      exact if_neg hkey
    rw [if_neg hkey, hnone]
    simp

/-- Each machine of the family runs as if it were alone. -/
def keyedLayer (m : κ → Machine σ ι ο) (key : κ) : Layer (Machine.keyed m) (m key) where
  view states := states key
  down _ input := (atKey key input).toList
  heard := atKey key
  view_init := rfl
  view_step states input := by
    by_cases hkey : input.1 = key
    · subst hkey
      simp [Machine.keyed, atKey, Machine.after]
    · simp [Machine.keyed, atKey, hkey, Ne.symm hkey]
  heard_step states input := by
    simp only [Machine.keyed, filterMap_atKey_map]
    by_cases hkey : input.1 = key
    · subst hkey
      simp [atKey, Machine.emitted]
    · simp [atKey, hkey]

theorem keyedLayer_passed (m : κ → Machine σ ι ο) (key : κ) (states : κ → σ)
    (inputs : List (κ × ι)) :
    (keyedLayer m key).passed states inputs = inputs.filterMap (atKey key) := by
  rw [(keyedLayer m key).passed_eq_flatMap fun _ _ => rfl]
  exact (List.filterMap_eq_flatMap_toList (atKey key) inputs).symm

end keyed
end DddFramework.Library
