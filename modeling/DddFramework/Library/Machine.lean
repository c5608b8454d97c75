import Mathlib.Data.List.Induction
import Mathlib.Order.Basic
import Mathlib.Tactic.Common

/-! Deterministic machines that emit what an observer sees. A run is a list of
inputs taken from the initial state. What every run preserves is proved here
once from what one step preserves, and two machines are compared step by step. -/
namespace DddFramework.Library

structure Machine (σ ι ο : Type*) where
  init : σ
  step : σ → ι → σ × List ο

namespace Machine

variable {σ τ ι ο π : Type*}

def after (m : Machine σ ι ο) (state : σ) : List ι → σ
  | [] => state
  | input :: rest => m.after (m.step state input).1 rest

def emitted (m : Machine σ ι ο) (state : σ) : List ι → List ο
  | [] => []
  | input :: rest => (m.step state input).2 ++ m.emitted (m.step state input).1 rest

def steps (m : Machine σ ι ο) (state : σ) : List ι → List (σ × ι)
  | [] => []
  | input :: rest => (state, input) :: m.steps (m.step state input).1 rest

variable (m : Machine σ ι ο)

@[simp] theorem after_nil (state : σ) : m.after state [] = state := rfl

@[simp] theorem emitted_nil (state : σ) : m.emitted state [] = [] := rfl

@[simp] theorem steps_nil (state : σ) : m.steps state [] = [] := rfl

theorem after_append (state : σ) (past rest : List ι) :
    m.after state (past ++ rest) = m.after (m.after state past) rest := by
  induction past generalizing state with
  | nil => rfl
  | cons input past ih => exact ih _

theorem emitted_append (state : σ) (past rest : List ι) :
    m.emitted state (past ++ rest) =
      m.emitted state past ++ m.emitted (m.after state past) rest := by
  induction past generalizing state with
  | nil => rfl
  | cons input past ih =>
    simp only [List.cons_append, emitted, after, ih, List.append_assoc]

theorem steps_append (state : σ) (past rest : List ι) :
    m.steps state (past ++ rest) =
      m.steps state past ++ m.steps (m.after state past) rest := by
  induction past generalizing state with
  | nil => rfl
  | cons input past ih =>
    simp only [List.cons_append, steps, after, ih]

@[simp] theorem after_concat (state : σ) (past : List ι) (input : ι) :
    m.after state (past ++ [input]) = (m.step (m.after state past) input).1 := by
  simp [after_append, after]

@[simp] theorem emitted_concat (state : σ) (past : List ι) (input : ι) :
    m.emitted state (past ++ [input]) =
      m.emitted state past ++ (m.step (m.after state past) input).2 := by
  simp [emitted_append, emitted]

@[simp] theorem steps_concat (state : σ) (past : List ι) (input : ι) :
    m.steps state (past ++ [input]) =
      m.steps state past ++ [(m.after state past, input)] := by
  simp [steps_append, steps]

theorem mem_steps {state : σ} {inputs : List ι} {x : σ × ι} :
    x ∈ m.steps state inputs ↔
      ∃ past rest, inputs = past ++ x.2 :: rest ∧ x.1 = m.after state past := by
  constructor
  · induction inputs generalizing state with
    | nil => simp
    | cons input inputs ih =>
      intro hx
      rcases List.mem_cons.mp hx with rfl | hx
      · exact ⟨[], inputs, rfl, rfl⟩
      · obtain ⟨past, rest, hsplit, hstate⟩ := ih hx
        exact ⟨input :: past, rest, by rw [hsplit]; rfl, hstate⟩
  · rintro ⟨past, rest, rfl, hstate⟩
    rw [steps_append]
    apply List.mem_append_right
    simp [steps, ← hstate]

theorem mem_steps_of_split {state : σ} {inputs past rest : List ι} {input : ι}
    (h : inputs = past ++ input :: rest) :
    (m.after state past, input) ∈ m.steps state inputs :=
  (mem_steps m).mpr ⟨past, rest, h, rfl⟩

/-- Locate the step that emitted a given item, and what was emitted before it. -/
theorem exists_step_of_emitted {state : σ} {inputs : List ι} {earlier later : List ο} {item : ο}
    (h : m.emitted state inputs = earlier ++ item :: later) :
    ∃ past input rest before behind, inputs = past ++ input :: rest ∧
      (m.step (m.after state past) input).2 = before ++ item :: behind ∧
      earlier = m.emitted state past ++ before := by
  induction inputs generalizing state earlier with
  | nil => simp at h
  | cons input inputs ih =>
    simp only [emitted] at h
    rcases List.append_eq_append_iff.mp h with ⟨middle, hearlier, hrest⟩ | ⟨middle, hstep, hitem⟩
    · obtain ⟨past, next, rest, before, behind, hsplit, hitem, hbefore⟩ := ih hrest
      refine ⟨input :: past, next, rest, before, behind, by rw [hsplit]; rfl, hitem, ?_⟩
      rw [hearlier, hbefore]
      simp [emitted]
    · cases middle with
      | nil =>
        simp only [List.append_nil] at hstep
        have hrest : m.emitted (m.step state input).1 inputs = [] ++ item :: later := by
          simpa using hitem.symm
        obtain ⟨past, next, rest, before, behind, hsplit, hnext, hbefore⟩ := ih hrest
        refine ⟨input :: past, next, rest, before, behind, by rw [hsplit]; rfl, hnext, ?_⟩
        simp only [emitted, List.append_assoc, ← hbefore, List.append_nil]
        exact hstep.symm
      | cons first middle =>
        simp only [List.cons_append, List.cons.injEq] at hitem
        obtain ⟨rfl, -⟩ := hitem
        exact ⟨[], input, inputs, earlier, middle, rfl, hstep, rfl⟩

/-- A machine that wears another's states, and shows what the other emits in its own words. -/
theorem run_embed {m : Machine σ ι ο} {n : Machine τ ι π} {embed : σ → τ} {shown : ο → Option π}
    (h : ∀ state input, n.step (embed state) input =
      (embed (m.step state input).1, (m.step state input).2.filterMap shown))
    (state : σ) (inputs : List ι) :
    n.after (embed state) inputs = embed (m.after state inputs) ∧
      n.emitted (embed state) inputs = (m.emitted state inputs).filterMap shown := by
  induction inputs generalizing state with
  | nil => exact ⟨rfl, rfl⟩
  | cons input inputs ih =>
    obtain ⟨hafter, hemitted⟩ := ih (m.step state input).1
    rw [after, emitted, h, after, emitted, hafter, hemitted, List.filterMap_append]
    exact ⟨rfl, rfl⟩

theorem after_frame {β : Type*} (view : σ → β) {inputs : List ι} {state : σ}
    (h : ∀ input ∈ inputs, ∀ state, view (m.step state input).1 = view state) :
    view (m.after state inputs) = view state := by
  induction inputs generalizing state with
  | nil => rfl
  | cons input inputs ih =>
    rw [List.forall_mem_cons] at h
    exact (ih h.2).trans (h.1 state)

/-- Every step of the run is allowed, given the inputs and the state before it. -/
def Guarded (G : List ι → σ → ι → Prop) (inputs : List ι) : Prop :=
  ∀ past input rest, inputs = past ++ input :: rest → G past (m.after m.init past) input

section
variable {m} {G : List ι → σ → ι → Prop}

theorem Guarded.past {past rest : List ι} (h : m.Guarded G (past ++ rest)) :
    m.Guarded G past := by
  intro before input behind hsplit
  exact h before input (behind ++ rest) (by simp [hsplit])

theorem Guarded.last {past : List ι} {input : ι} (h : m.Guarded G (past ++ [input])) :
    G past (m.after m.init past) input :=
  h past input [] rfl

theorem Guarded.of_get {inputs : List ι}
    (h : ∀ i (hi : i < inputs.length),
      G (inputs.take i) (m.after m.init (inputs.take i)) inputs[i]) :
    m.Guarded G inputs := by
  rintro past input rest rfl
  have hpast := h past.length (by simp)
  rw [List.take_left, List.getElem_append_right (Nat.le_refl _)] at hpast
  simpa using hpast

/-- An invariant over the inputs so far, what they emitted and the state
reached holds after every run whose steps are allowed. -/
theorem Guarded.invariant {I : List ι → List ο → σ → Prop} (hinit : I [] [] m.init)
    (hstep : ∀ past out state input, G past state input → I past out state →
      I (past ++ [input]) (out ++ (m.step state input).2) (m.step state input).1)
    {inputs : List ι} (h : m.Guarded G inputs) :
    I inputs (m.emitted m.init inputs) (m.after m.init inputs) := by
  induction inputs using List.reverseRecOn with
  | nil => exact hinit
  | append_singleton past input ih =>
    rw [emitted_concat, after_concat]
    exact hstep past _ _ input h.last (ih h.past)
end

theorem emitted_eq_of_simulation {m : Machine σ ι ο} {n : Machine τ ι ο}
    {G : List ι → ι → Prop} {R : List ι → σ → τ → Prop} (hinit : R [] m.init n.init)
    (hstep : ∀ past a b input, G past input → R past a b →
      (m.step a input).2 = (n.step b input).2 ∧
        R (past ++ [input]) (m.step a input).1 (n.step b input).1)
    {inputs : List ι} (hguard : ∀ past input rest, inputs = past ++ input :: rest → G past input) :
    m.emitted m.init inputs = n.emitted n.init inputs ∧
      R inputs (m.after m.init inputs) (n.after n.init inputs) := by
  induction inputs using List.reverseRecOn with
  | nil => exact ⟨rfl, hinit⟩
  | append_singleton past input ih =>
    obtain ⟨hemitted, hrelated⟩ := ih fun before next rest hsplit =>
      hguard before next (rest ++ [input]) (by simp [hsplit])
    obtain ⟨hsame, hnext⟩ := hstep past _ _ input (hguard past input [] rfl) hrelated
    rw [emitted_concat, emitted_concat, after_concat, after_concat, hemitted, hsame]
    exact ⟨rfl, hnext⟩

end Machine

theorem le_of_split {T ι : Type*} [Preorder T] {clock : ι → T} {inputs past rest : List ι}
    {input : ι} (h : (inputs.map clock).Pairwise (· ≤ ·))
    (hsplit : inputs = past ++ input :: rest) {before : ι} (hbefore : before ∈ past) :
    clock before ≤ clock input := by
  rw [hsplit, List.map_append, List.pairwise_append] at h
  exact h.2.2 _ (List.mem_map_of_mem hbefore) _ (by simp)

theorem Machine.guarded_of_ordered {σ ι ο T : Type*} [Preorder T] {m : Machine σ ι ο}
    {clock : ι → T} {inputs : List ι} (h : (inputs.map clock).Pairwise (· ≤ ·)) :
    m.Guarded (fun past _ input => ∀ before ∈ past, clock before ≤ clock input) inputs :=
  fun _ _ _ hsplit _ hbefore => le_of_split h hsplit hbefore

/-- The input is in the run, and none that replaces it comes later. -/
def Latest {ι : Type*} (Replaces : ι → Prop) (inputs : List ι) (input : ι) : Prop :=
  ∃ before after, inputs = before ++ input :: after ∧ ∀ later ∈ after, ¬Replaces later

section latest
variable {ι : Type*} {Replaces : ι → Prop} {past : List ι} {input last : ι}

theorem not_latest_nil : ¬Latest Replaces [] input := by
  rintro ⟨before, after, hsplit, -⟩
  simp at hsplit

theorem latest_concat :
    Latest Replaces (past ++ [last]) input ↔
      input = last ∨ ¬Replaces last ∧ Latest Replaces past input := by
  constructor
  · rintro ⟨before, after, hsplit, hkept⟩
    cases after using List.reverseRecOn with
    | nil =>
      have hlast := (List.append_inj' hsplit rfl).2
      exact .inl (List.cons.inj hlast).1.symm
    | append_singleton after final =>
      rw [← List.cons_append, ← List.append_assoc] at hsplit
      obtain ⟨hpast, hlast⟩ := List.append_inj' hsplit rfl
      rw [← (List.cons.inj hlast).1] at hkept
      exact .inr ⟨hkept last (by simp), before, after, hpast,
        fun later hlater => hkept later (List.mem_append_left _ hlater)⟩
  · rintro (rfl | ⟨hlast, before, after, rfl, hkept⟩)
    · exact ⟨past, [], rfl, by simp⟩
    · refine ⟨before, after ++ [last], by simp, ?_⟩
      rw [List.forall_mem_append, List.forall_mem_singleton]
      exact ⟨hkept, hlast⟩

end latest
end DddFramework.Library
