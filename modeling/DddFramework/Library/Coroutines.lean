import DddFramework.Library.Tasks

/-! Rules for tasks, and for coroutines that are handed the functions they call. A task that
obeys a rule awaits each call where the rule allows it, by what has been awaited before, and
ends in a state of its log that its postcondition describes. -/
namespace DddFramework.Library

/-- A coroutine that calls `κ`, each with answers of its own type: the tree of what it awaits
and how it goes on with each answer. -/
inductive Coroutine (κ : Type) (R : κ → Type) (ρ α : Type) where
  | returns (value : α)
  | raises (raised : ρ)
  | awaits (call : κ) (next : Except ρ (R call) → Coroutine κ R ρ α)

def Coroutine.interpret {κ τ ρ α : Type} {R : κ → Type} (perform : ∀ call, Task τ ρ (R call)) :
    Coroutine κ R ρ α → Task τ ρ α
  | .returns value => pure value
  | .raises raised => Task.raise raised
  | .awaits call next => fun log =>
    (next (perform call log).1).interpret perform (perform call log).2

namespace Task
variable {κ ρ α β : Type}

def Follows (rule : Log κ ρ → Await κ ρ → Prop) (log awaits : Log κ ρ) : Prop :=
  ∀ before x behind, awaits = before ++ x :: behind → rule (log ++ before) x

/-- From every log that meets the precondition, the task adds awaits that follow the rule, and
its result and its log meet the postcondition. -/
def Obeys (rule : Log κ ρ → Await κ ρ → Prop) (pre : Log κ ρ → Prop) (task : Task κ ρ α)
    (post : Except ρ α → Log κ ρ → Prop) : Prop :=
  ∀ log, pre log → ∃ result awaits, Ends task log result awaits ∧ Follows rule log awaits ∧
    post result (log ++ awaits)

variable {rule : Log κ ρ → Await κ ρ → Prop} {pre : Log κ ρ → Prop} {task : Task κ ρ α}
  {post : Except ρ α → Log κ ρ → Prop}

theorem follows_nil (rule : Log κ ρ → Await κ ρ → Prop) (log : Log κ ρ) : Follows rule log [] := by
  intro before x behind h
  simp at h

theorem Follows.append {log awaits rest : Log κ ρ} (h : Follows rule log awaits)
    (hrest : Follows rule (log ++ awaits) rest) : Follows rule log (awaits ++ rest) := by
  intro before x behind hsplit
  obtain ⟨middle, hbefore, hlater⟩ | ⟨middle, hawaits, hlater⟩ :=
    List.append_eq_append_iff.mp hsplit
  · rw [hbefore, ← List.append_assoc]
    exact hrest middle x behind hlater
  · cases middle with
    | nil =>
      rw [List.append_nil] at hawaits
      have hfirst := hrest [] x behind (by simpa using hlater.symm)
      rwa [List.append_nil, hawaits] at hfirst
    | cons first middle =>
      obtain ⟨rfl, -⟩ := List.cons.inj hlater
      exact h before x middle hawaits

theorem obeys_pure {a : α} (h : ∀ log, pre log → post (.ok a) log) :
    Obeys rule pre (pure a : Task κ ρ α) post :=
  fun log hlog => ⟨_, _, ends_pure a log, follows_nil rule log, by simpa using h log hlog⟩

theorem obeys_raise {raised : ρ} (h : ∀ log, pre log → post (.error raised) log) :
    Obeys rule pre (raise raised : Task κ ρ α) post :=
  fun log hlog => ⟨_, _, ends_raise raised log, follows_nil rule log, by simpa using h log hlog⟩

theorem obeys_await {call : κ} {answer : Log κ ρ → Except ρ α}
    (hrule : ∀ log, pre log → rule log ⟨call, raisedOf (answer log)⟩)
    (hpost : ∀ log, pre log → post (answer log) (log ++ [⟨call, raisedOf (answer log)⟩])) :
    Obeys rule pre (await call answer) post := by
  intro log hlog
  refine ⟨_, _, ends_await call answer log, ?_, hpost log hlog⟩
  intro before x behind hsplit
  cases before with
  | nil =>
    rw [List.append_nil, ← (List.cons.inj hsplit).1]
    exact hrule log hlog
  | cons first before => simp at hsplit

theorem Obeys.mono {pre' : Log κ ρ → Prop} {post' : Except ρ α → Log κ ρ → Prop}
    (h : Obeys rule pre task post) (hpre : ∀ log, pre' log → pre log)
    (hpost : ∀ result log, post result log → post' result log) : Obeys rule pre' task post' := by
  intro log hlog
  obtain ⟨result, awaits, hends, hfollows, hresult⟩ := h log (hpre log hlog)
  exact ⟨result, awaits, hends, hfollows, hpost _ _ hresult⟩

theorem Obeys.keeps {start : Log κ ρ} (h : Obeys rule (· = start) task post) :
    Obeys rule (· = start) task fun result log => post result log ∧ start <+: log := by
  rintro log rfl
  obtain ⟨result, awaits, hends, hfollows, hresult⟩ := h log rfl
  exact ⟨result, awaits, hends, hfollows, hresult, List.prefix_append log awaits⟩

theorem obeys_of_log (h : ∀ log, pre log → Obeys rule (· = log) task post) :
    Obeys rule pre task post :=
  fun log hlog => h log hlog log rfl

theorem Obeys.bind {middle : Except ρ α → Log κ ρ → Prop} {next : α → Task κ ρ β}
    {last : Except ρ β → Log κ ρ → Prop} (h : Obeys rule pre task middle)
    (hnext : ∀ a, Obeys rule (middle (.ok a)) (next a) last)
    (hraised : ∀ raised log, middle (.error raised) log → last (.error raised) log) :
    Obeys rule pre (task >>= next) last := by
  intro log hlog
  obtain ⟨result, awaits, hends, hfollows, hmiddle⟩ := h log hlog
  cases result with
  | error raised => exact ⟨_, _, hends.bind_error, hfollows, hraised raised _ hmiddle⟩
  | ok a =>
    obtain ⟨ended, rest, hrest, hrestFollows, hlast⟩ := hnext a _ hmiddle
    refine ⟨_, _, hends.bind hrest, hfollows.append hrestFollows, ?_⟩
    rwa [← List.append_assoc]

theorem obeys_await_bind {call : κ} {answer : Log κ ρ → Except ρ α} {next : α → Task κ ρ β}
    {last : Except ρ β → Log κ ρ → Prop} {log : Log κ ρ}
    (hrule : rule log ⟨call, raisedOf (answer log)⟩)
    (hok : ∀ a, answer log = .ok a → Obeys rule (· = log ++ [⟨call, none⟩]) (next a) last)
    (herror : ∀ raised, answer log = .error raised →
      last (.error raised) (log ++ [⟨call, some raised⟩])) :
    Obeys rule (· = log) (await call answer >>= next) last := by
  have hcall : Obeys rule (· = log) (await call answer) fun result after =>
      answer log = result ∧ after = log ++ [⟨call, raisedOf (answer log)⟩] := by
    apply obeys_await
    · rintro _ rfl
      exact hrule
    · rintro _ rfl
      exact ⟨rfl, rfl⟩
  refine hcall.bind (fun a => ?_) ?_
  · rintro after ⟨hanswer, rfl⟩
    rw [hanswer]
    exact hok a hanswer _ rfl
  · rintro raised after ⟨hanswer, rfl⟩
    rw [hanswer]
    exact herror raised hanswer

theorem Obeys.catching {middle : Except ρ α → Log κ ρ → Prop} {caught : ρ → Bool}
    {handler : ρ → Task κ ρ α} (h : Obeys rule pre task middle)
    (hhandler : ∀ raised, caught raised = true →
      Obeys rule (middle (.error raised)) (handler raised) post)
    (hreturned : ∀ a log, middle (.ok a) log → post (.ok a) log)
    (hpassed : ∀ raised log, caught raised = false → middle (.error raised) log →
      post (.error raised) log) : Obeys rule pre (catching caught task handler) post := by
  intro log hlog
  obtain ⟨result, awaits, hends, hfollows, hmiddle⟩ := h log hlog
  cases result with
  | ok a => exact ⟨_, _, hends.catching_ok, hfollows, hreturned a _ hmiddle⟩
  | error raised =>
    cases hcaught : caught raised with
    | false => exact ⟨_, _, hends.catching_passed hcaught, hfollows, hpassed _ _ hcaught hmiddle⟩
    | true =>
      obtain ⟨ended, rest, hrest, hrestFollows, hlast⟩ := hhandler raised hcaught _ hmiddle
      refine ⟨_, _, hends.catching_caught hcaught hrest, hfollows.append hrestFollows, ?_⟩
      rwa [← List.append_assoc]

/-- An invariant of all calls of a coroutine is one of the coroutine, whatever it is. -/
theorem obeys_interpret {τ : Type} {R : τ → Type} {perform : ∀ call, Task κ ρ (R call)}
    {invariant : Log κ ρ → Prop}
    (h : ∀ call, Obeys rule invariant (perform call) fun _ log => invariant log)
    (coroutine : Coroutine τ R ρ α) :
    Obeys rule invariant (coroutine.interpret perform) fun _ log => invariant log := by
  induction coroutine with
  | returns value => exact obeys_pure fun _ hlog => hlog
  | raises raised => exact obeys_raise fun _ hlog => hlog
  | awaits call next ih =>
    intro log hlog
    obtain ⟨result, awaits, hcall, hfollows, hmiddle⟩ := h call log hlog
    obtain ⟨last, rest, hrest, hrestFollows, hlast⟩ := ih result _ hmiddle
    have hstep : (Coroutine.awaits call next).interpret perform log =
        (next (perform call log).1).interpret perform (perform call log).2 := rfl
    refine ⟨last, awaits ++ rest, ?_, hfollows.append hrestFollows, ?_⟩
    · rw [Ends, hstep, hcall, hrest, List.append_assoc]
    · rwa [← List.append_assoc]

theorem Obeys.outcome (h : Obeys rule pre task post) (hpre : pre []) :
    (∀ before x behind, task.outcome.2 = before ++ x :: behind → rule before x) ∧
      post task.outcome.1 task.outcome.2 := by
  obtain ⟨result, awaits, hends, hfollows, hpost⟩ := h [] hpre
  rw [hends.outcome]
  exact ⟨hfollows, hpost⟩

end Task
end DddFramework.Library
