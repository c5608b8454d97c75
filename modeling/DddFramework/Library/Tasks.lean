import Mathlib.Data.List.Basic

/-! Tasks that await one call after another. A call returns or raises, and what a task has
awaited stays in its log. A raised exception travels to the handler that catches it. -/
namespace DddFramework.Library

/-- A call that a task has awaited, and what it raised. -/
structure Await (κ ρ : Type) where
  call : κ
  raised : Option ρ
deriving DecidableEq

abbrev Log (κ ρ : Type) := List (Await κ ρ)

def Log.interruption {κ ρ : Type} (log : Log κ ρ) : Option ρ := log.findSome? Await.raised

abbrev Task (κ ρ α : Type) := ExceptT ρ (StateM (Log κ ρ)) α

namespace Task
variable {κ ρ α β : Type}

def raisedOf : Except ρ α → Option ρ
  | .ok _ => none
  | .error raised => some raised

/-- Await a call; its answer may depend on the calls before it. -/
def await (call : κ) (answer : Log κ ρ → Except ρ α) : Task κ ρ α :=
  fun log => (answer log, log ++ [⟨call, raisedOf (answer log)⟩])

def raise (raised : ρ) : Task κ ρ α := fun log => (.error raised, log)

def catching (caught : ρ → Bool) (body : Task κ ρ α) (handler : ρ → Task κ ρ α) : Task κ ρ α :=
  fun log =>
    match body log with
    | (.error raised, log) => if caught raised then handler raised log else (.error raised, log)
    | returned => returned

def outcome (task : Task κ ρ α) : Except ρ α × Log κ ρ := task []

/-- A task that starts with a log ends so, after these awaits. -/
def Ends (task : Task κ ρ α) (log : Log κ ρ) (result : Except ρ α) (awaits : Log κ ρ) : Prop :=
  task log = (result, log ++ awaits)

variable {log awaits rest : Log κ ρ} {task : Task κ ρ α} {next : α → Task κ ρ β}
  {result : Except ρ β} {a : α} {raised : ρ}

theorem Ends.outcome {result : Except ρ α} (h : Ends task [] result awaits) :
    task.outcome = (result, awaits) := h

theorem ends_pure (a : α) (log : Log κ ρ) : Ends (pure a : Task κ ρ α) log (.ok a) [] := by
  rw [Ends, List.append_nil]
  rfl

theorem ends_raise (raised : ρ) (log : Log κ ρ) :
    Ends (raise raised : Task κ ρ α) log (.error raised) [] := by
  rw [Ends, List.append_nil]
  rfl

theorem ends_await (call : κ) (answer : Log κ ρ → Except ρ α) (log : Log κ ρ) :
    Ends (await call answer) log (answer log) [⟨call, raisedOf (answer log)⟩] := rfl

theorem Ends.bind (h : Ends task log (.ok a) awaits)
    (hnext : Ends (next a) (log ++ awaits) result rest) :
    Ends (task >>= next) log result (awaits ++ rest) := by
  have hrun : (task >>= next) log = next a (log ++ awaits) := by
    simp only [Bind.bind, ExceptT.bind, ExceptT.mk, StateT.bind, ExceptT.bindCont]
    rw [h]
  rw [Ends, hrun, hnext, List.append_assoc]

theorem Ends.bind_error (h : Ends task log (.error raised) awaits) :
    Ends (task >>= next) log (.error raised) awaits := by
  simp only [Ends, Bind.bind, ExceptT.bind, ExceptT.mk, StateT.bind, ExceptT.bindCont]
  rw [h]
  rfl

theorem ends_await_bind {call : κ} {answer : Log κ ρ → Except ρ α} (hanswer : answer log = .ok a)
    (hnext : Ends (next a) (log ++ [⟨call, none⟩]) result rest) :
    Ends (await call answer >>= next) log result (⟨call, none⟩ :: rest) := by
  have hcall := ends_await call answer log
  rw [hanswer] at hcall
  exact hcall.bind hnext

theorem ends_await_bind_error {call : κ} {answer : Log κ ρ → Except ρ α}
    (hanswer : answer log = .error raised) :
    Ends (await call answer >>= next) log (.error raised) [⟨call, some raised⟩] := by
  have hcall := ends_await call answer log
  rw [hanswer] at hcall
  exact hcall.bind_error

variable {caught : ρ → Bool} {handler : ρ → Task κ ρ α} {ended : Except ρ α}

theorem Ends.catching_ok (h : Ends task log (.ok a) awaits) :
    Ends (catching caught task handler) log (.ok a) awaits := by
  rw [Ends, catching, h]

theorem Ends.catching_caught (h : Ends task log (.error raised) awaits)
    (hcaught : caught raised = true) (hhandler : Ends (handler raised) (log ++ awaits) ended rest) :
    Ends (catching caught task handler) log ended (awaits ++ rest) := by
  rw [Ends, catching, h]
  simp only [hcaught, if_true]
  rw [hhandler, List.append_assoc]

theorem Ends.catching_passed (h : Ends task log (.error raised) awaits)
    (hcaught : caught raised = false) :
    Ends (catching caught task handler) log (.error raised) awaits := by
  rw [Ends, catching, h]
  simp only [hcaught, Bool.false_eq_true, if_false]

/-! What a task has done that has returned. -/

theorem bind_eq_ok {b : β} {after : Log κ ρ} (h : (task >>= next) log = (.ok b, after)) :
    ∃ a middle, task log = (.ok a, middle) ∧ next a middle = (.ok b, after) := by
  simp only [Bind.bind, ExceptT.bind, ExceptT.mk, StateT.bind, ExceptT.bindCont] at h
  cases hrun : task log with
  | mk result middle =>
    rw [hrun] at h
    cases result with
    | ok a => exact ⟨a, middle, rfl, h⟩
    | error raised => cases h

theorem pure_eq_ok {b : α} {after : Log κ ρ} (h : (pure a : Task κ ρ α) log = (.ok b, after)) :
    a = b ∧ log = after :=
  ⟨Except.ok.inj (Prod.mk.inj h).1, (Prod.mk.inj h).2⟩

theorem await_eq_ok {call : κ} {answer : Log κ ρ → Except ρ α} {after : Log κ ρ}
    (h : await call answer log = (.ok a, after)) :
    answer log = .ok a ∧ log ++ [⟨call, none⟩] = after := by
  obtain ⟨hanswer, hafter⟩ := Prod.mk.inj h
  rw [hanswer] at hafter
  exact ⟨hanswer, hafter⟩

theorem catching_eq_ok {after : Log κ ρ} (h : catching caught task handler log = (.ok a, after)) :
    task log = (.ok a, after) ∨
      ∃ raised middle, task log = (.error raised, middle) ∧
        handler raised middle = (.ok a, after) := by
  unfold catching at h
  split at h
  · rename_i raised middle hrun
    split at h
    · exact .inr ⟨raised, middle, hrun, h⟩
    · cases h
  · exact .inl h

end Task
end DddFramework.Library
