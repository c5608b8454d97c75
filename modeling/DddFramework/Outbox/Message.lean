import Mathlib.Algebra.Order.Ring.Int
import Mathlib.Logic.Function.Basic

/-! Outbox messages: an unchanging content, and the state of its delivery, from which the
status is derived. A saved message replaces no more than the delivery state of its row. -/
namespace DddFramework.Outbox

inductive OutboxStatus where
  | pending
  | processed
  | failed
deriving DecidableEq

/-- A message and its row, which have the same fields. The id is the number its UUID stands
for, `J` the JSON objects, and times are in microseconds. -/
structure OutboxMessage (J : Type) where
  id : Nat
  type : String
  occurredOn : Int
  payload : J
  metadata : J
  attempts : Nat := 0
  availableAt : Int
  processedAt : Option Int := none
  failedAt : Option Int := none
  lastError : Option String := none
deriving DecidableEq

/-- What a delivery never changes: `id`, `type`, `payload`, `meta` and `occurred_on`. -/
structure Content (J : Type) where
  id : Nat
  type : String
  payload : J
  metadata : J
  occurredOn : Int
deriving DecidableEq

/-- A retry policy: the delay before an attempt, none where the policy raises. -/
abbrev RetryPolicy := Nat → Option Int

/-- `exponential_retry_policy`, in microseconds: `min(5 * 2 ** (attempt - 1), 300)` seconds,
which before attempt 0 are two and a half. -/
def exponentialRetryPolicy : RetryPolicy := fun attempt =>
  some (min (5 * 2 ^ attempt * 500000) (300 * 1000000))

theorem exponentialRetryPolicy_succ (attempts : Nat) :
    exponentialRetryPolicy (attempts + 1) = some (min (5 * 2 ^ attempts) 300 * 1000000) := by
  rw [exponentialRetryPolicy, pow_succ]
  congr 1
  omega

namespace OutboxMessage
variable {J : Type} (message : OutboxMessage J)

def content : Content J :=
  ⟨message.id, message.type, message.payload, message.metadata, message.occurredOn⟩

def status : OutboxStatus :=
  if message.processedAt ≠ none then .processed
  else if message.failedAt ≠ none then .failed
  else .pending

def markProcessed (now : Int) : OutboxMessage J :=
  { message with processedAt := some now, lastError := none }

def markFailed (error : String) (retryAfter : Int) (maxAttempts : Nat) (now : Int) :
    OutboxMessage J :=
  let failed := { message with attempts := message.attempts + 1, lastError := some error }
  if maxAttempts ≤ failed.attempts then { failed with failedAt := some now }
  else { failed with availableAt := now + retryAfter }

/-- The conflict clause of the upsert: the columns it sets on the row. -/
def saveOver (row : OutboxMessage J) : OutboxMessage J :=
  { row with
    attempts := message.attempts
    availableAt := message.availableAt
    processedAt := message.processedAt
    failedAt := message.failedAt
    lastError := message.lastError }

def Deliverable (now : Int) : Prop :=
  message.processedAt = none ∧ message.failedAt = none ∧ message.availableAt ≤ now

instance (now : Int) : Decidable (message.Deliverable now) :=
  inferInstanceAs (Decidable (_ ∧ _ ∧ _))

variable {message}

theorem status_eq_pending :
    message.status = .pending ↔ message.processedAt = none ∧ message.failedAt = none := by
  unfold status
  split
  · simp_all
  · split <;> simp_all

theorem Deliverable.pending {now : Int} (h : message.Deliverable now) :
    message.status = .pending :=
  status_eq_pending.mpr ⟨h.1, h.2.1⟩

@[simp] theorem content_markProcessed (now : Int) :
    (message.markProcessed now).content = message.content := rfl

@[simp] theorem content_markFailed (error : String) (retryAfter : Int) (maxAttempts : Nat)
    (now : Int) : (message.markFailed error retryAfter maxAttempts now).content =
      message.content := by
  simp only [markFailed]
  split <;> rfl

@[simp] theorem processedAt_markFailed (error : String) (retryAfter : Int) (maxAttempts : Nat)
    (now : Int) : (message.markFailed error retryAfter maxAttempts now).processedAt =
      message.processedAt := by
  simp only [markFailed]
  split <;> rfl

@[simp] theorem content_saveOver (row : OutboxMessage J) :
    (message.saveOver row).content = row.content := rfl

theorem id_of_content {other : OutboxMessage J} (h : message.content = other.content) :
    message.id = other.id :=
  congrArg Content.id h

end OutboxMessage

abbrev Table (J : Type) := Nat → Option (OutboxMessage J)

/-- One message of the upsert: inserted, or its delivery state written over its row. -/
def Table.save {J : Type} (table : Table J) (message : OutboxMessage J) : Table J :=
  Function.update table message.id (some ((table message.id).elim message message.saveOver))

def Table.saveAll {J : Type} (table : Table J) (messages : List (OutboxMessage J)) : Table J :=
  messages.foldl Table.save table

namespace Table
variable {J : Type} {table : Table J} {message row : OutboxMessage J}
  {messages : List (OutboxMessage J)} {id : Nat}

theorem save_of_ne (h : message.id ≠ id) : table.save message id = table id :=
  Function.update_of_ne h.symm _ _

theorem saveAll_of_notMem (h : ∀ message ∈ messages, message.id ≠ id) :
    table.saveAll messages id = table id := by
  induction messages generalizing table with
  | nil => rfl
  | cons message messages ih =>
    rw [List.forall_mem_cons] at h
    rw [saveAll, List.foldl_cons]
    exact (ih h.2).trans (save_of_ne h.1)

theorem save_content (h : table id = some row) :
    ∃ row', table.save message id = some row' ∧ row'.content = row.content := by
  by_cases hid : message.id = id
  · subst hid
    refine ⟨message.saveOver row, ?_, rfl⟩
    rw [save, Function.update_self, h, Option.elim_some]
  · exact ⟨row, (save_of_ne hid).trans h, rfl⟩

theorem saveAll_content (h : table id = some row) :
    ∃ row', table.saveAll messages id = some row' ∧ row'.content = row.content := by
  induction messages generalizing table row with
  | nil => exact ⟨row, h, rfl⟩
  | cons message messages ih =>
    obtain ⟨next, hnext, hcontent⟩ := @save_content J table message row id h
    obtain ⟨last, hlast, hcontent'⟩ := ih hnext
    exact ⟨last, hlast, hcontent'.trans hcontent⟩

theorem save_processedAt (h : table.save message message.id = some row) :
    row.processedAt = message.processedAt := by
  rw [save, Function.update_self] at h
  cases hrow : table message.id with
  | none =>
    rw [hrow] at h
    cases h
    rfl
  | some old =>
    rw [hrow] at h
    cases h
    rfl

theorem saveAll_processedAt (h : table.saveAll messages id = some row)
    (hchanged : table id ≠ some row) :
    ∃ message ∈ messages, message.id = id ∧ row.processedAt = message.processedAt := by
  induction messages generalizing table with
  | nil => exact absurd h hchanged
  | cons message messages ih =>
    by_cases hsaved : table.save message id = some row
    · have hid : message.id = id := by
        by_contra hne
        exact hchanged ((save_of_ne hne).symm.trans hsaved)
      subst hid
      exact ⟨message, by simp, rfl, save_processedAt hsaved⟩
    · obtain ⟨other, hother, hsame⟩ := ih h hsaved
      exact ⟨other, List.mem_cons_of_mem _ hother, hsame⟩

def Keyed (table : Table J) : Prop := ∀ id row, table id = some row → row.id = id

theorem Keyed.insert (h : table.Keyed) (row : OutboxMessage J) :
    Keyed (Function.update table row.id (some row)) := by
  intro id old hold
  by_cases hid : id = row.id
  · subst hid
    rw [Function.update_self] at hold
    rw [← Option.some.inj hold]
  · rw [Function.update_of_ne hid] at hold
    exact h id old hold

theorem Keyed.save (h : table.Keyed) : (table.save message).Keyed := by
  intro id row hrow
  by_cases hid : message.id = id
  · subst hid
    rw [Table.save, Function.update_self] at hrow
    cases hold : table message.id with
    | none =>
      rw [hold] at hrow
      cases hrow
      rfl
    | some old =>
      rw [hold] at hrow
      cases hrow
      exact h message.id old hold
  · exact h id row ((save_of_ne hid).symm.trans hrow)

theorem Keyed.saveAll (h : table.Keyed) : (table.saveAll messages).Keyed := by
  induction messages generalizing table with
  | nil => exact h
  | cons message messages ih => exact ih h.save

end Table
end DddFramework.Outbox
