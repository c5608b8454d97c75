import DddFramework.RateLimit.Redis

/-! An HTTP application whose requests pass rate limits: the middlewares from the outside
in, then the dependencies of the route, then the endpoint. Requests are served side by
side, each one waiting in between for its calls of `acquire`. -/
namespace DddFramework.RateLimit
open Library

/-- An ASGI scope, as far as the middleware looks into it, and the rest of it. -/
structure Scope (R : Type*) where
  type : String
  method : Option String
  path : Option String
  rest : R

inductive HttpError (E : Type*) where
  | identity (error : E)
  | runtimeError (message : String)
  | valueError (message : String)
deriving DecidableEq

structure Rule where
  name : String
  policy : RateLimitPolicy
  cost : Int
  valid : validateRule name cost = .ok ()

structure RateLimitMiddleware (R E : Type*) where
  rule : Rule
  identity : Scope R → Except E String
  excludePaths : List String

structure RateLimitDependency (R E : Type*) where
  rule : Rule
  identity : Scope R → Except E String

inductive Consult (E : Type*) where
  | exempt
  | raised (error : HttpError E)
  | acquire (request : Acquire)

section
variable {R E : Type*}

def getRateLimiter (configured : Bool) : Except (HttpError E) Unit :=
  if configured then .ok () else .error (.runtimeError "RateLimiter is not configured in app.state")

def Rule.consult (rule : Rule) (subject : String) : Consult E :=
  match buildRateLimitKey rule.name subject with
  | .error message => .raised (.valueError message)
  | .ok key => .acquire ⟨key, rule.policy, rule.cost⟩

/-- `__call__` up to `acquire`: the limiter comes before the identity. -/
def RateLimitMiddleware.consult (middleware : RateLimitMiddleware R E) (configured : Bool)
    (scope : Scope R) : Consult E :=
  if scope.type ≠ "http" ∨ scope.method = some "OPTIONS" ∨
      (∃ path ∈ scope.path, path ∈ middleware.excludePaths) then .exempt
  else
    match getRateLimiter configured with
    | .error error => .raised error
    | .ok () =>
      match middleware.identity scope with
      | .error error => .raised (.identity error)
      | .ok subject => middleware.rule.consult subject

/-- `dependency` up to `acquire`: the identity is its first parameter, the limiter its second. -/
def RateLimitDependency.consult (dependency : RateLimitDependency R E) (configured : Bool)
    (scope : Scope R) : Consult E :=
  match dependency.identity scope with
  | .error error => .raised (.identity error)
  | .ok subject =>
    match getRateLimiter configured with
    | .error error => .raised error
    | .ok () => dependency.rule.consult subject

/-- The middlewares are listed from the outside in, the dependencies of the route that a
scope leads to in their order. -/
structure App (R E : Type*) where
  configured : Bool
  middlewares : List (RateLimitMiddleware R E)
  dependencies : Scope R → List (RateLimitDependency R E)

def App.consults (app : App R E) (scope : Scope R) : List (Consult E) :=
  app.middlewares.map (·.consult app.configured scope) ++
    (app.dependencies scope).map (·.consult app.configured scope)

inductive Outcome (E : Type*) where
  | endpoint
  | rejected (headers : List (String × String))
  | raised (error : HttpError E)
deriving DecidableEq

/-- A request that has not come yet, one with these guards before it, and one that is over. -/
inductive Visit (E : Type*) where
  | absent
  | waiting (guards : List (Consult E))
  | done

inductive VisitEffect (R E : Type*) where
  | arrived (scope : Scope R)
  | asked (now : Int) (request : Acquire) (result : Except String RateLimitResult)
  | responded (outcome : Outcome E)

def Visit.called : Visit E → Option Acquire
  | .waiting (.acquire request :: _) => some request
  | _ => none

def Visit.advance (now : Int) (answer : Acquire → Except String RateLimitResult) :
    Visit E → Visit E × List (VisitEffect R E)
  | .absent => (.absent, [])
  | .done => (.done, [])
  | .waiting [] => (.done, [.responded .endpoint])
  | .waiting (.exempt :: guards) => (.waiting guards, [])
  | .waiting (.raised error :: _) => (.done, [.responded (.raised error)])
  | .waiting (.acquire request :: guards) =>
    match answer request with
    | .error message =>
      (.done, [.asked now request (.error message), .responded (.raised (.valueError message))])
    | .ok result =>
      if ¬ result.allowed then
        (.done, [.asked now request (.ok result),
          .responded (.rejected (rejectionHeaders result))])
      else (.waiting guards, [.asked now request (.ok result)])

def Visit.leave : Visit E → Visit E
  | .absent => .absent
  | _ => .done

inductive VisitInput (R : Type*) where
  | arrive (scope : Scope R)
  | advance (now : Int) (answer : Acquire → Except String RateLimitResult)
  | leave

def visit (app : App R E) : Machine (Visit E) (VisitInput R) (VisitEffect R E) where
  init := .absent
  step state input :=
    match input with
    | .arrive scope =>
      match state with
      | .absent => (.waiting (app.consults scope), [.arrived scope])
      | _ => (state, [])
    | .advance now answer => state.advance now answer
    | .leave => (state.leave, [])

/-- Requests are numbered as they arrive. One is cancelled between two guards, or while
`acquire` runs, whose result then reaches nobody. -/
inductive HttpInput (R : Type*) where
  | expiry (redisKey : String) (now : Int)
  | arrive (now : Int) (scope : Scope R)
  | advance (now : Int) (id : Nat)
  | abandon (now : Int) (id : Nat)
  | cancel (now : Int) (id : Nat)

def HttpInput.now : HttpInput R → Int
  | .expiry _ now | .arrive now _ | .advance now _ | .abandon now _ | .cancel now _ => now

inductive HttpEffect (R E : Type*) where
  | limiter (effect : LimiterEffect)
  | visit (id : Nat) (effect : VisitEffect R E)

structure HttpState (E : Type*) where
  store : String → Option (Expiring Int RedisHash)
  visits : List (Visit E)

def HttpState.visit (state : HttpState E) (id : Nat) : Visit E := state.visits[id]?.getD .absent

section
variable (formatRate : ℚ → String) (sha256 : Digest) (limiterPrefix : String) (app : App R E)

def sentToLimiter (state : HttpState E) : HttpInput R → List LimiterInput
  | .expiry redisKey now => [.expiry redisKey now]
  | .advance now id | .abandon now id => ((state.visit id).called.map (.acquire now)).toList
  | .arrive .. | .cancel .. => []

def stepVisits (state : HttpState E) :
    HttpInput R → List (Visit E) × List (Nat × VisitEffect R E)
  | .expiry .. => (state.visits, [])
  | .arrive _ scope =>
    (state.visits ++ [.waiting (app.consults scope)], [(state.visits.length, .arrived scope)])
  | .advance now id =>
    let advanced := (state.visit id).advance now
      (acquire formatRate sha256 limiterPrefix state.store now)
    (state.visits.set id advanced.1, advanced.2.map (id, ·))
  | .abandon _ id | .cancel _ id => (state.visits.set id (state.visit id).leave, [])

def http : Machine (HttpState E) (HttpInput R) (HttpEffect R E) where
  init := ⟨redis.init, []⟩
  step state input :=
    let limiter := redisRateLimiter formatRate sha256 limiterPrefix
    let sent := sentToLimiter state input
    let visits := stepVisits formatRate sha256 limiterPrefix app state input
    (⟨limiter.after state.store sent, visits.1⟩,
      (limiter.emitted state.store sent).map .limiter ++
        visits.2.map fun seen => .visit seen.1 seen.2)
end

variable {formatRate : ℚ → String} {sha256 : Digest} {limiterPrefix : String} {app : App R E}

def HttpEffect.limiter? : HttpEffect R E → Option LimiterEffect
  | .limiter effect => some effect
  | .visit .. => none

def HttpEffect.ofRequest (id : Nat) : HttpEffect R E → Option (VisitEffect R E)
  | .limiter _ => none
  | .visit request effect => if request = id then some effect else none

def limiterLayer (formatRate : ℚ → String) (sha256 : Digest) (limiterPrefix : String)
    (app : App R E) : Layer (http formatRate sha256 limiterPrefix app)
      (redisRateLimiter formatRate sha256 limiterPrefix) where
  view := HttpState.store
  down := sentToLimiter
  heard := HttpEffect.limiter?
  view_init := rfl
  view_step _ _ := rfl
  heard_step state input := by
    have hlimiter : (HttpEffect.limiter? : HttpEffect R E → _) ∘ .limiter = some := rfl
    have hvisit : (HttpEffect.limiter? ∘ fun seen : Nat × VisitEffect R E =>
        HttpEffect.visit seen.1 seen.2) = fun _ => none := rfl
    simp only [http, List.filterMap_append, List.filterMap_map, hlimiter, hvisit,
      List.filterMap_some]
    simp

def sentToVisit (formatRate : ℚ → String) (sha256 : Digest) (limiterPrefix : String) (id : Nat)
    (state : HttpState E) : HttpInput R → List (VisitInput R)
  | .expiry .. => []
  | .arrive _ scope => if state.visits.length = id then [.arrive scope] else []
  | .advance now request =>
    if request = id then
      [.advance now (acquire formatRate sha256 limiterPrefix state.store now)]
    else []
  | .abandon _ request | .cancel _ request => if request = id then [.leave] else []

@[simp] theorem HttpState.visit_mk (store : String → Option (Expiring Int RedisHash))
    (visits : List (Visit E)) (id : Nat) :
    HttpState.visit ⟨store, visits⟩ id = visits[id]?.getD .absent := rfl

theorem visit_set (state : HttpState E) (request id : Nat) (visit : Visit E)
    (habsent : state.visit request = .absent → visit = .absent) :
    (state.visits.set request visit)[id]?.getD .absent =
      if request = id then visit else state.visit id := by
  rw [List.getElem?_set]
  by_cases hid : request = id
  · subst hid
    by_cases hlength : request < state.visits.length
    · simp [hlength]
    · have hnone : state.visit request = .absent := by
        simp [HttpState.visit, List.getElem?_eq_none (not_lt.mp hlength)]
      simp [hlength, habsent hnone]
  · simp [hid, HttpState.visit]

theorem visit_append (state : HttpState E) (id : Nat) (visit : Visit E) :
    (state.visits ++ [visit])[id]?.getD .absent =
      if state.visits.length = id then visit else state.visit id := by
  by_cases hid : state.visits.length = id
  · subst hid
    simp
  · rw [if_neg hid]
    by_cases hlength : id < state.visits.length
    · rw [List.getElem?_append_left hlength]
      rfl
    · have hbeyond : state.visits.length + 1 ≤ id := by omega
      rw [List.getElem?_eq_none (by simpa using hbeyond), HttpState.visit,
        List.getElem?_eq_none (by omega)]

theorem visit_length (state : HttpState E) : state.visit state.visits.length = .absent := by
  simp [HttpState.visit]

def visitLayer (formatRate : ℚ → String) (sha256 : Digest) (limiterPrefix : String)
    (app : App R E) (id : Nat) :
    Layer (http formatRate sha256 limiterPrefix app) (visit app) where
  view state := state.visit id
  down := sentToVisit formatRate sha256 limiterPrefix id
  heard := HttpEffect.ofRequest id
  view_init := rfl
  view_step state input := by
    simp only [http, HttpState.visit_mk]
    cases input with
    | expiry redisKey now => rfl
    | arrive now scope =>
      simp only [stepVisits, visit_append, sentToVisit]
      by_cases hid : state.visits.length = id
      · subst hid
        simp [visit_length, visit, Machine.after]
      · simp [hid]
    | advance now request =>
      simp only [stepVisits, sentToVisit]
      rw [visit_set _ _ _ _ fun habsent => by rw [habsent]; rfl]
      by_cases hid : request = id
      · subst hid
        simp [visit, Machine.after]
      · simp [hid]
    | abandon now request =>
      simp only [stepVisits, sentToVisit]
      rw [visit_set _ _ _ _ fun habsent => by rw [habsent]; rfl]
      by_cases hid : request = id
      · subst hid
        simp [visit, Machine.after]
      · simp [hid]
    | cancel now request =>
      simp only [stepVisits, sentToVisit]
      rw [visit_set _ _ _ _ fun habsent => by rw [habsent]; rfl]
      by_cases hid : request = id
      · subst hid
        simp [visit, Machine.after]
      · simp [hid]
  heard_step state input := by
    have hlimiter : (HttpEffect.ofRequest id : HttpEffect R E → _) ∘ .limiter =
        fun _ => none := rfl
    have hvisit : (HttpEffect.ofRequest id ∘ fun seen : Nat × VisitEffect R E =>
        HttpEffect.visit seen.1 seen.2) = atKey id := rfl
    simp only [http, List.filterMap_append, List.filterMap_map, hlimiter, hvisit,
      List.filterMap_none, List.nil_append]
    cases input with
    | expiry redisKey now => rfl
    | arrive now scope =>
      simp only [stepVisits, sentToVisit]
      by_cases hid : state.visits.length = id
      · subst hid
        simp [visit_length, visit, Machine.emitted, atKey]
      · simp [hid, atKey]
    | advance now request =>
      simp only [stepVisits, sentToVisit, filterMap_atKey_map]
      by_cases hid : request = id
      · subst hid
        simp [visit, Machine.emitted]
      · simp [hid]
    | abandon now request =>
      simp only [stepVisits, sentToVisit]
      by_cases hid : request = id <;> simp [hid, visit, Machine.emitted]
    | cancel now request =>
      simp only [stepVisits, sentToVisit]
      by_cases hid : request = id <;> simp [hid, visit, Machine.emitted]

/-! How a request goes. -/

inductive Passed : List (Consult E) → List (VisitEffect R E) → Prop
  | nil : Passed [] []
  | exempt {passed asked} (h : Passed passed asked) : Passed (passed ++ [.exempt]) asked
  | admitted {passed asked now request result} (h : Passed passed asked)
      (hallowed : result.allowed = true) :
      Passed (passed ++ [.acquire request]) (asked ++ [.asked now request (.ok result)])

inductive Stops : List (Consult E) → List (VisitEffect R E) → Prop
  | endpoint : Stops [] [.responded .endpoint]
  | raised {error guards} : Stops (.raised error :: guards) [.responded (.raised error)]
  | failed {now request message guards} : Stops (.acquire request :: guards)
      [.asked now request (.error message), .responded (.raised (.valueError message))]
  | rejected {now request result guards} (hdenied : result.allowed = false) :
      Stops (.acquire request :: guards) [.asked now request (.ok result),
        .responded (.rejected (rejectionHeaders result))]
  | left {guards} : Stops guards []

inductive Seen (app : App R E) : List (VisitEffect R E) → Visit E → Prop
  | absent : Seen app [] .absent
  | waiting {scope passed guards asked} (hguards : app.consults scope = passed ++ guards)
      (h : Passed passed asked) : Seen app (.arrived scope :: asked) (.waiting guards)
  | done {scope passed guards asked last} (hguards : app.consults scope = passed ++ guards)
      (h : Passed passed asked) (hlast : Stops guards last) :
      Seen app (.arrived scope :: (asked ++ last)) .done

theorem Seen.advance {log : List (VisitEffect R E)} {state : Visit E} (h : Seen app log state)
    (now : Int) (answer : Acquire → Except String RateLimitResult) :
    Seen app (log ++ (state.advance (R := R) now answer).2)
      (state.advance (R := R) now answer).1 := by
  cases h with
  | absent => exact .absent
  | done hguards h hlast =>
    simp only [Visit.advance, List.append_nil]
    exact .done hguards h hlast
  | @waiting scope passed guards asked hguards h =>
    match guards with
    | [] => exact .done hguards h .endpoint
    | .exempt :: guards =>
      simp only [Visit.advance, List.append_nil]
      exact .waiting (by rw [hguards, List.append_assoc]; rfl) h.exempt
    | .raised error :: guards => exact .done hguards h .raised
    | .acquire request :: guards =>
      simp only [Visit.advance]
      cases answer request with
      | error message => exact .done hguards h .failed
      | ok result =>
        by_cases hallowed : result.allowed = true
        · simp only [hallowed, not_true_eq_false, if_false]
          exact .waiting (by rw [hguards, List.append_assoc]; rfl) (h.admitted hallowed)
        · simp only [hallowed, Bool.false_eq_true, not_false_eq_true, if_true]
          exact .done hguards h (.rejected (Bool.eq_false_of_not_eq_true hallowed))

theorem Seen.leave {log : List (VisitEffect R E)} {state : Visit E} (h : Seen app log state) :
    Seen app log state.leave := by
  cases h with
  | absent => exact .absent
  | done hguards h hlast => exact .done hguards h hlast
  | @waiting scope passed guards asked hguards h =>
    have hdone := @Seen.done _ _ app _ _ _ _ _ hguards h .left
    rwa [List.append_nil] at hdone

theorem visit_seen (app : App R E) (inputs : List (VisitInput R)) :
    Seen app ((visit app).emitted (visit app).init inputs)
      ((visit app).after (visit app).init inputs) := by
  induction inputs using List.reverseRecOn with
  | nil => exact .absent
  | append_singleton past input ih =>
    rw [Machine.emitted_concat, Machine.after_concat]
    cases input with
    | arrive scope =>
      simp only [visit] at ih ⊢
      generalize hlog : Machine.emitted _ _ past = log at ih ⊢
      generalize hstate : Machine.after _ _ past = state at ih ⊢
      cases ih with
      | absent => exact .waiting rfl .nil
      | waiting hguards h =>
        simp only [List.append_nil]
        exact .waiting hguards h
      | done hguards h hlast =>
        simp only [List.append_nil]
        exact .done hguards h hlast
    | advance now answer => exact ih.advance now answer
    | leave =>
      simp only [visit, List.append_nil] at ih ⊢
      exact ih.leave

def VisitEffect.asked? : VisitEffect R E → Option (Acquire × Except String RateLimitResult)
  | .asked _ request result => some (request, result)
  | _ => none

def VisitEffect.responded? : VisitEffect R E → Option (Outcome E)
  | .responded outcome => some outcome
  | _ => none

def Consult.acquire? : Consult E → Option Acquire
  | .acquire request => some request
  | _ => none

def Admitted (result : Except String RateLimitResult) : Prop :=
  ∃ admitted, result = .ok admitted ∧ admitted.allowed = true

/-- A request asks for its guards one by one, in their order, and stops at the first that
does not admit it. -/
structure Admission (app : App R E) (log : List (VisitEffect R E)) : Prop where
  once : (log.filterMap VisitEffect.responded?).length ≤ 1
  in_order : ∀ scope, .arrived scope ∈ log →
    (log.filterMap VisitEffect.asked?).map Prod.fst <+:
      (app.consults scope).filterMap Consult.acquire?
  admitted : ∀ x ∈ (log.filterMap VisitEffect.asked?).dropLast, Admitted x.2
  endpoint : .responded .endpoint ∈ log → ∃ scope, .arrived scope ∈ log ∧
    (∀ error, .raised error ∉ app.consults scope) ∧
    (log.filterMap VisitEffect.asked?).map Prod.fst =
      (app.consults scope).filterMap Consult.acquire? ∧
    ∀ x ∈ log.filterMap VisitEffect.asked?, Admitted x.2
  rejected : ∀ headers, .responded (.rejected headers) ∈ log → ∃ request result,
    (log.filterMap VisitEffect.asked?).getLast? = some (request, .ok result) ∧
      result.allowed = false ∧ headers = rejectionHeaders result

namespace Passed
variable {passed : List (Consult E)} {asked : List (VisitEffect R E)}

theorem acquired (h : Passed passed asked) :
    (asked.filterMap VisitEffect.asked?).map Prod.fst = passed.filterMap Consult.acquire? := by
  induction h with
  | nil => rfl
  | exempt h ih =>
    rw [ih, List.filterMap_append]
    simp [Consult.acquire?]
  | admitted h hallowed ih =>
    rw [List.filterMap_append, List.filterMap_append, List.map_append, ih]
    rfl

theorem all_admitted (h : Passed passed asked) :
    ∀ x ∈ asked.filterMap VisitEffect.asked?, Admitted x.2 := by
  induction h with
  | nil => simp
  | exempt h ih => exact ih
  | @admitted passed asked now request result h hallowed ih =>
    rw [List.filterMap_append, List.forall_mem_append]
    refine ⟨ih, ?_⟩
    rintro x hx
    obtain rfl := List.mem_singleton.mp hx
    exact ⟨result, rfl, hallowed⟩

theorem not_responded (h : Passed passed asked) :
    asked.filterMap VisitEffect.responded? = [] := by
  induction h with
  | nil => rfl
  | exempt h ih => exact ih
  | admitted h hallowed ih =>
    rw [List.filterMap_append, ih]
    rfl

theorem responded_notMem (h : Passed passed asked) (outcome : Outcome E) :
    .responded outcome ∉ asked := by
  intro hmem
  have hfound : outcome ∈ asked.filterMap VisitEffect.responded? :=
    List.mem_filterMap.mpr ⟨_, hmem, rfl⟩
  rw [h.not_responded] at hfound
  exact absurd hfound List.not_mem_nil

theorem not_arrived (h : Passed passed asked) (scope : Scope R) : .arrived scope ∉ asked := by
  induction h with
  | nil => simp
  | exempt h ih => exact ih
  | admitted h hallowed ih => simpa using ih

theorem not_raised (h : Passed passed asked) (error : HttpError E) : .raised error ∉ passed := by
  induction h with
  | nil => simp
  | exempt h ih => simpa using ih
  | admitted h hallowed ih => simpa using ih
end Passed

namespace Stops
variable {guards : List (Consult E)} {last : List (VisitEffect R E)}

theorem not_arrived (h : Stops guards last) (scope : Scope R) : .arrived scope ∉ last := by
  cases h <;> simp

theorem responded_le (h : Stops guards last) :
    (last.filterMap VisitEffect.responded?).length ≤ 1 := by
  cases h <;> simp [List.filterMap_cons, VisitEffect.responded?]

theorem asked_prefix (h : Stops guards last) :
    (last.filterMap VisitEffect.asked?).map Prod.fst <+: guards.filterMap Consult.acquire? ∧
      (last.filterMap VisitEffect.asked?).length ≤ 1 := by
  cases h <;> simp [List.filterMap_cons, VisitEffect.asked?, Consult.acquire?]

theorem of_endpoint (h : Stops guards last) (hlast : .responded .endpoint ∈ last) :
    guards = [] ∧ last = [.responded .endpoint] := by
  cases h <;> simp_all

theorem of_rejected {headers : List (String × String)} (h : Stops guards last)
    (hlast : .responded (.rejected headers) ∈ last) :
    ∃ request result, (last.filterMap VisitEffect.asked?).getLast? = some (request, .ok result) ∧
      result.allowed = false ∧ headers = rejectionHeaders result := by
  cases h with
  | endpoint => simp at hlast
  | raised => simp at hlast
  | failed => simp at hlast
  | left => simp at hlast
  | @rejected now request result guards hdenied =>
    simp only [List.mem_cons, List.not_mem_nil, or_false, reduceCtorEq, false_or,
      VisitEffect.responded.injEq, Outcome.rejected.injEq] at hlast
    exact ⟨request, result, rfl, hdenied, hlast⟩
end Stops

theorem mem_dropLast_append {α : Type*} {xs ys : List α} {x : α} (hys : ys.length ≤ 1)
    (h : x ∈ (xs ++ ys).dropLast) : x ∈ xs := by
  match ys, hys with
  | [], _ =>
    rw [List.append_nil] at h
    exact List.dropLast_subset _ h
  | [y], _ => rwa [List.dropLast_concat] at h

theorem admission_of_stops {scope : Scope R} {passed guards : List (Consult E)}
    {asked last : List (VisitEffect R E)} (hguards : app.consults scope = passed ++ guards)
    (h : Passed passed asked) (hlast : Stops guards last) :
    Admission app (.arrived scope :: (asked ++ last)) := by
  have hasked : (VisitEffect.arrived scope :: (asked ++ last)).filterMap VisitEffect.asked? =
      asked.filterMap VisitEffect.asked? ++ last.filterMap VisitEffect.asked? := by
    rw [List.filterMap_cons_none rfl, List.filterMap_append]
  have hmem : ∀ outcome, .responded outcome ∈ VisitEffect.arrived scope :: (asked ++ last) →
      .responded outcome ∈ last := by
    intro outcome houtcome
    have htail := List.mem_of_ne_of_mem (by simp) houtcome
    exact (List.mem_append.mp htail).resolve_left (h.responded_notMem outcome)
  refine ⟨?_, ?_, ?_, ?_, ?_⟩
  · rw [List.filterMap_cons_none rfl, List.filterMap_append, h.not_responded]
    exact hlast.responded_le
  · intro other hother
    have hscope : other = scope := by
      rcases List.mem_cons.mp hother with hother | hother
      · exact VisitEffect.arrived.inj hother
      · exact absurd hother
          (by simpa using not_or_intro (h.not_arrived other) (hlast.not_arrived other))
    rw [hscope, hasked, List.map_append, h.acquired, hguards, List.filterMap_append]
    exact (List.prefix_append_right_inj _).mpr hlast.asked_prefix.1
  · intro x hx
    rw [hasked] at hx
    have hlength : (last.filterMap VisitEffect.asked?).length ≤ 1 := hlast.asked_prefix.2
    exact h.all_admitted x (mem_dropLast_append hlength hx)
  · intro hendpoint
    obtain ⟨rfl, rfl⟩ := hlast.of_endpoint (hmem _ hendpoint)
    rw [List.append_nil] at hguards
    rw [hasked]
    refine ⟨scope, by simp, hguards ▸ h.not_raised, ?_, ?_⟩
    · rw [List.map_append, h.acquired, hguards]
      simp [VisitEffect.asked?]
    · simpa [VisitEffect.asked?] using h.all_admitted
  · intro headers hrejected
    obtain ⟨request, result, hlast, hdenied, hheaders⟩ := hlast.of_rejected (hmem _ hrejected)
    refine ⟨request, result, ?_, hdenied, hheaders⟩
    rw [hasked, List.getLast?_append, hlast]
    rfl

theorem Seen.admission {log : List (VisitEffect R E)} {state : Visit E} (h : Seen app log state) :
    Admission app log := by
  cases h with
  | absent => constructor <;> simp
  | done hguards h hlast => exact admission_of_stops hguards h hlast
  | @waiting scope passed guards asked hguards h =>
    have hleft := admission_of_stops hguards h .left
    rwa [List.append_nil] at hleft

/-- However requests overlap and are cancelled. -/
theorem request_admission (inputs : List (HttpInput R)) (id : Nat) :
    Admission app (((http formatRate sha256 limiterPrefix app).emitted
      (http formatRate sha256 limiterPrefix app).init inputs).filterMap
        (HttpEffect.ofRequest id)) := by
  have hrun := (visitLayer formatRate sha256 limiterPrefix app id).heard_run inputs
  have hseen := visit_seen app
    ((visitLayer formatRate sha256 limiterPrefix app id).passed
      (http formatRate sha256 limiterPrefix app).init inputs)
  rw [← hrun] at hseen
  exact hseen.admission
end

end DddFramework.RateLimit
