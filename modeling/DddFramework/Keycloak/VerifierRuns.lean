import DddFramework.Keycloak.TokenVerifier
import DddFramework.Keycloak.JwksBinding
import DddFramework.Keycloak.JwksCooldowns
import DddFramework.Library.Layers

/-! The verifier over its JWKS client. A call runs up to `get_key` in one segment and from
its answer on in another, so a run of the verifier is a run of the client in which every
call of `get_key` is made for a token, and any number of calls may be interleaved. -/
namespace DddFramework.Keycloak
open Library Library.Fallible

structure VerifierState (T K : Type) where
  jwks : State T K
  tokens : Nat → Option String

inductive VerifierAction where
  | verify (argument : Argument)
  | enter
  | finish (exchange : Exchange)
  | cancel

/-- The monotonic clock is read by the client, the wall clock by the decoder. -/
structure VerifierEvent (T : Type) where
  now : T
  wall : ℚ
  task : Nat
  action : VerifierAction

/-- What the client does, and how a call of `verify` ends: the key ID and algorithm it
asked for, if it got that far, the answer, and the outcome. -/
inductive VerifierEffect (T K : Type) where
  | jwks (effect : Effect T K)
  | verified (argument : Argument) (wall : ℚ) (asked : Option (String × String × Except Exn K))
      (outcome : Except VerifyExn VerifiedToken)

section
variable {T K : Type} [Clock T] (externals : Externals K) (library : JoseLibrary K)
  (config : VerifierConfig T)

/-- The call goes on as soon as `get_key` answers. -/
def resume (token : String) (wall : ℚ) (effect : Effect T K) : List (VerifierEffect T K) :=
  match effect with
  | .answered path kid algorithm now answer =>
    [.jwks (.answered path kid algorithm now answer),
      .verified (.str token) wall (some (kid, algorithm, answer))
        (verifyEnd library config token wall answer)]
  | effect => [.jwks effect]

def drive (state : VerifierState T K) (event : VerifierEvent T) (token : String) (action : Action) :
    VerifierState T K × List (VerifierEffect T K) :=
  let stepped := step externals config.toKeycloakConfig state.jwks ⟨event.now, event.task, action⟩
  (⟨stepped.1, Function.update state.tokens event.task (some token)⟩,
    stepped.2.flatMap (resume library config token event.wall))

def verifierStep (state : VerifierState T K) (event : VerifierEvent T) :
    VerifierState T K × List (VerifierEffect T K) :=
  match event.action, state.tokens event.task with
  | .verify argument, none =>
    match verifyStart library config argument with
    | .error exn => (state, [.verified argument event.wall none (.error exn)])
    | .ok (token, kid, algorithm) =>
      drive externals library config state event token (.call kid algorithm)
  | .enter, some token => drive externals library config state event token .enter
  | .finish exchange, some token =>
    drive externals library config state event token (.finish exchange)
  | .cancel, some token => drive externals library config state event token .cancel
  | _, _ => (state, [])

def verifier : Machine (VerifierState T K) (VerifierEvent T) (VerifierEffect T K) where
  init := ⟨.init, fun _ => none⟩
  step := verifierStep externals library config

theorem verifier_step (state : VerifierState T K) (event : VerifierEvent T) :
    (verifier externals library config).step state event =
      verifierStep externals library config state event := rfl
end

variable {T K : Type} [Clock T] {externals : Externals K} {library : JoseLibrary K}
  {config : VerifierConfig T}

inductive VerifierStepped (externals : Externals K) (library : JoseLibrary K)
    (config : VerifierConfig T) (state : VerifierState T K) (event : VerifierEvent T) :
    VerifierState T K × List (VerifierEffect T K) → Prop
  | ignored : VerifierStepped externals library config state event (state, [])
  | refused {argument exn} (haction : event.action = .verify argument)
      (hstart : verifyStart library config argument = .error exn) :
      VerifierStepped externals library config state event
        (state, [.verified argument event.wall none (.error exn)])
  | called {token kid algorithm} (haction : event.action = .verify (.str token))
      (htokens : state.tokens event.task = none)
      (hstart : verifyStart library config (.str token) = .ok (token, kid, algorithm)) :
      VerifierStepped externals library config state event
        (drive externals library config state event token (.call kid algorithm))
  | resumed {token action} (hresumes : ∀ argument, event.action ≠ .verify argument)
      (htokens : state.tokens event.task = some token)
      (haction : ∀ kid algorithm, action ≠ .call kid algorithm)
      (hcancel : action = .cancel ↔ event.action = .cancel) :
      VerifierStepped externals library config state event
        (drive externals library config state event token action)

theorem verifierStep_cases (state : VerifierState T K) (event : VerifierEvent T) :
    VerifierStepped externals library config state event
      (verifierStep externals library config state event) := by
  unfold verifierStep
  split
  · rename_i argument haction htokens
    split
    · rename_i exn hstart
      exact .refused haction hstart
    · rename_i token kid algorithm hstart
      obtain rfl := (verifyStart_eq_ok.mp hstart).1
      exact .called haction htokens hstart
  · rename_i haction htokens
    exact .resumed (by simp [haction]) htokens nofun (by simp [haction])
  · rename_i haction htokens
    exact .resumed (by simp [haction]) htokens nofun (by simp [haction])
  · rename_i haction htokens
    exact .resumed (by simp [haction]) htokens nofun (by simp [haction])
  · exact .ignored

/-! A run of the verifier contains a run of its client. -/

def VerifierEffect.jwks? : VerifierEffect T K → Option (Effect T K)
  | .jwks effect => some effect
  | .verified .. => none

def getKeyEvents (library : JoseLibrary K) (config : VerifierConfig T) (state : VerifierState T K)
    (event : VerifierEvent T) : List (Event T) :=
  match event.action, state.tokens event.task with
  | .verify argument, none =>
    match verifyStart library config argument with
    | .error _ => []
    | .ok (_, kid, algorithm) => [⟨event.now, event.task, .call kid algorithm⟩]
  | .enter, some _ => [⟨event.now, event.task, .enter⟩]
  | .finish exchange, some _ => [⟨event.now, event.task, .finish exchange⟩]
  | .cancel, some _ => [⟨event.now, event.task, .cancel⟩]
  | _, _ => []

theorem resume_jwks (token : String) (wall : ℚ) (effect : Effect T K) :
    (resume library config token wall effect).filterMap VerifierEffect.jwks? = [effect] := by
  cases effect <;> rfl

theorem filterMap_resume (token : String) (wall : ℚ) (effects : List (Effect T K)) :
    (effects.flatMap (resume library config token wall)).filterMap VerifierEffect.jwks? =
      effects := by
  induction effects with
  | nil => rfl
  | cons effect effects ih =>
    rw [List.flatMap_cons, List.filterMap_append, ih, resume_jwks]
    rfl

theorem verifierStep_down (state : VerifierState T K) (event : VerifierEvent T) :
    (verifierStep externals library config state event = (state, []) ∨
      ∃ argument exn, verifierStep externals library config state event =
        (state, [.verified argument event.wall none (.error exn)])) ∧
        getKeyEvents library config state event = [] ∨
      ∃ token action, verifierStep externals library config state event =
          drive externals library config state event token action ∧
        getKeyEvents library config state event = [⟨event.now, event.task, action⟩] := by
  unfold verifierStep getKeyEvents
  split
  · rename_i argument haction htokens
    split
    · exact .inl ⟨.inr ⟨_, _, rfl⟩, rfl⟩
    · exact .inr ⟨_, _, rfl, rfl⟩
  · exact .inr ⟨_, _, rfl, rfl⟩
  · exact .inr ⟨_, _, rfl, rfl⟩
  · exact .inr ⟨_, _, rfl, rfl⟩
  · exact .inl ⟨.inl rfl, rfl⟩

def jwksLayer (externals : Externals K) (library : JoseLibrary K) (config : VerifierConfig T) :
    Layer (verifier externals library config) (machine externals config.toKeycloakConfig) where
  view := VerifierState.jwks
  down := getKeyEvents library config
  heard := VerifierEffect.jwks?
  view_init := rfl
  view_step state event := by
    change (verifierStep externals library config state event).1.jwks = _
    rcases @verifierStep_down T K _ externals library config state event with
      ⟨hstep | ⟨argument, exn, hstep⟩, hdown⟩ | ⟨token, action, hstep, hdown⟩
    · rw [hstep, hdown, Machine.after_nil]
    · rw [hstep, hdown, Machine.after_nil]
    · rw [hstep, hdown]
      rfl
  heard_step state event := by
    change (verifierStep externals library config state event).2.filterMap _ = _
    rcases @verifierStep_down T K _ externals library config state event with
      ⟨hstep | ⟨argument, exn, hstep⟩, hdown⟩ | ⟨token, action, hstep, hdown⟩
    · rw [hstep, hdown]
      rfl
    · rw [hstep, hdown]
      rfl
    · rw [hstep, hdown]
      simp only [drive, filterMap_resume, Machine.emitted, List.append_nil]
      rfl

/-! Which token a call of `get_key` is for. -/

def Pending (task : Task) (kid algorithm : String) : Prop :=
  task = .waiting kid algorithm ∨ task = .fetching kid algorithm

omit [Clock T] in
theorem Pending.of_setTask {state : State T K} {task other : Nat} {value : Task}
    {kid algorithm : String} (hvalue : ¬ Pending value kid algorithm)
    (h : Pending ((state.setTask task value).tasks other) kid algorithm) :
    Pending (state.tasks other) kid algorithm := by
  rw [setTask_tasks] at h
  split at h
  · exact absurd h hvalue
  · exact h

theorem pending_of_step {state : State T K} {event : Event T} {task : Nat} {kid algorithm : String}
    (h : Pending ((step externals config.toKeycloakConfig state event).1.tasks task)
      kid algorithm) :
    Pending (state.tasks task) kid algorithm ∨
      task = event.task ∧ event.action = .call kid algorithm := by
  have hdone : ¬ Pending .finished kid algorithm := by simp [Pending]
  have hstep : Stepped externals config.toKeycloakConfig state event _ := step_cases state event
  generalize step externals config.toKeycloakConfig state event = result at hstep h
  cases hstep with
  | ignored => exact .inl h
  | cached haction htask hcached => exact .inl (h.of_setTask hdone)
  | queued haction htask hcached =>
    rw [setTask_tasks] at h
    split at h
    · rename_i htask
      rcases h with h | h
      · obtain ⟨rfl, rfl⟩ := Task.waiting.inj h
        exact .inr ⟨htask, haction⟩
      · contradiction
    · exact .inl h
  | locked haction htask hlock hlocked => exact .inl (h.of_setTask hdone)
  | started haction htask hlock hlocked =>
    rw [setTask_tasks] at h
    split at h
    · rename_i hsame
      rcases h with h | h
      · contradiction
      · obtain ⟨rfl, rfl⟩ := Task.fetching.inj h
        exact .inl (.inl (hsame ▸ htask))
    · exact .inl h
  | failed haction htask hfetch => exact .inl (h.of_setTask hdone)
  | loaded haction htask hfetch => exact .inl (h.of_setTask hdone)
  | abandoned haction htask => exact .inl (h.of_setTask hdone)
  | interrupted haction htask => exact .inl (h.of_setTask hdone)

/-- An answer goes to a call that asked for it, just now or some segments ago. -/
theorem pending_of_answered {state : State T K} {event : Event T} {path : Path}
    {kid algorithm : String} {now : T} {answer : Except Exn K}
    (h : .answered path kid algorithm now answer ∈
      (step externals config.toKeycloakConfig state event).2) :
    Pending (state.tasks event.task) kid algorithm ∨ event.action = .call kid algorithm := by
  have hstep : Stepped externals config.toKeycloakConfig state event _ := step_cases state event
  generalize step externals config.toKeycloakConfig state event = result at hstep h
  cases hstep with
  | ignored | queued | started => simp at h
  | cached haction htask hcached =>
    obtain ⟨-, rfl, rfl, -, -⟩ := Effect.answered.inj (List.mem_singleton.mp h)
    exact .inr haction
  | locked haction htask hlock hlocked =>
    obtain ⟨-, rfl, rfl, -, -⟩ := Effect.answered.inj (List.mem_singleton.mp h)
    exact .inl (.inl htask)
  | failed haction htask hfetch =>
    obtain ⟨-, rfl, rfl, -, -⟩ := Effect.answered.inj (List.mem_singleton.mp h)
    exact .inl (.inr htask)
  | loaded haction htask hfetch =>
    rw [List.mem_cons] at h
    obtain h | h := h
    · contradiction
    · obtain ⟨-, rfl, rfl, -, -⟩ := Effect.answered.inj (List.mem_singleton.mp h)
      exact .inl (.inr htask)
  | abandoned haction htask =>
    obtain ⟨-, rfl, rfl, -, -⟩ := Effect.answered.inj (List.mem_singleton.mp h)
    exact .inl (.inl htask)
  | interrupted haction htask =>
    obtain ⟨-, rfl, rfl, -, -⟩ := Effect.answered.inj (List.mem_singleton.mp h)
    exact .inl (.inr htask)

def KeepsHeaders (library : JoseLibrary K) (config : VerifierConfig T) (state : VerifierState T K) :
    Prop :=
  ∀ task kid algorithm, Pending (state.jwks.tasks task) kid algorithm →
    ∃ token, state.tokens task = some token ∧
      verifyStart library config (.str token) = .ok (token, kid, algorithm)

theorem keepsHeaders_drive {state : VerifierState T K} {event : VerifierEvent T} {token : String}
    {action : Action} (h : KeepsHeaders library config state)
    (hown : ∀ kid algorithm, action = .call kid algorithm ∨
        Pending (state.jwks.tasks event.task) kid algorithm →
      verifyStart library config (.str token) = .ok (token, kid, algorithm)) :
    KeepsHeaders library config
      (drive externals library config state event token action).1 := by
  intro task kid algorithm hpending
  simp only [drive] at hpending ⊢
  by_cases htask : task = event.task
  · subst htask
    rw [Function.update_self]
    refine ⟨token, rfl, hown kid algorithm ?_⟩
    exact (pending_of_step hpending).symm.imp_left fun hcall => hcall.2
  · rw [Function.update_of_ne htask]
    rcases pending_of_step hpending with hbefore | ⟨hsame, -⟩
    · exact h task kid algorithm hbefore
    · exact absurd hsame htask

theorem header_of_pending {state : VerifierState T K} {event : VerifierEvent T} {token : String}
    (h : KeepsHeaders library config state) (htokens : state.tokens event.task = some token)
    {kid algorithm : String} (hpending : Pending (state.jwks.tasks event.task) kid algorithm) :
    verifyStart library config (.str token) = .ok (token, kid, algorithm) := by
  obtain ⟨found, hfound, hstart⟩ := h event.task kid algorithm hpending
  rw [htokens] at hfound
  obtain rfl := Option.some.inj hfound
  exact hstart

theorem not_pending_of_fresh {state : VerifierState T K} {task : Nat}
    (h : KeepsHeaders library config state) (htokens : state.tokens task = none)
    {kid algorithm : String} : ¬ Pending (state.jwks.tasks task) kid algorithm := by
  intro hpending
  obtain ⟨token, htoken, -⟩ := h task kid algorithm hpending
  rw [htokens] at htoken
  contradiction

theorem keepsHeaders_step {state : VerifierState T K} {event : VerifierEvent T}
    (h : KeepsHeaders library config state) :
    KeepsHeaders library config (verifierStep externals library config state event).1 := by
  have hstep : VerifierStepped externals library config state event _ :=
    verifierStep_cases state event
  generalize verifierStep externals library config state event = result at hstep ⊢
  cases hstep with
  | ignored => exact h
  | refused haction hstart => exact h
  | called haction htokens hstart =>
    apply keepsHeaders_drive h
    rintro kid algorithm (hcall | hpending)
    · obtain ⟨rfl, rfl⟩ := Action.call.inj hcall
      exact hstart
    · exact absurd hpending (not_pending_of_fresh h htokens)
  | resumed hresumes htokens haction =>
    apply keepsHeaders_drive h
    rintro kid algorithm (hcall | hpending)
    · exact absurd hcall (haction kid algorithm)
    · exact header_of_pending h htokens hpending

theorem keepsHeaders (events : List (VerifierEvent T)) :
    KeepsHeaders library config
      ((verifier externals library config).after (verifier externals library config).init
        events) := by
  have hrun : (verifier externals library config).Guarded (fun _ _ _ => True) events :=
    fun _ _ _ _ => trivial
  refine hrun.invariant (I := fun _ _ state => KeepsHeaders library config state) ?_ ?_
  · intro task kid algorithm hpending
    rcases hpending with h | h <;> cases h
  · intro past log state event _ h
    exact keepsHeaders_step h

/-! How calls end. -/

/-- A segment of the client has answered, and this answer is the last that was seen of it. -/
def HeardAnswer (effects : List (Effect T K)) (before : List (VerifierEffect T K))
    (kid algorithm : String) (answer : Except Exn K) : Prop :=
  ∃ path now front back, effects = front ++ .answered path kid algorithm now answer :: back ∧
    before.filterMap VerifierEffect.jwks? = front ++ [.answered path kid algorithm now answer]

omit [Clock T] in
theorem HeardAnswer.later {effect : Effect T K} {effects : List (Effect T K)}
    {first rest : List (VerifierEffect T K)} {kid algorithm : String} {answer : Except Exn K}
    (h : HeardAnswer effects rest kid algorithm answer)
    (hfirst : first.filterMap VerifierEffect.jwks? = [effect]) :
    HeardAnswer (effect :: effects) (first ++ rest) kid algorithm answer := by
  obtain ⟨path, now, front, back, rfl, hheard⟩ := h
  refine ⟨path, now, effect :: front, back, rfl, ?_⟩
  rw [List.filterMap_append, hfirst, hheard]
  rfl

theorem verified_of_resume {token : String} {wall wall' : ℚ} {effect : Effect T K}
    {before behind : List (VerifierEffect T K)} {argument : Argument}
    {asked : Option (String × String × Except Exn K)} {outcome : Except VerifyExn VerifiedToken}
    (h : resume library config token wall effect =
      before ++ .verified argument wall' asked outcome :: behind) :
    argument = .str token ∧ wall' = wall ∧ ∃ path kid algorithm now answer,
      effect = .answered path kid algorithm now answer ∧ before = [.jwks effect] ∧
        asked = some (kid, algorithm, answer) ∧
        outcome = verifyEnd library config token wall answer := by
  cases effect with
  | fetchStarted now => simp [resume, List.singleton_eq_append_iff] at h
  | loaded now exchange keys => simp [resume, List.singleton_eq_append_iff] at h
  | answered path kid algorithm now answer =>
    cases before with
    | nil => simp [resume] at h
    | cons first before =>
      obtain ⟨rfl, hrest⟩ := List.cons.inj h
      cases before with
      | nil =>
        obtain ⟨rfl, rfl, rfl, rfl⟩ := VerifierEffect.verified.inj (List.cons.inj hrest).1
        exact ⟨rfl, rfl, path, kid, algorithm, now, answer, rfl, rfl, rfl, rfl⟩
      | cons second before => simp at hrest

theorem resume_split {token : String} {wall wall' : ℚ} {effects : List (Effect T K)}
    {before behind : List (VerifierEffect T K)} {argument : Argument}
    {asked : Option (String × String × Except Exn K)} {outcome : Except VerifyExn VerifiedToken}
    (h : effects.flatMap (resume library config token wall) =
      before ++ .verified argument wall' asked outcome :: behind) :
    argument = .str token ∧ wall' = wall ∧ ∃ kid algorithm answer,
      HeardAnswer effects before kid algorithm answer ∧ asked = some (kid, algorithm, answer) ∧
        outcome = verifyEnd library config token wall answer := by
  induction effects generalizing before with
  | nil => simp at h
  | cons effect effects ih =>
    rw [List.flatMap_cons] at h
    rcases List.append_eq_append_iff.mp h with ⟨rest, rfl, hrest⟩ | ⟨rest, hresume, hrest⟩
    · obtain ⟨rfl, rfl, kid, algorithm, answer, hheard, houtcome⟩ := ih hrest
      exact ⟨rfl, rfl, kid, algorithm, answer, hheard.later (resume_jwks token _ effect), houtcome⟩
    · cases rest with
      | nil =>
        obtain ⟨rfl, rfl, kid, algorithm, answer, hheard, houtcome⟩ := @ih [] hrest.symm
        have hlater := hheard.later (@resume_jwks T K _ library config token wall' effect)
        rw [hresume, List.append_nil, List.append_nil] at hlater
        exact ⟨rfl, rfl, kid, algorithm, answer, hlater, houtcome⟩
      | cons verified rest =>
        obtain ⟨rfl, -⟩ := List.cons.inj hrest
        obtain ⟨rfl, rfl, path, kid, algorithm, now, answer, rfl, rfl, hasked, houtcome⟩ :=
          verified_of_resume hresume
        exact ⟨rfl, rfl, kid, algorithm, answer, ⟨path, now, [], effects, rfl, rfl⟩, hasked,
          houtcome⟩

/-- The call that takes a step has asked for the key of a token, and ends with what follows from
the answer. -/
structure Concludes (externals : Externals K) (library : JoseLibrary K) (config : VerifierConfig T)
    (state : VerifierState T K) (event : VerifierEvent T) (action : Action)
    (before : List (VerifierEffect T K)) (token kid algorithm : String) (answer : Except Exn K) :
    Prop where
  started : verifyStart library config (.str token) = .ok (token, kid, algorithm)
  cancels : action = .cancel ↔ event.action = .cancel
  heard : HeardAnswer (step externals config.toKeycloakConfig state.jwks
    ⟨event.now, event.task, action⟩).2 before kid algorithm answer

theorem concludes_of_drive {state : VerifierState T K} {event : VerifierEvent T} {token : String}
    {action : Action} {before behind : List (VerifierEffect T K)} {argument : Argument} {wall : ℚ}
    {asked : Option (String × String × Except Exn K)} {outcome : Except VerifyExn VerifiedToken}
    (hcancel : action = .cancel ↔ event.action = .cancel)
    (hown : ∀ kid algorithm, action = .call kid algorithm ∨
        Pending (state.jwks.tasks event.task) kid algorithm →
      verifyStart library config (.str token) = .ok (token, kid, algorithm))
    (h : (drive externals library config state event token action).2 =
      before ++ .verified argument wall asked outcome :: behind) :
    ∃ kid algorithm answer, argument = .str token ∧ asked = some (kid, algorithm, answer) ∧
      outcome = verifyEnd library config token wall answer ∧
      Concludes externals library config state event action before token kid algorithm answer := by
  obtain ⟨rfl, rfl, kid, algorithm, answer, hheard, hasked, houtcome⟩ := resume_split h
  refine ⟨kid, algorithm, answer, rfl, hasked, houtcome, ?_, hcancel, hheard⟩
  obtain ⟨path, now, front, back, hstep, -⟩ := hheard
  have hmem : .answered path kid algorithm now answer ∈ (step externals config.toKeycloakConfig
      state.jwks ⟨event.now, event.task, action⟩).2 := by
    rw [hstep]
    exact List.mem_append_right _ List.mem_cons_self
  exact hown kid algorithm (pending_of_answered hmem).symm

theorem verified_step {past : List (VerifierEvent T)} {event : VerifierEvent T}
    {before behind : List (VerifierEffect T K)} {argument : Argument} {wall : ℚ}
    {asked : Option (String × String × Except Exn K)} {outcome : Except VerifyExn VerifiedToken}
    (h : (verifierStep externals library config ((verifier externals library config).after
      (verifier externals library config).init past) event).2 =
        before ++ .verified argument wall asked outcome :: behind) :
    (asked = none ∧ ∃ exn, outcome = .error exn ∧
      verifyStart library config argument = .error exn) ∨
    ∃ token action kid algorithm answer, argument = .str token ∧
      asked = some (kid, algorithm, answer) ∧
      outcome = verifyEnd library config token wall answer ∧
      Concludes externals library config ((verifier externals library config).after
        (verifier externals library config).init past) event action before token kid algorithm
        answer := by
  have hkeeps := @keepsHeaders T K _ externals library config past
  generalize (verifier externals library config).after
    (verifier externals library config).init past = state at h hkeeps ⊢
  have hstep : VerifierStepped externals library config state event _ :=
    verifierStep_cases state event
  generalize verifierStep externals library config state event = result at hstep h
  cases hstep with
  | ignored => simp at h
  | refused haction hstart =>
    cases before with
    | nil =>
      obtain ⟨rfl, rfl, rfl, rfl⟩ := VerifierEffect.verified.inj (List.cons.inj h).1
      exact .inl ⟨rfl, _, rfl, hstart⟩
    | cons first before => simp at h
  | called haction htokens hstart =>
    refine .inr ⟨_, _, concludes_of_drive (by simp [haction]) ?_ h⟩
    rintro kid algorithm (hcall | hpending)
    · obtain ⟨rfl, rfl⟩ := Action.call.inj hcall
      exact hstart
    · exact absurd hpending (not_pending_of_fresh hkeeps htokens)
  | resumed hresumes htokens haction hcancel =>
    refine .inr ⟨_, _, concludes_of_drive hcancel ?_ h⟩
    rintro kid algorithm (hcall | hpending)
    · exact absurd hcall (haction kid algorithm)
    · exact header_of_pending hkeeps htokens hpending

/-- What it takes to accept a token: it passes for one, the key set loaded last has one usable
key for the ID and the algorithm in its header, the decoder accepts it under that key with
every check turned on, and its payload is that of an access token. -/
def Admits (externals : Externals K) (library : JoseLibrary K) (config : VerifierConfig T)
    (log : List (VerifierEffect T K)) (argument : Argument) (wall : ℚ)
    (verified : VerifiedToken) : Prop :=
  ∃ token kid algorithm key claims, argument = .str token ∧ token ≠ "" ∧
    isascii token = true ∧ token.length ≤ config.maxTokenBytes ∧
    SigningHeader library config token kid algorithm ∧
    LastBinds externals config.toKeycloakConfig (log.filterMap VerifierEffect.jwks?)
      kid algorithm key ∧
    library.decode token key (decodeCall config) wall = .ok claims ∧
    AccessToken config claims verified

theorem admits_iff {log : List (VerifierEffect T K)} {argument : Argument} {wall : ℚ}
    {verified : VerifiedToken} :
    Admits externals library config log argument wall verified ↔
      ∃ token kid algorithm key, verifyStart library config argument = .ok (token, kid, algorithm) ∧
        LastBinds externals config.toKeycloakConfig (log.filterMap VerifierEffect.jwks?)
          kid algorithm key ∧
        verifyEnd library config token wall (.ok key) = .ok verified := by
  simp only [Admits, verifyStart_eq_ok, verifyEnd_eq_ok, Except.ok.injEq]
  constructor
  · rintro ⟨token, kid, algorithm, key, claims, hargument, hnonempty, hascii, hlength, hheader,
      hbinds, hdecode, haccess⟩
    exact ⟨token, kid, algorithm, key, ⟨hargument, hnonempty, hascii, hlength, hheader⟩, hbinds,
      key, claims, rfl, hdecode, haccess⟩
  · rintro ⟨token, kid, algorithm, key, ⟨hargument, hnonempty, hascii, hlength, hheader⟩, hbinds,
      _, claims, rfl, hdecode, haccess⟩
    exact ⟨token, kid, algorithm, key, claims, hargument, hnonempty, hascii, hlength, hheader,
      hbinds, hdecode, haccess⟩

/-- A call that ends in a run ends with a token just when it was not cancelled and the token is
admitted under what has been loaded: no cool-down and no failed fetch refuses any other. -/
theorem accepted_iff {past : List (VerifierEvent T)} {event : VerifierEvent T}
    {before behind : List (VerifierEffect T K)} {argument : Argument} {wall : ℚ}
    {asked : Option (String × String × Except Exn K)} {outcome : Except VerifyExn VerifiedToken}
    {verified : VerifiedToken}
    (h : ((verifier externals library config).step ((verifier externals library config).after
      (verifier externals library config).init past) event).2 =
        before ++ .verified argument wall asked outcome :: behind) :
    outcome = .ok verified ↔ event.action ≠ .cancel ∧
      Admits externals library config ((verifier externals library config).emitted
        (verifier externals library config).init past ++ before) argument wall verified := by
  rw [admits_iff]
  rcases verified_step h with ⟨-, exn, rfl, hstart⟩ | ⟨token, action, kid, algorithm, answer, rfl,
    -, rfl, hconcludes⟩
  · simp [hstart]
  · obtain ⟨path, now, front, back, hstep, hheard⟩ := hconcludes.heard
    have hview : ((verifier externals library config).after
        (verifier externals library config).init past).jwks = (machine externals _).after .init _ :=
      (jwksLayer externals library config).view_run past
    have hlog : ((verifier externals library config).emitted
        (verifier externals library config).init past).filterMap VerifierEffect.jwks? =
          (machine externals _).emitted .init _ :=
      (jwksLayer externals library config).heard_run past
    rw [hview] at hstep
    have hanswer := answered_ok_iff hstep
    rw [List.filterMap_append, hlog, hheard, ← List.append_assoc]
    simp only [hconcludes.started, lastBinds_answered, Except.ok.injEq, Prod.mk.injEq]
    constructor
    · intro haccepted
      obtain ⟨key, -, rfl, -⟩ := verifyEnd_eq_ok.mp haccepted
      obtain ⟨hlive, hbinds⟩ := (hanswer key).mp rfl
      exact ⟨fun h => hlive (hconcludes.cancels.mpr h), token, kid, algorithm, key,
        ⟨rfl, rfl, rfl⟩, hbinds, haccepted⟩
    · rintro ⟨hlive, _, _, _, key, ⟨rfl, rfl, rfl⟩, hbinds, haccepted⟩
      rw [(hanswer key).mpr ⟨fun h => hlive (hconcludes.cancels.mp h), hbinds⟩]
      exact haccepted

theorem verified_cases {events : List (VerifierEvent T)} {earlier later : List (VerifierEffect T K)}
    {argument : Argument} {wall : ℚ} {asked : Option (String × String × Except Exn K)}
    {outcome : Except VerifyExn VerifiedToken}
    (h : (verifier externals library config).emitted (verifier externals library config).init
      events = earlier ++ .verified argument wall asked outcome :: later) :
    (asked = none ∧ ∃ exn, outcome = .error exn ∧
      verifyStart library config argument = .error exn) ∨
    ∃ token kid algorithm answer, argument = .str token ∧ asked = some (kid, algorithm, answer) ∧
      outcome = verifyEnd library config token wall answer := by
  obtain ⟨past, event, rest, before, behind, -, hemitted, -⟩ := Machine.exists_step_of_emitted _ h
  rcases verified_step hemitted with hrefused | ⟨token, action, kid, algorithm, answer, hargument,
    hasked, houtcome, -⟩
  · exact .inl hrefused
  · exact .inr ⟨token, kid, algorithm, answer, hargument, hasked, houtcome⟩

/-! A token that the key of the sample document really signs. -/

def sampleHeaderText : String := "eyJhbGciOiJSUzI1NiIsImtpZCI6ImsxIn0"

def samplePayloadText : String :=
  "eyJzdWIiOiJ1MSIsImlzcyI6Imh0dHBzOi8vaWQuZXhhbXBsZS9yZWFsbXMvYXBwIiwiYXVkIjoiYXBp" ++
    "IiwidHlwIjoiQmVhcmVyIiwiZXhwIjoxNzAwMDAwMzAwLCJpYXQiOjE3MDAwMDAwMDB9"

def sampleSignatureText : String :=
  "QywZG2M967bV1Duz4GwTRGNsqHn8z5km_nX4xnTo6m9egG_DGrNmtByBiquxWH1O-pAe1DbWiXSV65tb" ++
    "FkMLNL-2KZBX5pGpCD9vJVJslNZQPUpV66mCUIi3Wg9zTy2VeZYvzQe_H-uTTglqnXiq_svV0cYvPeMx" ++
    "yGf3RK2NErK1e744wCaraXovPMBqlb9o4rSmqy2R8k8G_RMmejhzmeUZHBIWaN_8x1Kn-YrLn8U1BuPv" ++
    "57pZJBBA-kMkvrRg4sMhqE2SefmNEwSPIVHfUz-bWdz9qoMEOxrNjh2VC1b9NS2iaUpQ4V6uFZxa5vGg" ++
    "QHGf7zmdHbT0ffb3BLYXmQ"

def sampleToken : String :=
  sampleHeaderText ++ "." ++ samplePayloadText ++ "." ++ sampleSignatureText

def samplePayload : Claims :=
  [("sub", .str "u1"), ("iss", .str "https://id.example/realms/app"), ("aud", .str "api"),
    ("typ", .str "Bearer"), ("exp", .int 1700000300), ("iat", .int 1700000000)]

def sampleVerifierConfig : VerifierConfig ℚ :=
  .default "https://id.example/realms/app/" "api" (by decide)

def sampleLibrary : JoseLibrary String where
  getUnverifiedHeader token :=
    if token = sampleToken then .ok [("alg", .str "RS256"), ("kid", .str "k1")]
    else .error .pyJwtError
  decode token key call wall :=
    if token = sampleToken ∧ key = sampleModulus ∧ call = decodeCall sampleVerifierConfig ∧
        1699999995 ≤ wall ∧ wall < 1700000305 then .ok samplePayload
    else .error .pyJwtError

theorem sampleLibrary_header (token : String) :
    sampleLibrary.getUnverifiedHeader token =
      if token = sampleToken then .ok [("alg", .str "RS256"), ("kid", .str "k1")]
      else .error .pyJwtError := rfl

theorem sampleLibrary_decode (token key : String) (call : DecodeCall) (wall : ℚ) :
    sampleLibrary.decode token key call wall =
      if token = sampleToken ∧ key = sampleModulus ∧ call = decodeCall sampleVerifierConfig ∧
          1699999995 ≤ wall ∧ wall < 1700000305 then .ok samplePayload
      else .error .pyJwtError := rfl

/-- An ASCII text of so many characters. -/
def AsciiText (text : String) (length : Nat) : Prop :=
  isascii text = true ∧ text.length = length

theorem AsciiText.append {text rest : String} {m n : Nat} (htext : AsciiText text m)
    (hrest : AsciiText rest n) : AsciiText (text ++ rest) (m + n) := by
  constructor
  · rw [isascii, String.toList_append, List.all_append, Bool.and_eq_true]
    exact ⟨htext.1, hrest.1⟩
  · rw [String.length_append, htext.2, hrest.2]

-- A literal is checked through the list of its characters: the kernel is slow to iterate a text.
theorem asciiText_ofList {chars : List Char}
    (h : chars.all (fun char => decide (char.toNat < 128)) = true) :
    AsciiText (.ofList chars) chars.length :=
  ⟨by rwa [isascii, String.toList_ofList], String.length_ofList⟩

theorem asciiText_samplePayloadText : AsciiText samplePayloadText (80 + 68) :=
  .append (asciiText_ofList (by decide)) (asciiText_ofList (by decide))

theorem asciiText_sampleSignatureText :
    AsciiText sampleSignatureText (80 + 80 + 80 + 80 + 22) :=
  .append (.append (.append (.append (asciiText_ofList (by decide)) (asciiText_ofList (by decide)))
    (asciiText_ofList (by decide))) (asciiText_ofList (by decide))) (asciiText_ofList (by decide))

theorem asciiText_sampleToken : AsciiText sampleToken (35 + 1 + 148 + 1 + 342) := by
  have hheader : AsciiText sampleHeaderText 35 := asciiText_ofList (by decide)
  have hdot : AsciiText "." 1 := asciiText_ofList (by decide)
  exact .append (.append (.append (.append hheader hdot) asciiText_samplePayloadText) hdot)
    asciiText_sampleSignatureText

theorem verifyStart_sampleToken :
    verifyStart sampleLibrary sampleVerifierConfig (.str sampleToken) =
      .ok (sampleToken, "k1", "RS256") := by
  obtain ⟨hascii, hlength⟩ := asciiText_sampleToken
  refine verifyStart_eq_ok.mpr ⟨rfl, ?_, hascii, ?_, ⟨[("alg", .str "RS256"), ("kid", .str "k1")],
    by rw [sampleLibrary_header, if_pos rfl], rfl, nofun, rfl, rfl⟩, by decide, by decide⟩
  · intro hempty
    rw [hempty, String.length_empty] at hlength
    omega
  · rw [hlength]
    decide

theorem decode_sampleToken {wall : ℚ} (hissued : 1699999995 ≤ wall) (hlive : wall < 1700000305) :
    sampleLibrary.decode sampleToken sampleModulus (decodeCall sampleVerifierConfig) wall =
      .ok samplePayload := by
  rw [sampleLibrary_decode, if_pos ⟨rfl, rfl, rfl, hissued, hlive⟩]

theorem accessToken_samplePayload :
    AccessToken sampleVerifierConfig samplePayload
      ⟨"u1", "https://id.example/realms/app", ["api"], samplePayload⟩ where
  subject := rfl
  subject_nonempty := by decide
  issuer := rfl
  issuer_nonempty := by decide
  audience := ⟨.str "api", rfl, isAudience_str.mpr ⟨by decide, rfl⟩⟩
  type := rfl
  dates := by
    refine List.forall_mem_cons.mpr ⟨?_, List.forall_mem_cons.mpr ⟨?_, ?_⟩⟩
    · intro value hvalue
      obtain rfl := Option.some.inj hvalue
      exact .inl ⟨1700000300, rfl, lt_doubleBound (by decide)⟩
    · intro value hvalue
      obtain rfl := Option.some.inj hvalue
      exact .inl ⟨1700000000, rfl, lt_doubleBound (by decide)⟩
    · intro name hname value hvalue
      obtain rfl := List.mem_singleton.mp hname
      cases hvalue
  claims_eq := rfl

def verifyBegun (token : String) (now : T) (wall : ℚ) : List (VerifierEvent T) :=
  [⟨now, wall, 1, .verify (.str token)⟩, ⟨now, wall, 1, .enter⟩]

theorem verifyBegun_run {token kid algorithm : String} {now later : T} {wall : ℚ}
    {exchange : Exchange} {keys : List (String × SigningKey K)} {signingKey : SigningKey K}
    (hstart : verifyStart library config (.str token) = .ok (token, kid, algorithm))
    (hfetch : fetchKeys externals config.toKeycloakConfig exchange = .ok keys)
    (hlookup : keys.lookup kid = some signingKey) :
    (verifier externals library config).emitted (verifier externals library config).init
        (verifyBegun token now wall) = [.jwks (.fetchStarted now)] ∧
    ((verifier externals library config).step ((verifier externals library config).after
        (verifier externals library config).init (verifyBegun token now wall))
        ⟨later, wall, 1, .finish exchange⟩).2 =
      [.jwks (.loaded later exchange keys),
        .jwks (.answered .fetched kid algorithm later (selectAlgorithm signingKey algorithm)),
        .verified (.str token) wall
          (some (kid, algorithm, selectAlgorithm signingKey algorithm))
          (verifyEnd library config token wall (selectAlgorithm signingKey algorithm))] := by
  have hheader := (verifyStart_eq_ok.mp hstart).2.2.2.2
  have hcached : getKeyCached (K := K) config.toKeycloakConfig ⟨[], ⊥, ⊥, ⊥⟩ now kid algorithm =
      none := by
    simp [getKeyCached, hheader.kid_nonempty, hheader.algorithm_allowed, isFresh_truthy]
  have hlocked : getKeyLocked (K := K) config.toKeycloakConfig ⟨[], ⊥, ⊥, ⊥⟩ now kid algorithm =
      .fetching ⟨[], ⊥, ⊥, ↑(now + config.jwksRefreshCooldown)⟩ := by
    simp [getKeyLocked_eq]
  simp [verifyBegun, Machine.emitted, Machine.after, verifier, verifierStep, hstart, drive, step,
    State.init, JwksClient.init, hcached, State.setTask, hlocked, hfetch, getKeyFetched, hlookup,
    resume]

def keysArrive (wall : ℚ) : VerifierEvent ℚ := ⟨1, wall, 1, .finish sampleExchange⟩

theorem sampleToken_step (wall : ℚ) :
    ((verifier sampleExternals sampleLibrary sampleVerifierConfig).step
        ((verifier sampleExternals sampleLibrary sampleVerifierConfig).after
          (verifier sampleExternals sampleLibrary sampleVerifierConfig).init
          (verifyBegun sampleToken 0 wall)) (keysArrive wall)).2 =
      [.jwks (.loaded 1 sampleExchange sampleKeys),
        .jwks (.answered .fetched "k1" "RS256" 1 (.ok sampleModulus))] ++
        .verified (.str sampleToken) wall (some ("k1", "RS256", .ok sampleModulus))
          (verifyEnd sampleLibrary sampleVerifierConfig sampleToken wall (.ok sampleModulus)) ::
        [] :=
  (verifyBegun_run verifyStart_sampleToken fetchKeys_sample rfl).2

theorem verifyEnd_sampleToken :
    verifyEnd sampleLibrary sampleVerifierConfig sampleToken 1700000100 (.ok sampleModulus) =
      .ok ⟨"u1", "https://id.example/realms/app", ["api"], samplePayload⟩ :=
  verifyEnd_eq_ok.mpr ⟨sampleModulus, samplePayload, rfl,
    decode_sampleToken (by norm_num) (by norm_num), accessToken_samplePayload⟩

theorem accepted_iff_sampleToken :
    Admits sampleExternals sampleLibrary sampleVerifierConfig
      ((verifier sampleExternals sampleLibrary sampleVerifierConfig).emitted
        (verifier sampleExternals sampleLibrary sampleVerifierConfig).init
        (verifyBegun sampleToken 0 1700000100) ++
        [.jwks (.loaded 1 sampleExchange sampleKeys),
          .jwks (.answered .fetched "k1" "RS256" 1 (.ok sampleModulus))])
      (.str sampleToken) 1700000100
      ⟨"u1", "https://id.example/realms/app", ["api"], samplePayload⟩ :=
  ((accepted_iff (sampleToken_step 1700000100)).mp verifyEnd_sampleToken).2

/-! Tokens that are refused without asking for a key. -/

/-- The event may concern the client: it is not a call that ends before `get_key`. -/
def reachesClient (library : JoseLibrary K) (config : VerifierConfig T) (event : VerifierEvent T) :
    Bool :=
  match event.action with
  | .verify argument => (verifyStart library config argument).isOk
  | _ => true

def VerifierEffect.concernsClient (library : JoseLibrary K) (config : VerifierConfig T) :
    VerifierEffect T K → Bool
  | .jwks _ => true
  | .verified argument _ _ _ => (verifyStart library config argument).isOk

theorem concernsClient_resume {token : String} {wall : ℚ} {effects : List (Effect T K)}
    (h : ∀ path kid algorithm now answer, .answered path kid algorithm now answer ∈ effects →
      verifyStart library config (.str token) = .ok (token, kid, algorithm)) :
    ∀ effect ∈ effects.flatMap (resume library config token wall),
      effect.concernsClient library config = true := by
  intro effect hmem
  obtain ⟨inner, hinner, heffect⟩ := List.mem_flatMap.mp hmem
  cases inner with
  | fetchStarted now =>
    obtain rfl := List.mem_singleton.mp heffect
    rfl
  | loaded now exchange keys =>
    obtain rfl := List.mem_singleton.mp heffect
    rfl
  | answered path kid algorithm now answer =>
    rcases List.mem_cons.mp heffect with rfl | heffect
    · rfl
    · obtain rfl := List.mem_singleton.mp heffect
      simp only [VerifierEffect.concernsClient, h path kid algorithm now answer hinner]
      rfl

/-- A call refused at once changes nothing, and any other event is answered for a token
that passed these checks. -/
theorem step_of_reachesClient {state : VerifierState T K} {event : VerifierEvent T}
    (h : KeepsHeaders library config state) :
    if reachesClient library config event = true then
      ∀ effect ∈ (verifierStep externals library config state event).2,
        effect.concernsClient library config = true
    else (verifierStep externals library config state event).1 = state ∧
      ∀ effect ∈ (verifierStep externals library config state event).2,
        effect.concernsClient library config = false := by
  have hstep : VerifierStepped externals library config state event _ :=
    verifierStep_cases state event
  generalize verifierStep externals library config state event = result at hstep ⊢
  cases hstep with
  | ignored => split <;> simp
  | @refused argument exn haction hstart =>
    have hfalse : (verifyStart library config argument).isOk = false := by
      rw [hstart]
      rfl
    have hreaches : reachesClient library config event = false := by
      simp only [reachesClient, haction, hfalse]
    rw [if_neg (by simp [hreaches])]
    exact ⟨rfl, List.forall_mem_singleton.mpr hfalse⟩
  | @called token kid algorithm haction htokens hstart =>
    have hreaches : reachesClient library config event = true := by
      simp only [reachesClient, haction, hstart]
      rfl
    rw [if_pos hreaches]
    apply concernsClient_resume
    intro path kid' algorithm' now answer hanswered
    rcases pending_of_answered hanswered with hpending | hcall
    · exact absurd hpending (not_pending_of_fresh h htokens)
    · obtain ⟨rfl, rfl⟩ := Action.call.inj hcall
      exact hstart
  | resumed hresumes htokens haction =>
    have hreaches : reachesClient library config event = true := by
      unfold reachesClient
      split
      · exact absurd ‹_› (hresumes _)
      · rfl
    rw [if_pos hreaches]
    apply concernsClient_resume
    intro path kid algorithm now answer hanswered
    rcases pending_of_answered hanswered with hpending | hcall
    · exact header_of_pending h htokens hpending
    · exact absurd hcall (haction kid algorithm)

theorem refused_unseen_from {state : VerifierState T K} (h : KeepsHeaders library config state)
    (events : List (VerifierEvent T)) :
    (verifier externals library config).after state
        (events.filter (reachesClient library config)) =
      (verifier externals library config).after state events ∧
    (verifier externals library config).emitted state
        (events.filter (reachesClient library config)) =
      ((verifier externals library config).emitted state events).filter
        (VerifierEffect.concernsClient library config) := by
  induction events generalizing state with
  | nil => exact ⟨rfl, rfl⟩
  | cons event events ih =>
    have hstep := @step_of_reachesClient T K _ externals library config state event h
    have hih := ih (@keepsHeaders_step T K _ externals library config state event h)
    rw [Machine.emitted, Machine.after, List.filter_append, List.filter_cons, verifier_step]
    by_cases hreaches : reachesClient library config event = true
    · rw [if_pos hreaches] at hstep ⊢
      rw [Machine.emitted, Machine.after, verifier_step, List.filter_eq_self.mpr hstep, hih.2]
      exact ⟨hih.1, rfl⟩
    · rw [if_neg hreaches] at hstep ⊢
      have hnone := List.filter_eq_nil_iff.mpr fun effect hmem =>
        Bool.eq_false_iff.mp (hstep.2 effect hmem)
      rw [hstep.1, hnone, List.nil_append]
      exact ih h

/-- Tokens that fail a check before `get_key` leave no trace: without them the state is the
same and so is everything else the run does. Whatever tokens arrive, fetches stay a
cool-down apart. -/
theorem refused_unseen (events : List (VerifierEvent T)) :
    (verifier externals library config).after (verifier externals library config).init
        (events.filter (reachesClient library config)) =
      (verifier externals library config).after (verifier externals library config).init events ∧
    (verifier externals library config).emitted (verifier externals library config).init
        (events.filter (reachesClient library config)) =
      ((verifier externals library config).emitted (verifier externals library config).init
        events).filter (VerifierEffect.concernsClient library config) ∧
    ((events.map VerifierEvent.now).Pairwise (· ≤ ·) →
      (fetchStarts (((verifier externals library config).emitted
        (verifier externals library config).init events).filterMap
          VerifierEffect.jwks?)).Pairwise fun a b => a + config.jwksRefreshCooldown ≤ b) := by
  have hunseen := @refused_unseen_from T K _ externals library config _
    (@keepsHeaders T K _ externals library config []) events
  refine ⟨hunseen.1, hunseen.2, fun hclock => ?_⟩
  have hrun := (jwksLayer externals library config).heard_run events
  have hbelow : Monotonic ((jwksLayer externals library config).passed
      (verifier externals library config).init events) := by
    apply (jwksLayer externals library config).passed_ordered _ hclock
    intro state event inner hinner
    simp only [jwksLayer, getKeyEvents] at hinner
    split at hinner
    · split at hinner
      · simp at hinner
      · rw [List.mem_singleton.mp hinner]
    · rw [List.mem_singleton.mp hinner]
    · rw [List.mem_singleton.mp hinner]
    · rw [List.mem_singleton.mp hinner]
    · simp at hinner
  have hspaced := (@spaced T K _ externals config.toKeycloakConfig _ hbelow).apart
  exact hrun ▸ hspaced

/-! Exceptions. -/

/-- The ways a call fails: with an invalid token, with what its `get_key` raised, or on an
integral date in a decoded payload that no double holds. -/
def FailsWith (library : JoseLibrary K) (config : VerifierConfig T) (argument : Argument)
    (wall : ℚ) (asked : Option (String × String × Except Exn K)) (exn : VerifyExn) : Prop :=
  IsInvalidToken exn ∨
  (∃ kid algorithm raised, asked = some (kid, algorithm, .error raised) ∧
    exn = .raised raised) ∨
  exn = .escaped .overflowError ∧ ∃ token kid algorithm key claims, argument = .str token ∧
    asked = some (kid, algorithm, .ok key) ∧
    library.decode token key (decodeCall config) wall = .ok claims ∧ HugeDate claims

/-- There are no others when the JOSE library raises only what the handlers expect. -/
theorem verified_error
    (hheader : ∀ token error, library.getUnverifiedHeader token = .error error →
      error = .pyJwtError)
    (hdecode : ∀ token key call wall, library.decode token key call wall ≠ .error .other)
    {events : List (VerifierEvent T)} {earlier later : List (VerifierEffect T K)}
    {argument : Argument} {wall : ℚ} {asked : Option (String × String × Except Exn K)}
    {exn : VerifyExn}
    (h : (verifier externals library config).emitted (verifier externals library config).init
      events = earlier ++ .verified argument wall asked (.error exn) :: later) :
    FailsWith library config argument wall asked exn := by
  rcases verified_cases h with ⟨-, exn', hexn, hstart⟩ |
    ⟨token, kid, algorithm, answer, hargument, hasked, houtcome⟩
  · obtain rfl := Except.error.inj hexn
    rcases verifyStart_fails exn hstart with hinvalid | ⟨error, token, -, hne, hraised⟩
    · exact .inl hinvalid
    · exact absurd (hheader token error hraised) hne
  · rcases verifyEnd_fails exn houtcome.symm with hinvalid | ⟨raised, hanswer, hexn⟩ |
      ⟨key, -, hother, -⟩ | ⟨key, claims, hanswer, hclaims, hexn, hhuge⟩
    · exact .inl hinvalid
    · exact .inr (.inl ⟨kid, algorithm, raised, hanswer ▸ hasked, hexn⟩)
    · exact absurd hother (hdecode _ _ _ _)
    · exact .inr (.inr ⟨hexn, token, kid, algorithm, key, claims, hargument, hanswer ▸ hasked,
        hclaims, hhuge⟩)

theorem sampleLibrary_raises :
    (∀ token error, sampleLibrary.getUnverifiedHeader token = .error error →
      error = .pyJwtError) ∧
    ∀ token key call wall, sampleLibrary.decode token key call wall ≠ .error .other := by
  constructor
  · intro token error herror
    rw [sampleLibrary_header] at herror
    split at herror
    · cases herror
    · exact (Except.error.inj herror).symm
  · intro token key call wall hother
    rw [sampleLibrary_decode] at hother
    split at hother <;> cases hother

theorem expired_run :
    (verifier sampleExternals sampleLibrary sampleVerifierConfig).emitted
        (verifier sampleExternals sampleLibrary sampleVerifierConfig).init
        (verifyBegun sampleToken 0 1700000400 ++ [keysArrive 1700000400]) =
      [.jwks (.fetchStarted 0), .jwks (.loaded 1 sampleExchange sampleKeys),
        .jwks (.answered .fetched "k1" "RS256" 1 (.ok sampleModulus))] ++
        .verified (.str sampleToken) 1700000400 (some ("k1", "RS256", .ok sampleModulus))
          (.error (.raised (.invalidTokenError "Invalid access token"))) :: [] := by
  have hlate : ¬ (1700000400 : ℚ) < 1700000305 := by norm_num
  have hrefused : sampleLibrary.decode sampleToken sampleModulus
      (decodeCall sampleVerifierConfig) 1700000400 = .error .pyJwtError := by
    rw [sampleLibrary_decode, if_neg fun h => hlate h.2.2.2.2]
  have hend : verifyEnd sampleLibrary sampleVerifierConfig sampleToken 1700000400
      (.ok sampleModulus) = .error (.raised (.invalidTokenError "Invalid access token")) := by
    simp only [verifyEnd, hrefused]
    rfl
  have hbegun := @verifyBegun_run ℚ String _ sampleExternals sampleLibrary sampleVerifierConfig
    sampleToken "k1" "RS256" 0 1 1700000400 sampleExchange sampleKeys _ verifyStart_sampleToken
    fetchKeys_sample rfl
  rw [Machine.emitted_concat, hbegun.1, sampleToken_step, hend]
  rfl

theorem verified_error_expired :
    FailsWith sampleLibrary sampleVerifierConfig (.str sampleToken) 1700000400
      (some ("k1", "RS256", .ok sampleModulus))
      (.raised (.invalidTokenError "Invalid access token")) :=
  verified_error sampleLibrary_raises.1 sampleLibrary_raises.2 expired_run

end DddFramework.Keycloak
