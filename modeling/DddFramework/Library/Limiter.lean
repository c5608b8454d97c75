import DddFramework.Library.Expiring

/-! Values that drift towards a state of rest while nobody looks at them, and
limiters that admit requests against such a value. A limiter's own machine never
forgets; a script that stores the value lazily in an expiring cell keeps the
limiter when the value is back at rest by the time the cell expires. -/
namespace DddFramework.Library

variable {T ι V H ρ : Type*} [LinearOrder T]

/-- How a value ages from one reading to a later one. `valid` marks the values
the laws are promised for. -/
structure Drift (T V : Type*) [LinearOrder T] where
  rest : V
  age : T → T → V → V
  valid : V → Prop
  valid_rest : valid rest
  valid_age : ∀ {before now v}, before ≤ now → valid v → valid (age before now v)
  age_self : ∀ {now v}, valid v → age now now v = v
  age_age : ∀ {before between now v}, before ≤ between → between ≤ now → valid v →
    age between now (age before between v) = age before now v
  age_rest : ∀ {before now}, before ≤ now → age before now rest = rest

structure Limiter (T V ι ρ : Type*) [LinearOrder T] extends Drift T V where
  answer : T → ι → V → V × ρ
  valid_answer : ∀ {now request v}, valid v → valid (answer now request v).1

namespace Limiter
variable (limiter : Limiter T V ι ρ)

/-- The value at a reading, from the last write and when it was made. -/
def level : Option (T × V) → T → V
  | none, _ => limiter.rest
  | some (written, v), now => limiter.age written now v

@[simp] theorem level_some (written now : T) (v : V) :
    limiter.level (some (written, v)) now = limiter.age written now v := rfl

def machine : Machine (Option (T × V)) (Event T ι) (Served T ι ρ) :=
  serving none (fun _ record => record) fun now request record =>
    let answered := limiter.answer now request (limiter.level record now)
    (some (now, answered.1), answered.2)

theorem step_call (record : Option (T × V)) (now : T) (request : ι) :
    limiter.machine.step record (.call now request) =
      (some (now, (limiter.answer now request (limiter.level record now)).1),
        [⟨now, request, (limiter.answer now request (limiter.level record now)).2⟩]) := rfl

theorem exists_call_of_served {events : List (Event T ι)} {earlier later : List (Served T ι ρ)}
    {x : Served T ι ρ}
    (h : limiter.machine.emitted limiter.machine.init events = earlier ++ x :: later) :
    ∃ past rest, events = past ++ .call x.now x.request :: rest ∧
      earlier = limiter.machine.emitted limiter.machine.init past ∧
      x.reply = (limiter.answer x.now x.request
        (limiter.level (limiter.machine.after limiter.machine.init past) x.now)).2 :=
  Library.exists_call_of_served h

end Limiter

/-- A script keeps a limiter: read at any later reading, what it stores is the
limiter's value there, and once the cell may be gone that value is at rest.
`fits` is what the script relies on about a stored value it reads. -/
structure Script.Keeps (script : Script T ι H ρ) (limiter : Limiter T V ι ρ)
    (read : T → Option H → V) (fits : T → H → Prop) : Prop where
  read_none : ∀ now, read now none = limiter.rest
  reply_eq : ∀ {now request stored}, (∀ h ∈ stored, fits now h) →
    (script now request stored).reply = (limiter.answer now request (read now stored)).2
  fits_write : ∀ {now request stored later}, (∀ h ∈ stored, fits now h) → now ≤ later →
    fits later (script now request stored).value
  read_write : ∀ {now request stored later}, (∀ h ∈ stored, fits now h) → now ≤ later →
    read later (some (script now request stored).value) =
      limiter.age now later (limiter.answer now request (read now stored)).1
  rest_of_deadline : ∀ {now request stored later}, (∀ h ∈ stored, fits now h) →
    limiter.valid (read now stored) → now ≤ later →
    (script now request stored).deadline < later →
    limiter.age now later (limiter.answer now request (read now stored)).1 = limiter.rest

namespace Script.Keeps

variable {script : Script T ι H ρ} {limiter : Limiter T V ι ρ}
  {read : T → Option H → V} {fits : T → H → Prop}

/-- Read at any reading from now on, the cell shows the limiter's value. -/
def Shows (limiter : Limiter T V ι ρ) (read : T → Option H → V) (fits : T → H → Prop)
    (past : List (Event T ι)) (cell : Option (Expiring T H)) (record : Option (T × V)) : Prop :=
  ∀ now, (∀ event ∈ past, event.now ≤ now) →
    (∀ h ∈ Expiring.live now cell, fits now h) ∧
      read now (Expiring.live now cell) = limiter.level record now ∧
      limiter.valid (limiter.level record now)

theorem shows_call (keeps : script.Keeps limiter read fits) {past : List (Event T ι)} {now : T}
    {request : ι} {cell : Option (Expiring T H)} {record : Option (T × V)}
    (hpast : ∀ event ∈ past, event.now ≤ now) (h : Shows limiter read fits past cell record) :
    Shows limiter read fits (past ++ [.call now request])
      (script.machine.step cell (.call now request)).1
      (limiter.machine.step record (.call now request)).1 := by
  obtain ⟨hfits, hread, hvalid⟩ := h now hpast
  intro later hlater
  have hle : now ≤ later := hlater (.call now request) (by simp)
  simp only [limiter.step_call, script.step_call, Expiring.live_fresh, limiter.level_some]
  refine ⟨?_, ?_, limiter.valid_age hle (limiter.valid_answer hvalid)⟩
  · intro stored hstored
    split at hstored
    · contradiction
    · rw [← Option.some.inj hstored]
      exact keeps.fits_write hfits hle
  · rw [← hread] at hvalid ⊢
    split
    · rename_i hdeadline
      rw [keeps.read_none, keeps.rest_of_deadline hfits hvalid hle hdeadline]
    · exact keeps.read_write hfits hle

/-- Losing the cell is never observable: under a clock that does not step back
the script's calls are served exactly as by the limiter that never forgets. -/
theorem emitted_eq (keeps : script.Keeps limiter read fits) {events : List (Event T ι)}
    (h : (events.map Event.now).Pairwise (· ≤ ·)) :
    script.machine.emitted script.machine.init events =
      limiter.machine.emitted limiter.machine.init events := by
  refine (Machine.emitted_eq_of_simulation (G := fun past event => ∀ e ∈ past, e.now ≤ event.now)
    (R := Shows limiter read fits) ?_ ?_ ?_).1
  · intro now _
    exact ⟨by simp [Script.machine, serving], keeps.read_none now, limiter.valid_rest⟩
  · intro past cell record event hpast hshows
    cases event with
    | tick now =>
      refine ⟨rfl, fun later hlater => ?_⟩
      have hle : now ≤ later := hlater (.tick now) (by simp)
      have hcell := hshows later fun event hevent => hlater event (by simp [hevent])
      simp only [Script.machine, Limiter.machine, serving, Expiring.live_sweep hle]
      exact hcell
    | call now request =>
      obtain ⟨hfits, hread, -⟩ := hshows now hpast
      refine ⟨?_, shows_call keeps hpast hshows⟩
      simp only [Script.machine, Limiter.machine, serving, keeps.reply_eq hfits, hread]
  · intro past event rest hsplit before hbefore
    exact le_of_split h hsplit hbefore

end Script.Keeps

theorem Limiter.reply_of_log {limiter : Limiter T V ι ρ} {value : T → List (Served T ι ρ) → V}
    (hnil : ∀ now, value now [] = limiter.rest)
    (hserved : ∀ log now request later, (∀ x ∈ log, x.now ≤ now) → now ≤ later →
      value later (log ++ [⟨now, request, (limiter.answer now request (value now log)).2⟩]) =
        limiter.age now later (limiter.answer now request (value now log)).1)
    {events : List (Event T ι)} (h : (events.map Event.now).Pairwise (· ≤ ·))
    {earlier later : List (Served T ι ρ)} {x : Served T ι ρ}
    (hsplit : limiter.machine.emitted limiter.machine.init events = earlier ++ x :: later) :
    x.reply = (limiter.answer x.now x.request (value x.now earlier)).2 := by
  obtain ⟨past, rest, hevents, rfl, hreply⟩ := limiter.exists_call_of_served hsplit
  have hpast : ∀ event ∈ past, event.now ≤ x.now := fun event hevent =>
    le_of_split h hevents hevent
  have hordered : (past.map Event.now).Pairwise (· ≤ ·) := by
    rw [hevents, List.map_append, List.pairwise_append] at h
    exact h.1
  have hguarded := Machine.guarded_of_ordered (m := limiter.machine) hordered
  have hinv := hguarded.invariant (I := fun before log record =>
    ∀ now, (∀ event ∈ before, event.now ≤ now) →
      (∀ y ∈ log, y.now ≤ now) ∧ limiter.level record now = value now log) ?_ ?_
  · rw [hreply, (hinv x.now hpast).2]
  · intro now _
    exact ⟨by simp, (hnil now).symm⟩
  · intro before log record event hbefore hlog now hnow
    have hearlier := hlog now fun e he => hnow e (by simp [he])
    cases event with
    | tick reading => simpa [Limiter.machine, serving] using hearlier
    | call reading request =>
      obtain ⟨hordered, hlevel⟩ := hlog reading hbefore
      have hle : reading ≤ now := hnow (.call reading request) (by simp)
      rw [limiter.step_call, hlevel]
      refine ⟨?_, (hserved log reading request now hordered hle).symm⟩
      intro y hy
      rcases List.mem_append.mp hy with hy | hy
      · exact (hordered y hy).trans hle
      · rw [List.mem_singleton.mp hy]
        exact hle

end DddFramework.Library
