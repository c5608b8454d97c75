import DddFramework.Library.Expiring

/-! One script inside another. A host that keeps more in its cell, and takes more kinds of
request, hosts a script when on that script's requests it answers alike, until the same
deadline, and the value the script would have stored can be read out of the cell. Calls
of the hosted script are then served as if it had the cell to itself. -/
namespace DddFramework.Library

variable {T ι κ V W ρ : Type*}

def Event.map (f : ι → κ) : Event T ι → Event T κ
  | .tick now => .tick now
  | .call now request => .call now (f request)

@[simp] theorem Event.now_map (f : ι → κ) (event : Event T ι) : (event.map f).now = event.now := by
  cases event <;> rfl

def Served.map (f : ι → κ) (served : Served T ι ρ) : Served T κ ρ :=
  ⟨served.now, f served.request, served.reply⟩

structure Script.Hosts (host : Script T κ W ρ) (guest : Script T ι V ρ) (embed : ι → κ)
    (read : W → Option V) : Prop where
  reply_eq : ∀ now request stored,
    (host now (embed request) stored).reply = (guest now request (stored.bind read)).reply
  deadline_eq : ∀ now request stored,
    (host now (embed request) stored).deadline = (guest now request (stored.bind read)).deadline
  read_value : ∀ now request stored,
    read (host now (embed request) stored).value =
      some (guest now request (stored.bind read)).value

namespace Script.Hosts
variable [LinearOrder T] {host : Script T κ W ρ} {guest : Script T ι V ρ} {embed : ι → κ}
  {read : W → Option V}

/-- The two cells hold the same value until the same deadline. -/
inductive Same (read : W → Option V) : Option (Expiring T W) → Option (Expiring T V) → Prop
  | none : Same read none none
  | some {value hosted deadline dropped} (h : read value = some hosted) :
      Same read (some ⟨value, deadline, dropped⟩) (some ⟨hosted, deadline, dropped⟩)

theorem Same.live {cell : Option (Expiring T W)} {hosted : Option (Expiring T V)}
    (h : Same read cell hosted) (now : T) :
    (Expiring.live now cell).bind read = Expiring.live now hosted := by
  cases h with
  | none => rfl
  | @some value found deadline dropped hread =>
    have hgone : Expiring.expired ⟨found, deadline, dropped⟩ now =
        Expiring.expired ⟨value, deadline, dropped⟩ now := rfl
    simp only [Expiring.live, hgone]
    cases Expiring.expired ⟨value, deadline, dropped⟩ now with
    | true => rfl
    | false => exact hread

theorem Same.sweep {cell : Option (Expiring T W)} {hosted : Option (Expiring T V)}
    (h : Same read cell hosted) (now : T) :
    Same read (cell.map (Expiring.sweep now)) (hosted.map (Expiring.sweep now)) := by
  cases h with
  | none => exact .none
  | some hread => exact .some hread

theorem Same.write (hosts : host.Hosts guest embed read) {cell : Option (Expiring T W)}
    {hosted : Option (Expiring T V)} (h : Same read cell hosted) (now : T) (request : ι) :
    Same read (host.machine.step cell (.call now (embed request))).1
      (guest.machine.step hosted (.call now request)).1 := by
  rw [Script.step_call, Script.step_call, ← h.live, ← hosts.deadline_eq]
  exact .some (hosts.read_value now request _)

theorem emitted_from (hosts : host.Hosts guest embed read) {cell : Option (Expiring T W)}
    {hosted : Option (Expiring T V)} (h : Same read cell hosted) (events : List (Event T ι)) :
    host.machine.emitted cell (events.map (Event.map embed)) =
      (guest.machine.emitted hosted events).map (Served.map embed) := by
  induction events generalizing cell hosted with
  | nil => rfl
  | cons event events ih =>
    rw [List.map_cons, Machine.emitted, Machine.emitted, List.map_append]
    cases event with
    | tick now =>
      rw [Event.map, Script.step_tick, Script.step_tick, ih (h.sweep now)]
      rfl
    | call now request =>
      rw [Event.map, ih (h.write hosts now request), Script.step_call, Script.step_call,
        hosts.reply_eq, h.live]
      rfl

theorem emitted_eq (hosts : host.Hosts guest embed read) (events : List (Event T ι)) :
    host.machine.emitted host.machine.init (events.map (Event.map embed)) =
      (guest.machine.emitted guest.machine.init events).map (Served.map embed) :=
  hosts.emitted_from .none events

end Script.Hosts
end DddFramework.Library
