import DddFramework.Filters.CamelCase

/-! The routing keys of events. A key says in small letters what words the name of the event's
class consists of, a suffix apart, and then the version of the event. -/
namespace DddFramework.Events.Rabbit
open Library Filters

structure Event (F : Type) where
  className : String
  version : Int
  fields : F

/-- What `(?<=[a-z0-9])` finds. -/
def isSmall (c : Char) : Bool := c.isLower || c.isDigit

def removeSuffix (name : List Char) : List Char := (name.dropSuffix? "Event".toList).getD name

/-- What stands after a letter, with dots before the words that begin there. -/
def separateAfter : Char → List Char → List Char
  | _, [] => []
  | before, c :: rest =>
    if isSmall before && isUpper c then '.' :: c :: separateAfter c rest
    else c :: separateAfter c rest

def separate : List Char → List Char
  | [] => []
  | c :: rest => c :: separateAfter c rest

def strVersion : Int → List Char
  | .ofNat n => decimal n
  | .negSucc n => '-' :: decimal (n + 1)

def getRabbitRoutingKey {F : Type} (py : Python) (event : Event F) : String :=
  py.lower (String.ofList (separate (removeSuffix event.className.toList))) ++
    String.ofList ('.' :: 'v' :: strVersion event.version)

example : getRabbitRoutingKey asciiPython ⟨"UserProfileUpdatedEvent", 1, ()⟩ =
    "user.profile.updated.v1" := by decide

/-- A word begins after this place of the name. -/
def Boundary (name : List Char) (i : Nat) : Prop :=
  ∃ before c, name[i]? = some before ∧ name[i + 1]? = some c ∧ isSmall before ∧ isUpper c

/-- The same letters, small ones for capital ones, with the words beginning at the same places. -/
def SameWords (x y : List Char) : Prop :=
  x.map Char.toLower = y.map Char.toLower ∧ ∀ i, Boundary x i ↔ Boundary y i

def Identifier (name : List Char) : Prop := ∀ c ∈ name, c.isAlphanum ∨ c = '_'

instance (name : List Char) : Decidable (Identifier name) := List.decidableBAll _ name

section letters
variable {c : Char}

theorem val_lt_of_identifier (h : c.isAlphanum ∨ c = '_') : c.val < 128 := by
  obtain h | rfl := h
  · exact val_lt_of_isAlphanum h
  · decide

theorem toLower_ne_dot (h : c.isAlphanum ∨ c = '_') : c.toLower ≠ '.' := by
  obtain h | rfl := h
  · exact @forall_ascii c (fun c => c.isAlphanum = true → c.toLower ≠ '.') (by decide) h h
  · decide

theorem notMem_strVersion (v : Int) : '.' ∉ 'v' :: strVersion v := by
  have hdigits := notMem_decimal (show ('.' : Char).isDigit = false by decide)
  cases v with
  | ofNat n => simpa [strVersion] using hdigits n
  | negSucc n => simpa [strVersion] using hdigits (n + 1)

theorem strVersion_inj {v w : Int} (h : strVersion v = strVersion w) : v = w := by
  have hsign := notMem_decimal (show ('-' : Char).isDigit = false by decide)
  cases v with
  | ofNat n =>
    cases w with
    | ofNat m => exact congrArg Int.ofNat (decimal_inj h)
    | negSucc m =>
      refine absurd (?_ : '-' ∈ decimal n) (hsign n)
      rw [show decimal n = '-' :: decimal (m + 1) from h]
      exact List.mem_cons_self
  | negSucc n =>
    cases w with
    | ofNat m =>
      refine absurd (?_ : '-' ∈ decimal m) (hsign m)
      rw [show decimal m = '-' :: decimal (n + 1) from h.symm]
      exact List.mem_cons_self
    | negSucc m =>
      have hnumber := decimal_inj (List.cons.inj h).2
      exact congrArg Int.negSucc (Nat.succ.inj hnumber)

end letters

section separate

theorem boundary_zero (before c : Char) (rest : List Char) :
    Boundary (before :: c :: rest) 0 ↔ (isSmall before && isUpper c) = true := by
  simp [Boundary]

theorem not_boundary_singleton (c : Char) (i : Nat) : ¬Boundary [c] i := by
  rintro ⟨before, after, -, hafter, -⟩
  cases hafter

theorem separateAfter_cons_ne_nil (before c : Char) (rest : List Char) :
    separateAfter before (c :: rest) ≠ [] := by
  rw [separateAfter]
  split <;> exact List.cons_ne_nil _ _

/-- The separated names are read letter by letter: a dot is there where a word begins. -/
theorem map_separateAfter_inj {before before' : Char} {x y : List Char} (hx : Identifier x)
    (hy : Identifier y) :
    (separateAfter before x).map Char.toLower = (separateAfter before' y).map Char.toLower ↔
      x.map Char.toLower = y.map Char.toLower ∧
        ∀ i, Boundary (before :: x) i ↔ Boundary (before' :: y) i := by
  induction x generalizing before before' y with
  | nil =>
    cases y with
    | nil => simp [separateAfter, not_boundary_singleton]
    | cons d y =>
      rw [separateAfter]
      simp [separateAfter_cons_ne_nil]
  | cons c x ih =>
    obtain ⟨hc, hx⟩ := List.forall_mem_cons.mp hx
    cases y with
    | nil =>
      have hnil : separateAfter before' [] = [] := rfl
      rw [hnil]
      simp [separateAfter_cons_ne_nil]
    | cons d y =>
      obtain ⟨hd, hy⟩ := List.forall_mem_cons.mp hy
      have hrest := @ih c d y hx hy
      have hplaces : (∀ i, Boundary (before :: c :: x) i ↔ Boundary (before' :: d :: y) i) ↔
          ((isSmall before && isUpper c) = (isSmall before' && isUpper d)) ∧
            ∀ i, Boundary (c :: x) i ↔ Boundary (d :: y) i := by
        constructor
        · intro h
          have hfirst := h 0
          rw [boundary_zero, boundary_zero, ← Bool.eq_iff_iff] at hfirst
          exact ⟨hfirst, fun i => h (i + 1)⟩
        · intro h i
          cases i with
          | zero => rw [boundary_zero, boundary_zero, h.1]
          | succ i => exact h.2 i
      rw [hplaces, separateAfter, separateAfter, List.map_cons, List.map_cons, List.cons.injEq]
      have hdot := toLower_ne_dot hc
      have hdot' := toLower_ne_dot hd
      have hsame : Char.toLower '.' = '.' := by decide
      cases isSmall before && isUpper c <;> cases isSmall before' && isUpper d <;>
        simp [hrest, hsame, hdot, hdot'.symm, and_assoc]

theorem map_separate_inj {x y : List Char} (hx : Identifier x) (hy : Identifier y) :
    (separate x).map Char.toLower = (separate y).map Char.toLower ↔ SameWords x y := by
  unfold SameWords
  cases x with
  | nil =>
    cases y with
    | nil => simp [separate]
    | cons d y => simp [separate]
  | cons c x =>
    cases y with
    | nil => simp [separate]
    | cons d y =>
      obtain ⟨-, hx⟩ := List.forall_mem_cons.mp hx
      obtain ⟨-, hy⟩ := List.forall_mem_cons.mp hy
      rw [separate, separate, List.map_cons, List.map_cons, List.cons.injEq,
        map_separateAfter_inj hx hy, List.map_cons, List.map_cons, List.cons.injEq, and_assoc]

end separate

theorem identifier_removeSuffix {name : List Char} (h : Identifier name) :
    Identifier (removeSuffix name) := by
  unfold removeSuffix
  cases hdrop : name.dropSuffix? "Event".toList with
  | none => exact h
  | some rest =>
    obtain ⟨suffix, rfl, -⟩ := List.dropSuffix?_eq_some_iff.mp hdrop
    exact fun c hc => h c (List.mem_append_left _ hc)

theorem separateAfter_ascii {before : Char} {name : List Char} (h : Identifier name) :
    ∀ c ∈ separateAfter before name, c.val < 128 := by
  induction name generalizing before with
  | nil => exact fun c hc => absurd hc List.not_mem_nil
  | cons c name ih =>
    obtain ⟨hc, hname⟩ := List.forall_mem_cons.mp h
    have hletter := val_lt_of_identifier hc
    rw [separateAfter]
    split
    · simpa [hletter, show ('.' : Char).val < 128 by decide] using ih hname
    · simpa [hletter] using ih hname

theorem separate_ascii {name : List Char} (h : Identifier name) :
    ∀ c ∈ separate name, c.val < 128 := by
  cases name with
  | nil => exact fun c hc => absurd hc List.not_mem_nil
  | cons c name =>
    obtain ⟨hc, hname⟩ := List.forall_mem_cons.mp h
    exact List.forall_mem_cons.mpr ⟨val_lt_of_identifier hc, separateAfter_ascii hname⟩

section keys
variable {F : Type} {py : Python}

theorem toList_getRabbitRoutingKey (hlower : LowersAscii py) {event : Event F}
    (h : Identifier event.className.toList) :
    (getRabbitRoutingKey py event).toList =
      (separate (removeSuffix event.className.toList)).map Char.toLower ++
        '.' :: 'v' :: strVersion event.version := by
  have hascii := separate_ascii (identifier_removeSuffix h)
  rw [getRabbitRoutingKey, hlower _ (by rwa [String.toList_ofList]), String.toList_append,
    String.toList_ofList, String.toList_ofList, String.toList_ofList]

theorem append_version_inj {x y : List Char} {v w : Int}
    (h : x ++ '.' :: 'v' :: strVersion v = y ++ '.' :: 'v' :: strVersion w) : x = y ∧ v = w := by
  have hturned : ∀ x tail : List Char,
      (x ++ '.' :: tail).reverse = tail.reverse ++ '.' :: x.reverse := by simp
  have hreversed := congrArg List.reverse h
  rw [hturned, hturned] at hreversed
  obtain ⟨hversion, hname⟩ := append_cons_inj
    (List.mem_reverse.not.mpr (notMem_strVersion v))
    (List.mem_reverse.not.mpr (notMem_strVersion w)) hreversed
  exact ⟨List.reverse_injective hname,
    strVersion_inj (List.cons.inj (List.reverse_injective hversion)).2⟩

/-- Two events have one routing key just if they have one version and the names of their classes
have the same words, the suffix apart. -/
theorem routingKeys_equal_iff (hlower : LowersAscii py) {x y : Event F}
    (hx : Identifier x.className.toList) (hy : Identifier y.className.toList) :
    getRabbitRoutingKey py x = getRabbitRoutingKey py y ↔
      SameWords (removeSuffix x.className.toList) (removeSuffix y.className.toList) ∧
        x.version = y.version := by
  rw [← String.toList_inj, toList_getRabbitRoutingKey hlower hx,
    toList_getRabbitRoutingKey hlower hy,
    ← map_separate_inj (identifier_removeSuffix hx) (identifier_removeSuffix hy)]
  constructor
  · exact append_version_inj
  · intro h
    rw [h.1, h.2]

end keys

theorem routingKeys_equal_iff_orderCreated :
    getRabbitRoutingKey asciiPython ⟨"OrderCreatedEvent", 1, ()⟩ =
      getRabbitRoutingKey asciiPython ⟨"OrderCreated", 1, ()⟩ := by
  have hname : removeSuffix "OrderCreatedEvent".toList = removeSuffix "OrderCreated".toList := by
    decide
  apply (routingKeys_equal_iff lowersAscii_asciiPython (by decide) (by decide)).mpr
  rw [hname]
  exact ⟨⟨rfl, fun _ => Iff.rfl⟩, rfl⟩

end DddFramework.Events.Rabbit
