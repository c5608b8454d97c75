import DddFramework.RateLimit.TokenBucket

/-! The token bucket under a clock that steps back. `updated_at` is the highest reading
so far, so a step back refills nothing. The expiry is set from the reading itself, so
after a step back the hash can be dropped, and the bucket is full again, before the
clock has come back to where it was. -/
namespace DddFramework.RateLimit
open Library

/-! The highest reading of a log. -/

section
variable {limit : Int}

def peak (start : Int) (log : List (Entry limit)) : Int :=
  log.foldl (fun reading x => max reading x.now) start

theorem peak_le_iff {start bound : Int} {log : List (Entry limit)} :
    peak start log ≤ bound ↔ start ≤ bound ∧ ∀ x ∈ log, x.now ≤ bound := by
  unfold peak
  induction log generalizing start with
  | nil => simp
  | cons x log ih =>
    rw [List.foldl_cons, ih, max_le_iff]
    simp only [List.mem_cons, forall_eq_or_imp]
    exact and_assoc

theorem peak_concat (start : Int) (log : List (Entry limit)) (x : Entry limit) :
    peak start (log ++ [x]) = max (peak start log) x.now := by
  simp [peak]

theorem peak_split (start : Int) (earlier rest : List (Entry limit)) (x : Entry limit) :
    peak start (earlier ++ x :: rest) = max start (peak (peak x.now earlier) rest) := by
  apply eq_of_forall_ge_iff
  intro bound
  simp only [peak_le_iff, max_le_iff, List.mem_append, List.mem_cons]
  constructor
  · rintro ⟨hstart, hall⟩
    exact ⟨hstart, ⟨hall x (by simp), fun y hy => hall y (by simp [hy])⟩,
      fun y hy => hall y (by simp [hy])⟩
  · rintro ⟨hstart, ⟨hx, hearlier⟩, hrest⟩
    refine ⟨hstart, ?_⟩
    rintro y (hy | rfl | hy)
    · exact hearlier y hy
    · exact hx
    · exact hrest y hy
end

/-! Segments of a run. -/

section
variable (policy : TokenBucketPolicy)

/-- Consecutive calls get the capacity at most, and what is refilled while the highest
reading rises. -/
def SegmentsBounded (log : List (Entry policy.capacity)) : Prop :=
  ∀ earlier x rest later, log = earlier ++ x :: rest ++ later →
    ((spent (fun _ => True) (x :: rest) : Int) : ℚ) ≤ policy.capacity +
      policy.ratePerMs * ((peak (peak x.now earlier) rest - peak x.now earlier : Int) : ℚ)

/-- A call that finds the hash dropped comes when the bucket would have been full. -/
def FullAgain : Option (Expiring Int BucketHash) × Call policy.capacity → Prop
  | (some cell, .call now _) => cell.expired now = true →
      (policy.capacity : ℚ) ≤
        cell.value.tokens + policy.ratePerMs * ((now - cell.value.updatedAt : Int) : ℚ)
  | _ => True

instance : DecidablePred (FullAgain policy) := fun x => match x with
  | (some cell, .call now _) =>
    inferInstanceAs (Decidable (cell.expired now = true → (policy.capacity : ℚ) ≤
      cell.value.tokens + policy.ratePerMs * ((now - cell.value.updatedAt : Int) : ℚ)))
  | (none, .call _ _) | (some _, .tick _) | (none, .tick _) => inferInstanceAs (Decidable True)

def DroppedFull (events : List (Call policy.capacity)) : Prop :=
  ∀ x ∈ (tokenBucket policy).machine.steps (tokenBucket policy).machine.init events,
    FullAgain policy x

instance (events : List (Call policy.capacity)) : Decidable (DroppedFull policy events) :=
  inferInstanceAs (Decidable (∀ x ∈ (tokenBucket policy).machine.steps
    (tokenBucket policy).machine.init events, FullAgain policy x))

/-- The stored reading is the highest so far, and whatever segment ends here has paid
for what is missing from the bucket. -/
structure Balanced (state : BucketHash) (log : List (Entry policy.capacity)) : Prop where
  tokens_nonneg : 0 ≤ state.tokens
  tokens_le : state.tokens ≤ policy.capacity
  since : ∀ earlier x rest, log = earlier ++ x :: rest →
    state.updatedAt = peak (peak x.now earlier) rest ∧
      ((spent (fun _ => True) (x :: rest) : Int) : ℚ) + state.tokens ≤ policy.capacity +
        policy.ratePerMs * ((state.updatedAt - peak x.now earlier : Int) : ℚ)

def KeepsBalance (cell : Option (Expiring Int BucketHash)) (log : List (Entry policy.capacity)) :
    Prop :=
  match cell with
  | none => log = []
  | some stored => Balanced policy stored.value log
end

variable {policy : TokenBucketPolicy}

/-- A bucket dropped in time is refilled as if it were still there. -/
theorem refillTokens_live {cell : Option (Expiring Int BucketHash)} {now : Int}
    {cost : Cost policy.capacity} (hle : ∀ stored ∈ cell, stored.value.tokens ≤ policy.capacity)
    (hfull : FullAgain policy (cell, .call now cost)) :
    refillTokens policy now (Expiring.live now cell) =
      refillTokens policy now (cell.map Expiring.value) := by
  cases cell with
  | none => rfl
  | some stored =>
    simp only [Expiring.live, Option.map_some]
    by_cases hexpired : stored.expired now = true
    · rw [if_pos hexpired]
      have hcapacity := hfull hexpired
      have htokens := hle stored rfl
      have hpassed : stored.value.updatedAt ≤ now := by
        by_contra hback
        have hneg : ((now - stored.value.updatedAt : Int) : ℚ) < 0 := by
          exact_mod_cast sub_neg.mpr (not_le.mp hback)
        have hrefill := mul_neg_of_pos_of_neg policy.ratePerMs_pos hneg
        linarith
      simp only [refillTokens]
      rw [max_eq_right (sub_nonneg.mpr hpassed), max_eq_left hpassed, sub_self, max_self,
        max_self, Int.cast_zero, zero_mul, add_zero, min_self, mul_comm, min_eq_left hcapacity]
    · rw [if_neg hexpired]

theorem spent_append_all (log rest : List (Entry policy.capacity)) :
    spent (fun _ => True) (log ++ rest) = spent (fun _ => True) log + spent (fun _ => True) rest :=
  tally_append ..

theorem refillTokens_bounds (now : Int) {state : BucketHash} (hnonneg : 0 ≤ state.tokens) :
    (refillTokens policy now (some state)).updatedAt = max now state.updatedAt ∧
      0 ≤ (refillTokens policy now (some state)).tokens ∧
      (refillTokens policy now (some state)).tokens ≤ policy.capacity ∧
      (refillTokens policy now (some state)).tokens ≤ state.tokens +
        policy.ratePerMs * ((max now state.updatedAt - state.updatedAt : Int) : ℚ) := by
  have hrise : max 0 (now - state.updatedAt) = max now state.updatedAt - state.updatedAt := by
    omega
  have hpassed : (0 : ℚ) ≤ ((max now state.updatedAt - state.updatedAt : Int) : ℚ) := by
    exact_mod_cast sub_nonneg.mpr (le_max_right _ _)
  simp only [refillTokens, hrise, mul_comm _ policy.ratePerMs]
  refine ⟨trivial, ?_, min_le_left _ _, min_le_right _ _⟩
  have hincome := mul_nonneg policy.ratePerMs_pos.le hpassed
  exact le_min policy.capacity_nonneg (add_nonneg hnonneg hincome)

theorem takeTokens_bounds (cost : Cost policy.capacity) {tokens : ℚ} (hnonneg : 0 ≤ tokens) :
    0 ≤ (takeTokens policy cost tokens).1 ∧ (takeTokens policy cost tokens).1 ≤ tokens ∧
      ((if (takeTokens policy cost tokens).2.allowed = true then cost.value else 0 : Int) : ℚ) +
        (takeTokens policy cost tokens).1 = tokens := by
  have hcost : (0 : ℚ) ≤ cost.value := by exact_mod_cast cost.nonneg
  rw [takeTokens_tokens]
  by_cases hallowed : (takeTokens policy cost tokens).2.allowed = true
  · have hfits := (takeTokens_allowed policy).mp hallowed
    rw [if_pos hallowed, if_pos hallowed]
    exact ⟨sub_nonneg.mpr hfits, sub_le_self _ hcost, add_sub_cancel _ _⟩
  · rw [if_neg hallowed, if_neg hallowed, sub_zero, Int.cast_zero, zero_add]
    exact ⟨hnonneg, le_refl _, rfl⟩

theorem spent_single (x : Entry policy.capacity) :
    spent (fun _ => True) [x] = if x.reply.allowed = true then x.request.value else 0 := by
  have hconcat := spent_concat (fun _ => True) [] x
  simpa using hconcat

theorem balanced_first (now : Int) (cost : Cost policy.capacity) :
    Balanced policy (tokenBucket policy now cost none).value
      [⟨now, cost, (tokenBucket policy now cost none).reply⟩] := by
  have hrefilled : refillTokens policy now none = ⟨policy.capacity, now⟩ := by
    simp [refillTokens]
  obtain ⟨hnonneg, hle, hpaid⟩ := takeTokens_bounds cost policy.capacity_nonneg
  simp only [tokenBucket, hrefilled]
  refine ⟨hnonneg, hle, ?_⟩
  intro earlier x rest hsplit
  cases earlier with
  | nil =>
    obtain ⟨rfl, rfl⟩ := List.cons.inj hsplit
    refine ⟨rfl, ?_⟩
    rw [spent_single]
    simp only [peak, List.foldl_nil, sub_self, Int.cast_zero, mul_zero, add_zero]
    exact hpaid.le
  | cons first earlier => simp at hsplit

theorem Balanced.call {state : BucketHash} {log : List (Entry policy.capacity)}
    (h : Balanced policy state log) (hlog : log ≠ []) (now : Int) (cost : Cost policy.capacity) :
    Balanced policy (tokenBucket policy now cost (some state)).value
      (log ++ [⟨now, cost, (tokenBucket policy now cost (some state)).reply⟩]) := by
  obtain ⟨hupdated, hnonneg, hle, hrefill⟩ := refillTokens_bounds now h.tokens_nonneg
  obtain ⟨hleft, hleftLe, hpaid⟩ := takeTokens_bounds cost hnonneg
  simp only [tokenBucket]
  rw [hupdated]
  refine ⟨hleft, hleftLe.trans hle, ?_⟩
  intro earlier x rest hsplit
  cases rest using List.reverseRecOn with
  | nil =>
    -- the segment starts with this call
    obtain ⟨rfl, hlast⟩ := List.append_inj' hsplit rfl
    rw [← List.singleton_inj.mp hlast, spent_single]
    have hpeak : peak now log = max now state.updatedAt := by
      obtain ⟨first, others, rfl⟩ := List.exists_cons_of_ne_nil hlog
      rw [(h.since [] first others rfl).1]
      exact peak_split now [] others first
    simp only [peak, List.foldl_nil] at hpeak ⊢
    rw [hpeak, sub_self, Int.cast_zero, mul_zero, add_zero]
    exact ⟨rfl, hpaid.le.trans hle⟩
  | append_singleton rest last =>
    -- it started before: what is paid now leaves the bucket
    rw [← List.cons_append, ← List.append_assoc] at hsplit
    obtain ⟨rfl, hlast⟩ := List.append_inj' hsplit rfl
    obtain ⟨hhighest, hbalance⟩ := h.since earlier x rest rfl
    rw [← List.singleton_inj.mp hlast, ← List.cons_append, spent_append_all, spent_single,
      peak_concat, ← hhighest]
    refine ⟨max_comm _ _, ?_⟩
    have hsum : policy.ratePerMs * ((max now state.updatedAt - peak x.now earlier : Int) : ℚ) =
        policy.ratePerMs * ((state.updatedAt - peak x.now earlier : Int) : ℚ) +
          policy.ratePerMs * ((max now state.updatedAt - state.updatedAt : Int) : ℚ) := by
      push_cast
      ring
    rw [hsum, Int.cast_add]
    linarith

theorem Balanced.segment_le {state : BucketHash} {earlier rest : List (Entry policy.capacity)}
    {x : Entry policy.capacity} (h : Balanced policy state (earlier ++ x :: rest)) :
    ((spent (fun _ => True) (x :: rest) : Int) : ℚ) ≤ policy.capacity +
      policy.ratePerMs * ((peak (peak x.now earlier) rest - peak x.now earlier : Int) : ℚ) := by
  obtain ⟨hhighest, hbalance⟩ := h.since earlier x rest rfl
  rw [← hhighest]
  have hnonneg := h.tokens_nonneg
  linarith

theorem SegmentsBounded.concat {log : List (Entry policy.capacity)} {last : Entry policy.capacity}
    {state : BucketHash} (h : SegmentsBounded policy log)
    (hstate : Balanced policy state (log ++ [last])) : SegmentsBounded policy (log ++ [last]) := by
  intro earlier x rest later hsplit
  cases later using List.reverseRecOn with
  | nil =>
    rw [List.append_nil] at hsplit
    rw [hsplit] at hstate
    exact hstate.segment_le
  | append_singleton later final =>
    rw [← List.append_assoc] at hsplit
    exact h earlier x rest later (List.append_inj' hsplit rfl).1

theorem keepsBalance_call {cell : Option (Expiring Int BucketHash)}
    {log : List (Entry policy.capacity)} {now : Int} {cost : Cost policy.capacity}
    (h : KeepsBalance policy cell log ∧ (cell ≠ none → log ≠ []))
    (hfull : FullAgain policy (cell, .call now cost)) :
    Balanced policy (tokenBucket policy now cost (Expiring.live now cell)).value
      (log ++ [⟨now, cost, (tokenBucket policy now cost (Expiring.live now cell)).reply⟩]) := by
  obtain ⟨hbalance, hlog⟩ := h
  have hle : ∀ stored ∈ cell, stored.value.tokens ≤ policy.capacity := by
    rintro stored rfl
    exact hbalance.tokens_le
  have hwrite : tokenBucket policy now cost (Expiring.live now cell) =
      tokenBucket policy now cost (cell.map Expiring.value) := by
    simp only [tokenBucket, refillTokens_live hle hfull]
  rw [hwrite]
  cases cell with
  | none =>
    have hempty : log = [] := hbalance
    rw [hempty]
    exact balanced_first now cost
  | some stored => exact hbalance.call (hlog (Option.some_ne_none stored)) now cost

theorem keepsBalance {events : List (Call policy.capacity)} (h : DroppedFull policy events) :
    (KeepsBalance policy
        ((tokenBucket policy).machine.after (tokenBucket policy).machine.init events)
        ((tokenBucket policy).machine.emitted (tokenBucket policy).machine.init events) ∧
      ((tokenBucket policy).machine.after (tokenBucket policy).machine.init events ≠ none →
        (tokenBucket policy).machine.emitted (tokenBucket policy).machine.init events ≠ [])) ∧
      SegmentsBounded policy
        ((tokenBucket policy).machine.emitted (tokenBucket policy).machine.init events) := by
  induction events using List.reverseRecOn with
  | nil =>
    refine ⟨⟨rfl, fun hsome => absurd rfl hsome⟩, ?_⟩
    intro earlier x rest later hsplit
    simp at hsplit
  | append_singleton past event ih =>
    have hpast : DroppedFull policy past := by
      intro x hx
      exact h x (by rw [Machine.steps_concat]; exact List.mem_append_left _ hx)
    have hlast : FullAgain policy
        ((tokenBucket policy).machine.after (tokenBucket policy).machine.init past, event) := by
      apply h
      rw [Machine.steps_concat]
      exact List.mem_append_right _ (List.mem_singleton_self _)
    obtain ⟨hkept, hsegments⟩ := ih hpast
    rw [Machine.after_concat, Machine.emitted_concat]
    cases event with
    | tick now =>
      rw [Script.step_tick, List.append_nil]
      refine ⟨?_, hsegments⟩
      generalize (tokenBucket policy).machine.after (tokenBucket policy).machine.init past = cell
        at hkept
      cases cell with
      | none => exact hkept
      | some stored => exact ⟨hkept.1, fun _ => hkept.2 (Option.some_ne_none stored)⟩
    | call now cost =>
      have hcall := keepsBalance_call hkept hlast
      rw [Script.step_call]
      exact ⟨⟨hcall, fun _ => by simp⟩, hsegments.concat hcall⟩

/-- Under any clock at all, while the hash is only dropped once the bucket would be full
again, no segment of a run gets more than the capacity and what the highest reading's
rise has brought. -/
theorem segments_bounded {events : List (Call policy.capacity)} (h : DroppedFull policy events) :
    SegmentsBounded policy
      ((tokenBucket policy).machine.emitted (tokenBucket policy).machine.init events) :=
  (keepsBalance h).2

theorem segments_bounded_refillPolicy :
    SegmentsBounded refillPolicy
      ((tokenBucket refillPolicy).machine.emitted (tokenBucket refillPolicy).machine.init
        [.call 5000 costTwo, .call 4400 costOne, .call 5300 costOne]) :=
  segments_bounded (by decide +kernel)

/-- A step back that lasts until the expiry set during it: the bucket emptied at 5000 ms
is dropped at 2002 ms, though the highest reading has not risen. -/
theorem segments_unbounded :
    ¬ ∀ events, SegmentsBounded refillPolicy
      ((tokenBucket refillPolicy).machine.emitted (tokenBucket refillPolicy).machine.init
        events) := by
  intro h
  have hsegment := h [.call 5000 costTwo, .call 1000 costTwo, .call 2002 costTwo] []
    ⟨5000, costTwo, ⟨true, 0, 0⟩⟩
    [⟨1000, costTwo, ⟨false, 0, 1000⟩⟩, ⟨2002, costTwo, ⟨true, 0, 0⟩⟩] [] (by decide +kernel)
  revert hsegment
  decide +kernel

end DddFramework.RateLimit
