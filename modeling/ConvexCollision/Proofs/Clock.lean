import Mathlib.Tactic.ByContra
import ConvexCollision.Clock
import ConvexCollision.Proofs.Except

/-!
# ConvexCollision.Proofs.Clock -- what a clock gives out and what it keeps

Time that comes in with a frame is given out in whole steps or kept for the next frame, and what is kept
is shorter than a step. Only when more steps are due than a frame gets is the rest dropped. `Conserves`
is this rule, told by the exact quotient of the time gathered and the length of a step.

The clock counts the steps that are due in 32 bits. A count that does not fit is cut, and what is left of
it may pass for a few steps: then nothing is dropped and a backlog of four thousand million steps stays
where it was (`longFrame_keeps_backlog`). `Run.update_conserves_iff` says that this is the only way in
which an update breaks the rule, in every run and for every length of a step.
-/

namespace ConvexCollision.Clock

/-! ## §A One update -/

/-- A clock before its first frame. -/
def ofRate (rate : Duration) : Clock := ⟨Duration.zero, 0, 0, rate, 1⟩

/-- What a clock is to do with a total of so many nanoseconds when a step has `rate` of them: less than a
step is kept. A few steps are all given out, so that nothing is lost; of many, a frame gets what it may and
the rest is dropped. -/
structure Conserves (rate total : Nat) (c : Clock) : Prop where
  /-- Less than a step is kept. -/
  kept_lt : c.accumulated.nanos < rate
  /-- What is not given out in steps is kept. -/
  few : total / rate ≤ maxSteps → total = c.steps * rate + c.accumulated.nanos
  /-- What is due beyond the steps of a frame is dropped. -/
  many : maxSteps < total / rate → c.steps = maxSteps ∧ c.accumulated.nanos = 0

/-- The count of steps that are due fits 32 bits, or still shows as too many when it is cut to them. -/
def Counted (rate total : Nat) : Prop :=
  total / rate < UInt32.size ∨ maxSteps < total / rate % UInt32.size

instance (rate total : Nat) : Decidable (Counted rate total) :=
  inferInstanceAs (Decidable (_ ∨ _))

/-- What an update makes of a total, by the steps that the cut count shows. -/
structure Gives (rate total : Nat) (c : Clock) : Prop where
  /-- Too many steps, and the rest is dropped. -/
  capped : maxSteps < total / rate % UInt32.size → c.steps = maxSteps ∧ c.accumulated.nanos = 0
  /-- Few steps, and the rest is kept. -/
  spent : total / rate % UInt32.size ≤ maxSteps → c.steps = total / rate % UInt32.size ∧
    total = c.steps * rate + c.accumulated.nanos

variable {c : Clock} {rate total : Nat}

/-- No more time is given out than was gathered. -/
theorem cut_mul_le (rate total : Nat) : total / rate % UInt32.size * rate ≤ total :=
  Nat.le_trans (Nat.mul_le_mul_right rate (Nat.mod_le _ _)) (Nat.div_mul_le_self total rate)

/-- An update whose total can be held comes to its end, whatever the total. -/
theorem advance_gives (c : Clock) (delta dilated : Duration) (hrate : 0 < c.rate.nanos)
    (hfits : c.accumulated.nanos + dilated.nanos < durationLimit) :
    ∃ (c' : Clock) (backlog : Option Backlog), c.advance delta dilated = .ok (c', backlog) ∧
      c'.rate = c.rate ∧ Gives c.rate.nanos (c.accumulated.nanos + dilated.nanos) c' := by
  have htotal : c.accumulated.add dilated = .ok ⟨_, hfits⟩ := dif_pos hfits
  unfold advance
  rw [htotal]
  simp only [bind, Except.bind, if_neg (Nat.ne_of_gt hrate)]
  by_cases hmany : maxSteps < stepsIn ⟨_, hfits⟩ c.rate
  · rw [if_pos hmany]
    exact ⟨_, _, rfl, rfl, fun _ => ⟨rfl, rfl⟩, fun hfew => absurd hmany (Nat.not_lt.mpr hfew)⟩
  · rw [if_neg hmany]
    refine ⟨_, _, rfl, rfl, fun hcapped => absurd hcapped hmany, fun _ => ⟨rfl, ?_⟩⟩
    have hle := cut_mul_le c.rate.nanos (c.accumulated.nanos + dilated.nanos)
    exact (Nat.add_sub_of_le hle).symm

namespace Gives

/-- A frame gets no more steps than it may. -/
theorem steps_le (h : Gives rate total c) : c.steps ≤ maxSteps := by
  rcases Nat.lt_or_ge maxSteps (total / rate % UInt32.size) with hmany | hfew
  · exact Nat.le_of_eq (h.capped hmany).1
  · rw [(h.spent hfew).1]
    exact hfew

/-- A count that fits is not cut, so that what it leaves is the remainder. -/
theorem conserves (h : Gives rate total c) (hrate : 0 < rate) (hcounted : Counted rate total) :
    Conserves rate total c := by
  rcases Nat.lt_or_ge maxSteps (total / rate % UInt32.size) with hmany | hfew
  · obtain ⟨hsteps, hkept⟩ := h.capped hmany
    refine ⟨by omega, fun hfew => ?_, fun _ => ⟨hsteps, hkept⟩⟩
    exact absurd (Nat.lt_of_lt_of_le hmany (Nat.mod_le _ _)) (Nat.not_lt.mpr hfew)
  · have hfits : total / rate < UInt32.size := hcounted.resolve_right (Nat.not_lt.mpr hfew)
    rw [Nat.mod_eq_of_lt hfits] at hfew
    obtain ⟨hsteps, hspent⟩ := h.spent (by rwa [Nat.mod_eq_of_lt hfits])
    rw [Nat.mod_eq_of_lt hfits] at hsteps
    refine ⟨?_, fun _ => hspent, fun hmany => absurd hmany (Nat.not_lt.mpr hfew)⟩
    have hnext : total < (total / rate + 1) * rate := Nat.lt_mul_of_div_lt (Nat.lt_succ_self _) hrate
    rw [hsteps] at hspent
    rw [Nat.succ_mul] at hnext
    omega

/-- A count that was cut to a few steps leaves many of them behind. -/
theorem counted_of_conserves (h : Gives rate total c) (g : Conserves rate total c) :
    Counted rate total := by
  by_contra hcut
  obtain ⟨hbig, hfew⟩ := not_or.mp hcut
  have hmany : maxSteps < total / rate :=
    Nat.lt_of_lt_of_le (show maxSteps < UInt32.size by decide) (Nat.not_lt.mp hbig)
  -- all of the total would have been given out, in fewer steps than it holds
  obtain ⟨hsteps, hspent⟩ := h.spent (Nat.not_lt.mp hfew)
  obtain ⟨hfour, hkept⟩ := g.many hmany
  rw [hfour, hkept, Nat.add_zero] at hspent
  have hheld := Nat.div_mul_le_self total rate
  have hpos : 0 < rate := Nat.pos_of_ne_zero fun hzero => by simp [hzero] at hmany
  exact absurd (Nat.mul_lt_mul_of_pos_right hmany hpos) (Nat.not_lt.mpr (hspent ▸ hheld))

end Gives

/-! ## §B Runs -/

/-- The clock comes about in a run of updates, between which the dilation may be set. -/
inductive Run (rate : Duration) : Clock → Prop
  /-- Before the first frame. -/
  | start : Run rate (ofRate rate)
  /-- Time passes faster or slower from now on. -/
  | dilate {c : Clock} (before : Run rate c) (dilation : Float) : Run rate { c with dilation }
  /-- A frame comes to its end. -/
  | update {c c' : Clock} {delta : Duration} {backlog : Option Backlog} (before : Run rate c)
      (ends : c.update delta = .ok (c', backlog)) : Run rate c'

theorem rate_of_advance {c c' : Clock} {delta dilated : Duration} {backlog : Option Backlog}
    (h : c.advance delta dilated = .ok (c', backlog)) : c'.rate = c.rate := by
  obtain ⟨total, -, h⟩ := bind_eq_ok_iff.mp h
  split at h
  · cases h
  · simp only at h
    split at h <;> cases h <;> rfl

theorem Run.rate_eq {rate : Duration} {c : Clock} (h : Run rate c) : c.rate = rate := by
  induction h with
  | start => rfl
  | dilate _ _ ih => exact ih
  | update _ ends ih =>
    obtain ⟨dilated, -, hadvance⟩ := bind_eq_ok_iff.mp ends
    exact (rate_of_advance hadvance).trans ih

/-- **What an update does with time.** In every run with steps of a nanosecond or more, a frame whose
time, as it passes for the clock, can be held together with what was kept comes to its end, and gets no more
steps than it may. The clock then gives out and keeps what it is to, exactly when the count of steps that are due fits 32 bits or is
still too large when it is cut to them. Otherwise the cut count is given out and all the rest is kept, a
step or more of it. -/
theorem Run.update_conserves_iff {rate : Duration} {c : Clock} (h : Run rate c)
    (hrate : 0 < rate.nanos) {delta dilated : Duration} (hdilated : delta.mul c.dilation = .ok dilated)
    (hfits : c.accumulated.nanos + dilated.nanos < durationLimit) :
    ∃ (c' : Clock) (backlog : Option Backlog), c.update delta = .ok (c', backlog) ∧ Run rate c' ∧
      c'.steps ≤ maxSteps ∧
      let total := c.accumulated.nanos + dilated.nanos
      (Conserves rate.nanos total c' ↔ Counted rate.nanos total) ∧
      (¬ Counted rate.nanos total → c'.steps = total / rate.nanos % UInt32.size ∧
        total = c'.steps * rate.nanos + c'.accumulated.nanos ∧ rate.nanos ≤ c'.accumulated.nanos) := by
  have hsame := h.rate_eq
  obtain ⟨c', backlog, hadvance, -, hgives⟩ :=
    advance_gives c delta dilated (by rwa [hsame]) hfits
  have hupdate : c.update delta = .ok (c', backlog) := by
    unfold Clock.update
    rw [hdilated]
    exact hadvance
  rw [hsame] at hgives
  refine ⟨c', backlog, hupdate, .update h hupdate, hgives.steps_le,
    ⟨hgives.counted_of_conserves, hgives.conserves hrate⟩, fun hcut => ?_⟩
  obtain ⟨hsteps, hspent⟩ := hgives.spent (Nat.not_lt.mp (not_or.mp hcut).2)
  refine ⟨hsteps, hspent, Nat.not_lt.mp fun hlt => hcut (hgives.counted_of_conserves ?_)⟩
  -- less than a step left means that the quotient was given out, and none of it was cut
  have hquotient : (c.accumulated.nanos + dilated.nanos) / rate.nanos = c'.steps := by
    rw [hspent, Nat.add_comm, Nat.add_mul_div_right _ _ hrate, Nat.div_eq_of_lt hlt, Nat.zero_add]
  refine ⟨hlt, fun _ => hspent, fun hmany => ?_⟩
  rw [hquotient] at hmany
  exact absurd hgives.steps_le (Nat.not_le.mpr hmany)

/-- Half a second. -/
def halfSecond : Duration := ⟨500000000, by decide⟩

/-- A frame of 1.3 seconds is given out in two steps of half a second, and 0.3 seconds are kept. -/
theorem twoSteps_conserves :
    ∃ (c' : Clock) (backlog : Option Backlog),
      (ofRate halfSecond).update ⟨1300000000, by decide⟩ = .ok (c', backlog) ∧ Run halfSecond c' ∧
      (Conserves halfSecond.nanos 1300000000 c' ∧ Counted halfSecond.nanos 1300000000) ∧
      c'.steps = 2 ∧ c'.accumulated.nanos = 300000000 := by
  have hstart : Run halfSecond (ofRate halfSecond) := .start
  have hdilated : Duration.mul ⟨1300000000, by decide⟩ (ofRate halfSecond).dilation =
      .ok ⟨1300000000, by decide⟩ := eq_ok_of_toOption (by decide +kernel)
  obtain ⟨c', backlog, hupdate, hrun, -, hiff, -⟩ :=
    Run.update_conserves_iff hstart (by decide) hdilated (by decide)
  have hcounted : Counted halfSecond.nanos 1300000000 := by decide
  have hconserves : Conserves halfSecond.nanos 1300000000 c' := hiff.mpr hcounted
  have hsteps := hconserves.few (by decide)
  have hkept := hconserves.kept_lt
  refine ⟨c', backlog, hupdate, hrun, ⟨hconserves, hcounted⟩, ?_⟩
  simp only [halfSecond] at hsteps hkept
  omega

/-- A nanosecond. -/
def nanosecond : Duration := ⟨1, by decide⟩

/-- With steps of a nanosecond, a frame of 2³² of them counts as a frame without any: no step is given
out, and all of its time is kept. -/
theorem longFrame_keeps_backlog :
    ∃ (c' : Clock) (backlog : Option Backlog),
      (ofRate nanosecond).update ⟨4294967296, by decide⟩ = .ok (c', backlog) ∧
      c'.steps = 0 ∧ c'.accumulated.nanos = 4294967296 ∧
      ¬ Conserves nanosecond.nanos 4294967296 c' := by
  have hupdate : ((ofRate nanosecond).update ⟨4294967296, by decide⟩).toOption.map (fun r =>
      (r.1.steps, r.1.accumulated.nanos)) = some (0, 4294967296) := by
    decide +kernel
  obtain ⟨⟨c', backlog⟩, hok, hvalues⟩ := Option.map_eq_some_iff.mp hupdate
  obtain ⟨hsteps, hkept⟩ := Prod.mk.inj hvalues
  refine ⟨c', backlog, eq_ok_of_toOption hok, hsteps, hkept, fun hconserves => ?_⟩
  have hmany := (hconserves.many (by decide)).1
  rw [hsteps] at hmany
  exact absurd hmany (by decide)

end ConvexCollision.Clock
