import FrankenSnowflake.Foundation.Fallible
import Mathlib.Order.MinMax

/-!
# The credit cap of a statement

A cap in millionths of a credit becomes a bound on the time of execution: the
driver cancels past the bound and reports the estimate of the time spent.  The
bound rounds down to a millisecond and the estimate to a millionth, and a
statement that resumes its warehouse is billed for a minute at least.
-/

namespace FrankenSnowflake.SqlApi

open Foundation

/-- In nanoseconds. -/
abbrev Duration : Type := Nat

def Duration.fromMillis (millis : UInt64) : Duration := millis.toNat * 1000000

def Duration.asMillis (d : Duration) : Nat := d / 1000000

def RESUME_BILLING_MINIMUM : Duration := Duration.fromMillis 60000

/-- The panic of an operation on `u128`. -/
inductive Overflow where
  | u128
deriving DecidableEq, Repr

def mulU128 (a b : Nat) : Except Overflow Nat :=
  if a * b < 2 ^ 128 then .ok (a * b) else .error .u128

/-- `u64::try_from(n).unwrap_or(u64::MAX)`. -/
def toU64OrMax (n : Nat) : UInt64 := .ofNat (min n (2 ^ 64 - 1))

structure CostQuota where
  microcreditsPerHour : UInt64
  maxMicrocredits : UInt64
  resumesWarehouse : Bool
deriving DecidableEq, Repr

namespace CostQuota

/-- No bound for a zero rate. -/
def timeBound (q : CostQuota) : Except Overflow (Option Duration) :=
  if q.microcreditsPerHour = 0 then .ok none
  else do
    let scaled ← mulU128 q.maxMicrocredits.toNat 3600000
    let millis := scaled / q.microcreditsPerHour.toNat
    return some (.fromMillis (toU64OrMax millis))

def estimate (q : CostQuota) (execution : Duration) : Except Overflow UInt64 := do
  let billed := if q.resumesWarehouse then max execution RESUME_BILLING_MINIMUM else execution
  let scaled ← mulU128 q.microcreditsPerHour.toNat billed.asMillis
  return toU64OrMax (scaled / 3600000)

def belowResumeMinimum (q : CostQuota) : Except Overflow Bool :=
  if q.resumesWarehouse then do
    let estimate ← q.estimate 0
    return q.maxMicrocredits < estimate
  else .ok false

end CostQuota

/-! ## Roundings -/

@[simp] theorem Duration.asMillis_fromMillis (millis : UInt64) :
    (Duration.fromMillis millis).asMillis = millis.toNat :=
  Nat.mul_div_cancel _ (by decide)

theorem Duration.fromMillis_le_iff {a b : UInt64} :
    Duration.fromMillis a ≤ Duration.fromMillis b ↔ a.toNat ≤ b.toNat :=
  Nat.mul_le_mul_right_iff (by decide)

theorem Duration.asMillis_max (a b : Duration) :
    Duration.asMillis (max a b) = max a.asMillis b.asMillis := by
  have hmono : Monotone Duration.asMillis := fun _ _ h ↦ Nat.div_le_div_right h
  exact Monotone.map_max hmono

theorem toNat_toU64OrMax (n : Nat) : (toU64OrMax n).toNat = min n (2 ^ 64 - 1) :=
  Nat.mod_eq_of_lt (Nat.lt_of_le_of_lt (Nat.min_le_right _ _) (by decide))

/-- The saturating conversion keeps every bound that a `u64` can be. -/
theorem toU64OrMax_le_iff {n : Nat} {m : UInt64} :
    toU64OrMax n ≤ m ↔ n ≤ m.toNat ∨ m.toNat = 2 ^ 64 - 1 := by
  have hm := m.toNat_lt
  rw [UInt64.le_iff_toNat_le, toNat_toU64OrMax]
  omega

theorem mulU128_eq {a b : Nat} (ha : a < 2 ^ 64) (hb : b < 2 ^ 64) : mulU128 a b = .ok (a * b) :=
  if_pos (Nat.mul_lt_mul'' ha hb)

namespace CostQuota

variable (q : CostQuota)

/-- The milliseconds that an execution is billed for. -/
def billedMillis (millis : Nat) : Nat := if q.resumesWarehouse then max millis 60000 else millis

theorem estimate_fromMillis (t : UInt64) :
    q.estimate (.fromMillis t) =
      .ok (toU64OrMax (q.microcreditsPerHour.toNat * q.billedMillis t.toNat / 3600000)) := by
  have hbilled : Duration.asMillis (if q.resumesWarehouse then
      max (Duration.fromMillis t) RESUME_BILLING_MINIMUM else .fromMillis t) =
        q.billedMillis t.toNat := by
    unfold billedMillis
    split_ifs
    · rw [Duration.asMillis_max, RESUME_BILLING_MINIMUM, Duration.asMillis_fromMillis,
        Duration.asMillis_fromMillis]
      rfl
    · exact Duration.asMillis_fromMillis t
  have hlt : q.billedMillis t.toNat < 2 ^ 64 := by
    have := t.toNat_lt
    unfold billedMillis
    split_ifs <;> omega
  rw [estimate, hbilled, mulU128_eq q.microcreditsPerHour.toNat_lt hlt, ok_bind]
  rfl

theorem timeBound_eq (h : q.microcreditsPerHour ≠ 0) :
    q.timeBound = .ok (some (.fromMillis
      (toU64OrMax (q.maxMicrocredits.toNat * 3600000 / q.microcreditsPerHour.toNat)))) := by
  rw [timeBound, if_neg h, mulU128_eq q.maxMicrocredits.toNat_lt (by decide), ok_bind]
  rfl

/-- A cap that is not below the resume minimum pays for the minute of a resume. -/
theorem resume_le_max (h : q.belowResumeMinimum = .ok false) (hresumes : q.resumesWarehouse) :
    toU64OrMax (q.microcreditsPerHour.toNat * 60000 / 3600000) ≤ q.maxMicrocredits := by
  have hzero := q.estimate_fromMillis 0
  have hbilled : q.billedMillis (0 : UInt64).toNat = 60000 := if_pos hresumes
  rw [hbilled] at hzero
  rw [belowResumeMinimum, if_pos hresumes, show (0 : Duration) = .fromMillis 0 from rfl, hzero,
    ok_bind] at h
  exact UInt64.not_lt.mp (of_decide_eq_false (Except.ok.inj h))

/-- The conversion of the bound to milliseconds in `u64` saturates. -/
def Saturates : Prop :=
  2 ^ 64 ≤ q.maxMicrocredits.toNat * 3600000 / q.microcreditsPerHour.toNat

/-- Within the time bound the estimate keeps to the cap, and past it the rate has
used the cap up. -/
theorem timeBound_agrees_estimate (q : CostQuota) (hrate : q.microcreditsPerHour ≠ 0)
    (hresume : q.belowResumeMinimum = .ok false) (t : UInt64) :
    ∃ bound estimate, q.timeBound = .ok (some bound) ∧ q.estimate (.fromMillis t) = .ok estimate ∧
      (Duration.fromMillis t ≤ bound → estimate ≤ q.maxMicrocredits) ∧
      (¬ q.Saturates → bound < Duration.fromMillis t →
        q.maxMicrocredits.toNat * 3600000 < q.microcreditsPerHour.toNat * t.toNat) := by
  refine ⟨_, _, q.timeBound_eq hrate, q.estimate_fromMillis t, ?_, ?_⟩
  · intro hle
    rw [Duration.fromMillis_le_iff, toNat_toU64OrMax] at hle
    have hspent : q.microcreditsPerHour.toNat * t.toNat / 3600000 ≤ q.maxMicrocredits.toNat := by
      have hmul := Nat.mul_le_of_le_div _ _ _ (Nat.le_trans hle (Nat.min_le_left _ _))
      apply Nat.div_le_of_le_mul
      rwa [Nat.mul_comm, Nat.mul_comm 3600000]
    unfold billedMillis
    split_ifs with hresumes
    · rcases Nat.le_total t.toNat 60000 with hshort | hlong
      · rw [Nat.max_eq_right hshort]
        exact q.resume_le_max hresume hresumes
      · rw [Nat.max_eq_left hlong]
        exact toU64OrMax_le_iff.mpr (.inl hspent)
    · exact toU64OrMax_le_iff.mpr (.inl hspent)
  · intro hsaturates hlt
    have hpos : 0 < q.microcreditsPerHour.toNat :=
      Nat.pos_of_ne_zero fun h ↦ hrate (UInt64.toNat_inj.mp h)
    have hbound := Nat.lt_of_not_le fun h ↦ Nat.not_le.mpr hlt (Duration.fromMillis_le_iff.mpr h)
    rw [toNat_toU64OrMax, Nat.min_eq_left (by unfold Saturates at hsaturates; omega),
      Nat.div_lt_iff_lt_mul hpos] at hbound
    rwa [Nat.mul_comm q.microcreditsPerHour.toNat]

/-- The cap of 20000 millionths at a credit an hour pays for the minute of a
resume and bounds the time by 72 seconds. -/
theorem timeBound_agrees_estimate_resume :
    ∃ bound estimate, (⟨1000000, 20000, true⟩ : CostQuota).timeBound = .ok (some bound) ∧
      (⟨1000000, 20000, true⟩ : CostQuota).estimate (.fromMillis 72000) = .ok estimate ∧
      (Duration.fromMillis 72000 ≤ bound → estimate ≤ 20000) ∧
      (¬ (⟨1000000, 20000, true⟩ : CostQuota).Saturates → bound < Duration.fromMillis 72000 →
        (20000 : UInt64).toNat * 3600000 < (1000000 : UInt64).toNat * (72000 : UInt64).toNat) :=
  timeBound_agrees_estimate ⟨1000000, 20000, true⟩ (by decide) (by decide +kernel) 72000

end CostQuota

end FrankenSnowflake.SqlApi
