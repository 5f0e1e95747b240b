import Countersign.Proofs.Settings.Policy

/-! The headroom of a gas policy that is made from settings. Rounding it to whole percent does not
take it above a hundred, but it takes a headroom below half a percent to none. -/

namespace Countersign

namespace GasPolicy

variable {p : GasPolicy}

theorem blockClamp_pos (h : 1 ≤ p.headroomPercent) {b : UInt64} (hb : 100 ≤ b) :
    0 < p.blockClamp b := by
  have hmul : 100 * 1 ≤ b.toNat * p.headroomPercent.toNat :=
    Nat.mul_le_mul (UInt64.le_iff_toNat_le.1 hb) (UInt64.le_iff_toNat_le.1 h)
  have hsize : 0 < UInt64.size - 1 := by decide
  rw [UInt64.lt_iff_toNat_lt, toNat_blockClamp, UInt64.toNat_zero]
  omega

theorem blockClamp_eq_zero (h : ¬1 ≤ p.headroomPercent) (b : UInt64) : p.blockClamp b = 0 := by
  have hpercent : p.headroomPercent.toNat = 0 := by
    rw [UInt64.le_iff_toNat_le, UInt64.toNat_one] at h
    omega
  rw [← UInt64.toNat_inj, toNat_blockClamp, hpercent, Nat.mul_zero, Nat.zero_div, Nat.zero_min,
    UInt64.toNat_zero]

end GasPolicy

namespace Settings

open Binary64

variable {s : Settings} {policy : GasPolicy}

/-- The policy of some settings lets no more than the whole block pass. -/
theorem headroomPercent_of_gasPolicy (h : s.gasPolicy = .ok policy) :
    policy.headroomPercent ≤ 100 := by
  obtain ⟨-, -, hpercent, -⟩ := gasPolicy_eq_ok_iff.1 h
  rw [UInt64.le_iff_toNat_le, toNat_headroomPercent hpercent]
  exact (times_hundred_of_headroom (usable_of_gasPolicy h).headroom).2

/-- The least share that comes to a percent is 0.005. -/
theorem parts_percent : Parts ⟨0x3f747ae147ae147a⟩ ⟨0x3f747ae147ae147b⟩ 100 1 :=
  ⟨by decide +kernel, by decide +kernel, by decide +kernel, by decide +kernel, by decide +kernel⟩

theorem one_le_headroomPercent_iff (h : s.gasPolicy = .ok policy) :
    1 ≤ policy.headroomPercent ↔ 1 / 200 ≤ (s.number .headroom).value := by
  obtain ⟨-, -, hpercent, -⟩ := gasPolicy_eq_ok_iff.1 h
  have hpos := (usable_of_gasPolicy h).headroom.1
  have hround := parts_percent.le_roundHalfUp_times_iff (s.number .headroom)
  rw [UInt64.le_iff_toNat_le, toNat_headroomPercent hpercent, UInt64.toNat_one, hround,
    abs_of_pos hpos, round_eq, Int.le_floor]
  push_cast
  constructor <;> intro h <;> linarith

/-- A headroom of 0.005 or more keeps some of every block limit of 100 or more, and one below it,
though above zero, keeps nothing of any. -/
theorem blockClamp_of_gasPolicy (h : s.gasPolicy = .ok policy) :
    policy.headroomPercent ≤ 100 ∧ (∀ b, policy.blockClamp b ≤ b) ∧
      (1 ≤ policy.headroomPercent ↔ 1 / 200 ≤ (s.number .headroom).value) ∧
      ((∀ b, 100 ≤ b → 0 < policy.blockClamp b) ↔ 1 / 200 ≤ (s.number .headroom).value) ∧
      ((∀ b, policy.blockClamp b = 0) ↔ (s.number .headroom).value < 1 / 200) := by
  have hle := headroomPercent_of_gasPolicy h
  have hone := one_le_headroomPercent_iff h
  have hkept : 1 ≤ policy.headroomPercent → ∀ b, 100 ≤ b → 0 < policy.blockClamp b :=
    fun hpercent _ => GasPolicy.blockClamp_pos hpercent
  have hnone : ¬1 ≤ policy.headroomPercent → ∀ b, policy.blockClamp b = 0 :=
    GasPolicy.blockClamp_eq_zero
  have hnot : ¬((∀ b, 100 ≤ b → 0 < policy.blockClamp b) ∧ ∀ b, policy.blockClamp b = 0) :=
    fun ⟨hpos, hzero⟩ => absurd (hzero 100 ▸ hpos 100 (by decide)) (by decide)
  refine ⟨hle, GasPolicy.blockClamp_le hle, hone, ?_, ?_⟩
  · rw [← hone]
    exact ⟨fun hpos => by_contra fun hpercent => hnot ⟨hpos, hnone hpercent⟩, hkept⟩
  · rw [← not_le, ← hone]
    exact ⟨fun hzero hpercent => hnot ⟨hkept hpercent, hzero⟩, hnone⟩

theorem blockClamp_of_gasPolicy_standard : ∃ policy, standard.gasPolicy = .ok policy ∧
    ∀ b, 100 ≤ b → 0 < policy.blockClamp b := by
  have h : standard.gasPolicy = .ok .standard := by decide +kernel
  obtain ⟨-, -, hpercent, hpos, -⟩ := blockClamp_of_gasPolicy h
  exact ⟨_, h, hpos.2 (hpercent.1 (by decide))⟩

/-- A headroom of 0.004 is taken, and leaves nothing of the block. -/
theorem blockClamp_of_small_headroom :
    ({ standard with headroom := some ⟨0x3f70624dd2f1a9fc⟩ } : Settings).gasPolicy =
        .ok { GasPolicy.standard with headroomPercent := 0 } ∧
      ({ GasPolicy.standard with headroomPercent := 0 } : GasPolicy).blockClamp 30000000 = 0 := by
  decide +kernel

end Settings

end Countersign
