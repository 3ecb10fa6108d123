import Cameo.Placement.Fleet

/-!
# Byte arithmetic

The planner and the mesh scheduler add and multiply byte counts with saturation, the fleet and the
router with plain `u64` operators.  The planner subtracts the VRAM in use from what it may use and
adds the host memory an APU reaches through GTT; the fleet and the routers take the VRAM of the
cards as it stands on the box.
-/

namespace Cameo.Placement

/-! ## The headroom -/

/-- The headroom is between one half and 91 hundredths. -/
theorem vramHeadroom_eq : ∃ units, vramHeadroom = .finite false units ∧
    f64Unit ≤ 2 * units ∧ 100 * units ≤ 91 * f64Unit := by
  obtain ⟨units, hunits, hlow, hhigh⟩ := @FloatValue.eq_finite_of_le _ vramHeadroom (f64Unit / 2)
    (91 * f64Unit / 100) (by decide +kernel) (by decide +kernel) (by decide +kernel)
  have heven : f64Unit % 2 = 0 := by decide +kernel
  exact ⟨units, hunits, by omega, by omega⟩

/-- The largest `u64` is rounded up. -/
theorem ofNat_u64Max_eq : ∃ units, (.ofNat u64Max : F64) = .finite false units ∧
    u64Max * f64Unit ≤ units := by
  obtain ⟨units, hunits, hlow, -⟩ := @FloatValue.eq_finite_of_le _ (.ofNat u64Max : F64)
    (u64Max * f64Unit) ((u64Max + 1) * f64Unit) (by decide +kernel) (by decide +kernel)
    (by decide +kernel)
  exact ⟨units, hunits, hlow⟩

/-- The headroom of any `u64` is finite, less than the largest `u64`, and not zero from a MiB
on. -/
theorem headroom_bounds {n : ℕ} (h : n ≤ u64Max) :
    ∃ units, (.ofNat n * vramHeadroom : F64) = .finite false units ∧
      units / f64Unit < u64Max ∧ (1048576 ≤ n → 0 < units / f64Unit) := by
  have hpos := f64Unit_pos
  have hmax : n ≤ 18446744073709551615 := h
  obtain ⟨factor, hfactor, hfactorLow, hfactorHigh⟩ := vramHeadroom_eq
  obtain ⟨total, htotal, htotalLow, htotalHigh⟩ := @FloatValue.round_of_u64 ⟨53, 1074, 1024⟩ false
    (n * f64Unit) 1 rfl (by decide) (by
      rw [Nat.div_one, ← f64Unit]
      exact Nat.mul_lt_mul_of_pos_right (by omega) hpos)
  rw [← f64Unit] at htotalLow htotalHigh
  rw [Nat.div_one] at htotalLow htotalHigh
  have hproduct : (.ofNat n * vramHeadroom : F64) = .round false (total * factor) f64Unit := by
    rw [FloatValue.ofNat_eq_round, ← f64Unit, htotal, hfactor, FloatValue.finite_mul_finite,
      bne_self_eq_false, f64Unit]
  have hquotientHigh : total * factor / f64Unit ≤ (n + 2048) * factor := by
    apply Nat.div_le_of_le_mul
    calc total * factor ≤ (n * f64Unit + 2048 * f64Unit) * factor :=
          Nat.mul_le_mul_right factor htotalHigh
      _ = f64Unit * ((n + 2048) * factor) := by ring
  have hquotientLow : (n - 2048) * factor ≤ total * factor / f64Unit := by
    rw [Nat.le_div_iff_mul_le hpos]
    calc (n - 2048) * factor * f64Unit = (n * f64Unit - 2048 * f64Unit) * factor := by
          rw [← Nat.sub_mul]
          ring
      _ ≤ total * factor := Nat.mul_le_mul_right factor (by omega)
  have hmost : (n + 2048) * factor ≤ 18446744073709553663 * factor :=
    Nat.mul_le_mul_right factor (by omega)
  obtain ⟨units, hunits, hlow, hhigh⟩ := @FloatValue.round_of_u64 ⟨53, 1074, 1024⟩ false
    (total * factor) f64Unit rfl (by decide) (by
      rw [← f64Unit]
      omega)
  rw [← f64Unit] at hlow hhigh
  refine ⟨units, hproduct.trans hunits, ?_, ?_⟩
  · rw [Nat.div_lt_iff_lt_mul hpos, u64Max]
    omega
  · intro hmib
    have hleast : 1046528 * factor ≤ (n - 2048) * factor := Nat.mul_le_mul_right factor (by omega)
    exact Nat.div_pos (by omega) hpos

/-- The planner's scaling is the cast that the fleet makes, and stays below the largest `u64`. -/
theorem scale_vramHeadroom {n : ℕ} (h : n ≤ u64Max) :
    scale n vramHeadroom = (.ofNat n * vramHeadroom : F64).toUnsigned u64Max ∧
      scale n vramHeadroom < u64Max ∧ (1048576 ≤ n → 0 < scale n vramHeadroom) := by
  obtain ⟨units, hunits, hbelow, habove⟩ := headroom_bounds h
  obtain ⟨top, htop, hlarge⟩ := ofNat_u64Max_eq
  have hcast : (.finite false units : F64).toUnsigned u64Max = units / f64Unit :=
    min_eq_left hbelow.le
  have hscale : scale n vramHeadroom = units / f64Unit := by
    have hnotMax : FloatValue.le (.finite false top : F64) (.finite false units) = false := by
      have hlt : units < u64Max * f64Unit := (Nat.div_lt_iff_lt_mul f64Unit_pos).mp hbelow
      rw [FloatValue.le, decide_eq_false_iff_not]
      simp only [FloatValue.signed, Bool.false_eq_true, if_false, Nat.cast_le]
      omega
    unfold scale
    dsimp only
    rw [hunits, htop, hcast, hnotMax]
    split
    · rename_i hzero
      have hnone : units = 0 := by
        simpa [FloatValue.isFinite, FloatValue.le, FloatValue.zero, FloatValue.signed] using hzero
      rw [hnone, Nat.zero_div]
    · rfl
  rw [hscale, hunits, hcast]
  exact ⟨rfl, hbelow, habove⟩

/-! ## Sums of sizes -/

def mibSum (sizes : List ℕ) : ℕ := (sizes.map (· * 1048576)).sum

theorem mibSum_cons (mb : ℕ) (rest : List ℕ) : mibSum (mb :: rest) = mb * 1048576 + mibSum rest :=
  List.sum_cons

def vramSum (topo : Topology) : ℕ := mibSum (topo.gpus.filterMap GpuInfo.vramMb)

/-- The VRAM that the GPUs of a topology report to be in use. -/
def usedSum (topo : Topology) : ℕ := mibSum (topo.gpus.filterMap GpuInfo.vramUsedMb)

/-- The host memory that the APUs of a topology reach through GTT. -/
def gttSum (topo : Topology) : ℕ :=
  match topo.hostMem with
  | none => 0
  | some host =>
    min (mibSum ((topo.gpus.filter fun gpu ↦ gpu.memory.isSharedWithHost).filterMap GpuInfo.gttMb))
      (scale host.availableBytes hostHeadroom)

/-- A saturating sum of sizes. -/
theorem foldl_saturatingAdd_mibBytes (sizes : List ℕ) {start : ℕ} (h : start ≤ u64Max) :
    (sizes.map mibBytes).foldl saturatingAdd start = min (start + mibSum sizes) u64Max := by
  induction sizes generalizing start with
  | nil => simp [mibSum, h]
  | cons mb rest ih =>
    have hbound : saturatingAdd start (mibBytes mb) ≤ u64Max := min_le_right _ _
    rw [List.map_cons, List.foldl_cons, ih hbound, mibSum_cons, saturatingAdd, mibBytes,
      saturatingMul]
    omega

theorem sumBytes_mibBytes (sizes : List ℕ) :
    sumBytes (sizes.map mibBytes) = min (mibSum sizes) u64Max := by
  rw [sumBytes, foldl_saturatingAdd_mibBytes sizes (Nat.zero_le _), Nat.zero_add]

theorem vramBytes_of (topo : Topology) :
    (MemoryBudget.of topo).vramBytes = scale (min (vramSum topo) u64Max) vramHeadroom := by
  have hbytes : topo.gpus.filterMap GpuInfo.vramBytes =
      (topo.gpus.filterMap GpuInfo.vramMb).map mibBytes :=
    (List.map_filterMap).symm
  rw [MemoryBudget.of, hbytes, sumBytes_mibBytes, vramSum]

theorem vramUsedBytes_of (topo : Topology) :
    (MemoryBudget.of topo).vramUsedBytes = min (usedSum topo) u64Max := by
  rw [MemoryBudget.of, sumBytes_mibBytes, usedSum]

theorem scale_le (bytes : ℕ) (factor : F64) : scale bytes factor ≤ u64Max := by
  unfold scale
  dsimp only
  split
  · exact Nat.zero_le _
  · split
    · exact le_rfl
    · exact FloatValue.toUnsigned_le _ _

theorem gttReachableBytes_of (topo : Topology) :
    (MemoryBudget.of topo).gttReachableBytes = gttSum topo := by
  have hbytes (gpus : List GpuInfo) : gpus.filterMap GpuInfo.gttBytes =
      (gpus.filterMap GpuInfo.gttMb).map mibBytes :=
    (List.map_filterMap).symm
  have hnone (hshared : (topo.gpus.any fun gpu ↦ gpu.memory.isSharedWithHost) = false) :
      topo.gpus.filter (fun gpu ↦ gpu.memory.isSharedWithHost) = [] := by
    simpa [List.filter_eq_nil_iff] using hshared
  unfold MemoryBudget.of gttSum
  dsimp only
  rw [hbytes, sumBytes_mibBytes]
  cases topo.hostMem with
  | none => simp
  | some host =>
    have hhost := scale_le host.availableBytes hostHeadroom
    cases hshared : topo.gpus.any fun gpu ↦ gpu.memory.isSharedWithHost with
    | true =>
      simp only [if_true, Option.map_some]
      omega
    | false =>
      rw [hnone hshared]
      simp [mibSum]

/-- A wrapping sum of sizes. -/
theorem totalVram_eq (node : NodeInfo) : node.totalVram = vramSum node.topology % UInt64.size := by
  have hfold (sizes : List ℕ) (start : ℕ) (hstart : start < UInt64.size) :
      sizes.foldl (fun total mb ↦ (total + mb * 1024 * 1024 % 2 ^ 64) % 2 ^ 64) start =
        (start + mibSum sizes) % UInt64.size := by
    induction sizes generalizing start with
    | nil => exact (Nat.mod_eq_of_lt hstart).symm
    | cons mb rest ih =>
      have hbound : (start + mb * 1024 * 1024 % 2 ^ 64) % 2 ^ 64 < UInt64.size :=
        Nat.mod_lt _ (by decide)
      rw [List.foldl_cons, ih _ hbound, mibSum_cons, UInt64.size]
      omega
  rw [NodeInfo.totalVram, hfold _ 0 (by decide), Nat.zero_add, vramSum]

/-! ## Plain arithmetic -/

/-- The result of a plain `u64` operation, unless it overflows. -/
def checked (n : ℕ) : Option ℕ := if n ≤ u64Max then some n else none

/-- One size is added to the sum that `NodeInfo::usable_vram` makes. -/
def addChecked (total mb : ℕ) : Option ℕ := do
  let kib ← checked (mb * 1024)
  let bytes ← checked (kib * 1024)
  checked (total + bytes)

/-- The sum that `NodeInfo::usable_vram` makes, up to the first overflow. -/
def checkedVram (topo : Topology) : Option ℕ :=
  (topo.gpus.filterMap GpuInfo.vramMb).foldlM addChecked 0

/-- The need that `place_on_fleet` and `route` compute, unless it overflows. -/
def checkedNeed (model : ModelMeta) : Task → Option ℕ
  | .inference => some model.totalBytes
  | .training => checked (model.weightsBytes * trainingFootprintMult)

/-- The bytes that `plan` checks for a task. -/
def planNeed (model : ModelMeta) : Task → ℕ
  | .inference => model.totalBytes
  | .training => saturatingMul model.weightsBytes trainingFootprintMult

theorem checked_of_le {n : ℕ} (h : n ≤ u64Max) : checked n = some n := if_pos h

theorem checked_of_lt {n : ℕ} (h : u64Max < n) : checked n = none := if_neg (Nat.not_le.mpr h)

theorem kib_bytes (mb : ℕ) : mb * 1024 * 1024 = mb * 1048576 := by ring

theorem addChecked_of_le {total mb : ℕ} (h : total + mb * 1048576 ≤ u64Max) :
    addChecked total mb = some (total + mb * 1048576) := by
  have hkib : mb * 1024 ≤ u64Max := by omega
  have hbytes : mb * 1048576 ≤ u64Max := (Nat.le_add_left _ total).trans h
  rw [addChecked, checked_of_le hkib, Option.bind_eq_bind, Option.bind_some, kib_bytes,
    checked_of_le hbytes, Option.bind_some, checked_of_le h]

theorem addChecked_of_lt {total mb : ℕ} (h : u64Max < total + mb * 1048576) :
    addChecked total mb = none := by
  rw [addChecked]
  rcases Nat.lt_or_ge u64Max (mb * 1024) with hkib | hkib
  · rw [checked_of_lt hkib]
    rfl
  · rw [checked_of_le hkib, Option.bind_eq_bind, Option.bind_some, kib_bytes]
    rcases Nat.lt_or_ge u64Max (mb * 1048576) with hbytes | hbytes
    · rw [checked_of_lt hbytes]
      rfl
    · rw [checked_of_le hbytes, Option.bind_some, checked_of_lt h]

/-- No step of the sum overflows exactly when the sum does not. -/
theorem isSome_checkedVram (topo : Topology) :
    (checkedVram topo).isSome = true ↔ vramSum topo ≤ u64Max := by
  have hfold (sizes : List ℕ) (start : ℕ) (hstart : start ≤ u64Max) :
      (sizes.foldlM addChecked start).isSome = true ↔ start + mibSum sizes ≤ u64Max := by
    induction sizes generalizing start with
    | nil => simp [mibSum, hstart]
    | cons mb rest ih =>
      rw [List.foldlM_cons, mibSum_cons, ← Nat.add_assoc]
      rcases Nat.lt_or_ge u64Max (start + mb * 1048576) with hover | hfits
      · rw [addChecked_of_lt hover, Option.bind_eq_bind, Option.bind_none, Option.isSome_none]
        simp only [Bool.false_eq_true, false_iff]
        omega
      · rw [addChecked_of_le hfits, Option.bind_eq_bind, Option.bind_some, ih _ hfits]
  rw [checkedVram, hfold _ 0 (Nat.zero_le _), Nat.zero_add, vramSum]

/-! ## One arithmetic -/

/-- The four ways to place a model compute the same need and the same usable VRAM, and no plain
operation on the way overflows. -/
structure OneArithmetic (model : ModelMeta) (task : Task) (node : NodeInfo) : Prop where
  need : plainNeed model task = planNeed model task
  meshNeed : ∀ minTier, RouteRequest.need ⟨model, task, minTier⟩ = planNeed model task
  usable : node.usableVram.1 = (MemoryBudget.of node.topology).usableVram
  needFits : (checkedNeed model task).isSome = true
  vramFits : (checkedVram node.topology).isSome = true

theorem isSome_checkedNeed (model : ModelMeta) (task : Task) :
    (checkedNeed model task).isSome = true ↔
      (task = .training → model.weightsBytes * trainingFootprintMult ≤ u64Max) := by
  cases task with
  | inference => simp [checkedNeed]
  | training => simp [checkedNeed, checked]

/-- A need that does not overflow is the one that saturates. -/
theorem plainNeed_eq {model : ModelMeta} {task : Task}
    (h : task = .training → model.weightsBytes * trainingFootprintMult ≤ u64Max) :
    plainNeed model task = planNeed model task := by
  cases task with
  | inference => rfl
  | training =>
    have hlt : model.weightsBytes * trainingFootprintMult < UInt64.size := Nat.lt_succ_of_le (h rfl)
    rw [plainNeed, planNeed, saturatingMul, Nat.mod_eq_of_lt hlt, min_eq_left (h rfl)]

theorem meshNeed_eq (model : ModelMeta) (task : Task) (minTier : Option UInt8) :
    RouteRequest.need ⟨model, task, minTier⟩ = planNeed model task := by
  cases task <;> rfl

/-- A sum that does not overflow has the same headroom for the fleet and for the planner. -/
theorem usableVram_eq {node : NodeInfo} (h : vramSum node.topology ≤ u64Max) :
    node.usableVram.1 = (MemoryBudget.of node.topology).vramBytes := by
  have hlt : vramSum node.topology < UInt64.size := Nat.lt_succ_of_le h
  rw [NodeInfo.usableVram, totalVram_eq, Nat.mod_eq_of_lt hlt, vramBytes_of, min_eq_left h,
    (scale_vramHeadroom h).1]

/-- The four agree without an overflow exactly when four times the weights of a training fit `u64`,
the VRAM of all GPUs does, and the VRAM in use, as far as it is usable, is what GTT adds. -/
theorem oneArithmetic_iff (model : ModelMeta) (task : Task) (node : NodeInfo) :
    OneArithmetic model task node ↔
      (task = .training → model.weightsBytes * trainingFootprintMult ≤ u64Max) ∧
        vramSum node.topology ≤ u64Max ∧
        min (usedSum node.topology) (scale (vramSum node.topology) vramHeadroom) =
          gttSum node.topology := by
  have husable (hsum : vramSum node.topology ≤ u64Max) :
      node.usableVram.1 = (MemoryBudget.of node.topology).usableVram ↔
        min (usedSum node.topology) (scale (vramSum node.topology) vramHeadroom) =
          gttSum node.topology := by
    have hbelow := (scale_vramHeadroom hsum).2.1
    rw [usableVram_eq hsum, MemoryBudget.usableVram, saturatingAdd, vramBytes_of, min_eq_left hsum,
      vramUsedBytes_of, gttReachableBytes_of]
    omega
  constructor
  · intro h
    have hsum := (isSome_checkedVram _).mp h.vramFits
    exact ⟨(isSome_checkedNeed model task).mp h.needFits, hsum, (husable hsum).mp h.usable⟩
  · rintro ⟨hneed, hsum, hgtt⟩
    exact ⟨plainNeed_eq hneed, meshNeed_eq model task, (husable hsum).mpr hgtt,
      (isSome_checkedNeed model task).mpr hneed, (isSome_checkedVram _).mpr hsum⟩

def oneCard (vramMb usedMb : ℕ) : NodeInfo :=
  let topo : Topology :=
    ⟨[⟨.amd, some vramMb, some usedMb, none, .dedicated, some "gfx1100"⟩], [],
      some ⟨34359738368, 30064771072⟩⟩
  ⟨"node", "10.0.0.2:9000", topo, classifyTopology topo embeddedOverrides, []⟩

/-- Of a card with 8 of its 24 GiB in use the planner uses less than the fleet, and a card that
reports `2 ^ 44` MiB has no VRAM for the fleet. -/
theorem not_oneArithmetic :
    let model := ModelMeta.dense "llama" (.ofNat 7) .q4_K_M
    model.validate.toBool = true ∧
      (oneCard 24576 8192).usableVram.1 = 23192823398 ∧
      (MemoryBudget.of (oneCard 24576 8192).topology).usableVram = 14602888806 ∧
      ¬ OneArithmetic model .inference (oneCard 24576 8192) ∧
      (oneCard 17592186044416 0).usableVram.1 = 0 ∧
      checkedVram (oneCard 17592186044416 0).topology = none ∧
      ¬ OneArithmetic model .inference (oneCard 17592186044416 0) := by
  refine ⟨by decide +kernel, by decide +kernel, by decide +kernel, ?_, by decide +kernel,
    by decide +kernel, ?_⟩
  · intro h
    have husable := h.usable
    revert husable
    decide +kernel
  · intro h
    have hfits := h.vramFits
    revert hfits
    decide +kernel

end Cameo.Placement
