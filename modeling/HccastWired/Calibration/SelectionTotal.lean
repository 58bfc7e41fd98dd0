import HccastWired.Calibration.CheckedSelection
import HccastWired.Calibration.PresetEvidence
import HccastWired.Calibration.RecordChecks
import HccastWired.Foundation.Rounding

/-!
# The selection returns

A recorded trial keeps its numbers in their bounds, and a trial that passed knows what
the selection computes with. So no expression of the selection raises.
-/

namespace HccastWired.Calibration

open Foundation Desktop

/-! ## The arithmetic of the interpreter -/

/-- What the interpreter documents of its numbers: an integer result is exact, a true
division is a `float`, rounding does not lose a number that is large enough, and close
numbers are within twice the tolerance, which is computed with rounding itself. -/
structure Library.Lawful (lib : Library) : Prop where
  add_int : ∀ x y n, (lib.add x y).1 = .int n → (n : Rat) = x.value + y.value
  sub_int : ∀ x y n, (lib.sub x y).1 = .int n → (n : Rat) = x.value - y.value
  mul_int : ∀ x y n, (lib.mul x y).1 = .int n → (n : Rat) = x.value * y.value
  sum_int : ∀ xs n, (lib.sum xs).1 = .int n →
    (∀ x ∈ xs, ∃ k, x.1 = .int k) ∧ (n : Rat) = (xs.map FiniteNumber.value).sum
  mean_int : ∀ xs n, (lib.mean xs).1 = .int n → (n : Rat) * xs.length = (xs.map FiniteNumber.value).sum
  div_float : ∀ x y n, (lib.div x y).1 ≠ .int n
  div_zero : ∀ x y, x.value = 0 → (lib.div x y).value = 0
  div_pos : ∀ x y, 0 < y.value → y.value ≤ x.value → 0 < (lib.div x y).value
  mul_pos : ∀ x y, 0 < x.value → 1 ≤ y.value → 0 < (lib.mul x y).value
  sum_pos : ∀ xs, xs ≠ [] → (∀ x ∈ xs, 0 < x.value) → 0 < (lib.sum xs).value
  isClose_le : ∀ x y tolerance, lib.isClose x y tolerance = true →
    |x.value - y.value| ≤ 2 * max (max |x.value| |y.value| / 10 ^ 9) tolerance

theorem value_of_int {x : FiniteNumber} {n : Int} (h : x.1 = .int n) : x.value = n := by
  obtain ⟨x, hx⟩ := x
  cases h
  rfl

namespace Library

theorem rounded_int {onInts : Int → Int → Int} {exact : Rat → Rat → Rat} {x y : FiniteNumber}
    {n : Int} (hexact : ∀ a b : Int, (onInts a b : Rat) = exact a b)
    (h : (rounded onInts exact x y).1 = .int n) : (n : Rat) = exact x.value y.value := by
  obtain ⟨x, hx⟩ := x
  obtain ⟨y, hy⟩ := y
  unfold rounded at h
  split at h
  next a b ha hb =>
    subst ha hb
    cases h
    exact hexact a b
  next => cases h

/-- A rounded result is positive where the exact one is. -/
theorem rounded_pos {onInts : Int → Int → Int} {exact : Rat → Rat → Rat} {x y : FiniteNumber}
    (hexact : ∀ a b : Int, (onInts a b : Rat) = exact a b) (h : 0 < exact x.value y.value) :
    0 < (rounded onInts exact x y).value := by
  obtain ⟨x, hx⟩ := x
  obtain ⟨y, hy⟩ := y
  unfold rounded
  split
  next a b ha hb =>
    subst ha hb
    calc
      (0 : Rat) < exact a b := h
      _ = (onInts a b : Rat) := (hexact a b).symm
  next => exact roundBinary64_pos h

theorem rounded_operands {onInts : Int → Int → Int} {exact : Rat → Rat → Rat}
    {x y : FiniteNumber} {n : Int} (h : (rounded onInts exact x y).1 = .int n) :
    (∃ a, x.1 = .int a) ∧ ∃ b, y.1 = .int b := by
  unfold rounded at h
  split at h
  next a b ha hb => exact ⟨⟨a, ha⟩, b, hb⟩
  next => cases h

/-- An integer result of a sum comes from integers alone. -/
theorem foldl_rounded_int (xs : List FiniteNumber) : ∀ (start : FiniteNumber) (n : Int),
    (xs.foldl (rounded (· + ·) (· + ·)) start).1 = .int n →
      (∃ m, start.1 = .int m) ∧ (∀ x ∈ xs, ∃ k, x.1 = .int k) ∧
        (n : Rat) = start.value + (xs.map FiniteNumber.value).sum := by
  induction xs with
  | nil =>
      rintro ⟨start, hstart⟩ n h
      cases h
      refine ⟨⟨n, rfl⟩, fun x hx => absurd hx List.not_mem_nil, ?_⟩
      simp [FiniteNumber.value, Number.toRat]
  | cons x xs ih =>
      intro start n h
      obtain ⟨⟨k, hk⟩, hall, hn⟩ := ih _ n h
      obtain ⟨hstart, hx⟩ := rounded_operands hk
      refine ⟨hstart, List.forall_mem_cons.mpr ⟨hx, hall⟩, ?_⟩
      have hvalue : (rounded (· + ·) (· + ·) start x).value = start.value + x.value := by
        rw [← rounded_int (fun a b => by push_cast; rfl) hk]
        exact value_of_int hk
      rw [hn, hvalue, List.map_cons, List.sum_cons, add_assoc]

theorem foldl_rounded_pos (xs : List FiniteNumber) : ∀ start : FiniteNumber, 0 < start.value →
    (∀ x ∈ xs, 0 < x.value) → 0 < (xs.foldl (rounded (· + ·) (· + ·)) start).value := by
  induction xs with
  | nil => exact fun start h _ => h
  | cons x xs ih =>
      intro start hstart hall
      obtain ⟨hx, hxs⟩ := List.forall_mem_cons.mp hall
      apply ih _ _ hxs
      exact rounded_pos (fun a b => by push_cast; rfl) (add_pos hstart hx)

theorem binary64_lawful : Library.binary64.Lawful where
  add_int x y n h := rounded_int (fun a b => by push_cast; rfl) h
  sub_int x y n h := rounded_int (fun a b => by push_cast; rfl) h
  mul_int x y n h := rounded_int (fun a b => by push_cast; rfl) h
  sum_int xs n h := by
    obtain ⟨-, hall, hn⟩ := foldl_rounded_int xs (.int 0) n h
    refine ⟨hall, hn.trans ?_⟩
    rw [value_of_int rfl, Int.cast_zero, zero_add]
  mean_int xs n h := by cases h
  div_float x y n h := by cases h
  div_zero x y h := by
    calc
      (Library.binary64.div x y).value = roundBinary64 (x.value / y.value) := rfl
      _ = 0 := by rw [h, zero_div, roundBinary64_zero]
  div_pos x y hy hxy := roundBinary64_pos (div_pos (hy.trans_le hxy) hy)
  mul_pos x y hx hy := rounded_pos (fun a b => by push_cast; rfl)
    (mul_pos hx (zero_lt_one.trans_le hy))
  sum_pos xs hne hall := by
    cases xs with
    | nil => exact absurd rfl hne
    | cons x xs =>
        obtain ⟨hx, hxs⟩ := List.forall_mem_cons.mp hall
        apply foldl_rounded_pos xs _ _ hxs
        apply rounded_pos (fun a b => by push_cast; rfl)
        calc
          (0 : Rat) < x.value := hx
          _ = (FiniteNumber.int 0).value + x.value := (zero_add _).symm
  isClose_le x y tolerance h := by
    have hclose : |x.value - y.value| ≤ tolerance := of_decide_eq_true h
    have hmax := le_max_right (max |x.value| |y.value| / 10 ^ 9) tolerance
    have hpos := abs_nonneg (x.value - y.value)
    linarith

end Library

/-! ## What a record holds -/

/-- The numbers of a record are within their bounds; the CPU window is not empty. -/
structure TrialRecord.Recorded (t : TrialRecord) : Prop where
  numeric : ∀ f x, t.metric f = some x →
    (f.bounds.1 : Rat) ≤ x.value ∧ x.value ≤ (f.bounds.2.1 : Rat)
  window : ∀ w, t.measurements.cpuWindow = some w →
    0 < w.durationS.value ∧ w.durationS.value ≤ 14400
  power : ∀ p, t.measurements.wholePiPower = some p →
    (0 < p.wattsMean.value ∧ p.wattsMean.value ≤ 1000) ∧
      0 < p.uncertaintyWatts.value ∧ p.uncertaintyWatts.value ≤ 1000

section Recorded

variable {lib : Library}

/-- The coverage of a CPU window is a share of the elapsed time, so it is not empty. -/
theorem readCpuWindow_ok (hlib : lib.Lawful) {elapsed mean : Option FiniteNumber}
    {value : PyValue} {w : CpuWindow} (h : readCpuWindow lib elapsed mean value = .ok w) :
    0 < w.durationS.value ∧ w.durationS.value ≤ 14400 := by
  simp only [readCpuWindow, bind, Except.bind, pure, Except.pure, throw, throwThe,
    MonadExceptOf.throw] at h
  repeat' split at h
  all_goals cases h
  rename_i _ _ start _ _ last _ _ duration hduration _ coverage hcoverage _ intervals _ hcontained
  have hbounds := numeric_ok hduration
  have hshare := (numeric_ok hcoverage).1
  simp only [not_not, Bool.and_eq_true, Option.any_eq_true] at hcontained
  obtain ⟨-, elapsed, -, -, hclose⟩ := hcontained
  have hnear := hlib.isClose_le _ _ _ hclose
  constructor
  · apply lt_of_le_of_ne
    · simpa [Bounds.ints] using hbounds.1
    · intro hzero
      have hpos : (0 : Rat) ≤ coverage.value := le_trans (by norm_num) hshare
      rw [hlib.div_zero _ elapsed hzero.symm, sub_zero, abs_zero, abs_of_nonneg hpos,
        max_eq_left hpos] at hnear
      rcases max_choice (coverage.value / 10 ^ 9)
        (4835703278458517 / 4835703278458516698824704 : Rat) with hmax | hmax
      · rw [hmax] at hnear
        linarith
      · rw [hmax] at hnear
        linarith
  · simpa [Bounds.ints] using hbounds.2

theorem readPower_ok {value : PyValue} {p : Power} (h : readPower value = .ok p) :
    (0 < p.wattsMean.value ∧ p.wattsMean.value ≤ 1000) ∧
      0 < p.uncertaintyWatts.value ∧ p.uncertaintyWatts.value ≤ 1000 := by
  simp only [readPower, bind, Except.bind, pure, Except.pure, throw, throwThe,
    MonadExceptOf.throw] at h
  repeat' split at h
  all_goals cases h
  rename_i _ _ _ watts hwatts _ uncertainty huncertainty _ samples _ _ meter _
  have hw := numeric_ok hwatts
  have hu := numeric_ok huncertainty
  exact ⟨⟨lt_of_lt_of_le (by norm_num) hw.1, hw.2⟩, lt_of_lt_of_le (by norm_num) hu.1, hu.2⟩

theorem recordTrial_recorded (hlib : lib.Lawful) {value : PyValue} {t : TrialRecord}
    (h : recordTrial lib value = .ok t) : t.Recorded := by
  have hmetrics := metricsRead (recordTrial_iff.mp h).measurements
  constructor
  case numeric => exact readNumbers_bounds hmetrics.numbers
  case window =>
    intro w hw
    have hread := hmetrics.cpuWindow
    rw [hw] at hread
    exact readCpuWindow_ok hlib (orNone_ok hread)
  case power =>
    intro p hp
    have hread := hmetrics.power
    rw [hp] at hread
    exact readPower_ok (orNone_ok hread)

end Recorded

/-- The rates of a profile. -/
theorem profile_rates (p : Profile) :
    (1 ≤ p.1.contentFps ∧ p.1.contentFps ≤ 30) ∧ p.1.wireFps = 30 := by
  have hok : p.1.check.isOk = true := p.2
  simp only [ProfileFields.check, bind, Except.bind, pure, Except.pure, throw, throwThe,
    MonadExceptOf.throw] at hok
  split_ifs at hok with _ hfps hwire
  all_goals cases hok
  simp only [ProfileFields.wireModes, List.mem_cons, List.not_mem_nil, or_false,
    Prod.mk.injEq] at hfps hwire
  omega

/-! ## Expressions that return -/

section Arithmetic

variable {lib : Library} {x y : FiniteNumber} {xs : List FiniteNumber}

theorem fits_of_int (h : ∀ n, x.1 = .int n → |(n : Rat)| ≤ 10 ^ 15) : x.fits = true := by
  obtain ⟨x, hx⟩ := x
  cases x with
  | int n =>
      have hn : |(n : Rat)| ≤ 10 ^ 15 := h n rfl
      have habs : n.natAbs ≤ 10 ^ 15 := by
        rw [← Int.cast_abs, Int.abs_eq_natAbs] at hn
        exact_mod_cast hn
      have hlimit : 10 ^ 15 < Number.floatLimit := by decide +kernel
      simp only [FiniteNumber.fits, Number.overflows, Bool.not_eq_true', decide_eq_false_iff_not]
      omega
  | float q => rfl
  | infinite negative => cases hx
  | nan => cases hx

theorem fits_of_le (h : |x.value| ≤ 10 ^ 15) : x.fits = true := by
  apply fits_of_int
  intro n hn
  rw [← value_of_int hn]
  exact h

theorem operate_ok {op : FiniteNumber → FiniteNumber → FiniteNumber} (hx : x.fits = true)
    (hy : y.fits = true) : operate op x y = .ok (op x y) := by
  rw [operate, hx, hy]
  rfl

theorem divide_ok (hx : x.fits = true) (hy : y.fits = true) (hzero : y.value ≠ 0) :
    divide lib x y = .ok (lib.div x y) := by
  rw [divide, if_neg hzero, operate_ok hx hy]

theorem total_ok (h : ∀ x ∈ xs, x.fits = true) : total lib xs = .ok (lib.sum xs) := by
  rw [total, if_pos (List.all_eq_true.mpr h)]

theorem average_ok (h : xs ≠ []) : average lib xs = .ok (lib.mean xs) := by
  rw [average, if_neg]
  simpa using h

/-- A true division is a `float`, which needs no conversion. -/
theorem div_fits (hlib : lib.Lawful) (x y : FiniteNumber) : (lib.div x y).fits = true :=
  fits_of_int fun n hn => absurd hn (hlib.div_float x y n)

theorem mul_fits (hlib : lib.Lawful) {a b : Rat} (hx : |x.value| ≤ a) (hy : |y.value| ≤ b)
    (hab : a * b ≤ 10 ^ 15) : (lib.mul x y).fits = true := by
  apply fits_of_int
  intro n hn
  rw [hlib.mul_int x y n hn, abs_mul]
  exact (mul_le_mul hx hy (abs_nonneg _) ((abs_nonneg _).trans hx)).trans hab

theorem sub_fits (hlib : lib.Lawful) (hx : |x.value| ≤ 10 ^ 14) (hy : |y.value| ≤ 10 ^ 14) :
    (lib.sub x y).fits = true := by
  apply fits_of_int
  intro n hn
  rw [hlib.sub_int x y n hn]
  calc
    |x.value - y.value| ≤ |x.value| + |y.value| := abs_sub _ _
    _ ≤ 10 ^ 14 + 10 ^ 14 := add_le_add hx hy
    _ ≤ 10 ^ 15 := by norm_num

theorem abs_sum_le {b : Rat} (h : ∀ x ∈ xs, |x.value| ≤ b) :
    |(xs.map FiniteNumber.value).sum| ≤ xs.length * b := by
  induction xs with
  | nil => simp
  | cons x xs ih =>
      obtain ⟨hx, hxs⟩ := List.forall_mem_cons.mp h
      calc
        |((x :: xs).map FiniteNumber.value).sum| ≤
            |x.value| + |(xs.map FiniteNumber.value).sum| := by
          rw [List.map_cons, List.sum_cons]
          exact abs_add_le _ _
        _ ≤ b + xs.length * b := add_le_add hx (ih hxs)
        _ = (x :: xs).length * b := by
          rw [List.length_cons]
          push_cast
          ring

theorem sum_fits (hlib : lib.Lawful) {b : Rat}
    (h : ∀ x ∈ xs, ∀ k, x.1 = .int k → |(k : Rat)| ≤ b) (hb : xs.length * b ≤ 10 ^ 15) :
    (lib.sum xs).fits = true := by
  apply fits_of_int
  intro n hn
  obtain ⟨hall, hsum⟩ := hlib.sum_int xs n hn
  rw [hsum]
  apply (abs_sum_le _).trans hb
  intro x hx
  obtain ⟨k, hk⟩ := hall x hx
  rw [value_of_int hk]
  exact h x hx k hk

end Arithmetic

section Assess

variable {lib : Library} {contextId workloadId : String} {modes : List WireMode}
  {policy : CalibrationPolicy} {t : TrialRecord} {f : NumericField} {x : FiniteNumber}

/-- The numbers of a policy are within their bounds. -/
theorem policy_bounds (h : policy.check = .ok ()) : ∀ row ∈ CalibrationPolicy.bounds,
    row.2.2.low ≤ (row.1 policy).value ∧ (row.1 policy).value ≤ row.2.2.high := by
  have hall : ∀ rows : List ((CalibrationPolicy → FiniteNumber) × String × Bounds),
      (rows.forM fun row => do
        let _ ← numeric (.number (row.1 policy).1) row.2.1 row.2.2 false) = Except.ok () →
      ∀ row ∈ rows, row.2.2.low ≤ (row.1 policy).value ∧ (row.1 policy).value ≤ row.2.2.high := by
    intro rows
    induction rows with
    | nil =>
        intro _ row hrow
        cases hrow
    | cons first rows ih =>
        intro hok
        obtain ⟨_, hfirst, hrest⟩ := bind_ok_iff.mp hok
        obtain ⟨y, hy, -⟩ := bind_ok_iff.mp hfirst
        have hvalue : y = first.1 policy := by
          simp only [numeric] at hy
          split_ifs at hy
          · cases hy
            rfl
          · cases hy
          · cases hy
        rw [← List.forall_mem_cons.symm.eq]
        exact ⟨hvalue ▸ numeric_ok hy, ih hrest⟩
  exact hall _ h

/-- The longest gap between health samples. -/
theorem policy_gap (h : policy.check = .ok ()) :
    (3602879701896397 / 36028797018963968 : Rat) ≤ policy.maxHealthGapS.value ∧
      policy.maxHealthGapS.value ≤ 5 :=
  policy_bounds h _ (List.getElem_mem (l := CalibrationPolicy.bounds) (n := 8) (by decide))

/-- The shortest measured window. -/
theorem policy_window (h : policy.check = .ok ()) : 30 ≤ policy.minTrialS.value := by
  have hbounds := policy_bounds h _
    (List.getElem_mem (l := CalibrationPolicy.bounds) (n := 1) (by decide))
  exact_mod_cast hbounds.1

theorem metric_small (ht : t.Recorded) (h : t.metric f = some x) : |x.value| ≤ 10 ^ 10 := by
  obtain ⟨hlow, hhigh⟩ := ht.numeric f x h
  rw [abs_le]
  cases f <;> constructor <;> norm_num [NumericField.bounds] at hlow hhigh ⊢ <;> linarith

theorem metric_fits (ht : t.Recorded) (h : t.metric f = some x) : x.fits = true :=
  fits_of_le ((metric_small ht h).trans (by norm_num))

theorem truthy_some (h : t.truthy f = some x) : t.metric f = some x ∧ x.value ≠ 0 := by
  obtain ⟨hmetric, hzero⟩ := Option.filter_eq_some_iff.mp h
  exact ⟨hmetric, of_decide_eq_true hzero⟩

/-- A window that is not zero is positive. -/
theorem duration_pos (ht : t.Recorded) (h : t.truthy .elapsedS = some x) : 0 < x.value := by
  obtain ⟨hmetric, hzero⟩ := truthy_some h
  have hlow := (ht.numeric _ _ hmetric).1
  exact lt_of_le_of_ne (by simpa [NumericField.bounds] using hlow) hzero.symm

theorem evalDropFraction_ok (ht : t.Recorded) :
    t.evalDropFraction lib = .ok (t.dropFraction lib) := by
  unfold TrialRecord.evalDropFraction TrialRecord.dropFraction
  cases hdrops : t.metric .pipelineDroppedFrames with
  | none => rfl
  | some drops =>
      cases hinputs : t.truthy .sourceFrames with
      | none => rfl
      | some inputs =>
          obtain ⟨hmetric, hzero⟩ := truthy_some hinputs
          dsimp only
          rw [divide_ok (metric_fits ht hdrops) (metric_fits ht hmetric) hzero]
          rfl

theorem int_value (n : Int) : (FiniteNumber.int n).value = n := rfl

theorem int_fits {n : Int} (h : |n| ≤ 10 ^ 15) : (FiniteNumber.int n).fits = true := by
  apply fits_of_le
  rw [int_value]
  exact_mod_cast h

/-- The frames that a rate asks for. -/
theorem evalRate_ok (hlib : lib.Lawful) (ht : t.Recorded) {duration frames : FiniteNumber}
    {fps : Int} (hduration : t.truthy .elapsedS = some duration) (hframes : t.metric f = some frames)
    (hlow : 1 ≤ fps) (hhigh : fps ≤ 30) :
    operate lib.mul duration (.int fps) = .ok (lib.mul duration (.int fps)) ∧
      divide lib frames (lib.mul duration (.int fps)) =
        .ok (lib.div frames (lib.mul duration (.int fps))) := by
  obtain ⟨hmetric, -⟩ := truthy_some hduration
  have hfps : |(FiniteNumber.int fps).value| ≤ 30 := by
    have habs : |fps| ≤ 30 := abs_le.mpr ⟨by omega, hhigh⟩
    rw [int_value]
    exact_mod_cast habs
  have hpos : 0 < (lib.mul duration (.int fps)).value := by
    apply hlib.mul_pos _ _ (duration_pos ht hduration)
    rw [int_value]
    exact_mod_cast hlow
  constructor
  · exact operate_ok (metric_fits ht hmetric) (fits_of_le (hfps.trans (by norm_num)))
  · exact divide_ok (metric_fits ht hframes)
      (mul_fits hlib (metric_small ht hmetric) hfps (by norm_num)) hpos.ne'

theorem evalRatios_ok (hlib : lib.Lawful) (ht : t.Recorded) :
    t.evalRatios lib = .ok (t.ratios lib) := by
  obtain ⟨⟨hlow, hhigh⟩, hwire⟩ := profile_rates t.profile
  unfold TrialRecord.evalRatios TrialRecord.ratios
  cases hduration : t.truthy .elapsedS with
  | none => rfl
  | some duration =>
      cases hinputs : t.metric .sourceFrames with
      | none => rfl
      | some inputs =>
          cases houtputs : t.metric .outputFrames with
          | none => rfl
          | some outputs =>
              obtain ⟨hasked, hsource⟩ := evalRate_ok hlib ht hduration hinputs hlow hhigh
              obtain ⟨hframes, hencoded⟩ := evalRate_ok hlib ht hduration houtputs
                (show 1 ≤ t.profile.1.wireFps by omega) (show t.profile.1.wireFps ≤ 30 by omega)
              dsimp only
              rw [hasked, Checked.ok_bind, hsource, Checked.ok_bind, hframes, Checked.ok_bind,
                hencoded]
              rfl

theorem evalSampleCount_ok (lib : Library) (hpolicy : policy.check = .ok ()) (ht : t.Recorded) :
    ∃ n, t.evalSampleCount lib policy = .ok n := by
  obtain ⟨hlow, hhigh⟩ := policy_gap hpolicy
  have hgap : 0 < policy.maxHealthGapS.value := lt_of_lt_of_le (by norm_num) hlow
  unfold TrialRecord.evalSampleCount
  cases hduration : t.truthy .elapsedS with
  | none => exact ⟨_, rfl⟩
  | some duration =>
      cases hsamples : t.metric .healthSamples with
      | none => exact ⟨_, rfl⟩
      | some samples =>
          obtain ⟨hmetric, -⟩ := truthy_some hduration
          have hfits : policy.maxHealthGapS.fits = true := by
            apply fits_of_le
            rw [abs_of_pos hgap]
            exact hhigh.trans (by norm_num)
          have hquotient : |duration.value / policy.maxHealthGapS.value| < Number.floatLimit := by
            rw [abs_div, abs_of_pos hgap, div_lt_iff₀ hgap]
            calc
              |duration.value| ≤ 10 ^ 10 := metric_small ht hmetric
              _ < 10 ^ 12 * policy.maxHealthGapS.value := by linarith
              _ ≤ Number.floatLimit * policy.maxHealthGapS.value := by
                apply mul_le_mul_of_nonneg_right _ hgap.le
                exact_mod_cast (by decide +kernel : 10 ^ 12 ≤ Number.floatLimit)
          dsimp only
          rw [ceilDivide, divide_ok (metric_fits ht hmetric) hfits hgap.ne', Checked.ok_bind,
            if_neg (not_le.mpr hquotient)]
          exact ⟨_, rfl⟩

theorem evalCovered_ok (lib : Library) (ht : t.Recorded) : ∃ covered, t.evalCovered lib = .ok covered := by
  unfold TrialRecord.evalCovered
  cases hsamples : t.metric .encoderLatencySamples with
  | none => exact ⟨_, rfl⟩
  | some samples =>
      cases houtputs : t.metric .outputFrames with
      | none => exact ⟨_, rfl⟩
      | some outputs =>
          dsimp only
          rw [operate_ok (metric_fits ht houtputs) rfl]
          exact ⟨_, rfl⟩

theorem evalHeadroom_ok (hlib : lib.Lawful) (ht : t.Recorded) :
    t.evalHeadroom lib = .ok (t.headroom lib) := by
  have hwire := (profile_rates t.profile).2
  unfold TrialRecord.evalHeadroom TrialRecord.headroom
  cases hlatency : t.metric .encoderLatencyMs with
  | none => rfl
  | some latency =>
      have hframe : 0 < (lib.div (.int 1000) (.int t.profile.1.wireFps)).value := by
        rw [hwire]
        apply hlib.div_pos
        · norm_num [int_value]
        · norm_num [int_value]
      have hnonzero : (FiniteNumber.int t.profile.1.wireFps).value ≠ 0 := by
        rw [hwire]
        norm_num [int_value]
      dsimp only
      rw [divide_ok (int_fits (by norm_num)) (int_fits (by rw [hwire]; norm_num)) hnonzero,
        Checked.ok_bind, divide_ok (metric_fits ht hlatency) (div_fits hlib _ _) hframe.ne',
        Checked.ok_bind, operate_ok (int_fits (by norm_num)) (div_fits hlib _ _)]
      rfl

theorem evalAssess_ok (hlib : lib.Lawful) (hpolicy : policy.check = .ok ()) (ht : t.Recorded) :
    evalAssess lib contextId workloadId modes policy t =
      .ok (assess lib contextId workloadId modes policy t) := by
  unfold evalAssess
  cases houtcome : t.outcome with
  | transportAborted stage reason => rfl
  | completed =>
      obtain ⟨n, hn⟩ := evalSampleCount_ok lib hpolicy ht
      obtain ⟨covered, hcovered⟩ := evalCovered_ok lib ht
      dsimp only
      rw [evalDropFraction_ok ht, Checked.ok_bind, evalRatios_ok hlib ht, Checked.ok_bind, hn,
        Checked.ok_bind, hcovered, Checked.ok_bind, evalHeadroom_ok hlib ht, Checked.ok_bind]
      cases hpassed : (assess lib contextId workloadId modes policy t).reasons.isEmpty with
      | true =>
          have hsoftware : (assess lib contextId workloadId modes policy t).softwarePassed = true := by
            simp only [assess, houtcome] at hpassed ⊢
            exact hpassed
          obtain ⟨d, hd, -⟩ := (passes_of_checks (checks_of_passed hsoftware).2).long
          simp only [assess, houtcome] at hpassed ⊢
          simp [hd, hpassed]
      | false =>
          simp only [assess, houtcome] at hpassed ⊢
          simp [hpassed]

end Assess

/-! ## The choice returns -/

section Choose

variable {lib : Library} {policy : CalibrationPolicy} {group : TrialGroup} {t : TrialRecord}

/-- What is known of a trial that passed. -/
structure TrialRecord.Loaded (t : TrialRecord) : Prop where
  load : ∃ c, t.metric .cpuMeanPercent = some c ∧ |c.value| ≤ 100
  duration : ∃ d, t.loadDuration = some d ∧ 0 < d.value ∧ d.value ≤ 14400
  elapsed : ∃ d, t.metric .elapsedS = some d
  temperature : ∃ x, t.metric .temperaturePeakC = some x

theorem loaded_of_passes {contextId workloadId : String} {modes : List WireMode}
    (hpolicy : policy.check = .ok ()) (ht : t.Recorded)
    (h : Passes lib contextId workloadId modes policy t) : t.Loaded := by
  obtain ⟨elapsed, helapsed, hlong⟩ := h.long
  obtain ⟨x, hx, -⟩ := h.cool
  obtain ⟨c, hc⟩ := Option.isSome_iff_exists.mp (h.known .cpuMeanPercent (by decide))
  constructor
  case load =>
    obtain ⟨hlow, hhigh⟩ := ht.numeric _ _ hc
    refine ⟨c, hc, abs_le.mpr ⟨?_, by simpa [NumericField.bounds] using hhigh⟩⟩
    calc
      (-100 : Rat) ≤ 0 := by norm_num
      _ ≤ c.value := by simpa [NumericField.bounds] using hlow
  case duration =>
    unfold TrialRecord.loadDuration
    split
    next window hwindow => exact ⟨_, rfl, ht.window window hwindow⟩
    next =>
      refine ⟨elapsed, helapsed, ?_, ?_⟩
      · calc
          (0 : Rat) < 30 := by norm_num
          _ ≤ policy.minTrialS.value := policy_window hpolicy
          _ ≤ elapsed.value := hlong
      · simpa [NumericField.bounds] using (ht.numeric _ _ helapsed).2
  case elapsed => exact ⟨elapsed, helapsed⟩
  case temperature => exact ⟨x, hx⟩

/-- A group of trials that passed. -/
structure Computable (group : TrialGroup) : Prop where
  nonempty : group ≠ []
  bounded : group.length ≤ 32
  loaded : ∀ t ∈ group, t.Loaded
  recorded : ∀ t ∈ group, t.Recorded

/-- The load of a trial, when it is known. -/
def TrialRecord.meanLoad (t : TrialRecord) : FiniteNumber :=
  (t.metric .cpuMeanPercent).getD (.int 0)

/-- The seconds of the load, when they are known. -/
def TrialRecord.loadSeconds (t : TrialRecord) : FiniteNumber :=
  (t.measurements.cpuWindow.map CpuWindow.durationS).getD ((t.metric .elapsedS).getD (.int 0))

theorem meanLoad_spec (h : t.Loaded) :
    t.metric .cpuMeanPercent = some t.meanLoad ∧ |t.meanLoad.value| ≤ 100 := by
  obtain ⟨c, hc, hbound⟩ := h.load
  rw [TrialRecord.meanLoad, hc]
  exact ⟨rfl, hbound⟩

theorem loadSeconds_spec (h : t.Loaded) : t.loadDuration = some t.loadSeconds ∧
    0 < t.loadSeconds.value ∧ |t.loadSeconds.value| ≤ 14400 := by
  obtain ⟨d, hd, hpos, hbound⟩ := h.duration
  have heq : t.loadSeconds = d := by
    unfold TrialRecord.loadDuration at hd
    split at hd
    next window hwindow =>
      cases hd
      rw [TrialRecord.loadSeconds, hwindow]
      rfl
    next hwindow =>
      rw [TrialRecord.loadSeconds, hwindow, hd]
      rfl
  rw [heq]
  exact ⟨hd, hpos, by rwa [abs_of_pos hpos]⟩

theorem cpu_eq (lib : Library) (group : TrialGroup) : cpu lib group =
    lib.div (lib.sum (group.map fun t => lib.mul t.meanLoad t.loadSeconds))
      (lib.sum (group.map TrialRecord.loadSeconds)) := by
  simp only [cpu, List.map_map]
  rfl

/-- The weights of a group are positive, so their sum divides. -/
theorem evalCpu_ok (hlib : lib.Lawful) (h : Computable group) :
    evalCpu lib group = .ok (cpu lib group) := by
  have hlength : (group.length : Rat) ≤ 32 := by exact_mod_cast h.bounded
  have hfits : ∀ t ∈ group, t.meanLoad.fits = true ∧ t.loadSeconds.fits = true := by
    intro t ht
    constructor
    · exact fits_of_le ((meanLoad_spec (h.loaded t ht)).2.trans (by norm_num))
    · exact fits_of_le ((loadSeconds_spec (h.loaded t ht)).2.2.trans (by norm_num))
  have hproducts : (group.mapM fun t => do
      operate lib.mul (← Checked.known (t.metric .cpuMeanPercent))
        (← Checked.known t.loadDuration)) =
      .ok (group.map fun t => lib.mul t.meanLoad t.loadSeconds) := by
    apply Checked.mapM_ok
    intro t ht
    rw [(meanLoad_spec (h.loaded t ht)).1, (loadSeconds_spec (h.loaded t ht)).1]
    exact operate_ok (hfits t ht).1 (hfits t ht).2
  have hdurations : (group.mapM fun t => Checked.known t.loadDuration) =
      .ok (group.map TrialRecord.loadSeconds) := by
    apply Checked.mapM_ok
    intro t ht
    rw [(loadSeconds_spec (h.loaded t ht)).1]
    rfl
  have hweights : ∀ x ∈ group.map TrialRecord.loadSeconds, 0 < x.value ∧ |x.value| ≤ 14400 := by
    intro x hx
    obtain ⟨t, ht, rfl⟩ := List.mem_map.mp hx
    exact (loadSeconds_spec (h.loaded t ht)).2
  have hsum : (lib.sum (group.map TrialRecord.loadSeconds)).fits = true := by
    apply sum_fits (b := 14400) hlib
    · intro x hx k hk
      rw [← value_of_int hk]
      exact (hweights x hx).2
    · rw [List.length_map]
      linarith
  have hweighted : (lib.sum (group.map fun t => lib.mul t.meanLoad t.loadSeconds)).fits = true := by
    apply sum_fits (b := 100 * 14400) hlib
    · intro x hx k hk
      obtain ⟨t, ht, rfl⟩ := List.mem_map.mp hx
      rw [hlib.mul_int _ _ k hk, abs_mul]
      apply mul_le_mul (meanLoad_spec (h.loaded t ht)).2 (loadSeconds_spec (h.loaded t ht)).2.2
        (abs_nonneg _) (by norm_num)
    · rw [List.length_map]
      linarith
  have hpos : 0 < (lib.sum (group.map TrialRecord.loadSeconds)).value := by
    apply hlib.sum_pos
    · simpa using h.nonempty
    · exact fun x hx => (hweights x hx).1
  rw [evalCpu, hproducts, Checked.ok_bind, total_ok, Checked.ok_bind, hdurations, Checked.ok_bind,
    total_ok, Checked.ok_bind, divide_ok hweighted hsum hpos.ne', cpu_eq]
  · intro x hx
    obtain ⟨t, ht, rfl⟩ := List.mem_map.mp hx
    exact (hfits t ht).2
  · intro x hx
    obtain ⟨t, ht, rfl⟩ := List.mem_map.mp hx
    exact mul_fits hlib (meanLoad_spec (h.loaded t ht)).2 (loadSeconds_spec (h.loaded t ht)).2.2
      (by norm_num)

theorem evalQuality_ok (hlib : lib.Lawful) (h : Computable group) :
    evalQuality lib group = .ok (quality lib group) := by
  have hcpu := evalCpu_ok hlib h
  cases group with
  | nil => exact absurd rfl h.nonempty
  | cons t rest =>
      rw [evalQuality, Checked.first, Checked.ok_bind, hcpu, Checked.ok_bind]
      rfl

theorem evalSaverKey_ok (hlib : lib.Lawful) (h : Computable group) : evalSaverKey lib group =
    .ok ((cpu lib group).value :: (quality lib group).map Neg.neg) := by
  rw [evalSaverKey, evalCpu_ok hlib h, Checked.ok_bind, evalQuality_ok hlib h, Checked.ok_bind]
  rfl

theorem extreme_greatest {xs : List FiniteNumber} (h : xs ≠ []) :
    Checked.extreme greater xs = .ok (greatest xs) ∧ greatest xs ∈ xs := by
  obtain ⟨x, hx⟩ : ∃ x, firstBest greater xs = some x := firstBest_isSome h
  have hgreatest : greatest xs = x := by
    rw [greatest, show (fun x y : FiniteNumber => decide (y.value < x.value)) = greater from rfl, hx]
    rfl
  rw [hgreatest]
  exact ⟨Checked.extreme_ok hx, firstBest_mem hx⟩

theorem extreme_least {xs : List FiniteNumber} (h : xs ≠ []) :
    Checked.extreme smaller xs = .ok (least xs) ∧ least xs ∈ xs := by
  obtain ⟨x, hx⟩ : ∃ x, firstBest smaller xs = some x := firstBest_isSome h
  have hleast : least xs = x := by
    rw [least, show (fun x y : FiniteNumber => decide (x.value < y.value)) = smaller from rfl, hx]
    rfl
  rw [hleast]
  exact ⟨Checked.extreme_ok hx, firstBest_mem hx⟩

/-- The powers of recorded trials are within their bounds. -/
theorem powers_bounds (h : ∀ t ∈ group, t.Recorded) {p : Power} (hp : p ∈ powers group) :
    |p.wattsMean.value| ≤ 1000 ∧ |p.uncertaintyWatts.value| ≤ 1000 := by
  obtain ⟨t, ht, hpower⟩ := List.mem_filterMap.mp hp
  obtain ⟨⟨hwatts, hw⟩, huncertainty, hu⟩ := (h t ht).power p hpower
  rw [abs_of_pos hwatts, abs_of_pos huncertainty]
  exact ⟨hw, hu⟩

theorem evalPowerSummary_ok (hlib : lib.Lawful) (h : ∀ t ∈ group, t.Recorded) :
    evalPowerSummary lib group = .ok (powerSummary lib group) := by
  have hbounds := fun p hp => powers_bounds h (p := p) hp
  unfold evalPowerSummary powerSummary
  cases hpowers : powers group with
  | nil => rfl
  | cons first rest =>
      rw [hpowers] at hbounds
      have hwatts : ∀ x ∈ (first :: rest).map Power.wattsMean, |x.value| ≤ 1000 := by
        intro x hx
        obtain ⟨p, hp, rfl⟩ := List.mem_map.mp hx
        exact (hbounds p hp).1
      have hne : (first :: rest).map Power.wattsMean ≠ [] := List.cons_ne_nil _ _
      obtain ⟨hgreatest, hgmem⟩ := extreme_greatest hne
      obtain ⟨hleast, hlmem⟩ := extreme_least hne
      have huncertainty : Checked.extreme greater ((first :: rest).map Power.uncertaintyWatts) =
          .ok _ := (extreme_greatest (List.cons_ne_nil _ _)).1
      have hrange := sub_fits hlib ((hwatts _ hgmem).trans (by norm_num))
        ((hwatts _ hlmem).trans (by norm_num))
      have hoperate : operate lib.sub _ _ = .ok _ := operate_ok
        (fits_of_le ((hwatts _ hgmem).trans (by norm_num)))
        (fits_of_le ((hwatts _ hlmem).trans (by norm_num)))
      have htwo : (FiniteNumber.int 2).value ≠ 0 := by norm_num [int_value]
      dsimp only
      split_ifs
      · rfl
      · rw [Checked.first, Checked.ok_bind, if_pos ‹_›]
        rfl
      · rw [Checked.first, Checked.ok_bind, if_neg ‹_›, average_ok hne, Checked.ok_bind,
          huncertainty, Checked.ok_bind, hgreatest, Checked.ok_bind, hleast, Checked.ok_bind,
          hoperate, Checked.ok_bind, divide_ok hrange (int_fits (by norm_num)) htwo,
          Checked.ok_bind, (extreme_greatest (List.cons_ne_nil _ _)).1]
        rfl

/-- The two numbers of a power are operands. -/
theorem powerSummary_fits (hlib : lib.Lawful) (h : ∀ t ∈ group, t.Recorded) {p : PowerSummary}
    (hp : powerSummary lib group = some p) :
    p.wattsMean.fits = true ∧ p.uncertaintyWatts.fits = true := by
  have hbounds := fun p hp => powers_bounds h (p := p) hp
  unfold powerSummary at hp
  cases hpowers : powers group with
  | nil =>
      rw [hpowers] at hp
      cases hp
  | cons first rest =>
      rw [hpowers] at hp hbounds
      dsimp only at hp
      split_ifs at hp
      cases hp
      constructor
      · apply fits_of_int
        intro n hn
        have hmean := hlib.mean_int _ n hn
        have hsum : |((((first :: rest).map Power.wattsMean)).map FiniteNumber.value).sum| ≤
            (((first :: rest).map Power.wattsMean).length : Rat) * 1000 := by
          apply abs_sum_le
          intro x hx
          obtain ⟨p, hp, rfl⟩ := List.mem_map.mp hx
          exact (hbounds p hp).1
        have hlength : (0 : Rat) < ((first :: rest).map Power.wattsMean).length := by
          exact_mod_cast Nat.succ_pos _
        rw [← hmean, abs_mul, abs_of_pos hlength, mul_comm] at hsum
        exact (le_of_mul_le_mul_left hsum hlength).trans (by norm_num)
      · have huncertainty : ∀ x ∈ (first :: rest).map Power.uncertaintyWatts,
            |x.value| ≤ 1000 := by
          intro x hx
          obtain ⟨p, hp, rfl⟩ := List.mem_map.mp hx
          exact (hbounds p hp).2
        have hne : (first :: rest).map Power.uncertaintyWatts ≠ [] := List.cons_ne_nil _ _
        have hmax := huncertainty _ (extreme_greatest hne).2
        rcases List.mem_cons.mp (extreme_greatest (List.cons_ne_nil _ _)).2 with heq | hmem
        · rw [heq]
          exact fits_of_le (hmax.trans (by norm_num))
        · rw [List.mem_singleton.mp hmem]
          exact div_fits hlib _ _

theorem contest_eq (lib : Library) (groups : List TrialGroup) :
    contest groups (groups.map (powerSummary lib)) = contenders lib groups := by
  have hmap : ∀ (groups : List TrialGroup) (k : Nat),
      ((groups.zipIdx k).zip (groups.map (powerSummary lib))).mapM
          (fun g => g.2.map fun p => ((g.1.2, g.1.1, p) : Contender)) =
        (groups.zipIdx k).mapM fun g => (powerSummary lib g.1).map fun p => (g.2, g.1, p) := by
    intro groups
    induction groups with
    | nil => exact fun k => rfl
    | cons g rest ih =>
        intro k
        simp only [List.zipIdx_cons, List.map_cons, List.zip_cons_cons, List.mapM_cons, ih]
  have hall := hmap groups 0
  unfold contest contenders
  generalize (groups.zipIdx.zip (groups.map (powerSummary lib))).mapM
    (fun g => g.2.map fun p => ((g.1.2, g.1.1, p) : Contender)) = summarised at hall ⊢
  generalize groups.zipIdx.mapM
    (fun g => (powerSummary lib g.1).map fun p => ((g.2, g.1, p) : Contender)) = expected at hall ⊢
  subst hall
  cases summarised with
  | none => rfl
  | some all => rfl

theorem evalOverlaps_ok {best other : Contender}
    (hbest : best.2.2.wattsMean.fits = true ∧ best.2.2.uncertaintyWatts.fits = true)
    (hother : other.2.2.wattsMean.fits = true ∧ other.2.2.uncertaintyWatts.fits = true) :
    evalOverlaps lib best other = .ok (overlaps lib best other) := by
  unfold evalOverlaps overlaps
  split_ifs with hne
  · rw [operate_ok hbest.1 hbest.2, Checked.ok_bind, operate_ok hother.1 hother.2,
      Checked.ok_bind, decide_eq_true hne]
    rfl
  · rw [decide_eq_false hne]
    rfl

theorem evalChoose_ok {p : CalibrationPolicy} (hlib : lib.Lawful) {groups : List TrialGroup}
    (h : ∀ g ∈ groups, Computable g) :
    evalChoose lib p groups = .ok (choose lib p groups) := by
  cases groups with
  | nil => rfl
  | cons first rest =>
      have hne : first :: rest ≠ [] := List.cons_ne_nil first rest
      have hmoderate : Checked.select (fun g => do
          return decide ((← evalCpu lib g).value ≤ p.recommendedCpuPercent.value))
            (first :: rest) =
          .ok ((first :: rest).filter fun g =>
            decide ((cpu lib g).value ≤ p.recommendedCpuPercent.value)) := by
        apply Checked.select_ok
        intro g hg
        rw [evalCpu_ok hlib (h g hg)]
        rfl
      have hrecommended := Checked.extremeByOrNone_ok (fun a b : List Rat => decide (b < a))
        (fun g hg => evalQuality_ok hlib (h g (List.mem_filter.mp hg).1) :
          ∀ g ∈ (first :: rest).filter fun g =>
            decide ((cpu lib g).value ≤ p.recommendedCpuPercent.value), _)
      obtain ⟨performance, -, hperformance, hevalPerformance⟩ := Checked.extremeBy_firstBest
        (fun a b : List Rat => decide (b < a))
        (fun g hg => evalQuality_ok hlib (h g hg)) hne
      obtain ⟨saver, -, hsaver, hevalSaver⟩ := Checked.extremeBy_firstBest
        (fun a b : List Rat => decide (a < b))
        (fun g hg => evalSaverKey_ok hlib (h g hg)) hne
      have hsummaries : (first :: rest).mapM (evalPowerSummary lib) =
          .ok ((first :: rest).map (powerSummary lib)) :=
        Checked.mapM_ok fun g hg => evalPowerSummary_ok hlib (h g hg).recorded
      rw [evalChoose, if_neg (by simp)]
      dsimp only
      rw [hmoderate, Checked.ok_bind, hrecommended, Checked.ok_bind, hevalPerformance,
        Checked.ok_bind, hevalSaver, Checked.ok_bind, hsummaries, Checked.ok_bind, contest_eq]
      simp only [choose]
      rw [hperformance, hsaver]
      cases hcontest : contenders lib (first :: rest) with
      | none => rfl
      | some all =>
          obtain ⟨hpower, hgroups, -, -⟩ := contenders_mem hcontest
          have hall : all ≠ [] := by
            obtain ⟨c, hc, -⟩ := hgroups first List.mem_cons_self
            exact List.ne_nil_of_mem hc
          have hfits : ∀ c ∈ all, c.2.2.wattsMean.fits = true ∧ c.2.2.uncertaintyWatts.fits = true :=
            fun c hc => powerSummary_fits hlib (h _ (hpower c hc).1).recorded (hpower c hc).2
          have hkey : ∀ c ∈ all, evalContenderKey lib c =
              .ok [c.2.2.wattsMean.value, (cpu lib c.2.1).value] := by
            intro c hc
            rw [evalContenderKey, evalCpu_ok hlib (h _ (hpower c hc).1)]
            rfl
          obtain ⟨best, hbest, hfirst, hevalBest⟩ := Checked.extremeBy_firstBest
            (fun a b : List Rat => decide (a < b)) hkey hall
          have hoverlap : Checked.anyOf (evalOverlaps lib best) all =
              .ok (all.any (overlaps lib best)) :=
            Checked.anyOf_ok fun c hc => evalOverlaps_ok (hfits best hbest) (hfits c hc)
          dsimp only
          rw [hevalBest, Checked.ok_bind, hoverlap, Option.bind_some, hfirst]
          rfl

/-- A measured comparison has a power. -/
theorem choose_power {groups : List TrialGroup} {choice : Choice}
    (h : choose lib policy groups = some choice) (hmeasured : choice.comparison.confidence =
      "measured") : choice.comparison.power.isNone = false := by
  unfold choose at h
  split at h
  · cases h
  dsimp only at h
  split at h
  · cases h
    have hestimated : "estimated" ≠ "measured" := by decide
    exact absurd hmeasured hestimated
  · cases h
    rfl

end Choose

/-! ## The presets return -/

section Select

variable {lib : Library} {policy : CalibrationPolicy} {table : AssessmentTable}
  {assessment : TrialRecord → Assessment} {group : TrialGroup} {groups : List TrialGroup}
  {t : TrialRecord}

/-- The table holds the assessments of the trials. -/
def Tabled (table : AssessmentTable) (assessment : TrialRecord → Assessment) (trials : TrialGroup) :
    Prop :=
  ∀ t ∈ trials, table.lookup t.trialId = some (assessment t)

theorem tabled_map (assessment : TrialRecord → Assessment) {records : List TrialRecord}
    (h : (records.map TrialRecord.trialId).Nodup) :
    Tabled ((records.map TrialRecord.trialId).zip (records.map assessment)) assessment records := by
  induction records with
  | nil =>
      intro t ht
      cases ht
  | cons r records ih =>
      obtain ⟨hr, hrecords⟩ := List.nodup_cons.mp h
      intro t ht
      rw [List.map_cons, List.map_cons, List.zip_cons_cons, List.lookup_cons]
      rcases List.mem_cons.mp ht with rfl | ht
      · rw [beq_self_eq_true]
      · have hne : (t.trialId == r.trialId) = false := by
          rw [beq_eq_false_iff_ne]
          intro heq
          apply hr
          rw [← heq]
          exact List.mem_map_of_mem ht
        rw [hne]
        exact ih hrecords t ht

theorem evalRow_ok (h : Tabled table assessment group) (ht : t ∈ group) :
    evalRow table t = .ok (assessment t) := by
  rw [evalRow, Checked.entry, h t ht]

theorem row_eq (h : Tabled table assessment group) (ht : t ∈ group) : row table t = assessment t := by
  rw [row, h t ht]
  rfl

theorem presetOf_congr {f g : TrialRecord → Assessment} (h : ∀ t ∈ group, f t = g t)
    (lib : Library) (key : PresetName) (t : TrialRecord) (comparison : Comparison)
    (provisional : Bool) :
    presetOf lib f key group t comparison provisional =
      presetOf lib g key group t comparison provisional := by
  have hany : ∀ p : Assessment → Bool, (group.any fun t => p (f t)) = group.any fun t => p (g t) := by
    intro p
    rw [Bool.eq_iff_iff, List.any_eq_true, List.any_eq_true]
    apply exists_congr
    intro t
    apply and_congr_right
    intro ht
    rw [h t ht]
  simp only [presetOf, hany Assessment.physicalConfirmed, hany Assessment.thermalValidated]

theorem evalPreset_ok (hlib : lib.Lawful) (key : PresetName) {comparison : Comparison}
    (provisional : Bool) (hgroup : Computable group) (htable : Tabled table assessment group)
    (hpower : comparison.confidence = "measured" → comparison.power.isNone = false) :
    evalPreset lib table key (some group) comparison provisional =
      .ok (preset lib assessment key (some group) comparison provisional) := by
  have helapsed : ∀ t ∈ group, Checked.known (t.metric .elapsedS) =
      .ok ((t.metric .elapsedS).getD (.int 0)) := by
    intro t ht
    obtain ⟨d, hd⟩ := (hgroup.loaded t ht).elapsed
    rw [hd]
    rfl
  have hpeaks : (group.mapM fun t => Checked.known (t.metric .temperaturePeakC)) =
      .ok (group.map fun t => (t.metric .temperaturePeakC).getD (.int 0)) := by
    apply Checked.mapM_ok
    intro t ht
    obtain ⟨x, hx⟩ := (hgroup.loaded t ht).temperature
    rw [hx]
    rfl
  have hrows : group.mapM (evalRow table) = .ok (group.map assessment) :=
    Checked.mapM_ok fun t ht => evalRow_ok htable ht
  obtain ⟨t, ht, hbest, heval⟩ := Checked.extremeBy_firstBest greater helapsed hgroup.nonempty
  have hlonger : firstBest longer group = some t := by
    rw [← hbest]
    apply Checked.firstBest_congr
    intro a ha b hb
    obtain ⟨d, hd⟩ := (hgroup.loaded a ha).elapsed
    obtain ⟨e, he⟩ := (hgroup.loaded b hb).elapsed
    rw [longer, hd, he]
    rfl
  have hnonempty : (group.map fun t => (t.metric .temperaturePeakC).getD (.int 0)) ≠ [] := by
    simpa using hgroup.nonempty
  have hmeasured : ¬ (key = .batterySaver ∧ comparison.confidence = "measured" ∧
      comparison.power.isNone = true) := by
    rintro ⟨-, hconfidence, hnone⟩
    rw [hpower hconfidence] at hnone
    cases hnone
  rw [evalPreset, heval, Checked.ok_bind, hrows, Checked.ok_bind, evalCpu_ok hlib hgroup,
    Checked.ok_bind, hpeaks, Checked.ok_bind, (extreme_greatest hnonempty).1, Checked.ok_bind,
    if_neg hmeasured, preset, hlonger,
    presetOf_congr (fun t ht => row_eq htable ht) lib key t comparison provisional]
  rfl

theorem evalEntry_ok {p : CalibrationPolicy} (hlib : lib.Lawful) (hgroups : ∀ g ∈ groups, Computable g)
    (htable : ∀ g ∈ groups, Tabled table assessment g) (otherwise : String) (key : PresetName)
    (provisional : Bool) : evalEntry lib table (choose lib p groups) otherwise key provisional =
      .ok (match choose lib p groups with
        | some choice =>
            preset lib assessment key (choice.selected key) choice.comparison provisional
        | none => unavailable otherwise) := by
  cases hchoice : choose lib p groups with
  | none => rfl
  | some choice =>
      dsimp only [evalEntry]
      cases hselected : choice.selected key with
      | none => rfl
      | some g =>
          have hg := choose_mem hchoice hselected
          exact evalPreset_ok hlib key provisional (hgroups g hg) (htable g hg)
            (choose_power hchoice)

variable {trials : TrialGroup}

theorem evalMeasured_ok (h : Tabled table assessment group) :
    evalMeasured table group = .ok (measured assessment group) := by
  apply Checked.select_ok
  intro t ht
  by_cases hcompleted : t.outcome = .completed
  · rw [if_pos hcompleted, evalRow_ok h ht, decide_eq_true hcompleted]
    rfl
  · rw [if_neg hcompleted, decide_eq_false hcompleted]
    rfl

theorem evalPassing_ok (h : ∀ g ∈ groups, Tabled table assessment g) :
    evalPassing table groups = .ok (passing assessment groups) := by
  have hheld : groups.mapM (evalMeasured table) = .ok (groups.map (measured assessment)) :=
    Checked.mapM_ok fun g hg => evalMeasured_ok (h g hg)
  rw [evalPassing, hheld, Checked.ok_bind]
  apply Checked.select_ok
  intro group hgroup
  obtain ⟨g, hg, rfl⟩ := List.mem_map.mp hgroup
  have hrows : Checked.allOf (fun t => do return (← evalRow table t).softwarePassed)
      (measured assessment g) =
        .ok ((measured assessment g).all fun t => (assessment t).softwarePassed) := by
    apply Checked.allOf_ok
    intro t ht
    rw [evalRow_ok (h g hg) (measured_mem.mp ht).1]
    rfl
  cases hempty : (measured assessment g).isEmpty with
  | true => rfl
  | false =>
      rw [if_neg Bool.false_ne_true, hrows]
      rfl

theorem evalQualified_ok (h : ∀ g ∈ passing assessment groups, Tabled table assessment g) :
    evalQualified table (passing assessment groups) = .ok (qualified assessment groups) := by
  apply Checked.select_ok
  intro group hgroup
  have hthermal : Checked.anyOf (fun t => do return (← evalRow table t).thermalValidated) group =
      .ok (group.any fun t => (assessment t).thermalValidated) := by
    apply Checked.anyOf_ok
    intro t ht
    rw [evalRow_ok (h group hgroup) ht]
    rfl
  have hphysical : Checked.anyOf (fun t => do return (← evalRow table t).physicalConfirmed) group =
      .ok (group.any fun t => (assessment t).physicalConfirmed) := by
    apply Checked.anyOf_ok
    intro t ht
    rw [evalRow_ok (h group hgroup) ht]
    rfl
  rw [hthermal, Checked.ok_bind, hphysical]
  cases group.any fun t => (assessment t).thermalValidated with
  | true => rfl
  | false => rfl

end Select

section Records

variable {lib : Library} {enc : Encoding} {context workload : String} {modes : List WireMode}
  {policy : CalibrationPolicy} {records : List TrialRecord} {group : TrialGroup}

theorem candidateKey_known (enc : Encoding) (t : TrialRecord) :
    ∃ raw, candidateKey enc t = some raw := by
  apply enc.dumps_printable
  simp only [PyValue.printable, PyValue.printableItems, sortedProfile_printable,
    runtime_printable, Bool.and_self]

/-- What the selection computes with is known of every group that passed. -/
theorem passingGroups_computable (hpolicy : policy.check = .ok ()) (hfew : records.length ≤ 32)
    (hrecorded : ∀ t ∈ records, t.Recorded)
    (h : group ∈ passingGroups lib enc context workload modes policy records) :
    Computable group := by
  obtain ⟨hne, hpasses, -, -⟩ := passingGroups_spec h
  obtain ⟨⟨g, hg, rfl⟩, -, -⟩ := passing_mem.mp h
  obtain ⟨x, -, rfl⟩ := mem_groupBy.mp hg
  constructor
  case nonempty => exact hne
  case bounded =>
    exact (List.length_filter_le _ _).trans ((List.length_filter_le _ _).trans hfew)
  case loaded =>
    intro t ht
    obtain ⟨hrecord, -, hpass⟩ := hpasses t ht
    exact loaded_of_passes hpolicy (hrecorded t hrecord) hpass
  case recorded => exact fun t ht => hrecorded t (hpasses t ht).1

end Records

/-- A selection of recorded trials returns, with the value of the pure expressions. -/
theorem select_presets_total {lib : Library} (hlib : lib.Lawful) (enc : Encoding)
    {trials : List PyValue} {contextId workloadId : PyValue} {advertisedModes : List PyValue}
    {policy : CalibrationPolicy} {context workload : String} {modes : List WireMode}
    {records : List TrialRecord} (hpolicy : policy.check = .ok ())
    (hcontext : text contextId "context_id" 160 = .ok context)
    (hworkload : text workloadId "workload_id" 160 = .ok workload)
    (hmodes : advertisedModes.mapM mode = .ok modes) (hfew : advertisedModes.length ≤ 32)
    (htrials : trials.length ≤ policy.maxTrials.1)
    (hrecords : trials.mapM (recordTrial lib) = .ok records)
    (hdistinct : (records.map TrialRecord.trialId).Nodup)
    (hcandidates : (groupBy (candidateKey enc) records).length ≤ policy.maxCandidates.1) :
    evalSelectPresets lib enc trials contextId workloadId advertisedModes policy =
      .ok (selectionOf lib enc context workload modes policy records) := by
  obtain ⟨hlength, hsources⟩ := mem_of_mapM_ok hrecords
  have hrecorded : ∀ t ∈ records, t.Recorded := by
    intro t ht
    obtain ⟨value, -, hvalue⟩ := hsources t ht
    exact recordTrial_recorded hlib hvalue
  have hbounded : records.length ≤ 32 := by
    have hmax := policy.maxTrials.2.2
    omega
  have hkeys : records.mapM (fun t => Checked.known (candidateKey enc t)) =
      .ok (records.map fun t => (candidateKey enc t).getD []) := by
    apply Checked.mapM_ok
    intro t _
    obtain ⟨raw, hraw⟩ := candidateKey_known enc t
    rw [hraw]
    rfl
  have hassessed : records.mapM (evalAssess lib context workload modes policy) =
      .ok (records.map (assess lib context workload modes policy)) :=
    Checked.mapM_ok fun t ht => evalAssess_ok hlib hpolicy (hrecorded t ht)
  have htable := tabled_map (assess lib context workload modes policy) hdistinct
  have hgroups : ∀ g ∈ groupBy (candidateKey enc) records,
      Tabled ((records.map TrialRecord.trialId).zip
        (records.map (assess lib context workload modes policy)))
        (assess lib context workload modes policy) g := by
    intro g hg t ht
    exact htable t ((mem_group_iff hg ht).mp ht).1
  have hpassing : ∀ g ∈ passing (assess lib context workload modes policy)
      (groupBy (candidateKey enc) records), Computable g ∧
      Tabled ((records.map TrialRecord.trialId).zip
        (records.map (assess lib context workload modes policy)))
        (assess lib context workload modes policy) g := by
    intro g hg
    refine ⟨passingGroups_computable hpolicy hbounded hrecorded hg, fun t ht => ?_⟩
    exact htable t ((passingGroups_spec hg).2.1 t ht).1
  have hqualified : ∀ g ∈ qualified (assess lib context workload modes policy)
      (groupBy (candidateKey enc) records), g ∈ passing (assess lib context workload modes policy)
        (groupBy (candidateKey enc) records) :=
    fun g hg => (qualified_mem.mp hg).1
  have hpassed := evalPassing_ok hgroups
  have haccepted := evalQualified_ok fun g hg => (hpassing g hg).2
  have hprovisional := evalChoose_ok (p := policy) hlib fun g hg => (hpassing g hg).1
  have hselected := evalChoose_ok (p := policy) hlib fun g hg => (hpassing g (hqualified g hg)).1
  have hshort := fun key => evalEntry_ok hlib (fun g hg => (hpassing g hg).1)
    (fun g hg => (hpassing g hg).2) (p := policy)
    "No candidate passed the measured software and safety criteria." key true
  have hoffered := fun otherwise key => evalEntry_ok hlib
    (fun g hg => (hpassing g (hqualified g hg)).1)
    (fun g hg => (hpassing g (hqualified g hg)).2) (p := policy) otherwise key false
  unfold evalSelectPresets
  dsimp only
  rw [hcontext, hworkload, hmodes, hrecords]
  simp only [Except.mapError, Checked.ok_bind]
  rw [if_neg (not_lt.mpr htrials), if_neg (not_lt.mpr hfew), if_neg (not_not.mpr hdistinct), hkeys]
  simp only [Checked.pure_eq, Checked.ok_bind]
  rw [if_neg (not_lt.mpr hcandidates), hassessed, Checked.ok_bind, hpassed, Checked.ok_bind,
    haccepted, Checked.ok_bind, hprovisional, Checked.ok_bind, hselected, Checked.ok_bind,
    hshort, Checked.ok_bind, hshort, Checked.ok_bind, hshort, Checked.ok_bind,
    hoffered, Checked.ok_bind, hoffered, Checked.ok_bind, hoffered, Checked.ok_bind]
  apply congrArg Except.ok
  simp only [selectionOf, Selection.mk.injEq, true_and]
  constructor
  · ext key
    cases key <;> rfl
  · ext key
    cases key <;> rfl

/-- Two trials of one candidate under the default policy. -/
theorem select_presets_total_two_trials :
    ∃ records, [sampleTrial "a" (.float 2) 0, sampleTrial "b" (.float 2) 1].mapM
        (recordTrial .binary64) = .ok records ∧
      evalSelectPresets .binary64 .tagged [sampleTrial "a" (.float 2) 0, sampleTrial "b" (.float 2) 1]
        (.str "pi") (.str "desktop") [.list [.int 1280, .int 720, .int 30]] .default =
          .ok (selectionOf .binary64 .tagged "pi" "desktop" [(1280, 720, 30)] .default records) := by
  have hrun : ([sampleTrial "a" (.float 2) 0, sampleTrial "b" (.float 2) 1].mapM
      (recordTrial .binary64)).toOption.any (fun records =>
        decide ((records.map TrialRecord.trialId).Nodup) &&
        decide ((groupBy (candidateKey .tagged) records).length ≤ 8)) = true := by
    decide +kernel
  simp only [Option.any_eq_true, Bool.and_eq_true, decide_eq_true_eq] at hrun
  obtain ⟨records, hrecords, hdistinct, hcandidates⟩ := hrun
  refine ⟨records, ok_of_toOption hrecords, ?_⟩
  exact select_presets_total Library.binary64_lawful .tagged (by decide +kernel)
    (by decide +kernel) (by decide +kernel) (by decide +kernel) (by decide)
    (by decide) (ok_of_toOption hrecords) hdistinct (Int.ofNat_le.mpr hcandidates)

end HccastWired.Calibration
