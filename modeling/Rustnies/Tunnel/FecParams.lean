import Rustnies.Fec.AdaptiveLaws
import Rustnies.Tunnel.Pairing
import Mathlib.Tactic.Linarith
import Mathlib.Tactic.Ring

/-! # The parameters a tunnel encodes with

`configure_fec` looks at the parameters a configuration starts with. The controller later
clamps the level to the configured range and takes from `k` what the level leaves of 255,
so that the range itself decides whether a source symbol is always left.
-/

namespace Rustnies

/-- The parameters make a group, and keep to the bounds where these are a range. -/
structure FecParams.Within (lo hi : UInt8) (p : FecParams) : Prop where
  source : 1 ≤ p.k
  symbols : p.k.toNat + p.m.toNat ≤ 255
  bounds : lo ≤ hi → lo ≤ p.m ∧ p.m ≤ hi

/-- What moves the parameters of a running tunnel. -/
inductive FecOp where
  | observe (loss : ℚ)
  | observeUnrecoverable (lost total : Nat)
  | applyFecParams

/-- The parameters at the start leave no source symbol, so that the defaults are taken. -/
def FecConfig.FallsBack (fc : FecConfig) : Prop := fc.k = 0 ∨ fc.initialM = 255
  deriving Decidable

/-- The range leaves room for a source symbol and has the initial level in it; where the
    defaults are taken, their levels are in the range. -/
def FecConfig.Safe (fc : FecConfig) : Prop :=
  (fc.FallsBack ∧ (fc.minM ≤ fc.maxM → fc.minM = 0 ∧ 4 ≤ fc.maxM)) ∨
    (¬ fc.FallsBack ∧ fc.minM ≠ 255 ∧ fc.maxM ≠ 255 ∧
      (fc.minM ≤ fc.maxM → fc.minM ≤ fc.initialM ∧ fc.initialM ≤ fc.maxM))

namespace Tunnel

variable {σ : Type} {t t' : Tunnel σ}

def fecStep (t : Tunnel σ) : FecOp → Option (Tunnel σ)
  | .observe loss => some { t with fec := t.fec.observe loss }
  | .observeUnrecoverable lost total => some { t with fec := t.fec.observeUnrecoverable lost total }
  | .applyFecParams => some t.applyFecParams

/-- What the parameters keep to under an active scheme, and under an inactive one. -/
def FecHolds (cfg : Config σ) (fc : FecConfig) (t : Tunnel σ) : Prop :=
  (cfg.fec.active = true → t.fecParams.Within fc.minM fc.maxM) ∧
    (cfg.fec.active = false → t.fecParams.m = 0)

/-- The parameters for a level. -/
def paramsAt (k m : UInt8) : FecParams := ⟨min k (255 - m), m⟩

theorem toNat_paramsAt_k (k m : UInt8) : (paramsAt k m).k.toNat = min k.toNat (255 - m.toNat) := by
  have whole : m ≤ 255 := UInt8.le_iff_toNat_le.mpr (Nat.le_of_lt_succ m.toNat_lt)
  rw [paramsAt, UInt8.toNat_min, UInt8.toNat_sub_of_le _ _ whole]
  rfl

theorem paramsAt_within_iff {lo hi k m : UInt8} :
    (paramsAt k m).Within lo hi ↔ k ≠ 0 ∧ m ≠ 255 ∧
    (lo ≤ hi → lo ≤ m ∧ m ≤ hi) := by
  have sources : 1 ≤ (paramsAt k m).k ↔ k ≠ 0 ∧ m ≠ 255 := by
    rw [UInt8.le_iff_toNat_le, toNat_paramsAt_k, ne_eq,
      ne_eq, ← UInt8.toNat_inj, ← UInt8.toNat_inj]
    have small := m.toNat_lt
    simp only [UInt8.reduceToNat]
    omega
  constructor
  · intro within
    exact ⟨(sources.mp within.source).1, (sources.mp within.source).2, within.bounds⟩
  · rintro ⟨source, room, bounds⟩
    refine ⟨sources.mpr ⟨source, room⟩, ?_, bounds⟩
    have small := m.toNat_lt
    rw [toNat_paramsAt_k]
    simp only [paramsAt]
    omega

theorem fecStep_cases {op : FecOp} (stepped : t.fecStep op = some t') :
    (t' = t ∨ (∃ loss, t' = { t with fec := t.fec.observe loss })) ∨
    t' = t.applyFecParams := by
  cases op with
  | observe loss =>
      cases stepped
      exact .inl (.inr ⟨loss, rfl⟩)
  | observeUnrecoverable lost total =>
      cases stepped
      simp only [AdaptiveFec.observeUnrecoverable]
      split
      · exact .inl (.inl rfl)
      · exact .inl (.inr ⟨_, rfl⟩)
  | applyFecParams =>
      cases stepped
      exact .inr rfl

/-- The controller has the bounds it started with, and its level and that of the parameters
    are good ones. -/
structure KeepsTo (good : UInt8 → Prop) (t u : Tunnel σ) : Prop where
  k : u.fec.k = t.fec.k
  minM : u.fec.minM = t.fec.minM
  maxM : u.fec.maxM = t.fec.maxM
  level : good u.fec.currentM
  params : ∃ m, good m ∧ u.fecParams = paramsAt t.fec.k m

theorem KeepsTo.fecStep {good : UInt8 → Prop} {u u' : Tunnel σ} {op : FecOp}
    (keeps : KeepsTo good t u) (clamped : ∀ m, good (t.fec.clamp m))
    (stepped : Tunnel.fecStep u op = some u') : KeepsTo good t u' := by
  rcases fecStep_cases stepped with (rfl | ⟨loss, rfl⟩) | rfl
  · exact ⟨keeps.k, keeps.minM, keeps.maxM, keeps.level, keeps.params⟩
  · refine ⟨keeps.k, keeps.minM, keeps.maxM, ?_, keeps.params⟩
    have next := clamped (u.fec.floored (u.fec.smoothed loss))
    rw [AdaptiveFec.clamp, ← keeps.minM, ← keeps.maxM] at next
    exact next
  · exact ⟨keeps.k, keeps.minM, keeps.maxM, keeps.level, u.fec.currentM, keeps.level,
      by rw [← keeps.k]; rfl⟩

theorem fecParams_of_run (good : UInt8 → Prop) {ops : List FecOp}
    (ran : Runs.run fecStep t ops = some t') (start : good t.fec.currentM)
    (clamped : ∀ m, good (t.fec.clamp m)) (fresh : t.fecParams = t.fec.params) :
    ∃ m, good m ∧ t'.fecParams = paramsAt t.fec.k m := by
  have first : KeepsTo good t t := ⟨rfl, rfl, rfl, start, t.fec.currentM, start, fresh⟩
  have kept : KeepsTo good t t' :=
    Runs.invariant (fun _ _ _ stepped keeps => keeps.fecStep clamped stepped) ran first
  exact kept.params

/-! ## What a configuration sets up -/

/-- The controller of a configuration. -/
def controllerOf (fc : FecConfig) : AdaptiveFec ℚ :=
  .withParams fc.k fc.minM fc.maxM fc.initialM (25 / 100)

theorem configureFec_inactive {cfg : Config σ} (inactive : cfg.fec.active = false) (t : Tunnel σ)
    (fc : FecConfig) :
    t.configureFec cfg fc = { t with
      fec := controllerOf ⟨fc.k, 0, 0, 0⟩
      fecParams := paramsAt fc.k 0 } := by
  simp only [configureFec, inactive]
  rfl

theorem configureFec_active {cfg : Config σ} (active : cfg.fec.active = true) (t : Tunnel σ)
    (fc : FecConfig) :
    t.configureFec cfg fc =
      if fc.FallsBack then { t with fec := .defaultForVpn, fecParams := paramsAt 1 2 }
      else { t with fec := controllerOf fc, fecParams := paramsAt fc.k fc.initialM } := by
  have test : (paramsAt fc.k fc.initialM).k = 0 ∨
      255 < (paramsAt fc.k fc.initialM).k.toNat + (paramsAt fc.k fc.initialM).m.toNat ↔
      fc.FallsBack := by
    have small := fc.initialM.toNat_lt
    rw [FecConfig.FallsBack, ← UInt8.toNat_inj,
      toNat_paramsAt_k, ← UInt8.toNat_inj, ← UInt8.toNat_inj]
    simp only [paramsAt, UInt8.reduceToNat, UInt8.toNat_zero]
    omega
  have first : (AdaptiveFec.withParams fc.k fc.minM fc.maxM fc.initialM (25 / 100 : ℚ)).params =
      paramsAt fc.k fc.initialM := rfl
  simp only [configureFec, active, Bool.not_true, Bool.false_eq_true, if_false, if_true, first]
  by_cases back : fc.FallsBack
  · rw [if_pos back, if_pos (test.mpr back)]
    rfl
  · rw [if_neg back, if_neg (mt test.mp back)]
    rfl

/-! ## When the parameters hold -/

theorem inactive_pinned {cfg : Config σ} (inactive : cfg.fec.active = false) {fc : FecConfig}
    {ops : List FecOp} (ran : Runs.run fecStep (t.configureFec cfg fc) ops = some t') :
    t'.fecParams.m = 0 := by
  rw [configureFec_inactive inactive] at ran
  have clamped : ∀ m, (controllerOf ⟨fc.k, 0, 0, 0⟩).clamp m = 0 := fun m => by
    rw [← UInt8.toNat_inj, AdaptiveFec.toNat_clamp]
    exact (Nat.max_zero _).trans (Nat.min_zero m.toNat)
  obtain ⟨m, pinned, params⟩ := fecParams_of_run (· = 0) ran rfl clamped rfl
  rw [params]
  exact pinned

theorem within_of_run {u : Tunnel σ} {ops : List FecOp} (ran : Runs.run fecStep u ops = some t')
    (fresh : u.fecParams = u.fec.params) (source : u.fec.k ≠ 0) (least : u.fec.minM ≠ 255)
    (most : u.fec.maxM ≠ 255) (room : u.fec.currentM ≠ 255)
    (inside : u.fec.minM ≤ u.fec.maxM → u.fec.minM ≤ u.fec.currentM ∧
      u.fec.currentM ≤ u.fec.maxM) :
    t'.fecParams.Within u.fec.minM u.fec.maxM := by
  let Good (m : UInt8) : Prop :=
    m ≠ 255 ∧ (u.fec.minM ≤ u.fec.maxM → u.fec.minM ≤ m ∧ m ≤ u.fec.maxM)
  have clamped : ∀ m, Good (u.fec.clamp m) := fun m => by
    have lowest := u.fec.minM.toNat_lt
    have highest := u.fec.maxM.toNat_lt
    simp only [Good, ne_eq, ← UInt8.toNat_inj, UInt8.le_iff_toNat_le, AdaptiveFec.toNat_clamp,
      UInt8.reduceToNat] at least most ⊢
    omega
  obtain ⟨m, ⟨below, bounds⟩, params⟩ :=
    fecParams_of_run Good ran ⟨room, inside⟩ clamped fresh
  rw [params]
  exact paramsAt_within_iff.mpr ⟨source, below, bounds⟩

theorem run_lossy (t : Tunnel σ) (n : Nat) : ∃ x c,
    Runs.run fecStep t (List.replicate n (.observeUnrecoverable 1 1)) =
        some { t with fec := { t.fec with smoothedLoss := x, currentM := c } } ∧
      1 - x = (1 - t.fec.emaAlpha) ^ n * (1 - t.fec.smoothedLoss) := by
  induction n generalizing t with
  | zero => exact ⟨t.fec.smoothedLoss, t.fec.currentM, rfl, by ring⟩
  | succ n ih =>
      obtain ⟨x, c, ran, near⟩ := ih { t with fec := t.fec.observeUnrecoverable 1 1 }
      have one : t.fec.observeUnrecoverable 1 1 = t.fec.observe 1 := by
        simp [AdaptiveFec.observeUnrecoverable]
      have next : (t.fec.observe 1).smoothedLoss =
          t.fec.smoothedLoss * (1 - t.fec.emaAlpha) + 1 * t.fec.emaAlpha := rfl
      have rate : (t.fec.observe 1).emaAlpha = t.fec.emaAlpha := rfl
      refine ⟨x, c, ?_, ?_⟩
      · rw [List.replicate_succ, Runs.run_cons]
        exact ran
      · rw [near]
        simp only [one, next, rate]
        ring

theorem clamp_full {f : AdaptiveFec ℚ} {m : UInt8}
    (full : f.minM = 255 ∨ f.maxM = 255 ∧ m = 255) :
    f.clamp m = 255 := by
  have lowest := f.minM.toNat_lt
  have level := m.toNat_lt
  simp only [← UInt8.toNat_inj, AdaptiveFec.toNat_clamp, UInt8.reduceToNat] at full ⊢
  omega

theorem not_within_full {lo hi k : UInt8} : ¬ (paramsAt k 255).Within lo hi :=
  fun within => (paramsAt_within_iff.mp within).2.1 rfl

theorem observe_top {f : AdaptiveFec ℚ} {fc : FecConfig} (top : f.maxM = 255)
    (most : fc.maxM = 255) (up : f.up = (controllerOf fc).up)
    (down : f.down = f.up.map (· * (7 / 10))) (high : (89 : ℚ) / 100 < f.smoothed 1) :
    (f.observeUnrecoverable 1 1).currentM = 255 := by
  have below : ∀ t ∈ f.up, t ≤ 89 / 100 :=
    up ▸ AdaptiveFec.withParams_up_le fc.k fc.minM fc.maxM fc.initialM _
  have length : f.up.length = 254 + 1 := by
    rw [up, controllerOf, AdaptiveFec.withParams, List.length_map, List.length_range, most]
    rfl
  have floored : f.floored (f.smoothed 1) = 255 := by
    rw [AdaptiveFec.floored_top length (fun t member => (below t member).trans_lt high) ?_ (by
      linarith), top]
    · rfl
    · intro d member falls
      rw [down] at member
      obtain ⟨u, among, rfl⟩ := List.mem_map.mp member
      have bounded := below u among
      linarith
  have one : f.observeUnrecoverable 1 1 = f.observe 1 := by
    simp [AdaptiveFec.observeUnrecoverable]
  rw [one, AdaptiveFec.observe_currentM, floored]
  exact clamp_full (.inr ⟨top, rfl⟩)

/-- Eight windows of lost packets bring the smoothed loss of a new controller above every
    threshold. -/
theorem smoothed_of_lossy {f : AdaptiveFec ℚ} (rate : f.emaAlpha = 25 / 100)
    (near : 1 - f.smoothedLoss = (1 - 25 / 100) ^ 8 * (1 - 0)) :
    (89 : ℚ) / 100 < f.smoothed 1 := by
  norm_num at near
  have value : f.smoothedLoss = 1 - 6561 / 65536 := by linarith
  simp only [AdaptiveFec.smoothed, rate, value]
  norm_num

/-- With a maximum of 255, losing everything for a while leaves no source symbol. -/
theorem starved (t : Tunnel σ) (fc : FecConfig) (fresh : t.fec = controllerOf fc)
    (most : fc.maxM = 255) :
    ∃ ops t', Runs.run fecStep t ops = some t' ∧ t'.fecParams = paramsAt fc.k 255 := by
  obtain ⟨x, c, ran, near⟩ := run_lossy t 8
  rw [fresh] at ran near
  let f : AdaptiveFec ℚ := { controllerOf fc with smoothedLoss := x, currentM := c }
  have high : (89 : ℚ) / 100 < f.smoothed 1 := smoothed_of_lossy rfl near
  have level : (f.observeUnrecoverable 1 1).currentM = 255 := observe_top most most rfl rfl high
  refine ⟨List.replicate 8 (.observeUnrecoverable 1 1) ++
    [.observeUnrecoverable 1 1, .applyFecParams],
    applyFecParams { t with fec := f.observeUnrecoverable 1 1 }, ?_, ?_⟩
  · rw [Runs.run_append, ran]
    rfl
  · have kept : (f.observeUnrecoverable 1 1).k = fc.k := by
      simp [AdaptiveFec.observeUnrecoverable, AdaptiveFec.observe, f, controllerOf,
        AdaptiveFec.withParams]
    change paramsAt (f.observeUnrecoverable 1 1).k (f.observeUnrecoverable 1 1).currentM = _
    rw [kept, level]

/-- With up to 255 parities configured, nine windows of lost packets leave groups without a
    source symbol. -/
theorem no_source_left :
    ¬ ∀ ops (t' : Tunnel Unit), Runs.run fecStep ((sampleTunnel ⟨1, 2⟩).configureFec
        (sampleConfig .initiatorToResponder .responderToInitiator) ⟨1, 0, 255, 2⟩)
        ops = some t' →
      t'.FecHolds (sampleConfig .initiatorToResponder .responderToInitiator)
        ⟨1, 0, 255, 2⟩ := by
  intro holds
  have unshrunk : ¬ FecConfig.FallsBack ⟨1, 0, 255, 2⟩ := by decide
  have configured : ((sampleTunnel ⟨1, 2⟩).configureFec
      (sampleConfig .initiatorToResponder .responderToInitiator) ⟨1, 0, 255, 2⟩).fec =
      controllerOf ⟨1, 0, 255, 2⟩ := by
    rw [configureFec_active rfl, if_neg unshrunk]
  obtain ⟨ops, t', ran, params⟩ := starved _ _ configured rfl
  have within := (holds ops t' ran).1 rfl
  rw [params] at within
  exact not_within_full within

theorem fallback_within_iff {u : Tunnel σ} (fec : u.fec = .defaultForVpn)
    (params : u.fecParams = paramsAt 1 2) (lo hi : UInt8) :
    (∀ ops t', Runs.run fecStep u ops = some t' → t'.fecParams.Within lo hi) ↔
    (lo ≤ hi → lo = 0 ∧ 4 ≤ hi) := by
  constructor
  · intro within range
    have low := (within [.observeUnrecoverable 0 1, .applyFecParams] _ rfl).bounds range
    have high :=
      (within [.observeUnrecoverable 1 1, .observeUnrecoverable 1 1, .applyFecParams] _ rfl).bounds
      range
    have zero : ((AdaptiveFec.defaultForVpn : AdaptiveFec ℚ).observeUnrecoverable 0 1).currentM =
      0 := by
      decide +kernel
    have four : (((AdaptiveFec.defaultForVpn : AdaptiveFec ℚ).observeUnrecoverable 1
      1).observeUnrecoverable 1 1).currentM = 4 := by
      decide +kernel
    simp only [applyFecParams, AdaptiveFec.params, fec, zero, four] at low high
    exact ⟨UInt8.toNat_inj.mp (Nat.le_zero.mp (UInt8.le_iff_toNat_le.mp low.1)), high.2⟩
  · intro range ops t' ran
    have fresh : u.fecParams = u.fec.params := by
      rw [fec, params]
      rfl
    have within := within_of_run ran fresh (by rw [fec]; decide) (by rw [fec]; decide)
      (by rw [fec]; decide) (by rw [fec]; decide) (by rw [fec]; decide)
    rw [fec] at within
    refine ⟨within.source, within.symbols, fun ordered => ?_⟩
    obtain ⟨least, most⟩ := range ordered
    obtain ⟨low, high⟩ := within.bounds (show (0 : UInt8) ≤ 4 by decide)
    exact ⟨least ▸ low, UInt8.le_trans high most⟩

/-- The controller of a configuration keeps to its bounds exactly where neither is 255 and the
    initial level is within them. -/
theorem configured_within_iff {u : Tunnel σ} {fc : FecConfig} (fec : u.fec = controllerOf fc)
    (params : u.fecParams = paramsAt fc.k fc.initialM) (fits : ¬ fc.FallsBack) :
    (∀ ops t', Runs.run fecStep u ops = some t' → t'.fecParams.Within fc.minM fc.maxM) ↔
      fc.minM ≠ 255 ∧ fc.maxM ≠ 255 ∧
      (fc.minM ≤ fc.maxM → fc.minM ≤ fc.initialM ∧ fc.initialM ≤ fc.maxM) := by
  constructor
  · intro within
    refine ⟨fun least => ?_, fun most => ?_, fun range => ?_⟩
    · have starts := within [.observe 1, .applyFecParams] _ rfl
      have level : (u.fec.observe 1).currentM = 255 := by
        rw [fec]
        exact clamp_full (.inl least)
      change (paramsAt (u.fec.observe 1).k (u.fec.observe 1).currentM).Within _ _ at starts
      rw [level] at starts
      exact not_within_full starts
    · obtain ⟨ops, t', ran, none⟩ := starved u fc fec most
      have ends := within ops t' ran
      rw [none] at ends
      exact not_within_full ends
    · have starts := within [] _ rfl
      rw [params] at starts
      exact starts.bounds range
  · rintro ⟨least, most, range⟩ ops t' ran
    obtain ⟨source, room⟩ := not_or.mp fits
    have fresh : u.fecParams = u.fec.params := by
      rw [fec, params]
      rfl
    have within := within_of_run ran fresh (by rw [fec]; exact source) (by rw [fec]; exact least)
      (by rw [fec]; exact most) (by rw [fec]; exact room) (by rw [fec]; exact range)
    rw [fec] at within
    exact within

/-- The parameters hold in every run exactly under an inactive scheme or a safe
    configuration. -/
theorem fecHolds_iff (cfg : Config σ) (t : Tunnel σ) (fc : FecConfig) :
    (∀ ops t', Runs.run fecStep (t.configureFec cfg fc) ops = some t' → t'.FecHolds cfg fc) ↔
      cfg.fec.active = false ∨ fc.Safe := by
  cases active : cfg.fec.active with
  | false =>
      refine iff_of_true (fun ops t' ran => ?_) (.inl rfl)
      refine ⟨fun active' => ?_, fun _ => inactive_pinned active ran⟩
      rw [active] at active'
      cases active'
  | true =>
      have holds : ∀ u : Tunnel σ, u.FecHolds cfg fc ↔ u.fecParams.Within fc.minM fc.maxM :=
        fun u => by
        simp [FecHolds, active]
      simp only [holds, configureFec_active active, reduceCtorEq, false_or, FecConfig.Safe]
      by_cases back : fc.FallsBack
      · simp only [back, if_true, not_true, true_and, false_and, or_false]
        exact fallback_within_iff rfl rfl fc.minM fc.maxM
      · simp only [back, if_false, not_false_eq_true, true_and, false_and, false_or]
        exact configured_within_iff rfl rfl back

end Tunnel

end Rustnies
