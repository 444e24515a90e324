import Rustnies.Fec.ReedSolomon
import Mathlib.LinearAlgebra.Matrix.ToLinearEquiv

/-! # Recovery of erased sources

The code that `new` builds is the systematic code of the points `alpha^0`,
`alpha^1`, and so on, which are distinct up to 255 of them. Any `k` surviving
symbols therefore determine the sources, and the system that `decode` solves for
each byte has the sources as its only solution.
-/

namespace Rustnies

open Matrix

/-! ## Solving and inverting -/

theorem getD_ofFn {α : Type} {n : Nat} (f : Fin n → α) (i : Fin n) (d : α) :
    (List.ofFn f).getD i d = f i := by
  rw [List.getD_eq_getElem _ _ (by simp), List.getElem_ofFn]

theorem exp2_eq (e : Nat) : exp2 e = Gf256.alpha ^ e := by
  induction e with
  | zero => rfl
  | succ e ih => rw [exp2, Function.iterate_succ_apply', ← exp2, ih, pow_succ]

theorem solveSystem_augment {n : Nat} (a : Fin n → Fin n → Gf256) (b x : Fin n → Gf256)
    (regular : ∀ z : Fin n → Gf256, (∀ r, ∑ j, a r j * z j = 0) → z = 0)
    (solves : ∀ r, ∑ j, a r j * x j = b r) :
    solveSystem (augment a b) n = .ok (List.ofFn x) := by
  have size : ¬ (augment a b).length ≠ n := by
    simp [augment]
  have widths : ¬ ((augment a b).any fun row => row.length ≠ n + 1) = true := by
    simp [augment]
  have entries : (fun (r : Fin n) (j : Fin (n + 1)) => ((augment a b).getD r []).getD j 0) =
      fun r => (Fin.snoc (a r) (b r) : Fin (n + 1) → Gf256) := by
    funext r j
    rw [augment, getD_ofFn]
    refine Fin.lastCases ?_ (fun j => ?_) j
    · simp
    · rw [Fin.snoc_castSucc, List.getD_append _ _ _ _ (by simp)]
      exact getD_ofFn (a r) j 0
  rw [solveSystem, if_neg size, if_neg widths, entries]
  have solved : Gauss.solve (fun r => (Fin.snoc (a r) (b r) : Fin (n + 1) → Gf256)) = some x := by
    apply Gauss.solve_eq_some
    · intro z kills
      refine regular z fun r => ?_
      simpa only [Fin.snoc_castSucc] using kills r
    · intro r
      simpa only [Fin.snoc_castSucc, Fin.snoc_last] using solves r
  rw [solved]

theorem mul_inv_of_regular {k : Nat} {a : Matrix (Fin k) (Fin k) Gf256}
    (regular : ∀ z, a *ᵥ z = 0 → z = 0) :
    a * a⁻¹ = 1 := by
  refine Matrix.mul_nonsing_inv a (isUnit_iff_ne_zero.mpr fun singular => ?_)
  obtain ⟨z, nonzero, kills⟩ := Matrix.exists_mulVec_eq_zero_iff.mpr singular
  exact nonzero (regular z kills)

theorem solveSystem_regular {n : Nat} (a : Fin n → Fin n → Gf256) (b : Fin n → Gf256)
    (regular : ∀ z : Fin n → Gf256, (∀ r, ∑ j, a r j * z j = 0) → z = 0) :
    ∃ x, solveSystem (augment a b) n = .ok x := by
  let A : Matrix (Fin n) (Fin n) Gf256 := a
  have inverse : A * A⁻¹ = 1 :=
    mul_inv_of_regular fun z kills => regular z fun r => congrFun kills r
  refine ⟨_, solveSystem_augment a b (A⁻¹ *ᵥ b) regular fun r => ?_⟩
  have image : A *ᵥ (A⁻¹ *ᵥ b) = b := by
    rw [Matrix.mulVec_mulVec, inverse, Matrix.one_mulVec]
  exact congrFun image r

/-- Mapping a function that never fails. -/
private theorem mapM_ok {α γ ε : Type} {f : α → Except ε γ} {g : α → γ} {xs : List α}
    (ok : ∀ x ∈ xs, f x = .ok (g x)) : xs.mapM f = .ok (xs.map g) := by
  induction xs with
  | nil => rfl
  | cons x xs ih =>
      rw [List.mapM_cons, ok x List.mem_cons_self, ih fun y inside =>
        ok y (List.mem_cons_of_mem x inside)]
      rfl

theorem invertMatrix_eq {k : Nat} {a : Matrix (Fin k) (Fin k) Gf256}
    (regular : ∀ z, a *ᵥ z = 0 → z = 0) :
    invertMatrix a = .ok (a⁻¹ : Matrix (Fin k) (Fin k) Gf256) ∧ a * a⁻¹ = 1 := by
  have inverse : a * a⁻¹ = 1 := mul_inv_of_regular regular
  refine ⟨?_, inverse⟩
  have column : ∀ col ∈ List.finRange k,
      solveSystem (augment a fun r => if r = col then 1 else 0) k =
        .ok (List.ofFn fun t => a⁻¹ t col) := by
    intro col _
    apply solveSystem_augment
    · intro z kills
      exact regular z (funext kills)
    · intro r
      have entry := congrFun (congrFun inverse r) col
      rwa [Matrix.mul_apply, Matrix.one_apply] at entry
  unfold invertMatrix
  rw [mapM_ok column]
  refine congrArg Except.ok (Matrix.ext fun r col => ?_)
  have nth : (List.finRange k).map (fun col => List.ofFn fun t => a⁻¹ t col) =
      List.ofFn fun col => List.ofFn fun t => a⁻¹ t col := by
    rw [List.ofFn_eq_map]
  rw [nth, getD_ofFn, getD_ofFn]

/-! ## The code -/

namespace ReedSolomon

/-- The evaluation points. -/
def points (k m : Nat) (i : Fin (k + m)) : Gf256 := Gf256.alpha ^ i.val

theorem points_injective {k m : Nat} (small : k + m ≤ 255) : Function.Injective (points k m) := by
  intro i j same
  exact Fin.ext (Gf256.alpha_pow_injective (by omega) (by omega) same)

theorem vandermonde_eq (k m : Nat) (i : Fin (k + m)) (j : Fin k) :
    vandermonde k m i j = SystematicCode.powers (points k m) i j := by
  rw [vandermonde, exp2_eq, Gf256.alpha_pow_mod]
  exact pow_mul ..

/-- What `new` builds. -/
noncomputable abbrev code (k m : Nat) : ReedSolomon where
  k := k
  m := m
  g := SystematicCode.generator (points k m) (SystematicCode.top (points k m))⁻¹

variable {k m : Nat}

private theorem top_inverts (small : k + m ≤ 255) :
    invertMatrix (SystematicCode.top (points k m)) =
        .ok ((SystematicCode.top (points k m))⁻¹ : Matrix (Fin k) (Fin k) Gf256) ∧
      SystematicCode.top (points k m) * (SystematicCode.top (points k m))⁻¹ = 1 :=
  invertMatrix_eq fun _ => SystematicCode.top_regular (points_injective small)

theorem new_eq (positive : 1 ≤ k) (small : k + m ≤ 255) : new k m = .ok (code k m) := by
  have valid : ¬ (k = 0 ∨ 255 < k + m) := by omega
  have top : (fun i j => vandermonde k m (Fin.castAdd m i) j) = SystematicCode.top
    (points k m) := by
    funext i j
    exact vandermonde_eq ..
  rw [new, if_neg valid, top, (top_inverts small).1]
  simp only [Except.map, vandermonde_eq, code, SystematicCode.generator]
  congr 2

/-- Systematic, and determined by any `k` rows. -/
structure Mds (rs : ReedSolomon) : Prop where
  top : ∀ i j, rs.g (Fin.castAdd rs.m i) j = if i = j then 1 else 0
  regular : ∀ rows : Finset (Fin (rs.k + rs.m)), rs.k ≤ rows.card →
    ∀ z : Fin rs.k → Gf256, (∀ i ∈ rows, ∑ j, rs.g i j * z j = 0) → z = 0

theorem code_mds (small : k + m ≤ 255) : (code k m).Mds where
  top := SystematicCode.generator_top (top_inverts small).2
  regular _ enough _ vanish :=
    SystematicCode.generator_regular (points_injective small) (top_inverts small).2 enough vanish

/-! ## Encoding and decoding -/

variable {rs : ReedSolomon}

/-- The parity symbol of row `i`, over sources of length `len`. -/
def parity (rs : ReedSolomon) (len : Nat) (sources : Fin rs.k → Symbol) (i : Fin rs.m) : Symbol :=
  (List.range len).map fun b => ∑ j, rs.g (Fin.natAdd rs.k i) j * (sources j).getD b 0

@[simp]
theorem parity_length (len : Nat) (sources : Fin rs.k → Symbol) (i : Fin rs.m) :
    (rs.parity len sources i).length = len := by
  simp [parity]

theorem parity_getD {len b : Nat} (inside : b < len) (sources : Fin rs.k → Symbol)
    (i : Fin rs.m) :
    (rs.parity len sources i).getD b 0 =
      ∑ j, rs.g (Fin.natAdd rs.k i) j * (sources j).getD b 0 := by
  rw [List.getD_eq_getElem _ _ (by simpa using inside)]
  simp [parity]

theorem firstUnequal_eq_none {len : Nat} {symbols : List Symbol}
    (equal : ∀ s ∈ symbols, s.length = len) : firstUnequal len symbols = none := by
  simp only [firstUnequal, Option.map_eq_none_iff, List.find?_eq_none]
  intro s inside
  simp [equal s inside]

theorem encode_eq {len : Nat} (positive : 1 ≤ rs.k) {sources : Fin rs.k → Symbol}
    (equal : ∀ j, (sources j).length = len) :
    rs.encode (List.ofFn sources) = .ok (List.ofFn (rs.parity len sources)) := by
  have size : ¬ (List.ofFn sources).length ≠ rs.k := by
    simp
  have first : ((List.ofFn sources).getD 0 []).length = len := by
    have := getD_ofFn sources ⟨0, positive⟩ []
    rw [this, equal]
  have all : ∀ s ∈ List.ofFn sources, s.length = len := by
    intro s inside
    obtain ⟨j, rfl⟩ := (List.mem_ofFn' ..).mp inside
    exact equal j
  rw [encode, if_neg size]
  simp only [first, firstUnequal_eq_none all, Except.ok.injEq]
  conv_rhs => rw [List.ofFn_eq_map]
  refine List.map_congr_left fun i _ => List.map_congr_left fun b _ => ?_
  exact Finset.sum_congr rfl fun j _ => by rw [getD_ofFn]

private theorem filterMap_eq_map_filter {α γ : Type} {f : α → Option γ} {g : α → γ}
    {xs : List α} (agree : ∀ x ∈ xs, f x = none ∨ f x = some (g x)) :
    xs.filterMap f = (xs.filter fun x => (f x).isSome).map g := by
  induction xs with
  | nil => rfl
  | cons x xs ih =>
      have rest := ih fun y inside => agree y (List.mem_cons_of_mem x inside)
      rcases agree x List.mem_cons_self with absent | present
      · simp [absent, rest]
      · simp [present, rest]

/-- A list of `k + m` slots is its first `k` and its last `m`. -/
private theorem split_slots {α : Type} {slots : List (Option α)} (size : slots.length = k + m) :
    slots = ((List.finRange k).map fun i : Fin k => slots.getD i none) ++
      (List.finRange m).map fun i : Fin m => slots.getD (k + i) none := by
  apply List.ext_getElem
  · simp [size]
  · intro n inside _
    by_cases front : n < k
    · rw [List.getElem_append_left (by simpa using front)]
      simp [List.getElem?_eq_getElem inside]
    · rw [List.getElem_append_right (by simpa using front)]
      simp [Nat.add_sub_cancel' (Nat.not_lt.mp front), List.getElem?_eq_getElem inside]

section Decode

/-! The slots of a group, some erased: `sources` in the first `k`, their parity in
the rest, and at least `k` of them present. -/

variable {len : Nat} {sources : Fin rs.k → Symbol} {symbols : List (Option Symbol)}
  (mds : rs.Mds)
  (size : symbols.length = rs.k + rs.m)
  (equal : ∀ j, (sources j).length = len)
  (data : ∀ j : Fin rs.k, symbols.getD j none = none ∨ symbols.getD j none = some (sources j))
  (rest : ∀ i : Fin rs.m, symbols.getD (rs.k + i) none = none ∨
    symbols.getD (rs.k + i) none = some (rs.parity len sources i))
  (enough : rs.k ≤ symbols.countP Option.isSome)

/-- The surviving parity rows. -/
private def survivors (rs : ReedSolomon) (symbols : List (Option Symbol)) : List (Fin rs.m) :=
  (List.finRange rs.m).filter fun i => (symbols.getD (rs.k + i.val) none).isSome

private theorem mem_erased {j : Fin rs.k} :
    j ∈ rs.erased symbols ↔ ¬ (symbols.getD j none).isSome = true := by
  simp [erased, recovered]

private theorem erased_nodup : (rs.erased symbols).Nodup := (List.nodup_finRange rs.k).filter _

include size in
/-- The symbols present and the missing sources, against the sources and the surviving
    parity rows. -/
private theorem count_add_erased :
    symbols.countP Option.isSome + (rs.erased symbols).length = rs.k +
    (rs.survivors symbols).length := by
  have total : symbols.countP Option.isSome =
      (List.finRange rs.k).countP (fun i : Fin rs.k => (symbols.getD i none).isSome) +
        (rs.survivors symbols).length := by
    rw [survivors, ← List.countP_eq_length_filter]
    conv_lhs => rw [split_slots size]
    rw [List.countP_append, List.countP_map, List.countP_map]
    rfl
  have complement := List.length_eq_countP_add_countP
    (fun i : Fin rs.k => (symbols.getD i none).isSome) (l := List.finRange rs.k)
  have missing : (List.finRange rs.k).countP
      (fun i : Fin rs.k => ¬ (symbols.getD i none).isSome = true) =
        (rs.erased symbols).length := by
    rw [erased, ← List.countP_eq_length_filter]
    refine List.countP_congr fun i _ => ?_
    simp [recovered]
  rw [List.length_finRange] at complement
  omega

include data in
private theorem knownSum_eq (i : Fin rs.m) (b : Nat) : rs.knownSum symbols i b =
    ∑ j : Fin rs.k, if (symbols.getD j none).isSome then
      rs.g (Fin.natAdd rs.k i) j * (sources j).getD b 0 else 0 := by
  refine Finset.sum_congr rfl fun j _ => ?_
  rcases data j with absent | present
  · simp only [recovered, absent, Option.isSome_none, Bool.false_eq_true, if_false]
  · simp only [recovered, present, Option.isSome_some, if_true]

variable (symbols) in
/-- A sum over all sources is the sum over the known and over the missing ones. -/
private theorem sum_split (f : Fin rs.k → Gf256) :
    ∑ j, f j = (∑ j : Fin rs.k, if (symbols.getD j none).isSome then f j else 0) +
      ∑ t : Fin (rs.erased symbols).length, f (rs.erased symbols)[t] := by
  have absent : ∑ t : Fin (rs.erased symbols).length, f (rs.erased symbols)[t] =
      ∑ j ∈ (rs.erased symbols).toFinset, f j := by
    rw [List.sum_toFinset _ erased_nodup, ← Fin.sum_univ_fun_getElem]
    rfl
  rw [absent, ← Finset.sum_filter, ← Finset.sum_filter_add_sum_filter_not Finset.univ
    (fun j : Fin rs.k => (symbols.getD j none).isSome = true)]
  congr 1
  refine Finset.sum_congr ?_ fun _ _ => rfl
  ext j
  simp only [Finset.mem_filter, Finset.mem_univ, true_and, List.mem_toFinset, mem_erased]

variable (rs symbols len) in
private theorem eqRows_eq : rs.eqRows symbols len =
    (rs.survivors symbols).map fun i => ((rs.erased symbols).map (rs.g (Fin.natAdd rs.k i)),
      (List.range len).map fun b =>
        ((symbols.getD (rs.k + i.val) none).getD []).getD b 0 - rs.knownSum symbols i b) := by
  rw [eqRows, filterMap_eq_map_filter
    (g := fun i =>
    ((rs.erased symbols).map (rs.g (Fin.natAdd rs.k i)), (List.range len).map fun b =>
      ((symbols.getD (rs.k + i.val) none).getD []).getD b 0 - rs.knownSum symbols i b))]
  · simp only [survivors, Option.isSome_map]
  · intro i _
    cases slot : symbols.getD (rs.k + i.val) none with
    | none => exact .inl rfl
    | some symbol => exact .inr rfl

variable (rs symbols) in
/-- The parity rows of the system. -/
private def chosen (le : (rs.erased symbols).length ≤ (rs.survivors symbols).length)
    (r : Fin (rs.erased symbols).length) : Fin rs.m :=
  (rs.survivors symbols).get (Fin.castLE le r)

/-- The system of a byte, whatever the symbols are. -/
private theorem byteSystem_eq (le : (rs.erased symbols).length ≤ (rs.survivors symbols).length)
    {b : Nat} (inside : b < len) : rs.byteSystem symbols len b =
      augment (fun r t => rs.g (Fin.natAdd rs.k (rs.chosen symbols le r))
        ((rs.erased symbols).get t))
      (fun r => ((symbols.getD (rs.k + (rs.chosen symbols le r).val) none).getD []).getD b 0 -
        rs.knownSum symbols (rs.chosen symbols le r) b) := by
  rw [byteSystem, eqRows_eq, ← List.map_take, List.map_map, augment]
  apply List.ext_getElem
  · simp [le]
  · intro r left right
    have row : ∀ i : Fin rs.m, (rs.erased symbols).map (rs.g (Fin.natAdd rs.k i)) =
        List.ofFn fun t => rs.g (Fin.natAdd rs.k i) ((rs.erased symbols).get t) := by
      intro i
      rw [← List.ofFn_get (rs.erased symbols), List.map_ofFn, List.ofFn_get]
      rfl
    have entry : ∀ f : Nat → Gf256, ((List.range len).map f).getD b 0 = f b := by
      intro f
      rw [List.getD_eq_getElem _ _ (by simpa using inside), List.getElem_map, List.getElem_range]
    rw [List.getElem_map, List.getElem_ofFn, List.getElem_take]
    simp only [Function.comp_apply, row, entry]
    rfl

include rest in
private theorem chosen_slot (le : (rs.erased symbols).length ≤ (rs.survivors symbols).length)
    (r : Fin (rs.erased symbols).length) :
    symbols.getD (rs.k + (rs.chosen symbols le r).val) none =
      some (rs.parity len sources (rs.chosen symbols le r)) := by
  have survives : rs.chosen symbols le r ∈ rs.survivors symbols := List.get_mem ..
  rw [survivors, List.mem_filter] at survives
  refine (rest (rs.chosen symbols le r)).resolve_left fun absent => ?_
  rw [absent] at survives
  cases survives.2

/-- The rows that a vector on the missing sources is tested against: the known
    sources and the chosen parity rows. -/
private def testRows (rs : ReedSolomon) (symbols : List (Option Symbol))
    (le : (rs.erased symbols).length ≤ (rs.survivors symbols).length) :
    Finset (Fin (rs.k + rs.m)) :=
  ((Finset.univ.filter fun j : Fin rs.k => (symbols.getD j none).isSome).map
    (Fin.castAddEmb rs.m)) ∪ Finset.univ.image fun r => Fin.natAdd rs.k (rs.chosen symbols le r)

private theorem testRows_card (le : (rs.erased symbols).length ≤ (rs.survivors symbols).length) :
    (rs.testRows symbols le).card = rs.k := by
  have disjoint : Disjoint
      ((Finset.univ.filter fun j : Fin rs.k => (symbols.getD j none).isSome).map
        (Fin.castAddEmb rs.m))
        (Finset.univ.image fun r => Fin.natAdd rs.k (rs.chosen symbols le r)) := by
    rw [Finset.disjoint_left]
    intro i left right
    obtain ⟨j, -, rfl⟩ := Finset.mem_map.mp left
    obtain ⟨r, -, same⟩ := Finset.mem_image.mp right
    have value := congrArg Fin.val same
    simp only [Fin.val_natAdd, Fin.castAddEmb_apply, Fin.val_castAdd] at value
    omega
  have distinct : Function.Injective fun r => Fin.natAdd rs.k (rs.chosen symbols le r) := by
    have nodup : (rs.survivors symbols).Nodup := (List.nodup_finRange rs.m).filter _
    exact (Fin.natAdd_injective _ _).comp
      ((List.nodup_iff_injective_get.mp nodup).comp (Fin.castLE_injective le))
  have absent : (Finset.univ.filter fun j : Fin rs.k => ¬ (symbols.getD j none).isSome =
    true).card = (rs.erased symbols).length := by
    have distinct : (rs.erased symbols).Nodup := erased_nodup
    rw [← List.toFinset_card_of_nodup distinct]
    congr 1
    ext j
    simp only [Finset.mem_filter, Finset.mem_univ, true_and, List.mem_toFinset, mem_erased]
  have total := Finset.card_filter_add_card_filter_not (s := (Finset.univ : Finset (Fin rs.k)))
    (fun j : Fin rs.k => (symbols.getD j none).isSome = true)
  rw [testRows, Finset.card_union_of_disjoint disjoint, Finset.card_map,
    Finset.card_image_of_injective _ distinct, Finset.card_univ, Fintype.card_fin]
  rw [Finset.card_univ, Fintype.card_fin, absent] at total
  exact total

include mds in
/-- The coefficients have no kernel: a vector in it, extended by zero to the known
    sources, is annihilated by `k` rows of the generator. -/
private theorem system_regular (le : (rs.erased symbols).length ≤ (rs.survivors symbols).length)
    (z : Fin (rs.erased symbols).length → Gf256)
    (kills : ∀ r, ∑ t, rs.g (Fin.natAdd rs.k (rs.chosen symbols le r))
      ((rs.erased symbols).get t) * z t = 0) : z = 0 := by
  let extended : Fin rs.k → Gf256 := fun j =>
    ∑ t, if (rs.erased symbols).get t = j then z t else 0
  have missing : ∀ t, extended ((rs.erased symbols).get t) = z t := by
    intro t
    have same : ∀ t', (rs.erased symbols).get t' = (rs.erased symbols).get t ↔ t' = t :=
      fun t' => (List.nodup_iff_injective_get.mp erased_nodup).eq_iff
    simp only [extended, same, Finset.sum_ite_eq', Finset.mem_univ, if_true]
  have known : ∀ j : Fin rs.k, (symbols.getD j none).isSome = true → extended j = 0 := by
    intro j present
    refine Finset.sum_eq_zero fun t _ => if_neg fun same => ?_
    exact mem_erased.mp (same ▸ List.get_mem (rs.erased symbols) t) present
  have row : ∀ i, ∑ j, rs.g i j * extended j =
      ∑ t, rs.g i ((rs.erased symbols).get t) * z t := by
    intro i
    rw [sum_split symbols]
    have front : (∑ j : Fin rs.k, if (symbols.getD j none).isSome
      then rs.g i j * extended j else 0) =
        0 := by
      refine Finset.sum_eq_zero fun j _ => ?_
      split
      · rename_i present
        rw [known j present, mul_zero]
      · rfl
    rw [front, zero_add]
    exact Finset.sum_congr rfl fun t _ => congrArg _ (missing t)
  have zero : extended = 0 := by
    refine mds.regular (rs.testRows symbols le) (testRows_card le).ge extended fun i inside => ?_
    rcases Finset.mem_union.mp inside with front | back
    · obtain ⟨j, present, rfl⟩ := Finset.mem_map.mp front
      rw [Finset.mem_filter] at present
      rw [Finset.sum_eq_single j]
      · rw [known j present.2, mul_zero]
      · intro j' _ other
        rw [Fin.castAddEmb_apply, mds.top, if_neg other.symm, zero_mul]
      · intro outside
        exact absurd (Finset.mem_univ j) outside
    · obtain ⟨r, -, rfl⟩ := Finset.mem_image.mp back
      rw [row]
      exact kills r
  funext t
  rw [← missing t, zero]
  rfl

include size equal data rest in
private theorem slot_length {s : Symbol} (inside : some s ∈ symbols) : s.length = len := by
  rw [split_slots size, List.mem_append, List.mem_map, List.mem_map] at inside
  rcases inside with ⟨j, -, slot⟩ | ⟨i, -, slot⟩
  · rcases data j with absent | present
    · rw [absent] at slot
      cases slot
    · rw [present] at slot
      cases slot
      exact equal j
  · rcases rest i with absent | present
    · rw [absent] at slot
      cases slot
    · rw [present] at slot
      cases slot
      exact parity_length ..

include size equal data rest in
private theorem symbol_length {s : Symbol} (inside : s ∈ symbols.filterMap id) :
    s.length = len := by
  obtain ⟨slot, inside, rfl⟩ := List.mem_filterMap.mp inside
  exact slot_length size equal data rest inside

include size equal data rest in
/-- The first symbol that is there gives the length of all. -/
private theorem firstLength_eq (some_ : 0 < symbols.countP Option.isSome) :
    symbols.findSome? (fun s => s.map List.length) = some len := by
  cases found : symbols.findSome? (fun s => s.map List.length) with
  | none =>
      have empty : symbols.countP Option.isSome = 0 := by
        rw [List.countP_eq_zero]
        intro slot inside
        have absent := List.findSome?_eq_none_iff.mp found slot inside
        rw [Option.map_eq_none_iff.mp absent]
        decide
      omega
  | some v =>
      obtain ⟨slot, inside, length⟩ := List.exists_of_findSome?_eq_some found
      obtain ⟨s, rfl, rfl⟩ := Option.map_eq_some_iff.mp length
      rw [slot_length size equal data rest inside]

include mds data rest in
/-- The system of a byte has the bytes of the missing sources as its solution. -/
private theorem solveSystem_byteSystem
    (le : (rs.erased symbols).length ≤ (rs.survivors symbols).length) {b : Nat}
    (inside : b < len) :
    solveSystem (rs.byteSystem symbols len b) (rs.erased symbols).length =
      .ok (List.ofFn fun t => (sources ((rs.erased symbols).get t)).getD b 0) := by
  rw [byteSystem_eq le inside]
  apply solveSystem_augment
  · exact system_regular mds le
  · intro r
    rw [chosen_slot rest, Option.getD_some, parity_getD inside, sum_split symbols, knownSum_eq data,
      add_sub_cancel_left]
    rfl

include data in
private theorem recovered_of_present {j : Fin rs.k} (present : j ∉ rs.erased symbols) :
    rs.recovered symbols j = some (sources j) := by
  refine (data j).resolve_left fun absent => present (mem_erased.mpr ?_)
  rw [absent]
  decide

include equal in
/-- The solutions of all bytes, read at the place of a missing source, are that source. -/
private theorem rebuilt_eq {j : Fin rs.k} (missing : j ∈ rs.erased symbols) :
    ((List.range len).map fun b => (((List.range len).map fun b => List.ofFn fun t =>
      (sources ((rs.erased symbols).get t)).getD b 0).getD b []).getD
        ((rs.erased symbols).idxOf j) 0) =
      sources j := by
  have index := List.idxOf_lt_length_of_mem missing
  have entry : ∀ b ∈ List.range len,
      (((List.range len).map fun b => List.ofFn fun t =>
        (sources ((rs.erased symbols).get t)).getD b 0).getD b []).getD
          ((rs.erased symbols).idxOf j) 0 = (sources j).getD b 0 := by
    intro b inside
    have solution : ((List.range len).map fun b => List.ofFn fun t =>
        (sources ((rs.erased symbols).get t)).getD b 0).getD b [] =
          List.ofFn fun t => (sources ((rs.erased symbols).get t)).getD b 0 := by
      rw [List.getD_eq_getElem _ _ (by simpa using inside), List.getElem_map, List.getElem_range]
    have column := getD_ofFn (fun t => (sources ((rs.erased symbols).get t)).getD b 0)
      ⟨(rs.erased symbols).idxOf j, index⟩ 0
    rw [solution, column, List.get_eq_getElem, List.getElem_idxOf]
  rw [List.map_congr_left entry]
  apply List.ext_getElem
  · simp [equal]
  · intro b left right
    simp [List.getElem?_eq_getElem right]

include mds size equal data rest enough in
theorem decode_eq (positive : 1 ≤ rs.k) : rs.decode symbols = .ok (List.ofFn sources) := by
  have le : (rs.erased symbols).length ≤ (rs.survivors symbols).length := by
    have balance := count_add_erased size
    omega
  have lengths : ∀ s ∈ symbols.filterMap id, s.length = len :=
    fun s => symbol_length size equal data rest
  have solved : ∀ b ∈ List.range len, solveSystem (rs.byteSystem symbols len b)
    (rs.erased symbols).length =
    .ok (List.ofFn fun t => (sources ((rs.erased symbols).get t)).getD b 0) := fun b inside =>
    solveSystem_byteSystem mds data rest le (List.mem_range.mp inside)
  rw [decode, if_neg (not_not.mpr size)]
  simp only [firstLength_eq size equal data rest (positive.trans enough),
    firstUnequal_eq_none lengths]
  by_cases none_missing : (rs.erased symbols).isEmpty = true
  · rw [if_pos none_missing]
    congr 2
    funext j
    rw [recovered_of_present data
      (by rw [List.isEmpty_iff.mp none_missing]; exact List.not_mem_nil)]
    rfl
  · have count : ¬ (rs.eqRows symbols len).length < (rs.erased symbols).length := by
      rw [eqRows_eq, List.length_map]
      omega
    rw [if_neg none_missing, if_neg count, mapM_ok solved]
    simp only [Except.ok.injEq]
    congr 1
    funext j
    by_cases missing : j ∈ rs.erased symbols
    · have absent : rs.recovered symbols j = none := by
        simpa [recovered] using mem_erased.mp missing
      rw [absent, Option.getD_none]
      exact rebuilt_eq equal missing
    · rw [recovered_of_present data missing, Option.getD_some]

include size equal data rest in
theorem decode_insufficient (few : symbols.countP Option.isSome < rs.k) :
    ∃ got need, rs.decode symbols = .error (.insufficient got need) := by
  have balance := count_add_erased size
  have lengths : ∀ s ∈ symbols.filterMap id, s.length = len :=
    fun s => symbol_length size equal data rest
  rw [decode, if_neg (not_not.mpr size)]
  by_cases some_ : 0 < symbols.countP Option.isSome
  · have missing : ¬ (rs.erased symbols).isEmpty = true := by
      rw [List.isEmpty_iff_length_eq_zero]
      omega
    have count : (rs.eqRows symbols len).length < (rs.erased symbols).length := by
      rw [eqRows_eq, List.length_map]
      omega
    simp only [firstLength_eq size equal data rest some_, firstUnequal_eq_none lengths]
    rw [if_neg missing, if_pos count]
    exact ⟨_, _, rfl⟩
  · have nothing : symbols.findSome? (fun s => s.map List.length) = none := by
      have empty := List.countP_eq_zero.mp (Nat.eq_zero_of_not_pos some_)
      rw [List.findSome?_eq_none_iff]
      intro slot inside
      rw [Option.not_isSome_iff_eq_none.mp (empty slot inside)]
      rfl
    rw [nothing]
    exact ⟨0, rs.k, rfl⟩

include mds in
/-- The system is never singular, whatever the symbols are. -/
theorem decode_ne_singular (symbols : List (Option Symbol)) :
    rs.decode symbols ≠ .error .singular := by
  intro failed
  unfold decode at failed
  split at failed
  · cases failed
  · rename_i size
    split at failed
    · cases failed
    · rename_i len _
      split at failed
      · cases failed
      · simp only at failed
        split at failed
        · cases failed
        · split at failed
          · cases failed
          · rename_i enough
            rw [eqRows_eq, List.length_map] at enough
            have solved : ∀ b ∈ List.range len,
                ∃ x, solveSystem (rs.byteSystem symbols len b)
                  (rs.erased symbols).length = .ok x := by
              intro b inside
              rw [byteSystem_eq (Nat.le_of_not_lt enough) (List.mem_range.mp inside)]
              exact solveSystem_regular _ _ (system_regular mds _)
            choose! x solution using solved
            rw [mapM_ok solution] at failed
            cases failed

end Decode

/-! ## Erasures -/

/-- The symbols that are kept, each in its slot. -/
def erase (kept : Nat → Bool) (symbols : List Symbol) : List (Option Symbol) :=
  symbols.mapIdx fun i symbol => if kept i then some symbol else none

theorem erase_getD (kept : Nat → Bool) {symbols : List Symbol} {i : Nat} {symbol : Symbol}
    (found : symbols[i]? = some symbol) :
    (erase kept symbols).getD i none = none ∨ (erase kept symbols).getD i none = some symbol := by
  rw [List.getD_eq_getElem?_getD, erase, List.getElem?_mapIdx, found, Option.map_some,
    Option.getD_some]
  split
  · exact .inr rfl
  · exact .inl rfl

/-- Every admissible code is built, and decodes what it encoded exactly when `k` symbols
    are kept; it never meets a singular matrix. -/
theorem decodes_iff_enough (k m : Nat) (positive : 1 ≤ k) (small : k + m ≤ 255) :
    ∃ rs, new k m = .ok rs ∧ (∀ symbols, rs.decode symbols ≠ .error .singular) ∧
      ∀ (len : Nat) (sources : List Symbol),
      sources.length = k → (∀ s ∈ sources, s.length = len) → ∃ parities,
      rs.encode sources = .ok parities ∧ parities.length = m ∧ ∀ kept :
      Nat → Bool, let slots := erase kept (sources ++ parities)
          (rs.decode slots = .ok sources ↔ k ≤ slots.countP Option.isSome) ∧
            (slots.countP Option.isSome < k →
              ∃ got need, rs.decode slots = .error (.insufficient got need)) := by
  have mds := code_mds small
  refine ⟨code k m, new_eq positive small, decode_ne_singular mds,
    fun len listed count lengths => ?_⟩
  obtain ⟨sources, rfl⟩ : ∃ sources : Fin k → Symbol, listed = List.ofFn sources := by
    subst count
    exact ⟨listed.get, (List.ofFn_get listed).symm⟩
  have equal : ∀ j, (sources j).length = len :=
    fun j => lengths _ ((List.mem_ofFn' ..).mpr ⟨j, rfl⟩)
  have encoded : (code k m).encode (List.ofFn sources) =
    .ok (List.ofFn ((code k m).parity len sources)) :=
    encode_eq positive equal
  refine ⟨_, encoded, List.length_ofFn, fun kept => ?_⟩
  intro slots
  have size : slots.length = k + m := by simp [slots, erase]
  have data : ∀ j : Fin k, slots.getD j none = none ∨
    slots.getD j none = some (sources j) := fun j =>
    erase_getD kept (by simp [List.getElem?_append_left])
  have rest : ∀ i : Fin m, slots.getD (k + i) none = none ∨
      slots.getD (k + i) none = some ((code k m).parity len sources i) := fun i =>
    erase_getD kept (by simp)
  have insufficient : slots.countP Option.isSome < (code k m).k →
      ∃ got need, (code k m).decode slots = .error (.insufficient got need) :=
    decode_insufficient size equal data rest
  refine ⟨⟨fun decoded => ?_, fun enough =>
    decode_eq mds size equal data rest enough positive⟩, insufficient⟩
  by_contra few
  obtain ⟨got, need, failed⟩ := insufficient (Nat.lt_of_not_le few)
  rw [decoded] at failed
  cases failed

/-- Two of three symbols recover two sources, one of them does not. -/
theorem two_of_three_decode : ∃ rs, new 2 1 = .ok rs ∧ ∃ parities,
    rs.encode [[1], [2]] = .ok parities ∧
    rs.decode (erase (fun i => i ≠ 0) ([[1], [2]] ++ parities)) = .ok [[1], [2]] := by
  obtain ⟨rs, made, -, codes⟩ := decodes_iff_enough 2 1 (by decide) (by decide)
  obtain ⟨parities, encoded, count, decodes⟩ := codes 1 [[1], [2]] rfl (by simp)
  refine ⟨rs, made, parities, encoded, (decodes _).1.mpr ?_⟩
  obtain ⟨parity, rfl⟩ := List.length_eq_one_iff.mp count
  simp [erase]

/-! ## What the code accepts -/

theorem valid_of_new {k m : Nat} {rs : ReedSolomon} (made : new k m = .ok rs) :
    rs.k = k ∧ 1 ≤ k ∧ k + m ≤ 255 := by
  unfold new at made
  split at made
  · cases made
  · rename_i valid
    cases inverted : invertMatrix fun i j => vandermonde k m (Fin.castAdd m i) j with
    | error e => simp [inverted, Except.map] at made
    | ok inverse =>
        simp only [inverted, Except.map, Except.ok.injEq] at made
        rw [← made]
        exact ⟨rfl, by omega⟩

theorem encode_size {rs : ReedSolomon} {sources parities : List Symbol}
    (encoded : rs.encode sources = .ok parities) : sources.length = rs.k := by
  by_contra wrong
  rw [encode, if_pos wrong] at encoded
  cases encoded

theorem decode_length {rs : ReedSolomon} {symbols : List (Option Symbol)} {sources : List Symbol}
    (decoded : rs.decode symbols = .ok sources) : sources.length = rs.k := by
  unfold decode at decoded
  split at decoded
  · cases decoded
  · split at decoded
    · cases decoded
    · split at decoded
      · cases decoded
      · simp only at decoded
        split at decoded
        · cases decoded
          exact List.length_ofFn
        · split at decoded
          · cases decoded
          · split at decoded
            · cases decoded
            · cases decoded
              exact List.length_ofFn

theorem decode_equal_lengths {rs : ReedSolomon} {symbols : List (Option Symbol)}
    {sources : List Symbol} (decoded : rs.decode symbols = .ok sources) :
    ∃ len, ∀ s, some s ∈ symbols → s.length = len := by
  unfold decode at decoded
  split at decoded
  · cases decoded
  · split at decoded
    · cases decoded
    · rename_i len _
      split at decoded
      · cases decoded
      · rename_i equal
        refine ⟨len, fun s member => ?_⟩
        have present : s ∈ symbols.filterMap id :=
          List.mem_filterMap.mpr ⟨some s, member, rfl⟩
        simp only [firstUnequal, Option.map_eq_none_iff, List.find?_eq_none, decide_eq_true_eq,
          not_not] at equal
        exact equal s present

end ReedSolomon

end Rustnies
