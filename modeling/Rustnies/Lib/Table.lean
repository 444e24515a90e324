import Mathlib.Data.List.AList
import Mathlib.Data.List.Perm.Subperm

/-! # Keyed tables

A table with one value per key, in some iteration order: Mathlib's association
lists at a constant value type. Mathlib has lookup, insertion and erasure; this
module adds `retain`, which drops every entry a predicate rejects, what is left when
several keys are erased, and how many values a predicate accepts.
-/

/-- One value of type `α` per key of type `κ`. -/
abbrev Table (κ α : Type) := AList (fun _ : κ => α)

namespace Table

variable {κ α : Type}

/-- Keep the entries that `keep` accepts, in their order. -/
def retain (keep : κ → α → Bool) (t : Table κ α) : Table κ α where
  entries := t.entries.filter fun e => keep e.1 e.2
  nodupKeys := t.nodupKeys.sublist List.filter_sublist

theorem mem_entries_retain {keep : κ → α → Bool} {t : Table κ α}
    {e : Sigma fun _ : κ => α} :
    e ∈ (t.retain keep).entries ↔ e ∈ t.entries ∧ keep e.1 e.2 = true := by
  simp only [retain, List.mem_filter]

variable [DecidableEq κ]

theorem lookup_retain_eq_some {keep : κ → α → Bool} {t : Table κ α} {k : κ} {v : α} :
    AList.lookup k (t.retain keep) = some v ↔ AList.lookup k t = some v ∧ keep k v = true := by
  rw [← Option.mem_def, ← Option.mem_def, AList.mem_lookup_iff, AList.mem_lookup_iff,
    mem_entries_retain]

@[simp]
theorem lookup_retain (keep : κ → α → Bool) (t : Table κ α) (k : κ) :
    AList.lookup k (t.retain keep) = (AList.lookup k t).filter (keep k) := by
  ext v
  simp only [lookup_retain_eq_some, Option.filter_eq_some_iff]

theorem lookup_foldl_erase {ρ : Type} (key : ρ → κ) (rs : List ρ) (t : Table κ α) (k : κ) :
    AList.lookup k (rs.foldl (fun t r => t.erase (key r)) t) =
      if k ∈ rs.map key then none else AList.lookup k t := by
  induction rs generalizing t with
  | nil => simp
  | cons r rs ih =>
      rw [List.foldl_cons, ih, List.map_cons]
      by_cases own : k = key r
      · subst own
        simp
      · simp only [List.mem_cons, own, false_or, AList.lookup_erase_ne own]

theorem entries_foldl_erase_perm {ρ : Type} (key : ρ → κ) (rs : List ρ) (t : Table κ α) :
    (rs.foldl (fun t r => t.erase (key r)) t).entries.Perm
    (t.entries.filter fun e => e.1 ∉ rs.map key) := by
  refine List.lookup_ext (AList.nodupKeys _) (t.retain fun k _ => k ∉ rs.map key).nodupKeys
    fun k v => ?_
  have erased := lookup_foldl_erase key rs t k
  have kept := lookup_retain (fun k _ => k ∉ rs.map key) t k
  simp only [AList.lookup, retain] at erased kept
  rw [erased, kept]
  by_cases gone : k ∈ rs.map key
  · simp [gone]
  · simp [gone]

/-! ## Counting values -/

/-- How many values a predicate accepts. -/
def countValues (p : α → Bool) (t : Table κ α) : Nat := t.entries.countP fun e => p e.2

/-- A table that takes its accepted values from the keys of accepted values of another
    has at most as many. -/
theorem countValues_le {p : α → Bool} {t t' : Table κ α}
    (carried : ∀ k v', AList.lookup k t' = some v' → p v' = true → ∃ v,
      AList.lookup k t = some v ∧ p v = true) :
    t'.countValues p ≤ t.countValues p := by
  have keysOf : ∀ t : Table κ α, t.countValues p = (t.retain fun _ v => p v).keys.length :=
    fun t => by
    rw [countValues, List.countP_eq_length_filter]
    exact (List.length_map _).symm
  rw [keysOf, keysOf]
  refine ((t'.retain fun _ v => p v).keys_nodup.subperm fun k inside => ?_).length_le
  obtain ⟨v', found⟩ := Option.isSome_iff_exists.mp (AList.lookup_isSome.mpr inside)
  obtain ⟨found', accepted⟩ := lookup_retain_eq_some.mp found
  obtain ⟨v, found₀, accepted₀⟩ := carried k v' found' accepted
  exact AList.lookup_isSome.mp
    (Option.isSome_iff_exists.mpr ⟨v, lookup_retain_eq_some.mpr ⟨found₀, accepted₀⟩⟩)

theorem countValues_erase_le (p : α → Bool) (t : Table κ α) (k : κ) :
    countValues p (t.erase k) ≤ t.countValues p :=
  (List.kerase_sublist k t.entries).countP_le

theorem countValues_insert_le (p : α → Bool) (t : Table κ α) (k : κ) (v : α) :
    countValues p (t.insert k v) ≤ t.countValues p + if p v then 1 else 0 := by
  have fewer := countValues_erase_le p t k
  rw [countValues, AList.entries_insert, List.countP_cons]
  exact Nat.add_le_add_right fewer _

theorem countValues_erase {p : α → Bool} {t : Table κ α} {k : κ} {v : α}
    (found : AList.lookup k t = some v) (accepted : p v = true) :
    countValues p (t.erase k) + 1 = t.countValues p := by
  have inside : k ∈ t.entries.keys :=
    AList.lookup_isSome.mp (Option.isSome_iff_exists.mpr ⟨v, found⟩)
  obtain ⟨v', before, after, -, isTable, isErased⟩ := List.exists_of_kerase inside
  have same : v' = v := by
    have : AList.lookup k t = some v' := AList.mem_lookup_iff.mpr (by rw [isTable]; simp)
    exact Option.some.inj (this.symm.trans found)
  subst same
  have erased : (t.erase k).entries = before ++ after := isErased
  simp only [countValues, erased, isTable, List.countP_append, List.countP_cons, accepted, if_true]
  omega

end Table
