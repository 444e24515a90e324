import Mathlib.Data.List.TakeWhile

/-! # Words

A text cut at its separators, without the empty pieces. In a text that neither begins nor
ends with a separator, one word is the text, and two words are the text but for the gap
between them.
-/

namespace Words

variable {α : Type} {sep : α → Bool} {xs ys w : List α}

/-- The pieces between separators that are not empty. -/
def words (sep : α → Bool) (xs : List α) : List (List α) :=
  (xs.splitOnP sep).filter fun w => !w.isEmpty

/-- Nonempty and without a separator. -/
def IsWord (sep : α → Bool) (w : List α) : Prop := w ≠ [] ∧ ∀ c ∈ w, sep c = false

def IsGap (sep : α → Bool) (gap : List α) : Prop := ∀ c ∈ gap, sep c = true

theorem words_gap {gap : List α} (separators : IsGap sep gap) (xs : List α) :
    words sep (gap ++ xs) = words sep xs := by
  induction gap with
  | nil => rfl
  | cons c gap ih =>
      have here : sep c = true := separators c List.mem_cons_self
      rw [List.cons_append, words, List.splitOnP_cons_eq_if_modifyHead, if_pos here]
      exact ih fun d inside => separators d (List.mem_cons_of_mem c inside)

theorem words_word (word : IsWord sep w) : words sep w = [w] := by
  rw [words, List.splitOnP_eq_singleton word.2]
  simp [word.1]

theorem words_append (word : IsWord sep w) {c : α} (separator : sep c = true) (xs : List α) :
    words sep (w ++ c :: xs) = w :: words sep xs := by
  rw [words, List.splitOnP_append_cons_of_forall_mem word.2 c separator, List.filter_cons]
  simp [words, word.1]

theorem words_pair {a b gap : List α} (first : IsWord sep a) (second : IsWord sep b)
    (separators : IsGap sep gap) (apart : gap ≠ []) : words sep (a ++ gap ++ b) = [a, b] := by
  cases gap with
  | nil => exact absurd rfl apart
  | cons c gap =>
      rw [List.append_assoc, List.cons_append, words_append first (separators c List.mem_cons_self),
        words_gap fun d inside => separators d (List.mem_cons_of_mem c inside), words_word second]

theorem words_of_pieces {gap rest : List α} (separators : IsGap sep gap) (word : IsWord sep w)
    (stop : ∀ c ∈ rest.head?, sep c = true) :
    words sep (gap ++ w ++ rest) = w :: words sep rest := by
  rw [List.append_assoc, words_gap separators]
  cases rest with
  | nil =>
      rw [List.append_nil, words_word word]
      rfl
  | cons c rest =>
      have separator : sep c = true := stop c rfl
      rw [words_append word separator]
      have gap : IsGap sep [c] := List.forall_mem_singleton.mpr separator
      exact congrArg (w :: ·) (words_gap gap rest).symm

/-! ## Reading them back -/

theorem exists_pieces (sep : α → Bool) (xs : List α) : IsGap sep xs ∨ ∃ gap w rest,
    xs = gap ++ w ++ rest ∧ IsGap sep gap ∧ IsWord sep w ∧ ∀ c ∈ rest.head?,
    sep c = true := by
  induction xs with
  | nil => exact .inl fun c inside => by cases inside
  | cons c xs ih =>
      cases start : sep c with
      | true =>
          rcases ih with separators | ⟨gap, w, rest, rfl, separators, word, stop⟩
          · exact .inl (List.forall_mem_cons.mpr ⟨start, separators⟩)
          · exact .inr
              ⟨c :: gap, w, rest, rfl, List.forall_mem_cons.mpr ⟨start, separators⟩, word,
              stop⟩
      | false =>
          refine .inr ⟨[], (c :: xs).takeWhile fun d => !sep d, (c :: xs).dropWhile fun d =>
            !sep d, ?_, fun d none => (by cases none), ⟨?_, ?_⟩, ?_⟩
          · rw [List.nil_append, List.takeWhile_append_dropWhile]
          · rw [List.takeWhile_cons_of_pos (by rw [start]; rfl)]
            exact List.cons_ne_nil _ _
          · intro d inside
            simpa using List.mem_takeWhile_imp inside
          · intro d first
            have head := List.head?_dropWhile_not (fun d => !sep d) (c :: xs)
            rw [first] at head
            simpa using head

theorem words_eq_nil_iff : words sep xs = [] ↔ IsGap sep xs := by
  constructor
  · intro none
    rcases exists_pieces sep xs with separators | ⟨gap, w, rest, rfl, separators, word, stop⟩
    · exact separators
    · rw [words_of_pieces separators word stop] at none
      cases none
  · intro separators
    have all := words_gap separators []
    rw [List.append_nil] at all
    exact all

theorem exists_of_words_cons {ws : List (List α)} (split : words sep xs = w :: ws) :
    IsWord sep w ∧ ∃ gap rest, xs = gap ++ w ++ rest ∧ IsGap sep gap ∧
    words sep rest = ws ∧ ∀ c ∈ rest.head?, sep c = true := by
  rcases exists_pieces sep xs with separators | ⟨gap, w', rest, rfl, separators, word, stop⟩
  · rw [words_eq_nil_iff.mpr separators] at split
    cases split
  · rw [words_of_pieces separators word stop] at split
    obtain ⟨rfl, rfl⟩ := List.cons.inj split
    exact ⟨word, gap, rest, rfl, separators, rfl, stop⟩

/-- No separator at either end. -/
structure Trimmed (sep : α → Bool) (xs : List α) : Prop where
  start : ∀ c ∈ xs.head?, sep c = false
  stop : ∀ c ∈ xs.getLast?, sep c = false

theorem trimmed_trim (sep : α → Bool) (xs : List α) :
    Trimmed sep ((xs.dropWhile sep).reverse.dropWhile sep).reverse := by
  have start := List.head?_dropWhile_not sep xs
  have stop := List.head?_dropWhile_not sep (xs.dropWhile sep).reverse
  generalize xs.dropWhile sep = ys at start stop
  constructor
  · intro c first
    -- what is left begins as the text did
    obtain ⟨back, whole⟩ := List.dropWhile_suffix (l := ys.reverse) sep
    have front : ys = (ys.reverse.dropWhile sep).reverse ++ back.reverse := by
      rw [← List.reverse_append, whole, List.reverse_reverse]
    rw [front, List.head?_append, first] at start
    simpa using start
  · intro c last
    rw [List.getLast?_reverse] at last
    rw [last] at stop
    simpa using stop

theorem gap_eq_nil_of_start {gap : List α} (separators : IsGap sep gap)
    (start : ∀ c ∈ (gap ++ ys).head?, sep c = false) : gap = [] := by
  cases gap with
  | nil => rfl
  | cons c gap =>
      have inside := separators c List.mem_cons_self
      rw [start c rfl] at inside
      cases inside

theorem gap_eq_nil_of_stop {gap : List α} (separators : IsGap sep gap)
    (stop : ∀ c ∈ (ys ++ gap).getLast?, sep c = false) : gap = [] := by
  rcases List.eq_nil_or_concat gap with empty | ⟨front, c, rfl⟩
  · exact empty
  · have inside := separators c (by simp)
    rw [stop c (by simp [← List.append_assoc])] at inside
    cases inside

theorem words_eq_singleton_iff (trimmed : Trimmed sep xs) :
    words sep xs = [w] ↔ xs = w ∧ IsWord sep w := by
  constructor
  · intro split
    obtain ⟨word, gap, rest, rfl, separators, none, _⟩ := exists_of_words_cons split
    have after := words_eq_nil_iff.mp none
    obtain rfl := gap_eq_nil_of_stop after trimmed.stop
    have start := trimmed.start
    rw [List.append_nil] at start
    obtain rfl := gap_eq_nil_of_start separators start
    exact ⟨by rw [List.nil_append, List.append_nil], word⟩
  · rintro ⟨rfl, word⟩
    exact words_word word

theorem words_eq_pair_iff {a b : List α} (trimmed : Trimmed sep xs) : words sep xs = [a, b] ↔
    IsWord sep a ∧ IsWord sep b ∧ ∃ gap, IsGap sep gap ∧ gap ≠ [] ∧
    xs = a ++ gap ++ b := by
  constructor
  · intro split
    obtain ⟨first, before, rest, rfl, separators, more, stop⟩ := exists_of_words_cons split
    obtain ⟨second, gap, after, rfl, between, none, _⟩ := exists_of_words_cons more
    have start := trimmed.start
    rw [List.append_assoc] at start
    obtain rfl := gap_eq_nil_of_start separators start
    have last := trimmed.stop
    rw [← List.append_assoc] at last
    obtain rfl := gap_eq_nil_of_stop (words_eq_nil_iff.mp none) last
    refine ⟨first, second, gap, between, ?_, by simp⟩
    -- without a gap the second word would begin with a separator
    intro nothing
    subst nothing
    obtain ⟨c, others, rfl⟩ := List.exists_cons_of_ne_nil second.1
    have clash := stop c (by simp)
    rw [second.2 c List.mem_cons_self] at clash
    cases clash
  · rintro ⟨first, second, gap, separators, apart, rfl⟩
    exact words_pair first second separators apart

end Words
