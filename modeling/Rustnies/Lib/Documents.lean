import Mathlib.Logic.Basic

/-! # Documents and their readers

A document is a tree of tables and lists. A reader of a table knows some of its keys: as a
leaf it takes as it is, as a table for another reader, or as a list of such tables. The
other keys are passed over. Two readers that agree on the keys of a document pass over the
same of them.
-/

namespace Documents

/-- What a leaf holds is not looked at. -/
inductive Document where
  | scalar
  | array (elems : List Document)
  | table (entries : List (String × Document))

/-- Where a key stands: in the table itself, or in a table or a list element under a key. -/
inductive KeyPath where
  | here (key : String)
  | inTable (key : String) (rest : KeyPath)
  | inElement (key : String) (index : Nat) (rest : KeyPath)
  deriving Repr, DecidableEq

/-- What a reader does with a key it knows. -/
inductive Kind (α : Type) where
  | leaf
  | table (reader : α)
  | list (reader : α)
  deriving Repr, DecidableEq

variable {α β : Type}

/-- The keys that are passed over. -/
inductive Unknown (look : α → String → Option (Kind α)) :
    α → Document → KeyPath → Prop where
  | here {a : α} {entries : List (String × Document)} {key : String} {val : Document}
      (entry : (key, val) ∈ entries) (unknown : look a key = none) : Unknown look a
        (.table entries) (.here key)
  | inTable {a sub : α} {entries : List (String × Document)} {key : String} {val : Document}
      {rest : KeyPath} (entry : (key, val) ∈ entries) (known : look a key = some (.table sub))
      (inner : Unknown look sub val rest) :
      Unknown look a (.table entries) (.inTable key rest)
  | inElement {a sub : α} {entries : List (String × Document)} {key : String}
      {elems : List Document} {index : Nat} {elem : Document} {rest : KeyPath}
      (entry : (key, .array elems) ∈ entries) (known : look a key = some (.list sub))
      (place : elems[index]? = some elem) (inner : Unknown look sub elem rest) : Unknown look a
      (.table entries) (.inElement key index rest)

/-! ## A table, entry by entry -/

section Entries

variable {look : α → String → Option (Kind α)} {a : α} {key : String} {val : Document}
  {path : KeyPath} {rest : List (String × Document)}

theorem unknown_nil : ¬ Unknown look a (.table []) path := by
  intro unknown
  cases unknown with
  | here entry _ => cases entry
  | inTable entry _ _ => cases entry
  | inElement entry _ _ _ => cases entry

theorem unknown_cons : Unknown look a (.table ((key, val) :: rest)) path ↔
    Unknown look a (.table [(key, val)]) path ∨ Unknown look a (.table rest) path := by
  have split : ∀ e : String × Document, e ∈ (key, val) :: rest → e ∈ [(key, val)] ∨
    e ∈ rest := by
    intro e inside
    simpa using inside
  constructor
  · intro unknown
    cases unknown with
    | here entry other =>
        rcases split _ entry with first | later
        · exact .inl (.here first other)
        · exact .inr (.here later other)
    | inTable entry known inner =>
        rcases split _ entry with first | later
        · exact .inl (.inTable first known inner)
        · exact .inr (.inTable later known inner)
    | inElement entry known place inner =>
        rcases split _ entry with first | later
        · exact .inl (.inElement first known place inner)
        · exact .inr (.inElement later known place inner)
  · have grow : ∀ {es : List (String × Document)}, es ⊆ (key, val) :: rest →
        Unknown look a (.table es) path → Unknown look a (.table ((key, val) :: rest)) path := by
      intro es inside unknown
      cases unknown with
      | here entry other => exact .here (inside entry) other
      | inTable entry known inner => exact .inTable (inside entry) known inner
      | inElement entry known place inner => exact .inElement (inside entry) known place inner
    rintro (first | later)
    · exact grow (by simp) first
    · exact grow (List.subset_cons_self _ _) later

theorem unknown_single : Unknown look a (.table [(key, val)]) path ↔
    (look a key = none ∧ path = .here key) ∨
    (∃ sub rest, look a key = some (.table sub) ∧ path = .inTable key rest ∧
      Unknown look sub val rest) ∨ ∃ sub elems index elem rest,
    look a key = some (.list sub) ∧ val = .array elems ∧ elems[index]? = some elem ∧
    path = .inElement key index rest ∧ Unknown look sub elem rest := by
  constructor
  · intro passed
    cases passed with
    | here entry unknown =>
        cases List.mem_singleton.mp entry
        exact .inl ⟨unknown, rfl⟩
    | inTable entry known inner =>
        cases List.mem_singleton.mp entry
        exact .inr (.inl ⟨_, _, known, rfl, inner⟩)
    | inElement entry known place inner =>
        cases List.mem_singleton.mp entry
        exact .inr (.inr ⟨_, _, _, _, _, known, rfl, place, rfl, inner⟩)
  · have inside : (key, val) ∈ [(key, val)] := List.mem_singleton.mpr rfl
    rintro (⟨unknown, rfl⟩ | ⟨sub, rest, known, rfl, inner⟩ |
      ⟨sub, elems, index, elem, rest, known, rfl, place, rfl, inner⟩)
    · exact .here inside unknown
    · exact .inTable inside known inner
    · exact .inElement inside known place inner

end Entries

/-! ## Readers that agree -/

/-- Two readers do the same with a value, up to what the relation says of the readers they
    pass it to. -/
inductive Related (R : α → β → Document → Prop) (val : Document) :
    Option (Kind α) → Option (Kind β) → Prop where
  | unknown : Related R val none none
  | leaf : Related R val (some .leaf) (some .leaf)
  | table {a : α} {b : β} (same : R a b val) : Related R val (some (.table a)) (some (.table b))
  | list {a : α} {b : β} (same : ∀ elems, val = .array elems → ∀ elem ∈ elems,
      R a b elem) :
      Related R val (some (.list a)) (some (.list b))

variable {look : α → String → Option (Kind α)} {look' : β → String → Option (Kind β)}
  {R : α → β → Document → Prop}

/-- Readers related on a table do the same with each of its keys. -/
def Agree (look : α → String → Option (Kind α)) (look' : β → String → Option (Kind β))
    (R : α → β → Document → Prop) : Prop :=
  ∀ {a b entries}, R a b (.table entries) → ∀ key val, (key, val) ∈ entries →
    Related R val (look a key) (look' b key)

theorem Related.symm {val : Document} {k : Option (Kind α)} {k' : Option (Kind β)}
    (related : Related R val k k') :
    Related (fun b a doc => R a b doc) val k' k := by
  cases related with
  | unknown => exact .unknown
  | leaf => exact .leaf
  | table same => exact .table same
  | list same => exact .list same

theorem Agree.symm (agree : Agree look look' R) : Agree look' look fun b a doc => R a b doc :=
  fun related key val entry => (agree related key val entry).symm

theorem Unknown.transport (agree : Agree look look' R) {a : α} {doc : Document} {path : KeyPath}
    (unknown : Unknown look a doc path) {b : β} (related : R a b doc) :
    Unknown look' b doc path := by
  induction unknown generalizing b with
  | here entry unknown =>
      have same := agree related _ _ entry
      rw [unknown] at same
      generalize kind : look' b _ = k at same
      cases same with
      | unknown => exact .here entry kind
  | inTable entry known inner ih =>
      have same := agree related _ _ entry
      rw [known] at same
      generalize kind : look' b _ = k at same
      cases same with
      | table same => exact .inTable entry kind (ih same)
  | inElement entry known place inner ih =>
      have same := agree related _ _ entry
      rw [known] at same
      generalize kind : look' b _ = k at same
      cases same with
      | list same =>
          exact .inElement entry kind place (ih (same _ rfl _ (List.mem_of_getElem? place)))

theorem unknown_iff (agree : Agree look look' R) {a : α} {b : β} {doc : Document}
    (related : R a b doc) {path : KeyPath} : Unknown look a doc path ↔ Unknown look' b doc path :=
  ⟨fun unknown => unknown.transport agree related, fun unknown =>
    unknown.transport agree.symm related⟩

end Documents
