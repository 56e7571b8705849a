import LitmusGraph.Text.Basic

/-!
# Tables

A table holds values by name, in the order in which the names first came. A table built by
`Table.insert` has each name once.

* `Table.get?_insert` says what an insertion does to the values.
* `Table.names_insert` says what it does to the names.
* `Table.eq_of_get?_eq` says that nothing else is in a table.
* `Table.get?_filter_of_pos` and `Table.get?_eq_of_perm` say what a value does not depend on.

Embedded are the dictionaries of the program: the members of a decoded object, `edge_counts`, the style
table and the loggers by name. Names are texts, and nothing is ever deleted.
-/

namespace LitmusGraph

/-- Values by name, in order. -/
abbrev Table (α : Type) := List (Text × α)

namespace Table

variable {α : Type}

/-- The value of a name. -/
def get? (t : Table α) (name : Text) : Option α := t.lookup name

/-- The names, in order. -/
def names (t : Table α) : List Text := t.map Prod.fst

/-- Sets the value of a name. A new name goes to the end; a present one keeps its place. -/
def insert : Table α → Text → α → Table α
  | [], name, value => [(name, value)]
  | (k, v) :: rest, name, value =>
    if k = name then (k, value) :: rest else (k, v) :: insert rest name value

@[simp] theorem get?_nil (name : Text) : get? ([] : Table α) name = none := rfl

theorem get?_cons (k : Text) (v : α) (rest : Table α) (name : Text) :
    get? ((k, v) :: rest) name = if name = k then some v else get? rest name := by
  simp only [get?, List.lookup_cons]
  cases h : name == k with
  | false => rw [if_neg (by simpa using h)]
  | true => rw [if_pos (by simpa using h)]

@[simp] theorem names_nil : names ([] : Table α) = [] := rfl

@[simp] theorem names_cons (k : Text) (v : α) (rest : Table α) :
    names ((k, v) :: rest) = k :: names rest := rfl

@[simp] theorem get?_insert (t : Table α) (name other : Text) (value : α) :
    (t.insert name value).get? other = if other = name then some value else t.get? other := by
  induction t with
  | nil => simp [insert, get?_cons]
  | cons entry rest ih =>
    obtain ⟨k, v⟩ := entry
    by_cases h : k = name <;> by_cases h' : other = k <;> simp_all [insert, get?_cons]

theorem names_insert (t : Table α) (name : Text) (value : α) :
    (t.insert name value).names = if name ∈ t.names then t.names else t.names ++ [name] := by
  induction t with
  | nil => simp [insert]
  | cons entry rest ih =>
    obtain ⟨k, v⟩ := entry
    by_cases h : k = name
    · simp [insert, h]
    · by_cases h' : name ∈ names rest <;> simp [insert, h, h', ih, Ne.symm h]

theorem get?_eq_none_iff (t : Table α) (name : Text) : t.get? name = none ↔ name ∉ t.names := by
  induction t with
  | nil => simp
  | cons entry rest ih =>
    obtain ⟨k, v⟩ := entry
    by_cases h : name = k <;> simp [get?_cons, h, ih]

/-- Setting a value that is set already changes nothing. -/
theorem insert_eq_self {t : Table α} {name : Text} {value : α} (h : t.get? name = some value) :
    t.insert name value = t := by
  induction t with
  | nil => exact nomatch h
  | cons entry rest ih =>
    obtain ⟨k, v⟩ := entry
    rw [get?_cons] at h
    rw [insert]
    by_cases hk : k = name
    · rw [if_pos hk.symm] at h
      rw [if_pos hk, Option.some.inj h]
    · rw [if_neg (Ne.symm hk)] at h
      rw [if_neg hk, ih h]

/-- What a table holds after a value is set: that value, or what it held. -/
theorem mem_insert {t : Table α} {name : Text} {value : α} {entry : Text × α}
    (h : entry ∈ t.insert name value) : entry = (name, value) ∨ entry ∈ t := by
  induction t with
  | nil => exact .inl (List.mem_singleton.mp h)
  | cons first rest ih =>
    obtain ⟨k, v⟩ := first
    unfold insert at h
    by_cases hk : k = name
    · rw [if_pos hk] at h
      rcases List.mem_cons.mp h with rfl | h
      · exact .inl (hk ▸ rfl)
      · exact .inr (List.mem_cons_of_mem _ h)
    · rw [if_neg hk] at h
      rcases List.mem_cons.mp h with rfl | h
      · exact .inr List.mem_cons_self
      · exact (ih h).imp_right (List.mem_cons_of_mem _)

theorem mem_of_get? {t : Table α} {name : Text} {value : α} (h : t.get? name = some value) :
    (name, value) ∈ t := by
  induction t with
  | nil => exact nomatch h
  | cons entry rest ih =>
    obtain ⟨k, v⟩ := entry
    rw [get?_cons] at h
    split at h
    · next hk =>
      obtain rfl := Option.some.inj h
      exact hk ▸ List.mem_cons_self
    · exact List.mem_cons_of_mem _ (ih h)

/-- **A table is known by its names and their values**, if it has each name once. -/
theorem eq_of_get?_eq {t u : Table α} (hnames : t.names = u.names) (ht : t.names.Nodup)
    (h : ∀ name, t.get? name = u.get? name) : t = u := by
  induction t generalizing u with
  | nil => exact (List.map_eq_nil_iff.mp hnames.symm).symm
  | cons entry rest ih =>
    obtain ⟨k, v⟩ := entry
    cases u with
    | nil => exact nomatch hnames
    | cons entry' rest' =>
      obtain ⟨k', v'⟩ := entry'
      obtain ⟨hk, hrest⟩ : k ∉ names rest ∧ (names rest).Nodup := List.nodup_cons.mp ht
      obtain ⟨hkeys, hrests⟩ : k = k' ∧ names rest = names rest' := List.cons.inj hnames
      subst hkeys
      have hv := h k
      rw [get?_cons, get?_cons, if_pos rfl, if_pos rfl] at hv
      rw [Option.some.inj hv, ih hrests hrest fun name => ?_]
      have hname := h name
      rw [get?_cons, get?_cons] at hname
      by_cases hk' : name = k
      · rw [hk', (get?_eq_none_iff rest k).mpr hk, (get?_eq_none_iff rest' k).mpr (hrests ▸ hk)]
      · rwa [if_neg hk', if_neg hk'] at hname

/-- Entries of other names do not matter. -/
theorem get?_filter_of_pos {p : Text → Bool} {name : Text} (h : p name = true) (t : Table α) :
    get? (t.filter fun entry => p entry.1) name = t.get? name := by
  induction t with
  | nil => rfl
  | cons entry rest ih =>
    obtain ⟨k, v⟩ := entry
    rw [List.filter_cons, get?_cons]
    by_cases hk : name = k
    · rw [if_pos (hk ▸ h), get?_cons, if_pos hk, if_pos hk]
    · rw [if_neg hk, ← ih]
      split
      · rw [get?_cons, if_neg hk]
      · rfl

/-- **The order of the entries does not matter** in a table that has each name once. -/
theorem get?_eq_of_perm {t u : Table α} (h : t.Perm u) (ht : t.names.Nodup) (name : Text) :
    t.get? name = u.get? name := by
  induction h with
  | nil => rfl
  | cons entry _ ih =>
    rw [get?_cons, get?_cons, ih (List.nodup_cons.mp ht).2]
  | swap a b rest =>
    have hne : b.1 ≠ a.1 := fun e => (List.nodup_cons.mp ht).1 (e ▸ List.mem_cons_self)
    rw [get?_cons, get?_cons, get?_cons, get?_cons]
    by_cases hb : name = b.1
    · rw [if_pos hb, if_neg fun ha => hne (hb.symm.trans ha), if_pos hb]
    · rw [if_neg hb, if_neg hb]
  | trans htu _ ih ih' =>
    rw [ih ht, ih' ((htu.map Prod.fst).nodup_iff.mp ht)]

end Table

end LitmusGraph
