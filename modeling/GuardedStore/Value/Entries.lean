import GuardedStore.Value.Basic

/-! # Reading named entries

What stands under a name after entries were set, left out or overlaid, and which names there are
then. Reading is insensitive to order, writing keeps it.
-/

namespace GuardedStore.Entries

variable {α : Type}

@[simp]
theorem get?_nil (name : String) : get? ([] : Entries α) name = none := rfl

theorem get?_cons (key : String) (value : α) (rest : Entries α) (name : String) :
    get? ((key, value) :: rest) name = if key = name then some value else get? rest name := by
  by_cases h : key = name <;> simp [get?, h]

theorem get?_eq_none_iff {entries : Entries α} {name : String} :
    get? entries name = none ↔ name ∉ names entries := by
  induction entries with
  | nil => simp [names]
  | cons entry rest ih =>
      obtain ⟨key, old⟩ := entry
      rw [get?_cons]
      by_cases h : key = name
      · simp [names, h]
      · simp [names, h, ih, Ne.symm h]

theorem mem_names_iff {entries : Entries α} {name : String} :
    name ∈ names entries ↔ ∃ value, (name, value) ∈ entries := by
  simp [names]

/-- Where no name comes twice, an entry is what stands under its name. -/
theorem get?_of_mem {entries : Entries α} (unique : (names entries).Nodup) {name : String} {value : α}
    (h : (name, value) ∈ entries) : get? entries name = some value := by
  induction entries with
  | nil => simp at h
  | cons entry rest ih =>
      obtain ⟨key, old⟩ := entry
      obtain ⟨new, unique⟩ := List.nodup_cons.mp unique
      rw [get?_cons]
      rcases List.mem_cons.mp h with same | later
      · cases same
        simp
      · have other : key ≠ name := by
          intro same
          exact new (same ▸ List.mem_map.mpr ⟨_, later, rfl⟩)
        simp [other, ih unique later]

theorem mem_of_get? {entries : Entries α} {name : String} {value : α}
    (h : get? entries name = some value) : (name, value) ∈ entries := by
  induction entries with
  | nil => cases h
  | cons entry rest ih =>
      obtain ⟨key, old⟩ := entry
      rw [get?_cons] at h
      split at h
      · rename_i same
        cases same
        cases h
        exact List.mem_cons_self
      · exact List.mem_cons_of_mem _ (ih h)

theorem get?_filter (keep : String → Bool) (entries : Entries α) (name : String) :
    get? (entries.filter fun entry => keep entry.1) name =
      if keep name then get? entries name else none := by
  induction entries with
  | nil => simp
  | cons entry rest ih =>
      obtain ⟨key, old⟩ := entry
      rw [List.filter_cons, get?_cons]
      by_cases same : key = name
      · subst same
        by_cases kept : keep key <;> simp [kept, get?_cons, ih]
      · by_cases kept : keep key <;> simp [kept, get?_cons, ih, same]

theorem get?_map {β : Type} (f : α → β) (entries : Entries α) (name : String) :
    get? (entries.map fun (key, value) => (key, f value)) name = (get? entries name).map f := by
  induction entries with
  | nil => rfl
  | cons entry rest ih =>
      obtain ⟨key, value⟩ := entry
      simp only [List.map_cons, get?_cons, ih]
      split <;> rfl

@[simp]
theorem names_map {β : Type} (f : α → β) (entries : Entries α) :
    names (entries.map fun entry => (entry.1, f entry.2)) = names entries := by
  simp [names]

theorem get?_set (entries : Entries α) (name : String) (value : α) (other : String) :
    get? (set entries name value) other = if name = other then some value else get? entries other := by
  induction entries with
  | nil => simp [set, get?_cons]
  | cons entry rest ih =>
      obtain ⟨key, old⟩ := entry
      by_cases same : key = name
      · subst same
        by_cases found : key = other <;> simp [set, get?_cons, found]
      · by_cases found : key = other
        · subst found
          simp [set, get?_cons, same, Ne.symm same]
        · simp [set, get?_cons, same, found, ih]

@[simp]
theorem get?_set_self (entries : Entries α) (name : String) (value : α) :
    get? (set entries name value) name = some value := by
  simp [get?_set]

theorem get?_set_of_ne {name other : String} (h : name ≠ other) (entries : Entries α) (value : α) :
    get? (set entries name value) other = get? entries other := by
  simp [get?_set, h]

theorem get?_erase (entries : Entries α) (name other : String) :
    get? (erase entries name) other = if name = other then none else get? entries other := by
  have filtered := get?_filter (fun key => decide (key ≠ name)) entries other
  by_cases same : name = other <;> simp_all [erase, Ne.symm]

theorem mem_erase {entries : Entries α} {name : String} {entry : String × α} :
    entry ∈ erase entries name ↔ entry ∈ entries ∧ entry.1 ≠ name := by
  simp [erase]

theorem mem_set {entries : Entries α} {name : String} {value : α} {entry : String × α}
    (h : entry ∈ set entries name value) : entry = (name, value) ∨ entry ∈ entries := by
  induction entries with
  | nil => exact .inl (List.mem_singleton.mp h)
  | cons first rest ih =>
      obtain ⟨key, old⟩ := first
      rw [set] at h
      split at h
      · rename_i same
        subst same
        rcases List.mem_cons.mp h with here | later
        · exact .inl here
        · exact .inr (List.mem_cons_of_mem _ later)
      · rcases List.mem_cons.mp h with here | later
        · exact .inr (List.mem_cons.mpr (.inl here))
        · exact (ih later).imp_right (List.mem_cons_of_mem _)

theorem erase_set_of_ne {name other : String} (h : name ≠ other) (entries : Entries α) (value : α) :
    erase (set entries name value) other = set (erase entries other) name value := by
  induction entries with
  | nil => simp [set, erase, h]
  | cons entry rest ih =>
      obtain ⟨key, old⟩ := entry
      simp only [erase, ne_eq, decide_not] at ih
      by_cases same : key = name
      · subst same
        simp [set, erase, h]
      · by_cases left : key = other
        · subst left
          simp [set, erase, same, ih]
        · simp [set, erase, same, left, ih]

/-- A new name is put at the end. -/
theorem set_of_notMem {entries : Entries α} {name : String} (h : name ∉ names entries) (value : α) :
    set entries name value = entries ++ [(name, value)] := by
  induction entries with
  | nil => rfl
  | cons entry rest ih =>
      obtain ⟨key, old⟩ := entry
      simp only [names, List.map_cons, List.mem_cons, not_or] at h
      simp [set, Ne.symm h.1, ih h.2]

theorem set_set (entries : Entries α) (name : String) (first second : α) :
    set (set entries name first) name second = set entries name second := by
  induction entries with
  | nil => simp [set]
  | cons entry rest ih =>
      obtain ⟨key, old⟩ := entry
      by_cases same : key = name <;> simp [set, same, ih]

theorem names_set (entries : Entries α) (name : String) (value : α) :
    names (set entries name value) =
      if name ∈ names entries then names entries else names entries ++ [name] := by
  induction entries with
  | nil => simp [names, set]
  | cons entry rest ih =>
      obtain ⟨key, old⟩ := entry
      by_cases same : key = name
      · simp [names, set, same]
      · simp only [names] at ih
        by_cases known : name ∈ rest.map (·.1) <;> simp_all [names, set, Ne.symm]

theorem mem_names_set {entries : Entries α} {name other : String} {value : α} :
    other ∈ names (set entries name value) ↔ other ∈ names entries ∨ other = name := by
  rw [names_set]
  by_cases known : name ∈ names entries
  · simp only [known, if_true, iff_self_or]
    rintro rfl
    exact known
  · simp [known]

theorem nodup_set {entries : Entries α} (unique : (names entries).Nodup) (name : String) (value : α) :
    (names (set entries name value)).Nodup := by
  rw [names_set]
  split
  · exact unique
  · rename_i new
    refine List.nodup_append.mpr ⟨unique, by simp, ?_⟩
    intro key known other single same
    rw [List.mem_singleton.mp single] at same
    exact new (same ▸ known)

theorem nodup_filter {entries : Entries α} (unique : (names entries).Nodup)
    (keep : String × α → Bool) : (names (entries.filter keep)).Nodup :=
  unique.sublist (List.filter_sublist.map _)

theorem nodup_erase {entries : Entries α} (unique : (names entries).Nodup) (name : String) :
    (names (erase entries name)).Nodup :=
  nodup_filter unique _

theorem overlay_cons (entries : Entries α) (name : String) (value : α) (others : Entries α) :
    overlay entries ((name, value) :: others) = overlay (set entries name value) others := rfl

theorem mem_names_overlay {entries others : Entries α} {name : String} :
    name ∈ names (overlay entries others) ↔ name ∈ names entries ∨ name ∈ names others := by
  induction others generalizing entries with
  | nil => simp [overlay, names]
  | cons entry rest ih =>
      obtain ⟨key, value⟩ := entry
      rw [overlay_cons, ih, mem_names_set]
      simp only [names, List.map_cons, List.mem_cons, or_assoc]

theorem nodup_overlay {entries : Entries α} (unique : (names entries).Nodup) (others : Entries α) :
    (names (overlay entries others)).Nodup := by
  induction others generalizing entries with
  | nil => exact unique
  | cons entry rest ih => exact ih (nodup_set unique _ _)

/-- Where no name comes twice among the overlaid entries, they come first and the others show
    through. -/
theorem get?_overlay {others : Entries α} (unique : (names others).Nodup) (entries : Entries α)
    (name : String) :
    get? (overlay entries others) name = (get? others name).or (get? entries name) := by
  induction others generalizing entries with
  | nil => simp [overlay]
  | cons entry rest ih =>
      obtain ⟨key, value⟩ := entry
      obtain ⟨new, unique⟩ := List.nodup_cons.mp unique
      rw [overlay_cons, ih unique, get?_set, get?_cons]
      by_cases same : key = name
      · subst same
        simp [get?_eq_none_iff.mpr new]
      · simp [same]

theorem get?_overlay_of_notMem {others : Entries α} {name : String} (h : name ∉ names others)
    (entries : Entries α) : get? (overlay entries others) name = get? entries name := by
  induction others generalizing entries with
  | nil => rfl
  | cons entry rest ih =>
      obtain ⟨key, value⟩ := entry
      simp only [names, List.map_cons, List.mem_cons, not_or] at h
      rw [overlay_cons, ih h.2, get?_set_of_ne (Ne.symm h.1)]

end GuardedStore.Entries
