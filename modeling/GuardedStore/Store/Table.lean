import GuardedStore.Value.Entries

/-! # Tables

Named entries among which no name comes twice, in insertion order. A value that is set under a known
name takes the place of the old one.
-/

namespace GuardedStore

/-- Entries under different names. -/
structure Table (α : Type) where
  entries : Entries α
  nodup : (Entries.names entries).Nodup
  deriving Repr

namespace Table

variable {α : Type}

def empty : Table α := ⟨[], List.nodup_nil⟩

instance : Inhabited (Table α) := ⟨empty⟩

def get? (table : Table α) (name : String) : Option α :=
  Entries.get? table.entries name

def names (table : Table α) : List String :=
  Entries.names table.entries

/-- Sets a value: in its place when the name is there, at the end otherwise. -/
def set (table : Table α) (name : String) (value : α) : Table α :=
  ⟨Entries.set table.entries name value, Entries.nodup_set table.nodup name value⟩

/-- Leaves out a name. -/
def erase (table : Table α) (name : String) : Table α :=
  ⟨Entries.erase table.entries name, Entries.nodup_erase table.nodup name⟩

def overlay (table : Table α) (others : Entries α) : Table α :=
  ⟨Entries.overlay table.entries others, Entries.nodup_overlay table.nodup others⟩

@[ext]
theorem ext {table other : Table α} (h : table.entries = other.entries) : table = other := by
  cases table
  cases other
  cases h
  rfl

@[simp]
theorem entries_set (table : Table α) (name : String) (value : α) :
    (table.set name value).entries = Entries.set table.entries name value := rfl

@[simp]
theorem entries_erase (table : Table α) (name : String) :
    (table.erase name).entries = Entries.erase table.entries name := rfl

theorem get?_set (table : Table α) (name : String) (value : α) (other : String) :
    (table.set name value).get? other = if name = other then some value else table.get? other :=
  Entries.get?_set table.entries name value other

end Table

end GuardedStore
