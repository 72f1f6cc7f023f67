import GuardedStore.Store.Basic

/-! # Principals

The known caller behind a request: the id of a user and the fields of the user's record, its id and
password hash apart.
-/

namespace GuardedStore.Access

structure Principal where
  id : String
  attributes : Fields := []
  deriving Repr, Inhabited

namespace Principal

def record (principal : Principal) : Fields :=
  Entries.set principal.attributes idField (.str principal.id)

/-- Whether a record with the given owner belongs to the user with an id. -/
def ownsOwner (id : String) (owner : Value) : Except OutOfRange Bool :=
  Value.looseEquals owner (.str id)

def owns (principal : Principal) (record : Record) : Except OutOfRange Bool :=
  ownsOwner principal.id (record.value ownerField)

def ofUser (id : String) (user : Record) : Principal where
  id
  attributes := user.fields.filter fun (name, _) => name ≠ idField && name ≠ passwordHashField

end Principal

end GuardedStore.Access
