import TreeOptions.Foundations.DefaultDict

/-!
# Directories

A directory holds documents by name. A write replaces the whole document of a name, and a
removal leaves none; what is read after them is `get_write` and `get_remove`. A
listing names exactly what is there (`mem_names`), so a search for a document that meets a
condition finds one if and only if there is one (`any_iff`).
-/

set_option autoImplicit false

namespace TreeOptions

universe u v

variable {Name : Type u} {Doc : Type v}

abbrev Directory (Name : Type u) (Doc : Type v) : Type (max u v) :=
  DefaultDict Name (none : Option Doc)

namespace Directory

/-- The names that have a document. -/
def names (directory : Directory Name Doc) : List Name :=
  directory.keys.filter fun name => (directory.get name).isSome

/-- Some document meets the condition. -/
def any (directory : Directory Name Doc) (condition : Name → Doc → Bool) : Bool :=
  directory.names.any fun name => (directory.get name).any (condition name)

variable {directory : Directory Name Doc}

theorem mem_names {name : Name} : name ∈ directory.names ↔ (directory.get name).isSome := by
  rw [names, List.mem_filter]
  constructor
  · exact And.right
  · intro present
    refine ⟨?_, present⟩
    by_contra absent
    rw [directory.absent name absent] at present
    cases present

theorem nodup_names (directory : Directory Name Doc) : directory.names.Nodup :=
  directory.unique.filter _

theorem any_iff {condition : Name → Doc → Bool} : directory.any condition ↔
      ∃ name doc, directory.get name = some doc ∧ condition name doc = true := by
  simp only [any, List.any_eq_true, Option.any_eq_true]
  constructor
  · rintro ⟨name, -, doc, found, meets⟩
    exact ⟨name, doc, found, meets⟩
  · rintro ⟨name, doc, found, meets⟩
    refine ⟨name, ?_, doc, found, meets⟩
    rw [mem_names, found]
    rfl

section

variable [DecidableEq Name]

def write (directory : Directory Name Doc) (name : Name) (doc : Doc) : Directory Name Doc :=
  directory.set name (some doc)

def remove (directory : Directory Name Doc) (name : Name) : Directory Name Doc :=
  directory.set name none

@[simp] theorem get_write_self (directory : Directory Name Doc) (name : Name) (doc : Doc) :
    (directory.write name doc).get name = some doc :=
  DefaultDict.get_set_self directory name (some doc)

@[simp] theorem get_remove_self (directory : Directory Name Doc) (name : Name) :
    (directory.remove name).get name = none :=
  DefaultDict.get_set_self directory name none

/-- **A write changes what is read under its name.** -/
theorem get_write (directory : Directory Name Doc) (name other : Name) (doc : Doc) :
    (directory.write name doc).get other =
      if other = name then some doc else directory.get other := by
  split
  case isTrue same => rw [same, get_write_self]
  case isFalse differs => exact DefaultDict.get_set_of_ne directory differs (some doc)

/-- **A removal leaves nothing under its name.** -/
theorem get_remove (directory : Directory Name Doc) (name other : Name) :
    (directory.remove name).get other = if other = name then none else directory.get other := by
  split
  case isTrue same => rw [same, get_remove_self]
  case isFalse differs => exact DefaultDict.get_set_of_ne directory differs none

variable {directory : Directory Name Doc}

theorem of_get_write {name other : Name} {doc found : Doc}
    (isFound : (directory.write name doc).get other = some found) :
    other = name ∧ doc = found ∨ directory.get other = some found := by
  rw [get_write] at isFound
  split at isFound
  case isTrue same => exact .inl ⟨same, Option.some.inj isFound⟩
  case isFalse => exact .inr isFound

theorem of_get_remove {name other : Name} {found : Doc}
    (isFound : (directory.remove name).get other = some found) :
    other ≠ name ∧ directory.get other = some found := by
  rw [get_remove] at isFound
  split at isFound
  case isTrue => cases isFound
  case isFalse differs => exact ⟨differs, isFound⟩

theorem isSome_get_write {name other : Name} {doc : Doc} (isSome : (directory.get other).isSome) :
    ((directory.write name doc).get other).isSome := by
  rw [get_write]
  split
  · rfl
  · exact isSome

end

end Directory

end TreeOptions
