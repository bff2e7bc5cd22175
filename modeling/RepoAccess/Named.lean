/-
Enumerations whose values have a written name.

* `Named` — the values of a type and the name of each.
* `Named.ofName?` — the value of a name, spelled exactly.
-/

namespace RepoAccess

/-- A type with finitely many values, each of which has a name of its own. -/
class Named (α : Type) where
  all : List α
  name : α → String

export Named (name)

/-- The value of that name. -/
def Named.ofName? {α : Type} [Named α] (text : String) : Option α :=
  (Named.all : List α).find? fun a => name a == text

/-- What is said of a text that is no name. -/
def Named.unknownName : String := "Matching variant not found"

end RepoAccess
