/-
Orders on records, field by field.

* `lawfulEqOn` — comparing one field is lawful when the field determines the record.
* `lawfulEqLex` — comparing fields one after another is lawful when together they determine it.

A lawful order calls two values equal only if they are; sorted maps need that of their keys.
-/
import Std.Data.ExtTreeMap

namespace RepoAccess

open Std

variable {α β γ : Type}

theorem compareOn_eq_iff [Ord β] [LawfulEqOrd β] [TransOrd β] {f : α → β} {a b : α} :
    compareOn f a b = .eq ↔ f a = f b :=
  LawfulEqOrd.compare_eq_iff_eq

theorem lawfulEqOn [Ord β] [LawfulEqOrd β] [TransOrd β] {f : α → β}
    (h : ∀ a b, f a = f b → a = b) : LawfulEqCmp (compareOn f) where
  compare_self := by simp [compareOn_eq_iff]
  eq_of_compare hab := h _ _ (compareOn_eq_iff.1 hab)

theorem lawfulEqLex [Ord β] [LawfulEqOrd β] [TransOrd β] {f : α → β} {cmp : α → α → Ordering}
    [ReflCmp cmp] (h : ∀ a b, f a = f b → cmp a b = .eq → a = b) :
    LawfulEqCmp (compareLex (compareOn f) cmp) where
  compare_self := by simp [ReflCmp.compare_self]
  eq_of_compare hab := by
    rw [compareLex_eq_eq] at hab
    exact h _ _ (compareOn_eq_iff.1 hab.1) hab.2

end RepoAccess
