import Mathlib.Data.List.Infix

/-! A backlog of bounded length: what is appended beyond the bound drops the oldest. -/
namespace Backlog

variable {α : Type*} {bound : ℕ}

def push (bound : ℕ) (items : List α) (item : α) : List α :=
  (items ++ [item]).drop ((items ++ [item]).length - bound)

def pushAll (bound : ℕ) (items : List α) (added : List α) : List α :=
  added.foldl (push bound) items

theorem pushAll_nil (items : List α) : pushAll bound items [] = items := rfl

theorem pushAll_singleton (items : List α) (item : α) :
    pushAll bound items [item] = push bound items item := rfl

theorem pushAll_append (items added added' : List α) :
    pushAll bound items (added ++ added') = pushAll bound (pushAll bound items added) added' :=
  List.foldl_append

/-- The last items, as many as the bound admits. -/
def newest (bound : ℕ) (items : List α) : List α := items.drop (items.length - bound)

theorem newest_of_length_le {items : List α} (h : items.length ≤ bound) :
    newest bound items = items := by
  rw [newest, Nat.sub_eq_zero_of_le h, List.drop_zero]

theorem push_newest (items : List α) (item : α) :
    push bound (newest bound items) item = newest bound (items ++ [item]) := by
  unfold push newest
  have happend : items.drop (items.length - bound) ++ [item] =
      (items ++ [item]).drop (items.length - bound) :=
    (List.drop_append_of_le_length (Nat.sub_le _ _)).symm
  rw [happend, List.drop_drop]
  congr 1
  simp only [List.length_drop, List.length_append, List.length_singleton]
  omega

/-- A backlog holds the newest of all that was ever pushed. -/
theorem pushAll_newest (items added : List α) :
    pushAll bound (newest bound items) added = newest bound (items ++ added) := by
  induction added generalizing items with
  | nil => rw [pushAll_nil, List.append_nil]
  | cons item added ih =>
    have hrest := ih (items ++ [item])
    rw [← push_newest, List.append_assoc, List.singleton_append] at hrest
    exact hrest

end Backlog
