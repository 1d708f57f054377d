namespace Calculator

variable {α β : Type} [Add β]

/-- Each element with the total weight of those before it, counted from `start`. -/
def runningTotal (weight : α → β) (start : β) (xs : List α) : List (α × β) :=
  xs.zip (xs.scanl (fun total x => total + weight x) start)

@[simp] theorem runningTotal_nil (weight : α → β) (start : β) : runningTotal weight start [] = [] := rfl

@[simp] theorem runningTotal_cons (weight : α → β) (start : β) (x : α) (xs : List α) :
    runningTotal weight start (x :: xs) = (x, start) :: runningTotal weight (start + weight x) xs := by
  simp [runningTotal]

theorem map_fst_runningTotal (weight : α → β) (start : β) (xs : List α) :
    (runningTotal weight start xs).map Prod.fst = xs := by
  induction xs generalizing start with
  | nil => rfl
  | cons x xs ih => simp [ih]

theorem runningTotal_map {γ : Type} (weight : α → β) (start : β) (g : γ → α) (xs : List γ) :
    runningTotal weight start (xs.map g) =
      (runningTotal (fun x => weight (g x)) start xs).map fun (x, total) => (g x, total) := by
  induction xs generalizing start with
  | nil => rfl
  | cons x xs ih => simp [ih]

theorem runningTotal_add [Std.Associative ((· + ·) : β → β → β)] (weight : α → β) (start offset : β) (xs : List α) :
    runningTotal weight (start + offset) xs =
      (runningTotal weight offset xs).map fun (x, total) => (x, start + total) := by
  induction xs generalizing offset with
  | nil => rfl
  | cons x xs ih =>
      have h : start + offset + weight x = start + (offset + weight x) := Std.Associative.assoc start offset (weight x)
      simp [h, ih]

theorem runningTotal_append (weight : α → β) (start : β) (xs ys : List α) :
    runningTotal weight start (xs ++ ys) =
      runningTotal weight start xs ++
        runningTotal weight (xs.foldl (fun total x => total + weight x) start) ys := by
  induction xs generalizing start with
  | nil => rfl
  | cons x xs ih => simp [ih]

end Calculator
