/-!
Stacks of work in progress, the innermost first: what they weigh, and where a panic that unwinds them stops.
-/

namespace ReplicaRouting

/-- The sum of the weights. -/
def total (weight : α → Nat) : List α → Nat
  | [] => 0
  | a :: as => weight a + total weight as

@[simp] theorem total_nil (weight : α → Nat) : total weight [] = 0 := rfl

@[simp] theorem total_cons (weight : α → Nat) (a : α) (as : List α) :
    total weight (a :: as) = weight a + total weight as := rfl

@[simp] theorem total_append (weight : α → Nat) (as bs : List α) :
    total weight (as ++ bs) = total weight as + total weight bs := by
  induction as with
  | nil => simp
  | cons a as ih => simp [ih, Nat.add_assoc]

theorem total_filter_add (weight : α → Nat) (p : α → Bool) (as : List α) :
    total weight (as.filter p) + total weight (as.filter fun a => !p a) = total weight as := by
  induction as with
  | nil => rfl
  | cons a as ih => cases h : p a <;> simp [h] <;> omega

theorem total_set (weight : α → Nat) {as : List α} {i : Nat} {a : α} (h : as[i]? = some a) (b : α) :
    total weight (as.set i b) + weight a = total weight as + weight b := by
  induction as generalizing i with
  | nil => simp at h
  | cons c cs ih =>
    cases i with
    | zero => simp at h ⊢; subst h; omega
    | succ i =>
      have := ih (by simpa using h)
      simp only [total_cons, List.set_cons_succ] at this ⊢
      omega

/-- Where a panic stops: what is recorded of it there, and the frames that are left. -/
def caught? (record? : α → Option β) : List α → Option (β × List α)
  | [] => none
  | f :: below =>
    match record? f with
    | some r => some (r, f :: below)
    | none => caught? record? below

theorem total_caught (weight : α → Nat) {record? : α → Option β} {fs below : List α} {r : β}
    (h : caught? record? fs = some (r, below)) : total weight below ≤ total weight fs := by
  induction fs with
  | nil => cases h
  | cons f fs ih =>
    rw [caught?] at h
    split at h
    · cases h
      exact Nat.le_refl _
    · have := ih h
      simp only [total_cons]
      omega

theorem caught_append (record? : α → Option β) (fs below : List α) :
    caught? record? (fs ++ below) =
      match caught? record? fs with
      | some (r, rest) => some (r, rest ++ below)
      | none => caught? record? below := by
  induction fs with
  | nil => rfl
  | cons f fs ih =>
    rw [List.cons_append, caught?, caught?]
    cases record? f with
    | some r => rfl
    | none => exact ih

theorem caught_subset {record? : α → Option β} {fs below : List α} {r : β}
    (h : caught? record? fs = some (r, below)) : below ⊆ fs := by
  induction fs with
  | nil => cases h
  | cons f fs ih =>
    rw [caught?] at h
    split at h
    · cases h
      exact List.Subset.refl _
    · exact List.Subset.trans (ih h) (List.subset_cons_self ..)

/-- No panic gets past a frame at which it stops. -/
theorem caught_over (record? : α → Option β) {f : α} {r : β} (hf : record? f = some r) (fs below : List α) :
    ∃ x above, caught? record? (fs ++ f :: below) = some (x, above ++ f :: below) ∧ above ⊆ fs := by
  rw [caught_append]
  cases h : caught? record? fs with
  | some p => exact ⟨p.1, p.2, rfl, caught_subset h⟩
  | none => exact ⟨r, [], by simp [caught?, hf], List.nil_subset _⟩

end ReplicaRouting
