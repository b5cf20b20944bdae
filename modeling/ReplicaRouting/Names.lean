/-!
Names for values. The newest binding of a name is the only one.
-/

namespace ReplicaRouting

abbrev Names (α : Type) := List (String × α)

namespace Names

def bind (name : String) (v : α) (names : Names α) : Names α := (name, v) :: names.filter (·.1 ≠ name)

def unbind (name : String) (names : Names α) : Names α := names.filter (·.1 ≠ name)

def mapValues (f : α → α) (names : Names α) : Names α := names.map fun (name, v) => (name, f v)

def find? (names : Names α) (name : String) : Option α := names.lookup name

variable (names : Names α) (name other : String)

theorem find?_cons (p : String × α) :
    find? (p :: names) other = if other = p.1 then some p.2 else names.find? other := by
  rw [find?, List.lookup_cons]
  by_cases h : other = p.1
  · simp [h]
  · have hb : (other == p.1) = false := beq_eq_false_iff_ne.mpr h
    simp only [hb, h, if_false]
    rfl

theorem find?_unbind : (names.unbind name).find? other = if other = name then none else names.find? other := by
  induction names with
  | nil => simp [unbind, find?]
  | cons p names ih =>
    rw [unbind, List.filter_cons]
    by_cases hp : p.1 = name
    · rw [if_neg (by simpa using hp), find?_cons]
      refine ih.trans ?_
      split
      · rfl
      · rename_i h
        rw [if_neg (hp ▸ h)]
    · rw [if_pos (by simpa using hp), find?_cons, find?_cons]
      split
      · rename_i h
        rw [if_neg (h ▸ hp)]
      · exact ih

theorem find?_bind (v : α) :
    (names.bind name v).find? other = if other = name then some v else names.find? other := by
  rw [bind, find?_cons]
  split
  · rfl
  · rename_i h
    exact (names.find?_unbind name other).trans (if_neg h)

theorem find?_mapValues (f : α → α) : (names.mapValues f).find? name = (names.find? name).map f := by
  induction names with
  | nil => rfl
  | cons p names ih =>
    obtain ⟨other, v⟩ := p
    rw [mapValues, List.map_cons, find?_cons, find?_cons]
    by_cases h : name = other
    · rw [if_pos h, if_pos h]
      rfl
    · rw [if_neg h, if_neg h]
      exact ih

section Bindings
variable {names : Names α} {name : String}

theorem unbind_eq_self (h : names.find? name = none) : names.unbind name = names := by
  induction names with
  | nil => rfl
  | cons p names ih =>
    rw [find?_cons] at h
    split at h
    · cases h
    · rename_i hne
      rw [unbind, List.filter_cons_of_pos (by simpa using Ne.symm hne)]
      exact congrArg (p :: ·) (ih h)

theorem unbind_unbind : (names.unbind name).unbind name = names.unbind name := by
  simp [unbind, List.filter_filter]

theorem nodup_unbind (hn : (names.map (·.1)).Nodup) : ((names.unbind name).map (·.1)).Nodup :=
  hn.sublist (List.filter_sublist.map _)

theorem nodup_bind (hn : (names.map (·.1)).Nodup) (v : α) :
    ((names.bind name v).map (·.1)).Nodup := by
  refine List.nodup_cons.mpr ⟨fun h => ?_, nodup_unbind hn⟩
  obtain ⟨p, hp, he⟩ := List.mem_map.mp h
  exact of_decide_eq_true (List.mem_filter.mp hp).2 he

/-- Where names are distinct, unbinding takes out the one binding that is found. -/
theorem perm_unbind (hn : (names.map (·.1)).Nodup) {v : α} (h : names.find? name = some v) :
    names.Perm ((name, v) :: names.unbind name) := by
  induction names with
  | nil => cases h
  | cons p names ih =>
    obtain ⟨hp, hn⟩ := List.nodup_cons.mp hn
    rw [find?_cons] at h
    split at h
    · rename_i he
      subst he
      obtain rfl := Option.some.inj h
      have hother : ∀ q ∈ names, decide (q.1 ≠ p.1) = true := fun q hq =>
        decide_eq_true fun he => hp (List.mem_map.mpr ⟨q, hq, he⟩)
      rw [unbind, List.filter_cons_of_neg (by simp), List.filter_eq_self.mpr hother]
    · rename_i hne
      rw [unbind, List.filter_cons_of_pos (by simpa using Ne.symm hne)]
      exact ((ih hn h).cons p).trans (.swap ..)

end Bindings

end Names
end ReplicaRouting
