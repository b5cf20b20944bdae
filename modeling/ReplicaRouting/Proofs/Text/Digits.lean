import ReplicaRouting.Text.Numeral
/-!
Runs of digits. A numeral is taken whole off the front of a text, and its digits give its value again, in base
ten and in base sixteen.
-/

namespace ReplicaRouting.Text

/-- No further character of a kind follows. -/
def Stops (p : Char → Bool) (s : List Char) : Prop := ∀ c ∈ s.head?, p c = false

theorem stops_nil (p : Char → Bool) : Stops p [] := nofun

theorem stops_cons {p : Char → Bool} {c : Char} (h : p c = false) (s : List Char) : Stops p (c :: s) := by
  rintro _ ⟨⟩
  exact h

theorem Stops.span {p : Char → Bool} {ds s : List Char} (hs : Stops p s) (hd : ∀ c ∈ ds, p c = true) :
    (ds ++ s).takeWhile p = ds ∧ (ds ++ s).dropWhile p = s := by
  rw [List.takeWhile_append_of_pos hd, List.dropWhile_append_of_pos hd]
  cases s with
  | nil => exact ⟨List.append_nil _, rfl⟩
  | cons c s =>
    have hc : ¬ p c = true := Bool.eq_false_iff.mp (hs c rfl)
    rw [List.takeWhile_cons_of_neg hc, List.dropWhile_cons_of_neg hc]
    exact ⟨List.append_nil _, rfl⟩

/-! ### Base ten -/

theorem readDigits?_eq_some {bound n : Nat} {s : List Char} : readDigits? bound s = some n ↔
    (s ≠ [] ∧ (∀ c ∈ s, c.isDigit = true) ∧ Nat.ofDigitChars 10 s 0 = n) ∧ n < bound := by
  by_cases hs : s ≠ [] ∧ ∀ c ∈ s, c.isDigit = true
  · have hrun : (s.isEmpty || !s.all Char.isDigit) = false := by simpa using hs
    rw [readDigits?, hrun, if_neg Bool.false_ne_true, Option.ite_none_right_eq_some]
    constructor
    · rintro ⟨hlt, hvalue⟩
      obtain rfl := Option.some.inj hvalue
      exact ⟨⟨hs.1, hs.2, rfl⟩, hlt⟩
    · rintro ⟨⟨-, -, rfl⟩, hlt⟩
      exact ⟨hlt, rfl⟩
  · have hrun : (s.isEmpty || !s.all Char.isDigit) = true := by
      simpa [Decidable.or_iff_not_imp_left] using hs
    rw [readDigits?, hrun, if_pos rfl]
    exact iff_of_false (Option.some_ne_none n).symm fun h => hs ⟨h.1.1, h.1.2.1⟩

theorem head_toDigits_zero (n : Nat) {ds : List Char} (h : Nat.toDigits 10 n = '0' :: ds) : ds = [] := by
  induction n using Nat.strongRecOn generalizing ds with
  | ind n ih =>
    by_cases hn : n < 10
    · rw [Nat.toDigits_of_lt_base hn] at h
      exact (List.cons.inj h).2.symm
    · -- the digits before the last one are those of a smaller number, which is not zero
      have hle : 10 ≤ n := Nat.le_of_not_lt hn
      rw [Nat.toDigits_of_base_le (by decide) hle] at h
      obtain ⟨d, es, hd⟩ := List.exists_cons_of_ne_nil (Nat.toDigits_ne_nil (n := n / 10) (b := 10))
      rw [hd, List.cons_append] at h
      obtain ⟨rfl, -⟩ := List.cons.inj h
      obtain rfl := ih (n / 10) (by omega) hd
      have hvalue := Nat.ofDigitChars_toDigits (b := 10) (n := n / 10) (by decide) (by decide)
      rw [hd] at hvalue
      have hzero : n / 10 = 0 := hvalue.symm
      omega

/-! ### Base sixteen -/

theorem hexValue?_digitChar : ∀ n < 16, hexValue? (Nat.digitChar n) = some n := by
  decide

theorem hexDigits_concat (ds : List Char) (c : Char) :
    hexDigits (ds ++ [c]) = 16 * hexDigits ds + (hexValue? c).getD 0 :=
  List.foldl_append

theorem hexDigits_toDigits (n : Nat) :
    (∀ c ∈ Nat.toDigits 16 n, isHexDigit c = true) ∧ hexDigits (Nat.toDigits 16 n) = n := by
  have hdigit : ∀ d < 16, isHexDigit (Nat.digitChar d) = true := fun d hd => by
    rw [isHexDigit, hexValue?_digitChar d hd]
    rfl
  induction n using Nat.strongRecOn with
  | ind n ih =>
    by_cases hn : n < 16
    · rw [Nat.toDigits_of_lt_base hn]
      refine ⟨List.forall_mem_singleton.mpr (hdigit n hn), ?_⟩
      rw [← List.nil_append [_], hexDigits_concat, hexValue?_digitChar n hn]
      exact Nat.zero_add n
    · obtain ⟨hall, hvalue⟩ := ih (n / 16) (by omega)
      have hlast : n % 16 < 16 := Nat.mod_lt n (by decide)
      rw [Nat.toDigits_of_base_le (by decide) (Nat.le_of_not_lt hn)]
      constructor
      · exact List.forall_mem_append.mpr ⟨hall, List.forall_mem_singleton.mpr (hdigit _ hlast)⟩
      · rw [hexDigits_concat, hvalue, hexValue?_digitChar _ hlast, Option.getD_some]
        exact Nat.div_add_mod n 16

end ReplicaRouting.Text
