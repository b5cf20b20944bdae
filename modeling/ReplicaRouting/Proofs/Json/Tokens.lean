import ReplicaRouting.Json.Scan
import ReplicaRouting.Proofs.Text.Digits
/-!
Tokens read back as they are written: a string literal for every text, and a numeral for every integer that
64 bits hold.
-/

namespace ReplicaRouting.Json

/-! ### Strings -/

theorem readUnicode_control {c : Char} (h : c.toNat < 0x20) (s : List Char) :
    readUnicode ('0' :: '0' :: Nat.digitChar (c.toNat / 16) :: Nat.digitChar (c.toNat % 16) :: s) =
      .ok (c, s) := by
  have hhigh := Text.hexValue?_digitChar (c.toNat / 16) (by omega)
  have hlow := Text.hexValue?_digitChar (c.toNat % 16) (by omega)
  have hzero : Text.hexValue? '0' = some 0 := by decide
  have hvalue : ((0 * 16 + 0) * 16 + c.toNat / 16) * 16 + c.toNat % 16 = c.toNat := by omega
  have hread : readHex4 ('0' :: '0' :: Nat.digitChar (c.toNat / 16) :: Nat.digitChar (c.toNat % 16) :: s) =
      .ok (c.toNat, s) := by
    simp only [readHex4, hzero, hhigh, hlow, hvalue]
  have hlone : ¬ (0xdc00 ≤ c.toNat ∧ c.toNat ≤ 0xdfff) := by omega
  have hplain : c.toNat < 0xd800 ∨ 0xdbff < c.toNat := by omega
  simp only [readUnicode, hread, bind, Except.bind, if_neg hlone, if_pos hplain, Char.ofNat_toNat]
  rfl

theorem readChars_escape (c : Char) (fuel : Nat) (s : List Char) :
    readChars true (fuel + 1) (escape c ++ s) =
      (readChars true fuel s).map fun (cs, s) => (c :: cs, s) := by
  have hescaped : ∀ t, readEscape true t = .ok (c, s) →
      readChars true (fuel + 1) ('\\' :: t) = (readChars true fuel s).map fun (cs, s) => (c :: cs, s) := by
    intro t ht
    simp only [readChars, ht, bind, Except.bind]
    cases readChars true fuel s <;> rfl
  unfold escape
  split
  iterate 7 exact hescaped _ rfl
  split
  · rename_i h
    exact hescaped _ (readUnicode_control h s)
  · rename_i hquote hslash _ _ _ _ _ h
    simp only [List.singleton_append, readChars, if_neg h]

theorem readChars_literal (cs : List Char) {fuel : Nat} (h : cs.length ≤ fuel) (s : List Char) :
    readChars true fuel (cs.flatMap escape ++ '"' :: s) = .ok (cs, s) := by
  induction cs generalizing fuel with
  | nil => cases fuel <;> rfl
  | cons c cs ih =>
    obtain _ | fuel := fuel
    · cases h
    · rw [List.flatMap_cons, List.append_assoc, readChars_escape, ih (Nat.le_of_succ_le_succ h)]
      rfl

theorem length_le_flatMap_escape (cs : List Char) : cs.length ≤ (cs.flatMap escape).length := by
  induction cs with
  | nil => exact Nat.le_refl 0
  | cons c cs ih =>
    have hc : 1 ≤ (escape c).length := by
      unfold escape
      split
      iterate 7 exact Nat.le_add_left 1 1
      split
      · exact Nat.le_add_left 1 5
      · exact Nat.le_refl 1
    rw [List.flatMap_cons, List.length_append, List.length_cons]
    omega

theorem readString_literal (t : String) (s : List Char) :
    readString (t.toList.flatMap escape ++ '"' :: s) = .ok (t, s) := by
  have hfuel : t.toList.length ≤ (t.toList.flatMap escape ++ '"' :: s).length := by
    have h := length_le_flatMap_escape t.toList
    rw [List.length_append]
    omega
  rw [readString, readChars_literal t.toList hfuel]
  exact congrArg (fun t => Except.ok (t, s)) (String.ofList_toList ..)

/-! ### Numerals -/

theorem le_ofDigitChars (ds : List Char) (n : Nat) : n ≤ Nat.ofDigitChars 10 ds n := by
  induction ds generalizing n with
  | nil => exact Nat.le_refl n
  | cons d ds ih =>
    rw [Nat.ofDigitChars_cons]
    have h := ih (10 * n + (d.toNat - '0'.toNat))
    omega

/-- A significand takes up all digits of a value that 64 bits hold. -/
theorem accumulate_eq {ds : List Char} {n : Nat} (h : Nat.ofDigitChars 10 ds n < UInt64.size) :
    accumulate n ds = (Nat.ofDigitChars 10 ds n, ds.length) := by
  induction ds generalizing n with
  | nil => rfl
  | cons d ds ih =>
    rw [Nat.ofDigitChars_cons] at h ⊢
    have hzero : '0'.toNat = 48 := rfl
    rw [hzero, Nat.mul_comm] at h ⊢
    have hnext : n * 10 + (d.toNat - 48) < UInt64.size := Nat.lt_of_le_of_lt (le_ofDigitChars ds _) h
    simp only [accumulate, if_pos hnext, ih h, List.length_cons]

/-- What follows a value ends it: nothing, a comma or a closing bracket. -/
def Delimited (s : List Char) : Prop := ∀ c ∈ s.head?, c = ',' ∨ c = ']' ∨ c = '\x7d'

theorem delimited_nil : Delimited [] := nofun

theorem delimited_cons {c : Char} (h : c = ',' ∨ c = ']' ∨ c = '\x7d') (s : List Char) :
    Delimited (c :: s) := by
  rintro d ⟨⟩
  exact h

theorem Delimited.head_not_digit {c : Char} {s : List Char} (h : Delimited (c :: s)) :
    c.isDigit = false := by
  rcases h c rfl with rfl | rfl | rfl <;> rfl

theorem match_tail {β : Type} (fraction exponent plain : List Char → β) (s : List Char) :
    Delimited s → (match s with
      | '.' :: s => fraction s
      | 'e' :: s | 'E' :: s => exponent s
      | s => plain s) = plain s := by
  intro h
  cases s with
  | nil => rfl
  | cons c s => rcases h c rfl with rfl | rfl | rfl <;> rfl

theorem span_toDigits (n : Nat) {s : List Char} (h : Delimited s) :
    (Nat.toDigits 10 n ++ s).takeWhile Char.isDigit = Nat.toDigits 10 n ∧
      (Nat.toDigits 10 n ++ s).dropWhile Char.isDigit = s := by
  have hs : Text.Stops Char.isDigit s := by
    intro c hc
    rcases h c hc with rfl | rfl | rfl <;> rfl
  exact hs.span fun c hc => Nat.isDigit_of_mem_toDigits (by decide) (by decide) hc

/-- A numeral of an integer that 64 bits hold reads back, as long as what follows ends it. -/
theorem readNumber_toDigits (minus : Bool) {n : Nat} (hn : n < UInt64.size) {s : List Char}
    (hs : Delimited s) :
    readNumber minus (Nat.toDigits 10 n ++ s) = (makeInteger minus n).map fun v => (v, s) := by
  obtain ⟨htake, hdrop⟩ := span_toDigits n hs
  have hvalue : Nat.ofDigitChars 10 (Nat.toDigits 10 n) 0 = n :=
    Nat.ofDigitChars_toDigits (by decide) (by decide)
  have htaken : accumulate 0 (Nat.toDigits 10 n) = (n, (Nat.toDigits 10 n).length) := by
    rw [accumulate_eq (by rw [hvalue]; exact hn), hvalue]
  obtain ⟨d, ds, hd⟩ := List.exists_cons_of_ne_nil (Nat.toDigits_ne_nil (n := n) (b := 10))
  have hdigit : d.isDigit = true :=
    Nat.isDigit_of_mem_toDigits (n := n) (by decide) (by decide) (hd ▸ List.mem_cons_self ..)
  have hlead : ∀ c cs, d = '0' → ds ++ s = c :: cs → c.isDigit = false := by
    rintro c cs rfl h
    rw [Text.head_toDigits_zero n hd, List.nil_append] at h
    exact (h ▸ hs).head_not_digit
  have hinteger : (do let v ← makeInteger minus n; pure (v, s) : Except ReadError (Number × List Char)) =
      (makeInteger minus n).map fun v => (v, s) := by
    cases makeInteger minus n <;> rfl
  unfold readNumber
  simp only [htake, hdrop, htaken, Nat.sub_self]
  rw [hd, List.cons_append]
  split
  · contradiction
  · rename_i c tail heq
    obtain ⟨hzero, hrest⟩ := List.cons.inj heq
    rw [hlead c tail hzero hrest]
    refine (match_tail _ _ _ s hs).trans ?_
    exact hinteger
  · rename_i c tail _ heq
    obtain ⟨rfl, -⟩ := List.cons.inj heq
    rw [hdigit]
    refine (match_tail _ _ _ s hs).trans ?_
    exact hinteger

end ReplicaRouting.Json
