import Mathlib.Data.List.TakeDrop
import Mathlib.Data.List.TakeWhile
import ReplicaRouting.Lsn
import ReplicaRouting.Proofs.Text.Digits
/-!
The grammar of positions. Reading accepts the texts of this grammar and no others, and each position reads back
from its own text.
-/

namespace ReplicaRouting

namespace Text

/-! ### Numerals -/

/-- A numeral and its value: decimal digits, any number of zeros in front, behind one plus sign at most. -/
def IsNumeral (s : List Char) (n : Nat) : Prop := ∃ digits, (s = digits ∨ s = '+' :: digits) ∧
  digits ≠ [] ∧ (∀ c ∈ digits, c.isDigit = true) ∧ Nat.ofDigitChars 10 digits 0 = n

section Numeral
variable {bound n : Nat} {s : List Char}

theorem readNumeral?_eq_some : readNumeral? bound s = some n ↔ IsNumeral s n ∧ n < bound := by
  unfold readNumeral?
  split
  · rename_i digits
    rw [readDigits?_eq_some]
    refine and_congr_left' ⟨fun h => ⟨digits, .inr rfl, h⟩, ?_⟩
    rintro ⟨_, rfl | hs, h⟩
    · exact absurd (h.2.1 _ (List.mem_cons_self ..)) (by decide)
    · obtain rfl := (List.cons.inj hs).2
      exact h
  · rename_i hplus
    rw [readDigits?_eq_some]
    refine and_congr_left' ⟨fun h => ⟨s, .inl rfl, h⟩, ?_⟩
    rintro ⟨_, rfl | hs, h⟩
    · exact h
    · exact absurd hs (hplus _)

theorem isNumeral_toDigits (n : Nat) : IsNumeral (Nat.toDigits 10 n) n :=
  ⟨_, .inl rfl, Nat.toDigits_ne_nil, fun _ hc => Nat.isDigit_of_mem_toDigits (by decide) (by decide) hc,
    Nat.ofDigitChars_toDigits (by decide) (by decide)⟩

theorem IsNumeral.ne_nil (h : IsNumeral s n) : s ≠ [] := by
  obtain ⟨digits, rfl | rfl, hne, -⟩ := h
  · exact hne
  · exact List.cons_ne_nil _ _

theorem IsNumeral.forall_mem (h : IsNumeral s n) : ∀ c ∈ s, c = '+' ∨ c.isDigit = true := by
  obtain ⟨digits, rfl | rfl, -, hall, -⟩ := h
  · exact fun c hc => .inr (hall c hc)
  · exact List.forall_mem_cons.mpr ⟨.inl rfl, fun c hc => .inr (hall c hc)⟩

theorem isBlank_of_isDigit {c : Char} (h : c.isDigit = true) : isBlank c = false := by
  have hc : 48 ≤ c.toNat ∧ c.toNat ≤ 57 := Char.isDigit_iff_toNat.mp h
  simp only [isBlank, Bool.or_eq_false_iff, Bool.and_eq_false_iff, decide_eq_false_iff_not, beq_eq_false_iff_ne]
  omega

theorem IsNumeral.not_isBlank (h : IsNumeral s n) : ∀ c ∈ s, isBlank c = false := by
  intro c hc
  rcases h.forall_mem c hc with rfl | hd
  · decide
  · exact isBlank_of_isDigit hd

theorem IsNumeral.colon_notMem (h : IsNumeral s n) : ':' ∉ s :=
  fun hc => (h.forall_mem _ hc).elim (by decide) (by decide)

end Numeral

/-! ### Blanks at both ends -/

theorem Stops.append {p : Char → Bool} {s : List Char} (h : Stops p s) (hne : s ≠ []) (t : List Char) :
    Stops p (s ++ t) := by
  obtain ⟨c, s, rfl⟩ := List.exists_cons_of_ne_nil hne
  exact stops_cons (h c rfl) (s ++ t)

theorem exists_trim (s : List Char) : ∃ before after, s = before ++ trim s ++ after ∧
    (∀ c ∈ before, isBlank c = true) ∧ ∀ c ∈ after, isBlank c = true := by
  have hblank (t : List Char) : ∀ c ∈ t.takeWhile isBlank, isBlank c = true :=
    fun _ hc => List.mem_takeWhile_imp hc
  let inner := s.dropWhile isBlank
  have hinner : inner = trim s ++ (inner.reverse.takeWhile isBlank).reverse := by
    rw [trim, ← List.reverse_append, List.takeWhile_append_dropWhile, List.reverse_reverse]
  refine ⟨s.takeWhile isBlank, _, ?_, hblank s, fun c hc => hblank inner.reverse c (List.mem_reverse.mp hc)⟩
  rw [List.append_assoc, ← hinner, List.takeWhile_append_dropWhile]

theorem trim_around {before text after : List Char} (hb : ∀ c ∈ before, isBlank c = true)
    (ha : ∀ c ∈ after, isBlank c = true) (hne : text ≠ []) (hfirst : Stops isBlank text)
    (hlast : Stops isBlank text.reverse) : trim (before ++ text ++ after) = text := by
  rw [trim, List.append_assoc, ((hfirst.append hne after).span hb).2, List.reverse_append,
    (hlast.span fun c hc => ha c (List.mem_reverse.mp hc)).2, List.reverse_reverse]

end Text

namespace Lsn

open Text (IsNumeral Stops isBlank trim)

/-! ### Positions -/

/-- A text of a position: two numerals with a colon between them, and blanks around. -/
def Spells (s : List Char) (view sequence : Nat) : Prop := ∃ before v q after,
  s = before ++ (v ++ ':' :: q) ++ after ∧ (∀ c ∈ before, isBlank c = true) ∧
    (∀ c ∈ after, isBlank c = true) ∧ IsNumeral v view ∧ IsNumeral q sequence

theorem splitColon?_eq_some {s v q : List Char} : splitColon? s = some (v, q) ↔ s = v ++ ':' :: q ∧ ':' ∉ v := by
  have hcolon (t : List Char) : ':' ∉ t.takeWhile (· != ':') := fun h =>
    absurd (List.mem_takeWhile_imp h) (by decide)
  rw [splitColon?, List.span_eq_takeWhile_dropWhile]
  constructor
  · intro h
    split at h
    · rename_i hspan
      obtain ⟨rfl, hrest⟩ := Prod.mk.inj hspan
      obtain ⟨rfl, rfl⟩ := Prod.mk.inj (Option.some.inj h)
      exact ⟨by rw [← hrest, List.takeWhile_append_dropWhile], hcolon s⟩
    · exact absurd h nofun
  · rintro ⟨rfl, hv⟩
    have hstops : Stops (· != ':') (':' :: q) := Text.stops_cons (by decide) q
    have hspan := hstops.span fun c hc => bne_iff_ne.mpr fun h => hv (h ▸ hc)
    simp only [hspan.1, hspan.2]

section Reading
variable {s : List Char} {l : Lsn} {v q : Nat}

theorem read?_eq_some_iff_trim : read? s = some l ↔ ∃ a b, trim s = a ++ ':' :: b ∧
    IsNumeral a l.view.toNat ∧ IsNumeral b l.sequence.toNat := by
  simp only [read?, Option.bind_eq_bind, Option.bind_eq_some_iff, Option.pure_def, Option.some.injEq, Prod.exists,
    splitColon?_eq_some, Text.readNumeral?_eq_some]
  constructor
  · rintro ⟨a, b, ⟨hs, -⟩, v, ⟨ha, hv⟩, q, ⟨hb, hq⟩, rfl⟩
    refine ⟨a, b, hs, ?_, ?_⟩
    · rwa [Nat.toUInt32_eq, UInt32.toNat_ofNat_of_lt' hv]
    · rwa [Nat.toUInt64_eq, UInt64.toNat_ofNat_of_lt' hq]
  · rintro ⟨a, b, hs, ha, hb⟩
    exact ⟨a, b, ⟨hs, ha.colon_notMem⟩, _, ⟨ha, l.view.toNat_lt_size⟩, _, ⟨hb, l.sequence.toNat_lt_size⟩,
      by simp⟩

theorem read?_eq_some : read? s = some l ↔ Spells s l.view.toNat l.sequence.toNat := by
  rw [read?_eq_some_iff_trim]
  constructor
  · rintro ⟨a, b, hs, ha, hb⟩
    obtain ⟨before, after, htrim, hbefore, hafter⟩ := Text.exists_trim s
    exact ⟨before, a, b, after, hs ▸ htrim, hbefore, hafter, ha, hb⟩
  · rintro ⟨before, a, b, after, rfl, hbefore, hafter, ha, hb⟩
    refine ⟨a, b, Text.trim_around hbefore hafter (by simp) ?_ ?_, ha, hb⟩
    · exact Stops.append (fun c hc => ha.not_isBlank c (List.mem_of_mem_head? hc)) ha.ne_nil _
    · rw [List.reverse_append, List.reverse_cons, List.append_assoc]
      refine Stops.append (fun c hc => ?_) (List.reverse_ne_nil_iff.mpr hb.ne_nil) _
      exact hb.not_isBlank c (List.mem_reverse.mp (List.mem_of_mem_head? hc))

theorem spells_text (l : Lsn) : Spells l.text.toList l.view.toNat l.sequence.toNat := by
  refine ⟨[], _, _, [], ?_, List.forall_mem_nil _, List.forall_mem_nil _, Text.isNumeral_toDigits _,
    Text.isNumeral_toDigits _⟩
  rw [text, String.toList_ofList, List.nil_append, List.append_nil]

theorem parse_eq_ok {s : String} : parse s = .ok l ↔ Spells s.toList l.view.toNat l.sequence.toNat := by
  rw [← read?_eq_some, parse]
  split
  · rename_i m hm
    rw [hm, Except.ok.injEq, Option.some.injEq]
  · rename_i hnone
    rw [hnone]
    exact ⟨nofun, nofun⟩

theorem parse_error {s : String} {e : LsnError} (h : parse s = .error e) : e = .malformed s := by
  rw [parse] at h
  split at h
  · exact absurd h nofun
  · exact (Except.error.inj h).symm

theorem text_inj {a b : Lsn} : a.text = b.text ↔ a = b := by
  refine ⟨fun h => ?_, congrArg text⟩
  have ha := parse_eq_ok.mpr (spells_text a)
  have hb := parse_eq_ok.mpr (spells_text b)
  exact Except.ok.inj (ha.symm.trans (h ▸ hb))

/-- Reading takes the texts of the grammar with numbers in range, returns a refused text as it was given, and
undoes printing, so that two texts are of one position when they print alike. -/
theorem parse_spelled : (∀ s l, parse s = .ok l ↔ Spells s.toList l.view.toNat l.sequence.toNat) ∧
    (∀ s e, parse s = .error e ↔ e = .malformed s ∧
      ¬ ∃ v q, v < UInt32.size ∧ q < UInt64.size ∧ Spells s.toList v q) ∧
    (∀ l, parse l.text = .ok l) ∧
    ∀ s t l m, parse s = .ok l → parse t = .ok m → (l = m ↔ l.text = m.text) := by
  refine ⟨fun s l => parse_eq_ok, fun s e => ?_, fun l => parse_eq_ok.mpr (spells_text l),
    fun _ _ _ _ _ _ => text_inj.symm⟩
  constructor
  · intro h
    refine ⟨parse_error h, ?_⟩
    rintro ⟨v, q, hv, hq, hs⟩
    rw [← UInt32.toNat_ofNat_of_lt' hv, ← UInt64.toNat_ofNat_of_lt' hq] at hs
    exact absurd (h.symm.trans (parse_eq_ok (l := ⟨_, _⟩) |>.mpr hs)) nofun
  · rintro ⟨rfl, hnone⟩
    cases hp : parse s with
    | ok l => exact absurd ⟨_, _, l.view.toNat_lt_size, l.sequence.toNat_lt_size, parse_eq_ok.mp hp⟩ hnone
    | error e => rw [parse_error hp]

theorem parse_spelled_padded :
    parse "\u2003+007:0018446744073709551615\n" = .ok ⟨7, 18446744073709551615⟩ ∧
      parse "7:+18446744073709551615" = .ok ⟨7, 18446744073709551615⟩ ∧
      ((⟨7, 18446744073709551615⟩ : Lsn) = ⟨7, 18446744073709551615⟩ ↔
        text ⟨7, 18446744073709551615⟩ = text ⟨7, 18446744073709551615⟩) :=
  have hpadded : parse "\u2003+007:0018446744073709551615\n" = .ok ⟨7, 18446744073709551615⟩ := by decide +kernel
  have hplain : parse "7:+18446744073709551615" = .ok ⟨7, 18446744073709551615⟩ := by decide +kernel
  ⟨hpadded, hplain, parse_spelled.2.2.2 _ _ _ _ hpadded hplain⟩

example : parse " 1:4294967296:0" = .error (.malformed " 1:4294967296:0") := by decide +kernel

end Reading

end Lsn
end ReplicaRouting
