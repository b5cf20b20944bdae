import ReplicaRouting.Json.Record
import ReplicaRouting.Proofs.Json.Tokens
/-!
Values read back as they are written: any value in which every number is an integer that 64 bits hold, as
long as its lists and objects are not deeper inside one another than the reader goes. A record reads back
from the object with its fields.
-/

namespace ReplicaRouting.Json

/-! ### Values that a text carries -/

def Number.Exact : Number → Prop
  | .natural n => n < UInt64.size
  | .negative n => 0 < n ∧ n ≤ Nat.pow 2 63
  | .double _ => False

/-- Exact numbers, and lists and objects at most `depth` inside one another. -/
inductive Value.Fits : Nat → Value → Prop
  | null {depth} : Fits depth .null
  | bool {depth} (b : Bool) : Fits depth (.bool b)
  | number {depth n} (h : n.Exact) : Fits depth (.number n)
  | string {depth} (s : String) : Fits depth (.string s)
  | array {depth items} (h : ∀ v ∈ items, Fits depth v) : Fits (depth + 1) (.array items)
  | object {depth members} (h : ∀ m ∈ members, Fits depth m.2) : Fits (depth + 1) (.object members)

theorem Value.Fits.succ {depth : Nat} {v : Value} (h : v.Fits depth) : v.Fits (depth + 1) := by
  induction h with
  | null => exact .null
  | bool b => exact .bool b
  | number h => exact .number h
  | string s => exact .string s
  | array _ ih => exact .array ih
  | object _ ih => exact .object ih

theorem Value.Fits.mono {depth bound : Nat} {v : Value} (h : v.Fits depth) (hle : depth ≤ bound) :
    v.Fits bound := by
  induction hle with
  | refl => exact h
  | step _ ih => exact ih.succ

/-! ### What is written -/

def member (m : String × Value) : List Char := literal m.1.toList ++ ':' :: m.2.render

theorem literal_append (cs s : List Char) : literal cs ++ s = '"' :: (cs.flatMap escape ++ '"' :: s) := by
  simp only [literal, List.cons_append, List.append_assoc, List.nil_append]

def separated : (first : Bool) → List (List Char) → List Char
  | _, [] => []
  | true, t :: ts => t ++ separated false ts
  | false, t :: ts => ',' :: t ++ separated false ts

theorem renderItems_eq (vs : List Value) : Value.renderItems vs = separated true (vs.map Value.render) := by
  induction vs with
  | nil => rfl
  | cons v vs ih =>
    cases vs with
    | nil => exact (List.append_nil _).symm
    | cons w vs =>
      rw [Value.renderItems, ih]
      · rfl
      · exact nofun

theorem renderMembers_eq (ms : List (String × Value)) : Value.renderMembers ms = separated true (ms.map member) := by
  induction ms with
  | nil => rfl
  | cons m ms ih =>
    obtain ⟨k, v⟩ := m
    cases ms with
    | nil => exact (List.append_nil _).symm
    | cons l ms =>
      rw [Value.renderMembers, ih]
      · rfl
      · exact nofun

theorem isBlank_of_isDigit {c : Char} (h : c.isDigit = true) : isBlank c = false := by
  refine Bool.eq_false_iff.2 fun hblank => ?_
  simp only [isBlank, Bool.or_eq_true, beq_iff_eq] at hblank
  rcases hblank with ((rfl | rfl) | rfl) | rfl <;> exact absurd h (by decide)

theorem Value.Fits.render_head {depth : Nat} {v : Value} (h : v.Fits depth) :
    ∃ c s, v.render = c :: s ∧ isBlank c = false ∧ c ≠ ']' := by
  cases h with
  | null => exact ⟨_, _, rfl, rfl, by decide⟩
  | bool b => cases b <;> exact ⟨_, _, rfl, rfl, by decide⟩
  | @number _ n h =>
    cases n with
    | natural n =>
      obtain ⟨c, s, hc⟩ := List.exists_cons_of_ne_nil (Nat.toDigits_ne_nil (n := n) (b := 10))
      have hdigit : c.isDigit = true :=
        Nat.isDigit_of_mem_toDigits (n := n) (by decide) (by decide) (hc ▸ List.mem_cons_self ..)
      exact ⟨c, s, hc, isBlank_of_isDigit hdigit, by rintro rfl; exact absurd hdigit (by decide)⟩
    | negative n => exact ⟨_, _, rfl, rfl, by decide⟩
    | double => exact h.elim
  | string s => exact ⟨_, _, rfl, rfl, by decide⟩
  | array => exact ⟨_, _, rfl, rfl, by decide⟩
  | object => exact ⟨_, _, rfl, rfl, by decide⟩

/-! ### Separators and keys -/

theorem skipBlanks_cons {c : Char} (h : isBlank c = false) (s : List Char) : skipBlanks (c :: s) = c :: s :=
  List.dropWhile_cons_of_neg (by rw [h]; exact Bool.false_ne_true)

theorem nextItem_first {v : Value} {depth : Nat} (h : v.Fits depth) (s : List Char) :
    nextItem true (v.render ++ s) = .ok (true, v.render ++ s) := by
  obtain ⟨c, t, hv, hblank, hclose⟩ := h.render_head
  rw [hv, List.cons_append, nextItem, skipBlanks_cons hblank]
  split
  · contradiction
  · rename_i heq
    exact absurd (List.cons.inj heq).1 hclose
  · rename_i heq
    rw [← heq]
    rfl

theorem nextItem_comma {v : Value} {depth : Nat} (h : v.Fits depth) (s : List Char) :
    nextItem false (',' :: (v.render ++ s)) = .ok (true, v.render ++ s) := by
  obtain ⟨c, t, hv, hblank, hclose⟩ := h.render_head
  rw [hv, List.cons_append, nextItem, skipBlanks_cons rfl]
  split
  · contradiction
  · rename_i heq
    exact absurd (List.cons.inj heq).1 (by decide)
  · rename_i heq
    obtain ⟨rfl, rfl⟩ := List.cons.inj heq
    rw [if_neg Bool.false_ne_true, if_pos rfl, skipBlanks_cons hblank]
    split
    · contradiction
    · rename_i heq
      exact absurd (List.cons.inj heq).1 hclose
    · rfl

theorem nextKey_first (k : String) (s : List Char) :
    nextKey true (literal k.toList ++ s) = .ok (some k, s) := by
  have hread := readString_literal k s
  rw [literal_append]
  exact congrArg (Except.map fun r : String × List Char => (some r.1, r.2)) hread

theorem nextKey_comma (k : String) (s : List Char) :
    nextKey false (',' :: (literal k.toList ++ s)) = .ok (some k, s) := by
  have hread := readString_literal k s
  rw [literal_append]
  exact congrArg (Except.map fun r : String × List Char => (some r.1, r.2)) hread

theorem readColon_cons (s : List Char) : readColon (':' :: s) = .ok s := rfl

/-! ### Lists and objects -/

/-- The reader gives the value back from its text, whatever follows. -/
def Returns (read : Reader α) (text : List Char) (a : α) : Prop :=
  ∀ s, Delimited s → read (text ++ s) = .ok (a, s)

theorem delimited_separated (ts : List (List Char)) {c : Char} (h : c = ']' ∨ c = '\x7d') (s : List Char) :
    Delimited (separated false ts ++ c :: s) := by
  cases ts with
  | nil => exact delimited_cons (.inr h) s
  | cons t ts => exact delimited_cons (.inl rfl) _

theorem length_le_separated {ts : List (List Char)} (h : ∀ t ∈ ts, t ≠ []) (first : Bool) :
    ts.length ≤ (separated first ts).length := by
  induction ts generalizing first with
  | nil => exact Nat.zero_le _
  | cons t ts ih =>
    have hrest := ih (fun u hu => h u (.tail _ hu)) false
    have ht := List.length_pos_iff.2 (h t (.head _))
    cases first <;> simp only [separated, List.length_append, List.length_cons] <;> omega

theorem length_le_members (ms : List (String × Value)) : ms.length ≤ (separated true (ms.map member)).length := by
  have hne : ∀ t ∈ ms.map member, t ≠ [] := by
    simp only [List.mem_map]
    rintro _ ⟨m, -, rfl⟩
    exact nofun
  have h := length_le_separated hne true
  rwa [List.length_map] at h

theorem readItems_separated {item : Reader Value} {depth : Nat} {vs : List Value} (hfits : ∀ v ∈ vs, v.Fits depth)
    (hitem : ∀ v ∈ vs, Returns item v.render v) {fuel : Nat} (hfuel : vs.length < fuel) (first : Bool)
    (s : List Char) :
    readItems item fuel first (separated first (vs.map Value.render) ++ ']' :: s) = .ok (vs, ']' :: s) := by
  induction vs generalizing fuel first with
  | nil =>
    obtain _ | fuel := fuel
    · cases hfuel
    · cases first <;> rfl
  | cons v vs ih =>
    obtain _ | fuel := fuel
    · cases hfuel
    have hrest := ih (fun w hw => hfits w (.tail _ hw)) (fun w hw => hitem w (.tail _ hw))
      (Nat.lt_of_succ_lt_succ hfuel) false
    have hv := hitem v (.head _) _ (delimited_separated (vs.map Value.render) (.inl rfl) s)
    have hnext : nextItem first (separated first (v.render :: vs.map Value.render) ++ ']' :: s) =
        .ok (true, v.render ++ (separated false (vs.map Value.render) ++ ']' :: s)) := by
      cases first
      · simp only [separated, List.cons_append, List.append_assoc, nextItem_comma (hfits v (.head _))]
      · simp only [separated, List.append_assoc, nextItem_first (hfits v (.head _))]
    simp only [List.map_cons, readItems, hnext, bind, Except.bind, Bool.not_true, Bool.false_eq_true, if_false,
      hv, hrest]
    rfl

theorem nextKey_separated (first : Bool) (m : String × Value) (ts : List (List Char)) (s : List Char) :
    nextKey first (separated first (member m :: ts) ++ '\x7d' :: s) =
      .ok (some m.1, ':' :: (m.2.render ++ (separated false ts ++ '\x7d' :: s))) := by
  cases first
  · simp only [separated, member, List.cons_append, List.append_assoc, nextKey_comma]
  · simp only [separated, member, List.cons_append, List.append_assoc, nextKey_first]

theorem readMembers_separated {item : Reader Value} {ms : List (String × Value)}
    (hitem : ∀ m ∈ ms, Returns item m.2.render m.2) {fuel : Nat} (hfuel : ms.length < fuel) (first : Bool)
    (s : List Char) :
    readMembers item fuel first (separated first (ms.map member) ++ '\x7d' :: s) = .ok (ms, '\x7d' :: s) := by
  induction ms generalizing fuel first with
  | nil =>
    obtain _ | fuel := fuel
    · cases hfuel
    · cases first <;> rfl
  | cons m ms ih =>
    obtain _ | fuel := fuel
    · cases hfuel
    have hrest := ih (fun w hw => hitem w (.tail _ hw)) (Nat.lt_of_succ_lt_succ hfuel) false
    have hm := hitem m (.head _) _ (delimited_separated (ms.map member) (.inr rfl) s)
    simp only [List.map_cons, readMembers, nextKey_separated, bind, Except.bind, readColon_cons, hm, hrest]
    rfl

/-! ### Values -/

theorem readValueWith_digit (nested : Option (Reader Value)) {c : Char} (h : c.isDigit = true) (s : List Char) :
    readValueWith nested (c :: s) = (readNumber false (c :: s)).map fun (n, s) => (.number n, s) := by
  rw [readValueWith, skipBlanks_cons (isBlank_of_isDigit h)]
  split
  · contradiction
  iterate 7
    rename_i heq
    obtain ⟨rfl, -⟩ := List.cons.inj heq
    exact absurd h (by decide)
  rename_i heq
  obtain ⟨rfl, rfl⟩ := List.cons.inj heq
  rw [if_pos h]

theorem readNumber_render (nested : Option (Reader Value)) {n : Number} (h : n.Exact) :
    Returns (readValueWith nested) n.render (.number n) := by
  intro s hs
  cases n with
  | natural n =>
    obtain ⟨c, t, hc⟩ := List.exists_cons_of_ne_nil (Nat.toDigits_ne_nil (n := n) (b := 10))
    have hdigit : c.isDigit = true :=
      Nat.isDigit_of_mem_toDigits (n := n) (by decide) (by decide) (hc ▸ List.mem_cons_self ..)
    have hread := readNumber_toDigits false h hs
    rw [hc, List.cons_append] at hread
    rw [Number.render, hc, List.cons_append, readValueWith_digit nested hdigit, hread]
    rfl
  | negative n =>
    have hsize : n < UInt64.size := Nat.lt_of_le_of_lt h.2 (by decide)
    have hread := readNumber_toDigits true hsize hs
    have hmake : makeInteger true n = .ok (.negative n) := by
      simp only [makeInteger, Bool.not_true, Bool.false_eq_true, if_false]
      exact if_pos h
    rw [hmake] at hread
    exact congrArg (Except.map fun r : Number × List Char => (Value.number r.1, r.2)) hread
  | double bits => exact h.elim

theorem readValueWith_literal (nested : Option (Reader Value)) (t : String) :
    Returns (readValueWith nested) (literal t.toList) (.string t) := by
  intro s _
  have hread := readString_literal t s
  rw [literal_append]
  exact congrArg (Except.map fun r : String × List Char => (Value.string r.1, r.2)) hread

theorem readValueWith_array {item : Reader Value} {depth : Nat} {vs : List Value}
    (hfits : ∀ v ∈ vs, v.Fits depth) (hitem : ∀ v ∈ vs, Returns item v.render v) :
    Returns (readValueWith (some item)) (Value.array vs).render (.array vs) := by
  intro s hs
  have hlength : vs.length < (separated true (vs.map Value.render) ++ ']' :: s).length + 1 := by
    have hne : ∀ t ∈ vs.map Value.render, t ≠ [] := by
      simp only [List.mem_map]
      rintro _ ⟨v, hv, rfl⟩
      obtain ⟨c, t, hv, -⟩ := (hfits v hv).render_head
      rw [hv]
      exact List.cons_ne_nil c t
    have h := length_le_separated hne true
    rw [List.length_map] at h
    rw [List.length_append]
    omega
  have hitems := readItems_separated hfits hitem hlength true s
  rw [Value.render, renderItems_eq, List.append_assoc, List.cons_append]
  rw [readValueWith, skipBlanks_cons rfl]
  simp only [List.singleton_append, bind, Except.bind, hitems]
  rfl

/-- After its closing brace an object needs nothing to end it. -/
theorem readValueWith_braces {item : Reader Value} {ms : List (String × Value)}
    (hitem : ∀ m ∈ ms, Returns item m.2.render m.2) (s : List Char) :
    readValueWith (some item) ((Value.object ms).render ++ s) = .ok (.object ms, s) := by
  have hlength : ms.length < (separated true (ms.map member) ++ '\x7d' :: s).length + 1 := by
    have h := length_le_members ms
    rw [List.length_append]
    omega
  have hmembers := readMembers_separated hitem hlength true s
  rw [Value.render, renderMembers_eq, List.append_assoc, List.cons_append]
  rw [readValueWith, skipBlanks_cons rfl]
  simp only [List.singleton_append, bind, Except.bind, hmembers]
  rfl

theorem readValueWith_object {item : Reader Value} {ms : List (String × Value)}
    (hitem : ∀ m ∈ ms, Returns item m.2.render m.2) :
    Returns (readValueWith (some item)) (Value.object ms).render (.object ms) :=
  fun s _ => readValueWith_braces hitem s

/-- A value that fits reads back, whatever follows it. -/
theorem readValue_render {depth : Nat} {v : Value} (h : v.Fits depth) : Returns (readValue depth) v.render v := by
  induction h with
  | @null depth => intro s _; cases depth <;> rfl
  | @bool depth b => intro s _; cases depth <;> cases b <;> rfl
  | @number depth n h => cases depth <;> exact readNumber_render _ h
  | @string depth t => cases depth <;> exact readValueWith_literal _ t
  | array hfits ih => exact readValueWith_array hfits ih
  | object _ ih => exact readValueWith_object ih

/-! ### Whole texts -/

theorem Returns.run {read : Reader α} {v : Value} {a : α} (h : Returns read v.render a) :
    read.run v.compact = .ok a := by
  have hread := h [] delimited_nil
  rw [List.append_nil] at hread
  simp only [Reader.run, Value.compact, String.toList_ofList, hread, bind, Except.bind]
  rfl

theorem parse_compact {v : Value} (h : v.Fits maxDepth) : parse v.compact = .ok v :=
  (readValue_render h).run

/-- An object is parsed from its line. -/
theorem parse_line {ms : List (String × Value)} (h : ∀ m ∈ ms, m.2.Fits (maxDepth - 1)) :
    parse (String.ofList ((Value.object ms).render ++ ['\n'])) = .ok (.object ms) := by
  have hread : readValue maxDepth ((Value.object ms).render ++ ['\n']) = .ok (.object ms, ['\n']) :=
    readValueWith_braces (fun m hm => readValue_render (h m hm)) ['\n']
  simp only [parse, Reader.run, String.toList_ofList, hread, bind, Except.bind]
  rfl

/-! ### Records -/

/-- A field of a record with the value written for it, and what the field's reader makes of that value. -/
structure Entry (α : Type) where
  field : Field α
  value : Value
  part : α

namespace Entry

def written (e : Entry α) : String × Value := (e.field.name, e.value)

def found (e : Entry α) : String × α := (e.field.name, e.part)

variable {es : List (Entry α)}

theorem find_field (hnames : (es.map (·.field.name)).Nodup) {e : Entry α} (he : e ∈ es) :
    (es.map Entry.field).find? (·.name = e.field.name) = some e.field := by
  induction es with
  | nil => cases he
  | cons l es ih =>
    rw [List.map_cons, List.nodup_cons] at hnames
    cases he with
    | head => exact List.find?_cons_of_pos (decide_eq_true rfl)
    | tail _ he =>
      have hother : l.field.name ≠ e.field.name := fun h => hnames.1 (h ▸ List.mem_map_of_mem he)
      rw [List.map_cons, List.find?_cons_of_neg (by rwa [decide_eq_true_eq])]
      exact ih hnames.2 he

theorem lookup_found (hnames : (es.map (·.field.name)).Nodup) {e : Entry α} (he : e ∈ es) :
    (es.map found).lookup e.field.name = some e.part := by
  induction es with
  | nil => cases he
  | cons l es ih =>
    rw [List.map_cons, List.nodup_cons] at hnames
    cases he with
    | head => exact List.lookup_cons_self
    | tail _ he =>
      have hother : (e.field.name == l.field.name) = false :=
        beq_eq_false_iff_ne.2 fun h => hnames.1 (h ▸ List.mem_map_of_mem he)
      rw [List.map_cons, found, List.lookup_cons, hother]
      exact ih hnames.2 he

theorem collect_found (hnames : (es.map (·.field.name)).Nodup) :
    collect (es.map found) (es.map Entry.field) = .ok (es.map part) := by
  have hall : ∀ ls : List (Entry α), (∀ e ∈ ls, (es.map found).lookup e.field.name = some e.part) →
      collect (es.map found) (ls.map Entry.field) = .ok (ls.map part) := by
    intro ls hls
    induction ls with
    | nil => rfl
    | cons l ls ih =>
      have hrest := ih fun e he => hls e (.tail _ he)
      unfold collect at hrest ⊢
      rw [List.map_cons, List.mapM_cons, hls l (.head _), hrest]
      rfl
  exact hall es fun e he => lookup_found hnames he

theorem readFields_separated {fields : List (Field α)} (hreads : ∀ e ∈ es, Returns e.field.read e.value.render e.part)
    (hfind : ∀ e ∈ es, fields.find? (·.name = e.field.name) = some e.field)
    (hnames : (es.map (·.field.name)).Nodup) {seen : List String} (hseen : ∀ e ∈ es, e.field.name ∉ seen)
    {fuel : Nat} (hfuel : es.length < fuel) (first : Bool) (s : List Char) :
    readFields fields fuel first seen (separated first ((es.map written).map member) ++ '\x7d' :: s) =
      .ok (es.map found, '\x7d' :: s) := by
  induction es generalizing fuel first seen with
  | nil =>
    obtain _ | fuel := fuel
    · cases hfuel
    · cases first <;> rfl
  | cons e es ih =>
    obtain _ | fuel := fuel
    · cases hfuel
    rw [List.map_cons, List.nodup_cons] at hnames
    have hunseen : ∀ l ∈ es, l.field.name ∉ e.field.name :: seen := by
      intro l hl h
      rcases List.mem_cons.1 h with h | h
      · exact hnames.1 (h ▸ List.mem_map_of_mem hl)
      · exact hseen l (.tail _ hl) h
    have hrest := ih (fun l hl => hreads l (.tail _ hl)) (fun l hl => hfind l (.tail _ hl)) hnames.2 hunseen
      (Nat.lt_of_succ_lt_succ hfuel) false
    have he := hreads e (.head _) _ (delimited_separated ((es.map written).map member) (.inr rfl) s)
    simp only [List.map_cons, readFields, nextKey_separated, bind, Except.bind, written, hfind e (.head _),
      if_neg (hseen e (.head _)), readColon_cons] at he hrest ⊢
    simp only [he, hrest]
    rfl

theorem readRecord_object (name : String) (hreads : ∀ e ∈ es, Returns e.field.read e.value.render e.part)
    (hnames : (es.map (·.field.name)).Nodup) :
    Returns (readRecord name (es.map Entry.field)) (Value.object (es.map written)).render (es.map part) := by
  intro s _
  have hlength : es.length < (separated true ((es.map written).map member) ++ '\x7d' :: s).length + 1 := by
    have h := length_le_members (es.map written)
    rw [List.length_map] at h
    rw [List.length_append]
    omega
  have hunseen : ∀ e ∈ es, e.field.name ∉ ([] : List String) := fun _ _ => List.not_mem_nil
  have hfields := readFields_separated hreads (fun e he => find_field hnames he) hnames hunseen hlength true s
  rw [Value.render, renderMembers_eq, List.append_assoc, List.cons_append]
  rw [readRecord, skipBlanks_cons rfl]
  simp only [List.singleton_append, bind, Except.bind, hfields, collect_found hnames]
  rfl

end Entry

/-! ### No control characters -/

theorem printable_of_all {cs : List Char} (h : (cs.all fun d => 0x20 ≤ d.toNat) = true) :
    ∀ d ∈ cs, 0x20 ≤ d.toNat := fun d hd => of_decide_eq_true (List.all_eq_true.1 h d hd)

theorem digitChar_printable : ∀ n < 16, 0x20 ≤ (Nat.digitChar n).toNat := by
  decide

theorem escape_printable (c : Char) : ∀ d ∈ escape c, 0x20 ≤ d.toNat := by
  unfold escape
  split
  iterate 7 exact printable_of_all rfl
  split
  · rename_i h
    have hhigh := digitChar_printable (c.toNat / 16) (by omega)
    have hlow := digitChar_printable (c.toNat % 16) (by omega)
    simp only [List.mem_cons, List.not_mem_nil, or_false]
    rintro d (rfl | rfl | rfl | rfl | rfl | rfl)
    iterate 4 decide
    · exact hhigh
    · exact hlow
  · rename_i h
    rintro d ⟨⟩
    · exact Nat.le_of_not_lt h
    · contradiction

theorem literal_printable (cs : List Char) : ∀ d ∈ literal cs, 0x20 ≤ d.toNat := by
  simp only [literal, List.mem_append, List.mem_cons, List.mem_flatMap, List.not_mem_nil, or_false]
  rintro d ((rfl | ⟨c, -, hd⟩) | rfl)
  · decide
  · exact escape_printable c d hd
  · decide

theorem Number.Exact.printable {n : Number} (h : n.Exact) : ∀ d ∈ n.render, 0x20 ≤ d.toNat := by
  have hdigits : ∀ n, ∀ d ∈ Nat.toDigits 10 n, 0x20 ≤ d.toNat := by
    intro n d hd
    have hdigit := Nat.isDigit_of_mem_toDigits (b := 10) (by decide) (by decide) hd
    exact Nat.le_trans (by decide) (Char.isDigit_iff_toNat.1 hdigit).1
  cases n with
  | natural n => exact hdigits n
  | negative n =>
    rintro d (_ | ⟨_, hd⟩)
    · decide
    · exact hdigits n d hd
  | double bits => exact h.elim

theorem separated_printable {ts : List (List Char)} (h : ∀ t ∈ ts, ∀ d ∈ t, 0x20 ≤ d.toNat) (first : Bool) :
    ∀ d ∈ separated first ts, 0x20 ≤ d.toNat := by
  induction ts generalizing first with
  | nil => cases first <;> exact nofun
  | cons t ts ih =>
    have ht := h t (.head _)
    have hts := ih (fun u hu => h u (.tail _ hu)) false
    cases first <;> simp only [separated, List.cons_append, List.mem_cons, List.mem_append]
    · rintro d (rfl | hd | hd)
      · decide
      · exact ht d hd
      · exact hts d hd
    · rintro d (hd | hd)
      · exact ht d hd
      · exact hts d hd

/-- No control characters, line breaks among them, stand in the text of a value that fits. -/
theorem Value.Fits.printable {depth : Nat} {v : Value} (h : v.Fits depth) : ∀ d ∈ v.render, 0x20 ≤ d.toNat := by
  induction h with
  | null => exact printable_of_all rfl
  | bool b => cases b <;> exact printable_of_all rfl
  | number h => exact h.printable
  | string s => exact literal_printable s.toList
  | @array _ vs _ ih =>
    have hitems : ∀ d ∈ separated true (vs.map Value.render), 0x20 ≤ d.toNat :=
      separated_printable (by simpa only [List.forall_mem_map] using ih) true
    simp only [Value.render, renderItems_eq, List.cons_append, List.mem_cons, List.mem_append, List.not_mem_nil,
      or_false]
    rintro d (rfl | hd | rfl)
    · decide
    · exact hitems d hd
    · decide
  | @object _ ms _ ih =>
    have hmember : ∀ m ∈ ms, ∀ d ∈ member m, 0x20 ≤ d.toNat := by
      intro m hm d hd
      rw [member, List.mem_append, List.mem_cons] at hd
      obtain hd | rfl | hd := hd
      · exact literal_printable _ d hd
      · decide
      · exact ih m hm d hd
    have hmembers : ∀ d ∈ separated true (ms.map member), 0x20 ≤ d.toNat :=
      separated_printable (by simpa only [List.forall_mem_map] using hmember) true
    simp only [Value.render, renderMembers_eq, List.cons_append, List.mem_cons, List.mem_append, List.not_mem_nil,
      or_false]
    rintro d (rfl | hd | rfl)
    · decide
    · exact hmembers d hd
    · decide

end ReplicaRouting.Json
