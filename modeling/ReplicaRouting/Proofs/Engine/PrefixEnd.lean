import ReplicaRouting.Engine.Bytes
/-!
The end of a prefix. The keys from a prefix up to its end are those that begin with it, and no lower key
than the end is above all of them. A prefix has no end exactly if all its bytes are `0xff`.
-/

namespace ReplicaRouting.Engine

variable {p k e : Bytes}

/-! ### The order of keys -/

theorem compare_cons_self (b : UInt8) (p k : Bytes) : compare (b :: p) (b :: k) = compare p k := by
  have hb : ¬ b < b := Nat.lt_irrefl _
  rw [compare, if_neg hb, if_neg hb]

theorem compare_append (q p k : Bytes) : compare (q ++ p) (q ++ k) = compare p k := by
  induction q with
  | nil => rfl
  | cons b q ih => rw [List.cons_append, List.cons_append, compare_cons_self, ih]

theorem compare_self (p : Bytes) : compare p p = .eq := by
  induction p with
  | nil => rfl
  | cons b p ih => rw [compare_cons_self, ih]

theorem compare_swap (p k : Bytes) : (compare p k).swap = compare k p := by
  induction p, k using compare.induct with
  | case1 | case2 | case3 => rfl
  | case4 a as b bs h =>
    have hn : ¬ b < a := UInt8.lt_asymm h
    rw [compare, if_pos h, compare, if_neg hn, if_pos h]
    rfl
  | case5 a as b bs hn h =>
    rw [compare, if_neg hn, if_pos h, compare, if_pos h]
    rfl
  | case6 a as b bs hn hn' ih => rw [compare, if_neg hn, if_neg hn', compare, if_neg hn', if_neg hn, ih]

theorem compare_of_isPrefix (h : p <+: k) : compare p k ≠ .gt := by
  obtain ⟨t, rfl⟩ := h
  have ht : compare (p ++ []) (p ++ t) = compare [] t := compare_append p [] t
  rw [List.append_nil] at ht
  rw [ht]
  cases t <;> exact nofun

theorem exists_append_of_between {q r t : Bytes} (hp : compare (q ++ r) k ≠ .gt)
    (he : compare k (q ++ t) = .lt) : ∃ k', k = q ++ k' ∧ compare r k' ≠ .gt ∧ compare k' t = .lt := by
  induction q generalizing k with
  | nil => exact ⟨k, rfl, hp, he⟩
  | cons b q ih =>
    cases k with
    | nil => exact absurd rfl hp
    | cons c k =>
      rw [List.cons_append, compare] at hp he
      by_cases hbc : b < c
      · rw [if_neg (UInt8.lt_asymm hbc), if_pos hbc] at he
        cases he
      · by_cases hcb : c < b
        · rw [if_neg hbc, if_pos hcb] at hp
          exact absurd rfl hp
        · obtain rfl : b = c := UInt8.le_antisymm (UInt8.not_lt.mp hcb) (UInt8.not_lt.mp hbc)
          rw [if_neg hbc, if_neg hbc] at hp he
          obtain ⟨k', rfl, h⟩ := ih hp he
          exact ⟨k', rfl, h⟩

/-- No key is above a run of highest bytes but those that begin with it. -/
theorem isPrefix_of_highest {r : Bytes} (hr : ∀ b ∈ r, b = 0xff) (h : compare r k ≠ .gt) : r <+: k := by
  induction r generalizing k with
  | nil => exact List.nil_prefix
  | cons b r ih =>
    obtain rfl := hr b (.head _)
    cases k with
    | nil => exact absurd rfl h
    | cons c k =>
      have hn : ¬ (0xff : UInt8) < c := Nat.not_lt.mpr (Nat.le_of_lt_succ c.toNat_lt)
      rw [compare, if_neg hn] at h
      by_cases hc : c < 0xff
      · rw [if_pos hc] at h
        exact absurd rfl h
      · obtain rfl : 0xff = c := UInt8.le_antisymm (UInt8.not_lt.mp hc) (UInt8.not_lt.mp hn)
        rw [if_neg hc] at h
        exact List.cons_prefix_cons.mpr ⟨rfl, ih (fun b hb => hr b (.tail _ hb)) h⟩

/-! ### What the end is -/

theorem toNat_succ {b : UInt8} (h : b ≠ 0xff) : (b + 1).toNat = b.toNat + 1 := by
  have hne : b.toNat ≠ 255 := fun he => h (UInt8.toNat_inj.mp he)
  have hlt := b.toNat_lt
  rw [UInt8.toNat_add]
  exact Nat.mod_eq_of_lt (show b.toNat + 1 < 256 by omega)

/-- The end of a prefix is made by raising its last byte that is not the highest, and dropping the rest. -/
inductive Raised : Bytes → Bytes → Prop
  | intro (q : Bytes) (b : UInt8) (r : Bytes) (hb : b ≠ 0xff) (hr : ∀ c ∈ r, c = 0xff) :
      Raised (q ++ b :: r) (q ++ [b + 1])

theorem raiseReversed_spec (bs : Bytes) :
    match raiseReversed bs with
    | none => ∀ b ∈ bs, b = 0xff
    | some e => Raised bs.reverse e.reverse := by
  -- the bytes passed over so far stay at the end of the prefix
  suffices h : ∀ r : Bytes, (∀ c ∈ r, c = 0xff) → match raiseReversed bs with
      | none => ∀ b ∈ bs, b = 0xff
      | some e => Raised (bs.reverse ++ r) e.reverse by
    simpa using h [] nofun
  induction bs with
  | nil => exact fun _ _ => nofun
  | cons b bs ih =>
    intro r hr
    rw [raiseReversed, List.reverse_cons, List.append_assoc]
    by_cases hb : b = 0xff
    · have hr' : ∀ c ∈ b :: r, c = 0xff := by
        rintro c (_ | ⟨_, hc⟩)
        · exact hb
        · exact hr c hc
      have h := ih (b :: r) hr'
      rw [if_pos hb]
      split at h
      · exact List.forall_mem_cons.mpr ⟨hb, h⟩
      · exact h
    · rw [if_neg hb]
      show Raised _ ((b + 1) :: bs).reverse
      rw [List.reverse_cons]
      exact .intro bs.reverse b r hb hr

theorem prefixEnd?_eq_none (h : prefixEnd? p = none) : ∀ b ∈ p, b = 0xff := by
  have hs := raiseReversed_spec p.reverse
  rw [Option.map_eq_none_iff.mp h] at hs
  exact fun b hb => hs b (List.mem_reverse.mpr hb)

theorem raised_of_prefixEnd? (h : prefixEnd? p = some e) : Raised p e := by
  obtain ⟨e', he, rfl⟩ := Option.map_eq_some_iff.mp h
  have hs := raiseReversed_spec p.reverse
  rwa [he, List.reverse_reverse] at hs

theorem Raised.lt_of_isPrefix (h : Raised p e) (hk : p <+: k) : compare k e = .lt := by
  obtain ⟨q, b, r, hb, hr⟩ := h
  obtain ⟨t, rfl⟩ := hk
  have hlt : b < b + 1 := UInt8.lt_iff_toNat_lt.mpr (by rw [toNat_succ hb]; exact Nat.lt_succ_self _)
  rw [List.append_assoc, compare_append, List.cons_append, compare, if_pos hlt]

theorem Raised.isPrefix_iff (h : Raised p e) (k : Bytes) :
    p <+: k ↔ compare p k ≠ .gt ∧ compare k e = .lt := by
  refine ⟨fun hk => ⟨compare_of_isPrefix hk, h.lt_of_isPrefix hk⟩, fun ⟨hp, he⟩ => ?_⟩
  obtain ⟨q, b, r, hb, hr⟩ := h
  obtain ⟨k, rfl, hle, hlt⟩ := exists_append_of_between hp he
  cases k with
  | nil => exact absurd rfl hle
  | cons c k =>
    -- the byte after the common part is neither below the last of the prefix nor above it
    have hcb : ¬ c < b := by
      intro hcb
      rw [compare, if_neg (UInt8.lt_asymm hcb), if_pos hcb] at hle
      exact hle rfl
    have hbc : ¬ b < c := by
      intro hbc
      have hle : b.toNat + 1 ≤ c.toNat := hbc
      have hn : ¬ c < b + 1 := by
        rw [UInt8.lt_iff_toNat_lt, toNat_succ hb]
        omega
      rw [compare, if_neg hn] at hlt
      split at hlt
      · cases hlt
      · cases k <;> cases hlt
    obtain rfl : b = c := UInt8.le_antisymm (UInt8.not_lt.mp hcb) (UInt8.not_lt.mp hbc)
    rw [compare_cons_self] at hle
    exact (List.prefix_append_right_inj q).mpr
      (List.cons_prefix_cons.mpr ⟨rfl, isPrefix_of_highest hr hle⟩)

def IsAbove (p b : Bytes) : Prop := ∀ k, p <+: k → compare k b = .lt

theorem Raised.isAbove (h : Raised p e) : IsAbove p e := fun _ hk => h.lt_of_isPrefix hk

theorem IsAbove.not_isPrefix {b : Bytes} (h : IsAbove p b) : ¬ p <+: b := by
  intro hb
  have hlt := h b hb
  rw [compare_self] at hlt
  cases hlt

theorem IsAbove.le {b : Bytes} (h : IsAbove p b) : compare p b ≠ .gt := by
  rw [h p (List.prefix_refl p)]
  exact nofun

theorem Raised.le_of_isAbove {b : Bytes} (h : Raised p e) (hb : IsAbove p b) : compare e b ≠ .gt := by
  intro hgt
  have hlt : compare b e = .lt := by rw [← compare_swap, hgt]; rfl
  exact hb.not_isPrefix ((h.isPrefix_iff b).mpr ⟨hb.le, hlt⟩)

theorem not_isAbove_of_highest (hp : ∀ b ∈ p, b = 0xff) (b : Bytes) : ¬ IsAbove p b :=
  fun h => h.not_isPrefix (isPrefix_of_highest hp h.le)

/-- The keys that begin with a prefix are those from it up to its end, which is the least key above them; it
is the prefix without the highest bytes at its end, the byte before them raised by one as a number. There is
none exactly if no key is above them all, and that is if the prefix has no byte but the highest. -/
theorem prefixEnd?_least (p : Bytes) :
    (∀ e, prefixEnd? p = some e →
      (∀ k, p <+: k ↔ compare p k ≠ .gt ∧ compare k e = .lt) ∧
      IsAbove p e ∧ (∀ b, IsAbove p b → compare e b ≠ .gt) ∧
      ∃ q b r, p = q ++ b :: r ∧ (∀ c ∈ r, c = 0xff) ∧ e = q ++ [b + 1] ∧
        (b + 1).toNat = b.toNat + 1) ∧
    (prefixEnd? p = none ↔ ¬ ∃ b, IsAbove p b) ∧
    (prefixEnd? p = none ↔ ∀ b ∈ p, b = 0xff) := by
  have hnone : prefixEnd? p = none → ¬ ∃ b, IsAbove p b := fun h ⟨b, hb⟩ =>
    not_isAbove_of_highest (prefixEnd?_eq_none h) b hb
  have hsome : (¬ ∃ b, IsAbove p b) → prefixEnd? p = none := by
    intro h
    apply Option.eq_none_iff_forall_ne_some.mpr
    exact fun e he => h ⟨e, (raised_of_prefixEnd? he).isAbove⟩
  refine ⟨fun e he => ?_, ⟨hnone, hsome⟩, prefixEnd?_eq_none, fun h => hsome ?_⟩
  · have hr := raised_of_prefixEnd? he
    refine ⟨hr.isPrefix_iff, hr.isAbove, fun b => hr.le_of_isAbove, ?_⟩
    obtain ⟨q, b, r, hb, hr⟩ := hr
    exact ⟨q, b, r, rfl, hr, rfl, toNat_succ hb⟩
  · exact fun ⟨b, hb⟩ => not_isAbove_of_highest h b hb

/-- A prefix with two highest bytes at its end: a key with one more of them is below the end, which is shorter
than the prefix and does not begin with it. -/
theorem prefixEnd?_least_carried :
    let p : Bytes := [0x01, 0x7f, 0xff, 0xff]
    let k : Bytes := [0x01, 0x7f, 0xff, 0xff, 0xff, 0x00]
    prefixEnd? p = some [0x01, 0x80] ∧ p <+: k ∧ ¬ p <+: [0x01, 0x80] ∧ IsAbove p [0x01, 0x80] := by
  intro p k
  have he : prefixEnd? p = some [0x01, 0x80] := by decide
  obtain ⟨hrange, habove, -⟩ := (prefixEnd?_least p).1 _ he
  refine ⟨he, (hrange k).mpr ⟨by decide, by decide⟩, fun h => ?_, habove⟩
  exact absurd ((hrange _).mp h).2 (by decide)

end ReplicaRouting.Engine
