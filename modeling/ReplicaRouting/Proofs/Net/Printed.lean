import ReplicaRouting.Net.AddressReader
import ReplicaRouting.Proofs.Text.Digits
/-!
Every socket address reads back from its text: the octets of the dotted form, the groups of the other form with
the run of zeros that it leaves out, and the scope.
-/

namespace ReplicaRouting.Net

open Text (Stops stops_nil stops_cons)

/-! ### Numbers -/

theorem decimal_digits (n : Nat) : ∀ c ∈ decimal n, c.isDigit = true :=
  fun _ hc => Nat.isDigit_of_mem_toDigits (by decide) (by decide) hc

/-- A number reads back as long as no digit follows. One that may not be padded has three digits at most. -/
theorem readDecimal_decimal {bound n : Nat} {padded : Bool} (hn : n < bound) (hp : padded = true ∨ n < 1000)
    {s : List Char} (hs : Stops Char.isDigit s) : readDecimal bound padded (decimal n ++ s) = some (n, s) := by
  obtain ⟨htake, hdrop⟩ := hs.span (decimal_digits n)
  have hshape : (!padded && (3 < (decimal n).length ||
      ((decimal n).head? = some '0' && 1 < (decimal n).length))) = false := by
    cases padded with
    | true => rfl
    | false =>
      have hn : n < 1000 := hp.resolve_left Bool.false_ne_true
      have hshort : (decimal n).length ≤ 3 :=
        (Nat.length_toDigits_le_iff (by decide) (by decide)).mpr hn
      have hzero : (decimal n).head? = some '0' → (decimal n).length ≤ 1 := by
        intro h
        obtain ⟨ds, hds⟩ := List.head?_eq_some_iff.mp h
        rw [hds, Text.head_toDigits_zero n hds]
        exact Nat.le_refl 1
      simpa [hshort] using hzero
  rw [readDecimal, htake, hdrop, hshape, if_neg Bool.false_ne_true, decimal, Text.readDigits?_toDigits hn]
  rfl

theorem readOctet_decimal (a : UInt8) {s : List Char} (hs : Stops Char.isDigit s) :
    readOctet (decimal a.toNat ++ s) = some (a, s) := by
  have ha := a.toNat_lt
  rw [readOctet, readDecimal_decimal ha (.inr (Nat.lt_trans ha (by decide))) hs]
  exact congrArg (fun a => some (a, s)) (UInt8.ofNat_toNat)

theorem readV4_dotted (a b c d : UInt8) {s : List Char} (hs : Stops Char.isDigit s) :
    readV4 (dotted a b c d ++ s) = some ((a, b, c, d), s) := by
  have hoctet (a : UInt8) (t : List Char) : readOctet (decimal a.toNat ++ '.' :: t) = some (a, '.' :: t) :=
    readOctet_decimal a (stops_cons rfl t)
  simp [readV4, dotted, hoctet, readOctet_decimal d hs, readChar]

theorem readV4_eq_none {s : List Char} (h : (s.dropWhile Char.isDigit).head? ≠ some '.') : readV4 s = none := by
  have hdot : readChar '.' (s.dropWhile Char.isDigit) = none := by
    generalize s.dropWhile Char.isDigit = t at h
    cases t with
    | nil => rfl
    | cons c t => exact if_neg fun he => h (congrArg some he.symm)
  unfold readV4 readOctet readDecimal
  dsimp only
  split
  · rfl
  · cases Text.readDigits? 256 (s.takeWhile Char.isDigit) with
    | none => rfl
    | some n => simp [hdot]

/-! ### Groups -/

/-- What follows a group ends it: nothing, a colon, the sign before a scope or the closing bracket. -/
def Delimited (s : List Char) : Prop := ∀ c ∈ s.head?, c = ':' ∨ c = '%' ∨ c = ']'

/-- What follows the last group: the sign before a scope or the closing bracket. -/
def Closing (s : List Char) : Prop := ∀ c ∈ s.head?, c = '%' ∨ c = ']'

theorem delimited_colon (s : List Char) : Delimited (':' :: s) := by
  rintro _ ⟨⟩
  exact .inl rfl

section Following
variable {s : List Char}

theorem Closing.delimited (h : Closing s) : Delimited s := fun c hc => .inr (h c hc)

theorem Delimited.stops {p : Char → Bool} (h : Delimited s) (hp : (":%]".toList.any p) = false) : Stops p s := by
  intro c hc
  have hnone := List.any_eq_false.mp hp
  rcases h c hc with rfl | rfl | rfl <;> simpa using hnone _ (by decide)

theorem Delimited.digits (h : Delimited s) : Stops Char.isDigit s := h.stops (by decide)

theorem Delimited.hexDigits (h : Delimited s) : Stops Text.isHexDigit s := h.stops (by decide)

theorem Delimited.readV4 (h : Delimited s) {ds : List Char} (hd : '.' ∉ ds) : readV4 (ds ++ s) = none := by
  apply readV4_eq_none
  induction ds with
  | nil =>
    have hs : ([] ++ s).dropWhile Char.isDigit = s := (h.digits.span (List.forall_mem_nil _)).2
    rw [hs]
    intro hdot
    rcases h '.' hdot with h | h | h <;> exact absurd h (by decide)
  | cons d ds ih =>
    rw [List.cons_append, List.dropWhile_cons]
    split
    · exact ih fun hm => hd (List.mem_cons_of_mem _ hm)
    · rintro ⟨⟩
      exact hd (List.mem_cons_self ..)

theorem readGroup_toDigits (g : UInt16) (h : Delimited s) :
    readGroup (Nat.toDigits 16 g.toNat ++ s) = some (g, s) := by
  obtain ⟨hall, hvalue⟩ := Text.hexDigits_toDigits g.toNat
  obtain ⟨htake, hdrop⟩ := h.hexDigits.span hall
  have hlength : (Nat.toDigits 16 g.toNat).length ≤ 4 :=
    (Nat.length_toDigits_le_iff (by decide) (by decide)).mpr g.toNat_lt
  have hshape : ((Nat.toDigits 16 g.toNat).isEmpty || 4 < (Nat.toDigits 16 g.toNat).length) = false := by
    simpa using hlength
  rw [readGroup, htake, hdrop, hshape, if_neg Bool.false_ne_true, hvalue]
  exact congrArg (fun g => some (g, s)) (UInt16.ofNat_toNat)

theorem Delimited.readGroup (h : Delimited s) : readGroup s = none := by
  have htake : s.takeWhile Text.isHexDigit = [] := (h.hexDigits.span (List.forall_mem_nil _)).1
  rw [Net.readGroup, htake]
  rfl

theorem dot_notMem_toDigits (n : Nat) : '.' ∉ Nat.toDigits 16 n :=
  fun h => absurd ((Text.hexDigits_toDigits n).1 _ h) (by decide)

theorem readGroups_group (first : Bool) (limit : Nat) (g : UInt16) (h : Delimited s) :
    readGroups first (limit + 1) ((if first then [] else [':']) ++ (Nat.toDigits 16 g.toNat ++ s)) =
      ((g :: (readGroups false limit s).1.1, (readGroups false limit s).1.2), (readGroups false limit s).2) := by
  have hv4 := h.readV4 (dot_notMem_toDigits g.toNat)
  cases first <;> simp [readGroups, readChar, hv4, readGroup_toDigits g h]

theorem Closing.readGroups (h : Closing s) (first : Bool) (limit : Nat) :
    readGroups first limit s = (([], false), s) := by
  cases limit with
  | zero => rfl
  | succ limit =>
    have hv4 : Net.readV4 s = none := h.delimited.readV4 List.not_mem_nil
    have hcolon : readChar ':' s = none := by
      cases s with
      | nil => rfl
      | cons c s => rcases h c rfl with rfl | rfl <;> rfl
    cases first <;> simp [Net.readGroups, hcolon, hv4, h.delimited.readGroup]

theorem readGroups_gap (first : Bool) (limit : Nat) (s : List Char) :
    readGroups first limit (':' :: ':' :: s) = (([], false), ':' :: ':' :: s) := by
  cases limit with
  | zero => rfl
  | succ limit =>
    have hv4 (t : List Char) : readV4 (':' :: t) = none := (delimited_colon t).readV4 List.not_mem_nil
    cases first <;> simp [readGroups, readChar, hv4, (delimited_colon _).readGroup]

def following (gs : List UInt16) : List Char := gs.flatMap fun g => ':' :: Nat.toDigits 16 g.toNat

theorem colons_cons (g : UInt16) (gs : List UInt16) :
    colons (g :: gs) = Nat.toDigits 16 g.toNat ++ following gs := by
  induction gs generalizing g with
  | nil => exact (List.append_nil _).symm
  | cons h gs ih =>
    rw [colons, ih h]
    · rfl
    · exact nofun

theorem Delimited.following (h : Delimited s) (gs : List UInt16) : Delimited (following gs ++ s) := by
  cases gs with
  | nil => exact h
  | cons g gs => exact delimited_colon _

theorem readGroups_following (h : Delimited s) {room : Nat}
    (hstop : readGroups false room s = (([], false), s)) (gs : List UInt16) :
    readGroups false (gs.length + room) (following gs ++ s) = ((gs, false), s) := by
  induction gs with
  | nil => rwa [List.length_nil, Nat.zero_add]
  | cons g gs ih =>
    have hg := readGroups_group false (gs.length + room) g (h.following gs)
    rw [ih] at hg
    rw [List.length_cons, Nat.add_right_comm, Net.following, List.flatMap_cons, List.append_assoc]
    exact hg

theorem readGroups_colons (h : Delimited s) {room : Nat}
    (hstop : ∀ first, readGroups first room s = (([], false), s)) (gs : List UInt16) :
    readGroups true (gs.length + room) (colons gs ++ s) = ((gs, false), s) := by
  cases gs with
  | nil =>
    rw [List.length_nil, Nat.zero_add]
    exact hstop true
  | cons g gs =>
    have hg := readGroups_group true (gs.length + room) g (h.following gs)
    rw [readGroups_following h (hstop false)] at hg
    rw [List.length_cons, Nat.add_right_comm, colons_cons, List.append_assoc]
    exact hg

end Following

/-! ### The run of zeros -/

theorem take_zeroRun (gs : List UInt16) : gs.take (zeroRun gs) = List.replicate (zeroRun gs) 0 := by
  induction gs with
  | nil => rfl
  | cons g gs ih =>
    rw [zeroRun, List.takeWhile_cons]
    split
    · rename_i hg
      rw [List.length_cons, List.take_succ_cons, of_decide_eq_true hg]
      exact congrArg (0 :: ·) ih
    · rfl

theorem longestZeroRun_cons (g : UInt16) (gs : List UInt16) : longestZeroRun (g :: gs) =
    if (longestZeroRun gs).2 ≤ zeroRun (g :: gs) then (0, zeroRun (g :: gs))
    else ((longestZeroRun gs).1 + 1, (longestZeroRun gs).2) := rfl

theorem longestZeroRun_split (gs : List UInt16) : gs.take (longestZeroRun gs).1 ++
    List.replicate (longestZeroRun gs).2 0 ++
      gs.drop ((longestZeroRun gs).1 + (longestZeroRun gs).2) = gs := by
  induction gs with
  | nil => rfl
  | cons g gs ih =>
    rw [longestZeroRun_cons]
    split
    · rw [List.take_zero, List.nil_append, Nat.zero_add, ← take_zeroRun, List.take_append_drop]
    · rw [List.take_succ_cons, Nat.add_right_comm, List.drop_succ_cons, List.cons_append, List.cons_append]
      exact congrArg (g :: ·) ih

/-! ### Hosts -/

section Host
variable {s : List Char}

theorem readV6_whole {text : List Char} {gs : Vector UInt16 8} {dotted : Bool}
    (h : readGroups true 8 text = ((gs.toList, dotted), s)) : readV6 text = some (gs, s) := by
  obtain ⟨⟨gs⟩, hlength⟩ := gs
  have hlength : gs.length = 8 := hlength
  simp [readV6, h, hlength]

theorem readV6_gap {text text' : List Char} {gs : Vector UInt16 8} {head tail : List UInt16} {dotted : Bool}
    (hhead : readGroups true 8 text = ((head, false), ':' :: ':' :: text')) (hlt : head.length < 8)
    (htail : readGroups true (7 - head.length) text' = ((tail, dotted), s))
    (hgs : head ++ (List.replicate (8 - head.length - tail.length) 0 ++ tail) = gs.toList) :
    readV6 text = some (gs, s) := by
  obtain ⟨⟨gs⟩, hlength⟩ := gs
  obtain rfl : head ++ (List.replicate (8 - head.length - tail.length) 0 ++ tail) = gs := hgs
  have hne : head.length ≠ 8 := Nat.ne_of_lt hlt
  have hlength : head.length + (8 - head.length - tail.length + tail.length) = 8 := by simpa using hlength
  simp [readV6, hhead, hne, readChar, htail, hlength]

theorem joinOctets_halves (g : UInt16) : joinOctets (g.toNat / 256).toUInt8 (g.toNat % 256).toUInt8 = g := by
  have hhigh : (g.toNat / 256).toUInt8.toNat = g.toNat / 256 :=
    UInt8.toNat_ofNat_of_lt' (Nat.div_lt_of_lt_mul g.toNat_lt)
  have hlow : (g.toNat % 256).toUInt8.toNat = g.toNat % 256 :=
    UInt8.toNat_ofNat_of_lt' (Nat.mod_lt _ (by decide))
  rw [joinOctets, hhigh, hlow, Nat.div_add_mod']
  exact UInt16.ofNat_toNat

theorem mappedV4?_eq_some {gs : List UInt16} {g h : UInt16} (hm : mappedV4? gs = some (g, h)) :
    gs = [0, 0, 0, 0, 0, 0xffff, g, h] := by
  unfold mappedV4? at hm
  split at hm
  · obtain ⟨rfl, rfl⟩ := Prod.mk.inj (Option.some.inj hm)
    rfl
  · cases hm

theorem readGroups_dotted (limit : Nat) (g h : UInt16) (hs : Closing s) :
    readGroups false (limit + 2) (':' :: (dotted (g.toNat / 256).toUInt8 (g.toNat % 256).toUInt8
      (h.toNat / 256).toUInt8 (h.toNat % 256).toUInt8 ++ s)) = (([g, h], true), s) := by
  simp [readGroups, readChar, readV4_dotted _ _ _ _ hs.delimited.digits, joinOctets_halves]

theorem readV6_compressed {gs : Vector UInt16 8} {head tail : List UInt16} {zeros : Nat} (hz : 1 < zeros)
    (hgs : head ++ List.replicate zeros 0 ++ tail = gs.toList) (hs : Closing s) :
    readV6 (colons head ++ ':' :: ':' :: (colons tail ++ s)) = some (gs, s) := by
  have hsum : head.length + zeros + tail.length = 8 := by
    have hlength : gs.toList.length = 8 := gs.length_toList
    rw [← hgs] at hlength
    simpa [Nat.add_assoc] using hlength
  have hhead := readGroups_colons (delimited_colon (':' :: (colons tail ++ s)))
    (fun first => readGroups_gap first (zeros + tail.length) _) head
  have htail := readGroups_colons hs.delimited (fun first => hs.readGroups first (zeros - 1)) tail
  rw [← Nat.add_assoc, hsum] at hhead
  rw [show tail.length + (zeros - 1) = 7 - head.length by omega] at htail
  refine readV6_gap hhead (by omega) htail ?_
  rwa [show 8 - head.length - tail.length = zeros by omega, ← List.append_assoc]

/-- The groups of an address read back, whichever of its forms they have. -/
theorem readV6_groupsText (gs : Vector UInt16 8) (hs : Closing s) :
    readV6 (groupsText gs.toList ++ s) = some (gs, s) := by
  unfold groupsText
  split
  · rename_i g h hm
    have hffff : Nat.toDigits 16 (0xffff : UInt16).toNat = ['f', 'f', 'f', 'f'] := by decide
    have hgroup := readGroups_group true 6 0xffff (delimited_colon (dotted (g.toNat / 256).toUInt8
      (g.toNat % 256).toUInt8 (h.toNat / 256).toUInt8 (h.toNat % 256).toUInt8 ++ s))
    rw [readGroups_dotted 4 g h hs, hffff] at hgroup
    exact readV6_gap (readGroups_gap true 8 _) (by decide) hgroup (mappedV4?_eq_some hm).symm
  · dsimp only
    split
    · rename_i hrun
      have hread := readV6_compressed hrun (longestZeroRun_split gs.toList) hs
      rwa [List.append_assoc]
    · have hread := readGroups_colons hs.delimited (fun first => hs.readGroups first 0) gs.toList
      rw [Nat.add_zero, gs.length_toList] at hread
      exact readV6_whole hread

theorem readScope_text (scope : UInt32) (s : List Char) :
    let text := (if scope = 0 then [] else '%' :: decimal scope.toNat) ++ ']' :: s
    Closing text ∧ readScope text = (scope, ']' :: s) := by
  by_cases hscope : scope = 0
  · subst hscope
    refine ⟨?_, rfl⟩
    rintro _ ⟨⟩
    exact .inr rfl
  · have hread : readDecimal UInt32.size true (decimal scope.toNat ++ ']' :: s) = some (scope.toNat, ']' :: s) :=
      readDecimal_decimal scope.toNat_lt_size (.inl rfl) (stops_cons (by decide) s)
    simp only [hscope, if_false, List.cons_append]
    constructor
    · rintro _ ⟨⟩
      exact .inl rfl
    · simp [readScope, readChar, hread]

theorem readHost_text (host : Host) (s : List Char) :
    readHost (host.text ++ ':' :: s) = some (host.unlabelled, ':' :: s) := by
  cases host with
  | v4 a b c d => rw [readHost, Host.text, readV4_dotted a b c d (stops_cons rfl s), Host.unlabelled]
  | v6 groups flow scope =>
    have hv4 (t : List Char) : readV4 ('[' :: t) = none := by
      apply readV4_eq_none
      rw [List.dropWhile_cons_of_neg (by decide)]
      exact nofun
    obtain ⟨hclosing, hscope⟩ := readScope_text scope (':' :: s)
    have hgroups := readV6_groupsText groups hclosing
    simp [readHost, Host.text, Host.unlabelled, hv4, readChar, hgroups, hscope]

theorem readHost_unlabelled {s rest : List Char} {host : Host} (h : readHost s = some (host, rest)) :
    host.unlabelled = host := by
  unfold readHost at h
  split at h
  · cases h
    rfl
  · simp only [Option.bind_eq_bind, Option.bind_eq_some_iff, Option.pure_def, Option.some.injEq, Prod.mk.injEq] at h
    obtain ⟨-, -, -, -, -, -, rfl, -⟩ := h
    rfl

end Host

namespace SocketAddress

/-- Every address reads back from its text, but for its label. -/
theorem parse?_text (a : SocketAddress) : parse? a.text = some a.unlabelled := by
  have hport : readDecimal UInt16.size true (decimal a.port.toNat ++ []) = some (a.port.toNat, []) :=
    readDecimal_decimal a.port.toNat_lt_size (.inl rfl) (stops_nil _)
  rw [List.append_nil] at hport
  rw [parse?, text, String.toList_ofList, read?, readHost_text]
  simp [readChar, hport, unlabelled]

/-- The addresses that have a text are those without a label. -/
theorem exists_parse?_eq {a : SocketAddress} : (∃ text, parse? text = some a) ↔ a.unlabelled = a := by
  refine ⟨?_, fun h => ⟨a.text, by rw [parse?_text, h]⟩⟩
  rintro ⟨text, h⟩
  simp only [parse?, read?, Option.bind_eq_bind, Option.bind_eq_some_iff, Option.pure_def] at h
  obtain ⟨⟨host, _⟩, hhost, _, -, _, -, hport⟩ := h
  split at hport
  · cases hport
    rw [unlabelled, readHost_unlabelled hhost]
  · cases hport

/-- Of two runs of zeros as long, the first is left out. -/
example : text ⟨.v6 #v[0x2001, 0xdb8, 0, 0, 1, 0, 0, 1] 9 3, 80⟩ = "[2001:db8::1:0:0:1%3]:80" := by decide +kernel

end SocketAddress
end ReplicaRouting.Net
