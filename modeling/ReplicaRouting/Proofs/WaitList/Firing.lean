import ReplicaRouting.Proofs.WaitList.Ledger
/-!
Each registration is in one place: it waits, is due, has been cancelled or has been started. So its callback
runs once unless it was cancelled, and with the first position that reaches its target.
-/

namespace ReplicaRouting.WaitList

open Relation (ReflTransGen)

theorem perm_insertWaiter (w : Waiter) (ws : List Waiter) : (insertWaiter w ws).Perm (w :: ws) := by
  induction ws with
  | nil => exact .refl _
  | cons v vs ih =>
    rw [insertWaiter]
    split
    · exact .refl _
    · exact (ih.cons v).trans (.swap w v vs)

theorem Waiter.isFor_iff {w : Waiter} {h : Handle} :
    w.isFor h ↔ w.target = h.target ∧ w.ticket = h.ticket := by
  simp [Waiter.isFor]

theorem map_filter_isFor {ws : List Waiter} (hn : (ws.map (·.ticket)).Nodup) (h : Handle) :
    (ws.filter (·.isFor h)).map (·.ticket) = if ws.any (·.isFor h) then [h.ticket] else [] := by
  induction ws with
  | nil => rfl
  | cons w ws ih =>
    obtain ⟨hw, hn⟩ := List.nodup_cons.mp hn
    rw [List.filter_cons, List.any_cons]
    by_cases hf : w.isFor h = true
    · have ht := (Waiter.isFor_iff.mp hf).2
      have hnone : ws.filter (·.isFor h) = [] := by
        rw [List.filter_eq_nil_iff]
        intro u hu huf
        refine hw (List.mem_map.mpr ⟨u, hu, ?_⟩)
        exact (Waiter.isFor_iff.mp huf).2.trans ht.symm
      rw [if_pos hf, hnone, hf, Bool.true_or, if_pos rfl, List.map_cons, ht, List.map_nil]
    · rw [if_neg hf, ih hn, Bool.eq_false_iff.mpr hf, Bool.false_or]

/-! ### Waiters that wait and waiters that are due -/

/-- No position since its registration has reached the waiter's target. -/
def Ahead (initial : Lsn) (es : List Entry) (w : Waiter) : Prop :=
  targetOf? es w.ticket = some w.target ∧ latestAfter initial es < w.target ∧
    reached? initial es w.ticket = none

/-- The latest position was the first to reach its target. -/
def IsDue (initial : Lsn) (es : List Entry) (p : Waiter × Lsn) : Prop :=
  targetOf? es p.1.ticket = some p.1.target ∧ p.2 = latestAfter initial es ∧
    reached? initial es p.1.ticket = some p.2

section Concat
variable {initial target lsn : Lsn} {es : List Entry} {e : Entry} {w : Waiter} {p : Waiter × Lsn}
  {t : Nat}

theorem targetOf?_concat (h : targetOf? es t = some target) :
    targetOf? (es ++ [e]) t = some target := by
  rw [targetOf?_append, h, Option.some_or]

theorem le_of_reached? (h : targetOf? es t = some target) (hr : reached? initial es t = some lsn) :
    target ≤ lsn := by
  rw [reached?, h, Option.bind_some] at hr
  have hd := List.find?_some hr
  exact of_decide_eq_true hd

theorem IsDue.target_le (h : IsDue initial es p) : p.1.target ≤ latestAfter initial es :=
  h.2.1 ▸ le_of_reached? h.1 h.2.2

theorem Ahead.concat (h : Ahead initial es w) (he : e.recorded? = none) :
    Ahead initial (es ++ [e]) w := by
  refine ⟨targetOf?_concat h.1, ?_, ?_⟩
  · rw [latestAfter_concat, he]
    exact h.2.1
  · rw [reached?_concat e h.1, he, h.2.2]
    rfl

theorem IsDue.concat (h : IsDue initial es p) (he : e.recorded? = none) :
    IsDue initial (es ++ [e]) p := by
  refine ⟨targetOf?_concat h.1, ?_, ?_⟩
  · rw [latestAfter_concat, he]
    exact h.2.1
  · rw [reached?_concat e h.1, h.2.2]
    rfl

theorem Ahead.recorded (h : Ahead initial es w) (lsn : Lsn) :
    if w.target ≤ lsn then IsDue initial (es ++ [.recorded lsn]) (w, lsn)
    else Ahead initial (es ++ [.recorded lsn]) w := by
  have hr : reached? initial (es ++ [.recorded lsn]) w.ticket =
      if w.target ≤ lsn then some lsn else none := by
    rw [reached?_concat _ h.1, h.2.2]
    simp [Entry.recorded?, Option.filter]
  have hl : latestAfter initial (es ++ [.recorded lsn]) = lsn := latestAfter_concat ..
  split
  · rename_i hw
    exact ⟨targetOf?_concat h.1, hl.symm, by rw [hr, if_pos hw]⟩
  · rename_i hw
    refine ⟨targetOf?_concat h.1, ?_, by rw [hr, if_neg hw]⟩
    rw [hl]
    exact Lsn.not_le.mp hw

theorem registered_place (initial : Lsn) (h : targetOf? es w.ticket = none) :
    let es' := es ++ [.registered w.ticket w.target]
    if latestAfter initial es < w.target then Ahead initial es' w
    else IsDue initial es' (w, latestAfter initial es) := by
  have ht : targetOf? (es ++ [.registered w.ticket w.target]) w.ticket = some w.target := by
    rw [targetOf?_append, h, Option.none_or, targetOf?_singleton, Entry.target?, if_pos rfl]
  have hl : latestAfter initial (es ++ [.registered w.ticket w.target]) = latestAfter initial es :=
    latestAfter_concat ..
  have hr := reached?_registered initial w.target h
  dsimp only
  split
  · rename_i hw
    refine ⟨ht, hl.symm ▸ hw, ?_⟩
    rw [hr]
    exact if_neg (Lsn.not_le.mpr hw)
  · rename_i hw
    exact ⟨ht, hl.symm, by rw [hr]; exact if_pos hw⟩

end Concat

/-! ### The invariant -/

namespace Ledger

/-- The waiters that are due, in the order in which they start, each with the position to report. -/
def due (v : Ledger) : List (Waiter × Lsn) :=
  ((v.batch.elim [] (·.1)) ++ v.late).map (·, v.latest) ++ v.queue

/-- An advance keeps what is due in its batch and among the late, other times the notifier has it. -/
structure Phased (v : Ledger) : Prop where
  flag : v.advancing = v.batch.isSome
  late : v.advancing = false → v.late = []
  queue : v.advancing = true → v.queue = []

def places (v : Ledger) (t : Nat) : Nat :=
  (startedIn v.trace).count t + (removedIn v.trace).count t + (v.waiters.map (·.ticket)).count t +
    (v.due.map (·.1.ticket)).count t

structure Balanced (initial : Lsn) (v : Ledger) : Prop where
  latest : v.latest = latestAfter initial v.trace
  lawful : Lawful initial v.trace
  tickets : registeredIn v.trace = List.range v.tickets
  placed : ∀ t, v.places t = (registeredIn v.trace).count t
  ahead : ∀ w ∈ v.waiters, Ahead initial v.trace w
  due : ∀ p ∈ v.due, IsDue initial v.trace p
  begun : ∀ t ∈ startedIn v.trace, ∀ target, targetOf? v.trace t = some target → target ≤ v.latest

theorem Phased.move {v v' : Ledger} (hp : v.Phased) (h : Move v v') : v'.Phased := by
  cases h with
  | register target callback =>
    refine ⟨hp.flag, fun hn => ?_, fun hs => ?_⟩
    · exact (if_neg fun h => absurd (h.2.symm.trans hn) (by decide)).trans (hp.late hn)
    · exact (if_neg fun h => h.2 hs).trans (hp.queue hs)
  | cancel => exact ⟨hp.flag, hp.late, hp.queue⟩
  | start tag round hb | round hb hl =>
    have ha : v.advancing = true := hp.flag.trans (by rw [hb]; rfl)
    exact ⟨ha, fun hn => absurd (ha.symm.trans hn) (by decide), hp.queue⟩
  | notify tag hb hq =>
    have ha : v.advancing = false := hp.flag.trans (by rw [hb]; rfl)
    exact ⟨hp.flag, hp.late, fun hs => absurd (ha.symm.trans hs) (by decide)⟩

theorem Phased.moves {v v' : Ledger} (hp : v.Phased) (h : ReflTransGen Move v v') : v'.Phased := by
  induction h with
  | refl => exact hp
  | tail _ h ih => exact ih.move h

theorem Phased.turn {v v' : Ledger} (hp : v.Phased) (h : Turn v v') : v'.Phased := by
  cases h with
  | move h => exact hp.move h
  | finish hb hl => exact ⟨rfl, fun _ => hl, nofun⟩
  | advance hb hq _ => exact ⟨rfl, nofun, fun _ => hq⟩

/-! ### What is due, after each operation -/

section Due
variable {v : Ledger}

theorem due_register (hp : v.Phased) (target : Lsn) (callback : Callback) :
    (v.register target callback).due =
      if v.latest < target then v.due
      else v.due ++ [(⟨target, v.tickets, callback⟩, v.latest)] := by
  by_cases h : v.latest < target
  · simp [due, register, note, h]
  · by_cases ha : v.advancing = true
    · simp [due, register, note, h, ha, hp.queue ha]
    · simp [due, register, note, h, ha]

theorem due_start {w : Waiter} {rest : List Waiter} {taken : Nat}
    (hb : v.batch = some (w :: rest, taken)) :
    v.due = (w, v.latest) :: { v with batch := some (rest, taken) }.due := by
  simp [due, hb]

theorem due_notify {p : Waiter × Lsn} {queue : List (Waiter × Lsn)} (hp : v.Phased)
    (hb : v.batch = none)
    (hq : v.queue = p :: queue) : v.due = p :: { v with queue := queue }.due := by
  have hl : v.late = [] := hp.late (hp.flag.trans (by rw [hb]; rfl))
  simp [due, hb, hl, hq]

theorem due_round {taken : Nat} (hb : v.batch = some ([], taken)) :
    { v with batch := some (v.late, taken + v.late.length), late := [] }.due = v.due := by
  simp [due, hb]

theorem due_finish {taken : Nat} (hb : v.batch = some ([], taken)) (hl : v.late = []) :
    v.finish.due = v.due := by
  simp [due, finish, hb, hl]

theorem due_advance (hp : v.Phased) (hb : v.batch = none) (hq : v.queue = []) (lsn : Lsn) :
    v.due = [] ∧ (v.advance lsn).due = (v.waiters.filter fun w => w.target ≤ lsn).map (·, lsn) := by
  have hl : v.late = [] := hp.late (hp.flag.trans (by rw [hb]; rfl))
  simp [due, advance, note, hb, hl, hq]

end Due

/-! ### Each operation keeps the balance -/

section Balanced
variable {initial : Lsn} {v : Ledger}

theorem Balanced.registered_iff (hv : v.Balanced initial) (t : Nat) :
    (targetOf? v.trace t).isSome ↔ t < v.tickets := by
  rw [← mem_registeredIn_iff, hv.tickets, List.mem_range]

theorem Balanced.of_due_eq {v' : Ledger} (hv : v.Balanced initial) (hl : v'.latest = v.latest)
    (ht : v'.tickets = v.tickets) (hw : v'.waiters = v.waiters) (htr : v'.trace = v.trace)
    (hd : v'.due = v.due) : v'.Balanced initial := by
  refine ⟨?_, ?_, ?_, ?_, ?_, ?_, ?_⟩
  · rw [hl, htr]; exact hv.latest
  · rw [htr]; exact hv.lawful
  · rw [htr, ht]; exact hv.tickets
  · intro t
    rw [places, htr, hw, hd]
    exact hv.placed t
  · rw [hw, htr]; exact hv.ahead
  · rw [hd, htr]; exact hv.due
  · rw [htr, hl]; exact hv.begun

theorem Balanced.lt_of_places (hv : v.Balanced initial) {t : Nat} (h : 0 < v.places t) :
    t < v.tickets := by
  rw [hv.placed, hv.tickets, List.count_pos_iff, List.mem_range] at h
  exact h

theorem Balanced.exists_target (hv : v.Balanced initial) {t : Nat} (h : t ∈ startedIn v.trace) :
    ∃ target, targetOf? v.trace t = some target := by
  have hc := List.count_pos_iff.mpr h
  have ht : 0 < v.places t := by
    unfold places
    omega
  exact Option.isSome_iff_exists.mp ((hv.registered_iff t).mpr (hv.lt_of_places ht))

theorem Balanced.places_le_one (hv : v.Balanced initial) (t : Nat) : v.places t ≤ 1 := by
  rw [hv.placed, hv.tickets]
  exact List.nodup_iff_count.mp List.nodup_range t

theorem Balanced.nodup_waiters (hv : v.Balanced initial) : (v.waiters.map (·.ticket)).Nodup := by
  rw [List.nodup_iff_count]
  intro t
  have h := hv.places_le_one t
  unfold places at h
  omega

/-- A handle finds a waiter exactly if its registration is pending. -/
theorem Balanced.any_isFor_iff (hv : v.Balanced initial) (h : Handle) :
    v.waiters.any (·.isFor h) = true ↔ IsPending initial v.trace h := by
  constructor
  · intro ha
    obtain ⟨w, hw, hf⟩ := List.any_eq_true.mp ha
    obtain ⟨h₁, h₂⟩ := Waiter.isFor_iff.mp hf
    obtain ⟨ht, hl, -⟩ := hv.ahead w hw
    refine ⟨h₁ ▸ h₂ ▸ ht, h₁ ▸ hl, fun hr => ?_⟩
    have hc := List.count_pos_iff.mpr hr
    have hc' : 0 < (v.waiters.map (·.ticket)).count h.ticket :=
      List.count_pos_iff.mpr (List.mem_map.mpr ⟨w, hw, h₂⟩)
    have hle := hv.places_le_one h.ticket
    unfold places at hle
    omega
  · rintro ⟨ht, hl, hr⟩
    have hreg : h.ticket ∈ registeredIn v.trace := (mem_registeredIn_iff _ _).mpr (by rw [ht]; rfl)
    have hpos : 0 < v.places h.ticket := by
      rw [hv.placed]
      exact List.count_pos_iff.mpr hreg
    -- started and due ones have their target behind them, so only the waiters are left
    have hs : (startedIn v.trace).count h.ticket = 0 := by
      refine List.count_eq_zero.mpr fun hs => ?_
      have hle := hv.begun _ hs _ ht
      rw [hv.latest] at hle
      exact absurd hl (Lsn.not_lt.mpr hle)
    have hd : (v.due.map (·.1.ticket)).count h.ticket = 0 := by
      refine List.count_eq_zero.mpr fun hm => ?_
      obtain ⟨p, hp, hpt⟩ := List.mem_map.mp hm
      have hx := (hv.due p hp).1
      have hle := (hv.due p hp).target_le
      rw [show p.1.ticket = h.ticket from hpt, ht] at hx
      rw [← Option.some.inj hx] at hle
      exact absurd hl (Lsn.not_lt.mpr hle)
    have hw : h.ticket ∈ v.waiters.map (·.ticket) := by
      have hr' := List.count_eq_zero.mpr hr
      apply List.count_pos_iff.mp
      unfold places at hpos
      omega
    obtain ⟨w, hw, hwt⟩ := List.mem_map.mp hw
    have hx := (hv.ahead w hw).1
    rw [show w.ticket = h.ticket from hwt, ht] at hx
    exact List.any_eq_true.mpr ⟨w, hw, Waiter.isFor_iff.mpr ⟨(Option.some.inj hx).symm, hwt⟩⟩

theorem Balanced.mem_waiters_iff (hv : v.Balanced initial) {t : Nat} {target : Lsn}
    (ht : targetOf? v.trace t = some target) :
    t ∈ v.waiters.map (·.ticket) ↔ v.latest < target ∧ t ∉ removedIn v.trace := by
  have hi := hv.any_isFor_iff ⟨target, t⟩
  constructor
  · intro hm
    obtain ⟨w, hw, rfl⟩ := List.mem_map.mp hm
    have hx := Option.some.inj ((hv.ahead w hw).1.symm.trans ht)
    obtain ⟨-, hl, hr⟩ := hi.mp (List.any_eq_true.mpr ⟨w, hw, Waiter.isFor_iff.mpr ⟨hx, rfl⟩⟩)
    exact ⟨hv.latest ▸ hl, hr⟩
  · rintro ⟨hl, hr⟩
    obtain ⟨w, hw, hf⟩ := List.any_eq_true.mp (hi.mpr ⟨ht, hv.latest ▸ hl, hr⟩)
    exact List.mem_map.mpr ⟨w, hw, (Waiter.isFor_iff.mp hf).2⟩

theorem Balanced.places_eq_one (hv : v.Balanced initial) {t : Nat} {target : Lsn}
    (ht : targetOf? v.trace t = some target) : v.places t = 1 := by
  apply Nat.le_antisymm (hv.places_le_one t)
  rw [hv.placed]
  exact List.count_pos_iff.mpr ((mem_registeredIn_iff _ _).mpr (by rw [ht]; rfl))

theorem places_of_trace {v' : Ledger} {e : Entry} (htr : v'.trace = v.trace ++ [e]) (t : Nat) :
    v'.places t = (startedIn v.trace).count t + e.started?.toList.count t +
      ((removedIn v.trace).count t + e.removed?.toList.count t) +
        (v'.waiters.map (·.ticket)).count t +
      (v'.due.map (·.1.ticket)).count t := by
  rw [places, htr, startedIn_append, removedIn_append, List.count_append, List.count_append,
    startedIn_singleton, removedIn_singleton]

/-- An entry other than a new position: what was ahead or due before stays so. -/
theorem Balanced.noted {v' : Ledger} {e : Entry} (hv : v.Balanced initial)
    (htr : v'.trace = v.trace ++ [e])
    (hl : v'.latest = v.latest) (he : e.recorded? = none) (hf : e.Fits initial v.trace)
    (htickets : registeredIn v'.trace = List.range v'.tickets)
    (hplaced : ∀ t, v'.places t = v.places t + (registeredIn [e]).count t)
    (hahead : ∀ w ∈ v'.waiters, w ∈ v.waiters ∨ Ahead initial v'.trace w)
    (hdue : ∀ p ∈ v'.due, p ∈ v.due ∨ IsDue initial v'.trace p)
    (hbegun : ∀ t ∈ startedIn [e], ∃ p ∈ v.due, p.1.ticket = t) : v'.Balanced initial := by
  refine ⟨?_, ?_, htickets, ?_, ?_, ?_, ?_⟩
  · rw [hl, htr, latestAfter_concat, he]
    exact hv.latest
  · rw [htr]
    exact hv.lawful.concat hf
  · intro t
    rw [hplaced, hv.placed, htr, registeredIn_append, List.count_append]
  · intro w hw
    exact (hahead w hw).elim (fun h => htr ▸ (hv.ahead w h).concat he) id
  · intro p hp
    exact (hdue p hp).elim (fun h => htr ▸ (hv.due p h).concat he) id
  · intro t ht target htt
    rw [hl]
    rw [htr, startedIn_append, List.mem_append] at ht
    rw [htr] at htt
    rcases ht with ht | ht
    · obtain ⟨x, hx⟩ := hv.exists_target ht
      obtain rfl := Option.some.inj ((targetOf?_concat hx).symm.trans htt)
      exact hv.begun t ht x hx
    · obtain ⟨p, hp, rfl⟩ := hbegun t ht
      have hd := hv.due p hp
      obtain rfl := Option.some.inj ((targetOf?_concat hd.1).symm.trans htt)
      exact hv.latest ▸ hd.target_le

theorem Balanced.started {v' : Ledger} {p : Waiter × Lsn} (hv : v.Balanced initial)
    (hd : v.due = p :: v'.due)
    (hl : v'.latest = v.latest) (ht : v'.tickets = v.tickets) (hw : v'.waiters = v.waiters)
    (htr : v'.trace = v.trace) (tag : Option String) (place : Place) :
    (v'.note (.started p.1.ticket tag p.2 place)).Balanced initial := by
  have hm : p ∈ v.due := hd ▸ List.mem_cons_self ..
  have hp := hv.due p hm
  have htr' : (v'.note (.started p.1.ticket tag p.2 place)).trace =
      v.trace ++ [.started p.1.ticket tag p.2 place] :=
    congrArg (· ++ _) htr
  refine hv.noted htr' hl rfl ⟨hp.2.1, hp.2.2, _, hp.1, le_of_reached? hp.1 hp.2.2⟩ ?_ ?_ ?_ ?_ ?_
  · rw [htr', registeredIn_append, hv.tickets, ← ht]
    exact List.append_nil _
  · intro t
    have hd' : (v'.note (.started p.1.ticket tag p.2 place)).due = v'.due := rfl
    rw [places_of_trace htr', places, hd', hd, List.map_cons, List.count_cons, ← hw,
      registeredIn_singleton]
    -- the ticket moves from what is due to what was started
    simp only [note, Entry.started?, Entry.removed?, Entry.registered?, Option.toList_some,
      Option.toList_none, List.count_singleton, List.count_nil]
    omega
  · exact fun w hm => .inl (hw ▸ hm)
  · exact fun q hq => .inl (hd ▸ List.mem_cons_of_mem _ hq)
  · intro t ht
    rw [startedIn_singleton, Entry.started?, Option.toList_some, List.mem_singleton] at ht
    exact ⟨p, hm, ht.symm⟩

theorem Balanced.register (hv : v.Balanced initial) (hp : v.Phased) (target : Lsn)
    (callback : Callback) :
    (v.register target callback).Balanced initial := by
  have hn : targetOf? v.trace v.tickets = none := by
    rw [← Option.not_isSome_iff_eq_none, hv.registered_iff]
    exact Nat.lt_irrefl _
  have hplace := registered_place initial (w := ⟨target, v.tickets, callback⟩) hn
  have hd := due_register hp target callback
  have hwv : (v.register target callback).waiters =
    if v.latest < target then insertWaiter ⟨target, v.tickets, callback⟩ v.waiters
    else v.waiters := rfl
  rw [← hv.latest] at hplace
  refine hv.noted (e := .registered v.tickets target) rfl rfl rfl ?_ ?_ ?_ ?_ ?_ nofun
  · rw [Entry.Fits, hv.tickets, List.length_range]
  · show registeredIn (v.trace ++ [_]) = List.range (v.tickets + 1)
    rw [registeredIn_append, hv.tickets, registeredIn_singleton, List.range_succ]
    rfl
  · intro t
    have hw : ((v.register target callback).waiters.map (·.ticket)).count t =
        (v.waiters.map (·.ticket)).count t +
          if v.latest < target then [v.tickets].count t else 0 := by
      rw [hwv]
      split
      · rw [((perm_insertWaiter ..).map _).count_eq, List.map_cons, List.count_cons,
          List.count_singleton]
      · rfl
    have htr : (v.register target callback).trace = v.trace ++ [.registered v.tickets target] := rfl
    rw [places_of_trace htr, places, hw, hd, registeredIn_singleton]
    simp only [Entry.started?, Entry.removed?, Entry.registered?, Option.toList_some,
      Option.toList_none, List.count_nil]
    -- the new ticket is among the waiters or the last one due
    by_cases hlt : v.latest < target
    · simp only [hlt, if_true]
      omega
    · simp only [hlt, if_false, List.map_append, List.map_cons, List.map_nil, List.count_append]
      omega
  · intro w hw
    rw [hwv] at hw
    split at hw
    · rename_i ha
      rw [if_pos ha] at hplace
      rcases List.mem_cons.mp ((perm_insertWaiter ..).mem_iff.mp hw) with rfl | hw
      · exact .inr hplace
      · exact .inl hw
    · exact .inl hw
  · intro p hp
    rw [hd] at hp
    split at hp
    · exact .inl hp
    · rename_i ha
      rw [if_neg ha] at hplace
      rcases List.mem_append.mp hp with hp | hp
      · exact .inl hp
      · obtain rfl := List.mem_singleton.mp hp
        exact .inr hplace

theorem Balanced.cancel (hv : v.Balanced initial) (h : Handle) : (v.cancel h).Balanced initial := by
  refine hv.noted (e := .cancelled h (v.waiters.any (·.isFor h))) rfl rfl rfl
    (hv.any_isFor_iff h) ?_ ?_ ?_ ?_ nofun
  · show registeredIn (v.trace ++ [_]) = _
    rw [registeredIn_append, hv.tickets]
    exact List.append_nil _
  · intro t
    have htr : (v.cancel h).trace = v.trace ++ [.cancelled h (v.waiters.any (·.isFor h))] := rfl
    have hd : (v.cancel h).due = v.due := rfl
    have hw : (v.cancel h).waiters = v.waiters.filter fun w => !w.isFor h := rfl
    have hsplit := ((List.filter_append_perm (·.isFor h) v.waiters).map (·.ticket)).count_eq t
    rw [List.map_append, List.count_append, map_filter_isFor hv.nodup_waiters] at hsplit
    rw [places_of_trace htr, places, hd, hw, ← hsplit, registeredIn_singleton]
    cases v.waiters.any (·.isFor h) <;>
      simp only [Entry.started?, Entry.removed?, Entry.registered?, Option.toList_some,
        Option.toList_none, List.count_nil, if_true, Bool.false_eq_true, if_false] <;>
      omega
  · exact fun w hw => .inl (List.mem_filter.mp hw).1
  · exact fun p hp => .inl hp

theorem Balanced.advance (hv : v.Balanced initial) (hp : v.Phased) (hb : v.batch = none)
    (hq : v.queue = []) {lsn : Lsn} (h : v.latest ≤ lsn) : (v.advance lsn).Balanced initial := by
  obtain ⟨hd, hd'⟩ := due_advance hp hb hq lsn
  have htr : (v.advance lsn).trace = v.trace ++ [.recorded lsn] := rfl
  refine ⟨?_, ?_, ?_, ?_, ?_, ?_, ?_⟩
  · rw [htr, latestAfter_concat]
    rfl
  · exact hv.lawful.concat (show latestAfter initial v.trace ≤ lsn from hv.latest ▸ h)
  · rw [htr, registeredIn_append, hv.tickets]
    exact List.append_nil _
  · intro t
    have hw : (v.advance lsn).waiters = v.waiters.filter fun w => !decide (w.target ≤ lsn) := rfl
    have hsplit := ((List.filter_append_perm (fun w => decide (w.target ≤ lsn)) v.waiters).map
      (·.ticket)).count_eq t
    have hpl := hv.placed t
    rw [List.map_append, List.count_append] at hsplit
    rw [places, hd] at hpl
    rw [places_of_trace htr, hd', hw, htr, registeredIn_append, List.count_append, List.map_map,
      ← hpl, ← hsplit, registeredIn_singleton]
    -- the waiters are split into those that stay and those that are due
    simp only [Entry.started?, Entry.removed?, Entry.registered?, Option.toList_none,
      List.count_nil, List.map_nil, Function.comp_def]
    omega
  · intro w hw
    obtain ⟨hw, hn⟩ := List.mem_filter.mp hw
    have hr := (hv.ahead w hw).recorded lsn
    rwa [if_neg (by simpa using hn)] at hr
  · intro p hp
    rw [hd'] at hp
    obtain ⟨w, hw, rfl⟩ := List.mem_map.mp hp
    obtain ⟨hw, hn⟩ := List.mem_filter.mp hw
    have hr := (hv.ahead w hw).recorded lsn
    rwa [if_pos (of_decide_eq_true hn)] at hr
  · intro t ht target htt
    rw [htr, startedIn_append, startedIn_singleton] at ht
    obtain ht : t ∈ startedIn v.trace := by simpa [Entry.started?] using ht
    obtain ⟨x, hx⟩ := hv.exists_target ht
    obtain rfl := Option.some.inj ((targetOf?_concat hx).symm.trans htt)
    exact Lsn.le_trans (hv.begun t ht x hx) h

theorem Balanced.turn {v' : Ledger} (hv : v.Balanced initial) (hp : v.Phased) (h : Turn v v') :
    v'.Balanced initial := by
  cases h with
  | advance hb hq h => exact hv.advance hp hb hq h
  | finish hb hl => exact hv.of_due_eq rfl rfl rfl rfl (due_finish hb hl)
  | move h =>
    cases h with
    | register target callback => exact hv.register hp target callback
    | cancel h => exact hv.cancel h
    | start tag round hb => exact hv.started (due_start hb) rfl rfl rfl rfl tag _
    | round hb hl => exact hv.of_due_eq rfl rfl rfl rfl (due_round hb)
    | notify tag hb hq => exact hv.started (due_notify hp hb hq) rfl rfl rfl rfl tag _

theorem balanced_turns {v' : Ledger} (hv : v.Balanced initial) (hp : v.Phased)
    (h : ReflTransGen Turn v v') :
    v'.Balanced initial ∧ v'.Phased := by
  induction h with
  | refl => exact ⟨hv, hp⟩
  | tail _ h ih => exact ⟨ih.1.turn ih.2 h, ih.2.turn h⟩

end Balanced
end Ledger

namespace State

theorem opened_balanced (initial : Lsn) (metrics : Metrics) :
    ((opened initial metrics).ledger none).Balanced initial ∧
      ((opened initial metrics).ledger none).Phased :=
  ⟨⟨rfl, lawful_nil initial, rfl, fun _ => rfl, nofun, nofun, nofun⟩, rfl, fun _ => rfl,
    fun _ => rfl⟩

theorem calls_balanced (initial : Lsn) (metrics : Metrics) {cs : List Call} (hc : .drop ∉ cs) :
    let s := ((opened initial metrics).calls cs).1
    s.AtRest ∧ (s.ledger none).Balanced initial ∧ (s.ledger none).Phased := by
  obtain ⟨hr, ht⟩ := calls_turns (s := opened initial metrics) ⟨rfl, rfl⟩ hc
  obtain ⟨hb, hp⟩ := opened_balanced initial metrics
  exact ⟨hr, Ledger.balanced_turns hb hp ht⟩

theorem AtRest.due_eq_nil {s : State} (hs : s.AtRest) (hp : (s.ledger none).Phased) :
    (s.ledger none).due = [] :=
  (Ledger.due_advance hp rfl hs.queue s.latest).1

theorem cancel_eq_any (s : State) (h : Handle) : (s.cancel h).2.2 = s.waiters.any (·.isFor h) := by
  obtain ⟨hw, hc⟩ | ⟨w, hw, hf, ⟨-, hc⟩ | ⟨cell, -, hc⟩⟩ := s.cancel_cases h <;> rw [hc]
  · exact (List.any_eq_false.mpr fun w hm => Bool.eq_false_iff.mp (hw w hm)).symm
  · exact (List.any_eq_true.mpr ⟨w, hw, hf⟩).symm
  · exact (List.any_eq_true.mpr ⟨w, hw, hf⟩).symm

/-- After each call a registration waits, was cancelled or was started, exactly one of them and once; it
waits as long as its target is ahead and no cancellation has removed it. Each entry of the trace agrees with
what was before it: a callback gets the latest position, the first to reach its target, and a cancellation
succeeds exactly if the registration is pending. -/
theorem calls_settle_once (initial : Lsn) (metrics : Metrics) (cs : List Call) (hc : .drop ∉ cs) :
    let s := ((opened initial metrics).calls cs).1
    s.latest = latestAfter initial s.trace ∧ Lawful initial s.trace ∧
      (∀ h, (s.cancel h).2.2 = true ↔ IsPending initial s.trace h) ∧
      ∀ t target, targetOf? s.trace t = some target →
        (t ∈ s.waiters.map (·.ticket) ↔ s.latest < target ∧ t ∉ removedIn s.trace) ∧
        (s.waiters.map (·.ticket)).count t + (removedIn s.trace).count t +
          (startedIn s.trace).count t = 1 := by
  intro s
  obtain ⟨hr, hb, hp⟩ : s.AtRest ∧ (s.ledger none).Balanced initial ∧ (s.ledger none).Phased :=
    calls_balanced initial metrics hc
  refine ⟨hb.latest, hb.lawful, fun h => ?_, fun t target ht => ⟨hb.mem_waiters_iff ht, ?_⟩⟩
  · rw [cancel_eq_any]
    exact hb.any_isFor_iff h
  · have hpl := hb.places_eq_one ht
    rw [Ledger.places, hr.due_eq_nil hp, List.map_nil, List.count_nil] at hpl
    dsimp only [ledger] at hpl
    omega

/-- The callback of the first waiter registers for the same position and cancels the second, too late for
both: the three start in one advance. -/
theorem calls_settle_once_nested :
    let cs : List Call := [
      .act (.register "a" ⟨1, 1⟩ [.register "c" ⟨1, 1⟩ [] true, .cancel "b"] false),
      .act (.register "b" ⟨1, 1⟩ [] false),
      .act (.register "d" ⟨1, 3⟩ [] false), .act (.cancel "d"), .advance ⟨1, 2⟩]
    let s := ((opened .zero {}).calls cs).1
    .drop ∉ cs ∧ startedIn s.trace = [0, 1, 3] ∧ removedIn s.trace = [2] ∧
      ∀ t target, targetOf? s.trace t = some target →
        (s.waiters.map (·.ticket)).count t + (removedIn s.trace).count t +
          (startedIn s.trace).count t = 1 := by
  refine ⟨by simp, by decide +kernel, by decide +kernel, ?_⟩
  intro t target ht
  exact ((calls_settle_once .zero {} _ (by simp)).2.2.2 t target ht).2

end State
end ReplicaRouting.WaitList
