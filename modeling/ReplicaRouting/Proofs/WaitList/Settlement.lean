import Mathlib.Data.List.Perm.Basic
import ReplicaRouting.Proofs.WaitList.Book
/-!
What every move on a book of awaited results keeps: a result is owed by one waiter or was settled once, with
the outcome that it has, and a listener waits with a pending result or hears the outcome of a settled one.
-/

namespace ReplicaRouting.WaitList

open Relation (ReflTransGen)

section Histories
variable (es fs : List Entry) (e : Entry)

@[simp] theorem settledIn_append : settledIn (es ++ fs) = settledIn es ++ settledIn fs :=
  List.filterMap_append

@[simp] theorem heardIn_append : heardIn (es ++ fs) = heardIn es ++ heardIn fs :=
  List.filterMap_append

theorem settledIn_singleton : settledIn [e] = e.settled?.toList := by
  cases h : e.settled? <;> simp [settledIn, h]

theorem heardIn_singleton : heardIn [e] = e.heard?.toList := by
  cases h : e.heard? <;> simp [heardIn, h]

end Histories

theorem perm_flatMap_set (f : α → List β) {as : List α} {i : Nat} {a : α} (h : as[i]? = some a)
    (b : α) : (f a ++ (as.set i b).flatMap f).Perm (f b ++ as.flatMap f) := by
  obtain ⟨hlt, rfl⟩ := List.getElem?_eq_some_iff.mp h
  have hb := (List.set_perm_cons_eraseIdx hlt b).flatMap_right f
  have ha := (List.getElem_cons_eraseIdx_perm hlt).symm.flatMap_right f
  rw [List.flatMap_cons] at ha hb
  refine (hb.append_left _).trans ((List.perm_append_comm_assoc ..).trans ?_)
  exact ha.symm.append_left _

namespace Book

def owed (v : Book) : List Nat := v.unstarted.filterMap (·.callback.cell?)

/-- Who has heard or is about to hear, and which outcome. -/
def told (v : Book) : List (Nat × Result.Outcome Lsn) :=
  heardIn v.history ++ v.audience.map fun p => (p.1.serial, p.2)

def waiting (v : Book) : List Nat := v.cells.flatMap fun c => c.listeners.map (·.serial)

/-- Names lead to what was made under them: a handle never to the waiter of a result. -/
structure Named (v : Book) : Prop where
  tickets : ∀ w ∈ v.unstarted, w.ticket < v.tickets
  handles : ∀ tag h, v.handles.find? tag = some h → h.ticket < v.tickets
  scripts : ∀ tag h, v.handles.find? tag = some h → ∀ w ∈ v.unstarted, w.ticket = h.ticket →
    w.callback.cell? = none
  results : ∀ name cell, v.results.find? name = some cell → cell < v.cells.length

/-- Each result was settled or is owed, and once. -/
structure Settled (v : Book) : Prop where
  cells : ((settledIn v.history).map (·.1) ++ v.owed).Perm (List.range v.cells.length)
  outcome : ∀ p ∈ settledIn v.history, v.cells[p.1]? = some ⟨some p.2, []⟩
  pending : ∀ cell ∈ v.owed, ∃ listeners, v.cells[cell]? = some ⟨none, listeners⟩

/-- Each listener waits or was told, and once: the outcome of its result. -/
structure Attended (v : Book) : Prop where
  serials : (v.told.map (·.1) ++ v.waiting).Perm (List.range v.listeners)
  links : ∀ serial cell, .listening serial cell ∈ v.history →
    (∃ listeners, v.cells[cell]? = some ⟨none, listeners⟩ ∧ serial ∈ listeners.map (·.serial)) ∨
      ∃ o, v.cells[cell]? = some ⟨some o, []⟩ ∧ (serial, o) ∈ v.told

section Owed
variable {v : Book} {w : Waiter} {ws : List Waiter}

theorem owed_script (hc : w.callback.cell? = none) :
    List.filterMap (·.callback.cell?) (w :: ws) = List.filterMap (·.callback.cell?) ws :=
  List.filterMap_cons_none hc

theorem owed_settle {cell : Nat} (hc : w.callback = .settle cell) :
    List.filterMap (·.callback.cell?) (w :: ws) = cell :: List.filterMap (·.callback.cell?) ws :=
  List.filterMap_cons_some (by rw [hc]; rfl)

end Owed

variable {v v' : Book}

theorem settle_pending {cell : Nat} {listeners : List Listener}
    (h : v.cells[cell]? = some ⟨none, listeners⟩) (o : Result.Outcome Lsn) :
    v.settle cell o = { v with
      cells := v.cells.set cell ⟨some o, []⟩
      audience := listeners.map (·, o) ++ v.audience }.note (.settled cell o) := by
  simp [settle, note, h]

theorem cells_await {cell : Nat} {c : Cell} (h : v.cells[cell]? = some c) (name : String)
    (target : Lsn) : (v.await name target).cells[cell]? = some c :=
  (List.getElem?_append_left (List.getElem?_eq_some_iff.mp h).1).trans h

theorem isRemark_settled {e : Entry} (h : e.isRemark = true) : e.settled? = none ∧ e.heard? = none := by
  cases e with
  | recorded | answered | logged => exact ⟨rfl, rfl⟩
  | registered | started | cancelled | settled | listening | heard => cases h

/-! ### Names -/

theorem Named.of_subset (hn : v.Named) (hu : v'.unstarted ⊆ v.unstarted)
    (hf : v'.tickets = v.tickets ∧ v'.handles = v.handles ∧ v'.results = v.results ∧
      v'.cells.length = v.cells.length) : v'.Named := by
  obtain ⟨ht, hh, hr, hc⟩ := hf
  refine ⟨?_, ?_, ?_, ?_⟩
  · rw [ht]
    exact fun w hw => hn.tickets w (hu hw)
  · rw [ht, hh]
    exact hn.handles
  · rw [hh]
    exact fun tag h hf w hw => hn.scripts tag h hf w (hu hw)
  · rw [hr, hc]
    exact hn.results

theorem Named.settle (hn : v.Named) (cell : Nat) (o : Result.Outcome Lsn) :
    (v.settle cell o).Named := by
  unfold Book.settle
  dsimp only
  split
  · exact hn.of_subset (List.Subset.refl _) ⟨rfl, rfl, rfl, List.length_set⟩
  · exact hn.of_subset (List.Subset.refl _) ⟨rfl, rfl, rfl, rfl⟩

theorem Named.listen (hn : v.Named) (cell : Nat) (tag : String) (steps : List Action)
    (panics : Bool) : (v.listen cell tag steps panics).Named := by
  unfold Book.listen
  dsimp only
  split
  · exact hn.of_subset (List.Subset.refl _) ⟨rfl, rfl, rfl, rfl⟩
  · exact hn.of_subset (List.Subset.refl _) ⟨rfl, rfl, rfl, List.length_set⟩
  · exact hn.of_subset (List.Subset.refl _) ⟨rfl, rfl, rfl, rfl⟩

theorem Named.register (hn : v.Named) (target : Lsn) (tag : String) (steps : List Action)
    (panics : Bool) :
    Named { v.register target (.script tag steps panics) with
      handles := v.handles.bind tag ⟨target, v.tickets⟩ } := by
  refine ⟨?_, ?_, ?_, hn.results⟩
  · rintro w (_ | ⟨_, hw⟩)
    · exact Nat.lt_succ_self _
    · exact Nat.lt_succ_of_lt (hn.tickets w hw)
  · intro other h hf
    rw [Names.find?_bind] at hf
    split at hf
    · obtain rfl := Option.some.inj hf
      exact Nat.lt_succ_self _
    · exact Nat.lt_succ_of_lt (hn.handles other h hf)
  · intro other h hf w hw ht
    rw [Names.find?_bind] at hf
    rcases List.mem_cons.mp hw with rfl | hw
    · rfl
    · split at hf
      · -- the ticket of the new handle was not drawn before
        obtain rfl := Option.some.inj hf
        exact absurd ht (Nat.ne_of_lt (hn.tickets w hw))
      · exact hn.scripts other h hf w hw ht

theorem Named.await (hn : v.Named) (name : String) (target : Lsn) : (v.await name target).Named := by
  refine ⟨?_, ?_, ?_, ?_⟩
  · rintro w (_ | ⟨_, hw⟩)
    · exact Nat.lt_succ_self _
    · exact Nat.lt_succ_of_lt (hn.tickets w hw)
  · exact fun tag h hf => Nat.lt_succ_of_lt (hn.handles tag h hf)
  · intro tag h hf w hw ht
    rcases List.mem_cons.mp hw with rfl | hw
    · -- no handle has the ticket of the new result
      exact absurd ht.symm (Nat.ne_of_lt (hn.handles tag h hf))
    · exact hn.scripts tag h hf w hw ht
  · intro other cell hf
    show cell < (v.cells ++ [_]).length
    rw [List.length_append]
    replace hf : (v.results.bind name v.cells.length).find? other = some cell := hf
    rw [Names.find?_bind] at hf
    split at hf
    · obtain rfl := Option.some.inj hf
      exact Nat.lt_succ_self _
    · exact Nat.lt_succ_of_lt (hn.results other cell hf)

theorem Named.move (hn : v.Named) (h : v.Move v') : v'.Named := by
  have htail : ∀ {w ws}, v.unstarted = w :: ws → ws ⊆ v.unstarted := by
    intro w ws hw
    rw [hw]
    exact List.subset_cons_self w ws
  cases h with
  | reorder h => exact hn.of_subset h.symm.subset ⟨rfl, rfl, rfl, rfl⟩
  | remark h | hear h => exact hn.of_subset (List.Subset.refl _) ⟨rfl, rfl, rfl, rfl⟩
  | register target tag steps panics => exact hn.register target tag steps panics
  | await name target => exact hn.await name target
  | cancel removed hh hw hg =>
    refine hn.of_subset ?_ ⟨rfl, rfl, rfl, rfl⟩
    exact List.Subset.trans (List.subset_append_right ..) hw.symm.subset
  | start hw hc | discard hw hc => exact hn.of_subset (htail hw) ⟨rfl, rfl, rfl, rfl⟩
  | fulfil hw hc | abandon hw hc =>
    apply Named.settle
    exact hn.of_subset (htail hw) ⟨rfl, rfl, rfl, rfl⟩
  | listen hr tag steps panics => exact hn.listen _ tag steps panics

theorem Named.moves (hn : v.Named) (h : ReflTransGen Move v v') : v'.Named := by
  induction h with
  | refl => exact hn
  | tail _ h ih => exact ih.move h

theorem Named.scripted {s : State} {ws : List Waiter} {ls : List (Listener × Result.Outcome Lsn)}
    (hn : (s.book ws ls).Named) : s.Scripted := fun tag h hh w hw ht =>
  hn.scripts tag h hh w (List.mem_append_right _ (List.mem_append_left _ hw)) ht

/-! ### Results -/

theorem Settled.of_eq (h : v.Settled) (hs : settledIn v'.history = settledIn v.history)
    (ho : v.owed.Perm v'.owed) (hc : v'.cells = v.cells) : v'.Settled := by
  refine ⟨?_, ?_, ?_⟩
  · rw [hs, hc]
    exact (ho.symm.append_left _).trans h.cells
  · rw [hs, hc]
    exact h.outcome
  · rw [hc]
    exact fun cell hm => h.pending cell (ho.symm.subset hm)

theorem Settled.nodup (h : v.Settled) : ((settledIn v.history).map (·.1) ++ v.owed).Nodup :=
  h.cells.nodup_iff.mpr List.nodup_range

theorem Settled.settle {v₁ : Book} {cell : Nat} (h : v.Settled)
    (hs : settledIn v₁.history = settledIn v.history) (hc : v₁.cells = v.cells)
    (ho : v.owed = cell :: v₁.owed) (o : Result.Outcome Lsn) : (v₁.settle cell o).Settled := by
  have hn := h.nodup
  rw [ho] at hn
  obtain ⟨listeners, hp⟩ := h.pending cell (ho ▸ List.mem_cons_self ..)
  have hlt : cell < v.cells.length := (List.getElem?_eq_some_iff.mp hp).1
  rw [settle_pending (hc ▸ hp), hc]
  have hne : ∀ other ∈ (settledIn v.history).map (·.1) ++ v₁.owed, other ≠ cell := by
    have hm := List.perm_middle.nodup_iff.mp hn
    rintro other ho' rfl
    exact (List.nodup_cons.mp hm).1 ho'
  refine ⟨?_, ?_, ?_⟩
  · have hperm := h.cells
    rw [ho] at hperm
    refine List.Perm.trans ?_ (List.length_set ▸ hperm)
    simp only [note, settledIn_append, settledIn_singleton, Entry.settled?, Option.toList_some,
      List.map_append, List.map_singleton, hs, List.append_assoc, List.singleton_append]
    exact .refl _
  · intro p hm
    simp only [note, settledIn_append, settledIn_singleton, Entry.settled?, Option.toList_some,
      hs, List.mem_append, List.mem_singleton] at hm
    rcases hm with hm | rfl
    · have hne := hne p.1 (List.mem_append_left _ (List.mem_map_of_mem hm))
      exact (List.getElem?_set_ne hne.symm).trans (h.outcome p hm)
    · exact List.getElem?_set_self hlt
  · intro other hm
    obtain ⟨waiting, hw⟩ := h.pending other (ho ▸ List.mem_cons_of_mem _ hm)
    refine ⟨waiting, ?_⟩
    exact (List.getElem?_set_ne (hne other (List.mem_append_right _ hm)).symm).trans hw

theorem Settled.await (h : v.Settled) (name : String) (target : Lsn) :
    (v.await name target).Settled := by
  have hs : settledIn (v.await name target).history = settledIn v.history := by
    simp [Book.await, Book.register, note, settledIn_singleton, Entry.settled?]
  have ho : (v.await name target).owed = v.cells.length :: v.owed := rfl
  refine ⟨?_, ?_, ?_⟩
  · rw [hs, ho]
    show List.Perm _ (List.range (v.cells ++ [_]).length)
    rw [List.length_append, List.length_singleton, List.range_succ]
    exact List.perm_middle.trans ((h.cells.cons _).trans (List.perm_append_singleton ..).symm)
  · rw [hs]
    exact fun p hp => cells_await (h.outcome p hp) name target
  · rw [ho]
    rintro cell (_ | ⟨_, hm⟩)
    · exact ⟨[], by simp [Book.await, Book.register, note]⟩
    · obtain ⟨listeners, hc⟩ := h.pending cell hm
      exact ⟨listeners, cells_await hc name target⟩

theorem Settled.listen (h : v.Settled) (cell : Nat) (tag : String) (steps : List Action)
    (panics : Bool) : (v.listen cell tag steps panics).Settled := by
  have hs : settledIn (v.history ++ [.listening v.listeners cell]) = settledIn v.history := by
    simp [settledIn_singleton, Entry.settled?]
  rcases hc : v.cells[cell]? with _ | ⟨_ | o, listeners⟩
  · simp only [Book.listen, note, hc]
    exact h.of_eq hs (.refl _) rfl
  · simp only [Book.listen, note, hc]
    have hne : ∀ {other : Nat} {c : Cell}, v.cells[other]? = some c → c.outcome ≠ none →
        other ≠ cell := by
      rintro other c ho hn rfl
      exact hn (Option.some.inj (ho.symm.trans hc) ▸ rfl)
    refine ⟨?_, ?_, ?_⟩
    · have hperm := h.cells
      rw [← hs] at hperm
      exact List.Perm.trans hperm (List.length_set ▸ .refl _)
    · rw [show settledIn _ = _ from hs]
      intro p hp
      have ho := h.outcome p hp
      exact (List.getElem?_set_ne (hne ho (Option.some_ne_none _)).symm).trans ho
    · intro other hm
      obtain ⟨waiting, hw⟩ := h.pending other hm
      by_cases he : other = cell
      · subst he
        exact ⟨_, List.getElem?_set_self (List.getElem?_eq_some_iff.mp hc).1⟩
      · exact ⟨waiting, (List.getElem?_set_ne (Ne.symm he)).trans hw⟩
  · simp only [Book.listen, note, hc]
    exact h.of_eq hs (.refl _) rfl

theorem Settled.move (hs : v.Settled) (hn : v.Named) (h : v.Move v') : v'.Settled := by
  have hquiet : ∀ {e : Entry}, e.settled? = none → settledIn (v.history ++ [e]) = settledIn v.history := by
    intro e he
    simp [settledIn_singleton, he]
  cases h with
  | reorder h => exact hs.of_eq rfl (h.filterMap _) rfl
  | remark h => exact hs.of_eq (hquiet (isRemark_settled h).1) (.refl _) rfl
  | register target tag steps panics => exact hs.of_eq (hquiet rfl) (.refl _) rfl
  | await name target => exact hs.await name target
  | cancel removed hh hw hg =>
    refine hs.of_eq (hquiet rfl) ?_ rfl
    -- what a handle finds is a script
    have hnone := List.filterMap_eq_nil_iff.mpr fun w hm =>
      hn.scripts _ _ hh w (hw.symm.subset (List.mem_append_left _ hm)) (hg w hm)
    have ho := hw.filterMap (·.callback.cell?)
    rw [List.filterMap_append, hnone] at ho
    exact ho
  | start hw hc tag lsn place =>
    refine hs.of_eq (hquiet rfl) ?_ rfl
    rw [owed, hw, owed_script hc]
    exact .refl _
  | discard hw hc =>
    refine hs.of_eq rfl ?_ rfl
    rw [owed, hw, owed_script hc]
    exact .refl _
  | fulfil hw hc lsn place =>
    apply hs.settle
    · exact hquiet rfl
    · rfl
    · rw [owed, hw, owed_settle hc]
      rfl
  | abandon hw hc =>
    apply hs.settle
    · rfl
    · rfl
    · rw [owed, hw, owed_settle hc]
      rfl
  | listen hr tag steps panics => exact hs.listen _ tag steps panics
  | hear h => exact hs.of_eq (hquiet rfl) (.refl _) rfl

/-- A cell is settled by an entry, and its listeners have been taken. -/
theorem Settled.entry (h : v.Settled) {cell : Nat} {o : Result.Outcome Lsn} {listeners : List Listener}
    (hc : v.cells[cell]? = some ⟨some o, listeners⟩) :
    (cell, o) ∈ settledIn v.history ∧ listeners = [] := by
  have hlt : cell < v.cells.length := (List.getElem?_eq_some_iff.mp hc).1
  rcases List.mem_append.mp (h.cells.symm.subset (List.mem_range.mpr hlt)) with hm | hm
  · obtain ⟨p, hp, rfl⟩ := List.mem_map.mp hm
    have ho := Option.some.inj (hc.symm.trans (h.outcome p hp))
    cases ho
    exact ⟨hp, rfl⟩
  · obtain ⟨waiting, hw⟩ := h.pending cell hm
    cases Option.some.inj (hc.symm.trans hw)

theorem Settled.outcome_iff (h : v.Settled) {cell : Nat} {o : Result.Outcome Lsn} :
    (v.cells[cell]?).bind (·.outcome) = some o ↔ (cell, o) ∈ settledIn v.history := by
  constructor
  · intro ho
    obtain ⟨⟨o?, listeners⟩, hc, he⟩ := Option.bind_eq_some_iff.mp ho
    obtain rfl : o? = some o := he
    exact (h.entry hc).1
  · intro hm
    rw [h.outcome _ hm]
    rfl

/-- A result that a waiter owes has no outcome. -/
theorem Settled.owed_pending (h : v.Settled) {w : Waiter} (hw : w ∈ v.unstarted) {cell : Nat}
    (hc : w.callback = .settle cell) : (v.cells[cell]?).bind (·.outcome) = none := by
  have hm : cell ∈ v.owed := List.mem_filterMap.mpr ⟨w, hw, by rw [hc]; rfl⟩
  obtain ⟨listeners, hp⟩ := h.pending cell hm
  rw [hp]
  rfl

/-! ### Listeners -/

theorem Attended.of_eq (h : v.Attended) (ht : v.told.Perm v'.told) (hc : v'.cells = v.cells)
    (hl : v'.listeners = v.listeners)
    (hh : ∀ serial cell, .listening serial cell ∈ v'.history → .listening serial cell ∈ v.history) :
    v'.Attended := by
  refine ⟨?_, ?_⟩
  · rw [waiting, hc, hl]
    exact ((ht.symm.map _).append_right _).trans h.serials
  · rw [hc]
    intro serial cell hm
    rcases h.links serial cell (hh serial cell hm) with hw | ⟨o, ho, hs⟩
    · exact .inl hw
    · exact .inr ⟨o, ho, ht.subset hs⟩

theorem mem_listening {es : List Entry} {e : Entry} {serial cell : Nat}
    (h : .listening serial cell ∈ es ++ [e]) (he : ∀ n c, e ≠ .listening n c) :
    .listening serial cell ∈ es := by
  rcases List.mem_append.mp h with h | h
  · exact h
  · exact absurd (List.mem_singleton.mp h).symm (he serial cell)

theorem Attended.waits {serial cell : Nat} {listeners : List Listener} (h : v.Attended)
    (hp : v.cells[cell]? = some ⟨none, listeners⟩) (hm : .listening serial cell ∈ v.history) :
    serial ∈ listeners.map (·.serial) := by
  rcases h.links serial cell hm with ⟨waiting, hc, hs⟩ | ⟨o, ho, hs⟩
  · cases hp.symm.trans hc
    exact hs
  · cases hp.symm.trans ho

theorem Attended.settle {cell : Nat} {listeners : List Listener} (h : v.Attended)
    (hp : v.cells[cell]? = some ⟨none, listeners⟩) (o : Result.Outcome Lsn) :
    (v.settle cell o).Attended := by
  have hlt : cell < v.cells.length := (List.getElem?_eq_some_iff.mp hp).1
  rw [settle_pending hp]
  let v' : Book := { v with
    cells := v.cells.set cell ⟨some o, []⟩
    audience := listeners.map (·, o) ++ v.audience }
  show (v'.note (.settled cell o)).Attended
  have ht : (v.told ++ listeners.map fun l => (l.serial, o)).Perm (v'.note (.settled cell o)).told := by
    simp only [told, note, heardIn_append, heardIn_singleton, Entry.heard?, Option.toList_none,
      List.append_nil, List.append_assoc, v', List.map_append, List.map_map]
    exact List.perm_append_comm.append_left _
  have hw : (listeners.map (·.serial) ++ v'.waiting).Perm v.waiting :=
    perm_flatMap_set (fun c => c.listeners.map (·.serial)) hp ⟨some o, []⟩
  refine ⟨?_, ?_⟩
  · have hm := (ht.symm.map (·.1)).append_right v'.waiting
    rw [List.map_append, List.map_map, List.append_assoc] at hm
    exact hm.trans ((hw.append_left _).trans h.serials)
  · intro serial other hm
    replace hm := mem_listening hm (by simp)
    by_cases he : cell = other
    · subst he
      obtain ⟨l, hl, rfl⟩ := List.mem_map.mp (h.waits hp hm)
      refine .inr ⟨o, List.getElem?_set_self hlt, ht.subset (List.mem_append_right _ ?_)⟩
      exact List.mem_map_of_mem hl
    · rcases h.links serial other hm with ⟨waiting, hc, hs⟩ | ⟨o', ho, hs⟩
      · exact .inl ⟨waiting, (List.getElem?_set_ne he).trans hc, hs⟩
      · have htold := ht.subset (List.mem_append_left _ hs)
        exact .inr ⟨o', (List.getElem?_set_ne he).trans ho, htold⟩

theorem Attended.listen_pending {cell : Nat} {listeners : List Listener} (h : v.Attended)
    (hp : v.cells[cell]? = some ⟨none, listeners⟩) (tag : String) (steps : List Action)
    (panics : Bool) : (v.listen cell tag steps panics).Attended := by
  have hlt : cell < v.cells.length := (List.getElem?_eq_some_iff.mp hp).1
  let l : Listener := ⟨v.listeners, tag, steps, panics⟩
  let v' : Book := { v with
    listeners := v.listeners + 1
    cells := v.cells.set cell ⟨none, listeners ++ [l]⟩ }
  have hv : v.listen cell tag steps panics = v'.note (.listening l.serial cell) := by
    simp only [Book.listen, note, hp]
    rfl
  rw [hv]
  have ht : (v'.note (.listening l.serial cell)).told = v.told := by
    simp [told, note, heardIn_singleton, Entry.heard?, v']
  have hw : v'.waiting.Perm (v.waiting ++ [v.listeners]) := by
    have hs := perm_flatMap_set (fun c => c.listeners.map (·.serial)) hp ⟨none, listeners ++ [l]⟩
    simp only [List.map_append, List.append_assoc] at hs
    exact ((List.perm_append_left_iff _).mp hs).trans List.perm_append_comm
  refine ⟨?_, ?_⟩
  · rw [ht]
    show List.Perm _ (List.range (v.listeners + 1))
    rw [List.range_succ]
    refine (hw.append_left _).trans ?_
    rw [← List.append_assoc]
    exact h.serials.append_right _
  · rw [ht]
    intro serial other hm
    rcases List.mem_append.mp hm with hm | hm
    · by_cases he : cell = other
      · subst he
        refine .inl ⟨_, List.getElem?_set_self hlt, ?_⟩
        rw [List.map_append]
        exact List.mem_append_left _ (h.waits hp hm)
      · rcases h.links serial other hm with ⟨waiting, hc, hs⟩ | ⟨o, ho, hs⟩
        · exact .inl ⟨waiting, (List.getElem?_set_ne he).trans hc, hs⟩
        · exact .inr ⟨o, (List.getElem?_set_ne he).trans ho, hs⟩
    · cases List.mem_singleton.mp hm
      exact .inl ⟨_, List.getElem?_set_self hlt, by simp [l]⟩

theorem Attended.listen_settled {cell : Nat} {o : Result.Outcome Lsn} (h : v.Attended)
    (hc : v.cells[cell]? = some ⟨some o, []⟩) (tag : String) (steps : List Action)
    (panics : Bool) : (v.listen cell tag steps panics).Attended := by
  let l : Listener := ⟨v.listeners, tag, steps, panics⟩
  let v' : Book := { v with
    listeners := v.listeners + 1
    audience := (l, o) :: v.audience }
  have hv : v.listen cell tag steps panics = v'.note (.listening l.serial cell) := by
    simp only [Book.listen, note, hc]
    rfl
  rw [hv]
  have ht : (v'.note (.listening l.serial cell)).told.Perm ((v.listeners, o) :: v.told) := by
    simp only [told, note, heardIn_append, heardIn_singleton, Entry.heard?, Option.toList_none,
      List.append_nil, v', List.map_cons]
    exact List.perm_middle
  refine ⟨?_, ?_⟩
  · show List.Perm _ (List.range (v.listeners + 1))
    rw [List.range_succ]
    refine ((ht.map _).append_right _).trans ?_
    exact (h.serials.cons _).trans (List.perm_append_singleton ..).symm
  · intro serial other hm
    rcases List.mem_append.mp hm with hm | hm
    · rcases h.links serial other hm with hw | ⟨o', ho, hs⟩
      · exact .inl hw
      · exact .inr ⟨o', ho, ht.symm.subset (List.mem_cons_of_mem _ hs)⟩
    · cases List.mem_singleton.mp hm
      exact .inr ⟨o, hc, ht.symm.subset (List.mem_cons_self ..)⟩

theorem Attended.await (h : v.Attended) (name : String) (target : Lsn) :
    (v.await name target).Attended := by
  have ht : (v.await name target).told = v.told := by
    simp [told, Book.await, Book.register, note, heardIn_singleton, Entry.heard?]
  have hw : (v.await name target).waiting = v.waiting := by
    simp [waiting, Book.await, Book.register, note]
  refine ⟨?_, ?_⟩
  · rw [ht, hw]
    exact h.serials
  · rw [ht]
    intro serial cell hm
    rcases h.links serial cell (mem_listening hm (by simp)) with ⟨listeners, hc, hs⟩ | ⟨o, hc, hs⟩
    · exact .inl ⟨listeners, cells_await hc name target, hs⟩
    · exact .inr ⟨o, cells_await hc name target, hs⟩

theorem Attended.move (ha : v.Attended) (hs : v.Settled) (hn : v.Named) (h : v.Move v') :
    v'.Attended := by
  -- an entry that is not about a listener
  have hquiet : ∀ {v' : Book} {e : Entry}, e.heard? = none → (∀ n c, e ≠ .listening n c) →
      v'.history = v.history ++ [e] → v'.audience = v.audience → v'.cells = v.cells →
      v'.listeners = v.listeners → v'.Attended := by
    intro v' e he hl hh hau hc hlen
    have ht : v'.told = v.told := by simp [told, hh, hau, heardIn_singleton, he]
    refine ha.of_eq (ht ▸ .refl _) hc hlen ?_
    rw [hh]
    exact fun _ _ hm => mem_listening hm hl
  cases h with
  | reorder | discard => exact ha.of_eq (.refl _) rfl rfl fun _ _ => id
  | @remark e h =>
    refine hquiet (isRemark_settled h).2 ?_ rfl rfl rfl rfl
    rintro n c rfl
    cases h
  | register | cancel | start =>
    refine hquiet ?_ ?_ rfl rfl rfl rfl
    · rfl
    · simp
  | await name target => exact ha.await name target
  | @fulfil w ws cell hw hc lsn place =>
    obtain ⟨listeners, hp⟩ := hs.pending cell (by rw [owed, hw, owed_settle hc]; simp)
    have hv : ({ v with unstarted := ws }.note (.started w.ticket none lsn place)).Attended := by
      refine hquiet ?_ ?_ rfl rfl rfl rfl
      · rfl
      · simp
    exact hv.settle hp _
  | @abandon w ws cell hw hc =>
    obtain ⟨listeners, hp⟩ := hs.pending cell (by rw [owed, hw, owed_settle hc]; simp)
    have hv : Attended { v with unstarted := ws } := ha.of_eq (.refl _) rfl rfl fun _ _ => id
    exact hv.settle hp _
  | @listen name cell hr tag steps panics =>
    have hlt := List.getElem?_eq_getElem (hn.results name cell hr)
    rcases hc : v.cells[cell]? with _ | ⟨_ | o, listeners⟩
    · cases hc.symm.trans hlt
    · exact ha.listen_pending hc tag steps panics
    · obtain ⟨-, rfl⟩ := hs.entry hc
      exact ha.listen_settled hc tag steps panics
  | @hear l o rest h =>
    refine ha.of_eq ?_ rfl rfl fun _ _ hm => mem_listening hm (by simp)
    simp only [told, note, heardIn_append, heardIn_singleton, Entry.heard?, Option.toList_some, h,
      List.map_cons, List.append_assoc, List.singleton_append]
    exact .refl _

theorem filter_key {α : Type} {ps : List (Nat × α)} (hn : (ps.map (·.1)).Nodup) {k : Nat} {a : α}
    (h : (k, a) ∈ ps) : ps.filter (·.1 = k) = [(k, a)] := by
  induction ps with
  | nil => cases h
  | cons p ps ih =>
    obtain ⟨hp, hn⟩ := List.nodup_cons.mp hn
    rcases List.mem_cons.mp h with rfl | hm
    · have hnone : ps.filter (·.1 = k) = [] := by
        rw [List.filter_eq_nil_iff]
        intro q hq he
        exact hp (List.mem_map.mpr ⟨q, hq, of_decide_eq_true he⟩)
      rw [List.filter_cons_of_pos (by simp), hnone]
    · have hne : p.1 ≠ k := by
        rintro rfl
        exact hp (List.mem_map.mpr ⟨_, hm, rfl⟩)
      rw [List.filter_cons_of_neg (by simpa using hne), ih hn hm]

/-- Nobody is about to hear: a listener has heard the outcome of its result, and once, or the result is
pending. -/
theorem Attended.heard (h : v.Attended) (ha : v.audience = []) {serial cell : Nat}
    (hm : .listening serial cell ∈ v.history) :
    (heardIn v.history).filter (·.1 = serial) =
      (((v.cells[cell]?).bind (·.outcome)).map (serial, ·)).toList := by
  have ht : v.told = heardIn v.history := by rw [told, ha]; exact List.append_nil _
  have hn := h.serials.nodup_iff.mpr List.nodup_range
  rw [ht] at hn
  rcases h.links serial cell hm with ⟨listeners, hc, hs⟩ | ⟨o, hc, hs⟩
  · rw [hc]
    show _ = []
    rw [List.filter_eq_nil_iff]
    intro p hp he
    have hw : serial ∈ v.waiting := List.mem_flatMap.mpr ⟨_, List.mem_of_getElem? hc, hs⟩
    obtain ⟨-, -, hd⟩ := List.nodup_append.mp hn
    exact hd p.1 (List.mem_map_of_mem hp) serial hw (of_decide_eq_true he)
  · rw [hc]
    exact filter_key (List.nodup_append.mp hn).1 (ht ▸ hs)

/-! ### Runs -/

structure Kept (v : Book) : Prop where
  named : v.Named
  settled : v.Settled
  attended : v.Attended

theorem Kept.moves (hk : v.Kept) (h : ReflTransGen Move v v') : v'.Kept := by
  induction h with
  | refl => exact hk
  | tail _ h ih =>
    exact ⟨ih.named.move h, ih.settled.move ih.named h, ih.attended.move ih.settled ih.named h⟩

end Book
end ReplicaRouting.WaitList
