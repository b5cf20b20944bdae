import ReplicaRouting.Proofs.Result.Agreement
/-!
Who can still settle a cell. A completer is held under a name or captured by an adapter, and is used once:
a pending cell has one completer, a settled cell has none.
-/

namespace ReplicaRouting.Result

open Relation (ReflTransGen)

def Listener.captured : Listener V → List Nat
  | .adapter into => [into]
  | _ => []

theorem Listener.captured_eq_nil {l : Listener V} (h : ∀ into, l ≠ .adapter into) :
    l.captured = [] := by
  cases l with
  | adapter into => exact absurd rfl (h into)
  | _ => rfl

def capturedBy (rs : List (Registered V)) : List Nat := rs.flatMap (·.listener.captured)

namespace Network
variable (n : Network V)

def isPending (cell : Nat) : Bool := (n.cells[cell]?).any (·.outcome.isNone)

/-- The completers of a cell that may still be used, between calls. -/
def armed (cell : Nat) : Nat := (n.completers.map (·.2) ++ capturedBy n.waiting).count cell

variable {n}

theorem isPending_iff {cell : Nat} :
    n.isPending cell = true ↔ ∃ context, n.cells[cell]? = some ⟨context, none⟩ := by
  unfold isPending
  cases h : n.cells[cell]? with
  | none => simp
  | some c =>
    obtain ⟨context, o?⟩ := c
    cases o? <;> simp

theorem isPending_eq {cell : Nat} (h : cell < n.cells.length) :
    n.isPending cell = (n.outcomeAt cell).isNone := by
  rw [isPending, outcomeAt, List.getElem?_eq_getElem h]
  rfl

theorem isPending_of_ge {cell : Nat} (h : n.cells.length ≤ cell) : n.isPending cell = false := by
  rw [isPending, List.getElem?_eq_none h]
  rfl

theorem isPending_addCell (c : Cell V) (cell : Nat) :
    (n.addCell c).1.isPending cell =
      if cell = n.cells.length then c.outcome.isNone else n.isPending cell := by
  show ((n.cells ++ [c])[cell]?).any (·.outcome.isNone) = _
  split
  · rename_i h
    rw [h, List.getElem?_append_right (Nat.le_refl _), Nat.sub_self]
    rfl
  · rename_i h
    rcases Nat.lt_or_gt_of_ne h with hlt | hgt
    · rw [List.getElem?_append_left hlt]
      rfl
    · rw [isPending_of_ge (Nat.le_of_lt hgt), List.getElem?_eq_none]
      · rfl
      · rw [List.length_append]
        exact hgt

theorem isPending_settle (cell : Nat) (o : Outcome V) (other : Nat) :
    (n.settle cell o).1.isPending other = if other = cell then false else n.isPending other := by
  unfold settle
  split
  · rename_i context hc
    have hlt : cell < n.cells.length := (List.getElem?_eq_some_iff.mp hc).1
    show ((n.cells.set cell ⟨context, some o⟩)[other]?).any (·.outcome.isNone) = _
    split
    · rename_i h
      rw [h, List.getElem?_set_self hlt]
      rfl
    · rename_i h
      rw [List.getElem?_set_ne (Ne.symm h)]
      rfl
  · rename_i hn
    split
    · rename_i h
      -- a cell that cannot be settled is not pending
      rw [h, ← Bool.not_eq_true, isPending_iff]
      rintro ⟨context, hc⟩
      exact hn context hc
    · rfl

theorem settle_done {cell : Nat} (h : n.isPending cell = true) (o : Outcome V) :
    (n.settle cell o).2.2 = true ∧ (n.settle cell o).1.outcomeAt cell = some o := by
  obtain ⟨context, hc⟩ := isPending_iff.mp h
  rw [settle, hc]
  have hlt : cell < n.cells.length := (List.getElem?_eq_some_iff.mp hc).1
  exact ⟨rfl, outcomeAt_eq_some_iff.mpr ⟨context, List.getElem?_set_self hlt⟩⟩

theorem isPending_start (r : Registered V) (o : Outcome V) (context : Option Context) (cell : Nat) :
    (n.start r o context).1.isPending cell =
      if cell ∈ r.listener.captured then false else n.isPending cell := by
  obtain ⟨serial, source, listener⟩ := r
  cases listener with
  | script | receiver => rfl
  | recorder read => cases o <;> rfl
  | adapter into =>
    have h := isPending_settle (n := n.emit (.started serial source none o context)) into o.adapt cell
    simp only [Listener.captured, List.mem_singleton]
    exact h

theorem completers_settle (cell : Nat) (o : Outcome V) :
    (n.settle cell o).1.completers = n.completers := by
  rcases n.settle_cases cell o with ⟨context, -, hs⟩ | hs <;> rw [hs]

theorem completers_start (r : Registered V) (o : Outcome V) (context : Option Context) :
    (n.start r o context).1.completers = n.completers := by
  obtain ⟨serial, cell, listener⟩ := r
  cases listener with
  | script | receiver => rfl
  | recorder read => cases o <;> rfl
  | adapter into => exact completers_settle into _

theorem completers_register (cell : Nat) (l : Listener V) :
    (n.register cell l).1.completers = n.completers := by
  rcases n.register_cases cell l with ⟨-, h⟩ | ⟨o, -, h⟩
  · rw [h]
    rfl
  · rw [h]
    exact completers_start ..

end Network

/-! ### Listeners that have yet to start -/

namespace Ledger
variable (v : Ledger V)

def unstarted : List (Registered V) := v.network.waiting ++ v.due.map (·.registered)

theorem mem_unstarted {r : Registered V} : r ∈ v.unstarted ↔ v.Has r := by
  rw [unstarted, List.mem_append, List.mem_map, Has]

theorem unstarted_at_rest (h : v.due = []) : v.unstarted = v.network.waiting := by
  rw [unstarted, h]
  exact List.append_nil _

theorem unstarted_settle (cell : Nat) (o : Outcome V) :
    (v.after (v.network.settle cell o).1 (v.network.settle cell o).2.1).unstarted.Perm
      v.unstarted := by
  rcases v.network.settle_cases cell o with ⟨context, -, hs⟩ | hs
  · rw [hs]
    have hsplit := List.filter_append_perm (fun r => decide (r.cell = cell)) v.network.waiting
    simp only [unstarted, after, dueOn_delivering, List.map_append, List.map_map, Function.comp_def,
      List.map_id']
    rw [← List.append_assoc]
    refine List.Perm.append_right _ (List.perm_append_comm.trans ?_)
    simpa only [decide_not] using hsplit
  · rw [hs]
    rfl

variable {v}

theorem unstarted_start {d : Due V} {due : List (Due V)} (h : v.due = d :: due) :
    v.unstarted.Perm (d.registered ::
      (after ⟨v.network, due⟩ (v.network.start d.registered d.outcome d.context).1
        (v.network.start d.registered d.outcome d.context).2).unstarted) := by
  have hd : v.unstarted.Perm (d.registered :: (Ledger.mk v.network due).unstarted) := by
    rw [unstarted, h]
    exact List.perm_middle
  obtain ⟨⟨serial, cell, listener⟩, o, context⟩ := d
  refine hd.trans (.cons _ ?_)
  cases listener with
  | script | receiver => rfl
  | recorder read => cases o <;> rfl
  | adapter into =>
    have hs := unstarted_settle
      ⟨v.network.emit (.started serial cell none o context), due⟩ into o.adapt
    exact hs.symm

def enrolled (v : Ledger V) (r : Registered V) (o : Outcome V) : Ledger V :=
  ⟨{ v.network with registrations := v.network.registrations + 1 }.emit (.registered r.serial r.cell),
    ⟨r, o, v.network.contextAt r.cell⟩ :: v.due⟩

theorem register_enrolled (v : Ledger V) (cell : Nat) (l : Listener V) :
    let r : Registered V := ⟨v.network.registrations, cell, l⟩
    v.network.outcomeAt cell = none ∧
        v.after (v.network.register cell l).1 (v.network.register cell l).2 =
          ⟨{ { v.network with registrations := v.network.registrations + 1 }.emit
              (.registered r.serial cell) with waiting := v.network.waiting ++ [r] }, v.due⟩ ∨
      ∃ o, v.network.outcomeAt cell = some o ∧
        v.after (v.network.register cell l).1 (v.network.register cell l).2 =
          after ⟨(v.enrolled r o).network, v.due⟩
            ((v.enrolled r o).network.start r o (v.network.contextAt cell)).1
            ((v.enrolled r o).network.start r o (v.network.contextAt cell)).2 := by
  intro r
  rcases v.network.register_cases cell l with ⟨ho, h⟩ | ⟨o, ho, h⟩
  · refine .inl ⟨ho, ?_⟩
    rw [h]
    rfl
  · refine .inr ⟨o, ho, ?_⟩
    rw [h]
    rfl

theorem unstarted_waiting (n : Network V) (due : List (Due V)) (r : Registered V) :
    (Ledger.mk { n with waiting := n.waiting ++ [r] } due).unstarted.Perm
      (r :: (Ledger.mk n due).unstarted) := by
  show ((n.waiting ++ [r]) ++ _).Perm (r :: (n.waiting ++ _))
  rw [List.append_assoc]
  exact List.perm_middle

/-! ### The invariant -/

/-- With the completers of these cells held by somebody, every pending cell has one completer and the others
have none; an adapter leads to a cell that was made later than its source. -/
structure Owned (held : List Nat) (v : Ledger V) : Prop where
  armed : ∀ cell, (held ++ capturedBy v.unstarted).count cell =
    if v.network.isPending cell then 1 else 0
  later : ∀ r ∈ v.unstarted, ∀ into ∈ r.listener.captured, r.cell < into

section Owned
variable {v v' : Ledger V} {held held' : List Nat}

theorem capturedBy_cons (r : Registered V) (rs : List (Registered V)) :
    capturedBy (r :: rs) = r.listener.captured ++ capturedBy rs := rfl

theorem count_capturedBy {rs rs' : List (Registered V)} (h : rs.Perm rs') (cell : Nat) :
    (capturedBy rs).count cell = (capturedBy rs').count cell :=
  (h.flatMap_right _).count_eq cell

theorem Owned.perm (ho : Owned held v) (h : held.Perm held') : Owned held' v := by
  refine ⟨fun cell => ?_, ho.later⟩
  rw [← ho.armed cell, List.count_append, List.count_append, h.count_eq]

theorem Owned.congr (ho : Owned held v) (hc : v'.network.cells = v.network.cells)
    (hu : v'.unstarted = v.unstarted) : Owned held v' := by
  refine ⟨fun cell => ?_, hu ▸ ho.later⟩
  rw [hu, ho.armed, Network.isPending, Network.isPending, hc]

theorem Owned.isPending (ho : Owned held v) {cell : Nat} (h : cell ∈ held) :
    v.network.isPending cell = true := by
  have hc := ho.armed cell
  have hp : 0 < held.count cell := List.count_pos_iff.mpr h
  rw [List.count_append] at hc
  split at hc
  · assumption
  · omega

theorem Owned.isPending_captured (ho : Owned held v) {r : Registered V} (hr : r ∈ v.unstarted)
    {cell : Nat} (h : cell ∈ r.listener.captured) : v.network.isPending cell = true := by
  have hc := ho.armed cell
  have hp : 0 < (capturedBy v.unstarted).count cell :=
    List.count_pos_iff.mpr (List.mem_flatMap.mpr ⟨r, hr, h⟩)
  rw [List.count_append] at hc
  split at hc
  · assumption
  · omega

/-- With no completer held and nothing due every cell is settled: a completer that was captured belongs to a
later cell than the one it waits for, so there is no first pending cell. -/
theorem Owned.settled (ho : Owned [] v) (hv : v.Agreed) (hd : v.due = []) (cell : Nat) :
    v.network.isPending cell = false := by
  induction cell using Nat.strongRecOn with
  | ind cell ih =>
    refine eq_false_of_ne_true fun hp => ?_
    have hc := ho.armed cell
    rw [if_pos hp, List.nil_append] at hc
    have hm : cell ∈ capturedBy v.unstarted := List.count_pos_iff.mp (by omega)
    obtain ⟨r, hr, hcell⟩ := List.mem_flatMap.mp hm
    have hearlier := ih r.cell (ho.later r hr cell hcell)
    have hwaits := hv.waiting r (v.unstarted_at_rest hd ▸ hr)
    rw [Network.isPending_iff.mpr hwaits] at hearlier
    cases hearlier

theorem Owned.addSettled (ho : Owned held v) (context : Option Context) (o : Outcome V) :
    Owned held ⟨(v.network.addCell ⟨context, some o⟩).1, v.due⟩ := by
  refine ⟨fun cell => (ho.armed cell).trans ?_, ho.later⟩
  rw [Network.isPending_addCell]
  by_cases h : cell = v.network.cells.length
  · simp [h, Network.isPending_of_ge]
  · rw [if_neg h]

theorem Owned.addPending (ho : Owned held v) (context : Option Context) :
    Owned (v.network.cells.length :: held) ⟨(v.network.addCell ⟨context, none⟩).1, v.due⟩ := by
  refine ⟨fun cell => ?_, ho.later⟩
  have hc := ho.armed cell
  show (v.network.cells.length :: (held ++ capturedBy v.unstarted)).count cell = _
  rw [List.count_cons, hc, Network.isPending_addCell]
  by_cases h : cell = v.network.cells.length
  · simp [h, Network.isPending_of_ge]
  · simp [h, Ne.symm h]

theorem Owned.settle {cell : Nat} (ho : Owned (cell :: held) v) (o : Outcome V) :
    Owned held (v.after (v.network.settle cell o).1 (v.network.settle cell o).2.1) := by
  have hu := v.unstarted_settle cell o
  refine ⟨fun other => ?_, fun r hr => ho.later r (hu.subset hr)⟩
  have hc := ho.armed other
  rw [List.count_append] at hc ⊢
  rw [count_capturedBy hu]
  show _ = if (v.network.settle cell o).1.isPending other then 1 else 0
  rw [Network.isPending_settle]
  by_cases h : other = cell
  · subst h
    rw [List.count_cons_self] at hc
    rw [if_pos rfl]
    split at hc
    · simp only [Bool.false_eq_true, if_false]
      omega
    · omega
  · rw [List.count_cons_of_ne (Ne.symm h)] at hc
    rw [if_neg h]
    exact hc

theorem Owned.start {d : Due V} {due : List (Due V)} (ho : Owned held v) (h : v.due = d :: due) :
    Owned held (after ⟨v.network, due⟩ (v.network.start d.registered d.outcome d.context).1
      (v.network.start d.registered d.outcome d.context).2) := by
  have hu := unstarted_start h
  refine ⟨fun cell => ?_, fun r hr => ho.later r (hu.symm.subset (List.mem_cons_of_mem _ hr))⟩
  have hc := ho.armed cell
  rw [List.count_append, count_capturedBy hu, capturedBy_cons, List.count_append] at hc
  rw [List.count_append]
  show _ = if (v.network.start d.registered d.outcome d.context).1.isPending cell then 1 else 0
  rw [Network.isPending_start]
  split
  · -- the one completer of the cell was the listener's
    rename_i hm
    have hp : 0 < d.registered.listener.captured.count cell := List.count_pos_iff.mpr hm
    simp only [Bool.false_eq_true, if_false]
    split at hc <;> omega
  · rename_i hm
    rw [List.count_eq_zero.mpr hm, Nat.zero_add] at hc
    exact hc

theorem Owned.enrolled {r : Registered V} (ho : Owned (r.listener.captured ++ held) v)
    (hl : ∀ into ∈ r.listener.captured, r.cell < into)
    (hc : v'.network.cells = v.network.cells) (hu : v'.unstarted.Perm (r :: v.unstarted)) :
    Owned held v' := by
  refine ⟨fun cell => ?_, fun x hx => ?_⟩
  · have h := ho.armed cell
    rw [Network.isPending] at h
    rw [List.append_assoc, List.count_append, List.count_append] at h
    rw [Network.isPending, hc, List.count_append, count_capturedBy hu, capturedBy_cons,
      List.count_append]
    omega
  · rcases List.mem_cons.mp (hu.subset hx) with rfl | hx
    · exact hl
    · exact ho.later x hx

/-- A registration, which may hand a completer to the listener: it waits, or it is due and starts. -/
theorem Owned.register {cell : Nat} {l : Listener V} (ho : Owned (l.captured ++ held) v)
    (hl : ∀ into ∈ l.captured, cell < into) :
    Owned held (v.after (v.network.register cell l).1 (v.network.register cell l).2) := by
  rcases v.register_enrolled cell l with ⟨-, h⟩ | ⟨o, -, h⟩
  · rw [h]
    exact ho.enrolled (r := ⟨v.network.registrations, cell, l⟩) hl rfl (unstarted_waiting ..)
  · rw [h]
    have he : Owned held (v.enrolled ⟨v.network.registrations, cell, l⟩ o) :=
      ho.enrolled (r := ⟨v.network.registrations, cell, l⟩) hl rfl List.perm_middle
    exact he.start rfl

end Owned

/-! ### Every move keeps it -/

/-- The completers that are held are those under names. -/
structure Linear (v : Ledger V) : Prop where
  names : (v.network.completers.map (·.1)).Nodup
  owned : v.Owned (v.network.completers.map (·.2))

section Linear
variable {v v' : Ledger V}

theorem Linear.taken (hl : v.Linear) {name : String} {cell : Nat}
    (h : v.network.completers.find? name = some cell) :
    v.Owned (cell :: (v.network.completers.unbind name).map (·.2)) :=
  hl.owned.perm ((Names.perm_unbind hl.names h).map (·.2))

theorem Linear.release (hl : v.Linear) {name : String} {cell : Nat}
    (h : v.network.completers.find? name = some cell) (o : Outcome V) :
    (v.after ((v.network.without name).settle cell o).1
      ((v.network.without name).settle cell o).2.1).Linear := by
  have ho : Owned _ ⟨v.network.without name, v.due⟩ := (hl.taken h).congr rfl rfl
  have hc : ((v.network.without name).settle cell o).1.completers =
      v.network.completers.unbind name := Network.completers_settle cell o
  refine ⟨?_, ?_⟩
  · show (((v.network.without name).settle cell o).1.completers.map (·.1)).Nodup
    rw [hc]
    exact Names.nodup_unbind hl.names
  · show Owned (((v.network.without name).settle cell o).1.completers.map (·.2)) _
    rw [hc]
    exact ho.settle o

theorem Linear.register (hl : v.Linear) {n : Network V} {cell : Nat} {l : Listener V}
    (hn : n.completers = v.network.completers)
    (ho : Owned (l.captured ++ v.network.completers.map (·.2)) ⟨n, v.due⟩)
    (h : ∀ into ∈ l.captured, cell < into) :
    (v.after (n.register cell l).1 (n.register cell l).2).Linear := by
  have hc : (n.register cell l).1.completers = v.network.completers :=
    (Network.completers_register cell l).trans hn
  refine ⟨?_, ?_⟩
  · show ((n.register cell l).1.completers.map (·.1)).Nodup
    rw [hc]
    exact hl.names
  · show Owned ((n.register cell l).1.completers.map (·.2)) _
    rw [hc]
    exact ho.register h

theorem Linear.pending (hl : v.Linear) (name : String) (context : Option Context) :
    (v.after (v.network.addPending name context).1
      (v.network.addPending name context).2).Linear := by
  let cell := v.network.cells.length
  let n : Network V :=
    { (v.network.addCell ⟨context, none⟩).1 with names := v.network.names.bind name cell }
  have hn : ∀ {held}, v.Owned held → Owned (cell :: held) ⟨n, v.due⟩ := fun ho =>
    (ho.addPending context).congr rfl rfl
  have hd : (n.dropCompleter name).1.completers = v.network.completers.unbind name ∧
      Owned (cell :: (v.network.completers.unbind name).map (·.2))
        (v.after (n.dropCompleter name).1 (n.dropCompleter name).2.1) := by
    rcases n.dropCompleter_cases name with ⟨hf, h⟩ | ⟨old, hf, h⟩
    · have hu : v.network.completers.unbind name = v.network.completers := Names.unbind_eq_self hf
      rw [h, hu]
      exact ⟨rfl, hn hl.owned⟩
    · rw [h]
      have ho : Owned (old :: cell :: (v.network.completers.unbind name).map (·.2))
          ⟨n.without name, v.due⟩ :=
        ((hn (hl.taken hf)).perm (.swap ..)).congr rfl rfl
      exact ⟨Network.completers_settle old _, ho.settle _⟩
  have hb : (v.network.addPending name context).1.completers =
      (name, cell) :: v.network.completers.unbind name := by
    show (n.dropCompleter name).1.completers.bind name cell = _
    rw [hd.1]
    exact congrArg ((name, cell) :: ·) Names.unbind_unbind
  refine ⟨?_, ?_⟩
  · show ((v.network.addPending name context).1.completers.map (·.1)).Nodup
    rw [hb]
    exact Names.nodup_bind hl.names cell
  · show Owned ((v.network.addPending name context).1.completers.map (·.2)) _
    rw [hb]
    exact hd.2.congr rfl rfl

theorem Linear.move (hl : v.Linear) (h : v.Move v') : v'.Linear := by
  cases h with
  | quiet h =>
    refine ⟨h.completers ▸ hl.names, ?_⟩
    show Owned (_) _
    rw [h.completers]
    exact hl.owned.congr h.cells (congrArg (· ++ _) h.waiting)
  | settled name context o => exact ⟨hl.names, (hl.owned.addSettled context o).congr rfl rfl⟩
  | pending name context => exact hl.pending name context
  | @adapt source context h =>
    have ho := hl.owned.addPending (some context)
    exact hl.register (l := .adapter v.network.cells.length) rfl ho fun into hi =>
      List.mem_singleton.mp hi ▸ h
  | @listen cell l hn h =>
    have hc : l.captured = [] := Listener.captured_eq_nil hn
    refine hl.register rfl ?_ ?_
    · rw [hc]
      exact hl.owned
    · rw [hc]
      exact List.forall_mem_nil _
  | @await as cell h =>
    have ho : Owned _ ⟨v.network.awaiting as cell, v.due⟩ := hl.owned.congr rfl rfl
    exact hl.register (l := .receiver) rfl ho (List.forall_mem_nil _)
  | @release name cell o h => exact hl.release h o
  | @start d due h =>
    have hc := Network.completers_start (n := v.network) d.registered d.outcome d.context
    refine ⟨?_, ?_⟩
    · show ((v.network.start d.registered d.outcome d.context).1.completers.map (·.1)).Nodup
      rw [hc]
      exact hl.names
    · show Owned ((v.network.start d.registered d.outcome d.context).1.completers.map (·.2)) _
      rw [hc]
      exact hl.owned.start h

theorem Linear.moves (hl : v.Linear) (h : ReflTransGen Move v v') : v'.Linear := by
  induction h with
  | refl => exact hl
  | tail _ h ih => exact ih.move h

end Linear
end Ledger
end ReplicaRouting.Result
