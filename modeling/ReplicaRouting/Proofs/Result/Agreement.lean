import ReplicaRouting.Proofs.Result.Ledger
/-!
A cell is settled once, and all who look at it are told the same. Each listener is in one place: it waits on
a pending cell, is due on a settled one, or has been started with the outcome of its cell.
-/

namespace ReplicaRouting.Result

open Relation (ReflTransGen)

namespace Entry

def registered? : Entry V → Option (Nat × Nat)
  | .registered serial cell => some (serial, cell)
  | _ => none

def started? : Entry V → Option (Nat × Nat)
  | .started serial cell .. => some (serial, cell)
  | _ => none

end Entry

def registeredIn (es : List (Entry V)) : List (Nat × Nat) := es.filterMap (·.registered?)

def startedIn (es : List (Entry V)) : List (Nat × Nat) := es.filterMap (·.started?)

section Append
variable (es : List (Entry V)) (serial cell : Nat) (tag : Option String) (o : Outcome V)
  (context : Option Context)

@[simp] theorem registeredIn_registered :
    registeredIn (es ++ [.registered serial cell]) = registeredIn es ++ [(serial, cell)] := by
  simp [registeredIn, Entry.registered?]

@[simp] theorem startedIn_registered :
    startedIn (es ++ [.registered serial cell]) = startedIn es := by
  simp [startedIn, Entry.started?]

@[simp] theorem registeredIn_started :
    registeredIn (es ++ [.started serial cell tag o context]) = registeredIn es := by
  simp [registeredIn, Entry.registered?]

@[simp] theorem startedIn_started :
    startedIn (es ++ [.started serial cell tag o context]) = startedIn es ++ [(serial, cell)] := by
  simp [startedIn, Entry.started?]

end Append

def Registered.key (r : Registered V) : Nat × Nat := (r.serial, r.cell)

/-! ### The invariant -/

namespace Ledger

def places (v : Ledger V) (key : Nat × Nat) : Nat :=
  (startedIn v.network.trace).count key + (v.network.waiting.map (·.key)).count key +
    (v.due.map (·.registered.key)).count key

/-- A future has what its own listener was handed, once that has started. -/
structure Fed (v : Ledger V) (f : Future V) : Prop where
  registered : (f.serial, f.cell) ∈ registeredIn v.network.trace
  own : ∀ r, v.Has r → r.serial = f.serial → r.cell = f.cell ∧ r.listener = .receiver
  received : f.outcome.isSome ↔ (f.serial, f.cell) ∈ startedIn v.network.trace
  outcome : ∀ o, f.outcome = some o → v.network.outcomeAt f.cell = some o

structure Agreed (v : Ledger V) : Prop where
  waiting : ∀ r ∈ v.network.waiting, ∃ context, v.network.cells[r.cell]? = some ⟨context, none⟩
  due : ∀ d ∈ v.due, v.network.cells[d.registered.cell]? = some ⟨d.context, some d.outcome⟩
  started : ∀ serial (cell : Nat) tag o context,
    .started serial cell tag o context ∈ v.network.trace →
      v.network.cells[cell]? = some ⟨context, some o⟩
  serials : (registeredIn v.network.trace).map (·.1) = List.range v.network.registrations
  placed : ∀ key, v.places key = (registeredIn v.network.trace).count key
  futures : ∀ as f, v.network.waits.find? as = some f → v.Fed f

section Agreed
variable {v v' : Ledger V}

theorem Agreed.lt_of_registered (hv : v.Agreed) {key : Nat × Nat}
    (h : key ∈ registeredIn v.network.trace) :
    key.1 < v.network.registrations := by
  rw [← List.mem_range, ← hv.serials]
  exact List.mem_map.mpr ⟨key, h, rfl⟩

theorem Agreed.places_le_one (hv : v.Agreed) (key : Nat × Nat) : v.places key ≤ 1 := by
  rw [hv.placed]
  have hn : (registeredIn v.network.trace).Nodup := by
    refine List.Pairwise.of_map (S := (· ≠ ·)) (·.1) (fun a b h he => h (congrArg (·.1) he)) ?_
    rw [hv.serials]
    exact List.nodup_range
  exact List.nodup_iff_count.mp hn key

theorem Agreed.registered_of_places (hv : v.Agreed) {key : Nat × Nat} (h : 0 < v.places key) :
    key ∈ registeredIn v.network.trace := by
  rw [hv.placed] at h
  exact List.count_pos_iff.mp h

theorem Agreed.registered_of_has (hv : v.Agreed) {r : Registered V} (h : v.Has r) :
    r.key ∈ registeredIn v.network.trace := by
  apply hv.registered_of_places
  rcases h with h | ⟨d, h, rfl⟩
  · have hc :=
      List.count_pos_iff.mpr (List.mem_map.mpr ⟨r, h, rfl⟩ : r.key ∈ v.network.waiting.map (·.key))
    unfold places
    omega
  · have hc := List.count_pos_iff.mpr
      (List.mem_map.mpr ⟨d, h, rfl⟩ : d.registered.key ∈ v.due.map (·.registered.key))
    unfold places
    omega

theorem Agreed.registered_of_started (hv : v.Agreed) {key : Nat × Nat}
    (h : key ∈ startedIn v.network.trace) :
    key ∈ registeredIn v.network.trace := by
  apply hv.registered_of_places
  have hc := List.count_pos_iff.mpr h
  unfold places
  omega

theorem Agreed.cell_of_registered (hv : v.Agreed) {serial cell : Nat}
    (h : (serial, cell) ∈ registeredIn v.network.trace) : cell < v.network.cells.length := by
  have hlt : ∀ {i : Nat} {c : Cell V}, v.network.cells[i]? = some c → i < v.network.cells.length :=
    fun hc => (List.getElem?_eq_some_iff.mp hc).1
  have hp : 0 < v.places (serial, cell) := by
    rw [hv.placed]
    exact List.count_pos_iff.mpr h
  have hplace : (serial, cell) ∈ startedIn v.network.trace ∨
      (serial, cell) ∈ v.network.waiting.map (·.key) ∨
      (serial, cell) ∈ v.due.map (·.registered.key) := by
    rw [places] at hp
    simp only [← List.count_pos_iff]
    omega
  rcases hplace with h | h | h
  · obtain ⟨e, he, hk⟩ := List.mem_filterMap.mp h
    cases e with
    | started serial' cell' tag o context =>
      cases hk
      exact hlt (hv.started _ _ tag o context he)
    | registered | answered | logged => cases hk
  · obtain ⟨r, hr, hk⟩ := List.mem_map.mp h
    obtain ⟨context, hc⟩ := hv.waiting r hr
    have hcell : r.cell = cell := congrArg (·.2) hk
    exact hcell ▸ hlt hc
  · obtain ⟨d, hd, hk⟩ := List.mem_map.mp h
    have hcell : d.registered.cell = cell := congrArg (·.2) hk
    exact hcell ▸ hlt (hv.due d hd)

/-! ### Each operation keeps the invariant -/

theorem Agreed.still (hv : v.Agreed) {n : Network V} (h : v.network.Still n) :
    Agreed ⟨n, v.due⟩ := by
  have hp : ∀ key, (Ledger.mk n v.due).places key = v.places key := fun key => by
    rw [places, places, h.trace, h.waiting]
  have ho : ∀ cell, n.outcomeAt cell = v.network.outcomeAt cell := Network.outcomeAt_congr h.cells
  refine ⟨?_, ?_, ?_, ?_, ?_, ?_⟩
  · intro r hr
    exact h.cells ▸ hv.waiting r (h.waiting ▸ hr)
  · intro d hd
    exact h.cells ▸ hv.due d hd
  · intro serial cell tag o context hs
    exact h.cells ▸ hv.started serial cell tag o context (h.trace ▸ hs)
  · exact h.trace ▸ h.registrations ▸ hv.serials
  · intro key
    rw [hp, hv.placed, h.trace]
  · intro as f hf
    have hf := hv.futures as f (h.waits as f hf)
    refine ⟨h.trace ▸ hf.registered, ?_, h.trace ▸ hf.received,
      fun o hs => (ho f.cell).trans (hf.outcome o hs)⟩
    intro r hr
    exact hf.own r (hr.imp (h.waiting ▸ ·) id)

theorem Agreed.addCell (hv : v.Agreed) (c : Cell V) : Agreed ⟨(v.network.addCell c).1, v.due⟩ := by
  have he := v.network.extends_addCell c
  refine ⟨?_, ?_, ?_, hv.serials, hv.placed, ?_⟩
  · intro r hr
    obtain ⟨context, hc⟩ := hv.waiting r hr
    exact ⟨context, List.getElem?_append_left (List.getElem?_eq_some_iff.mp hc).1 ▸ hc⟩
  · exact fun d hd => he.holds (hv.due d hd)
  · exact fun serial cell tag o context hs => he.holds (hv.started serial cell tag o context hs)
  · intro as f hf
    have hf := hv.futures as f hf
    exact ⟨hf.registered, hf.own, hf.received, fun o ho => he.outcomeAt (hf.outcome o ho)⟩

theorem Agreed.settle (hv : v.Agreed) (cell : Nat) (o : Outcome V) :
    (v.after (v.network.settle cell o).1 (v.network.settle cell o).2.1).Agreed := by
  have he := v.network.extends_settle cell o
  rcases v.network.settle_cases cell o with ⟨context, hc, hs⟩ | hs
  · rw [hs] at he ⊢
    have hlt := (List.getElem?_eq_some_iff.mp hc).1
    have hset : (v.network.cells.set cell ⟨context, some o⟩)[cell]? = some ⟨context, some o⟩ :=
      List.getElem?_set_self hlt
    refine ⟨?_, ?_, ?_, hv.serials, ?_, ?_⟩
    · intro r hr
      obtain ⟨hr, hn⟩ := List.mem_filter.mp hr
      obtain ⟨context', hc'⟩ := hv.waiting r hr
      have hne : cell ≠ r.cell := fun h => of_decide_eq_true hn h.symm
      exact ⟨context', (List.getElem?_set_ne hne).trans hc'⟩
    · intro d hd
      rcases List.mem_append.mp hd with hd | hd
      · rw [dueOn_delivering] at hd
        obtain ⟨r, hr, rfl⟩ := List.mem_map.mp hd
        obtain rfl := of_decide_eq_true (List.mem_filter.mp hr).2
        exact hset
      · exact he.holds (hv.due d hd)
    · exact fun serial cell tag o context hs => he.holds (hv.started serial cell tag o context hs)
    · intro key
      have hsplit :=
        ((List.filter_append_perm (fun r => decide (r.cell = cell)) v.network.waiting).map
        (·.key)).count_eq key
      have hp := hv.placed key
      rw [List.map_append, List.count_append] at hsplit
      rw [places, ← hsplit] at hp
      rw [places, after, dueOn_delivering, List.map_append, List.map_map, List.count_append]
      -- the listeners of the cell go from the waiting to the due
      simp only [decide_not, Function.comp_def] at hp ⊢
      show (startedIn v.network.trace).count key + _ + _ = (registeredIn v.network.trace).count key
      omega
    · intro as f hf
      have hf := hv.futures as f hf
      refine ⟨hf.registered, fun r hr => hf.own r (has_settle v cell o ?_), hf.received,
        fun o ho => he.outcomeAt (hf.outcome o ho)⟩
      rw [hs]
      exact hr
  · rw [hs]
    exact hv

theorem Agreed.enrolled (hv : v.Agreed) (r : Registered V) (hr : r.serial = v.network.registrations)
    (hc : v'.network.cells = v.network.cells)
    (hn : v'.network.registrations = v.network.registrations + 1)
    (ht : v'.network.trace = v.network.trace ++ [.registered r.serial r.cell])
    (hp : ∀ key, v'.places key = v.places key + [r.key].count key)
    (hw : ∀ r' ∈ v'.network.waiting, r' ∈ v.network.waiting ∨
      r' = r ∧ ∃ context, v.network.cells[r.cell]? = some ⟨context, none⟩)
    (hd : ∀ d ∈ v'.due, d ∈ v.due ∨
      d.registered = r ∧ v.network.cells[r.cell]? = some ⟨d.context, some d.outcome⟩)
    (hf : ∀ as f, v'.network.waits.find? as = some f → v.network.waits.find? as = some f ∨
      f = ⟨r.serial, r.cell, none⟩ ∧ r.listener = .receiver) : v'.Agreed := by
  -- the serial is new, so no listener or future of before has it
  have hnew : ∀ cell, (r.serial, cell) ∉ registeredIn v.network.trace := fun cell hm =>
    absurd (hv.lt_of_registered hm) (by rw [hr]; exact Nat.lt_irrefl _)
  have hhas : ∀ r', v'.Has r' → v.Has r' ∨ r' = r := by
    rintro r' (h | ⟨d, h, rfl⟩)
    · exact (hw r' h).imp .inl And.left
    · exact (hd d h).imp (fun h => .inr ⟨d, h, rfl⟩) And.left
  refine ⟨?_, ?_, ?_, ?_, ?_, ?_⟩
  · intro r' hm
    rw [hc]
    rcases hw r' hm with h | ⟨rfl, h⟩
    · exact hv.waiting r' h
    · exact h
  · intro d hm
    rw [hc]
    rcases hd d hm with h | ⟨h, hcell⟩
    · exact hv.due d h
    · exact h ▸ hcell
  · intro serial cell tag o context hm
    rw [ht, List.mem_append, List.mem_singleton] at hm
    rw [hc]
    rcases hm with hm | hm
    · exact hv.started serial cell tag o context hm
    · cases hm
  · rw [ht, registeredIn_registered, List.map_append, hv.serials, hn, List.range_succ,
      List.map_singleton, hr]
  · intro key
    rw [hp, hv.placed, ht, registeredIn_registered, List.count_append]
    rfl
  · intro as f hm
    rcases hf as f hm with hm | ⟨rfl, hl⟩
    · have hfed := hv.futures as f hm
      refine ⟨?_, ?_, ?_, ?_⟩
      · rw [ht, registeredIn_registered]
        exact List.mem_append_left _ hfed.registered
      · intro r' hr' hs
        rcases hhas r' hr' with h | rfl
        · exact hfed.own r' h hs
        · exact absurd hfed.registered (hs ▸ hnew f.cell)
      · rw [ht, startedIn_registered]
        exact hfed.received
      · intro o ho
        rw [Network.outcomeAt, hc]
        exact hfed.outcome o ho
    · refine ⟨?_, ?_, ?_, fun _ ho => by cases ho⟩
      · rw [ht, registeredIn_registered]
        exact List.mem_append_right _ (List.mem_singleton.mpr rfl)
      · intro r' hr' hs
        rcases hhas r' hr' with h | rfl
        · have hm := hv.registered_of_has h
          rw [Registered.key, hs] at hm
          exact absurd hm (hnew r'.cell)
        · exact ⟨rfl, hl⟩
      · rw [ht, startedIn_registered]
        constructor
        · exact fun h => by cases h
        · exact fun hm => absurd (hv.registered_of_started hm) (hnew r.cell)

theorem Agreed.begun {d : Due V} (hv : v.Agreed) (tag : Option String) (hdue : v.due = d :: v'.due)
    (hc : v'.network.cells = v.network.cells)
    (hn : v'.network.registrations = v.network.registrations)
    (hw : v'.network.waiting = v.network.waiting)
    (ht : v'.network.trace = v.network.trace ++
      [.started d.registered.serial d.registered.cell tag d.outcome d.context])
    (hf : ∀ as f', v'.network.waits.find? as = some f' → ∃ f, v.network.waits.find? as = some f ∧
      f' = f.receive d.registered.serial d.outcome) : v'.Agreed := by
  have hm : d ∈ v.due := hdue ▸ List.mem_cons_self ..
  have hheld := hv.due d hm
  have hhas : ∀ r, v'.Has r → v.Has r := by
    rintro r (h | ⟨e, h, rfl⟩)
    · exact .inl (hw ▸ h)
    · exact .inr ⟨e, hdue ▸ List.mem_cons_of_mem _ h, rfl⟩
  refine ⟨?_, ?_, ?_, ?_, ?_, ?_⟩
  · intro r hr
    exact hc ▸ hv.waiting r (hw ▸ hr)
  · intro e he
    exact hc ▸ hv.due e (hdue ▸ List.mem_cons_of_mem _ he)
  · intro serial cell tag' o context hs
    rw [ht, List.mem_append, List.mem_singleton] at hs
    rw [hc]
    rcases hs with hs | hs
    · exact hv.started serial cell tag' o context hs
    · cases hs
      exact hheld
  · rw [ht, registeredIn_started, hn]
    exact hv.serials
  · intro key
    have hp := hv.placed key
    rw [places, hdue, List.map_cons, List.count_cons] at hp
    rw [places, ht, startedIn_started, registeredIn_started, hw, List.count_append,
      List.count_singleton]
    rw [Registered.key] at hp
    -- the key moves from the due to the started
    omega
  · intro as f' hf'
    obtain ⟨f, hff, rfl⟩ := hf as f' hf'
    have hfed := hv.futures as f hff
    unfold Future.receive
    split
    · -- the serial is the future's, so the listener is its own
      rename_i hs
      obtain ⟨hcell, -⟩ := hfed.own d.registered (.inr ⟨d, hm, rfl⟩) hs.symm
      refine ⟨?_, fun r hr => hfed.own r (hhas r hr), ?_, ?_⟩
      · rw [ht, registeredIn_started]
        exact hfed.registered
      · rw [ht, startedIn_started]
        constructor
        · intro _
          refine List.mem_append_right _ (List.mem_singleton.mpr ?_)
          rw [hs, hcell]
        · exact fun _ => rfl
      · rintro o ⟨⟩
        refine Network.outcomeAt_eq_some_iff.mpr ⟨d.context, ?_⟩
        rw [hc, ← hcell]
        exact hheld
    · rename_i hs
      refine ⟨?_, fun r hr => hfed.own r (hhas r hr), ?_, ?_⟩
      · rw [ht, registeredIn_started]
        exact hfed.registered
      · rw [ht, startedIn_started, List.mem_append, List.mem_singleton, hfed.received]
        constructor
        · exact .inl
        · rintro (h | h)
          · exact h
          · exact absurd (congrArg (·.1) h) hs
      · intro o ho
        rw [Network.outcomeAt, hc]
        exact hfed.outcome o ho

theorem Agreed.receive_eq {d : Due V} (hv : v.Agreed) (hm : d ∈ v.due)
    (hl : d.registered.listener ≠ .receiver)
    (as : String) (f : Future V) (hf : v.network.waits.find? as = some f) :
    ∃ f', v.network.waits.find? as = some f' ∧ f = f'.receive d.registered.serial d.outcome := by
  refine ⟨f, hf, (if_neg fun hs => ?_).symm⟩
  exact hl ((hv.futures as f hf).own d.registered (.inr ⟨d, hm, rfl⟩) hs.symm).2

theorem Agreed.start {d : Due V} {due : List (Due V)} (hv : v.Agreed) (h : v.due = d :: due) :
    (after ⟨v.network, due⟩ (v.network.start d.registered d.outcome d.context).1
      (v.network.start d.registered d.outcome d.context).2).Agreed := by
  obtain ⟨⟨serial, cell, listener⟩, o, context⟩ := d
  have hm : (⟨⟨serial, cell, listener⟩, o, context⟩ : Due V) ∈ v.due := h ▸ List.mem_cons_self ..
  have ht : ∀ tag, (v.network.emit (.started serial cell tag o context)).trace =
      v.network.trace ++ [.started serial cell tag o context] :=
    fun tag => v.network.trace_emit_mark rfl
  cases listener with
  | script tag steps panics =>
    exact hv.begun (some tag) h rfl rfl rfl (ht _) (hv.receive_eq hm nofun)
  | adapter into =>
    have hb : Agreed ⟨v.network.emit (.started serial cell none o context), due⟩ :=
      hv.begun none h rfl rfl rfl (ht _) (hv.receive_eq hm nofun)
    exact hb.settle into o.adapt
  | recorder read =>
    have hb : Agreed ⟨v.network.emit (.started serial cell none o context), due⟩ :=
      hv.begun none h rfl rfl rfl (ht _) (hv.receive_eq hm nofun)
    cases o with
    | value x => exact hb
    | failed x =>
      have hq : ∀ n : Network V, ∀ metrics r, n.Quiet ({ n with metrics := metrics }.log r) :=
        fun n metrics r => { Network.quiet_log n r with }
      exact hb.still (hq _ _ _).toStill
  | receiver =>
    refine hv.begun none h rfl rfl rfl (ht none) ?_
    intro as f' hf
    have hmap : (v.network.waits.mapValues (.receive serial o)).find? as = some f' := hf
    rw [Names.find?_mapValues] at hmap
    obtain ⟨f, hff, hr⟩ := Option.map_eq_some_iff.mp hmap
    exact ⟨f, hff, hr.symm⟩

theorem Agreed.enrolled_due (hv : v.Agreed) {n : Network V} {cell : Nat} {l : Listener V}
    {o : Outcome V} {context : Option Context}
    (hc : v.network.cells[cell]? = some ⟨context, some o⟩) (hcells : n.cells = v.network.cells)
    (hw : n.waiting = v.network.waiting) (ht : n.trace = v.network.trace)
    (hr : n.registrations = v.network.registrations)
    (hf : ∀ as f, n.waits.find? as = some f → v.network.waits.find? as = some f ∨
      f = ⟨v.network.registrations, cell, none⟩ ∧ l = .receiver) :
    Agreed ⟨{ n with registrations := n.registrations + 1 }.emit (.registered n.registrations cell),
      ⟨⟨n.registrations, cell, l⟩, o, context⟩ :: v.due⟩ := by
  let r : Registered V := ⟨n.registrations, cell, l⟩
  let enrolled : Network V :=
    { n with registrations := n.registrations + 1 }.emit (.registered r.serial cell)
  have ht : enrolled.trace = v.network.trace ++ [.registered r.serial cell] :=
    (Network.trace_emit_mark _ rfl).trans (congrArg (· ++ _) ht)
  refine hv.enrolled r hr hcells (congrArg (· + 1) hr) ht ?_ ?_ ?_ ?_
  · intro key
    show (startedIn enrolled.trace).count key + (n.waiting.map (·.key)).count key + _ = _
    have hk : (Due.mk r o context).registered.key = r.key := rfl
    rw [ht, hw, startedIn_registered, List.map_cons, List.count_cons, hk, places,
      List.count_singleton]
    omega
  · exact fun r' hr => .inl (hw ▸ hr)
  · intro d hd
    rcases List.mem_cons.mp hd with rfl | hd
    · exact .inr ⟨rfl, hc⟩
    · exact .inl hd
  · intro as f h
    rw [show r.serial = v.network.registrations from hr]
    exact hf as f h

theorem Agreed.register (hv : v.Agreed) {waits : Names (Future V)} {cell : Nat} {l : Listener V}
    (hcell : cell < v.network.cells.length)
    (hf : ∀ as f, waits.find? as = some f → v.network.waits.find? as = some f ∨
      f = ⟨v.network.registrations, cell, none⟩ ∧ l = .receiver) :
    let n : Network V := { v.network with waits := waits }
    (v.after (n.register cell l).1 (n.register cell l).2).Agreed := by
  intro n
  let r : Registered V := ⟨v.network.registrations, cell, l⟩
  let enrolled : Network V :=
    { n with registrations := n.registrations + 1 }.emit (.registered r.serial cell)
  have ht : enrolled.trace = v.network.trace ++ [.registered r.serial cell] :=
    Network.trace_emit_mark _ rfl
  obtain ⟨⟨context, o?⟩, hc⟩ : ∃ c, v.network.cells[cell]? = some c :=
    ⟨_, List.getElem?_eq_getElem hcell⟩
  have hout : n.outcomeAt cell = o? := congrArg (·.bind (·.outcome)) hc
  have hctx : n.contextAt cell = context := congrArg (·.bind (·.context)) hc
  rcases n.register_cases cell l with ⟨ho, h⟩ | ⟨o, ho, h⟩
  · obtain rfl := hout.symm.trans ho
    rw [h]
    refine hv.enrolled r rfl rfl rfl ht ?_ ?_ (fun d hd => .inl hd) hf
    · intro key
      show (startedIn enrolled.trace).count key +
          ((v.network.waiting ++ [r]).map (·.key)).count key + _ = _
      rw [ht, startedIn_registered, List.map_append, List.count_append, List.map_singleton, places]
      simp only [after, dueOn_nil, List.nil_append]
      omega
    · intro r' hr
      rcases List.mem_append.mp hr with hr | hr
      · exact .inl hr
      · exact .inr ⟨List.mem_singleton.mp hr, context, hc⟩
  · obtain rfl := hout.symm.trans ho
    rw [h, hctx]
    have hb : Agreed ⟨enrolled, ⟨r, o, context⟩ :: v.due⟩ :=
      hv.enrolled_due (n := n) hc rfl rfl rfl rfl hf
    exact hb.start rfl

theorem Agreed.pending (hv : v.Agreed) (name : String) (context : Option Context) :
    (v.after (v.network.addPending name context).1
      (v.network.addPending name context).2).Agreed := by
  let n : Network V :=
    { (v.network.addCell ⟨context, none⟩).1 with
      names := v.network.names.bind name v.network.cells.length }
  have hn : Agreed ⟨n, v.due⟩ := (hv.addCell ⟨context, none⟩).still { Network.Still.refl _ with }
  have hd : (v.after (n.dropCompleter name).1 (n.dropCompleter name).2.1).Agreed := by
    rcases n.dropCompleter_cases name with ⟨-, h⟩ | ⟨cell, -, h⟩
    · rw [h]
      exact hn
    · rw [h]
      have hw : Agreed ⟨n.without name, v.due⟩ := hn.still { Network.Still.refl _ with }
      exact hw.settle cell _
  exact hd.still { Network.Still.refl _ with }

theorem Agreed.move (hv : v.Agreed) (h : v.Move v') : v'.Agreed := by
  cases h with
  | quiet h => exact hv.still h.toStill
  | settled name context o =>
    exact (hv.addCell ⟨context, some o⟩).still { Network.Still.refl _ with }
  | pending name context => exact hv.pending name context
  | @adapt source context h =>
    have ha := hv.addCell ⟨some context, none⟩
    have hlt := (v.network.extends_addCell ⟨some context, none⟩).lt h
    exact ha.register hlt fun as f hf => .inl hf
  | @listen cell l hl h => exact hv.register h fun as f hf => .inl hf
  | @await as cell h =>
    refine hv.register h fun other f hf => ?_
    rw [Names.find?_bind] at hf
    split at hf
    · exact .inr ⟨(Option.some.inj hf).symm, rfl⟩
    · exact .inl hf
  | @release name cell o h =>
    have hw : Agreed ⟨v.network.without name, v.due⟩ := hv.still { Network.Still.refl _ with }
    exact hw.settle cell o
  | start h => exact hv.start h

theorem Agreed.moves (hv : v.Agreed) (h : ReflTransGen Move v v') : v'.Agreed := by
  induction h with
  | refl => exact hv
  | tail _ h ih => exact ih.move h

theorem Agreed.outcomeAt_of_started (hv : v.Agreed) {serial cell : Nat} {tag : Option String}
    {o : Outcome V}
    {context : Option Context} (h : .started serial cell tag o context ∈ v.network.trace) :
    v.network.outcomeAt cell = some o :=
  Network.outcomeAt_eq_some_iff.mpr ⟨context, hv.started serial cell tag o context h⟩

theorem Agreed.nodup_started (hv : v.Agreed) : (startedIn v.network.trace).Nodup := by
  rw [List.nodup_iff_count]
  intro key
  have h := hv.places_le_one key
  unfold places at h
  omega

/-- With nothing due, the listeners of settled cells have been started, those of pending cells have not. -/
theorem Agreed.started_iff (hv : v.Agreed) (hd : v.due = []) {serial cell : Nat}
    (h : (serial, cell) ∈ registeredIn v.network.trace) :
    (serial, cell) ∈ startedIn v.network.trace ↔ (v.network.outcomeAt cell).isSome := by
  constructor
  · intro hs
    obtain ⟨e, he, hk⟩ := List.mem_filterMap.mp hs
    cases e with
    | started serial' cell' tag o context =>
      cases hk
      rw [hv.outcomeAt_of_started he]
      rfl
    | registered | answered | logged => cases hk
  · -- it is in one place, where nothing is due and all that waits is on pending cells
    intro hs
    have hp : 0 < v.places (serial, cell) := by
      rw [hv.placed]
      exact List.count_pos_iff.mpr h
    have hw : (v.network.waiting.map (·.key)).count (serial, cell) = 0 := by
      refine List.count_eq_zero.mpr fun hm => ?_
      obtain ⟨r, hr, hk⟩ := List.mem_map.mp hm
      obtain ⟨context, hc⟩ := hv.waiting r hr
      have hcell : r.cell = cell := congrArg (·.2) hk
      rw [hcell] at hc
      rw [Network.outcomeAt, hc] at hs
      cases hs
    rw [places, hw, hd] at hp
    exact List.count_pos_iff.mp hp

theorem Agreed.future_outcome (hv : v.Agreed) {as : String} {f : Future V}
    (hf : v.network.waits.find? as = some f) :
    f.outcome =
      if (f.serial, f.cell) ∈ startedIn v.network.trace then v.network.outcomeAt f.cell else none := by
  have hfed := hv.futures as f hf
  have hr := hfed.received
  cases ho : f.outcome with
  | none =>
    rw [ho] at hr
    exact (if_neg fun hs => Bool.false_ne_true (hr.mpr hs)).symm
  | some o =>
    rw [ho] at hr
    rw [if_pos (hr.mp rfl)]
    exact (hfed.outcome o ho).symm

theorem Agreed.future_at_rest (hv : v.Agreed) (hd : v.due = []) {as : String} {f : Future V}
    (hf : v.network.waits.find? as = some f) : f.outcome = v.network.outcomeAt f.cell := by
  have hs := hv.started_iff hd (hv.futures as f hf).registered
  rw [hv.future_outcome hf]
  split
  · rfl
  · rename_i hn
    rw [hs, Option.not_isSome_iff_eq_none] at hn
    exact hn.symm

end Agreed
end Ledger

/-! ### What is seen of a cell -/

def Action.told (o? : Option (Outcome V)) : Action V → Answer V
  | .isDone _ => .flag o?.isSome
  | .getTimeout _ => o?.elim .nothing .outcome
  | _ => o?.elim .pending .outcome

namespace Network
variable (n : Network V)

/-- The cell that an action looks at. A future looks when it is made; later it only hands out what it has. -/
def seenBy : Action V → Option Nat
  | .get name | .getTimeout name | .isDone name | .wait name _ => n.names.find? name
  | .join as => n.threads.find? as
  | _ => none

theorem poll_told {as : String} {f : Future V} (h : n.waits.find? as = some f) :
    (n.poll as).2 = (Action.poll as).told f.outcome := by
  obtain ⟨serial, cell, o?⟩ := f
  unfold poll
  rw [h]
  cases o? <;> rfl

theorem wait_told {cell : Nat} (name as : String) :
    (((n.awaiting as cell).register cell .receiver).1.poll as).2 =
      (Action.wait name as).told (n.outcomeAt cell) := by
  have hb : (n.awaiting as cell).waits.find? as = some ⟨n.registrations, cell, none⟩ := by
    rw [awaiting, Names.find?_bind, if_pos rfl]
  rcases (n.awaiting as cell).register_cases cell .receiver with ⟨ho, h⟩ | ⟨o, ho, h⟩
  · have ho : n.outcomeAt cell = none := ho
    rw [h, ho]
    refine poll_told (f := ⟨n.registrations, cell, none⟩) _ ?_
    exact hb
  · have ho : n.outcomeAt cell = some o := ho
    rw [h, ho]
    refine poll_told (f := ⟨n.registrations, cell, some o⟩) _ ?_
    show ((n.awaiting as cell).waits.mapValues (.receive n.registrations o)).find? as = _
    rw [Names.find?_mapValues, hb, Option.map_some, Future.receive, if_pos rfl]

theorem perform_told {a : Action V} {cell : Nat} (h : n.seenBy a = some cell) :
    (n.perform a).2.2 = a.told (n.outcomeAt cell) := by
  cases a with
  | get name | isDone name =>
    have h : n.names.find? name = some cell := h
    simp only [perform, h]
    first | rfl | (unfold read; cases n.outcomeAt cell <;> rfl)
  | getTimeout name =>
    have h : n.names.find? name = some cell := h
    simp only [perform, h]
    cases n.outcomeAt cell <;> rfl
  | wait name as =>
    have h : n.names.find? name = some cell := h
    simp only [perform, h]
    exact n.wait_told name as
  | join as =>
    have h : n.threads.find? as = some cell := h
    simp only [perform, h]
    cases n.outcomeAt cell <;> rfl
  | _ => cases h

end Network

namespace Machine
variable {m m' : Machine V}

theorem fresh_agreed : (fresh : Machine V).network.Named ∧ (fresh : Machine V).ledger.Agreed := by
  refine ⟨?_, ?_, ?_, ?_, rfl, ?_, ?_⟩
  · intro name cell h
    cases h
  · intro r hr
    cases hr
  · intro d hd
    cases hd
  · intro serial cell tag o context hs
    cases hs
  · intro key
    rfl
  · intro as f hf
    cases hf

theorem moments_agreed (h : ReflTransGen Next fresh m) : m.network.Named ∧ m.ledger.Agreed := by
  obtain ⟨hn, hv⟩ := fresh_agreed (V := V)
  have hm := moments_moves hn h
  exact ⟨Ledger.moves_named hn hm, hv.moves hm⟩

/-- At each moment of each run: a settled cell keeps its outcome; a listener that was started was handed the
outcome of its cell; who looks at a cell is told its outcome, a future that was made before once its own
listener was started; no listener starts twice, and when nothing is under way those of settled cells were
started and the others not. -/
theorem moments_agree (h : ReflTransGen Next fresh m) :
    (∀ later, ReflTransGen Next m later → ∀ cell o, m.network.outcomeAt cell = some o →
      later.network.outcomeAt cell = some o) ∧
    (∀ serial cell tag o context, .started serial cell tag o context ∈ m.network.trace →
      m.network.outcomeAt cell = some o) ∧
    (∀ a cell, m.network.seenBy a = some cell →
      (m.network.perform a).2.2 = a.told (m.network.outcomeAt cell)) ∧
    (∀ as f, m.network.waits.find? as = some f →
      (m.network.perform (.poll as)).2.2 = (Action.poll as).told
        (if (f.serial, f.cell) ∈ startedIn m.network.trace then m.network.outcomeAt f.cell else none) ∧
      (m.stack = [] →
        (m.network.perform (.poll as)).2.2 = (Action.poll as).told (m.network.outcomeAt f.cell))) ∧
    (registeredIn m.network.trace).map (·.1) = List.range m.network.registrations ∧
    (startedIn m.network.trace).Nodup ∧
    (∀ key ∈ startedIn m.network.trace, key ∈ registeredIn m.network.trace) ∧
    (m.stack = [] → ∀ serial cell, (serial, cell) ∈ registeredIn m.network.trace →
      ((serial, cell) ∈ startedIn m.network.trace ↔ (m.network.outcomeAt cell).isSome)) := by
  obtain ⟨hn, hv⟩ := moments_agreed h
  refine ⟨?_, ?_, ?_, ?_, hv.serials, hv.nodup_started, fun key => hv.registered_of_started, ?_⟩
  · intro later hl cell o ho
    exact (Ledger.moves_extends (moments_moves hn hl)).outcomeAt ho
  · intro serial cell tag o context hs
    exact hv.outcomeAt_of_started hs
  · intro a cell hs
    exact m.network.perform_told hs
  · intro as f hf
    have ht : (m.network.perform (.poll as)).2.2 = (Action.poll as).told f.outcome :=
      m.network.poll_told hf
    rw [ht]
    constructor
    · rw [hv.future_outcome hf]
      rfl
    · intro hs
      have hd : m.ledger.due = [] := by rw [ledger, hs]; rfl
      rw [hv.future_at_rest hd hf]
      rfl
  · intro hs serial cell hr
    have hd : m.ledger.due = [] := by rw [ledger, hs]; rfl
    exact hv.started_iff hd hr

/-- A response is adapted and cloned; the listener on the result registers another one, whose panic ends
both, and the future is told all the same. -/
theorem moments_agree_nested :
    let as : List (Action String) := [.response "r", .adapt "r" "a" none, .clone "a" "b",
      .listen "a" "first" [.listen "b" "second" [] true, .get "b"] false, .wait "b" "w",
      .complete "r" (.value "v")]
    let n := (({} : Network String).calls as).1
    n.outcomeAt 1 = some (.value "v") ∧ startedIn n.trace = [(0, 0), (1, 1), (3, 1), (2, 1)] ∧
      ∃ last, ReflTransGen Next fresh ⟨n, [], last⟩ ∧
        ∀ serial cell, (serial, cell) ∈ registeredIn n.trace →
          ((serial, cell) ∈ startedIn n.trace ↔ (n.outcomeAt cell).isSome) := by
  intro as n
  obtain ⟨last, h⟩ := Network.calls_moments ({} : Network String) as .nothing
  refine ⟨by decide +kernel, by decide +kernel, last, h, ?_⟩
  obtain ⟨-, -, -, -, -, -, -, hs⟩ := moments_agree h
  exact hs rfl

/-- A listener that runs before the future's own finds the future pending, and the cell settled. -/
theorem poll_pending_in_delivery :
    let as : List (Action String) :=
      [.pending "a" none, .listen "a" "first" [.poll "w", .get "a"] false,
      .wait "a" "w", .complete "a" (.value "v")]
    (({} : Network String).calls as).1.history = [.registered 0 0, .registered 1 0,
      .started 0 0 (some "first") (.value "v") (some (.make 0 none)), .answered "first" .pending,
      .answered "first" (.outcome (.value "v")),
      .started 1 0 none (.value "v") (some (.make 0 none))] := by
  decide +kernel

end Machine
end ReplicaRouting.Result
