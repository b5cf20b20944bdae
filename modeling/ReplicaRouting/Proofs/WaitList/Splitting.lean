import Mathlib.Algebra.GroupWithZero.Nat
import Mathlib.Data.List.Basic
import ReplicaRouting.Proofs.WaitList.Order
/-!
Advances whose callbacks stay away from the list. Such an advance starts what it found due and changes nothing
else, so advances in a row start what the last of them alone would have started, in the same order.
-/

namespace ReplicaRouting

namespace Metrics
variable (m : Metrics)

theorem countFired_zero : m.countFired 0 = m := by simp [countFired]

theorem countFired_countFired (n k : Nat) : (m.countFired n).countFired k = m.countFired (n + k) := by
  simp only [countFired, Nat.toUInt64, UInt64.ofNat_add, UInt64.add_assoc]

end Metrics

namespace WaitList

/-! ### Callbacks that do not call the list -/

mutual
/-- A step that goes to an awaited result, or no further than a name. -/
def Action.isOutside : Action → Bool
  | .listen _ _ steps _ => Action.areOutside steps
  | .poll _ | .handle _ | .misread _ => true
  | _ => false

def Action.areOutside : List Action → Bool
  | [] => true
  | a :: as => a.isOutside && Action.areOutside as
end

def Callback.isOutside : Callback → Bool
  | .script _ steps _ => Action.areOutside steps
  | .settle _ => true

def Listener.isOutside (l : Listener) : Bool := Action.areOutside l.steps

def Cell.Outside (c : Cell) : Prop := ∀ l ∈ c.listeners, l.isOutside

instance (c : Cell) : Decidable c.Outside := inferInstanceAs (Decidable (∀ l ∈ c.listeners, l.isOutside))

/-- No waiter's callback, and no listener of a result that one settles, calls the list. -/
structure State.Aloof (s : State) : Prop where
  waiters : ∀ w ∈ s.waiters, w.callback.isOutside
  cells : ∀ c ∈ s.cells, c.Outside

instance (s : State) : Decidable s.Aloof :=
  decidable_of_iff ((∀ w ∈ s.waiters, w.callback.isOutside) ∧ ∀ c ∈ s.cells, c.Outside)
    ⟨fun h => ⟨h.1, h.2⟩, fun h => ⟨h.waiters, h.cells⟩⟩

def Frame.Outside : Frame → Prop
  | .body _ steps _ => Action.areOutside steps
  | .answering .. => True
  | .delivering _ rest _ _ => ∀ l ∈ rest, l.isOutside
  | _ => False

/-! ### What such callbacks do -/

def Callback.tag? : Callback → Option String
  | .script tag _ _ => some tag
  | .settle _ => none

/-- Awaited results have moved on, and the trace by these entries; the list is as it was. -/
inductive State.Beside (s : State) (new : List Entry) : State → Prop
  | intro {cells : List Cell} {listeners : Nat} {history : List Entry} (hc : ∀ c ∈ cells, c.Outside)
      (hh : history.filter (·.isMark) = s.trace ++ new) : Beside s new { s with cells, listeners, history }

def State.Begins (s : State) (new : List Entry) (begun : State × List Frame) : Prop :=
  s.Beside new begun.1 ∧ ∀ f ∈ begun.2, f.Outside

namespace State
variable {s s' : State} {new : List Entry}

theorem Beside.refl (h : s.Aloof) : s.Beside [] s := .intro h.cells (List.append_nil _).symm

theorem Beside.cells (h : s.Beside new s') : ∀ c ∈ s'.cells, c.Outside := by
  obtain ⟨hc, -⟩ := h
  exact hc

theorem Beside.emit_quiet (h : s.Beside new s') {e : Entry} (he : e.isMark = false) :
    s.Beside new (s'.emit e) := by
  obtain ⟨hc, hh⟩ := h
  refine .intro hc ?_
  rw [List.filter_append, hh, List.filter_cons_of_neg (by simp [he])]
  exact List.append_nil _

theorem Beside.emit_mark (h : s.Beside new s') {e : Entry} (he : e.isMark = true) :
    s.Beside (new ++ [e]) (s'.emit e) := by
  obtain ⟨hc, hh⟩ := h
  refine .intro hc ?_
  rw [List.filter_append, hh, List.filter_cons_of_pos he, List.append_assoc]
  rfl

theorem Beside.trace (h : s.Beside new s') : s'.trace = s.trace ++ new := by
  obtain ⟨-, hh⟩ := h
  exact hh

theorem Beside.late (h : s.Beside new s') : s'.late = s.late := by
  obtain ⟨-, -⟩ := h
  rfl

theorem Beside.queue (h : s.Beside new s') : s'.queue = s.queue := by
  obtain ⟨-, -⟩ := h
  rfl

theorem Beside.with_cells (h : s.Beside new s') {cells : List Cell} (hc : ∀ c ∈ cells, c.Outside) :
    s.Beside new { s' with cells } := by
  obtain ⟨-, hh⟩ := h
  exact .intro hc hh

theorem Beside.settle (h : s.Beside new s') (cell : Nat) (o : Result.Outcome Lsn) :
    s.Begins new (s'.settle cell o) := by
  have he : s.Beside new (s'.emit (.settled cell o)) := h.emit_quiet rfl
  unfold State.settle
  dsimp only
  split
  · rename_i listeners hcell
    have hl : Cell.Outside ⟨none, listeners⟩ := he.cells _ (List.mem_of_getElem? hcell)
    refine ⟨he.with_cells fun c hc => ?_, List.forall_mem_singleton.mpr hl⟩
    rcases List.mem_or_eq_of_mem_set hc with hc | rfl
    · exact he.cells c hc
    · exact List.forall_mem_nil _
  · exact ⟨he, List.forall_mem_nil _⟩

theorem Beside.hear (h : s.Beside new s') {l : Listener} (hl : l.isOutside) (o : Result.Outcome Lsn) :
    s.Begins new (s'.hear l o) :=
  ⟨h.emit_quiet rfl, List.forall_mem_singleton.mpr hl⟩

theorem Beside.listen (h : s.Beside new s') (cell : Nat) (tag : String) {steps : List Action}
    (hs : Action.areOutside steps) (panics : Bool) : s.Begins new (s'.listen cell tag steps panics) := by
  have hl : Listener.isOutside ⟨s'.listeners, tag, steps, panics⟩ := hs
  have hm : s.Beside new { s' with listeners := s'.listeners + 1 } := by
    obtain ⟨hc, hh⟩ := h
    exact .intro hc hh
  have he : s.Beside new (State.emit { s' with listeners := s'.listeners + 1 }
      (.listening s'.listeners cell)) := hm.emit_quiet rfl
  unfold State.listen
  dsimp only
  split
  · exact ⟨he, List.forall_mem_nil _⟩
  · rename_i listeners hcell
    have hlisteners : Cell.Outside ⟨none, listeners⟩ := he.cells _ (List.mem_of_getElem? hcell)
    refine ⟨he.with_cells fun c hc => ?_, List.forall_mem_nil _⟩
    rcases List.mem_or_eq_of_mem_set hc with hc | rfl
    · exact he.cells c hc
    · exact List.forall_mem_append.mpr ⟨hlisteners, List.forall_mem_singleton.mpr hl⟩
  · exact he.hear hl _

theorem Beside.perform (h : s.Beside new s') {a : Action} (ha : a.isOutside) :
    s.Begins new ((s'.perform a).1, (s'.perform a).2.1) := by
  cases a with
  | listen name tag steps panics =>
    simp only [State.perform]
    split
    · exact ⟨h, List.forall_mem_nil _⟩
    · exact h.listen _ tag ha panics
  | poll | handle | misread =>
    simp only [State.perform]
    repeat' split
    all_goals exact ⟨h, List.forall_mem_nil _⟩
  | register | await | cancel | latest | pending | metrics | describe =>
    exact (Bool.false_ne_true ha).elim

theorem Beside.start (h : s.Beside new s') {w : Waiter} (hw : w.callback.isOutside) (lsn : Lsn)
    (place : Place) :
    s.Begins (new ++ [.started w.ticket w.callback.tag? lsn place]) (s'.start w lsn place) := by
  obtain ⟨target, ticket, callback⟩ := w
  cases callback with
  | script tag steps panics => exact ⟨h.emit_mark rfl, List.forall_mem_singleton.mpr hw⟩
  | settle cell =>
    apply Beside.settle
    exact h.emit_mark rfl

end State

/-! ### One advance -/

def startsAt (lsn : Lsn) (ws : List Waiter) : List Entry :=
  ws.map fun w => .started w.ticket w.callback.tag? lsn (.batch 0)

theorem startsAt_concat (lsn : Lsn) (ws : List Waiter) (w : Waiter) :
    startsAt lsn (ws ++ [w]) = startsAt lsn ws ++ [.started w.ticket w.callback.tag? lsn (.batch 0)] :=
  List.map_append

/-- Within an advance that began in this state: it has started these waiters and the rest is in its batch. -/
structure Machine.Fires (s : State) (lsn : Lsn) (fired rest : List Waiter) (taken : Nat) (m : Machine) :
    Prop where
  state : s.Beside (startsAt lsn fired) m.state
  stack : ∃ fs, (∀ f ∈ fs, f.Outside) ∧ m.stack = fs ++ [.batch lsn 0 rest taken]
  rest : ∀ w ∈ rest, w.callback.isOutside

namespace Machine
variable {s : State} {lsn : Lsn} {fired rest : List Waiter} {taken : Nat} {m m' : Machine}

theorem Fires.push (h : m.Fires s lsn fired rest taken) {below : List Frame} {begun : State × List Frame}
    (hb : s.Begins (startsAt lsn fired) begun)
    (hf : ∀ f ∈ below, f.Outside) (answer : Answer) :
    Fires s lsn fired rest taken
      ⟨begun.1, begun.2 ++ (below ++ [.batch lsn 0 rest taken]), answer⟩ :=
  ⟨hb.1, ⟨begun.2 ++ below, List.forall_mem_append.mpr ⟨hb.2, hf⟩, (List.append_assoc ..).symm⟩, h.rest⟩

theorem Fires.step (h : m.Fires s lsn fired rest taken) (hl : s.late = []) (hs : m.step = some m') :
    (∃ fired' rest', fired' ++ rest' = fired ++ rest ∧ m'.Fires s lsn fired' rest' taken) ∨
      rest = [] ∧ s.Beside (startsAt lsn fired) m.state ∧
        m' = ⟨m.state.rest lsn taken, [], .count taken⟩ := by
  obtain ⟨state, stack, answer⟩ := m
  obtain ⟨fs, hf, hstack⟩ := h.stack
  obtain rfl : stack = fs ++ [.batch lsn 0 rest taken] := hstack
  have hstate := h.state
  -- the batch goes on, or something above it does, which leaves it as it is
  cases fs with
  | nil =>
    cases rest with
    | cons w rest =>
      obtain rfl := Option.some.inj hs
      obtain ⟨hb, hfs⟩ := hstate.start (h.rest w (List.mem_cons_self ..)) lsn (.batch 0)
      refine .inl ⟨fired ++ [w], rest, List.append_assoc .., ?_, ⟨_, hfs, rfl⟩,
        fun v hv => h.rest v (List.mem_cons_of_mem _ hv)⟩
      rw [startsAt_concat]
      exact hb
    | nil =>
      have hlate : state.late = [] := hstate.late.trans hl
      cases step_goes hs with
      | rest => exact .inr ⟨rfl, hstate, rfl⟩
      | round hn => cases hlate.symm.trans hn
  | cons f fs =>
    have hfs : ∀ f ∈ fs, f.Outside := fun f hm => hf f (List.mem_cons_of_mem _ hm)
    have hfront := hf f (List.mem_cons_self ..)
    have hsame : s.Begins (startsAt lsn fired) (state, []) :=
      ⟨hstate, List.forall_mem_nil _⟩
    left
    refine ⟨fired, rest, rfl, ?_⟩
    cases f with
    | body tag steps panics =>
      cases steps with
      | cons a steps =>
        obtain rfl := Option.some.inj hs
        obtain ⟨ha, hsteps⟩ := Bool.and_eq_true_iff.mp hfront
        have hbelow : ∀ f ∈ .answering tag (state.perform a).2.2 :: .body tag steps panics :: fs,
            f.Outside := List.forall_mem_cons.mpr ⟨trivial, List.forall_mem_cons.mpr ⟨hsteps, hfs⟩⟩
        exact h.push (hstate.perform ha) hbelow answer
      | nil =>
        obtain rfl := Option.some.inj hs
        cases panics with
        | false => exact h.push hsame hfs answer
        | true =>
          obtain ⟨r, above, hu, hsub⟩ :=
            unwind_over (f := .batch lsn 0 rest taken) rfl state fs [] answer
          have habove : ∀ f ∈ above, f.Outside := fun f hm => hfs f (hsub hm)
          rw [if_pos rfl]
          have hlog : s.Begins (startsAt lsn fired)
              (state.log r, []) := ⟨hstate.emit_quiet rfl, List.forall_mem_nil _⟩
          exact hu ▸ h.push hlog habove answer
    | answering tag a =>
      obtain rfl := Option.some.inj hs
      have hanswered : s.Begins (startsAt lsn fired)
          (state.emit (.answered tag a), []) := ⟨hstate.emit_quiet rfl, List.forall_mem_nil _⟩
      exact h.push hanswered hfs answer
    | delivering o ls position total =>
      cases ls with
      | nil =>
        obtain rfl := Option.some.inj hs
        exact h.push hsame hfs answer
      | cons l ls =>
        obtain rfl := Option.some.inj hs
        have hl := hfront l (List.mem_cons_self ..)
        have hbelow : ∀ f ∈ .delivering o ls (position + 1) total :: fs, f.Outside :=
          List.forall_mem_cons.mpr ⟨fun k hk => hfront k (List.mem_cons_of_mem _ hk), hfs⟩
        exact h.push (hstate.hear hl o) hbelow answer
    | batch | notifying | withdrawing | discarding => exact hfront.elim

theorem Fires.run (h : m.Fires s lsn fired rest taken) (hl : s.late = []) (hq : s.queue = []) :
    ∃ s', s.Beside (startsAt lsn (fired ++ rest)) s' ∧
      m.run = ⟨s'.rest lsn taken, [], .count taken⟩ := by
  induction m using Machine.run.induct generalizing fired rest with
  | case1 m hn =>
    obtain ⟨fs, -, hstack⟩ := h.stack
    rw [(idle_of_step hn).1] at hstack
    exact absurd hstack.symm (by simp)
  | case2 m m' hn ih =>
    rw [Machine.run, hn]
    rcases h.step hl hn with ⟨fired', rest', he, hm⟩ | ⟨rfl, hb, rfl⟩
    · exact he ▸ ih hm
    · have hqueue : (m.state.rest lsn taken).queue = [] := hb.queue.trans hq
      rw [List.append_nil]
      exact ⟨m.state, hb, run_at_rest hqueue⟩

end Machine

namespace State
variable {initial : Lsn} {s s' s'' : State}

def advanced (s : State) (lsn : Lsn) : State :=
  { s with
    latest := lsn
    advancing := true
    waiters := s.waiters.filter fun w => !decide (w.target ≤ lsn) }.emit (.recorded lsn)

/-- An advance starts what is due and does nothing else. -/
theorem Orderly.call_aloof (hs : s.Orderly initial) (ha : s.Aloof) {lsn : Lsn} (h : s.latest ≤ lsn) :
    let due := s.waiters.filter fun w => w.target ≤ lsn
    ∃ s', (s.advanced lsn).Beside (startsAt lsn due) s' ∧
      s.call (.advance lsn) = (s'.rest lsn due.length, .count due.length) := by
  intro due
  have hd : ¬ s.dropped = true := by rw [hs.rest.live]; exact Bool.false_ne_true
  have hbegin : s.begin (.advance lsn) = (s.advanced lsn, [.batch lsn 0 due due.length], .nothing) :=
    advance_of_le hd h
  have hfires : Machine.Fires (s.advanced lsn) lsn [] due due.length
      ⟨s.advanced lsn, [.batch lsn 0 due due.length], .nothing⟩ := by
    refine ⟨.refl ⟨fun w hw => ha.waiters w (List.mem_filter.mp hw).1, ha.cells⟩,
      ⟨[], List.forall_mem_nil _, rfl⟩, fun w hw => ha.waiters w (List.mem_filter.mp hw).1⟩
  obtain ⟨s', hb, hrun⟩ := hfires.run hs.late hs.rest.queue
  refine ⟨s', hb, ?_⟩
  rw [State.call, hbegin, hrun]

end State

/-! ### Advances in a row -/

/-- A callback that was run, by its ticket and the tag of its script, and the position that it was handed. -/
def Entry.firing? : Entry → Option ((Nat × Option String) × Lsn)
  | .started t tag lsn _ => some ((t, tag), lsn)
  | _ => none

def firingsIn (es : List Entry) : List ((Nat × Option String) × Lsn) := es.filterMap (·.firing?)

/-- Each of these waiters is handed the first of the positions that reaches its target. -/
def handed (positions : List Lsn) (ws : List Waiter) : List (Waiter × Lsn) :=
  ws.filterMap fun w => (positions.find? (w.target ≤ ·)).map (w, ·)

def firings (fired : List (Waiter × Lsn)) : List ((Nat × Option String) × Lsn) :=
  fired.map fun (w, lsn) => ((w.ticket, w.callback.tag?), lsn)

theorem firingsIn_append (es fs : List Entry) : firingsIn (es ++ fs) = firingsIn es ++ firingsIn fs :=
  List.filterMap_append

theorem firingsIn_trace (s : State) : firingsIn s.trace = firingsIn s.history := by
  apply filterMap_kinds
  intro e he
  cases e <;> first | rfl | cases he

theorem firings_fst (fired : List (Waiter × Lsn)) :
    (firings fired).map (·.1) = (fired.map (·.1)).map fun w => (w.ticket, w.callback.tag?) := by
  rw [firings, List.map_map, List.map_map]
  rfl

theorem firingsIn_startsAt (lsn : Lsn) (ws : List Waiter) :
    firingsIn (startsAt lsn ws) = firings (ws.map (·, lsn)) := by
  rw [firingsIn, startsAt, List.filterMap_map, firings, List.map_map]
  exact congrFun List.filterMap_eq_map ws

/-! Waiters stand in the order of their targets, so those up to a position are a first part of them. -/

section Sorted
variable {ws : List Waiter} {lsn : Lsn}

theorem filter_reached_append (hw : ws.Pairwise fun v w => v.target ≤ w.target) (lsn : Lsn) :
    (ws.filter fun w => w.target ≤ lsn) ++ (ws.filter fun w => !decide (w.target ≤ lsn)) = ws := by
  induction ws with
  | nil => rfl
  | cons w ws ih =>
    obtain ⟨hle, hws⟩ := List.pairwise_cons.mp hw
    by_cases h : w.target ≤ lsn
    · simp [h, ih hws]
    · have hno : ∀ v ∈ ws, ¬ v.target ≤ lsn := fun v hv hl => h (Lsn.le_trans (hle v hv) hl)
      have hnone : (ws.filter fun w => w.target ≤ lsn) = [] :=
        List.filter_eq_nil_iff.mpr fun v hv => by simpa using hno v hv
      have hall : (ws.filter fun w => !decide (w.target ≤ lsn)) = ws :=
        List.filter_eq_self.mpr fun v hv => by simpa using hno v hv
      simp [h, hnone, hall]

theorem handed_cons (hw : ws.Pairwise fun v w => v.target ≤ w.target) (lsn : Lsn)
    (positions : List Lsn) :
    handed (lsn :: positions) ws = (ws.filter fun w => w.target ≤ lsn).map (·, lsn) ++
      handed positions (ws.filter fun w => !decide (w.target ≤ lsn)) := by
  conv => lhs; rw [← filter_reached_append hw lsn]
  rw [handed, List.filterMap_append]
  congr 1
  · refine List.filterMap_eq_map_iff_forall_eq_some.mpr fun w hm => ?_
    have hle : w.target ≤ lsn := by simpa using (List.mem_filter.mp hm).2
    simp [hle]
  · refine List.filterMap_congr fun w hm => ?_
    have hlt : ¬ w.target ≤ lsn := by simpa using (List.mem_filter.mp hm).2
    simp [hlt]

/-- Whatever the positions in between, the last one says which waiters are fired. -/
theorem handed_fst {positions : List Lsn} (hp : ∀ l ∈ positions, l ≤ lsn) :
    (handed (positions ++ [lsn]) ws).map (·.1) = ws.filter fun w => w.target ≤ lsn := by
  rw [handed, List.map_filterMap, ← List.filterMap_eq_filter]
  refine List.filterMap_congr fun w _ => ?_
  by_cases hl : w.target ≤ lsn
  · obtain ⟨l, hf⟩ : ∃ l, (positions ++ [lsn]).find? (w.target ≤ ·) = some l :=
      Option.isSome_iff_exists.mp (List.find?_isSome.mpr ⟨lsn, by simp, by simpa using hl⟩)
    simp [hf, hl, Option.guard]
  · have hf : (positions ++ [lsn]).find? (w.target ≤ ·) = none := by
      refine List.find?_eq_none.mpr fun l hm hle => hl ?_
      rcases List.mem_append.mp hm with hm | hm
      · exact Lsn.le_trans (by simpa using hle) (hp l hm)
      · simpa [List.mem_singleton.mp hm] using hle
    simp [hf, hl, Option.guard]

end Sorted

/-- Seen between calls: the list has moved on to a position and has fired these waiters. -/
structure State.Passes (s : State) (lsn : Lsn) (fired : List (Waiter × Lsn)) (s' : State) : Prop where
  latest : s'.latest = lsn
  waiters : s'.waiters = s.waiters.filter fun w => !decide (w.target ≤ lsn)
  metrics : s'.metrics = s.metrics.countFired fired.length
  firings : firingsIn s'.history = firingsIn s.history ++ firings fired
  aloof : s'.Aloof

namespace State
variable {initial : Lsn} {s s' s'' : State}

theorem Orderly.passes_nothing (hs : s.Orderly initial) (ha : s.Aloof) : s.Passes s.latest [] s := by
  refine ⟨rfl, ?_, (s.metrics.countFired_zero).symm, (List.append_nil _).symm, ha⟩
  refine (List.filter_eq_self.mpr fun w hw => ?_).symm
  simpa using Lsn.not_le.mpr (hs.ahead w hw)

theorem Passes.trans {lsn lsn' : Lsn} {fired fired' : List (Waiter × Lsn)} (h : s.Passes lsn fired s')
    (h' : s'.Passes lsn' fired' s'') (hl : lsn ≤ lsn') : s.Passes lsn' (fired ++ fired') s'' := by
  refine ⟨h'.latest, ?_, ?_, ?_, h'.aloof⟩
  · rw [h'.waiters, h.waiters, List.filter_filter]
    refine List.filter_congr fun w _ => ?_
    by_cases hw : w.target ≤ lsn
    · simp [hw, Lsn.le_trans hw hl]
    · simp [hw]
  · rw [h'.metrics, h.metrics, Metrics.countFired_countFired, List.length_append]
  · rw [h'.firings, h.firings, List.append_assoc, WaitList.firings, WaitList.firings, WaitList.firings,
      List.map_append]

theorem Orderly.call_passes (hs : s.Orderly initial) (ha : s.Aloof) {lsn : Lsn} (h : s.latest ≤ lsn) :
    let due := s.waiters.filter fun w => w.target ≤ lsn
    s.Passes lsn (due.map (·, lsn)) (s.call (.advance lsn)).1 ∧
      (s.call (.advance lsn)).2 = .count due.length := by
  intro due
  obtain ⟨s', hb, he⟩ := hs.call_aloof ha h
  rw [he]
  have hfirings : firingsIn (s'.rest lsn due.length).history =
      firingsIn s.history ++ firings (due.map (·, lsn)) := by
    have hrest : (s'.rest lsn due.length).trace = s'.trace :=
      congrArg Ledger.trace (s'.ledger_rest none lsn due.length)
    rw [← firingsIn_trace, hrest, hb.trace, firingsIn_append, firingsIn_startsAt, firingsIn_trace]
    exact congrArg (· ++ _) ((firingsIn_append ..).trans (List.append_nil _))
  obtain ⟨hc, -⟩ := hb
  refine ⟨⟨rfl, rfl, ?_, hfirings, ?_, hc⟩, rfl⟩
  · rw [List.length_map]
    rfl
  · exact fun w hw => ha.waiters w (List.mem_filter.mp hw).1

/-- Advances one after the other, each to an accepted position. -/
theorem Orderly.calls_passes (hs : s.Orderly initial) (ha : s.Aloof) {positions : List Lsn}
    (h : (s.latest :: positions).Pairwise (· ≤ ·)) :
    let done := s.calls (positions.map .advance)
    s.Passes (positions.getLastD s.latest) (handed positions s.waiters) done.1 ∧
      ∃ counts : List Nat, done.2 = counts.map .count ∧
        counts.sum = (handed positions s.waiters).length := by
  induction positions generalizing s with
  | nil =>
    have hnone : handed [] s.waiters = [] := by simp [handed]
    rw [hnone]
    exact ⟨hs.passes_nothing ha, [], rfl, rfl⟩
  | cons lsn positions ih =>
    obtain ⟨hle, hps⟩ := List.pairwise_cons.mp h
    obtain ⟨hp, hcount⟩ := hs.call_passes ha (hle lsn (List.mem_cons_self ..))
    have hs' : (s.call (.advance lsn)).1.Orderly initial := hs.call nofun
    obtain ⟨hps', counts, hcounts, hsum⟩ := ih hs' hp.aloof (by rw [hp.latest]; exact hps)
    rw [handed_cons hs.sorted, List.getLastD_cons]
    rw [hp.latest, hp.waiters] at hps'
    rw [hp.waiters] at hsum
    have hlast : lsn ≤ positions.getLastD lsn := by
      rcases List.mem_cons.mp (List.getLastD_mem_cons (l := positions) (a := lsn)) with he | hm
      · rw [he]
        exact Lsn.lt_irrefl lsn
      · exact (List.pairwise_cons.mp hps).1 _ hm
    refine ⟨hp.trans hps' hlast, (s.waiters.filter fun w => w.target ≤ lsn).length :: counts, ?_, ?_⟩
    · exact congrArg₂ _ hcount hcounts
    · rw [List.sum_cons, hsum, List.length_append, List.length_map]

/-- Callbacks stay away from the list. Then advances in a row to positions none of which is behind the one before
fire the same callbacks in the same order as the last of them alone, leave the same position, waiters and counts,
and their answers add up to its answer. Each callback is handed the first position that reaches its target. -/
theorem advances_split (initial : Lsn) (metrics : Metrics) (before : List Call) (hb : .drop ∉ before)
    (positions : List Lsn) (last : Lsn) :
    let s := ((opened initial metrics).calls before).1
    let split := s.calls ((positions ++ [last]).map .advance)
    let whole := s.call (.advance last)
    s.Aloof → (s.latest :: (positions ++ [last])).Pairwise (· ≤ ·) →
      (firingsIn split.1.history).map (·.1) = (firingsIn whole.1.history).map (·.1) ∧
      firingsIn split.1.history =
        firingsIn s.history ++ firings (handed (positions ++ [last]) s.waiters) ∧
      firingsIn whole.1.history =
        firingsIn s.history ++ firings ((s.waiters.filter fun w => w.target ≤ last).map (·, last)) ∧
      split.1.latest = whole.1.latest ∧ split.1.waiters = whole.1.waiters ∧
      split.1.metrics = whole.1.metrics ∧
      ∃ counts : List Nat, split.2 = counts.map .count ∧ whole.2 = .count counts.sum := by
  intro s split whole ha hp
  have hs : s.Orderly initial := (opened_orderly initial metrics).calls hb
  obtain ⟨hle, hps⟩ := List.pairwise_cons.mp hp
  obtain ⟨hsplit, counts, hcounts, hsum⟩ := hs.calls_passes ha hp
  obtain ⟨hwhole, hcount⟩ := hs.call_passes ha (hle last (by simp))
  have hlast : (positions ++ [last]).getLastD s.latest = last := by simp
  have hfired : (handed (positions ++ [last]) s.waiters).map (·.1) =
      s.waiters.filter fun w => w.target ≤ last :=
    handed_fst fun l hl => (List.pairwise_append.mp hps).2.2 l hl last (List.mem_singleton_self _)
  have hlength := congrArg List.length hfired
  rw [List.length_map] at hlength
  rw [hlast] at hsplit
  refine ⟨?_, hsplit.firings, hwhole.firings, hsplit.latest.trans hwhole.latest.symm,
    hsplit.waiters.trans hwhole.waiters.symm, ?_, counts, hcounts, ?_⟩
  · rw [hsplit.firings, hwhole.firings, List.map_append, List.map_append, firings_fst, firings_fst,
      hfired]
    congr 2
    rw [List.map_map]
    exact (List.map_id _).symm
  · rw [hsplit.metrics, hwhole.metrics, hlength, List.length_map]
  · rw [hcount, hsum, hlength]

/-- Two callbacks for one target, one of them panics; a listener to an awaited result; a position twice and one that
nothing waits for. -/
theorem advances_split_ties :
    let before : List Call := [
      .act (.register "a" ⟨1, 5⟩ [.poll "x"] true), .act (.await "x" ⟨1, 5⟩),
      .act (.listen "x" "l" [.handle "a"] true), .act (.register "b" ⟨2, 0⟩ [] false),
      .act (.register "c" ⟨1, 3⟩ [] false), .act (.register "d" ⟨3, 0⟩ [] false)]
    let positions : List Lsn := [⟨1, 2⟩, ⟨1, 4⟩, ⟨1, 5⟩, ⟨1, 5⟩]
    let last : Lsn := ⟨2, 0⟩
    let s := ((opened .zero {}).calls before).1
    let split := s.calls ((positions ++ [last]).map .advance)
    let whole := s.call (.advance last)
    .drop ∉ before ∧ s.Aloof ∧ (s.latest :: (positions ++ [last])).Pairwise (· ≤ ·) ∧
      (firingsIn split.1.history).map (·.1) = (firingsIn whole.1.history).map (·.1) ∧
      firingsIn split.1.history = [((3, some "c"), ⟨1, 4⟩), ((0, some "a"), ⟨1, 5⟩),
        ((1, none), ⟨1, 5⟩), ((2, some "b"), last)] ∧
      split.1.metrics = whole.1.metrics ∧
      ∃ counts : List Nat, split.2 = counts.map .count ∧ whole.2 = .count counts.sum := by
  intro before positions last s split whole
  have hb : Call.drop ∉ before := by simp [before]
  have ha : s.Aloof := by decide +kernel
  have hp : (s.latest :: (positions ++ [last])).Pairwise (· ≤ ·) := by decide +kernel
  obtain ⟨hsame, hsplit, -, -, -, hm, hc⟩ := advances_split .zero {} before hb positions last ha hp
  refine ⟨hb, ha, hp, hsame, hsplit.trans ?_, hm, hc⟩
  decide +kernel

end State
end WaitList
end ReplicaRouting
