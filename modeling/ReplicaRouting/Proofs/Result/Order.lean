import Mathlib.Data.List.Nodup
import ReplicaRouting.Proofs.Result.Agreement
import ReplicaRouting.Proofs.Result.Turns
/-!
The order of listeners. A pending cell has its listeners in the order in which they were registered. When it
gets its outcome, in whichever way, they are next, in that order, and the delivery keeps count of them.
-/

namespace ReplicaRouting.Result

open Relation (ReflTransGen)

variable {V : Type}

/-- The listeners of a cell in the order in which they were registered. -/
def registeredOn (cell : Nat) (es : List (Entry V)) : List (Nat × Nat) :=
  (registeredIn es).filter (·.2 = cell)

theorem registeredIn_append (es fs : List (Entry V)) :
    registeredIn (es ++ fs) = registeredIn es ++ registeredIn fs :=
  List.filterMap_append

theorem startedIn_append (es fs : List (Entry V)) : startedIn (es ++ fs) = startedIn es ++ startedIn fs :=
  List.filterMap_append

theorem registeredOn_append (cell : Nat) (es fs : List (Entry V)) :
    registeredOn cell (es ++ fs) = registeredOn cell es ++ registeredOn cell fs := by
  rw [registeredOn, registeredIn_append, List.filter_append]
  rfl

theorem Registered.map_key_filter (rs : List (Registered V)) (cell : Nat) :
    (rs.filter (·.cell = cell)).map (·.key) = (rs.map (·.key)).filter (·.2 = cell) := by
  rw [List.filter_map]
  rfl

namespace Network
variable {n n' n'' : Network V}

/-- The listeners that wait for a cell. -/
def waitingOn (n : Network V) (cell : Nat) : List (Registered V) := n.waiting.filter (·.cell = cell)

theorem registeredIn_trace (n : Network V) : registeredIn n.trace = registeredIn n.history := by
  rw [registeredIn, registeredIn, Network.trace, List.filterMap_filter]
  refine List.filterMap_congr fun e _ => ?_
  cases e <;> rfl

theorem startedIn_trace (n : Network V) : startedIn n.trace = startedIn n.history := by
  rw [startedIn, startedIn, Network.trace, List.filterMap_filter]
  refine List.filterMap_congr fun e _ => ?_
  cases e <;> rfl

/-- Those who wait for a pending cell are those who were registered on it. -/
def Lined (n : Network V) : Prop :=
  ∀ cell, n.outcomeAt cell = none → (n.waitingOn cell).map (·.key) = registeredOn cell n.trace

theorem Lined.of_eq (hn : n.Lined) (hc : ∀ cell, n'.outcomeAt cell = none → n.outcomeAt cell = none)
    (hw : n'.waiting = n.waiting) (ht : registeredIn n'.trace = registeredIn n.trace) : n'.Lined := by
  intro cell ho
  rw [waitingOn, hw, registeredOn, ht]
  exact hn cell (hc cell ho)

theorem Lined.settle (hn : n.Lined) (cell : Nat) (o : Outcome V) : (n.settle cell o).1.Lined := by
  have he := n.extends_settle cell o
  rcases n.settle_cases cell o with ⟨context, hc, h⟩ | h
  · rw [h] at he ⊢
    intro other ho
    have hne : other ≠ cell := by
      rintro rfl
      have hset : (n.cells.set other ⟨context, some o⟩)[other]? = some ⟨context, some o⟩ :=
        List.getElem?_set_self (List.getElem?_eq_some_iff.mp hc).1
      cases ho.symm.trans (Network.outcomeAt_eq_some_iff.mpr ⟨context, hset⟩)
    have hw : (n.waiting.filter (·.cell ≠ cell)).filter (·.cell = other) = n.waitingOn other := by
      rw [List.filter_filter]
      refine List.filter_congr fun r _ => ?_
      grind
    rw [waitingOn, hw]
    exact hn other (he.pending ho)
  · rw [h]
    exact hn

theorem Lined.start (hn : n.Lined) (r : Registered V) (o : Outcome V) (c : Option Context) :
    (n.start r o c).1.Lined := by
  obtain ⟨serial, cell, listener⟩ := r
  have hb : ∀ tag, (n.emit (.started serial cell tag o c)).Lined := by
    intro tag
    refine hn.of_eq (fun _ h => h) rfl ?_
    rw [n.trace_emit_mark rfl, registeredIn_started]
  cases listener with
  | script tag => exact hb (some tag)
  | receiver => exact (hb none).of_eq (fun _ h => h) rfl rfl
  | adapter into => exact (hb none).settle into o.adapt
  | recorder read =>
    cases o with
    | value => exact hb none
    | failed => exact (hb none).of_eq (fun _ h => h) rfl (congrArg registeredIn (Network.quiet_log _ _).trace)

theorem Lined.register (hn : n.Lined) (cell : Nat) (l : Listener V) : (n.register cell l).1.Lined := by
  let r : Registered V := ⟨n.registrations, cell, l⟩
  let enrolled : Network V := { n with registrations := n.registrations + 1 }.emit (.registered r.serial cell)
  have ht : ∀ other, registeredOn other enrolled.trace =
      registeredOn other n.trace ++ [r.key].filter (·.2 = other) := by
    intro other
    have ht : enrolled.trace = n.trace ++ [.registered r.serial cell] := Network.trace_emit_mark _ rfl
    rw [registeredOn, ht, registeredIn_registered, List.filter_append]
    rfl
  rcases n.register_cases cell l with ⟨-, h⟩ | ⟨o, hcell, h⟩
  · rw [h]
    intro other ho
    have hw : (n.waiting ++ [r]).filter (·.cell = other) = n.waitingOn other ++ [r].filter (·.cell = other) :=
      List.filter_append ..
    show ((n.waiting ++ [r]).filter (·.cell = other)).map (·.key) = registeredOn other enrolled.trace
    rw [hw, List.map_append, hn other ho, ht]
    exact congrArg (registeredOn other n.trace ++ ·) (Registered.map_key_filter [r] other)
  · rw [h]
    have henrolled : enrolled.Lined := by
      intro other ho
      have hne : r.key.2 ≠ other := by
        rintro rfl
        cases hcell.symm.trans ho
      have hnone : [r.key].filter (·.2 = other) = [] := by
        rw [List.filter_singleton, decide_eq_false hne]
        rfl
      rw [ht, hnone, List.append_nil]
      exact hn other ho
    exact henrolled.start r o _

theorem Lined.addCell (hn : n.Lined) (c : Cell V) : (n.addCell c).1.Lined :=
  hn.of_eq (fun _ h => (n.extends_addCell c).pending h) rfl rfl

theorem Lined.pending (hn : n.Lined) (name : String) (context : Option Context) :
    (n.addPending name context).1.Lined := by
  let named : Network V :=
    { (n.addCell ⟨context, none⟩).1 with names := n.names.bind name n.cells.length }
  have hnamed : named.Lined := (hn.addCell ⟨context, none⟩).of_eq (fun _ h => h) rfl rfl
  have hd : (named.dropCompleter name).1.Lined := by
    rcases named.dropCompleter_cases name with ⟨-, h⟩ | ⟨cell, -, h⟩
    · rw [h]
      exact hnamed
    · have hw : (named.without name).Lined := hnamed.of_eq (fun _ h => h) rfl rfl
      rw [h]
      exact hw.settle cell _
  exact hd.of_eq (fun _ h => h) rfl rfl

end Network

theorem Ledger.Move.lined {v v' : Ledger V} (hn : v.network.Lined) (h : v.Move v') : v'.network.Lined := by
  cases h with
  | quiet h =>
    exact hn.of_eq (fun _ ho => (Network.outcomeAt_congr h.cells _).symm.trans ho) h.waiting (congrArg _ h.trace)
  | settled name context o => exact (hn.addCell ⟨context, some o⟩).of_eq (fun _ h => h) rfl rfl
  | pending name context => exact hn.pending name context
  | @adapt source context _ => exact (hn.addCell ⟨some context, none⟩).register source _
  | @listen cell l => exact hn.register cell l
  | @await as cell _ =>
    have hw : (v.network.awaiting as cell).Lined := hn.of_eq (fun _ h => h) rfl rfl
    exact hw.register cell .receiver
  | @release name cell o _ =>
    have hw : (v.network.without name).Lined := hn.of_eq (fun _ h => h) rfl rfl
    exact hw.settle cell o
  | @start d _ _ => exact hn.start d.registered d.outcome d.context

theorem Ledger.lined_moves {v v' : Ledger V} (hn : v.network.Lined) (h : ReflTransGen Ledger.Move v v') :
    v'.network.Lined := by
  induction h with
  | refl => exact hn
  | tail _ h ih => exact h.lined ih

/-! ### What an operation sets off -/

namespace Network
variable {n n' n'' : Network V} {frames : List (Frame V)}

/-- Nothing, a script, or the delivery of one cell, which was pending or is new. Other pending cells stay so. -/
inductive SetsOff (n n' : Network V) : List (Frame V) → Prop
  | nothing (h : ∀ cell < n.cells.length, n.outcomeAt cell = none → n'.outcomeAt cell = none) :
      SetsOff n n' []
  | script (h : ∀ cell < n.cells.length, n.outcomeAt cell = none → n'.outcomeAt cell = none)
    (tag : String) (steps : List (Action V)) (panics : Bool) :
      SetsOff n n' [.body tag steps panics]
  | delivery {cell : Nat} {o : Outcome V} {context : Option Context}
    (h : ∀ other < n.cells.length, other ≠ cell → n.outcomeAt other = none → n'.outcomeAt other = none)
    (hp : n.outcomeAt cell = none) (ho : n'.outcomeAt cell = some o)
    (hc : ∀ c, n.cells[cell]? = some c → c.context = context) :
      SetsOff n n' [.delivering o context (n.waitingOn cell) 0 (n.waitingOn cell).length]

theorem SetsOff.before (h : SetsOff n' n'' frames)
    (hc : ∀ cell < n.cells.length, n'.cells[cell]? = n.cells[cell]?) (hw : n'.waiting = n.waiting) :
    SetsOff n n'' frames := by
  have hlt : ∀ cell < n.cells.length, cell < n'.cells.length := by
    intro cell hcell
    have hs := hc cell hcell
    rw [List.getElem?_eq_getElem hcell] at hs
    exact (List.getElem?_eq_some_iff.mp hs).1
  have hsame : ∀ cell < n.cells.length, n'.outcomeAt cell = n.outcomeAt cell :=
    fun cell hcell => congrArg (·.bind (·.outcome)) (hc cell hcell)
  cases h with
  | nothing h => exact .nothing fun cell hcell ho => h cell (hlt cell hcell) ((hsame cell hcell).trans ho)
  | script h => exact .script (fun cell hcell ho => h cell (hlt cell hcell) ((hsame cell hcell).trans ho)) ..
  | @delivery cell o context h hp ho hcontext =>
    rw [waitingOn, hw]
    refine .delivery (fun other hcell hne hother => ?_) ?_ ho fun c hcell => ?_
    · exact h other (hlt other hcell) hne ((hsame other hcell).trans hother)
    · by_cases hcell : cell < n.cells.length
      · exact (hsame cell hcell).symm.trans hp
      · rw [outcomeAt, List.getElem?_eq_none (Nat.le_of_not_lt hcell)]
        rfl
    · exact hcontext c ((hc cell (List.getElem?_eq_some_iff.mp hcell).1).trans hcell)

theorem SetsOff.after (h : SetsOff n n' frames) (hc : n''.cells = n'.cells) : SetsOff n n'' frames := by
  have hsame : ∀ cell, n''.outcomeAt cell = n'.outcomeAt cell := outcomeAt_congr hc
  cases h with
  | nothing h => exact .nothing fun cell hcell ho => (hsame cell).trans (h cell hcell ho)
  | script h => exact .script (fun cell hcell ho => (hsame cell).trans (h cell hcell ho)) ..
  | delivery h hp ho hcontext =>
    exact .delivery (fun other hcell hne hother => (hsame other).trans (h other hcell hne hother)) hp
      ((hsame _).trans ho) hcontext

theorem SetsOff.of_cells (h : n'.cells = n.cells) : SetsOff n n' [] :=
  .nothing fun cell _ ho => (outcomeAt_congr h cell).trans ho

variable (n)

theorem settle_setsOff (cell : Nat) (o : Outcome V) :
    SetsOff n (n.settle cell o).1 (n.settle cell o).2.1 := by
  rcases n.settle_cases cell o with ⟨context, hc, h⟩ | h
  · rw [h]
    have hlt := (List.getElem?_eq_some_iff.mp hc).1
    refine .delivery (fun other _ hne ho => ?_) ?_ ?_ fun c hcell => ?_
    · have hset : (n.cells.set cell ⟨context, some o⟩)[other]? = n.cells[other]? := List.getElem?_set_ne hne.symm
      exact (congrArg (·.bind (·.outcome)) hset).trans ho
    · exact congrArg (·.bind (·.outcome)) hc
    · exact congrArg (·.bind (·.outcome)) (List.getElem?_set_self hlt)
    · exact congrArg Cell.context (Option.some.inj (hcell.symm.trans hc))
  · rw [h]
    exact .of_cells rfl

theorem start_setsOff (r : Registered V) (o : Outcome V) (c : Option Context) :
    SetsOff n (n.start r o c).1 (n.start r o c).2 := by
  obtain ⟨serial, cell, listener⟩ := r
  cases listener with
  | script tag steps panics =>
    have hs : ∀ other, (n.start ⟨serial, cell, .script tag steps panics⟩ o c).1.outcomeAt other = n.outcomeAt other :=
      outcomeAt_congr rfl
    exact .script (fun other _ ho => (hs other).trans ho) tag steps panics
  | receiver => exact .of_cells rfl
  | adapter into => exact (settle_setsOff (n.emit _) into o.adapt).before (fun _ _ => rfl) rfl
  | recorder read =>
    cases o with
    | value => exact .of_cells rfl
    | failed => exact .of_cells rfl

theorem register_setsOff (cell : Nat) (l : Listener V) :
    SetsOff n (n.register cell l).1 (n.register cell l).2 := by
  rcases n.register_cases cell l with ⟨-, h⟩ | ⟨o, -, h⟩
  · rw [h]
    exact .of_cells rfl
  · rw [h]
    exact (start_setsOff _ _ o _).before (fun _ _ => rfl) rfl

theorem dropCompleter_setsOff (name : String) :
    SetsOff n (n.dropCompleter name).1 (n.dropCompleter name).2.1 := by
  rcases n.dropCompleter_cases name with ⟨-, h⟩ | ⟨cell, -, h⟩
  · rw [h]
    exact .of_cells rfl
  · rw [h]
    exact (settle_setsOff (n.without name) cell _).before (fun _ _ => rfl) rfl

theorem addPending_setsOff (name : String) (context : Option Context) :
    SetsOff n (n.addPending name context).1 (n.addPending name context).2 := by
  let named : Network V :=
    { (n.addCell ⟨context, none⟩).1 with names := n.names.bind name n.cells.length }
  have hd := (named.dropCompleter_setsOff name).before (n := n) (fun _ h => List.getElem?_append_left h) rfl
  exact hd.after rfl

theorem addAdapted_setsOff (source : Nat) (context : Context) :
    SetsOff n (n.addAdapted source context).1.1 (n.addAdapted source context).1.2 := by
  have h := register_setsOff (n.addCell ⟨some context, none⟩).1 source (.adapter n.cells.length)
  exact h.before (fun _ h => List.getElem?_append_left h) rfl

theorem addSettled_setsOff (name : String) (context : Option Context) (o : Outcome V) :
    SetsOff n (n.addSettled name context o) [] :=
  .nothing fun _ hcell ho => (congrArg (·.bind (·.outcome)) (List.getElem?_append_left hcell)).trans ho

theorem perform_setsOff (a : Action V) : SetsOff n (n.perform a).1 (n.perform a).2.1 := by
  cases a with
  | pending name token =>
    exact (addPending_setsOff (n.freshContext token).1 name _).before (fun _ _ => rfl) rfl
  | response name => exact n.addPending_setsOff name none
  | settled name o token =>
    exact (addSettled_setsOff (n.freshContext token).1 name _ o).before (fun _ _ => rfl) rfl
  | settledResponse name o => exact n.addSettled_setsOff name none o
  | adapt source name token =>
    simp only [perform]
    split
    · exact .of_cells rfl
    · rename_i cell _
      have h := addAdapted_setsOff (n.freshContext token).1 cell (n.freshContext token).2
      exact (h.before (n := n) (fun _ _ => rfl) rfl).after rfl
  | complete name o =>
    simp only [perform, takeCompleter]
    cases n.completers.find? name with
    | none => exact .of_cells rfl
    | some cell => exact (settle_setsOff (n.without name) cell o).before (fun _ _ => rfl) rfl
  | abandon name =>
    simp only [perform]
    split
    · exact .of_cells rfl
    · exact n.dropCompleter_setsOff name
  | listen name tag steps panics =>
    simp only [perform]
    split
    · exact .of_cells rfl
    · exact n.register_setsOff _ _
  | wait name as =>
    simp only [perform]
    split
    · exact .of_cells rfl
    · rename_i cell _
      have h := register_setsOff (n.awaiting as cell) cell .receiver
      exact (h.before (n := n) (fun _ _ => rfl) rfl).after (quiet_poll _ as).cells
  | poll as => exact .of_cells (n.quiet_poll as).cells
  | clone | completer | get | getTimeout | isDone | describe | context | block | join =>
    simp only [perform]
    repeat' split
    all_goals exact .of_cells rfl

theorem SetsOff.delivers {n : Network V} (h : SetsOff n n' frames) {cell : Nat} {context : Option Context}
    (hc : n.cells[cell]? = some ⟨context, none⟩) {o : Outcome V} (ho : n'.outcomeAt cell = some o) :
    frames = [.delivering o context (n.waitingOn cell) 0 (n.waitingOn cell).length] := by
  have hlt := (List.getElem?_eq_some_iff.mp hc).1
  have hp : n.outcomeAt cell = none := congrArg (·.bind (·.outcome)) hc
  cases h with
  | nothing h | script h => cases (h cell hlt hp).symm.trans ho
  | @delivery other o' context' h _ ho' hcontext =>
    by_cases hne : cell = other
    · subst hne
      obtain rfl : context = context' := hcontext _ hc
      obtain rfl : o = o' := Option.some.inj (ho.symm.trans ho')
      rfl
    · cases (h cell hlt hne hp).symm.trans ho

end Network

/-! ### Deliveries keep count -/

namespace Network
variable {n n' : Network V} {frames : List (Frame V)}

/-- Who is left of a delivery: of the listeners that had been registered on a cell all from a position on, and
as many as there were in all. -/
structure Ranked (n : Network V) (rest : List (Registered V)) (cell position total : Nat) : Prop where
  due : ((registeredOn cell n.trace).take total).drop position = rest.map (·.key)
  total : total ≤ (registeredOn cell n.trace).length

def Counts (n : Network V) (g : Frame V) : Prop :=
  ∀ o c rest position total, g = .delivering o c rest position total → ∃ cell, n.Ranked rest cell position total

theorem Ranked.later {rest : List (Registered V)} {cell position total : Nat} (h : n.Ranked rest cell position total)
    {entries : List (Entry V)} (he : n'.history = n.history ++ entries) : n'.Ranked rest cell position total := by
  have hon : registeredOn cell n'.trace = registeredOn cell n.trace ++ registeredOn cell entries := by
    rw [registeredOn, registeredIn_trace, he, ← registeredOn, registeredOn_append]
    rw [registeredOn, ← registeredIn_trace, ← registeredOn]
  constructor
  · rw [hon, List.take_append_of_le_length h.total]
    exact h.due
  · rw [hon, List.length_append]
    exact Nat.le_add_right_of_le h.total

theorem Counts.later {g : Frame V} (h : n.Counts g) {entries : List (Entry V)}
    (he : n'.history = n.history ++ entries) : n'.Counts g := by
  intro o c rest position total hg
  obtain ⟨cell, hr⟩ := h o c rest position total hg
  exact ⟨cell, hr.later he⟩

theorem SetsOff.counts (h : SetsOff n n' frames) (hn : n.Lined) {entries : List (Entry V)}
    (he : n'.history = n.history ++ entries) : ∀ g ∈ frames, n'.Counts g := by
  intro g hg
  cases h with
  | nothing => cases hg
  | script =>
    obtain rfl := List.mem_singleton.mp hg
    exact nofun
  | @delivery cell o context _ hp _ _ =>
    obtain rfl := List.mem_singleton.mp hg
    rintro _ _ _ _ _ ⟨⟩
    have hkeys := hn cell hp
    refine ⟨cell, Ranked.later (n := n) ⟨?_, ?_⟩ he⟩
    · rw [← hkeys, List.drop_zero, List.take_of_length_le (Nat.le_of_eq (List.length_map ..))]
    · exact Nat.le_of_eq ((List.length_map ..).symm.trans (congrArg List.length hkeys))

end Network

namespace Machine
variable {m m' : Machine V}

theorem perform_history (n : Network V) (a : Action V) : ∃ entries, (n.perform a).1.history = n.history ++ entries := by
  have h := Network.perform_since n.history { n with history := [] } a
  rw [n.since_history] at h
  exact ⟨_, congrArg (fun r : Network V × List (Frame V) × Answer V => r.1.history) h⟩

theorem step_history (h : m.step = some m') : ∃ entries, m'.network.history = m.network.history ++ entries := by
  have hs := step_since m.network.history ⟨{ m.network with history := [] }, m.stack, m.answer⟩
  rw [since, m.network.since_history] at hs
  rw [show Machine.mk m.network m.stack m.answer = m from rfl, h] at hs
  obtain ⟨k, -, hk⟩ := Option.map_eq_some_iff.mp hs.symm
  exact ⟨k.network.history, hk ▸ rfl⟩

theorem unwind_cells (m : Machine V) : m.unwind.network.cells = m.network.cells := by
  unfold unwind
  split <;> rfl

theorem step_counts (hn : m.network.Lined) (hm : ∀ g ∈ m.stack, m.network.Counts g) (h : m.step = some m') :
    ∀ g ∈ m'.stack, m'.network.Counts g := by
  obtain ⟨entries, he⟩ := step_history h
  have hlater : ∀ g ∈ m.stack, m'.network.Counts g := fun g hg => (hm g hg).later he
  obtain ⟨n, stack, answer⟩ := m
  cases stack with
  | nil => cases h
  | cons g below =>
    have hbelow : ∀ g ∈ below, m'.network.Counts g := fun g hg => hlater g (List.mem_cons_of_mem _ hg)
    cases g with
    | body tag steps panics =>
      cases steps with
      | cons a steps =>
        obtain rfl := Option.some.inj h
        intro g hg
        rcases List.mem_append.mp hg with hg | hg
        · exact (n.perform_setsOff a).counts hn he g hg
        · rcases List.mem_cons.mp hg with rfl | hg
          · exact nofun
          · rcases List.mem_cons.mp hg with rfl | hg
            · exact nofun
            · exact hbelow g hg
      | nil =>
        obtain rfl := Option.some.inj h
        cases panics with
        | false => exact hbelow
        | true =>
          exact fun g hg => hbelow g ((unwind_calm ⟨n, below, answer⟩).2 g hg)
    | answering tag answered =>
      obtain rfl := Option.some.inj h
      exact hbelow
    | delivering o c rest position total =>
      cases rest with
      | nil =>
        obtain rfl := Option.some.inj h
        exact hbelow
      | cons r rest =>
        obtain rfl := Option.some.inj h
        intro g hg
        rcases List.mem_append.mp hg with hg | hg
        · exact (n.start_setsOff r o c).counts hn he g hg
        · rcases List.mem_cons.mp hg with rfl | hg
          -- the delivery itself, which is one listener further
          · obtain ⟨cell, hr⟩ := hlater _ (.head _) o c (r :: rest) position total rfl
            rintro _ _ _ _ _ ⟨⟩
            refine ⟨cell, ?_, hr.total⟩
            rw [← List.drop_drop, hr.due]
            rfl
          · exact hbelow g hg

theorem moments_counts (h : ReflTransGen Next fresh m) :
    m.network.Lined ∧ ∀ g ∈ m.stack, m.network.Counts g := by
  induction h with
  | refl => exact ⟨fun _ _ => rfl, nofun⟩
  | @tail m m' hm h ih =>
    obtain ⟨hn, hc⟩ := ih
    have hmoves := h.moves (moments_agreed hm).1
    refine ⟨Ledger.lined_moves hn hmoves, ?_⟩
    cases h with
    | step h => exact step_counts hn hc h
    | call _ a =>
      obtain ⟨entries, he⟩ := perform_history m.network a
      exact (m.network.perform_setsOff a).counts hn he

/-- Who gets a pending cell settled has its listeners next, in their order. -/
theorem Next.delivers (h : m.Next m') {cell : Nat} {context : Option Context}
    (hc : m.network.cells[cell]? = some ⟨context, none⟩) {o : Outcome V} (ho : m'.network.outcomeAt cell = some o) :
    ∃ below, m'.stack =
      .delivering o context (m.network.waitingOn cell) 0 (m.network.waitingOn cell).length :: below := by
  have hp : m.network.outcomeAt cell = none := congrArg (·.bind (·.outcome)) hc
  cases h with
  | call hrest a =>
    have hs := (m.network.perform_setsOff a).delivers hc ho
    exact ⟨[], hs⟩
  | step h =>
    obtain ⟨n, stack, answer⟩ := m
    cases stack with
    | nil => cases h
    | cons g below =>
      cases g with
      | body tag steps panics =>
        cases steps with
        | cons a steps =>
          obtain rfl := Option.some.inj h
          have hs := (n.perform_setsOff a).delivers hc ho
          exact ⟨_, congrArg (· ++ _) hs⟩
        | nil =>
          obtain rfl := Option.some.inj h
          cases panics with
          | false => cases hp.symm.trans ho
          | true =>
            have hcells := unwind_cells ⟨n, below, answer⟩
            cases ((Network.outcomeAt_congr hcells cell).trans hp).symm.trans ho
      | answering tag answered =>
        obtain rfl := Option.some.inj h
        cases hp.symm.trans ho
      | delivering o' c rest position total =>
        cases rest with
        | nil =>
          obtain rfl := Option.some.inj h
          cases hp.symm.trans ho
        | cons r rest =>
          obtain rfl := Option.some.inj h
          have hs := (n.start_setsOff r o' c).delivers hc ho
          exact ⟨_, congrArg (· ++ _) hs⟩

end Machine
end ReplicaRouting.Result
