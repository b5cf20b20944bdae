import Mathlib.Logic.Relation
import ReplicaRouting.Result.Delivery
/-!
The ledger of a network: its cells with the listeners that wait on them, and the listeners that are due, in
the order in which they start. A step of a run makes moves on the ledger; scripts and answers are left out.
-/

namespace ReplicaRouting.Result

open Relation (ReflTransGen)

/-- A listener of a settled cell that has yet to start, with what it will be handed. -/
structure Due (V : Type) where
  registered : Registered V
  outcome : Outcome V
  context : Option Context

def Frame.due : Frame V → List (Due V)
  | .delivering o c rest _ _ => rest.map fun r => ⟨r, o, c⟩
  | _ => []

def dueOn (frames : List (Frame V)) : List (Due V) := frames.flatMap Frame.due

@[simp] theorem dueOn_nil : dueOn ([] : List (Frame V)) = [] := rfl

@[simp] theorem dueOn_cons (f : Frame V) (fs : List (Frame V)) :
    dueOn (f :: fs) = f.due ++ dueOn fs := rfl

@[simp] theorem dueOn_append (fs gs : List (Frame V)) : dueOn (fs ++ gs) = dueOn fs ++ dueOn gs :=
  List.flatMap_append

theorem dueOn_delivering (o : Outcome V) (context : Option Context) (rest : List (Registered V))
    (position total : Nat) :
    dueOn [.delivering o context rest position total] = rest.map fun r => ⟨r, o, context⟩ :=
      List.append_nil _

structure Ledger (V : Type) where
  network : Network V
  due : List (Due V)

def Ledger.Has (v : Ledger V) (r : Registered V) : Prop :=
  r ∈ v.network.waiting ∨ ∃ d ∈ v.due, d.registered = r

def Machine.ledger (m : Machine V) : Ledger V := ⟨m.network, dueOn m.stack⟩

theorem Machine.due_at_rest {m : Machine V} (h : m.stack = []) : m.ledger.due = [] := by
  rw [ledger, h]
  rfl

def Ledger.after (v : Ledger V) (n : Network V) (frames : List (Frame V)) : Ledger V :=
  ⟨n, dueOn frames ++ v.due⟩

theorem Ledger.after_rest (n n' : Network V) (frames : List (Frame V)) :
    after ⟨n, []⟩ n' frames = ⟨n', dueOn frames⟩ := by
  rw [after, List.append_nil]

def Entry.isMark : Entry V → Bool
  | .registered .. | .started .. => true
  | _ => false

def Network.trace (n : Network V) : List (Entry V) := n.history.filter (·.isMark)

namespace Network

theorem trace_emit_mark (n : Network V) {e : Entry V} (h : e.isMark = true) :
    (n.emit e).trace = n.trace ++ [e] := by
  simp [trace, emit, h]

theorem trace_emit_quiet (n : Network V) {e : Entry V} (h : e.isMark = false) :
    (n.emit e).trace = n.trace := by
  simp [trace, emit, h]

/-- What no cell and no listener takes notice of; a future may be given up. -/
structure Still (n n' : Network V) : Prop where
  cells : n'.cells = n.cells
  waiting : n'.waiting = n.waiting
  registrations : n'.registrations = n.registrations
  trace : n'.trace = n.trace
  waits : ∀ as f, n'.waits.find? as = some f → n.waits.find? as = some f

/-- What no completer takes notice of either; a name may be given to a cell that exists. -/
structure Quiet (n n' : Network V) : Prop extends Still n n' where
  completers : n'.completers = n.completers
  names : ∀ name cell, n'.names.find? name = some cell →
    n.names.find? name = some cell ∨ cell < n.cells.length

theorem Still.refl (n : Network V) : n.Still n := ⟨rfl, rfl, rfl, rfl, fun _ _ h => h⟩

theorem Quiet.refl (n : Network V) : n.Quiet n := ⟨.refl n, rfl, fun _ _ h => .inl h⟩

theorem quiet_emit (n : Network V) {e : Entry V} (h : e.isMark = false) : n.Quiet (n.emit e) :=
  { Quiet.refl n with trace := n.trace_emit_quiet h }

theorem quiet_log (n : Network V) (r : Log.Record) : n.Quiet (n.log r) := n.quiet_emit rfl

theorem quiet_freshContext (n : Network V) (token : Option TokenValue) :
    n.Quiet (n.freshContext token).1 :=
  { Quiet.refl n with }

theorem quiet_bind (n : Network V) (name : String) {cell : Nat} (h : cell < n.cells.length) :
    n.Quiet { n with names := n.names.bind name cell } := by
  refine { Quiet.refl n with names := fun other c hc => ?_ }
  rw [Names.find?_bind] at hc
  split at hc
  · exact .inr (Option.some.inj hc ▸ h)
  · exact .inl hc

theorem quiet_poll (n : Network V) (as : String) : n.Quiet (n.poll as).1 := by
  unfold poll
  split
  · exact Quiet.refl n
  · exact Quiet.refl n
  · refine { Quiet.refl n with waits := fun other f hf => ?_ }
    rw [Names.find?_unbind] at hf
    split at hf
    · cases hf
    · exact hf

def Named (n : Network V) : Prop :=
  ∀ name cell, n.names.find? name = some cell → cell < n.cells.length

/-- The later network has the cells of the earlier one, with their contexts; a settled cell keeps its
outcome. -/
structure Extends (n n' : Network V) : Prop where
  kept : ∀ (cell : Nat) (context : Option Context) (o? : Option (Outcome V)),
    n.cells[cell]? = some ⟨context, o?⟩ →
      ∃ o?', n'.cells[cell]? = some ⟨context, o?'⟩ ∧ ∀ o, o? = some o → o?' = some o

def awaiting (n : Network V) (as : String) (cell : Nat) : Network V :=
  { n with waits := n.waits.bind as ⟨n.registrations, cell, none⟩ }

def without (n : Network V) (name : String) : Network V :=
  { n with completers := n.completers.unbind name }

end Network

/-- What callers, scripts and deliveries do to a ledger. -/
inductive Ledger.Move (v : Ledger V) : Ledger V → Prop
  | quiet {n : Network V} (h : v.network.Quiet n) : Move v ⟨n, v.due⟩
  | settled (name : String) (context : Option Context) (o : Outcome V) :
      Move v ⟨v.network.addSettled name context o, v.due⟩
  | pending (name : String) (context : Option Context) :
      Move v (v.after (v.network.addPending name context).1 (v.network.addPending name context).2)
  | adapt {source : Nat} (context : Context) (h : source < v.network.cells.length) :
      Move v (v.after (v.network.addAdapted source context).1.1
        (v.network.addAdapted source context).1.2)
  | listen {cell : Nat} {l : Listener V} (hl : ∀ into, l ≠ .adapter into)
    (h : cell < v.network.cells.length) :
      Move v (v.after (v.network.register cell l).1 (v.network.register cell l).2)
  | await (as : String) {cell : Nat} (h : cell < v.network.cells.length) :
      Move v (v.after ((v.network.awaiting as cell).register cell .receiver).1
        ((v.network.awaiting as cell).register cell .receiver).2)
  | release {name : String} {cell : Nat} (o : Outcome V)
    (h : v.network.completers.find? name = some cell) :
      Move v (v.after ((v.network.without name).settle cell o).1
        ((v.network.without name).settle cell o).2.1)
  | start {d : Due V} {due : List (Due V)} (h : v.due = d :: due) :
      Move v (Ledger.after ⟨v.network, due⟩ (v.network.start d.registered d.outcome d.context).1
        (v.network.start d.registered d.outcome d.context).2)

/-! ### The later network extends the earlier one -/

namespace Network
variable {n n' n'' : Network V}

theorem Extends.refl (n : Network V) : n.Extends n := ⟨fun _ _ o? h => ⟨o?, h, fun _ h => h⟩⟩

theorem Extends.trans (h : n.Extends n') (h' : n'.Extends n'') : n.Extends n'' := by
  constructor
  intro cell context o? hc
  obtain ⟨o?', hc', ho⟩ := h.kept cell context o? hc
  obtain ⟨o?'', hc'', ho'⟩ := h'.kept cell context o?' hc'
  exact ⟨o?'', hc'', fun o hs => ho' o (ho o hs)⟩

theorem Extends.of_cells (h : n'.cells = n.cells) : n.Extends n' :=
  ⟨fun _ _ o? hc => ⟨o?, h ▸ hc, fun _ h => h⟩⟩

theorem Extends.congr_left (h : n'.Extends n'') (hs : n'.cells = n.cells) : n.Extends n'' :=
  ⟨fun cell context o? hc => h.kept cell context o? (hs ▸ hc)⟩

theorem Extends.holds (h : n.Extends n') {cell : Nat} {context : Option Context} {o : Outcome V}
    (hc : n.cells[cell]? = some ⟨context, some o⟩) : n'.cells[cell]? = some ⟨context, some o⟩ := by
  obtain ⟨o?, hc', ho⟩ := h.kept cell context (some o) hc
  exact ho o rfl ▸ hc'

theorem Extends.lt (h : n.Extends n') {cell : Nat} (hc : cell < n.cells.length) :
    cell < n'.cells.length := by
  obtain ⟨o?, hc', -⟩ := h.kept cell _ _ (List.getElem?_eq_getElem hc)
  exact (List.getElem?_eq_some_iff.mp hc').1

theorem Extends.named (h : n.Extends n') (hn : n.Named) (hs : n'.names = n.names) : n'.Named :=
  fun name cell hc => h.lt (hn name cell (hs ▸ hc))

theorem outcomeAt_congr (h : n'.cells = n.cells) (cell : Nat) : n'.outcomeAt cell = n.outcomeAt cell := by
  rw [outcomeAt, outcomeAt, h]

theorem outcomeAt_eq_some_iff {cell : Nat} {o : Outcome V} :
    n.outcomeAt cell = some o ↔ ∃ context, n.cells[cell]? = some ⟨context, some o⟩ := by
  unfold outcomeAt
  constructor
  · intro h
    obtain ⟨⟨context, o?⟩, hc, ho⟩ := Option.bind_eq_some_iff.mp h
    exact ⟨context, (show o? = some o from ho) ▸ hc⟩
  · rintro ⟨context, hc⟩
    rw [hc]
    rfl

theorem Extends.outcomeAt (h : n.Extends n') {cell : Nat} {o : Outcome V}
    (ho : n.outcomeAt cell = some o) :
    n'.outcomeAt cell = some o := by
  obtain ⟨context, hc⟩ := outcomeAt_eq_some_iff.mp ho
  exact outcomeAt_eq_some_iff.mpr ⟨context, h.holds hc⟩

theorem Extends.pending (h : n.Extends n') {cell : Nat} (hc : n'.outcomeAt cell = none) :
    n.outcomeAt cell = none := by
  refine Option.eq_none_iff_forall_ne_some.mpr fun o ho => ?_
  rw [h.outcomeAt ho] at hc
  cases hc

theorem Extends.contextAt (h : n.Extends n') {cell : Nat} {context : Context}
    (hc : n.contextAt cell = some context) : n'.contextAt cell = some context := by
  obtain ⟨⟨context', o?⟩, hc, rfl⟩ := Option.bind_eq_some_iff.mp hc
  obtain ⟨o?', hc', -⟩ := h.kept cell _ o? hc
  exact Option.bind_eq_some_iff.mpr ⟨_, hc', rfl⟩

variable (n)

theorem getElem_addCell (c : Cell V) : (n.addCell c).1.cells[n.cells.length]? = some c :=
  List.getElem?_concat_length

theorem contextAt_addCell (c : Cell V) : (n.addCell c).1.contextAt n.cells.length = c.context := by
  rw [contextAt, getElem_addCell]
  rfl

theorem outcomeAt_addCell (c : Cell V) : (n.addCell c).1.outcomeAt n.cells.length = c.outcome := by
  rw [outcomeAt, getElem_addCell]
  rfl

theorem extends_addCell (c : Cell V) : n.Extends (n.addCell c).1 := by
  constructor
  intro cell context o? hc
  refine ⟨o?, ?_, fun _ h => h⟩
  exact List.getElem?_append_left (List.getElem?_eq_some_iff.mp hc).1 ▸ hc

theorem settle_cases (cell : Nat) (o : Outcome V) :
    (∃ context, n.cells[cell]? = some ⟨context, none⟩ ∧
      n.settle cell o =
        ({ n with
            cells := n.cells.set cell ⟨context, some o⟩
            waiting := n.waiting.filter (·.cell ≠ cell) },
          [.delivering o context (n.waiting.filter (·.cell = cell)) 0
            (n.waiting.filter (·.cell = cell)).length],
          true)) ∨
      n.settle cell o = (n, [], false) := by
  unfold settle
  split
  · rename_i context hc
    exact .inl ⟨context, hc, rfl⟩
  · exact .inr rfl

theorem extends_settle (cell : Nat) (o : Outcome V) : n.Extends (n.settle cell o).1 := by
  rcases n.settle_cases cell o with ⟨context, hc, hs⟩ | hs
  · rw [hs]
    constructor
    intro other context' o? ho
    by_cases h : other = cell
    · subst h
      -- the cell was pending, so there is no outcome to keep
      obtain ⟨rfl, rfl⟩ : context = context' ∧ none = o? := by simpa using hc.symm.trans ho
      exact ⟨some o, List.getElem?_set_self (List.getElem?_eq_some_iff.mp hc).1, nofun⟩
    · exact ⟨o?, (List.getElem?_set_ne (Ne.symm h)).trans ho, fun _ h => h⟩
  · rw [hs]
    exact .refl n

theorem names_settle (cell : Nat) (o : Outcome V) : (n.settle cell o).1.names = n.names := by
  rcases n.settle_cases cell o with ⟨context, hc, hs⟩ | hs <;> rw [hs]

theorem extends_start (r : Registered V) (o : Outcome V) (context : Option Context) :
    n.Extends (n.start r o context).1 := by
  obtain ⟨serial, cell, listener⟩ := r
  cases listener with
  | script | receiver => exact .of_cells rfl
  | adapter into =>
    have h := extends_settle (n.emit (.started serial cell none o context)) into o.adapt
    exact h.congr_left rfl
  | recorder read => cases o <;> exact .of_cells rfl

theorem names_start (r : Registered V) (o : Outcome V) (context : Option Context) :
    (n.start r o context).1.names = n.names := by
  obtain ⟨serial, cell, listener⟩ := r
  cases listener with
  | script | receiver => rfl
  | adapter into => exact names_settle _ into _
  | recorder read => cases o <;> rfl

theorem register_cases (cell : Nat) (l : Listener V) :
    let r : Registered V := ⟨n.registrations, cell, l⟩
    let enrolled := { n with registrations := n.registrations + 1 }.emit (.registered r.serial cell)
    (n.outcomeAt cell = none ∧
      n.register cell l = ({ enrolled with waiting := n.waiting ++ [r] }, [])) ∨
      ∃ o, n.outcomeAt cell = some o ∧
        n.register cell l = enrolled.start r o (n.contextAt cell) := by
  intro r enrolled
  cases h : n.outcomeAt cell with
  | none =>
    refine .inl ⟨rfl, ?_⟩
    have h' : enrolled.outcomeAt cell = none := h
    simp only [register]
    rw [h']
    rfl
  | some o =>
    refine .inr ⟨o, rfl, ?_⟩
    have h' : enrolled.outcomeAt cell = some o := h
    simp only [register]
    rw [h']
    rfl

theorem extends_register (cell : Nat) (l : Listener V) : n.Extends (n.register cell l).1 := by
  rcases n.register_cases cell l with ⟨-, h⟩ | ⟨o, -, h⟩
  · rw [h]
    exact .of_cells rfl
  · rw [h]
    exact (extends_start _ _ o _).congr_left rfl

theorem names_register (cell : Nat) (l : Listener V) : (n.register cell l).1.names = n.names := by
  rcases n.register_cases cell l with ⟨-, h⟩ | ⟨o, -, h⟩
  · rw [h]
    rfl
  · rw [h]
    exact names_start ..

theorem dropCompleter_cases (name : String) :
    (n.completers.find? name = none ∧ n.dropCompleter name = (n, [], false)) ∨
      ∃ cell, n.completers.find? name = some cell ∧
        n.dropCompleter name = (n.without name).settle cell (.abandoned (n.contextAt cell)) := by
  unfold dropCompleter takeCompleter
  cases h : n.completers.find? name with
  | none => exact .inl ⟨rfl, rfl⟩
  | some cell => exact .inr ⟨cell, rfl, rfl⟩

theorem extends_dropCompleter (name : String) : n.Extends (n.dropCompleter name).1 := by
  rcases n.dropCompleter_cases name with ⟨-, h⟩ | ⟨cell, -, h⟩
  · rw [h]
    exact .refl n
  · rw [h]
    exact (extends_settle _ cell _).congr_left rfl

theorem names_dropCompleter (name : String) : (n.dropCompleter name).1.names = n.names := by
  rcases n.dropCompleter_cases name with ⟨-, h⟩ | ⟨cell, -, h⟩
  · rw [h]
  · rw [h]
    exact names_settle ..

theorem extends_addPending (name : String) (context : Option Context) :
    (n.addCell ⟨context, none⟩).1.Extends (n.addPending name context).1 := by
  have h := extends_dropCompleter
    { (n.addCell ⟨context, none⟩).1 with names := n.names.bind name n.cells.length } name
  exact ⟨h.kept⟩

end Network

namespace Ledger
variable {v v' : Ledger V}

theorem Move.extends (h : v.Move v') : v.network.Extends v'.network := by
  cases h with
  | quiet h => exact .of_cells h.cells
  | settled name context o =>
    have h := v.network.extends_addCell ⟨context, some o⟩
    exact h.trans (.of_cells rfl)
  | pending name context =>
    have h := v.network.extends_addCell ⟨context, none⟩
    exact h.trans (v.network.extends_addPending name context)
  | @adapt source context h =>
    have h := v.network.extends_addCell ⟨some context, none⟩
    exact h.trans (Network.extends_register _ source _)
  | @listen cell l => exact v.network.extends_register cell l
  | @await as cell h =>
    exact (Network.extends_register (v.network.awaiting as cell) cell .receiver).congr_left rfl
  | @release name cell o h =>
    exact (Network.extends_settle (v.network.without name) cell o).congr_left rfl
  | @start d due h => exact v.network.extends_start d.registered d.outcome d.context

theorem moves_extends (h : ReflTransGen Move v v') : v.network.Extends v'.network := by
  induction h with
  | refl => exact .refl _
  | tail _ h ih => exact ih.trans h.extends

theorem has_settle (v : Ledger V) (cell : Nat) (o : Outcome V) {r : Registered V}
    (h : (v.after (v.network.settle cell o).1 (v.network.settle cell o).2.1).Has r) : v.Has r := by
  rcases v.network.settle_cases cell o with ⟨context, -, hs⟩ | hs
  · rw [hs] at h
    rcases h with hr | ⟨d, hd, rfl⟩
    · exact .inl (List.mem_filter.mp hr).1
    · rcases List.mem_append.mp hd with hd | hd
      · rw [dueOn_delivering] at hd
        obtain ⟨r, hr, rfl⟩ := List.mem_map.mp hd
        exact .inl (List.mem_filter.mp hr).1
      · exact .inr ⟨d, hd, rfl⟩
  · rw [hs] at h
    exact h

theorem named_bind {n n' : Network V} {c : Cell V} (name : String) (h : n.Named)
    (he : (n.addCell c).1.Extends n') (hs : n'.names = n.names.bind name n.cells.length) :
    n'.Named := by
  intro other cell hc
  rw [hs, Names.find?_bind] at hc
  split at hc
  · obtain rfl := Option.some.inj hc
    apply he.lt
    show n.cells.length < (n.cells ++ [c]).length
    rw [List.length_append]
    exact Nat.lt_add_one _
  · exact he.lt ((n.extends_addCell c).lt (h other cell hc))

theorem Move.named (hn : v.network.Named) (h : v.Move v') : v'.network.Named := by
  have he := h.extends
  cases h with
  | quiet h =>
    intro name cell hc
    rcases h.names name cell hc with hc | hc
    · exact he.lt (hn name cell hc)
    · exact he.lt hc
  | settled name context o => exact named_bind (c := ⟨context, some o⟩) name hn (.of_cells rfl) rfl
  | pending name context =>
    apply named_bind name hn (v.network.extends_addPending name context)
    exact Network.names_dropCompleter _ name
  | @adapt source context h => exact he.named hn (Network.names_register _ source _)
  | @listen cell l => exact he.named hn (Network.names_register _ cell l)
  | @await as cell h =>
    exact he.named hn (Network.names_register (v.network.awaiting as cell) cell .receiver)
  | @release name cell o h =>
    exact he.named hn (Network.names_settle (v.network.without name) cell o)
  | @start d due h => exact he.named hn (v.network.names_start d.registered d.outcome d.context)

theorem moves_named (hn : v.network.Named) (h : ReflTransGen Move v v') : v'.network.Named := by
  induction h with
  | refl => exact hn
  | tail _ h ih => exact h.named ih

end Ledger

/-! ### What a step of a run does -/

theorem Network.perform_moves (n : Network V) (hn : n.Named) (due : List (Due V)) (a : Action V) :
    ReflTransGen Ledger.Move ⟨n, due⟩
      (Ledger.after ⟨n, due⟩ (n.perform a).1 (n.perform a).2.1) := by
  cases a with
  | pending name token =>
    refine .tail (.single (.quiet (n.quiet_freshContext token))) ?_
    exact .pending name (some (n.freshContext token).2)
  | response name => exact .single (.pending name none)
  | settled name o token =>
    refine .tail (.single (.quiet (n.quiet_freshContext token))) ?_
    exact .settled name (some (n.freshContext token).2) o
  | settledResponse name o => exact .single (.settled name none o)
  | adapt source name token =>
    simp only [perform]
    split
    · exact .refl
    · rename_i cell hc
      have hf := n.quiet_freshContext token
      have hlt : cell < (n.freshContext token).1.cells.length := hn source cell hc
      have hm : Ledger.Move ⟨(n.freshContext token).1, due⟩ _ := .adapt (n.freshContext token).2 hlt
      refine .tail (.tail (.single (.quiet hf)) hm) (.quiet (Network.quiet_bind _ name ?_))
      -- the name is given to the cell that the adapter was made for
      apply (Network.extends_register _ cell _).lt
      show n.cells.length < (n.cells ++ [_]).length
      rw [List.length_append]
      exact Nat.lt_add_one _
  | clone source name =>
    simp only [perform]
    split
    · exact .refl
    · rename_i cell hc
      exact .single (.quiet (n.quiet_bind name (hn source cell hc)))
  | complete name o =>
    simp only [perform, takeCompleter]
    cases h : n.completers.find? name with
    | none => exact .refl
    | some cell => exact .single (.release o h)
  | abandon name =>
    simp only [perform]
    split
    · exact .refl
    · rcases n.dropCompleter_cases name with ⟨-, h⟩ | ⟨cell, hc, h⟩
      · rw [h]
        exact .refl
      · rw [h]
        exact .single (.release _ hc)
  | listen name tag steps panics =>
    simp only [perform]
    split
    · exact .refl
    · rename_i cell hc
      have hl : ∀ into, Listener.script tag steps panics ≠ .adapter into := by
        intro into h
        cases h
      exact .single (.listen hl (hn name cell hc))
  | wait name as =>
    simp only [perform]
    split
    · exact .refl
    · rename_i cell hc
      exact .tail (.single (.await as (hn name cell hc))) (.quiet (Network.quiet_poll _ as))
  | poll as => exact .single (.quiet (n.quiet_poll as))
  | completer | get | getTimeout | isDone | describe | context | block | join =>
    simp only [perform]
    repeat' split
    all_goals first | exact .refl | exact .single (.quiet { Network.Quiet.refl n with })

/-- A panic never leaves a delivery, so the listeners that are due stay so. -/
theorem dueOn_caught (fs : List (Frame V)) :
    match caught? Frame.panicRecord? fs with
    | none => dueOn fs = []
    | some (_, below) => dueOn below = dueOn fs := by
  induction fs with
  | nil => rfl
  | cons f fs ih =>
    cases f with
    | body | answering => exact ih
    | delivering => rfl

namespace Machine
variable {m m' : Machine V}

theorem unwind_move (m : Machine V) : m.ledger.Move m.unwind.ledger := by
  have hc := dueOn_caught m.stack
  unfold unwind ledger
  split
  · rename_i h
    rw [h] at hc
    rw [hc]
    exact .quiet (.refl _)
  · rename_i r below h
    rw [h] at hc
    rw [← hc]
    exact .quiet (m.network.quiet_log r)

theorem step_moves (hn : m.network.Named) (h : m.step = some m') :
    ReflTransGen Ledger.Move m.ledger m'.ledger := by
  obtain ⟨n, stack, answer⟩ := m
  cases stack with
  | nil => cases h
  | cons f below =>
    cases f with
    | body tag steps panics =>
      cases steps with
      | cons a steps =>
        obtain rfl := Option.some.inj h
        rw [ledger, ledger, dueOn_append]
        exact n.perform_moves hn (dueOn below) a
      | nil =>
        obtain rfl := Option.some.inj h
        split
        · exact .single (unwind_move ⟨n, below, answer⟩)
        · exact .refl
    | answering tag answer =>
      obtain rfl := Option.some.inj h
      exact .single (.quiet (n.quiet_emit rfl))
    | delivering o context rest position total =>
      cases rest with
      | nil =>
        obtain rfl := Option.some.inj h
        exact .refl
      | cons r rest =>
        obtain rfl := Option.some.inj h
        rw [ledger, ledger, dueOn_append]
        exact .single (.start (d := ⟨r, o, context⟩) rfl)

theorem step_eq_none (h : m.step = none) : m.stack = [] := by
  obtain ⟨n, stack, answer⟩ := m
  cases stack with
  | nil => rfl
  | cons f below =>
    cases f with
    | body tag steps => cases steps <;> cases h
    | answering => cases h
    | delivering o context rest => cases rest <;> cases h

/-- The next moment of a run: a step of what is under way, or the next call when nothing is. -/
inductive Next (m : Machine V) : Machine V → Prop
  | step {m' : Machine V} (h : m.step = some m') : Next m m'
  | call (h : m.stack = []) (a : Action V) :
      Next m ⟨(m.network.perform a).1, (m.network.perform a).2.1, (m.network.perform a).2.2⟩

def fresh : Machine V := ⟨{}, [], .nothing⟩

theorem Next.moves (hn : m.network.Named) (h : m.Next m') :
    ReflTransGen Ledger.Move m.ledger m'.ledger := by
  cases h with
  | step h => exact step_moves hn h
  | call h a =>
    have hm := m.network.perform_moves hn (dueOn m.stack) a
    rw [Ledger.after, h] at hm
    rw [ledger, h]
    rwa [dueOn_nil, List.append_nil] at hm

theorem moments_moves (hn : m.network.Named) (h : ReflTransGen Next m m') :
    ReflTransGen Ledger.Move m.ledger m'.ledger := by
  induction h with
  | refl => exact .refl
  | tail _ h ih => exact ih.trans (h.moves (Ledger.moves_named hn ih))

/-- A run ends with nothing under way. -/
theorem run_moments (m : Machine V) : ReflTransGen Next m m.run ∧ m.run.stack = [] := by
  induction m using Machine.run.induct with
  | case1 m h =>
    rw [run, h]
    exact ⟨.refl, step_eq_none h⟩
  | case2 m m' h ih =>
    rw [run, h]
    exact ⟨.head (.step h) ih.1, ih.2⟩

end Machine

namespace Network

theorem run_perform (n : Network V) (a : Action V) :
    let m : Machine V := ⟨(n.perform a).1, (n.perform a).2.1, (n.perform a).2.2⟩
    ReflTransGen Machine.Next m ⟨(n.call a).1, [], (n.call a).2⟩ := by
  intro m
  obtain ⟨hr, he⟩ := Machine.run_moments m
  have hm : m.run = ⟨(n.call a).1, [], (n.call a).2⟩ := by
    rw [← he]
    rfl
  exact hm ▸ hr

/-- What a call leaves is a moment of a run; the answer of the call before is what a moment keeps of the
past. -/
theorem call_moments (n : Network V) (a : Action V) (answer : Answer V) :
    ReflTransGen Machine.Next ⟨n, [], answer⟩ ⟨(n.call a).1, [], (n.call a).2⟩ :=
  (n.run_perform a).head (.call rfl a)

theorem calls_moments (n : Network V) (as : List (Action V)) (answer : Answer V) :
    ∃ last, ReflTransGen Machine.Next ⟨n, [], answer⟩ ⟨(n.calls as).1, [], last⟩ := by
  induction as generalizing n answer with
  | nil => exact ⟨answer, .refl⟩
  | cons a as ih =>
    obtain ⟨last, hl⟩ := ih (n.call a).1 (n.call a).2
    exact ⟨last, (n.call_moments a answer).trans hl⟩

end Network
end ReplicaRouting.Result
