import ReplicaRouting.Proofs.Result.Adapter
/-!
No cell is left behind. A completer that has not been used settles its cell, by its use or by its drop, and
when none is left every cell is settled and every listener has been started.
-/

namespace ReplicaRouting.Result

open Relation (ReflTransGen)

/-! ### Panics stay within a settlement -/

def Frame.IsDelivery : Frame V → Prop
  | .delivering .. => True
  | _ => False

/-- The outermost frame, if there is one, is a delivery. -/
def Contained (fs : List (Frame V)) : Prop := ∀ f ∈ fs.getLast?, f.IsDelivery

section Contained
variable {f : Frame V} {fs below : List (Frame V)}

theorem Contained.tail (h : Contained (f :: below)) : Contained below := by
  intro g hg
  apply h g
  rw [List.getLast?_cons, hg]
  rfl

theorem Contained.turn (h : Contained (f :: below)) {g : Frame V}
    (hg : f.IsDelivery → g.IsDelivery) : Contained (g :: below) := by
  intro x hx
  have hf := h (below.getLast?.getD f) (by rw [List.getLast?_cons]; rfl)
  rw [List.getLast?_cons] at hx
  obtain rfl := Option.some.inj hx
  cases hb : below.getLast? with
  | none =>
    rw [hb] at hf
    exact hg hf
  | some y =>
    rw [hb] at hf
    exact hf

theorem Contained.push (h : Contained (f :: below)) (fs : List (Frame V)) :
    Contained (fs ++ f :: below) := by
  intro x hx
  rw [List.getLast?_append, List.getLast?_cons, Option.some_or, ← List.getLast?_cons] at hx
  exact h x hx

theorem Contained.caught (h : Contained fs) (hne : fs ≠ []) :
    ∃ record below, caught? Frame.panicRecord? fs = some (record, below) ∧ Contained below := by
  induction fs with
  | nil => exact absurd rfl hne
  | cons f fs ih =>
    rw [caught?]
    split
    · rename_i record _
      exact ⟨record, f :: fs, rfl, h⟩
    · rename_i hf
      apply ih h.tail
      rintro rfl
      -- a frame that lets panics through is not the outermost one
      have hd := h f rfl
      cases f with
      | delivering => cases hf
      | body | answering => exact hd

end Contained

namespace Machine
variable {m m' : Machine V}

theorem step_contained (hc : Contained m.stack) (h : m.step = some m') :
    Contained m'.stack ∧ m'.answer = m.answer := by
  obtain ⟨n, stack, answer⟩ := m
  cases stack with
  | nil => cases h
  | cons f below =>
    cases f with
    | body tag steps panics =>
      cases steps with
      | cons a steps =>
        obtain rfl := Option.some.inj h
        have hb : Contained (.body tag steps panics :: below) := hc.turn fun hf => hf
        have ha : Contained (.answering tag (n.perform a).2.2 :: .body tag steps panics :: below) :=
          hb.push [.answering tag (n.perform a).2.2]
        exact ⟨ha.push _, rfl⟩
      | nil =>
        obtain rfl := Option.some.inj h
        split
        · by_cases hne : below = []
          · subst hne
            exact nomatch hc _ rfl
          · obtain ⟨record, rest, hr, hrest⟩ := hc.tail.caught hne
            rw [unwind, hr]
            exact ⟨hrest, rfl⟩
        · exact ⟨hc.tail, rfl⟩
    | answering tag answer =>
      obtain rfl := Option.some.inj h
      exact ⟨hc.tail, rfl⟩
    | delivering o context rest position total =>
      cases rest with
      | nil =>
        obtain rfl := Option.some.inj h
        exact ⟨hc.tail, rfl⟩
      | cons r rest =>
        obtain rfl := Option.some.inj h
        have hd : Contained (.delivering o context rest (position + 1) total :: below) :=
          hc.turn fun _ => trivial
        exact ⟨hd.push _, rfl⟩

theorem run_answer (m : Machine V) (hc : Contained m.stack) : m.run.answer = m.answer := by
  induction m using Machine.run.induct with
  | case1 m h => rw [run, h]
  | case2 m m' h ih =>
    obtain ⟨hc', ha⟩ := step_contained hc h
    rw [run, h]
    exact (ih hc').trans ha

end Machine

/-! ### Completers in use -/

/-- The action drops the completer that is kept under a name, if there is one. -/
def Action.drops (name : String) : Action V → Prop
  | .abandon other | .pending other _ | .response other => other = name
  | _ => False

namespace Network
variable {n : Network V} {name : String} {cell : Nat}

theorem settle_contained (cell : Nat) (o : Outcome V) : Contained (n.settle cell o).2.1 := by
  rcases n.settle_cases cell o with ⟨context, -, hs⟩ | hs
  · rw [hs]
    rintro f ⟨⟩
    trivial
  · rw [hs]
    exact nofun

theorem complete_done (h : n.completers.find? name = some cell) (hp : n.isPending cell = true)
    (o : Outcome V) :
    (n.perform (.complete name o)).2.2 = .flag true ∧
      (n.perform (.complete name o)).1.outcomeAt cell = some o := by
  have hs := settle_done (n := n.without name) hp o
  simp only [perform, takeCompleter, h, Option.map_some]
  exact ⟨congrArg Answer.flag hs.1, hs.2⟩

theorem drop_done (h : n.completers.find? name = some cell) (hp : n.isPending cell = true) :
    (n.dropCompleter name).1.outcomeAt cell = some (.abandoned (n.contextAt cell)) := by
  rcases n.dropCompleter_cases name with ⟨hf, -⟩ | ⟨other, hf, hd⟩
  · rw [h] at hf
    cases hf
  · obtain rfl := Option.some.inj (h.symm.trans hf)
    rw [hd]
    exact (settle_done (n := n.without name) hp _).2

theorem addPending_done (h : n.completers.find? name = some cell) (hp : n.isPending cell = true)
    (context : Option Context) :
    (n.addPending name context).1.outcomeAt cell = some (.abandoned (n.contextAt cell)) := by
  obtain ⟨old, hc⟩ := isPending_iff.mp hp
  let n' : Network V := { (n.addCell ⟨context, none⟩).1 with
    names := n.names.bind name n.cells.length }
  have hcell : n'.cells[cell]? = some ⟨old, none⟩ :=
    (List.getElem?_append_left (List.getElem?_eq_some_iff.mp hc).1).trans hc
  have hcontext : n'.contextAt cell = n.contextAt cell := by
    rw [contextAt, contextAt, hcell, hc]
  have hd := drop_done (n := n') h (isPending_iff.mpr ⟨old, hcell⟩)
  exact hcontext ▸ hd

theorem drops_done (h : n.completers.find? name = some cell) (hp : n.isPending cell = true)
    {a : Action V} (ha : a.drops name) :
    (n.perform a).1.outcomeAt cell = some (.abandoned (n.contextAt cell)) := by
  cases a with
  | abandon other =>
    obtain rfl : other = name := ha
    have hs : ¬ (n.completers.find? other).isNone = true := by rw [h]; exact nofun
    rw [perform, if_neg hs]
    exact drop_done h hp
  | pending other token =>
    obtain rfl : other = name := ha
    exact addPending_done (n := (n.freshContext token).1) h hp _
  | response other =>
    obtain rfl : other = name := ha
    exact addPending_done h hp none
  | _ => exact ha.elim

end Network

namespace Machine
variable {m m' : Machine V}

theorem moments_pending (h : ReflTransGen Next fresh m) {name : String} {cell : Nat}
    (hc : m.network.completers.find? name = some cell) : m.network.isPending cell = true :=
  ((moments_linear h).taken hc).isPending (List.mem_cons_self ..)

/-- The use of a completer is confirmed, whatever the listeners of its cell do. -/
theorem call_complete (h : ReflTransGen Next fresh m) {name : String} {cell : Nat}
    (hc : m.network.completers.find? name = some cell) (o : Outcome V) :
    (m.network.call (.complete name o)).2 = .flag true := by
  have hd := m.network.complete_done hc (moments_pending h hc) o
  refine (run_answer _ ?_).trans hd.1
  show Contained (m.network.perform (.complete name o)).2.1
  simp only [Network.perform, Network.takeCompleter, hc, Option.map_some]
  exact Network.settle_contained cell o

theorem Performs.network {a : Action V} (h : m.Performs a m') :
    m'.network = (m.network.perform a).1 :=
  congrArg Ledger.network h.ledger

theorem Adapted.dropped {source into : Nat} {context : Context} (h : m.Adapted source into context)
    {name : String} (hc : m.network.completers.find? name = some source)
    (hs : m.network.contextAt source = none) {a : Action V} (ha : a.drops name)
    (hp : m.Performs a m') {later : Machine V} (hl : ReflTransGen Next m' later)
    (hrest : later.stack = []) :
    later.network.outcomeAt into =
      some (.failed (.router ⟨.replicationFailure, TransportError.abandoned.text⟩)) := by
  have hlater : later.Adapted source into context := (h.later hp.next).moments hl
  have hd := m.network.drops_done hc (moments_pending h.reachable hc) ha
  rw [← hp.network, hs] at hd
  have hnamed := (moments_agreed (h.later hp.next).reachable).1
  have hsource := (Ledger.moves_extends (moments_moves hnamed hl)).outcomeAt hd
  have hfollows := hlater.follows.at_rest (moments_linear hlater.reachable).owned
    (moments_agreed hlater.reachable).2 (due_at_rest hrest)
  exact hfollows.trans (congrArg (Option.map _) hsource)

/-- At each moment of each run. With nothing under way a cell has one completer that may still be used if it
is pending and none if it is settled, and a result is pending as long as its response is. A completer under
a name settles its cell whenever it is used, and says so; if it goes in another way, its cell is abandoned,
and the result of an abandoned response has failed with the text of the transport. A completer that was
handed to an adapter is never refused either. When no completer is left under a name, every cell is settled
and every listener was started. -/
theorem no_cell_stranded (h : ReflTransGen Next fresh m) :
    (m.stack = [] → ∀ cell < m.network.cells.length,
      m.network.armed cell = if (m.network.outcomeAt cell).isNone then 1 else 0) ∧
    (m.stack = [] → ∀ source into context, m.Adapted source into context →
      (m.network.outcomeAt into = none ↔ m.network.outcomeAt source = none)) ∧
    (∀ name cell, m.network.completers.find? name = some cell →
      (∀ o, (m.network.perform (.complete name o)).2.2 = .flag true ∧
        (m.network.perform (.complete name o)).1.outcomeAt cell = some o ∧
        (m.stack = [] → (m.network.call (.complete name o)).2 = .flag true)) ∧
      (∀ a, a.drops name →
        (m.network.perform a).1.outcomeAt cell = some (.abandoned (m.network.contextAt cell)) ∧
        (m.network.contextAt cell = none → ∀ into context, m.Adapted cell into context →
          ∀ m', m.Performs a m' → ∀ later, ReflTransGen Next m' later → later.stack = [] →
            later.network.outcomeAt into =
              some (.failed (.router ⟨.replicationFailure, TransportError.abandoned.text⟩))))) ∧
    (∀ r, m.ledger.Has r → ∀ into ∈ r.listener.captured, ∀ o,
      (m.network.settle into o).2.2 = true) ∧
    (m.stack = [] → m.network.completers = [] →
      (∀ cell < m.network.cells.length, (m.network.outcomeAt cell).isSome) ∧
      ∀ serial cell, (serial, cell) ∈ registeredIn m.network.trace →
        (serial, cell) ∈ startedIn m.network.trace) := by
  obtain ⟨hn, hv⟩ := moments_agreed h
  have ho := (moments_linear h).owned
  refine ⟨?_, ?_, ?_, ?_, ?_⟩
  · intro hs cell hlt
    have hc := ho.armed cell
    rw [Ledger.unstarted_at_rest _ (due_at_rest hs)] at hc
    rw [← Network.isPending_eq hlt]
    exact hc
  · intro hs source into context ha
    have hf := ha.follows.at_rest ho hv (due_at_rest hs)
    have hiff : m.network.outcomeAt into = none ↔ m.network.outcomeAt source = none := by
      show m.ledger.network.outcomeAt into = none ↔ _
      rw [hf, Option.map_eq_none_iff]
      rfl
    exact hiff
  · intro name cell hc
    have hp := moments_pending h hc
    constructor
    · intro o
      have hd := m.network.complete_done hc hp o
      exact ⟨hd.1, hd.2, fun _ => call_complete h hc o⟩
    · intro a ha
      refine ⟨m.network.drops_done hc hp ha, ?_⟩
      intro hs into context hadapted m' hperforms later hl hrest
      exact hadapted.dropped hc hs ha hperforms hl hrest
  · intro r hr into hi o
    exact (Network.settle_done (ho.isPending_captured (m.ledger.mem_unstarted.mpr hr) hi) o).1
  -- a cell is pending for a completer, or for an adapter whose source is pending
  · intro hs hnone
    have hempty : Ledger.Owned [] m.ledger := by
      rw [show m.ledger.network.completers = [] from hnone] at ho
      exact ho
    have hall : ∀ cell < m.network.cells.length, (m.network.outcomeAt cell).isSome := by
      intro cell hlt
      have hp : m.network.isPending cell = false := hempty.settled hv (due_at_rest hs) cell
      rw [Network.isPending_eq hlt] at hp
      rwa [← Option.not_isNone, Bool.not_eq_true']
    refine ⟨hall, fun serial cell hr => ?_⟩
    exact (hv.started_iff (due_at_rest hs) hr).mpr (hall cell (hv.cell_of_registered hr))

/-- A listener of a response drops the other completer and panics; the response is dropped itself. -/
theorem no_cell_stranded_dropped :
    let before : List (Action String) := [.pending "q" none, .response "r"]
    let n := (({} : Network String).calls (before ++ .adapt "r" "a" none ::
      [.listen "r" "last" [.abandon "q"] true])).1
    let dropped := (n.call (.abandon "r")).1
    [0, 1, 2].map n.armed = [1, 1, 1] ∧ (n.call (.complete "q" (.value "v"))).2 = .flag true ∧
      dropped.outcomeAt 2 =
        some (.failed (.router ⟨.replicationFailure, TransportError.abandoned.text⟩)) ∧
      dropped.completers = [] ∧ (∀ cell < dropped.cells.length, (dropped.outcomeAt cell).isSome) := by
  intro before n dropped
  have hs : (({} : Network String).calls before).1.names.find? "r" = some 1 := by decide +kernel
  have hcells : (({} : Network String).calls before).1.cells.length = 2 := by decide +kernel
  obtain ⟨last, hadapted⟩ := Network.calls_adapted hs "a" none [.listen "r" "last" [.abandon "q"] true]
  rw [hcells] at hadapted
  obtain ⟨harmed, -, hheld, -⟩ := no_cell_stranded hadapted.reachable
  have hlater := n.run_perform (.abandon "r")
  obtain ⟨-, -, -, -, hall⟩ := no_cell_stranded
    ((hadapted.later (.call rfl (.abandon "r"))).moments hlater).reachable
  have hnone : dropped.completers = [] := by decide +kernel
  have hq : n.completers.find? "q" = some 0 := by decide +kernel
  have hr : n.completers.find? "r" = some 1 := by decide +kernel
  refine ⟨?_, ((hheld "q" 0 hq).1 (.value "v")).2.2 rfl, ?_, hnone, (hall rfl hnone).1⟩
  · have hlength : n.cells.length = 3 := by decide +kernel
    have hpending : ∀ cell < 3, n.outcomeAt cell = none := by decide +kernel
    have hone : ∀ cell < 3, n.armed cell = 1 := by
      intro cell hlt
      have hc : n.armed cell = _ := harmed rfl cell (hlength.symm ▸ hlt)
      rw [hc]
      exact congrArg (fun o? : Option (Outcome String) => if o?.isNone then 1 else 0)
        (hpending cell hlt)
    rw [List.map_cons, List.map_cons, List.map_singleton, hone 0 (by decide), hone 1 (by decide),
      hone 2 (by decide)]
  · have hcontext : n.contextAt 1 = none := by decide +kernel
    exact ((hheld "r" 1 hr).2 (.abandon "r") rfl).2 hcontext 2 _ hadapted _ (.call rfl)
      ⟨dropped, [], (n.call (.abandon "r")).2⟩ hlater rfl

end Machine
end ReplicaRouting.Result
