import ReplicaRouting.Proofs.Result.Order
/-!
A waiting listener without the panic at its end. Until the listener has had its turn nothing tells that it is
another one; its turn goes the same way, but for the line of the panic; and after that nothing is different but
the past.
-/

namespace ReplicaRouting.Result

open Relation (ReflTransGen)

variable {V : Type}

def Listener.hush : Listener V → Listener V
  | .script tag steps _ => .script tag steps false
  | l => l

def Registered.hush (serial : Nat) (r : Registered V) : Registered V :=
  if r.serial = serial then { r with listener := r.listener.hush } else r

namespace Registered
variable {serial : Nat} {r : Registered V}

theorem hush_cell (serial : Nat) (r : Registered V) : (r.hush serial).cell = r.cell := by
  unfold hush
  split <;> rfl

theorem hush_other (h : r.serial ≠ serial) : r.hush serial = r := if_neg h

theorem hush_cases (serial : Nat) (r : Registered V) :
    r.hush serial = r ∨ ∃ cell tag steps, r = ⟨serial, cell, .script tag steps true⟩ ∧
      r.hush serial = ⟨serial, cell, .script tag steps false⟩ := by
  obtain ⟨other, cell, listener⟩ := r
  unfold hush
  split
  · rename_i h
    obtain rfl : other = serial := h
    cases listener with
    | script tag steps panics =>
      cases panics with
      | false => exact .inl rfl
      | true => exact .inr ⟨cell, tag, steps, rfl, rfl⟩
    | adapter | recorder | receiver => exact .inl rfl
  · exact .inl rfl

theorem map_hush {rs : List (Registered V)} (h : ∀ r ∈ rs, r.serial ≠ serial) : rs.map (hush serial) = rs :=
  (List.map_congr_left fun r hr => hush_other (h r hr)).trans (List.map_id rs)

end Registered

namespace Ledger
variable {v v' : Ledger V}

theorem Agreed.key_eq (hv : v.Agreed) {serial cell : Nat} (h : (serial, cell) ∈ registeredIn v.network.trace)
    {r : Registered V} (hr : v.Has r) (hs : r.serial = serial) : r.key = (serial, cell) := by
  have hnodup : ((registeredIn v.network.trace).map (·.1)).Nodup := hv.serials ▸ List.nodup_range
  exact List.inj_on_of_nodup_map hnodup (hv.registered_of_has hr) h hs

theorem Agreed.started_gone (hv : v.Agreed) {serial cell : Nat} (h : (serial, cell) ∈ startedIn v.network.trace)
    {r : Registered V} (hr : v.Has r) : r.serial ≠ serial := by
  intro hs
  have hkey : r.key = (serial, cell) := hv.key_eq (hv.registered_of_started h) hr hs
  have hplaces := hv.places_le_one (serial, cell)
  have hstarted := List.count_pos_iff.mpr h
  rcases hr with hr | ⟨d, hd, rfl⟩
  · have hwaiting : (serial, cell) ∈ v.network.waiting.map (·.key) := List.mem_map.mpr ⟨r, hr, hkey⟩
    have hcount := List.count_pos_iff.mpr hwaiting
    unfold places at hplaces
    omega
  · have hdue : (serial, cell) ∈ v.due.map (·.registered.key) := List.mem_map.mpr ⟨d, hd, hkey⟩
    have hcount := List.count_pos_iff.mpr hdue
    unfold places at hplaces
    omega

end Ledger

namespace Machine
variable {m m' : Machine V} {serial : Nat}

theorem recast_hush (h : ∀ r, m.ledger.Has r → r.serial ≠ serial) :
    m.recast (Registered.hush serial) [] = m := by
  obtain ⟨n, stack, answer⟩ := m
  have hwaiting : n.waiting.map (Registered.hush serial) = n.waiting :=
    Registered.map_hush fun r hr => h r (.inl hr)
  have hstack : stack.map (Frame.recast (Registered.hush serial)) = stack := by
    refine (List.map_congr_left fun g hg => ?_).trans (List.map_id stack)
    cases g with
    | delivering o c rest position total =>
      have hrest : rest.map (Registered.hush serial) = rest := by
        refine Registered.map_hush fun r hr => h r (.inr ⟨⟨r, o, c⟩, ?_, rfl⟩)
        exact List.mem_flatMap.mpr ⟨_, hg, List.mem_map.mpr ⟨r, hr, rfl⟩⟩
      rw [Frame.recast, hrest]
      rfl
    | body | answering => rfl
  rw [recast, Network.recast, hwaiting, hstack]
  rfl

/-- The listener has had its turn, at this position of so many that were registered on the cell. -/
structure Turned (serial cell position total : Nat) (past : List (Entry V)) : Prop where
  started : (serial, cell) ∈ startedIn past
  position : ((registeredOn cell past).take total)[position]? = some (serial, cell)
  total : total ≤ (registeredOn cell past).length

/-- The second machine does what the first one does, the listener being without the panic at its end: it has
yet to start, or the past is the same but for the line of its panic. -/
inductive Hushed (serial cell : Nat) (m : Machine V) : Machine V → Prop
  | same : Hushed serial cell m (m.recast (Registered.hush serial) [])
  | line {n : Network V} {past : List (Entry V)} {position total : Nat}
    (hn : m.network = n.since (past ++ [.logged (panicLine position total)]))
    (ht : Turned serial cell position total past) :
      Hushed serial cell m ⟨n.since past, m.stack, m.answer⟩

theorem hushed_turn (n : Network V) (o : Outcome V) (c : Option Context) (total position cell : Nat) (tag : String)
    (steps : List (Action V)) :
    n.turn o c total position ⟨serial, cell, .script tag steps true⟩ =
        n.turn o c total position ⟨serial, cell, .script tag steps false⟩ ∨
      n.turn o c total position ⟨serial, cell, .script tag steps true⟩ =
        (n.turn o c total position ⟨serial, cell, .script tag steps false⟩).log (panicLine position total) := by
  let begun := n.emit (.started serial cell (some tag) o c)
  have htrue : n.turn o c total position ⟨serial, cell, .script tag steps true⟩ =
      (begun.play [.body tag steps false]).1.log (panicLine position total) := by
    have hp := begun.play_panics tag steps
    show (if (begun.play [.body tag steps true]).2 then (begun.play [.body tag steps true]).1.log _
      else (begun.play [.body tag steps true]).1) = _
    rw [hp]
    rfl
  have hfalse : n.turn o c total position ⟨serial, cell, .script tag steps false⟩ =
      if (begun.play [.body tag steps false]).2 then
        (begun.play [.body tag steps false]).1.log (panicLine position total)
      else (begun.play [.body tag steps false]).1 := rfl
  rw [htrue, hfalse]
  split
  · exact .inl rfl
  · exact .inr rfl

theorem gone_of_started (hm : ReflTransGen Next fresh m) {cell : Nat}
    (hs : (serial, cell) ∈ startedIn m.network.history) : ∀ r, m.ledger.Has r → r.serial ≠ serial := by
  rw [← Network.startedIn_trace] at hs
  exact fun r hr => (moments_agreed hm).2.started_gone hs hr

theorem run_history (m : Machine V) : ∃ entries, m.run.network.history = m.network.history ++ entries := by
  have h := run_since m.network.history ⟨{ m.network with history := [] }, m.stack, m.answer⟩
  rw [since, m.network.since_history] at h
  exact ⟨_, congrArg (fun k : Machine V => k.network.history) h⟩

theorem Hushed.logged {n : Network V} {cell position total : Nat} (ht : Turned serial cell position total n.history)
    (stack : List (Frame V)) (answer : Answer V) :
    Hushed serial cell (Machine.run ⟨n.log (panicLine position total), stack, answer⟩)
      (Machine.run ⟨n, stack, answer⟩) := by
  let bare : Machine V := ⟨{ n with history := [] }, stack, answer⟩
  have hloud := run_since (n.history ++ [.logged (panicLine position total)]) bare
  have hquiet := run_since n.history bare
  rw [since, show bare.network.since n.history = n from n.since_history] at hquiet
  have hline : bare.network.since (n.history ++ [.logged (panicLine position total)]) =
      n.log (panicLine position total) := by
    simp only [bare, Network.since, Network.log, Network.emit, List.append_nil]
  rw [since, hline] at hloud
  rw [hloud, hquiet]
  exact .line rfl ht

theorem turned {n n' : Network V} {r : Registered V} {rest : List (Registered V)} {cell position total : Nat}
    (hr : n.Ranked (r :: rest) cell position total) {tag : Option String} {o : Outcome V} {c : Option Context}
    {entries : List (Entry V)} (hn : n'.history = n.history ++ .started r.serial r.cell tag o c :: entries) :
    Turned r.serial r.cell position total n'.history := by
  have hposition : ((registeredOn cell n.trace).take total)[position]? = some r.key := by
    rw [← List.head?_drop, hr.due]
    rfl
  have hcell : r.cell = cell :=
    of_decide_eq_true (List.mem_filter.mp (List.mem_of_mem_take (List.mem_of_getElem? hposition))).2
  have hlater : n'.Ranked (r :: rest) cell position total := hr.later hn
  have hon : ∀ n : Network V, registeredOn cell n.trace = registeredOn cell n.history :=
    fun n => congrArg (List.filter _) n.registeredIn_trace
  obtain ⟨hdue, htotal⟩ := hlater
  rw [hon] at hdue htotal
  subst hcell
  refine ⟨?_, ?_, htotal⟩
  · rw [hn]
    exact List.mem_filterMap.mpr ⟨_, List.mem_append_right _ (.head _), rfl⟩
  · rw [← List.head?_drop, hdue]
    rfl

theorem Hushed.turn {n : Network V} {o : Outcome V} {c : Option Context} {cell : Nat} {tag : String}
    {steps : List (Action V)} {rest : List (Registered V)} {position total : Nat} {below : List (Frame V)}
    {answer : Answer V} (hm : ReflTransGen Next fresh
      ⟨n, .delivering o c (⟨serial, cell, .script tag steps true⟩ :: rest) position total :: below, answer⟩) :
    Hushed serial cell
      (Machine.run
        ⟨n, .delivering o c (⟨serial, cell, .script tag steps true⟩ :: rest) position total :: below, answer⟩)
      (Machine.run (Machine.recast (Registered.hush serial) []
        ⟨n, .delivering o c (⟨serial, cell, .script tag steps true⟩ :: rest) position total :: below, answer⟩)) := by
  let loud : Registered V := ⟨serial, cell, .script tag steps true⟩
  let quiet : Registered V := ⟨serial, cell, .script tag steps false⟩
  let next : List (Frame V) := .delivering o c rest (position + 1) total :: below
  have hmem : ∀ before after : List (Entry V),
      (serial, cell) ∈ startedIn (before ++ .started serial cell (some tag) o c :: after) := fun before after =>
    List.mem_filterMap.mpr ⟨_, List.mem_append_right before (.head after), rfl⟩
  -- with the start the listener is found nowhere else
  have hstarted : ReflTransGen Next fresh
      ⟨n.emit (.started serial cell (some tag) o c), .body tag steps true :: next, answer⟩ := hm.tail (.step rfl)
  have hgone := gone_of_started hstarted (hmem n.history [])
  have hrest : (Machine.mk n next answer).recast (Registered.hush serial) [] = ⟨n, next, answer⟩ :=
    recast_hush hgone
  have hquiet : Machine.recast (Registered.hush serial) []
      ⟨n, .delivering o c (loud :: rest) position total :: below, answer⟩ =
        ⟨n, .delivering o c (quiet :: rest) position total :: below, answer⟩ := by
    have hnetwork := congrArg Machine.network hrest
    obtain ⟨hdelivering, hbelow⟩ := List.cons.inj (congrArg Machine.stack hrest)
    obtain ⟨-, -, hdue, -, -⟩ := Frame.delivering.inj hdelivering
    have hloud : loud.hush serial = quiet := if_pos rfl
    show Machine.mk (n.recast _ _)
      (.delivering o c (loud.hush serial :: rest.map _) position total :: below.map _) answer = _
    rw [hloud, hdue]
    exact congrArg₂ (fun n below => Machine.mk n (.delivering o c (quiet :: rest) position total :: below) answer)
      hnetwork hbelow
  obtain ⟨entries, -, hturn⟩ := n.turn_history o c total position quiet
  obtain ⟨on, hranked⟩ := (moments_counts hm).2 _ (.head _) o c (loud :: rest) position total rfl
  have ht : Turned serial cell position total (n.turn o c total position quiet).history :=
    turned (r := loud) hranked hturn
  have hrun := run_of_steps (steps_turn n o c loud rest position total below answer)
  rw [hquiet, hrun, run_of_steps (steps_turn n o c quiet rest position total below answer)]
  rcases hushed_turn n o c total position cell tag steps with h | h
  · have hreach := hm.trans (run_moments _).1
    obtain ⟨after, hafter⟩ := run_history ⟨n.turn o c total position quiet, next, answer⟩
    rw [hrun, h] at hreach
    rw [h]
    have hlater : (serial, cell) ∈
        startedIn (Machine.run ⟨n.turn o c total position quiet, next, answer⟩).network.history := by
      rw [hafter, startedIn_append]
      exact List.mem_append_left _ ht.started
    have hsame : Hushed serial cell (Machine.run ⟨n.turn o c total position quiet, next, answer⟩) _ := .same
    rwa [recast_hush (gone_of_started hreach hlater)] at hsame
  · rw [h]
    exact .logged ht next answer

theorem registered_later {n n' : Network V} (h : ∃ entries, n'.history = n.history ++ entries) {key : Nat × Nat}
    (hr : key ∈ registeredIn n.trace) : key ∈ registeredIn n'.trace := by
  obtain ⟨entries, he⟩ := h
  rw [Network.registeredIn_trace] at hr ⊢
  rw [he, registeredIn_append]
  exact List.mem_append_left _ hr

/-- A run of which the listener has yet to start, or has started, and the same without its panic. -/
theorem Hushed.run (hm : ReflTransGen Next fresh m) {cell : Nat}
    (hr : (serial, cell) ∈ registeredIn m.network.trace) :
    Hushed serial cell m.run (m.recast (Registered.hush serial) []).run := by
  induction m using Machine.run.induct with
  | case1 m h =>
    have hrest : m.stack = [] := step_eq_none h
    rw [run_at_rest hrest, run_at_rest (m := m.recast _ []) (congrArg (List.map _) hrest)]
    exact .same
  | case2 m m' h ih =>
    by_cases hstart : ∀ o c r rest position total below,
        m.stack = .delivering o c (r :: rest) position total :: below → r.hush serial = r
    · have hs : serial < m.network.registrations := (moments_agreed hm).2.lt_of_registered hr
      have hnew : ∀ cell l, Registered.hush serial ⟨m.network.registrations, cell, l⟩ =
          (⟨m.network.registrations, cell, l⟩ : Registered V) :=
        fun cell l => Registered.hush_other (Nat.ne_of_gt hs)
      have hstep := recast_step [] (Registered.hush_cell serial) hnew hstart
      rw [h, Option.map_some] at hstep
      rw [run_of_steps (.single h), run_of_steps (.single hstep)]
      exact ih (hm.tail (.step h)) (registered_later (step_history h) hr)
    · obtain ⟨n, stack, answer⟩ := m
      simp only [not_forall] at hstart
      obtain ⟨o, c, r, rest, position, total, below, rfl, hne⟩ := hstart
      rcases r.hush_cases serial with hsame | ⟨other, tag, steps, rfl, -⟩
      · exact absurd hsame hne
      · have hkey : (serial, other) = (serial, cell) :=
          (moments_agreed hm).2.key_eq hr (.inr ⟨⟨_, o, c⟩, .head _, rfl⟩) rfl
        obtain rfl : other = cell := congrArg (·.2) hkey
        exact .turn hm

end Machine

/-! ### Calls -/

namespace Network
variable {n n' : Network V} {serial cell : Nat}

/-- The second network is the first one but for the panic of a listener: the listener that waits, or the line
that was logged at the end of its turn. -/
inductive Silenced (serial cell : Nat) (n : Network V) : Network V → Prop
  | waits : Silenced serial cell n (n.recast (Registered.hush serial) [])
  | line {past rest : List (Entry V)} {position total : Nat}
    (hn : n.history = past ++ .logged (panicLine position total) :: rest)
    (ht : Machine.Turned serial cell position total past) :
      Silenced serial cell n { n with history := past ++ rest }

end Network

theorem Machine.Hushed.silenced {m m' : Machine V} {serial cell : Nat} (h : m.Hushed serial cell m') :
    m.network.Silenced serial cell m'.network ∧ m'.answer = m.answer := by
  cases h with
  | same => exact ⟨.waits, rfl⟩
  | @line n past position total hn ht =>
    have hhistory : m.network.history = past ++ .logged (panicLine position total) :: n.history := by
      rw [hn, Network.since, List.append_assoc]
      rfl
    have hl := Network.Silenced.line hhistory ht
    rw [hn] at hl ⊢
    exact ⟨hl, rfl⟩

namespace Network
variable {n n' : Network V} {serial cell : Nat}

theorem Silenced.call (h : n.Silenced serial cell n') {answer : Answer V}
    (hn : ReflTransGen Machine.Next Machine.fresh ⟨n, [], answer⟩) (hr : (serial, cell) ∈ registeredIn n.trace)
    (a : Action V) :
    (n.call a).1.Silenced serial cell (n'.call a).1 ∧ (n'.call a).2 = (n.call a).2 := by
  cases h with
  | waits =>
    have hs : serial < n.registrations := (Machine.moments_agreed hn).2.lt_of_registered hr
    have hnew : ∀ cell l, Registered.hush serial ⟨n.registrations, cell, l⟩ =
        (⟨n.registrations, cell, l⟩ : Registered V) :=
      fun cell l => Registered.hush_other (Nat.ne_of_gt hs)
    have hp := recast_perform [] n (Registered.hush_cell serial) hnew a
    have hrun := Machine.Hushed.run (hn.tail (.call rfl a))
      (Machine.registered_later (Machine.perform_history n a) hr)
    have hcall : (n.recast (Registered.hush serial) []).call a =
        ((Machine.recast (Registered.hush serial) []
          ⟨(n.perform a).1, (n.perform a).2.1, (n.perform a).2.2⟩).run.network,
        (Machine.recast (Registered.hush serial) []
          ⟨(n.perform a).1, (n.perform a).2.1, (n.perform a).2.2⟩).run.answer) := by
      rw [Network.call, hp]
      rfl
    rw [hcall]
    exact hrun.silenced
  | @line past rest position total hhistory ht =>
    let bare : Network V := { n with history := rest }
    have hn : bare.since (past ++ [.logged (panicLine position total)]) = n := by
      simp only [bare, since, List.append_assoc, List.singleton_append, ← hhistory]
    have hloud := bare.call_since (past ++ [.logged (panicLine position total)]) a
    have hquiet := bare.call_since past a
    rw [hn] at hloud
    rw [show ({ n with history := past ++ rest } : Network V) = bare.since past from rfl, hquiet, hloud]
    refine ⟨?_, rfl⟩
    have hlater : ((bare.call a).1.since (past ++ [.logged (panicLine position total)])).history =
        past ++ .logged (panicLine position total) :: (bare.call a).1.history := by
      rw [since, List.append_assoc]
      rfl
    exact .line hlater ht

theorem Silenced.calls (h : n.Silenced serial cell n') {answer : Answer V}
    (hn : ReflTransGen Machine.Next Machine.fresh ⟨n, [], answer⟩) (hr : (serial, cell) ∈ registeredIn n.trace)
    (as : List (Action V)) :
    (n.calls as).1.Silenced serial cell (n'.calls as).1 ∧ (n'.calls as).2 = (n.calls as).2 := by
  induction as generalizing n n' answer with
  | nil => exact ⟨h, rfl⟩
  | cons a as ih =>
    obtain ⟨hcall, hanswer⟩ := h.call hn hr a
    have hhistory : ∃ entries, (n.call a).1.history = n.history ++ entries := by
      obtain ⟨before, hb⟩ := Machine.perform_history n a
      obtain ⟨after, ha⟩ := Machine.run_history ⟨(n.perform a).1, (n.perform a).2.1, (n.perform a).2.2⟩
      exact ⟨before ++ after, by rw [← List.append_assoc, ← hb]; exact ha⟩
    obtain ⟨hcalls, hanswers⟩ := ih hcall (hn.trans (n.call_moments a answer)) (Machine.registered_later hhistory hr)
    refine ⟨hcalls, ?_⟩
    simp only [Network.calls, hanswer, hanswers]

end Network
end ReplicaRouting.Result
