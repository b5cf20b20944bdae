import Mathlib.Data.List.Perm.Subperm
import ReplicaRouting.Proofs.Result.Completion
import ReplicaRouting.Proofs.Result.Hushed
/-!
Settlements in isolation. All who wait for a cell have their turn, one after the other, whatever the others
do: a panic that escapes from one comes to a line in the log, and without it nothing else would be different.
-/

namespace ReplicaRouting.Result

open Relation (ReflTransGen)

variable {V : Type}

theorem filter_mem_of_sublist {α : Type} [BEq α] [LawfulBEq α] {ks ls : List α} (h : ks.Sublist ls) (hn : ls.Nodup) :
    ls.filter (· ∈ ks) = ks := by
  have hsub : ks.Sublist (ls.filter (· ∈ ks)) := by
    have hf := h.filter (· ∈ ks)
    rwa [List.filter_eq_self.mpr fun k hk => decide_eq_true hk] at hf
  have hle : (ls.filter (· ∈ ks)).length ≤ ks.length :=
    (List.subperm_of_subset (hn.filter _) fun k hk => of_decide_eq_true (List.mem_filter.mp hk).2).length_le
  exact (hsub.eq_of_length_le hle).symm

/-! ### Whose panic escapes -/

namespace Network
variable (n : Network V)

theorem settle_no_script {cell : Nat} {o : Outcome V} {tag : String} {steps : List (Action V)} {panics : Bool} :
    (n.settle cell o).2.1 ≠ [.body tag steps panics] := by
  rcases n.settle_cases cell o with ⟨_, -, h⟩ | h
  · rw [h]
    exact nofun
  · rw [h]
    exact nofun

theorem register_script {cell : Nat} {l : Listener V} {tag : String} {steps : List (Action V)} {panics : Bool}
    (h : (n.register cell l).2 = [.body tag steps panics]) :
    l = .script tag steps panics ∧ ∃ o, n.outcomeAt cell = some o := by
  rcases n.register_cases cell l with ⟨-, hr⟩ | ⟨o, ho, hr⟩
  · rw [hr] at h
    cases h
  · rw [hr] at h
    refine ⟨?_, o, ho⟩
    cases l with
    | script => cases h; rfl
    | adapter into => exact absurd h (settle_no_script _)
    | recorder => cases o <;> cases h
    | receiver => cases h

theorem addPending_no_script {name : String} {context : Option Context} {tag : String} {steps : List (Action V)}
    {panics : Bool} : (n.addPending name context).2 ≠ [.body tag steps panics] := by
  let named : Network V :=
    { (n.addCell ⟨context, none⟩).1 with names := n.names.bind name n.cells.length }
  show (named.dropCompleter name).2.1 ≠ _
  rcases named.dropCompleter_cases name with ⟨-, h⟩ | ⟨cell, -, h⟩
  · rw [h]
    exact nofun
  · rw [h]
    exact settle_no_script _

theorem perform_script {a : Action V} {tag : String} {steps : List (Action V)} {panics : Bool}
    (h : (n.perform a).2.1 = [.body tag steps panics]) :
    ∃ name cell o, a = .listen name tag steps panics ∧ n.names.find? name = some cell ∧
      n.outcomeAt cell = some o := by
  cases a with
  | pending name token => exact absurd h (addPending_no_script _)
  | response name => exact absurd h (addPending_no_script _)
  | settled | settledResponse | poll => cases h
  | adapt source name token =>
    simp only [perform] at h
    split at h
    · cases h
    · cases (register_script _ h).1
  | complete name o =>
    simp only [perform, takeCompleter] at h
    cases hc : n.completers.find? name with
    | none =>
      rw [hc] at h
      cases h
    | some cell =>
      rw [hc] at h
      exact absurd h (settle_no_script _)
  | abandon name =>
    simp only [perform] at h
    split at h
    · cases h
    · rcases n.dropCompleter_cases name with ⟨-, hd⟩ | ⟨cell, -, hd⟩
      · rw [hd] at h
        cases h
      · rw [hd] at h
        exact absurd h (settle_no_script _)
  | listen name tag steps panics =>
    simp only [perform] at h
    split at h
    · cases h
    · rename_i cell hcell
      obtain ⟨hl, o, ho⟩ := register_script _ h
      cases hl
      exact ⟨name, cell, o, rfl, hcell, ho⟩
  | wait name as =>
    simp only [perform] at h
    split at h
    · cases h
    · cases (register_script _ h).1
  | clone | completer | get | getTimeout | isDone | describe | context | block | join =>
    simp only [perform] at h
    repeat' split at h
    all_goals cases h

/-- A panic escapes from what an action sets off only if that is a listener that runs at once. -/
theorem perform_escapes {a : Action V} (h : ((n.perform a).1.play (n.perform a).2.1).2 = true) :
    ∃ name tag steps panics cell o, a = .listen name tag steps panics ∧ n.names.find? name = some cell ∧
      n.outcomeAt cell = some o ∧ (n.perform a).2.1 = [.body tag steps panics] := by
  have hs := n.perform_setsOff a
  generalize hf : (n.perform a).2.1 = frames at h hs
  cases hs with
  | nothing =>
    rw [play_nil] at h
    cases h
  | delivery =>
    rw [play_delivering] at h
    cases h
  | script _ tag steps panics =>
    obtain ⟨name, cell, o, ha, hname, ho⟩ := n.perform_script hf
    exact ⟨name, tag, steps, panics, cell, o, ha, hname, ho, rfl⟩

/-! ### Turn by turn -/

theorem turns_append (o : Outcome V) (c : Option Context) (total position : Nat) (rs rest : List (Registered V)) :
    n.turns o c total position (rs ++ rest) =
      (n.turns o c total position rs).turns o c total (position + rs.length) rest := by
  induction rs generalizing n position with
  | nil => rfl
  | cons r rs ih =>
    rw [List.cons_append, turns, turns, ih, List.length_cons, Nat.add_right_comm, Nat.add_assoc]

theorem turns_history (o : Outcome V) (c : Option Context) (total position : Nat) (rest : List (Registered V)) :
    ∃ entries, (n.turns o c total position rest).history = n.history ++ entries ∧
      (rest.map (·.key)).Sublist (startedIn entries) := by
  induction rest generalizing n position with
  | nil => exact ⟨[], (List.append_nil _).symm, .slnil⟩
  | cons r rest ih =>
    obtain ⟨own, -, hturn⟩ := n.turn_history o c total position r
    obtain ⟨entries, he, hs⟩ := ih (n.turn o c total position r) (position + 1)
    rw [hturn, List.append_assoc, List.cons_append] at he
    refine ⟨_, he, ?_⟩
    rw [List.map_cons]
    refine .cons_cons r.key (hs.trans ?_)
    rw [← startedIn, startedIn_append]
    exact List.sublist_append_right ..

end Network

namespace Machine
variable {m m' : Machine V}

theorem steps_moments (h : m.Steps m') : ReflTransGen Next m m' := h.lift id fun _ _ h => .step h

/-- A listener registered on a settled cell, from inside a script: it is started at once, and what it comes to
is worked off inside that script. Its panic is one of that script as well. -/
theorem step_inline {cell : Nat} {context : Option Context} {o : Outcome V}
    (hc : m.network.cells[cell]? = some ⟨context, some o⟩) {name tag outer : String} {steps next : List (Action V)}
    {panics ends : Bool} {rest : List (Frame V)} (hname : m.network.names.find? name = some cell)
    (hs : m.stack = .body outer (.listen name tag steps panics :: next) ends :: rest) :
    ∃ n : Network V,
      m.step = some ⟨n,
        .body tag steps panics :: .answering outer .nothing :: .body outer next ends :: rest, m.answer⟩ ∧
      n.history = m.network.history ++ [.registered m.network.registrations cell,
        .started m.network.registrations cell (some tag) o context] ∧
      Steps ⟨n, .body tag steps panics :: .answering outer .nothing :: .body outer next ends :: rest, m.answer⟩
        (let played := n.play [.body tag steps panics]
        if played.2 then unwind ⟨played.1, rest, m.answer⟩
        else ⟨played.1, .answering outer .nothing :: .body outer next ends :: rest, m.answer⟩) := by
  obtain ⟨n, stack, answer⟩ := m
  obtain rfl : stack = _ := hs
  have ho : n.outcomeAt cell = some o := congrArg (·.bind (·.outcome)) hc
  have hcontext : n.contextAt cell = context := congrArg (·.bind (·.context)) hc
  have hp : n.perform (.listen name tag steps panics) =
      ((n.register cell (.script tag steps panics)).1, (n.register cell (.script tag steps panics)).2, .nothing) := by
    have hname : n.names.find? name = some cell := hname
    simp only [Network.perform, hname]
  rcases n.register_cases cell (.script tag steps panics) with ⟨hpending, -⟩ | ⟨o', ho', hr⟩
  · cases ho.symm.trans hpending
  · obtain rfl := Option.some.inj (ho.symm.trans ho')
    rw [hcontext] at hr
    refine ⟨(n.register cell (.script tag steps panics)).1, ?_, ?_, ?_⟩
    · show some (Machine.mk (n.perform _).1 ((n.perform _).2.1 ++ .answering outer (n.perform _).2.2 :: _) answer) = _
      rw [hp, hr]
      rfl
    · rw [hr]
      exact List.append_assoc ..
    · exact steps_play _ [.body tag steps panics] (.answering outer .nothing :: .body outer next ends :: rest) answer

/-- What comes of the settlement of a cell, at the moment after it: those who waited have their turn in the
order in which they were registered, before the work below goes on. -/
structure Delivers (m : Machine V) (cell : Nat) (o : Outcome V) (context : Option Context)
    (due : List (Registered V)) (below : List (Frame V)) : Prop where
  next : m.stack = .delivering o context due 0 due.length :: below
  /-- Each has its turn when those before it have had theirs. -/
  passes : ∀ i ≤ due.length, m.Steps ⟨m.network.turns o context due.length 0 (due.take i),
    .delivering o context (due.drop i) i due.length :: below, m.answer⟩
  ends : m.Steps ⟨m.network.turns o context due.length 0 due, below, m.answer⟩
  /-- A turn is the start of the listener, what it comes to by itself, and a line if a panic escapes from that. -/
  turn : ∀ i r, due[i]? = some r →
    let before := m.network.turns o context due.length 0 (due.take i)
    let played := (before.start r o context).1.play (before.start r o context).2
    ∃ entries, played.1.history = before.history ++ .started r.serial cell r.listener.tag? o context :: entries ∧
      (m.network.turns o context due.length 0 (due.take (i + 1))).history =
        before.history ++ .started r.serial cell r.listener.tag? o context ::
          (entries ++ if played.2 then [.logged (panicLine i due.length)] else [])
  once : (startedIn (m.network.turns o context due.length 0 due).trace).filter (· ∈ due.map (·.key)) =
    due.map (·.key)
  /-- One who is registered from inside a script, from now on, is started at once. -/
  inline : ∀ k, ReflTransGen Next m k → ∀ name tag outer steps next panics ends rest,
    k.network.names.find? name = some cell →
    k.stack = .body outer (.listen name tag steps panics :: next) ends :: rest →
    ∃ n : Network V,
      k.step = some ⟨n,
        .body tag steps panics :: .answering outer .nothing :: .body outer next ends :: rest, k.answer⟩ ∧
      n.history = k.network.history ++ [.registered k.network.registrations cell,
        .started k.network.registrations cell (some tag) o context] ∧
      Steps ⟨n, .body tag steps panics :: .answering outer .nothing :: .body outer next ends :: rest, k.answer⟩
        (let played := n.play [.body tag steps panics]
        if played.2 then unwind ⟨played.1, rest, k.answer⟩
        else ⟨played.1, .answering outer .nothing :: .body outer next ends :: rest, k.answer⟩)

theorem Next.delivered (hm : ReflTransGen Next fresh m) (h : m.Next m') {cell : Nat} {context : Option Context}
    (hc : m.network.cells[cell]? = some ⟨context, none⟩) {o : Outcome V} (ho : m'.network.outcomeAt cell = some o) :
    ∃ below, m'.Delivers cell o context (m.network.waitingOn cell) below := by
  obtain ⟨below, hs⟩ := h.delivers hc ho
  have hm' := hm.tail h
  obtain ⟨n, stack, answer⟩ := m'
  obtain rfl : stack = _ := hs
  let due := m.network.waitingOn cell
  have hcell : ∀ r ∈ due, r.cell = cell := fun r hr => of_decide_eq_true (List.mem_filter.mp hr).2
  have hends := steps_delivery n o context due 0 due.length below answer
  refine ⟨below, rfl, fun i hi => ?_, hends, fun i r hr => ?_, ?_, ?_⟩
  · have hp := steps_part n o context (due.take i) (due.drop i) 0 due.length below answer
    rwa [List.take_append_drop, List.length_take_of_le hi, Nat.zero_add] at hp
  · obtain ⟨hi, -⟩ := List.getElem?_eq_some_iff.mp hr
    have hturn := Network.turn_history (n.turns o context due.length 0 (due.take i)) o context due.length i r
    have htake : n.turns o context due.length 0 (due.take (i + 1)) =
        (n.turns o context due.length 0 (due.take i)).turn o context due.length i r := by
      rw [List.take_add_one, hr, Network.turns_append, List.length_take_of_le (Nat.le_of_lt hi), Nat.zero_add]
      rfl
    rw [hcell r (List.mem_of_getElem? hr)] at hturn
    show ∃ entries, _ ∧ (n.turns o context due.length 0 (due.take (i + 1))).history = _
    rw [htake]
    exact hturn
  · have hreach := hm'.trans (steps_moments hends)
    obtain ⟨entries, he, hsub⟩ := n.turns_history o context due.length 0 due
    refine filter_mem_of_sublist ?_ (moments_agreed hreach).2.nodup_started
    show (due.map (·.key)).Sublist (startedIn (n.turns o context due.length 0 due).trace)
    rw [Network.startedIn_trace, he, startedIn_append]
    exact hsub.trans (List.sublist_append_right ..)
  · intro k hk name tag outer steps next panics ends rest hname hstack
    obtain ⟨o?, hn, -⟩ := (Ledger.moves_extends (h.moves (moments_agreed hm).1)).kept cell context none hc
    obtain rfl : o? = some o := (congrArg (·.bind (·.outcome)) hn).symm.trans ho
    have hcells := (Ledger.moves_extends (moments_moves (moments_agreed hm').1 hk)).holds hn
    exact step_inline hcells hname hstack

theorem Performs.hushed {k : Machine V} (hm : ReflTransGen Next fresh m) {name tag : String}
    {steps : List (Action V)} (h : m.Performs (.listen name tag steps true) k) {cell : Nat}
    (hname : m.network.names.find? name = some cell) (ho : m.network.outcomeAt cell = none) :
    (m.network.perform (.listen name tag steps false)).2 = (m.network.perform (.listen name tag steps true)).2 ∧
      ⟨(m.network.perform (.listen name tag steps false)).1, k.stack, k.answer⟩ =
        k.recast (Registered.hush m.network.registrations) [] ∧
      (m.network.registrations, cell) ∈ registeredIn k.network.trace := by
  obtain ⟨n, stack, answer⟩ := m
  have hname : n.names.find? name = some cell := hname
  have hnew : Machine.recast (Registered.hush n.registrations) [] ⟨n, stack, answer⟩ = ⟨n, stack, answer⟩ := by
    refine recast_hush fun r hr => Nat.ne_of_lt ?_
    exact (moments_agreed hm).2.lt_of_registered ((moments_agreed hm).2.registered_of_has hr)
  have hwaiting : n.waiting.map (Registered.hush n.registrations) = n.waiting :=
    congrArg (fun m : Machine V => m.network.waiting) hnew
  have hstack : stack.map (Frame.recast (Registered.hush n.registrations)) = stack := congrArg Machine.stack hnew
  have hperform : ∀ panics, n.perform (.listen name tag steps panics) =
      ({ { n with registrations := n.registrations + 1 }.emit (.registered n.registrations cell) with
        waiting := n.waiting ++ [⟨n.registrations, cell, .script tag steps panics⟩] }, [], .nothing) := by
    intro panics
    rcases n.register_cases cell (.script tag steps panics) with ⟨-, hr⟩ | ⟨o, ho', -⟩
    · simp only [Network.perform, hname, hr]
    · cases ho.symm.trans ho'
  have hloud : Registered.hush n.registrations ⟨n.registrations, cell, .script tag steps true⟩ =
      (⟨n.registrations, cell, .script tag steps false⟩ : Registered V) := if_pos rfl
  have hk : k.network = (n.perform (.listen name tag steps true)).1 := h.network
  have hkstack : k.stack.map (Frame.recast (Registered.hush n.registrations)) = k.stack := by
    cases h with
    | call hrest =>
      show (n.perform (.listen name tag steps true)).2.1.map _ = (n.perform (.listen name tag steps true)).2.1
      rw [hperform]
      rfl
    | @turn outer next ends below hbody =>
      obtain rfl : stack = .body outer (.listen name tag steps true :: next) ends :: below := hbody
      have hbelow := (List.cons.inj hstack).2
      simp only [hperform, List.nil_append, List.map_cons, hbelow]
      rfl
  refine ⟨?_, ?_, ?_⟩
  · rw [hperform, hperform]
  · rw [recast, hkstack, hk, hperform, hperform]
    simp only [Network.recast, List.map_append, hwaiting, List.map_cons, hloud, List.map_nil, List.nil_append]
  · rw [hk, hperform, Network.registeredIn_trace, Network.emit, registeredIn_registered]
    exact List.mem_append_right _ (.head _)

/-- Who has the completer of a pending cell settles it, by its use or by its drop. -/
structure Decides (m : Machine V) (name : String) (cell : Nat) (context : Option Context) : Prop where
  used : ∀ o, (m.network.perform (.complete name o)).2.2 = .flag true ∧
    (m.network.perform (.complete name o)).1.outcomeAt cell = some o
  dropped : ∀ a, a.drops name → (m.network.perform a).1.outcomeAt cell = some (.abandoned context)

/-- An action goes on when the network has come to this, with this on the stack. -/
structure GoesOn (m : Machine V) (a : Action V) (n : Network V) (below : List (Frame V)) : Prop where
  called : m.stack = [] → m.network.call a = (n, (m.network.perform a).2.2)
  inside : ∀ tag steps ends rest, m.stack = .body tag (a :: steps) ends :: rest →
    below = .answering tag (m.network.perform a).2.2 :: .body tag steps ends :: rest

/-- Whose panic ends a script, from an action of it on: its own, or that of a listener that runs at once. -/
structure Ends (n : Network V) (tag : String) (a : Action V) (steps : List (Action V)) (panics : Bool) : Prop where
  played : n.play [.body tag (a :: steps) panics] =
    (let done := n.perform a
    let played := done.1.play done.2.1
    if played.2 then played else (played.1.emit (.answered tag done.2.2)).play [.body tag steps panics])
  escapes : ((n.perform a).1.play (n.perform a).2.1).2 = true →
    ∃ name tag' steps' panics' other o, a = .listen name tag' steps' panics' ∧
      n.names.find? name = some other ∧ n.outcomeAt other = some o ∧ (n.perform a).2.1 = [.body tag' steps' panics']

/-- What comes of a listener that panics at its end, and of the same listener without the panic. -/
structure Isolates (m : Machine V) (cell : Nat) (name tag : String) (steps : List (Action V)) (k k' : Machine V) :
    Prop where
  begun : (m.network.perform (.listen name tag steps false)).2 = (m.network.perform (.listen name tag steps true)).2
  answer : k'.run.answer = k.run.answer
  state : k.run.network.Silenced m.network.registrations cell k'.run.network
  later : ∀ as, (k'.run.network.calls as).2 = (k.run.network.calls as).2 ∧
    (k.run.network.calls as).1.Silenced m.network.registrations cell (k'.run.network.calls as).1

/-- At each moment of each run, of each pending cell. Those who wait for it are those who were registered on it,
in their order. Whatever settles it: all of them have their turn before anything else goes on, each is started once,
in their order, and when a panic escapes from one, that is one line with its position and their number. A panic that
escapes is the script's own or that of one who was registered from inside it. And with a panic at the end of a
listener that waits, or without it: all there is is the same but for the line. -/
theorem settlement_isolates (h : ReflTransGen Next fresh m) {cell : Nat} {context : Option Context}
    (hc : m.network.cells[cell]? = some ⟨context, none⟩) :
    let due := m.network.waitingOn cell
    due.map (·.key) = registeredOn cell m.network.trace ∧
    (∀ name, m.network.completers.find? name = some cell → m.Decides name cell context) ∧
    (∀ m' o, m.Next m' → m'.network.outcomeAt cell = some o → ∃ below, m'.Delivers cell o context due below ∧
      ∀ a, m.Performs a m' → m.GoesOn a (m'.network.turns o context due.length 0 due) below) ∧
    (∀ (n : Network V) tag panics, n.play [.body tag [] panics] = (n, panics)) ∧
    (∀ (n : Network V) tag a steps panics, Ends n tag a steps panics) ∧
    (∀ name tag steps k, m.network.names.find? name = some cell → m.Performs (.listen name tag steps true) k →
      m.Isolates cell name tag steps k ⟨(m.network.perform (.listen name tag steps false)).1, k.stack, k.answer⟩) := by
  have hp : m.network.outcomeAt cell = none := congrArg (·.bind (·.outcome)) hc
  have hcontext : m.network.contextAt cell = context := congrArg (·.bind (·.context)) hc
  refine ⟨(moments_counts h).1 cell hp, fun name hname => ?_, fun m' o hn ho => ?_,
    fun n tag panics => n.play_end tag panics,
    fun n tag a steps panics => ⟨n.play_action tag a steps panics, n.perform_escapes⟩,
    fun name tag steps k hname hk => ?_⟩
  · have hpending := moments_pending h hname
    refine ⟨fun o => m.network.complete_done hname hpending o, fun a ha => ?_⟩
    exact hcontext ▸ m.network.drops_done hname hpending ha
  · obtain ⟨below, hd⟩ := hn.delivered h hc ho
    refine ⟨below, hd, fun a ha => ?_⟩
    have hframes := (m.network.perform_setsOff a).delivers hc (ha.network ▸ ho)
    constructor
    -- asked for by no listener: the delivery is all there is to do
    · intro hrest
      cases ha with
      | turn hs => cases hrest.symm.trans hs
      | call =>
        obtain rfl : [] = below := (List.cons.inj (hframes.symm.trans hd.next)).2
        have hrun := (run_of_steps hd.ends).trans (run_at_rest rfl)
        exact congrArg (fun m : Machine V => (m.network, m.answer)) hrun
    -- asked for by a listener: its remaining steps wait below the delivery
    · intro tag steps ends rest hs
      cases ha with
      | call hrest => cases hrest.symm.trans hs
      | turn hs' =>
        obtain ⟨hbody, rfl⟩ := List.cons.inj (hs.symm.trans hs')
        cases hbody
        have hnext := hd.next
        rw [hframes] at hnext
        exact (List.cons.inj hnext).2.symm
  · obtain ⟨hsame, hquiet, hr⟩ := hk.hushed h hname hp
    have hreach := h.tail hk.next
    have hrun := (Hushed.run hreach hr).silenced
    rw [← hquiet] at hrun
    refine ⟨hsame, hrun.2, hrun.1, fun as => ?_⟩
    obtain ⟨hlater, hrest⟩ := run_moments k
    have hend : ReflTransGen Next fresh ⟨k.run.network, [], k.run.answer⟩ := hrest ▸ hreach.trans hlater
    exact (hrun.1.calls hend (registered_later k.run_history hr) as).symm

/-- The first listener registers one that panics, the second panics itself. -/
theorem settlement_isolates_nested :
    let first : List (Action String) :=
      [.pending "a" none, .listen "a" "first" [.listen "a" "inner" [] true] false]
    let second : Bool → Action String := .listen "a" "second" [.get "a"]
    let third : Action String := .listen "a" "third" [] false
    let settled : Action String := .complete "a" (.value "v")
    let n := (({} : Network String).calls (first ++ [second true, third])).1
    let n' := (({} : Network String).calls first).1
    (n.waitingOn 0).map (·.key) = [(0, 0), (1, 0), (2, 0)] ∧ (n.call settled).2 = .flag true ∧
      (startedIn (n.call settled).1.trace).filter (· ∈ (n.waitingOn 0).map (·.key)) = [(0, 0), (1, 0), (2, 0)] ∧
      (n.call settled).1.history.drop 3 =
        [.started 0 0 (some "first") (.value "v") (some (.make 0 none)), .registered 3 0,
          .started 3 0 (some "inner") (.value "v") (some (.make 0 none)), .logged (panicLine 0 3),
          .started 1 0 (some "second") (.value "v") (some (.make 0 none)),
          .answered "second" (.outcome (.value "v")), .logged (panicLine 1 3),
          .started 2 0 (some "third") (.value "v") (some (.make 0 none))] ∧
      ((n'.call (second false)).1.calls [third, settled]).2 = ((n'.call (second true)).1.calls [third, settled]).2 := by
  intro first second third settled n n'
  obtain ⟨last, hn⟩ := Network.calls_moments ({} : Network String) (first ++ [second true, third]) .nothing
  obtain ⟨last', hn'⟩ := Network.calls_moments ({} : Network String) first .nothing
  have hcell : n.cells[0]? = some ⟨some (.make 0 none), none⟩ := by decide +kernel
  have hcell' : n'.cells[0]? = some ⟨some (.make 0 none), none⟩ := by decide +kernel
  obtain ⟨hkeys, hcompleter, hdelivers, -⟩ := settlement_isolates hn hcell
  obtain ⟨-, -, -, -, -, hisolated⟩ := settlement_isolates hn' hcell'
  have hthree : registeredOn 0 n.trace = [(0, 0), (1, 0), (2, 0)] := by decide +kernel
  have hcompletes : n.completers.find? "a" = some 0 := by decide +kernel
  have hnamed : n'.names.find? "a" = some 0 := by decide +kernel
  obtain ⟨hflag, ho⟩ := (hcompleter "a" hcompletes).used (.value "v")
  obtain ⟨below, hd, hcall⟩ := hdelivers _ (.value "v") (.call rfl settled) ho
  have hcalled := (hcall settled (.call rfl)).called rfl
  have honce := hd.once
  have hsecond := hisolated "a" "second" [.get "a"] _ hnamed (.call rfl)
  have hquiet : (n'.call (second false)).1 = _ :=
    congrArg (fun r : List (Frame String) × Answer String =>
      (Machine.run ⟨(n'.perform (second false)).1, r.1, r.2⟩).network) hsecond.begun
  refine ⟨hkeys.trans hthree, ?_, ?_, by decide +kernel, ?_⟩
  · exact (congrArg (·.2) hcalled).trans hflag
  · rw [hcalled]
    exact honce.trans (hkeys.trans hthree)
  · rw [hquiet]
    exact (hsecond.later [third, settled]).1

end Machine
end ReplicaRouting.Result
