import ReplicaRouting.Proofs.WaitList.Firing
/-!
The order of starts. An advance starts what waited in the order of targets and registrations, then what
arrived meanwhile in the order of arrival; waiters for one target start in the order of registration.
-/

namespace ReplicaRouting.WaitList

open Relation (ReflTransGen)

def Waiter.Before (a b : Waiter) : Prop :=
  a.target < b.target ∨ (a.target = b.target ∧ a.ticket < b.ticket)

def Entry.arrived? (lsn : Lsn) : Entry → Option Nat
  | .registered t target => if target ≤ lsn then some t else none
  | _ => none

/-- The registrations made for this position or an earlier one. -/
def arrivedBy (lsn : Lsn) (es : List Entry) : List Nat := es.filterMap (·.arrived? lsn)

theorem arrivedBy_concat (lsn : Lsn) (es : List Entry) (e : Entry) :
    arrivedBy lsn (es ++ [e]) = arrivedBy lsn es ++ (e.arrived? lsn).toList := by
  cases h : e.arrived? lsn <;> simp [arrivedBy, h]

theorem pairwise_insertWaiter {w : Waiter} {ws : List Waiter} (h : ws.Pairwise Waiter.Before)
    (hn : ∀ v ∈ ws, v.ticket < w.ticket) : (insertWaiter w ws).Pairwise Waiter.Before := by
  induction ws with
  | nil => exact List.pairwise_singleton ..
  | cons v vs ih =>
    obtain ⟨hv, hvs⟩ := List.pairwise_cons.mp h
    rw [insertWaiter]
    split
    · rename_i hlt
      refine List.pairwise_cons.mpr ⟨fun u hu => .inl ?_, h⟩
      rcases List.mem_cons.mp hu with rfl | hu
      · exact hlt
      · rcases hv u hu with hlt' | ⟨he, -⟩
        · exact Lsn.lt_trans hlt hlt'
        · exact he ▸ hlt
    · rename_i hle
      refine List.pairwise_cons.mpr
        ⟨fun u hu => ?_, ih hvs fun u hu => hn u (List.mem_cons_of_mem _ hu)⟩
      rcases List.mem_cons.mp ((perm_insertWaiter w vs).mem_iff.mp hu) with rfl | hu
      · by_cases he : v.target = u.target
        · exact .inr ⟨he, hn v (List.mem_cons_self ..)⟩
        · exact .inl (Lsn.lt_of_le_of_ne (Lsn.not_lt.mp hle) he)
      · exact hv u hu

namespace Ledger

/-- Tickets of one target, in the order in which they were drawn. -/
def Fifo (es : List Entry) (ts : List Nat) : Prop :=
  ts.Pairwise fun i j => targetOf? es i = targetOf? es j → i < j

theorem Fifo.concat {es : List Entry} {ts : List Nat} (h : Fifo es ts) (e : Entry)
    (hk : ∀ t ∈ ts, ∃ target, targetOf? es t = some target) : Fifo (es ++ [e]) ts := by
  refine List.Pairwise.imp_of_mem (fun {i j} hi hj hij he => hij ?_) h
  obtain ⟨a, ha⟩ := hk i hi
  obtain ⟨b, hb⟩ := hk j hj
  rw [targetOf?_concat ha, targetOf?_concat hb] at he
  rw [ha, hb, he]

/-- The tickets that were started, then those that are due. -/
def line (v : Ledger) : List Nat := startedIn v.trace ++ v.due.map (·.1.ticket)

structure Ordered (v : Ledger) : Prop where
  sorted : v.waiters.Pairwise Waiter.Before
  fifo : Fifo v.trace v.line

section Ordered
variable {initial : Lsn} {v : Ledger}

theorem Balanced.line_known (hv : v.Balanced initial) :
    ∀ t ∈ v.line, ∃ target, targetOf? v.trace t = some target := by
  intro t ht
  rcases List.mem_append.mp ht with ht | ht
  · exact hv.exists_target ht
  · obtain ⟨p, hp, rfl⟩ := List.mem_map.mp ht
    exact ⟨p.1.target, (hv.due p hp).1⟩

theorem Balanced.line_lt (hv : v.Balanced initial) : ∀ t ∈ v.line, t < v.tickets := by
  intro t ht
  obtain ⟨target, h⟩ := hv.line_known t ht
  exact (hv.registered_iff t).mp (by rw [h]; rfl)

theorem Ordered.noted {v' : Ledger} {e : Entry} (ho : v.Ordered) (hv : v.Balanced initial)
    (hs : v'.waiters.Pairwise Waiter.Before) (htr : v'.trace = v.trace ++ [e])
    (hl : v'.line = v.line) :
    v'.Ordered :=
  ⟨hs, htr ▸ hl ▸ ho.fifo.concat e hv.line_known⟩

theorem Ordered.started {v' : Ledger} {p : Waiter × Lsn} (ho : v.Ordered) (hv : v.Balanced initial)
    (hd : v.due = p :: v'.due) (hw : v'.waiters = v.waiters) (htr : v'.trace = v.trace)
    (tag : Option String)
    (place : Place) : (v'.note (.started p.1.ticket tag p.2 place)).Ordered := by
  apply ho.noted hv (by rw [note, hw]; exact ho.sorted) (congrArg (· ++ _) htr)
  have hd' : (v'.note (.started p.1.ticket tag p.2 place)).due = v'.due := rfl
  rw [line, line, hd', hd, note, htr, startedIn_append, List.append_assoc]
  rfl

theorem Ordered.register (ho : v.Ordered) (hv : v.Balanced initial) (hp : v.Phased) (target : Lsn)
    (callback : Callback) : (v.register target callback).Ordered := by
  have htr : (v.register target callback).trace = v.trace ++ [.registered v.tickets target] := rfl
  have hlt : ∀ w ∈ v.waiters, w.ticket < v.tickets := by
    intro w hw
    exact (hv.registered_iff _).mp (by rw [(hv.ahead w hw).1]; rfl)
  refine ⟨?_, ?_⟩
  · show List.Pairwise _ (if v.latest < target then _ else _)
    split
    · exact pairwise_insertWaiter ho.sorted hlt
    · exact ho.sorted
  · have hl : (v.register target callback).line =
        v.line ++ if v.latest < target then [] else [v.tickets] := by
      rw [line, line, due_register hp, htr, startedIn_append]
      split <;> simp [Entry.started?]
    rw [hl, htr]
    refine List.pairwise_append.mpr ⟨ho.fifo.concat _ hv.line_known, ?_, ?_⟩
    · split
      · exact .nil
      · exact List.pairwise_singleton ..
    · -- the newest ticket is the highest, whatever its target
      intro t ht u hu _
      obtain rfl : u = v.tickets := by
        split at hu
        · cases hu
        · exact List.mem_singleton.mp hu
      exact hv.line_lt t ht

theorem Ordered.advance (ho : v.Ordered) (hv : v.Balanced initial) (hp : v.Phased)
    (hb : v.batch = none) (hq : v.queue = []) (lsn : Lsn) : (v.advance lsn).Ordered := by
  obtain ⟨hd, hd'⟩ := due_advance hp hb hq lsn
  have htr : (v.advance lsn).trace = v.trace ++ [.recorded lsn] := rfl
  refine ⟨ho.sorted.filter _, ?_⟩
  have hs : (v.advance lsn).line =
      v.line ++ (v.waiters.filter fun w => w.target ≤ lsn).map (·.ticket) := by
    rw [line, line, hd, hd', htr, startedIn_append, startedIn_singleton]
    simp [Entry.started?, Function.comp_def]
  have ht : ∀ w ∈ v.waiters, targetOf? (v.trace ++ [.recorded lsn]) w.ticket = some w.target :=
    fun w hw => targetOf?_concat (hv.ahead w hw).1
  rw [hs, htr]
  refine List.pairwise_append.mpr ⟨ho.fifo.concat _ hv.line_known, ?_, ?_⟩
  · refine List.pairwise_map.mpr
      (List.Pairwise.imp_of_mem (fun {a b} ha hb hab he => ?_) (ho.sorted.filter _))
    rw [ht a (List.mem_filter.mp ha).1, ht b (List.mem_filter.mp hb).1] at he
    rcases hab with hab | ⟨-, hab⟩
    · rw [Option.some.inj he] at hab
      exact absurd hab (Lsn.lt_irrefl _)
    · exact hab
  · -- what was started before has its target behind the position, what still waited has it ahead
    intro t hm u hu he
    obtain ⟨w, hw, rfl⟩ := List.mem_map.mp hu
    have hw := (List.mem_filter.mp hw).1
    obtain ⟨target, htt⟩ := hv.line_known t hm
    rw [line, hd, List.map_nil, List.append_nil] at hm
    have hle := hv.begun t hm target htt
    have hlt := (hv.ahead w hw).2.1
    rw [targetOf?_concat htt, ht w hw] at he
    rw [← hv.latest, ← Option.some.inj he] at hlt
    exact absurd hlt (Lsn.not_lt.mpr hle)

theorem Ordered.turn {v' : Ledger} (ho : v.Ordered) (hv : v.Balanced initial) (hp : v.Phased)
    (h : Turn v v') :
    v'.Ordered := by
  cases h with
  | advance hb hq _ => exact ho.advance hv hp hb hq _
  | finish hb hl =>
    refine ⟨ho.sorted, ?_⟩
    rw [line, due_finish hb hl]
    exact ho.fifo
  | move h =>
    cases h with
    | register target callback => exact ho.register hv hp target callback
    | cancel h =>
      apply ho.noted hv (ho.sorted.filter _) rfl
      show startedIn (v.trace ++ [_]) ++ v.due.map _ = v.line
      rw [startedIn_append, startedIn_singleton]
      exact congrArg (· ++ _) (List.append_nil _)
    | start tag round hb => exact ho.started hv (due_start hb) rfl rfl tag _
    | round hb hl =>
      refine ⟨ho.sorted, ?_⟩
      rw [line, due_round hb]
      exact ho.fifo
    | notify tag hb hq => exact ho.started hv (due_notify hp hb hq) rfl rfl tag _

theorem ordered_turns {v' : Ledger} (ho : v.Ordered) (hv : v.Balanced initial) (hp : v.Phased)
    (h : ReflTransGen Turn v v') : v'.Ordered := by
  induction h with
  | refl => exact ho
  | tail hs h ih =>
    obtain ⟨hb, hp⟩ := balanced_turns hv hp hs
    exact ih.turn hb hp h

end Ordered

/-! ### One advance -/

/-- Within an advance that began with this trace and these tickets due: it has started some of them, then
some of those that arrived, and the rest is still in its batch or late. -/
structure Advancing (base : List Entry) (due : List Nat) (lsn : Lsn) (new : List Entry)
    (v : Ledger) : Prop where
  trace : v.trace = base ++ new
  latest : v.latest = lsn
  order : ∀ rest taken, v.batch = some (rest, taken) →
    startedIn new ++ (rest.map (·.ticket) ++ v.late.map (·.ticket)) = due ++ arrivedBy lsn new ∧
      taken = (startedIn new).length + rest.length
  place : ∀ t tag l p, .started t tag l p ∈ new → l = lsn ∧ ∃ round, p = .batch round

section Advancing
variable {base new : List Entry} {due : List Nat} {lsn : Lsn} {v v' : Ledger}

theorem Advancing.noted {e : Entry} (ha : Advancing base due lsn new v)
    (htr : v'.trace = v.trace ++ [e]) (hl : v'.latest = v.latest) (hs : e.started? = none)
    (ho : ∀ rest taken, v'.batch = some (rest, taken) →
      v.batch = some (rest, taken) ∧
        v'.late.map (·.ticket) = v.late.map (·.ticket) ++ (e.arrived? lsn).toList) :
    Advancing base due lsn (new ++ [e]) v' := by
  have hst : startedIn (new ++ [e]) = startedIn new := by
    rw [startedIn_append, startedIn_singleton, hs, Option.toList_none, List.append_nil]
  refine ⟨?_, hl.trans ha.latest, fun rest taken hb => ?_, fun t tag l p hm => ?_⟩
  · rw [htr, ha.trace, List.append_assoc]
  · obtain ⟨hb, hlate⟩ := ho rest taken hb
    obtain ⟨h, ht⟩ := ha.order rest taken hb
    rw [hst, arrivedBy_concat, hlate, ← List.append_assoc due, ← h]
    exact ⟨by simp only [List.append_assoc], ht⟩
  · rcases List.mem_append.mp hm with hm | hm
    · exact ha.place t tag l p hm
    · obtain rfl := List.mem_singleton.mp hm
      cases hs

theorem Advancing.move (ha : Advancing base due lsn new v) (hp : v.Phased) (hb : v.batch.isSome)
    (h : Move v v') :
    ∃ more, Advancing base due lsn (new ++ more) v' := by
  have hadv : v.advancing = true := hp.flag.trans hb
  cases h with
  | register target callback =>
    refine ⟨_, ha.noted rfl rfl rfl fun rest taken hb => ⟨hb, ?_⟩⟩
    -- within an advance only a satisfied registration arrives, and it goes to the late
    show (if ¬ v.latest < target ∧ v.advancing then _ else _ : List Waiter).map _ = _
    rw [ha.latest, Entry.arrived?]
    by_cases hlt : lsn < target
    · have hle : ¬ target ≤ lsn := Lsn.not_le.mpr hlt
      simp [hlt, hle]
    · have hle : target ≤ lsn := hlt
      simp [hlt, hle, hadv]
  | cancel h => exact ⟨_, ha.noted rfl rfl rfl fun rest taken hb => ⟨hb, (List.append_nil _).symm⟩⟩
  | @start w rest taken tag round hb =>
    obtain ⟨ho, ht⟩ := ha.order _ _ hb
    have hst : startedIn (new ++ [.started w.ticket tag v.latest (.batch round)]) =
        startedIn new ++ [w.ticket] :=
      startedIn_append ..
    have har :
        arrivedBy lsn (new ++ [.started w.ticket tag v.latest (.batch round)]) =
          arrivedBy lsn new :=
      (arrivedBy_concat ..).trans (List.append_nil _)
    refine ⟨[.started w.ticket tag v.latest (.batch round)], ?_, ha.latest,
      fun rest' taken' hb' => ?_, ?_⟩
    · rw [note, ha.trace, List.append_assoc]
    · cases hb'
      rw [hst, har, ← ho, ht, List.length_append, List.length_singleton, List.length_cons]
      exact ⟨by simp [note], by omega⟩
    · intro t tag' l p hm
      rcases List.mem_append.mp hm with hm | hm
      · exact ha.place t tag' l p hm
      · cases List.mem_singleton.mp hm
        exact ⟨ha.latest, round, rfl⟩
  | @round taken hb hl =>
    obtain ⟨ho, ht⟩ := ha.order _ _ hb
    refine ⟨[], ?_, ha.latest, fun rest' taken' hb' => ?_, ?_⟩
    · rw [List.append_nil, ha.trace]
    · cases hb'
      rw [List.append_nil]
      exact ⟨by simpa using ho, by rw [ht]; rfl⟩
    · rw [List.append_nil]
      exact ha.place
  | notify tag hn hq =>
    rw [hn] at hb
    cases hb

theorem Advancing.moves (ha : Advancing base due lsn new v) (hp : v.Phased) (hb : v.batch.isSome)
    (h : ReflTransGen Move v v') : ∃ new', Advancing base due lsn new' v' := by
  induction h with
  | refl => exact ⟨new, ha⟩
  | tail hs h ih =>
    obtain ⟨new', ha'⟩ := ih
    have hp' : Phased _ := hp.moves hs
    obtain ⟨more, hm⟩ := ha'.move hp' ((moves_frame hs).batch.trans hb) h
    exact ⟨_, hm⟩

end Advancing
end Ledger

namespace State

/-- Between two calls of a list in use: each registration is in one place, and what waits is in order. -/
structure Orderly (initial : Lsn) (s : State) : Prop where
  rest : s.AtRest
  balanced : (s.ledger none).Balanced initial
  phased : (s.ledger none).Phased
  ordered : (s.ledger none).Ordered

section Orderly
variable {initial : Lsn} {s : State}

theorem opened_orderly (initial : Lsn) (metrics : Metrics) : (opened initial metrics).Orderly initial := by
  obtain ⟨hb, hp⟩ := opened_balanced initial metrics
  exact ⟨⟨rfl, rfl⟩, hb, hp, .nil, .nil⟩

theorem Orderly.calls (h : s.Orderly initial) {cs : List Call} (hc : .drop ∉ cs) :
    (s.calls cs).1.Orderly initial := by
  obtain ⟨hr, ht⟩ := calls_turns h.rest hc
  obtain ⟨hb, hp⟩ := Ledger.balanced_turns h.balanced h.phased ht
  exact ⟨hr, hb, hp, Ledger.ordered_turns h.ordered h.balanced h.phased ht⟩

theorem Orderly.call (h : s.Orderly initial) {c : Call} (hc : c ≠ .drop) :
    (s.call c).1.Orderly initial := by
  have hcs : .drop ∉ [c] := by simpa using hc.symm
  exact h.calls hcs

theorem Orderly.late (h : s.Orderly initial) : s.late = [] := h.phased.late h.phased.flag

theorem Orderly.advancing (h : s.Orderly initial) : s.advancing = false := h.phased.flag

theorem Orderly.sorted (h : s.Orderly initial) : s.waiters.Pairwise fun v w => v.target ≤ w.target := by
  refine h.ordered.sorted.imp fun {v w} hvw => Lsn.le_iff_rank.mpr ?_
  rcases hvw with hlt | ⟨he, -⟩
  · exact Nat.le_of_lt (Lsn.lt_iff_rank.mp hlt)
  · exact Nat.le_of_eq (congrArg Lsn.rank he)

theorem Orderly.ahead (h : s.Orderly initial) : ∀ w ∈ s.waiters, s.latest < w.target := by
  intro w hw
  have hl : s.latest = latestAfter initial s.trace := h.balanced.latest
  rw [hl]
  exact (h.balanced.ahead w hw).2.1

end Orderly

/-- An advance to an accepted position, run to its end. -/
theorem call_advance {s : State} (hs : s.AtRest) (hp : (s.ledger none).Phased) {lsn : Lsn}
    (h : s.latest ≤ lsn) :
    let due := s.waiters.filter fun w => w.target ≤ lsn
    let done := s.call (.advance lsn)
    ∃ new, done.1.trace = s.trace ++ .recorded lsn :: new ∧
      startedIn new = due.map (·.ticket) ++ arrivedBy lsn new ∧
      (∀ t tag l p, .started t tag l p ∈ new → l = lsn ∧ ∃ round, p = .batch round) ∧
      done.2 = .count (startedIn new).length := by
  intro due done
  obtain ⟨hm, hl, hstack⟩ := begun_advance hs h
  have hadv : Ledger.Advancing (s.trace ++ [.recorded lsn]) (due.map (·.ticket)) lsn []
      (s.begun (.advance lsn)).ledger := by
    rw [hl]
    refine ⟨(List.append_nil _).symm, rfl, fun rest taken hb => ?_, nofun⟩
    cases hb
    have hlate : s.late = [] := hp.late hp.flag
    exact ⟨by simp [Ledger.advance, Ledger.note, ledger, hlate, due, arrivedBy, startedIn],
      (Nat.zero_add _).symm⟩
  have hb : (batchOf (s.begun (.advance lsn)).stack).isSome := by rw [hstack]; rfl
  have hph : (s.begun (.advance lsn)).ledger.Phased := hl ▸ hp.turn (.advance rfl hs.queue h)
  -- up to its last step the run makes moves, and after it nothing is left to do
  obtain ⟨last, rest, hlast, hmoves, hfin, hrun⟩ := Machine.run_advance _ hm hb
  obtain ⟨new, hnew⟩ := hadv.moves hph hb hmoves
  have hphl := hph.moves hmoves
  obtain ⟨round, taken, hstk, hlate, rfl⟩ := hfin
  have hbl : last.ledger.batch = some ([], taken) := by rw [Machine.ledger, hstk]; rfl
  obtain ⟨horder, htaken⟩ := hnew.order [] taken hbl
  have hq : (last.state.rest last.state.latest taken).queue = [] :=
    hphl.queue (hphl.flag.trans (by rw [hbl]; rfl))
  have hdone : done = (last.state.rest last.state.latest taken, .count taken) := by
    show ((s.begun (.advance lsn)).run.state, (s.begun (.advance lsn)).run.answer) = _
    rw [hrun, Machine.run_at_rest hq]
  have htr : (last.state.rest last.state.latest taken).trace = last.state.trace :=
    congrArg Ledger.trace (last.state.ledger_rest none last.state.latest taken)
  refine ⟨new, ?_, ?_, hnew.place, ?_⟩
  · rw [hdone, htr, ← List.singleton_append, ← List.append_assoc]
    exact hnew.trace
  · simpa [Machine.ledger, ledger, hlate] using horder
  · rw [hdone, htaken]
    rfl

/-- Waiters for one target start in the order of registration. An accepted advance starts, all with its own
position, the waiters that it finds up to that position by target and registration, then those that arrive
for such a position while it runs in the order of arrival, and it answers how many it has started. -/
theorem calls_start_in_order (initial : Lsn) (metrics : Metrics) (cs : List Call)
    (hc : .drop ∉ cs) :
    let s := ((opened initial metrics).calls cs).1
    ((startedIn s.trace).Pairwise fun i j => targetOf? s.trace i = targetOf? s.trace j → i < j) ∧
      ∀ lsn, s.latest ≤ lsn →
        let due := s.waiters.filter fun w => w.target ≤ lsn
        let done := s.call (.advance lsn)
        due.Pairwise Waiter.Before ∧
          ∃ new, done.1.trace = s.trace ++ .recorded lsn :: new ∧
            startedIn new = due.map (·.ticket) ++ arrivedBy lsn new ∧
            (∀ t tag l p, .started t tag l p ∈ new → l = lsn ∧ ∃ round, p = .batch round) ∧
            done.2 = .count (startedIn new).length := by
  intro s
  obtain ⟨hr, ht⟩ := calls_turns (s := opened initial metrics) ⟨rfl, rfl⟩ hc
  obtain ⟨hb, hp⟩ := opened_balanced initial metrics
  have ho₀ : ((opened initial metrics).ledger none).Ordered :=
    ⟨List.Pairwise.nil, List.Pairwise.nil⟩
  have ho : (s.ledger none).Ordered := Ledger.ordered_turns ho₀ hb hp ht
  refine ⟨?_,
    fun lsn h => ⟨ho.sorted.filter _, call_advance hr (Ledger.balanced_turns hb hp ht).2 h⟩⟩
  exact ho.fifo.sublist (List.sublist_append_left ..)

/-- The first callback registers for the same target and panics, the late one registers once more: each is
behind all that were registered before. -/
theorem calls_start_in_order_nested :
    let cs : List Call := [
      .act (.register "a" ⟨1, 2⟩ [.register "c" ⟨1, 2⟩ [.register "d" ⟨1, 2⟩ [] false] true] true),
      .act (.register "b" ⟨1, 2⟩ [] false), .act (.register "e" ⟨1, 1⟩ [] false)]
    let s := ((opened .zero {}).calls cs).1
    .drop ∉ cs ∧ s.latest ≤ ⟨1, 2⟩ ∧
      ∃ new, (s.call (.advance ⟨1, 2⟩)).1.trace = s.trace ++ .recorded ⟨1, 2⟩ :: new ∧
        startedIn new = [2, 0, 1] ++ arrivedBy ⟨1, 2⟩ new ∧
        (s.call (.advance ⟨1, 2⟩)).2 = .count (startedIn new).length := by
  intro cs s
  have hc : Call.drop ∉ cs := by simp [cs]
  have hl : s.latest ≤ ⟨1, 2⟩ := by decide +kernel
  have hd : (s.waiters.filter fun w => w.target ≤ ⟨1, 2⟩).map (·.ticket) = [2, 0, 1] :=
    by decide +kernel
  obtain ⟨-, new, htr, hst, -, han⟩ := (calls_start_in_order .zero {} cs hc).2 ⟨1, 2⟩ hl
  exact ⟨hc, hl, new, htr, hd ▸ hst, han⟩

end State
end ReplicaRouting.WaitList
