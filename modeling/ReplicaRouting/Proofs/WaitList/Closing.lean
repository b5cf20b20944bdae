import ReplicaRouting.Proofs.WaitList.Awaited
/-!
The drop of a list. What is left of its life is fixed with the call: the notifier runs its queue in order, then
the results that still wait are abandoned in the order of their targets, and no callback runs.
-/

namespace ReplicaRouting.WaitList

open Relation (ReflTransGen)

/-- New positions, starts of callbacks and settlements of results. -/
def Entry.isDeed : Entry → Bool
  | .recorded _ | .started .. | .settled .. => true
  | _ => false

def deedsIn (es : List Entry) : List Entry := es.filter (·.isDeed)

/-- What the notifier does with a waiter from its queue. -/
def notified (p : Waiter × Lsn) : List Entry :=
  match p.1.callback with
  | .script tag .. => [.started p.1.ticket (some tag) p.2 .notifier]
  | .settle cell => [.started p.1.ticket none p.2 .notifier, .settled cell (.value p.2)]

/-- What the drop of the list does with a waiter. -/
def abandoned (w : Waiter) : List Entry :=
  match w.callback with
  | .script .. => []
  | .settle cell => [.settled cell (.failed (.router .abandoned))]

theorem deedsIn_append (es fs : List Entry) : deedsIn (es ++ fs) = deedsIn es ++ deedsIn fs :=
  List.filter_append ..

namespace State

structure Does (s : State) (deeds : List Entry) (s' : State) : Prop where
  waiters : s'.waiters = s.waiters
  late : s'.late = s.late
  queue : s'.queue = s.queue
  dropped : s'.dropped = s.dropped
  deeds : deedsIn s'.history = deedsIn s.history ++ deeds

section Does
variable {s s' s'' : State} {es fs : List Entry}

theorem Does.of_eq (hw : s'.waiters = s.waiters) (hl : s'.late = s.late) (hq : s'.queue = s.queue)
    (hd : s'.dropped = s.dropped) (hh : s'.history = s.history) : s.Does [] s' :=
  ⟨hw, hl, hq, hd, by rw [hh, List.append_nil]⟩

theorem Does.refl (s : State) : s.Does [] s := .of_eq rfl rfl rfl rfl rfl

theorem Does.trans (h : s.Does es s') (h' : s'.Does fs s'') : s.Does (es ++ fs) s'' :=
  ⟨h'.waiters.trans h.waiters, h'.late.trans h.late, h'.queue.trans h.queue,
    h'.dropped.trans h.dropped, by rw [h'.deeds, h.deeds, List.append_assoc]⟩

theorem does_emit (s : State) (e : Entry) : s.Does (deedsIn [e]) (s.emit e) :=
  ⟨rfl, rfl, rfl, rfl, deedsIn_append ..⟩

theorem does_settle (s : State) (cell : Nat) (o : Result.Outcome Lsn) :
    s.Does [.settled cell o] (s.settle cell o).1 := by
  have he := s.does_emit (.settled cell o)
  unfold settle
  dsimp only
  split
  · exact he.trans (.of_eq rfl rfl rfl rfl rfl)
  · exact he

theorem does_hear (s : State) (l : Listener) (o : Result.Outcome Lsn) : s.Does [] (s.hear l o).1 :=
  s.does_emit (.heard l.serial l.tag o)

theorem does_withdraw (s : State) (h : Handle) : s.Does [] (s.withdraw h) := by
  have hm : s.Does [] { s with metrics := s.metrics.countCancelled } := .of_eq rfl rfl rfl rfl rfl
  exact hm.trans (does_emit _ (.logged (.of .waiterCancelled [("target", h.target.text)])))

theorem does_start (s : State) (w : Waiter) (lsn : Lsn) :
    s.Does (notified (w, lsn)) (s.start w lsn .notifier).1 := by
  obtain ⟨target, ticket, callback⟩ := w
  cases callback with
  | script tag steps panics => exact s.does_emit (.started ticket (some tag) lsn .notifier)
  | settle cell =>
    have he := s.does_emit (.started ticket none lsn .notifier)
    exact he.trans (does_settle _ cell (.value lsn))

theorem does_discard (s : State) (w : Waiter) : s.Does (abandoned w) (s.discard w).1 := by
  obtain ⟨target, ticket, callback⟩ := w
  cases callback with
  | script tag steps panics => exact .refl s
  | settle cell => exact s.does_settle cell (.failed (.router .abandoned))

theorem does_listen (s : State) (cell : Nat) (tag : String) (steps : List Action) (panics : Bool) :
    s.Does [] (s.listen cell tag steps panics).1 := by
  have hm : s.Does [] { s with listeners := s.listeners + 1 } := .of_eq rfl rfl rfl rfl rfl
  have hl := hm.trans (does_emit _ (.listening s.listeners cell))
  unfold listen
  dsimp only
  split
  · exact hl
  · exact hl.trans (.of_eq rfl rfl rfl rfl rfl)
  · exact hl.trans (does_hear ..)

theorem does_perform {s : State} (hd : s.dropped = true) (a : Action) :
    s.Does [] (s.perform a).1 := by
  cases a with
  | listen name tag steps panics =>
    simp only [perform]
    split
    · exact .refl s
    · exact s.does_listen ..
  | poll name =>
    simp only [perform]
    repeat' split
    all_goals exact .refl s
  | register | await | cancel | handle | latest | pending | metrics | describe | misread =>
    simp only [perform, hd, if_true]
    exact .refl s

end Does
end State

/-! ### The steps of the drop -/

def Frame.isBatch : Frame → Bool
  | .batch .. => true
  | _ => false

namespace Machine

structure Closing (m : Machine) : Prop where
  dropped : m.state.dropped = true
  waiters : m.state.waiters = []
  late : m.state.late = []
  stack : ∀ f ∈ m.stack, f.isBatch = false
  sheltered : Sheltered m.stack

/-- The deeds of a list that was dropped, first those done, then those that it has yet to do. -/
def plan (m : Machine) : List Entry :=
  deedsIn m.state.history ++ m.state.queue.flatMap notified ++
    (m.stack.flatMap Frame.taken).flatMap abandoned

variable {m m' : Machine}

theorem isBatch_inner {f : Frame} (h : f.isInner) : f.isBatch = false := by
  cases f with
  | body | answering | delivering | withdrawing => rfl
  | batch | notifying | discarding => cases h

theorem Closing.scripted (hc : m.Closing) : m.state.Scripted := by
  rintro tag h - w hw
  rw [hc.waiters] at hw
  cases hw

theorem Closing.push (hc : m.Closing) {s : State} {es : List Entry} (hd : m.state.Does es s)
    {fs below : List Frame} (hf : ∀ f ∈ fs, f.isInner) (hb : ∀ f ∈ below, f.isBatch = false)
    (hs : Sheltered (fs ++ below)) (answer : Answer) :
    Closing ⟨s, fs ++ below, answer⟩ ∧ plan ⟨s, fs ++ below, answer⟩ =
      deedsIn m.state.history ++ es ++ m.state.queue.flatMap notified ++
        (below.flatMap Frame.taken).flatMap abandoned := by
  refine ⟨⟨hd.dropped.trans hc.dropped, hd.waiters.trans hc.waiters, hd.late.trans hc.late, ?_, hs⟩,
    ?_⟩
  · intro f hm
    rcases List.mem_append.mp hm with hm | hm
    · exact isBatch_inner (hf f hm)
    · exact hb f hm
  · dsimp only [plan]
    rw [hd.deeds, hd.queue, List.flatMap_append, Frame.taken_eq_nil hf, List.nil_append]

theorem Closing.quiet (hc : m.Closing) {s : State} (hd : m.state.Does [] s)
    {fs below : List Frame} (hf : ∀ f ∈ fs, f.isInner) (hb : ∀ f ∈ below, f.isBatch = false)
    (ht : below.flatMap Frame.taken = m.stack.flatMap Frame.taken)
    (hs : Sheltered (fs ++ below)) (answer : Answer) :
    Closing ⟨s, fs ++ below, answer⟩ ∧ plan ⟨s, fs ++ below, answer⟩ = m.plan := by
  obtain ⟨hclosing, hplan⟩ := hc.push hd hf hb hs answer
  rw [ht, List.append_nil] at hplan
  exact ⟨hclosing, hplan⟩

theorem notify_closing {s : State} {begun : State × List Frame} {below : List Frame}
    {answer : Answer} (hc : Closing ⟨s, below, answer⟩) (hn : s.notify = some begun) :
    Closing ⟨begun.1, begun.2 ++ below, answer⟩ ∧
      plan ⟨begun.1, begun.2 ++ below, answer⟩ = plan ⟨s, below, answer⟩ := by
  have hs := notify_sheltered hn hc.sheltered
  obtain ⟨w, lsn, queue, hq, rfl⟩ := State.notify_eq_some hn
  let s' : State := { s with queue := queue }
  have hi := s'.start_isInner w lsn .notifier
  have hd := s'.does_start w lsn
  refine ⟨⟨hd.dropped.trans hc.dropped, hd.waiters.trans hc.waiters, hd.late.trans hc.late, ?_, hs⟩,
    ?_⟩
  · intro f hm
    rcases List.mem_append.mp hm with hm | hm
    · rcases List.mem_append.mp hm with hm | hm
      · exact isBatch_inner (hi f hm)
      · rw [List.mem_singleton.mp hm]
        rfl
    · exact hc.stack f hm
  · have ht : ((s'.start w lsn .notifier).2 ++ [Frame.notifying lsn] ++ below).flatMap Frame.taken =
        below.flatMap Frame.taken := by
      rw [List.flatMap_append, List.flatMap_append, Frame.taken_eq_nil hi]
      rfl
    have hdeeds : deedsIn s.history ++ s.queue.flatMap notified =
        deedsIn (s'.start w lsn .notifier).1.history ++
          (s'.start w lsn .notifier).1.queue.flatMap notified := by
      rw [hd.deeds, hd.queue, hq, List.flatMap_cons, List.append_assoc]
    dsimp only [plan]
    rw [ht, hdeeds]

theorem Closing.unwind (hc : m.Closing) (hh : ∀ g ∈ m.stack.head?, g.isDiscarding = false) :
    m.unwind.Closing ∧ m.unwind.plan = m.plan := by
  have hcaught := hc.sheltered.caught hh
  unfold Machine.unwind
  split
  · rename_i hn
    rw [hn] at hcaught
    have ht : ([] : List Frame).flatMap Frame.taken = m.stack.flatMap Frame.taken := hcaught.1.symm
    exact hc.quiet (.refl _) (List.forall_mem_nil _) (List.forall_mem_nil _) ht .empty .panicked
  · rename_i r below hn
    rw [hn] at hcaught
    obtain ⟨hs, ht, -⟩ := hcaught
    exact hc.quiet (m.state.does_emit (.logged r)) (List.forall_mem_nil _)
      (fun f hm => hc.stack f (caught_subset hn hm)) ht hs m.answer

theorem Closing.below {s : State} {f : Frame} {below : List Frame} {answer : Answer}
    (hc : Closing ⟨s, f :: below, answer⟩) : ∀ f ∈ below, f.isBatch = false :=
  fun f hm => hc.stack f (List.mem_cons_of_mem _ hm)

theorem Closing.turn {s : State} {f g : Frame} {below : List Frame} {answer : Answer}
    (hc : Closing ⟨s, f :: below, answer⟩) (hg : g.isBatch = false) :
    ∀ f ∈ g :: below, f.isBatch = false :=
  List.forall_mem_cons.mpr ⟨hg, hc.below⟩

theorem step_closing (hc : m.Closing) (h : m.step = some m') : m'.Closing ∧ m'.plan = m.plan := by
  have hs := (step_book hc.sheltered hc.scripted h).1
  have hnone : ∀ f ∈ ([] : List Frame), f.isInner := List.forall_mem_nil _
  cases step_goes h with
  | @notify s begun answer hn =>
    have hb := notify_closing hc hn
    rwa [List.append_nil] at hb
  | @perform s tag a steps panics below answer =>
    have hbody : ∀ f ∈ Frame.answering tag (s.perform a).2.2 :: .body tag steps panics :: below,
        f.isBatch = false := List.forall_mem_cons.mpr ⟨rfl, hc.turn rfl⟩
    exact hc.quiet (State.does_perform hc.dropped a) (s.perform_isInner a) hbody rfl hs answer
  | @panic s tag below answer =>
    have hpop := hc.quiet (.refl s) hnone hc.below rfl hc.sheltered.tail answer
    have hu := hpop.1.unwind (hc.sheltered.head rfl)
    exact ⟨hu.1, hu.2.trans hpop.2⟩
  | @answer s tag a below answer =>
    exact hc.quiet (s.does_emit (.answered tag a)) hnone hc.below rfl hs answer
  | @withdraw s x below answer => exact hc.quiet (s.does_withdraw x) hnone hc.below rfl hs answer
  | finish | notified | delivered | swept => exact hc.quiet (.refl _) hnone hc.below rfl hs _
  | start | rest | round => cases hc.stack _ (List.mem_cons_self ..)
  | @hear s o l rest position total below answer =>
    have hi : ∀ f ∈ (s.hear l o).2, f.isInner := by simp [State.hear, Frame.isInner]
    have hrest : ∀ f ∈ Frame.delivering o rest (position + 1) total :: below, f.isBatch = false :=
      hc.turn rfl
    exact hc.quiet (s.does_hear l o) hi hrest rfl hs answer
  | sweep hn => exact notify_closing hc hn
  | @discard s w rest below answer hn =>
    have hrest : ∀ f ∈ Frame.discarding rest :: below, f.isBatch = false := hc.turn rfl
    obtain ⟨hclosing, hplan⟩ := hc.push (s.does_discard w) (s.discard_isInner w) hrest hs answer
    refine ⟨hclosing, hplan.trans ?_⟩
    simp [plan, State.notify_eq_none hn, Frame.taken]

theorem call_closing (hc : m.Closing) (hs : m.stack = []) (c : Call) :
    (m.state.begun c).Closing ∧ (m.state.begun c).plan = m.plan := by
  have hsh := (State.begun_book hc.scripted c).1
  have ht : ([] : List Frame).flatMap Frame.taken = m.stack.flatMap Frame.taken := by rw [hs]
  have hrefused : Closing ⟨m.state, [], .dropped⟩ ∧ plan ⟨m.state, [], .dropped⟩ = m.plan :=
    hc.quiet (.refl m.state) (List.forall_mem_nil _) (List.forall_mem_nil _) ht .empty .dropped
  cases c with
  | act a =>
    have hp := hc.quiet (State.does_perform hc.dropped a) (m.state.perform_isInner a)
      (List.forall_mem_nil _) ht ((List.append_nil _).symm ▸ hsh) (m.state.perform a).2.2
    rwa [List.append_nil] at hp
  | advance lsn =>
    rw [State.begun, State.begin, State.advance_of_dropped hc.dropped]
    exact hrefused
  | drop =>
    have hd : m.state.drop = (m.state, [], .dropped) := if_pos hc.dropped
    rw [State.begun, State.begin, hd]
    exact hrefused

theorem moments_closing (hc : m.Closing) (h : ReflTransGen Next m m') :
    m'.Closing ∧ m'.plan = m.plan := by
  induction h with
  | refl => exact ⟨hc, rfl⟩
  | tail _ h ih =>
    obtain ⟨hc', hp⟩ := ih
    cases h with
    | step h =>
      obtain ⟨hs, he⟩ := step_closing hc' h
      exact ⟨hs, he.trans hp⟩
    | call c hs hq =>
      obtain ⟨hb, he⟩ := call_closing hc' hs c
      exact ⟨hb, he.trans hp⟩

theorem Live.begun_drop {initial : Lsn} (hl : m.Live initial) (hs : m.stack = []) :
    (m.state.begun .drop).Closing ∧ (m.state.begun .drop).plan =
      deedsIn m.state.history ++ m.state.queue.flatMap notified ++
        m.state.waiters.flatMap abandoned := by
  have hd : m.state.begun .drop =
      ⟨{ m.state with dropped := true, waiters := [] }, [.discarding m.state.waiters], .nothing⟩ := by
    have hlive : ¬ m.state.dropped = true := by rw [hl.sound.live]; decide
    rw [State.begun, State.begin, State.drop, if_neg hlive]
  rw [hd]
  refine ⟨⟨rfl, rfl, hl.late hs, ?_, .over .empty rfl⟩, ?_⟩
  · intro f hm
    rw [List.mem_singleton.mp hm]
    rfl
  · simp [plan, Frame.taken]

theorem plan_at_rest (h : m.step = none) : m.plan = deedsIn m.state.history := by
  obtain ⟨hs, hq⟩ := idle_of_step h
  simp [plan, hs, hq]

/-! ### After the drop -/

theorem mem_settledIn {es : List Entry} {cell : Nat} {o : Result.Outcome Lsn} :
    (cell, o) ∈ settledIn es ↔ .settled cell o ∈ deedsIn es := by
  constructor
  · intro h
    obtain ⟨e, he, hs⟩ := List.mem_filterMap.mp h
    cases e with
    | settled =>
      cases hs
      exact List.mem_filter.mpr ⟨he, rfl⟩
    | _ => cases hs
  · exact fun h => List.mem_filterMap.mpr ⟨_, (List.mem_filter.mp h).1, rfl⟩

theorem recorded_deedsIn (es : List Entry) :
    (deedsIn es).filterMap (·.recorded?) = es.filterMap (·.recorded?) := by
  apply filterMap_kinds
  intro e he
  cases e with
  | recorded => cases he
  | _ => rfl

variable {initial target : Lsn} {t cell : Nat} {ended : Machine}

/-- The whole of the drop: the notifier runs its queue, then the results that wait are abandoned. -/
theorem Live.deeds_drop (hl : m.Live initial) (hs : m.stack = [])
    (h : ReflTransGen Next (m.state.begun .drop) ended) (hrest : ended.step = none) :
    deedsIn ended.state.history = deedsIn m.state.history ++ m.state.queue.flatMap notified ++
      m.state.waiters.flatMap abandoned := by
  obtain ⟨hc, hp⟩ := hl.begun_drop hs
  rw [← plan_at_rest hrest, (moments_closing hc h).2, hp]

theorem Live.recorded_drop (hl : m.Live initial) (hs : m.stack = [])
    (h : ReflTransGen Next (m.state.begun .drop) ended) (hrest : ended.step = none) :
    ended.state.history.filterMap (·.recorded?) = m.state.history.filterMap (·.recorded?) := by
  have hn : (m.state.queue.flatMap notified).filterMap (·.recorded?) = [] := by
    rw [List.filterMap_flatMap, List.flatMap_eq_nil_iff]
    intro p _
    unfold notified
    split <;> rfl
  have ha : (m.state.waiters.flatMap abandoned).filterMap (·.recorded?) = [] := by
    rw [List.filterMap_flatMap, List.flatMap_eq_nil_iff]
    intro w _
    unfold abandoned
    split <;> rfl
  rw [← recorded_deedsIn, hl.deeds_drop hs h hrest, List.filterMap_append, List.filterMap_append,
    hn, ha, List.append_nil, List.append_nil, recorded_deedsIn]

/-- A result that nobody has settled by then has the first position that reached its target, from the
notifier, or is abandoned. -/
theorem Live.outcome_drop (hl : m.Live initial) (hs : m.stack = []) (ht : m.book.Tied t cell)
    (htarget : targetOf? m.state.trace t = some target)
    (h : ReflTransGen Next (m.state.begun .drop) ended) (hrest : ended.step = none)
    (hk : ended.book.Settled) :
    ended.state.outcomeAt cell = some ((reached? initial m.state.trace t).elim
      (.failed (.router .abandoned)) .value) := by
  have hdeeds := hl.deeds_drop hs h hrest
  have hdone : ∀ {o}, .settled cell o ∈ deedsIn ended.state.history →
      ended.state.outcomeAt cell = some o :=
    fun hm => hk.outcome_iff.mpr (mem_settledIn.mpr hm)
  cases hl.fate ht htarget with
  | @settled lsn hr _ hsettled =>
    rw [hr]
    apply hdone
    rw [hdeeds, List.append_assoc]
    exact List.mem_append_left _ (mem_settledIn.mp hsettled)
  | @due w lsn hr _ hw hc =>
    rw [hr]
    apply hdone
    have hq : (w, lsn) ∈ m.state.queue := by
      simpa [Ledger.due, ledger, State.ledger, hs, batchOf, hl.late hs] using hw
    rw [hdeeds]
    apply List.mem_append_left
    apply List.mem_append_right
    refine List.mem_flatMap.mpr ⟨_, hq, ?_⟩
    simp [notified, hc]
  | @ahead w hr _ hw hc =>
    rw [hr]
    apply hdone
    rw [hdeeds]
    apply List.mem_append_right
    refine List.mem_flatMap.mpr ⟨w, hw, ?_⟩
    simp [abandoned, hc]

theorem Closing.all_settled (hc : m.Closing) (hk : m.book.Settled) (hrest : m.step = none) {cell : Nat}
    (h : cell < m.state.cells.length) : (m.state.outcomeAt cell).isSome := by
  obtain ⟨hs, hq⟩ := idle_of_step hrest
  have ho : m.book.owed = [] := by
    simp [Book.owed, book, State.book, hs, hq, hc.waiters, hc.late]
  have hperm := hk.cells
  rw [ho, List.append_nil] at hperm
  obtain ⟨p, hp, rfl⟩ := List.mem_map.mp (hperm.symm.subset (List.mem_range.mpr h))
  have hv : m.state.outcomeAt p.1 = some p.2 := hk.outcome_iff.mpr hp
  rw [hv]
  rfl

variable {metrics : Metrics} {later : Machine} {name : String}

/-- An awaited result, at any moment after the call. The first position that is recorded at or after the
call and reaches the target is the only outcome that it can have while the list is in use, and with nothing
under way it has that outcome if the latest position is at the target. The drop of the list starts the
callbacks in the queue of the notifier, in their order, then it abandons the results that wait for a position
ahead, and it starts no other callback; after it each result is settled. No result is ever settled twice, and a
listener hears the outcome of its result once, as soon as there is one. -/
theorem awaits_settle (hm : ReflTransGen Next (opened initial metrics) m)
    (hlive : m.state.dropped = false) (ha : m.Performs (.await name target) m')
    (hlater : ReflTransGen Next m' later) :
    let cell := m.state.cells.length
    let outcome := later.state.outcomeAt cell
    m'.state.results.find? name = some cell ∧
    ∃ since, later.state.history = m.state.history ++ since ∧
      let reached := (m.state.latest :: since.filterMap (·.recorded?)).find? (target ≤ ·)
      (later.state.dropped = false →
        (∀ o, outcome = some o → ∃ lsn, reached = some lsn ∧ o = .value lsn) ∧
        (later.step = none → outcome = reached.map .value ∧
          (outcome.isSome ↔ target ≤ later.state.latest)) ∧
        (later.stack = [] → ∀ ended, ReflTransGen Next (later.state.begun .drop) ended →
          ended.step = none →
          deedsIn ended.state.history = deedsIn later.state.history ++
            later.state.queue.flatMap notified ++ later.state.waiters.flatMap abandoned)) ∧
      (later.state.dropped = true → later.step = none →
        outcome = some (reached.elim (.failed (.router .abandoned)) .value) ∧
        ∀ c < later.state.cells.length, (later.state.outcomeAt c).isSome) ∧
      ((settledIn later.state.history).map (·.1)).Nodup ∧
      (∀ c o, later.state.outcomeAt c = some o ↔ (c, o) ∈ settledIn later.state.history) ∧
      (later.stack = [] → ∀ serial c, .listening serial c ∈ later.state.history →
        (heardIn later.state.history).filter (·.1 = serial) =
          ((later.state.outcomeAt c).map (serial, ·)).toList) := by
  intro cell outcome
  have hl := moments_live hm hlive
  obtain ⟨hsheltered, hkept⟩ := moments_kept hm
  have hreach : ∀ {x}, ReflTransGen Next m' x → ReflTransGen Next (opened initial metrics) x :=
    fun h => (hm.tail ha.next).trans h
  have hk := (moments_kept (hreach hlater)).2
  obtain ⟨htied, htarget, since, hsince, hreached⟩ := ha.later hl hkept.named hsheltered hlater
  refine ⟨(ha.await_state hlive).1, since, hsince, ?_, ?_, ?_, ?_, ?_⟩
  · intro hd
    have hll := moments_live (hreach hlater) hd
    rw [← hreached]
    refine ⟨fun o ho => hll.outcome hk.settled htied htarget ho, ?_, ?_⟩
    · exact fun hrest => hll.at_rest hk.settled htied htarget hrest
    · exact fun hs ended hend hrest => hll.deeds_drop hs hend hrest
  · intro hd hrest
    have hlive' : m'.state.dropped = false := by
      rw [ha.state]
      exact ((State.Steady.refl m.state).perform _).dropped.trans hlive
    -- what held of the result at the last moment before the drop decides its outcome
    obtain ⟨last, hlast, hlastlive, hempty, hend⟩ := moments_drop hlater hlive' hd
    have hll := moments_live (hreach hlast) hlastlive
    obtain ⟨htied', htarget', since', hsince', hreached'⟩ :=
      ha.later hl hkept.named hsheltered hlast
    have hsame : since.filterMap (·.recorded?) = since'.filterMap (·.recorded?) := by
      have hr := hll.recorded_drop hempty hend hrest
      rw [hsince, hsince', List.filterMap_append, List.filterMap_append] at hr
      exact List.append_cancel_left hr
    rw [hsame, ← hreached']
    refine ⟨hll.outcome_drop hempty htied' htarget' hend hrest hk.settled, fun c hc => ?_⟩
    have hclosing := (moments_closing (hll.begun_drop hempty).1 hend).1
    exact hclosing.all_settled hk.settled hrest hc
  · exact (List.nodup_append.mp hk.settled.nodup).1
  · exact fun c o => hk.settled.outcome_iff
  · intro hs serial c hm
    refine hk.attended.heard ?_ hm
    show later.stack.flatMap Frame.audience = []
    rw [hs]
    rfl

/-- Two results wait when the list is dropped, one of them made by a callback that panics; the queue of the
notifier holds a callback that listens to the other one. -/
theorem awaits_settle_nested :
    let s := ((State.opened .zero {}).calls [
      .act (.register "a" ⟨1, 1⟩ [.await "far" ⟨9, 0⟩, .listen "far" "l" [] false] true),
      .act (.register "b" ⟨1, 9⟩ [] false), .advance ⟨1, 2⟩]).1
    let made := s.begun (.act (.await "r" ⟨1, 5⟩))
    let due := made.state.begun (.act (.register "q" ⟨1, 0⟩ [.listen "r" "m" [] true] false))
    let t := (due.state.call .drop).1
    deedsIn t.history = deedsIn due.state.history ++ [.started 4 (some "q") ⟨1, 2⟩ .notifier,
      .settled 1 (.failed (.router .abandoned)), .settled 0 (.failed (.router .abandoned))] ∧
    t.outcomeAt 1 = some (.failed (.router .abandoned)) ∧
    (heardIn t.history).filter (·.1 = 1) = [(1, .failed (.router .abandoned))] ∧
    (∀ c < 2, (t.outcomeAt c).isSome) := by
  intro s made due t
  obtain ⟨last, hm⟩ := calls_moments (s := State.opened .zero {}) rfl [
    .act (.register "a" ⟨1, 1⟩ [.await "far" ⟨9, 0⟩, .listen "far" "l" [] false] true),
    .act (.register "b" ⟨1, 9⟩ [] false), .advance ⟨1, 2⟩] .nothing
  have hlive : s.dropped = false := by decide +kernel
  have hmade : made.stack = [] := List.isEmpty_iff.mp (by decide +kernel)
  have hdue : due.stack = [] := List.isEmpty_iff.mp (by decide +kernel)
  have hnext : ReflTransGen Next made due := .single (.call _ hmade nofun)
  have hend : ReflTransGen Next (due.state.begun .drop) (due.state.begun .drop).run := run_moments _
  have hrest := step_run (due.state.begun .drop)
  have ha : Performs ⟨s, [], last⟩ (.await "r" ⟨1, 5⟩) made := .call rfl
  -- first at the moment before the drop, then at the end of it
  obtain ⟨-, _, -, hbefore, -⟩ := awaits_settle hm hlive ha hnext
  obtain ⟨-, since, hsince, -, hafter, -, -, hheard⟩ := awaits_settle hm hlive ha
    ((hnext.tail (.call .drop hdue nofun)).trans hend)
  have hdeeds := (hbefore (by decide +kernel)).2.2 hdue _ hend hrest
  obtain ⟨houtcome, hall⟩ := hafter (by decide +kernel) hrest
  have hsince' : since = t.history.drop s.history.length := by
    rw [show t.history = s.history ++ since from hsince, List.drop_left]
  have hleft : due.state.queue.flatMap notified ++ due.state.waiters.flatMap abandoned =
      [.started 4 (some "q") ⟨1, 2⟩ .notifier, .settled 1 (.failed (.router .abandoned)),
        .settled 0 (.failed (.router .abandoned))] := by decide +kernel
  have hcell : s.cells.length = 1 := by decide +kernel
  have hreached : (s.latest :: since.filterMap (·.recorded?)).find? (⟨1, 5⟩ ≤ ·) = none := by
    rw [hsince']
    decide +kernel
  have hone : t.outcomeAt 1 = some (.failed (.router .abandoned)) := by
    rw [← hcell]
    exact houtcome.trans (by rw [show List.find? _ _ = none from hreached]; rfl)
  refine ⟨?_, hone, ?_, ?_⟩
  · rw [← hleft, ← List.append_assoc]
    exact hdeeds
  · have hstack : (due.state.begun .drop).run.stack = [] := (idle_of_step hrest).1
    have hlistening : .listening 1 1 ∈ t.history := by decide +kernel
    exact (hheard hstack 1 1 hlistening).trans (congrArg (fun o => (o.map (1, ·)).toList) hone)
  · have hlength : t.cells.length = 2 := by decide +kernel
    exact hlength ▸ hall

end Machine
end ReplicaRouting.WaitList
