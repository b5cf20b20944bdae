import ReplicaRouting.Proofs.Log.Muting
import ReplicaRouting.Result.Delivery
/-!
Runs of a network with a minimum severity: each step leaves out the lines below it. No operation looks at
the lines, so networks that differ in such lines only stay so.
-/

namespace ReplicaRouting.Result

variable {V : Type}

def Entry.logged? : Entry V → Option Log.Record
  | .logged r => some r
  | _ => none

def Entry.enabled (minimum : Log.Severity) : Entry V → Bool
  | .logged r => minimum.enabled r.severity
  | _ => true

namespace Network

/-- Without the lines below the minimum. -/
def thin (minimum : Log.Severity) (n : Network V) : Network V :=
  { n with history := n.history.filter (·.enabled minimum) }

def muting : Log.Muting (Network V) where
  lines n := n.history.filterMap (·.logged?)
  thin := thin
  thin_thin {s t} h n := by
    simp only [thin, List.filter_filter]
    congr 1
    apply List.filter_congr
    intro e _
    cases e with
    | logged r =>
      cases ht : t.enabled r.severity with
      | false => simp [Entry.enabled, ht]
      | true => simp [Entry.enabled, ht, Log.Severity.enabled_of_le h ht]
    | _ => rfl
  lines_thin minimum n := by
    simp only [thin, List.filterMap_filter, List.filter_filterMap]
    congr 1
    funext e
    cases e with
    | logged r => cases h : minimum.enabled r.severity <;>
        simp [Entry.enabled, Entry.logged?, Option.filter, h]
    | _ => rfl
  thin_trace n := by
    have h : n.history.filter (·.enabled .trace) = n.history := by
      apply List.filter_eq_self.mpr
      intro e _
      cases e with
      | logged r => exact Log.Severity.trace_enabled r.severity
      | _ => rfl
    rw [thin, h]

end Network

def Machine.runAt (minimum : Log.Severity) (m : Machine V) : Machine V :=
  match _h : m.step with
  | none => m
  | some m' => runAt minimum { m' with network := m'.network.thin minimum }
termination_by m.weight
decreasing_by exact (weight_step _h : m'.weight < m.weight)

namespace Network

def deliverAt (minimum : Log.Severity) (n : Network V) (frames : List (Frame V)) : Network V :=
  (Machine.runAt minimum ⟨n.thin minimum, frames, .nothing⟩).network

def callAt (minimum : Log.Severity) (n : Network V) (a : Action V) : Network V × Answer V :=
  let begun := n.perform a
  let m := Machine.runAt minimum ⟨begun.1.thin minimum, begun.2.1, begun.2.2⟩
  (m.network, m.answer)

def callsAt (minimum : Log.Severity) (n : Network V) : List (Action V) → Network V × List (Answer V)
  | [] => (n.thin minimum, [])
  | a :: as =>
    let called := n.callAt minimum a
    let rest := called.1.callsAt minimum as
    (rest.1, called.2 :: rest.2)

/-- The networks differ at most in lines below the minimum. -/
inductive Alike (minimum : Log.Severity) (n : Network V) : Network V → Prop
  | intro {history : List (Entry V)}
      (h : n.history.filter (·.enabled minimum) = history.filter (·.enabled minimum)) :
      Alike minimum n { n with history }

def Begun {β : Type} (minimum : Log.Severity) (r r' : Network V × β) : Prop :=
  Alike minimum r.1 r'.1 ∧ r.2 = r'.2

section Alike
variable {minimum : Log.Severity} {n n' : Network V}

theorem Alike.refl (n : Network V) : Alike minimum n n := .intro rfl

theorem Alike.thin_eq (h : Alike minimum n n') : n.thin minimum = n'.thin minimum := by
  obtain ⟨h⟩ := h
  simp only [thin, h]

theorem Alike.thin (h : Alike minimum n n') : Alike minimum n (n'.thin minimum) := by
  obtain ⟨h⟩ := h
  refine .intro (h.trans ?_)
  simp only [List.filter_filter, Bool.and_self]

theorem filter_concat {es es' : List (Entry V)}
    (h : es.filter (·.enabled minimum) = es'.filter (·.enabled minimum)) (e : Entry V) :
    (es ++ [e]).filter (·.enabled minimum) = (es' ++ [e]).filter (·.enabled minimum) := by
  rw [List.filter_append, List.filter_append, h]

theorem Alike.emit (h : Alike minimum n n') (e : Entry V) :
    Alike minimum (n.emit e) (n'.emit e) := by
  obtain ⟨h⟩ := h
  exact .intro (filter_concat h e)

theorem Alike.map (h : Alike minimum n n') (f : Network V → Network V)
    (hf : ∀ n es, f { n with history := es } = { f n with history := es }) :
    Alike minimum (f n) (f n') := by
  obtain @⟨history, h⟩ := h
  have hn := congrArg (·.history) (hf n n.history)
  rw [hf n history]
  exact .intro ((congrArg _ hn).trans h)

theorem Alike.count (h : Alike minimum n n') (f : Metrics → Metrics) :
    Alike minimum { n with metrics := f n.metrics } { n' with metrics := f n'.metrics } :=
  h.map (fun n => { n with metrics := f n.metrics }) fun _ _ => rfl

theorem Alike.log (h : Alike minimum n n') (r : Log.Record) : Alike minimum (n.log r) (n'.log r) :=
  h.emit _

theorem Alike.outcomeAt (h : Alike minimum n n') (cell : Nat) :
    n'.outcomeAt cell = n.outcomeAt cell := by
  obtain ⟨h⟩ := h
  rfl

theorem Alike.contextAt (h : Alike minimum n n') (cell : Nat) :
    n'.contextAt cell = n.contextAt cell := by
  obtain ⟨h⟩ := h
  rfl

theorem Alike.freshContext (h : Alike minimum n n') (token : Option TokenValue) :
    Begun minimum (n.freshContext token) (n'.freshContext token) := by
  obtain ⟨h⟩ := h
  exact ⟨.intro h, rfl⟩

theorem Alike.addCell (h : Alike minimum n n') (c : Cell V) :
    Begun minimum (n.addCell c) (n'.addCell c) := by
  obtain ⟨h⟩ := h
  exact ⟨.intro h, rfl⟩

theorem Alike.settle (h : Alike minimum n n') (cell : Nat) (o : Outcome V) :
    Begun minimum (n.settle cell o) (n'.settle cell o) := by
  obtain ⟨h⟩ := h
  simp only [Network.settle]
  split <;> exact ⟨.intro h, rfl⟩

theorem Alike.start (h : Alike minimum n n') (r : Registered V) (o : Outcome V)
    (context : Option Context) : Begun minimum (n.start r o context) (n'.start r o context) := by
  have he := h.emit (.started r.serial r.cell r.listener.tag? o context)
  obtain ⟨serial, cell, listener⟩ := r
  cases listener with
  | script tag steps panics => exact ⟨he, rfl⟩
  | adapter into =>
    obtain ⟨hs, hf⟩ := he.settle into o.adapt
    exact ⟨hs, congrArg (·.1) hf⟩
  | receiver =>
    obtain ⟨h⟩ := h
    exact ⟨.intro (filter_concat h _), rfl⟩
  | recorder read =>
    cases o with
    | value v => exact ⟨he, rfl⟩
    | failed f => exact ⟨(he.count (·.countFailure f.routed.code)).log _, rfl⟩

theorem Alike.register (h : Alike minimum n n') (cell : Nat) (l : Listener V) :
    Begun minimum (n.register cell l) (n'.register cell l) := by
  have hm := (h.map (fun n => { n with registrations := n.registrations + 1 }) fun _ _ => rfl).emit
    (.registered n.registrations cell)
  obtain ⟨h⟩ := h
  simp only [Network.register, Network.outcomeAt, Network.emit]
  split
  · exact ⟨.intro (filter_concat h _), rfl⟩
  · exact hm.start ..

theorem Alike.takeCompleter (h : Alike minimum n n') (name : String) :
    Option.Rel (Begun minimum) (n.takeCompleter name) (n'.takeCompleter name) := by
  obtain ⟨h⟩ := h
  simp only [Network.takeCompleter]
  cases n.completers.find? name with
  | none => exact .none
  | some cell => exact .some ⟨.intro h, rfl⟩

theorem Alike.dropCompleter (h : Alike minimum n n') (name : String) :
    Begun minimum (n.dropCompleter name) (n'.dropCompleter name) := by
  have ht := h.takeCompleter name
  simp only [Network.dropCompleter]
  generalize n.takeCompleter name = t, n'.takeCompleter name = t' at ht
  cases ht with
  | none => exact ⟨h, rfl⟩
  | some ht =>
    obtain ⟨ha, hc⟩ := ht
    dsimp only
    rw [← hc, ha.contextAt]
    exact ha.settle ..

theorem Alike.addPending (h : Alike minimum n n') (name : String) (context : Option Context) :
    Begun minimum (n.addPending name context) (n'.addPending name context) := by
  have hn := h.map (fun n => { (n.addCell ⟨context, none⟩).1 with
    names := n.names.bind name n.cells.length }) fun _ _ => rfl
  obtain ⟨hd, hf⟩ := hn.dropCompleter name
  have hb := hd.map (fun m => { m with
    completers := m.completers.bind name n.cells.length }) fun _ _ => rfl
  obtain ⟨h⟩ := h
  exact ⟨hb, congrArg (·.1) hf⟩

theorem Alike.addSettled (h : Alike minimum n n') (name : String) (context : Option Context)
    (o : Outcome V) : Alike minimum (n.addSettled name context o) (n'.addSettled name context o) :=
  h.map (·.addSettled name context o) fun _ _ => rfl

theorem Alike.addAdapted (h : Alike minimum n n') (source : Nat) (context : Context) :
    Begun minimum (n.addAdapted source context).1 (n'.addAdapted source context).1 ∧
      (n.addAdapted source context).2 = (n'.addAdapted source context).2 := by
  obtain ⟨ha, hc⟩ := h.addCell ⟨some context, none⟩
  have hr := ha.register source (.adapter (n.addCell ⟨some context, none⟩).2)
  obtain ⟨h⟩ := h
  exact ⟨hr, rfl⟩

theorem Alike.poll (h : Alike minimum n n') (as : String) :
    Begun minimum (n.poll as) (n'.poll as) := by
  have hs := h
  obtain ⟨h⟩ := h
  simp only [Network.poll]
  split
  · exact ⟨hs, rfl⟩
  · exact ⟨hs, rfl⟩
  · exact ⟨.intro h, rfl⟩

theorem Alike.perform (h : Alike minimum n n') (a : Action V) :
    Begun minimum (n.perform a) (n'.perform a) := by
  have hs := h
  cases a with
  | pending name token =>
    obtain ⟨ha, hf⟩ := (h.freshContext token).1.addPending name (some (n.freshContext token).2)
    obtain ⟨h⟩ := h
    exact ⟨ha, congrArg (·, Answer.nothing) hf⟩
  | settled name o token =>
    obtain ⟨h⟩ := h
    exact ⟨.intro h, rfl⟩
  | response name =>
    obtain ⟨ha, hf⟩ := h.addPending name none
    exact ⟨ha, congrArg (·, Answer.nothing) hf⟩
  | settledResponse name o => exact ⟨h.addSettled name none o, rfl⟩
  | adapt source name token =>
    have hf := (h.freshContext token).1
    obtain ⟨h⟩ := h
    simp only [Network.perform]
    split
    · exact ⟨hs, rfl⟩
    · rename_i cell _
      obtain ⟨⟨ha, hr⟩, hc⟩ := hf.addAdapted cell (n.freshContext token).2
      refine ⟨?_, congrArg (·, Answer.nothing) hr⟩
      exact ha.map (fun m => { m with names := m.names.bind name n.cells.length }) fun _ _ => rfl
  | clone source name =>
    obtain ⟨h⟩ := h
    simp only [Network.perform]
    split
    · exact ⟨hs, rfl⟩
    · exact ⟨.intro h, rfl⟩
  | complete name o =>
    have ht := h.takeCompleter name
    simp only [Network.perform]
    generalize n.takeCompleter name = t, n'.takeCompleter name = t' at ht
    cases ht with
    | none => exact ⟨hs, rfl⟩
    | some ht =>
      obtain ⟨ha, hc⟩ := ht
      dsimp only
      rw [← hc]
      obtain ⟨hd, hf⟩ := ha.settle _ o
      exact ⟨hd, congrArg (fun r => (r.1, Answer.flag r.2)) hf⟩
  | abandon name =>
    obtain ⟨hd, hf⟩ := h.dropCompleter name
    obtain ⟨h⟩ := h
    simp only [Network.perform]
    split
    · exact ⟨hs, rfl⟩
    · exact ⟨hd, congrArg (fun r => (r.1, Answer.dropped)) hf⟩
  | listen name tag steps panics =>
    obtain ⟨h⟩ := h
    simp only [Network.perform]
    split
    · exact ⟨hs, rfl⟩
    · rename_i cell _
      obtain ⟨hr, hf⟩ := hs.register cell (.script tag steps panics)
      exact ⟨hr, congrArg (·, Answer.nothing) hf⟩
  | wait name as =>
    obtain ⟨h⟩ := h
    simp only [Network.perform]
    split
    · exact ⟨hs, rfl⟩
    · rename_i cell _
      have hw := hs.map (fun n => { n with
        waits := n.waits.bind as ⟨n.registrations, cell, none⟩ }) fun _ _ => rfl
      obtain ⟨hr, hf⟩ := hw.register cell .receiver
      obtain ⟨hp, ha⟩ := hr.poll as
      exact ⟨hp, Prod.ext hf ha⟩
  | poll as =>
    obtain ⟨hp, ha⟩ := h.poll as
    exact ⟨hp, congrArg (([], ·)) ha⟩
  | join as =>
    obtain ⟨h⟩ := h
    simp only [Network.perform, Network.outcomeAt]
    split
    · exact ⟨hs, rfl⟩
    · split
      · exact ⟨.intro h, rfl⟩
      · exact ⟨hs, rfl⟩
  | block name as =>
    obtain ⟨h⟩ := h
    simp only [Network.perform]
    split
    · exact ⟨hs, rfl⟩
    · exact ⟨.intro h, rfl⟩
  | completer | get | getTimeout | isDone | describe | context =>
    obtain ⟨h⟩ := h
    simp only [Network.perform, Network.outcomeAt]
    repeat' split
    all_goals exact ⟨hs, rfl⟩

end Alike
end Network

namespace Machine
variable {minimum : Log.Severity} {m m' : Machine V}

structure Alike (minimum : Log.Severity) (m m' : Machine V) : Prop where
  network : Network.Alike minimum m.network m'.network
  stack : m'.stack = m.stack
  answer : m'.answer = m.answer

theorem Alike.unwind (h : Alike minimum m m') : Alike minimum m.unwind m'.unwind := by
  obtain ⟨hn, hs, ha⟩ := h
  unfold Machine.unwind
  rw [hs]
  split
  · exact ⟨hn, rfl, rfl⟩
  · exact ⟨hn.log _, rfl, ha⟩

theorem Alike.step (h : Alike minimum m m') :
    Option.Rel (Alike minimum) m.step m'.step := by
  obtain ⟨n, stack, answer⟩ := m
  obtain ⟨n', stack', answer'⟩ := m'
  obtain ⟨hn, rfl, rfl⟩ := h
  dsimp only at hn
  cases stack' with
  | nil => exact .none
  | cons f below =>
    cases f with
    | answering tag a => exact .some ⟨hn.emit _, rfl, rfl⟩
    | body tag steps panics =>
      cases steps with
      | cons a steps =>
        obtain ⟨hp, hr⟩ := hn.perform a
        apply Option.Rel.some
        refine ⟨hp, ?_, rfl⟩
        dsimp only
        rw [hr]
      | nil =>
        apply Option.Rel.some
        cases panics with
        | false => exact ⟨hn, rfl, rfl⟩
        | true => exact Alike.unwind ⟨hn, rfl, rfl⟩
    | delivering o c rest position total =>
      cases rest with
      | nil => exact .some ⟨hn, rfl, rfl⟩
      | cons r rest =>
        obtain ⟨hs, hf⟩ := hn.start r o c
        exact .some ⟨hs, congrArg (· ++ _) hf.symm, rfl⟩

theorem Alike.halts (h : Alike minimum m m') (hn : m.step = none) : m'.step = none := by
  have hs := h.step
  rw [hn] at hs
  generalize m'.step = k at hs
  cases hs
  rfl

theorem Alike.moves (h : Alike minimum m m') {k : Machine V} (hn : m.step = some k) :
    ∃ k', m'.step = some k' ∧ Alike minimum k k' := by
  have hs := h.step
  rw [hn] at hs
  generalize m'.step = k' at hs
  cases hs with
  | some hk => exact ⟨_, rfl, hk⟩

/-- Leaving out lines on one side keeps the two sides in step. -/
theorem Alike.runAt (h : Alike minimum m m') : Alike minimum m.run (m'.runAt minimum) := by
  induction m using Machine.run.induct generalizing m' with
  | case1 m hn =>
    rw [Machine.run, hn, Machine.runAt, h.halts hn]
    exact h
  | case2 m k hn ih =>
    obtain ⟨k', hn', hk⟩ := h.moves hn
    rw [Machine.run, hn, Machine.runAt, hn']
    exact ih ⟨hk.network.thin, hk.stack, hk.answer⟩

end Machine

namespace Network
variable {minimum : Log.Severity} {n n' : Network V}

theorem Alike.deliverAt (h : Alike minimum n n') (frames : List (Frame V)) :
    Alike minimum (n.deliver frames) (n'.deliverAt minimum frames) := by
  have hm : Machine.Alike minimum ⟨n, frames, .nothing⟩ ⟨n'.thin minimum, frames, .nothing⟩ := ⟨h.thin, rfl, rfl⟩
  exact hm.runAt.network

theorem Alike.callAt (h : Alike minimum n n') (a : Action V) :
    Alike minimum (n.call a).1 (n'.callAt minimum a).1 ∧
      (n'.callAt minimum a).2 = (n.call a).2 := by
  obtain ⟨hp, hr⟩ := h.perform a
  have hm : Machine.Alike minimum ⟨(n.perform a).1, (n.perform a).2.1, (n.perform a).2.2⟩
      ⟨(n'.perform a).1.thin minimum, (n'.perform a).2.1, (n'.perform a).2.2⟩ :=
    ⟨hp.thin, congrArg (·.1) hr.symm, congrArg (·.2) hr.symm⟩
  exact ⟨hm.runAt.network, hm.runAt.answer⟩

theorem Alike.callsAt (h : Alike minimum n n') (as : List (Action V)) :
    n'.callsAt minimum as = ((n.calls as).1.thin minimum, (n.calls as).2) := by
  induction as generalizing n n' with
  | nil => exact congrArg (·, []) h.thin_eq.symm
  | cons a as ih =>
    obtain ⟨hc, ha⟩ := h.callAt a
    have hcs := ih hc
    rw [Network.callsAt, Network.calls]
    dsimp only
    rw [hcs, ha]

/-- A minimum severity leaves out lines, and changes nothing else. -/
theorem callsAt_eq (minimum : Log.Severity) (n : Network V) (as : List (Action V)) :
    n.callsAt minimum as = (muting.thin minimum (n.calls as).1, (n.calls as).2) :=
  (Alike.refl n).callsAt as

end Network
end ReplicaRouting.Result
