import ReplicaRouting.Proofs.WaitList.Order
import ReplicaRouting.Proofs.WaitList.Steady
/-!
A list without one of its registrations. Tickets drawn before that registration keep their numbers, those drawn
after it move down by one. As long as its callback does not start, the list and the one without it do the same
work in the same order.
-/

namespace ReplicaRouting.WaitList

/-! ### Without a ticket -/

/-- The number of another ticket where `gone` was not drawn. -/
def renumber (gone ticket : Nat) : Nat := if gone < ticket then ticket - 1 else ticket

section Renumber
variable {gone t u : Nat}

theorem renumber_lt_iff (ht : t ≠ gone) (hu : u ≠ gone) : renumber gone t < renumber gone u ↔ t < u := by
  unfold renumber
  split <;> split <;> omega

theorem renumber_inj (ht : t ≠ gone) (hu : u ≠ gone) : renumber gone t = renumber gone u ↔ t = u := by
  unfold renumber
  split <;> split <;> omega

theorem renumber_of_lt (h : t < gone) : renumber gone t = t := if_neg (by omega)

end Renumber

def Waiter.renumber (gone : Nat) (w : Waiter) : Waiter :=
  { w with ticket := WaitList.renumber gone w.ticket }

def Handle.renumber (gone : Nat) (h : Handle) : Handle :=
  { h with ticket := WaitList.renumber gone h.ticket }

def Handle.without? (gone : Nat) (h : Handle) : Option Handle :=
  if h.ticket = gone then none else some (h.renumber gone)

theorem Handle.without?_gone {gone : Nat} {h : Handle} (hg : h.ticket = gone) : h.without? gone = none :=
  if_pos hg

theorem Handle.without?_of_lt {gone : Nat} {h : Handle} (hl : h.ticket < gone) : h.without? gone = some h := by
  rw [without?, if_neg (Nat.ne_of_lt hl), renumber, renumber_of_lt hl]

theorem Handle.without?_other {gone : Nat} {h : Handle} (hg : h.ticket ≠ gone) :
    h.without? gone = some (h.renumber gone) :=
  if_neg hg

namespace Answer

def renumber (gone : Nat) : Answer → Answer
  | .handle h => .handle (h.renumber gone)
  | a => a

/-- What is left of an answer that tells how many wait, or whether a name stands for a handle, is that there
was one. -/
def plain : Answer → Answer
  | .flag _ | .count _ | .metrics _ | .text _ | .noHandle => .nothing
  | a => a

def without (gone : Nat) : Answer → Answer
  | .handle h => ((h.without? gone).map .handle).getD .nothing
  | a => a.plain

end Answer

namespace Entry

/-- Without the lines about cancellations, and answers plain; a cancellation itself is there with its answer. -/
def plain? : Entry → Option Entry
  | .answered tag a => some (.answered tag a.plain)
  | .logged r => if r.event = Log.Event.waiterCancelled.name then none else some (.logged r)
  | e => some e

/-- What such an entry is where the ticket was not drawn. -/
def without? (gone : Nat) : Entry → Option Entry
  | .registered t target => if t = gone then none else some (.registered (renumber gone t) target)
  | .started t tag lsn place => if t = gone then none else some (.started (renumber gone t) tag lsn place)
  | .cancelled h removed => (h.without? gone).map (.cancelled · removed)
  | .answered tag a => some (.answered tag (a.without gone))
  | e => e.plain?

end Entry

def others (gone : Nat) (ws : List Waiter) : List Waiter :=
  (ws.filter (·.ticket ≠ gone)).map (·.renumber gone)

section Others
variable {gone : Nat} {w : Waiter} {ws : List Waiter} {x : Handle}

theorem others_cons_gone (hw : w.ticket = gone) (ws : List Waiter) : others gone (w :: ws) = others gone ws := by
  simp [others, hw]

theorem others_cons (hw : w.ticket ≠ gone) (ws : List Waiter) :
    others gone (w :: ws) = w.renumber gone :: others gone ws := by
  simp [others, hw]

theorem others_of_absent (h : ∀ w ∈ ws, w.ticket ≠ gone) : others gone ws = ws.map (·.renumber gone) := by
  have hf : ws.filter (·.ticket ≠ gone) = ws :=
    List.filter_eq_self.mpr fun w hw => decide_eq_true (h w hw)
  rw [others, hf]

theorem others_of_lt (h : ∀ w ∈ ws, w.ticket < gone) : others gone ws = ws := by
  rw [others_of_absent fun w hw => Nat.ne_of_lt (h w hw)]
  refine (List.map_congr_left fun w hw => ?_).trans (List.map_id ws)
  rw [Waiter.renumber, renumber_of_lt (h w hw)]
  rfl

theorem others_filter (p : Lsn → Bool) (ws : List Waiter) :
    (others gone ws).filter (fun w => p w.target) = others gone (ws.filter fun w => p w.target) := by
  rw [others, others, List.filter_map, List.filter_filter, List.filter_filter]
  congr 1
  exact List.filter_congr fun w _ => Bool.and_comm ..

theorem sorted_insertWaiter (h : ws.Pairwise fun v w => v.target ≤ w.target) (w : Waiter) :
    (insertWaiter w ws).Pairwise fun v w => v.target ≤ w.target := by
  induction ws with
  | nil => exact List.pairwise_singleton ..
  | cons v vs ih =>
    obtain ⟨hv, hvs⟩ := List.pairwise_cons.mp h
    rw [insertWaiter]
    split
    · rename_i hlt
      have hle : w.target ≤ v.target := fun hl => Lsn.lt_irrefl _ (Lsn.lt_trans hlt hl)
      refine List.pairwise_cons.mpr ⟨fun u hu => ?_, h⟩
      rcases List.mem_cons.mp hu with rfl | hu
      · exact hle
      · exact Lsn.le_trans hle (hv u hu)
    · rename_i hle
      refine List.pairwise_cons.mpr ⟨fun u hu => ?_, ih hvs⟩
      rcases List.mem_cons.mp ((perm_insertWaiter w vs).mem_iff.mp hu) with rfl | hu
      · exact hle
      · exact hv u hu

theorem insertWaiter_of_lt (h : ∀ v ∈ ws, w.target < v.target) : insertWaiter w ws = w :: ws := by
  cases ws with
  | nil => rfl
  | cons v vs => exact if_pos (h v (List.mem_cons_self ..))

theorem others_insertWaiter_gone (hw : w.ticket = gone) (ws : List Waiter) :
    others gone (insertWaiter w ws) = others gone ws := by
  induction ws with
  | nil => exact others_cons_gone hw []
  | cons v vs ih =>
    rw [insertWaiter]
    split
    · exact others_cons_gone hw _
    · by_cases hv : v.ticket = gone
      · rw [others_cons_gone hv, others_cons_gone hv, ih]
      · rw [others_cons hv, others_cons hv, ih]

/-- The place of a new waiter among the others does not depend on the one left out. -/
theorem others_insertWaiter (hs : ws.Pairwise fun v w => v.target ≤ w.target) (hw : w.ticket ≠ gone) :
    others gone (insertWaiter w ws) = insertWaiter (w.renumber gone) (others gone ws) := by
  induction ws with
  | nil => exact others_cons hw []
  | cons v vs ih =>
    obtain ⟨hv, hvs⟩ := List.pairwise_cons.mp hs
    rw [insertWaiter]
    by_cases hlt : w.target < v.target
    · rw [if_pos hlt, others_cons hw]
      refine (insertWaiter_of_lt fun u' hu' => ?_).symm
      obtain ⟨u, hu, rfl⟩ := List.mem_map.mp hu'
      rcases List.mem_cons.mp (List.mem_filter.mp hu).1 with rfl | hu
      · exact hlt
      · exact Lsn.not_le.mp fun hle => Lsn.not_le.mpr hlt (Lsn.le_trans (hv u hu) hle)
    · rw [if_neg hlt]
      by_cases hg : v.ticket = gone
      · rw [others_cons_gone hg, others_cons_gone hg, ih hvs]
      · rw [others_cons hg, others_cons hg, insertWaiter, ih hvs]
        exact (if_neg hlt).symm

theorem isFor_renumber (hw : w.ticket ≠ gone) (hx : x.ticket ≠ gone) :
    (w.renumber gone).isFor (x.renumber gone) = w.isFor x := by
  have ht : (w.renumber gone).ticket = (x.renumber gone).ticket ↔ w.ticket = x.ticket := renumber_inj hw hx
  simp only [Waiter.isFor, decide_eq_decide.mpr ht]
  rfl

theorem isFor_gone (hw : w.ticket = gone) (hx : x.ticket ≠ gone) : w.isFor x = false :=
  Bool.eq_false_iff.mpr fun h => hx ((Waiter.isFor_iff.mp h).2.symm.trans hw)

theorem others_find?_isFor (hx : x.ticket ≠ gone) (ws : List Waiter) :
    (others gone ws).find? (·.isFor (x.renumber gone)) = (ws.find? (·.isFor x)).map (·.renumber gone) := by
  induction ws with
  | nil => rfl
  | cons w ws ih =>
    by_cases hw : w.ticket = gone
    · rw [others_cons_gone hw, List.find?_cons, isFor_gone hw hx, ih]
    · rw [others_cons hw, List.find?_cons, List.find?_cons, isFor_renumber hw hx, ih]
      cases w.isFor x <;> rfl

theorem others_filter_isFor (hx : x.ticket ≠ gone) (ws : List Waiter) :
    (others gone ws).filter (fun w => !w.isFor (x.renumber gone)) =
      others gone (ws.filter fun w => !w.isFor x) := by
  induction ws with
  | nil => rfl
  | cons w ws ih =>
    by_cases hw : w.ticket = gone
    · rw [others_cons_gone hw, List.filter_cons_of_pos (by rw [isFor_gone hw hx]; rfl),
        others_cons_gone hw, ih]
    · rw [others_cons hw, List.filter_cons, List.filter_cons, isFor_renumber hw hx, ih]
      split
      · rw [others_cons hw]
      · rfl

theorem others_filter_gone (hx : x.ticket = gone) (ws : List Waiter) :
    others gone (ws.filter fun w => !w.isFor x) = others gone ws := by
  rw [others, others, List.filter_filter]
  congr 1
  refine List.filter_congr fun w _ => ?_
  by_cases hw : w.ticket = gone
  · simp [hw]
  · have hf : w.isFor x = false := Bool.eq_false_iff.mpr fun h => hw ((Waiter.isFor_iff.mp h).2.trans hx)
    simp [hf]

end Others

/-! ### A list and the same without a registration -/

structure Waiting where
  tickets : Nat
  waiters : List Waiter
  late : List Waiter
  queue : List (Waiter × Lsn)

def State.waiting (s : State) : Waiting := ⟨s.tickets, s.waiters, s.late, s.queue⟩

/-- The answer tells how many wait. -/
def Action.isTally : Action → Bool
  | .pending | .metrics | .describe => true
  | _ => false

/-- The action goes by a name that stands for the handle of this registration. -/
def State.goesBy (s : State) (ticket : Nat) : Action → Bool
  | .cancel tag | .handle tag => (s.handles.find? tag).any (·.ticket = ticket)
  | _ => false

def Frame.isPlain : Frame → Bool
  | .body .. | .notifying _ | .delivering .. => true
  | _ => false

namespace Erasure

/-- The ticket was drawn, its waiter is a script that is not due, and all the others are where they were. -/
structure Without (gone : Nat) (v v' : Waiting) : Prop where
  known : gone ≤ v'.tickets
  tickets : v.tickets = v'.tickets + 1
  sorted : v.waiters.Pairwise fun v w => v.target ≤ w.target
  script : ∀ w ∈ v.waiters, w.ticket = gone → ∀ cell, w.callback ≠ .settle cell
  waiters : v'.waiters = others gone v.waiters
  late_other : ∀ w ∈ v.late, w.ticket ≠ gone
  late : v'.late = v.late.map (·.renumber gone)
  queue_other : ∀ p ∈ v.queue, p.1.ticket ≠ gone
  queue : v'.queue = v.queue.map fun p => (p.1.renumber gone, p.2)

/-- Since the registration the histories have grown by the same entries, but for those about it. -/
inductive Seen (gone : Nat) (base : List Entry) (es : List Entry) : List Entry → Prop
  | intro {new new' : List Entry} (hp : es = base ++ new)
      (hn : new'.filterMap (·.plain?) = new.filterMap (·.without? gone)) : Seen gone base es (base ++ new')

/-- The second list is the first one without the registration that drew this ticket. -/
inductive Alike (gone : Nat) (base : List Entry) (s : State) : State → Prop
  | intro {tickets : Nat} {waiters late : List Waiter} {queue : List (Waiter × Lsn)} {handles : Names Handle}
      {waitersCancelled : UInt64} {history : List Entry}
      (hw : Without gone s.waiting ⟨tickets, waiters, late, queue⟩)
      (hn : ∀ tag, handles.find? tag = (s.handles.find? tag).bind (·.without? gone))
      (hh : Seen gone base s.history history) :
      Alike gone base s { s with
        tickets, waiters, late, queue, handles, metrics := { s.metrics with waitersCancelled }, history }

inductive Stacks (gone : Nat) : List Frame → List Frame → Prop
  | nil : Stacks gone [] []
  | same {f : Frame} {fs fs' : List Frame} (hf : f.isPlain) (h : Stacks gone fs fs') :
      Stacks gone (f :: fs) (f :: fs')
  | answering (tag : String) {a a' : Answer} {fs fs' : List Frame} (ha : a'.plain = a.without gone)
      (h : Stacks gone fs fs') : Stacks gone (.answering tag a :: fs) (.answering tag a' :: fs')
  | withdrawing (x : Handle) {fs fs' : List Frame} (h : Stacks gone fs fs') :
      Stacks gone (.withdrawing x :: fs) (.withdrawing (x.renumber gone) :: fs')
  | batch (lsn : Lsn) (round : Nat) {rest : List Waiter} (taken : Nat) {fs fs' : List Frame}
      (hr : ∀ w ∈ rest, w.ticket ≠ gone) (h : Stacks gone fs fs') :
      Stacks gone (.batch lsn round rest taken :: fs)
        (.batch lsn round (rest.map (·.renumber gone)) taken :: fs')

def Begun (gone : Nat) (base : List Entry) (r r' : State × List Frame) : Prop :=
  Alike gone base r.1 r'.1 ∧ Stacks gone r.2 r'.2

/-- What was done and answered. The answer is the same where nothing but handles depends on the tickets. -/
structure Done (gone : Nat) (base : List Entry) (other : Prop) (r r' : State × List Frame × Answer) : Prop where
  state : Alike gone base r.1 r'.1
  work : Stacks gone r.2.1 r'.2.1
  plain : r'.2.2.plain = r.2.2.without gone
  answer : other ∨ r'.2.2 = r.2.2.renumber gone

variable {gone : Nat} {base es es' : List Entry} {e e' : Entry} {s s' : State} {other : Prop}

theorem Seen.refl (base : List Entry) : Seen gone base base base := by
  have h : Seen gone base (base ++ []) (base ++ []) := .intro rfl rfl
  rwa [List.append_nil] at h

theorem Seen.concat (h : Seen gone base es es') (he : e'.plain? = e.without? gone) :
    Seen gone base (es ++ [e]) (es' ++ [e']) := by
  obtain ⟨rfl, hn⟩ := h
  rw [List.append_assoc, List.append_assoc]
  refine .intro rfl ?_
  rw [List.filterMap_append, List.filterMap_append, hn, List.filterMap_cons, List.filterMap_cons, he]
  rfl

theorem Seen.left (h : Seen gone base es es') (he : e.without? gone = none) :
    Seen gone base (es ++ [e]) es' := by
  obtain ⟨rfl, hn⟩ := h
  rw [List.append_assoc]
  refine .intro rfl ?_
  rw [List.filterMap_append, hn, List.filterMap_cons, he]
  exact (List.append_nil _).symm

theorem Alike.waiting (h : Alike gone base s s') : Without gone s.waiting s'.waiting := by
  obtain ⟨hw, -, -⟩ := h
  exact hw

theorem Alike.named (h : Alike gone base s s') (tag : String) :
    s'.handles.find? tag = (s.handles.find? tag).bind (·.without? gone) := by
  obtain ⟨-, hn, -⟩ := h
  exact hn tag

theorem Alike.seen (h : Alike gone base s s') : Seen gone base s.history s'.history := by
  obtain ⟨-, -, hh⟩ := h
  exact hh

theorem Alike.results (h : Alike gone base s s') : s'.results = s.results ∧ s'.cells = s.cells := by
  obtain ⟨-, -, -⟩ := h
  exact ⟨rfl, rfl⟩

theorem Alike.dropped (h : Alike gone base s s') : s'.dropped = s.dropped := by
  obtain ⟨-, -, -⟩ := h
  rfl

theorem Alike.latest (h : Alike gone base s s') : s'.latest = s.latest := by
  obtain ⟨-, -, -⟩ := h
  rfl

theorem Stacks.append {fs fs' below below' : List Frame} (hf : Stacks gone fs fs')
    (h : Stacks gone below below') : Stacks gone (fs ++ below) (fs' ++ below') := by
  induction hf with
  | nil => exact h
  | same hp _ ih => exact .same hp ih
  | answering tag ha _ ih => exact .answering tag ha ih
  | withdrawing x _ ih => exact .withdrawing x ih
  | batch lsn round taken hr _ ih => exact .batch lsn round taken hr ih

/-! ### The operations of a list -/

theorem Alike.emit (h : Alike gone base s s') (he : e'.plain? = e.without? gone) :
    Alike gone base (s.emit e) (s'.emit e') := by
  obtain ⟨hw, hn, hh⟩ := h
  exact .intro hw hn (hh.concat he)

theorem Alike.emit_left (h : Alike gone base s s') (he : e.without? gone = none) :
    Alike gone base (s.emit e) s' := by
  obtain ⟨hw, hn, hh⟩ := h
  exact .intro hw hn (hh.left he)

theorem Alike.log (h : Alike gone base s s') (r : Log.Record) : Alike gone base (s.log r) (s'.log r) :=
  h.emit rfl

theorem Alike.settle (h : Alike gone base s s') (cell : Nat) (o : Result.Outcome Lsn) :
    Begun gone base (s.settle cell o) (s'.settle cell o) := by
  obtain ⟨hw, hn, hh⟩ := h
  have hh' : Seen gone base (s.history ++ [.settled cell o]) (_ ++ [.settled cell o]) := hh.concat rfl
  simp only [State.settle, State.emit]
  split
  · exact ⟨.intro hw hn hh', .same rfl .nil⟩
  · exact ⟨.intro hw hn hh', .nil⟩

theorem Alike.hear (h : Alike gone base s s') (l : Listener) (o : Result.Outcome Lsn) :
    Begun gone base (s.hear l o) (s'.hear l o) :=
  ⟨h.emit rfl, .same rfl .nil⟩

theorem Alike.start (h : Alike gone base s s') {w : Waiter} (hw : w.ticket ≠ gone) (lsn : Lsn)
    (place : Place) : Begun gone base (s.start w lsn place) (s'.start (w.renumber gone) lsn place) := by
  obtain ⟨target, ticket, callback⟩ := w
  cases callback with
  | script tag steps panics => exact ⟨h.emit (if_neg hw).symm, .same rfl .nil⟩
  | settle cell =>
    apply Alike.settle
    exact h.emit (if_neg hw).symm

theorem Alike.dequeue (h : Alike gone base s s') {p : Waiter × Lsn} {queue : List (Waiter × Lsn)}
    (hq : s.queue = p :: queue) :
    Alike gone base { s with queue } { s' with queue := queue.map fun p => (p.1.renumber gone, p.2) } := by
  obtain ⟨hw, hn, hh⟩ := h
  have hother : ∀ q ∈ s.queue, q.1.ticket ≠ gone := hw.queue_other
  rw [hq] at hother
  exact .intro { hw with queue_other := (List.forall_mem_cons.mp hother).2, queue := rfl } hn hh

theorem Alike.notify (h : Alike gone base s s') :
    Option.Rel (Begun gone base) s.notify s'.notify := by
  have hq' : s'.queue = s.queue.map fun p => (p.1.renumber gone, p.2) := h.waiting.queue
  rcases hq : s.queue with _ | ⟨⟨w, lsn⟩, queue⟩
  · rw [hq] at hq'
    simp only [State.notify, hq, hq', List.map_nil]
    exact .none
  · rw [hq] at hq'
    have hw : w.ticket ≠ gone := h.waiting.queue_other (w, lsn) (by simp [State.waiting, hq])
    obtain ⟨ha, hf⟩ := (h.dequeue hq).start hw lsn .notifier
    simp only [State.notify, hq, hq', List.map_cons]
    exact .some ⟨ha, hf.append (.same rfl .nil)⟩

theorem Alike.accept (h : Alike gone base s s') {w : Waiter} (hg : w.ticket ≠ gone) :
    Alike gone base (s.accept w) (s'.accept (w.renumber gone)) := by
  obtain ⟨hw, hn, hh⟩ := h
  by_cases hl : s.latest < w.target
  · have hl' : s.latest < (w.renumber gone).target := hl
    simp only [State.accept, hl, hl', if_true]
    refine .intro { hw with sorted := sorted_insertWaiter hw.sorted w, script := ?_, waiters := ?_ } hn hh
    · intro v hv ht
      rcases List.mem_cons.mp ((perm_insertWaiter w s.waiters).mem_iff.mp hv) with rfl | hv
      · exact absurd ht hg
      · exact hw.script v hv ht
    · refine Eq.trans ?_ (others_insertWaiter hw.sorted hg).symm
      exact congrArg _ hw.waiters
  · have hl' : ¬ s.latest < (w.renumber gone).target := hl
    by_cases ha : s.advancing = true
    · simp only [State.accept, hl, hl', ha, if_true, if_false]
      refine .intro { hw with late_other := ?_, late := ?_ } hn hh
      · exact List.forall_mem_append.mpr ⟨hw.late_other, List.forall_mem_singleton.mpr hg⟩
      · refine Eq.trans ?_ List.map_append.symm
        exact congrArg (· ++ _) hw.late
    · simp only [State.accept, hl, hl', ha, if_false]
      refine .intro { hw with queue_other := ?_, queue := ?_ } hn hh
      · exact List.forall_mem_append.mpr ⟨hw.queue_other, List.forall_mem_singleton.mpr hg⟩
      · refine Eq.trans ?_ List.map_append.symm
        exact congrArg (· ++ _) hw.queue

/-- A new registration draws the next ticket in both lists. -/
theorem Alike.register (h : Alike gone base s s') (target : Lsn) (callback : Callback) :
    Alike gone base (s.register target callback).1 (s'.register target callback).1 ∧
      (s.register target callback).2.ticket ≠ gone ∧
      (s'.register target callback).2 = (s.register target callback).2.renumber gone := by
  have hlt : gone < s.tickets := by
    have ht : s.tickets = s'.tickets + 1 := h.waiting.tickets
    have hk : gone ≤ s'.tickets := h.waiting.known
    omega
  have ht : s'.tickets = WaitList.renumber gone s.tickets := by
    have ht : s.tickets = s'.tickets + 1 := h.waiting.tickets
    rw [WaitList.renumber, if_pos hlt, ht]
    rfl
  have hdrawn : Alike gone base
      ({ s with tickets := s.tickets + 1 }.emit (.registered s.tickets target))
      ({ s' with tickets := s'.tickets + 1 }.emit (.registered s'.tickets target)) := by
    rw [ht]
    refine Alike.emit ?_ (if_neg (Nat.ne_of_gt hlt)).symm
    rw [← ht]
    obtain ⟨hw, hn, hh⟩ := h
    exact .intro { hw with known := Nat.le_succ_of_le hw.known, tickets := congrArg (· + 1) hw.tickets } hn hh
  have hw : Waiter.ticket ⟨target, s.tickets, callback⟩ ≠ gone := Nat.ne_of_gt hlt
  refine ⟨?_, hw, ?_⟩
  · have ha := hdrawn.accept hw
    simp only [Waiter.renumber, ← ht] at ha
    exact ha
  · exact congrArg (Handle.mk target) ht

theorem Alike.bind (h : Alike gone base s s') (tag : String) {x : Handle} (hx : x.ticket ≠ gone) :
    Alike gone base { s with handles := s.handles.bind tag x }
      { s' with handles := s'.handles.bind tag (x.renumber gone) } := by
  obtain ⟨hw, hn, hh⟩ := h
  refine .intro hw (fun name => ?_) hh
  rw [Names.find?_bind, Names.find?_bind]
  split
  · exact (if_neg hx).symm
  · exact hn name

theorem Alike.remove (h : Alike gone base s s') {x : Handle} (hx : x.ticket ≠ gone) :
    Alike gone base (s.remove x) (s'.remove (x.renumber gone)) := by
  have he : (Entry.cancelled (x.renumber gone) true).plain? = (Entry.cancelled x true).without? gone := by
    rw [Entry.without?, Handle.without?_other hx]
    rfl
  have hothers : s'.waiters = others gone s.waiters := h.waiting.waiters
  have hleft : s'.waiters.filter (fun w => !w.isFor (x.renumber gone)) =
      others gone (s.waiters.filter fun w => !w.isFor x) := by
    rw [hothers, others_filter_isFor hx]
  refine Alike.emit ?_ he
  obtain ⟨hw, hn, hh⟩ := h
  exact .intro { hw with
    sorted := hw.sorted.filter _
    script := fun w hm => hw.script w ((List.mem_filter.mp hm).1)
    waiters := hleft } hn hh

theorem Alike.withdraw (h : Alike gone base s s') (x : Handle) :
    Alike gone base (s.withdraw x) (s'.withdraw (x.renumber gone)) := by
  refine Alike.log ?_ _
  obtain ⟨hw, hn, hh⟩ := h
  exact .intro hw hn hh

theorem Alike.cancel (h : Alike gone base s s') {x : Handle} (hx : x.ticket ≠ gone) :
    Alike gone base (s.cancel x).1 (s'.cancel (x.renumber gone)).1 ∧
      Stacks gone (s.cancel x).2.1 (s'.cancel (x.renumber gone)).2.1 ∧
      (s'.cancel (x.renumber gone)).2.2 = (s.cancel x).2.2 := by
  have he : (Entry.cancelled (x.renumber gone) false).plain? = (Entry.cancelled x false).without? gone := by
    rw [Entry.without?, Handle.without?_other hx]
    rfl
  have hothers : s'.waiters = others gone s.waiters := h.waiting.waiters
  rw [State.cancel, State.cancel, hothers, others_find?_isFor hx]
  cases s.waiters.find? (·.isFor x) with
  | none => exact ⟨h.emit he, .nil, rfl⟩
  | some w =>
    obtain ⟨target, ticket, callback⟩ := w
    cases callback with
    | script tag steps panics => exact ⟨(h.remove hx).withdraw x, .nil, rfl⟩
    | settle cell =>
      obtain ⟨ha, hf⟩ := (h.remove hx).settle cell (.failed (.router .abandoned))
      exact ⟨ha, hf.append (.withdrawing x .nil), rfl⟩

/-- One of the registration itself changes nothing else. -/
theorem Alike.cancel_gone (h : Alike gone base s s') {x : Handle} (hx : x.ticket = gone) :
    Alike gone base (s.cancel x).1 s' ∧ (s.cancel x).2.1 = [] := by
  have he (removed : Bool) : (Entry.cancelled x removed).without? gone = none := by
    rw [Entry.without?, Handle.without?_gone hx]
    rfl
  have hline : (Entry.logged (.of .waiterCancelled [("target", x.target.text)])).without? gone = none := by
    simp [Entry.without?, Entry.plain?, Log.Record.of]
  obtain ⟨-, hc⟩ | ⟨w, hw, hf, ⟨-, hc⟩ | ⟨cell, hcell, -⟩⟩ := s.cancel_cases x
  · rw [hc]
    exact ⟨h.emit_left (he false), rfl⟩
  · have hremove : Alike gone base (s.remove x) s' := by
      refine Alike.emit_left ?_ (he true)
      obtain ⟨hw, hn, hh⟩ := h
      exact .intro { hw with
        sorted := hw.sorted.filter _
        script := fun w hm => hw.script w (List.mem_filter.mp hm).1
        waiters := hw.waiters.trans (others_filter_gone hx s.waiters).symm } hn hh
    rw [hc]
    refine ⟨Alike.emit_left ?_ hline, rfl⟩
    obtain ⟨hw, hn, hh⟩ := hremove
    exact .intro hw hn hh
  · exact absurd hcell (h.waiting.script w hw ((Waiter.isFor_iff.mp hf).2.trans hx) cell)

theorem Alike.listen (h : Alike gone base s s') (cell : Nat) (tag : String) (steps : List Action)
    (panics : Bool) : Begun gone base (s.listen cell tag steps panics) (s'.listen cell tag steps panics) := by
  obtain ⟨hw, hn, hh⟩ := h
  have hh' : Seen gone base (s.history ++ [.listening s.listeners cell])
    (_ ++ [.listening s.listeners cell]) := hh.concat rfl
  simp only [State.listen, State.emit]
  split
  · exact ⟨.intro hw hn hh', .nil⟩
  · exact ⟨.intro hw hn hh', .nil⟩
  · apply Alike.hear
    exact .intro hw hn hh'

theorem Done.same {a : Answer} (h : Alike gone base s s') (hp : a.plain = a.without gone)
    (ha : a = a.renumber gone) : Done gone base other (s, [], a) (s', [], a) :=
  ⟨h, .nil, hp, .inr ha⟩

theorem Alike.perform (h : Alike gone base s s') (a : Action) :
    Done gone base (a.isTally ∨ s.goesBy gone a) (s.perform a) (s'.perform a) := by
  have hs := h
  have hnamed := h.named
  obtain ⟨hw, hn, hh⟩ := h
  cases a with
  | register tag target steps panics =>
    simp only [State.perform]
    split
    · exact .same hs rfl rfl
    · obtain ⟨ha, hx, he⟩ := hs.register target (.script tag steps panics)
      rw [he]
      exact .same (ha.bind tag hx) rfl rfl
  | await name target =>
    simp only [State.perform]
    split
    · exact .same hs rfl rfl
    · refine .same (Alike.register ?_ target _).1 rfl rfl
      exact .intro hw hn hh
  | cancel tag =>
    simp only [State.perform, hnamed tag]
    split
    · exact .same hs rfl rfl
    · rcases hf : s.handles.find? tag with _ | x
      · exact .same hs rfl rfl
      · by_cases hx : x.ticket = gone
        · have hg : s.goesBy gone (.cancel tag) := by simp [State.goesBy, hf, hx]
          obtain ⟨ha, hf⟩ := hs.cancel_gone hx
          rw [Option.bind_some, Handle.without?_gone hx]
          refine ⟨ha, ?_, rfl, .inl (.inr hg)⟩
          show Stacks gone (s.cancel x).2.1 []
          rw [hf]
          exact .nil
        · obtain ⟨ha, hf, he⟩ := hs.cancel hx
          rw [Option.bind_some, Handle.without?_other hx]
          dsimp only
          rw [he]
          exact ⟨ha, hf, rfl, .inr rfl⟩
  | handle tag =>
    simp only [State.perform, hnamed tag]
    split
    · exact .same hs rfl rfl
    · rcases hf : s.handles.find? tag with _ | x
      · exact .same hs rfl rfl
      · by_cases hx : x.ticket = gone
        · have hg : s.goesBy gone (.handle tag) := by simp [State.goesBy, hf, hx]
          have hp : (Answer.handle x).without gone = .nothing := by
            rw [Answer.without, Handle.without?_gone hx]
            rfl
          rw [Option.bind_some, Handle.without?_gone hx]
          exact ⟨hs, .nil, hp.symm, .inl (.inr hg)⟩
        · have hp : (Answer.handle x).without gone = .handle (x.renumber gone) := by
            rw [Answer.without, Handle.without?_other hx]
            rfl
          rw [Option.bind_some, Handle.without?_other hx]
          exact ⟨hs, .nil, hp.symm, .inr rfl⟩
  | listen name tag steps panics =>
    simp only [State.perform]
    split
    · exact .same hs rfl rfl
    · obtain ⟨ha, hf⟩ := hs.listen _ tag steps panics
      exact ⟨ha, hf, rfl, .inr rfl⟩
  | pending | metrics | describe =>
    simp only [State.perform]
    split
    · exact .same hs rfl rfl
    · exact ⟨hs, .nil, rfl, .inl (.inl rfl)⟩
  | poll | latest | misread =>
    simp only [State.perform]
    repeat' split
    all_goals exact .same hs rfl rfl

theorem Alike.advance (h : Alike gone base s s') {lsn : Lsn}
    (hx : s.latest ≤ lsn → ∀ w ∈ s.waiters, w.ticket = gone → ¬ w.target ≤ lsn) :
    Done gone base other (s.advance lsn) (s'.advance lsn) := by
  have hd' := h.dropped
  have hl' := h.latest
  by_cases hd : s.dropped = true
  · rw [State.advance_of_dropped hd, State.advance_of_dropped (hd'.trans hd)]
    exact .same h rfl rfl
  · by_cases hl : lsn < s.latest
    · rw [State.advance_of_lt hd hl, State.advance_of_lt (hd' ▸ hd) (hl' ▸ hl), hl']
      refine .same (Alike.log ?_ _) rfl rfl
      obtain ⟨hw, hn, hh⟩ := h
      exact .intro hw hn hh
    · -- none of those due has the ticket, so the others due are as many
      have hdue : ∀ w ∈ s.waiters.filter (fun w => w.target ≤ lsn), w.ticket ≠ gone := by
        intro w hm hg
        obtain ⟨hm, ht⟩ := List.mem_filter.mp hm
        exact hx hl w hm hg (of_decide_eq_true ht)
      have hothers : s'.waiters = others gone s.waiters := h.waiting.waiters
      have hdue' : s'.waiters.filter (fun w => w.target ≤ lsn) =
          (s.waiters.filter fun w => w.target ≤ lsn).map (·.renumber gone) := by
        rw [hothers, others_filter (fun l => decide (l ≤ lsn)), others_of_absent hdue]
      have hleft : s'.waiters.filter (fun w => !decide (w.target ≤ lsn)) =
          others gone (s.waiters.filter fun w => !decide (w.target ≤ lsn)) := by
        rw [hothers, others_filter (fun l => !decide (l ≤ lsn))]
      rw [State.advance_of_le hd hl, State.advance_of_le (hd' ▸ hd) (hl' ▸ hl), hdue', hleft,
        List.length_map]
      refine ⟨Alike.emit ?_ rfl, .batch lsn 0 _ hdue .nil, rfl, .inr rfl⟩
      obtain ⟨hw, hn, hh⟩ := h
      exact .intro { hw with
        sorted := hw.sorted.filter _
        script := fun w hm => hw.script w ((List.mem_filter.mp hm).1)
        waiters := rfl } hn hh

theorem Alike.rest (h : Alike gone base s s') (lsn : Lsn) (fired : Nat) :
    Alike gone base (s.rest lsn fired) (s'.rest lsn fired) := by
  obtain ⟨hw, hn, hh⟩ := h
  apply Alike.log
  exact .intro hw hn hh

/-! ### Runs -/

theorem Stacks.caught {fs fs' : List Frame} (h : Stacks gone fs fs') :
    Option.Rel (fun r r' => r.1 = r'.1 ∧ Stacks gone r.2 r'.2) (caught? Frame.panicRecord? fs)
      (caught? Frame.panicRecord? fs') := by
  induction h with
  | nil => exact .none
  | answering _ _ _ ih | withdrawing _ _ ih => exact ih
  | batch lsn round taken hr h ih => exact .some ⟨rfl, .batch lsn round taken hr h⟩
  | @same f _ _ hf h ih =>
    rw [caught?, caught?]
    cases f.panicRecord? with
    | none => exact ih
    | some r => exact .some ⟨rfl, .same hf h⟩

structure Machines (gone : Nat) (base : List Entry) (other : Prop) (m m' : Machine) : Prop where
  state : Alike gone base m.state m'.state
  stack : Stacks gone m.stack m'.stack
  answer : other ∨ m'.answer = m.answer.renumber gone

variable {fs fs' : List Frame} {m m' : Machine} {answer answer' : Answer}

theorem Begun.machines {r r' : State × List Frame} (h : Begun gone base r r') (hs : Stacks gone fs fs')
    (ha : other ∨ answer' = answer.renumber gone) :
    Machines gone base other ⟨r.1, r.2 ++ fs, answer⟩ ⟨r'.1, r'.2 ++ fs', answer'⟩ :=
  ⟨h.1, h.2.append hs, ha⟩

theorem Machines.unwind (h : Machines gone base other m m') :
    Machines gone base other m.unwind m'.unwind := by
  have hc := h.stack.caught
  unfold Machine.unwind
  generalize caught? Frame.panicRecord? m.stack = c at hc
  generalize caught? Frame.panicRecord? m'.stack = c' at hc
  cases hc with
  | none => exact ⟨h.state, .nil, .inr rfl⟩
  | @some r r' hr =>
    obtain ⟨record, below⟩ := r
    obtain ⟨record', below'⟩ := r'
    obtain ⟨rfl, hs⟩ := hr
    exact ⟨h.state.log _, hs, h.answer⟩

theorem Alike.take_late (h : Alike gone base s s') :
    Alike gone base { s with late := [] } { s' with late := [] } := by
  obtain ⟨hw, hn, hh⟩ := h
  exact .intro { hw with late_other := List.forall_mem_nil _, late := rfl } hn hh

theorem Machines.step (h : Machines gone base other m m') :
    Option.Rel (Machines gone base other) m.step m'.step := by
  obtain ⟨s, stack, answer⟩ := m
  obtain ⟨s', stack', answer'⟩ := m'
  obtain ⟨hs, hstack, ha⟩ := h
  dsimp only at hs hstack ha
  cases hstack with
  | nil =>
    have hn := hs.notify
    simp only [Machine.step]
    generalize s.notify = n at hn
    generalize s'.notify = n' at hn
    cases hn with
    | none => exact .none
    | some hb => exact .some ⟨hb.1, hb.2, ha⟩
  | answering tag hx hbelow =>
    apply Option.Rel.some
    refine ⟨hs.emit ?_, hbelow, ha⟩
    simp only [Entry.plain?, Entry.without?, hx]
  | withdrawing x hbelow => exact .some ⟨hs.withdraw x, hbelow, ha⟩
  -- a batch holds waiters, whose tickets differ on the two lists
  | @batch lsn round rest taken _ _ hr hbelow =>
    cases rest with
    | cons w rest =>
      obtain ⟨hw, hr⟩ := List.forall_mem_cons.mp hr
      exact .some ((hs.start hw lsn (.batch round)).machines (.batch lsn round taken hr hbelow) ha)
    | nil =>
      have hlate : s'.late = s.late.map (·.renumber gone) := hs.waiting.late
      have hother : ∀ w ∈ s.late, w.ticket ≠ gone := hs.waiting.late_other
      simp only [Machine.step, List.map_nil, hlate]
      rcases hl : s.late with _ | ⟨w, late⟩
      · exact .some ⟨hs.rest lsn taken, hbelow, .inr rfl⟩
      · rw [hl] at hother
        obtain ⟨hw, hr⟩ := List.forall_mem_cons.mp hother
        have hb := hs.take_late.start hw lsn (.batch (round + 1))
        simp only [List.map_cons, List.length_map]
        exact .some (hb.machines (.batch lsn (round + 1) _ hr hbelow) ha)
  | @same f below below' hf hbelow =>
    cases f with
    | body tag steps panics =>
      cases steps with
      | cons a steps =>
        obtain ⟨hd, hwork, hx, -⟩ := hs.perform a
        exact .some ⟨hd, hwork.append (.answering tag hx (.same rfl hbelow)), ha⟩
      | nil =>
        apply Option.Rel.some
        cases panics with
        | false => exact ⟨hs, hbelow, ha⟩
        | true => exact Machines.unwind ⟨hs, hbelow, ha⟩
    | notifying lsn => exact .some ⟨hs, hbelow, ha⟩
    | delivering o rest position total =>
      cases rest with
      | nil => exact .some ⟨hs, hbelow, ha⟩
      | cons l rest => exact .some ((hs.hear l o).machines (.same rfl hbelow) ha)
    | answering | batch | withdrawing | discarding => cases hf

theorem Machines.run (h : Machines gone base other m m') : Machines gone base other m.run m'.run :=
  Machine.run_rel Machines.step h

end Erasure
end ReplicaRouting.WaitList
