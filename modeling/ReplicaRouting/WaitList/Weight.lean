import ReplicaRouting.Stack
import ReplicaRouting.WaitList.State
/-!
A measure of the work left in a wait list and on a stack. Actions move it about, and every step of a run
lowers it.
-/

namespace ReplicaRouting.WaitList

mutual
def Action.weight : Action → Nat
  | .register _ _ steps _ => Action.weights steps + 5
  | .listen _ _ steps _ => Action.weights steps + 5
  | _ => 5

def Action.weights : List Action → Nat
  | [] => 0
  | a :: as => a.weight + Action.weights as
end

def Callback.weight : Callback → Nat
  | .script _ steps _ => Action.weights steps + 2
  | .settle _ => 2

def Waiter.weight : Waiter → Nat
  | ⟨_, _, callback⟩ => callback.weight

def Listener.weight (l : Listener) : Nat := Action.weights l.steps + 2

def Cell.weight : Cell → Nat
  | ⟨_, listeners⟩ => total Listener.weight listeners

/-- A waiter in the queue of the notifier: it is taken out before it starts. -/
def queuedWeight : Waiter × Lsn → Nat
  | (w, _) => w.weight + 1

theorem total_insertWaiter (w : Waiter) (ws : List Waiter) :
    total Waiter.weight (insertWaiter w ws) = w.weight + total Waiter.weight ws := by
  induction ws with
  | nil => simp [insertWaiter]
  | cons v vs ih => rw [insertWaiter]; split <;> simp [ih]; omega

def Frame.weight : Frame → Nat
  | .body _ steps _ => Action.weights steps + 1
  | .answering .. => 1
  | .batch _ _ rest _ => total Waiter.weight rest + 1
  | .notifying _ => 1
  | .delivering _ rest _ _ => total Listener.weight rest + 1
  | .withdrawing _ => 1
  | .discarding rest => total Waiter.weight rest + 1

namespace State

def weight (s : State) : Nat := total Waiter.weight s.waiters + total Waiter.weight s.late +
  total queuedWeight s.queue + total Cell.weight s.cells

@[simp] theorem weight_emit (s : State) (e : Entry) : (s.emit e).weight = s.weight := rfl
@[simp] theorem weight_log (s : State) (r : Log.Record) : (s.log r).weight = s.weight := rfl

theorem weight_settle (s : State) (cell : Nat) (o : Result.Outcome Lsn) :
    (s.settle cell o).1.weight + total Frame.weight (s.settle cell o).2 ≤ s.weight + 1 := by
  simp only [settle]
  split
  · rename_i listeners h
    have := total_set Cell.weight h ⟨some o, []⟩
    simp only [weight, emit, total_cons, total_nil, Frame.weight, Cell.weight] at this ⊢
    omega
  · simp

theorem weight_start (s : State) (w : Waiter) (lsn : Lsn) (place : Place) :
    (s.start w lsn place).1.weight + total Frame.weight (s.start w lsn place).2 < s.weight + w.weight := by
  obtain ⟨target, ticket, callback⟩ := w
  cases callback with
  | script tag steps panics => simp [start, Frame.weight, Waiter.weight, Callback.weight]
  | settle cell =>
    have := (s.emit (.started ticket none lsn place)).weight_settle cell (.value lsn)
    exact Nat.lt_of_le_of_lt this (by simp [Waiter.weight, Callback.weight])

theorem weight_notify {s : State} {begun : State × List Frame} (h : s.notify = some begun) :
    begun.1.weight + total Frame.weight begun.2 < s.weight := by
  unfold notify at h
  split at h
  · cases h
  · rename_i w lsn queue hq
    obtain rfl := Option.some.inj h
    have := { s with queue := queue }.weight_start w lsn .notifier
    simp only [weight, hq, total_append, total_cons, total_nil, queuedWeight, Frame.weight] at this ⊢
    omega

theorem weight_discard (s : State) (w : Waiter) :
    (s.discard w).1.weight + total Frame.weight (s.discard w).2 < s.weight + w.weight := by
  obtain ⟨target, ticket, callback⟩ := w
  cases callback with
  | script tag steps panics => simp [discard, Waiter.weight, Callback.weight]
  | settle cell =>
    have := s.weight_settle cell (.failed (.router .abandoned))
    exact Nat.lt_of_le_of_lt this (by simp [Waiter.weight, Callback.weight])

theorem weight_accept (s : State) (w : Waiter) : (s.accept w).weight ≤ s.weight + w.weight + 1 := by
  unfold accept
  split
  · simp only [weight, total_insertWaiter]; omega
  · split <;> simp [weight, queuedWeight] <;> omega

theorem weight_register (s : State) (target : Lsn) (c : Callback) :
    (s.register target c).1.weight ≤ s.weight + c.weight + 1 := by
  have h := weight_accept ({ s with tickets := s.tickets + 1 }.emit (.registered s.tickets target))
    ⟨target, s.tickets, c⟩
  rw [weight_emit] at h
  exact h

theorem weight_remove (s : State) (h : Handle) : (s.remove h).weight ≤ s.weight := by
  have := total_filter_add Waiter.weight (·.isFor h) s.waiters
  simp only [remove, weight, emit]
  omega

theorem weight_cancel (s : State) (h : Handle) :
    (s.cancel h).1.weight + total Frame.weight (s.cancel h).2.1 ≤ s.weight + 2 := by
  have := s.weight_remove h
  unfold cancel
  split
  · simp
  · split
    · rw [withdraw, weight_log, total_nil]
      exact Nat.le_succ_of_le (Nat.le_succ_of_le this)
    · rename_i cell _
      have := (s.remove h).weight_settle cell (.failed (.router .abandoned))
      simp only [total_append, total_cons, total_nil, Frame.weight]
      omega

theorem weight_listen (s : State) (cell : Nat) (tag : String) (steps : List Action) (panics : Bool) :
    (s.listen cell tag steps panics).1.weight + total Frame.weight (s.listen cell tag steps panics).2 ≤
      s.weight + Action.weights steps + 2 := by
  simp only [listen]
  split
  · simp [weight, emit]; omega
  · rename_i listeners h
    have := total_set Cell.weight h ⟨none, listeners ++ [⟨s.listeners, tag, steps, panics⟩]⟩
    simp only [weight, emit, Cell.weight, Listener.weight, total_append, total_cons, total_nil] at this ⊢
    omega
  · simp [hear, weight, emit, Frame.weight]; omega

theorem weight_perform (s : State) (a : Action) :
    (s.perform a).1.weight + total Frame.weight (s.perform a).2.1 + 1 < s.weight + a.weight := by
  cases a with
  | poll name =>
    simp only [perform, Action.weight]
    repeat' split
    all_goals simp
  | listen name tag steps panics =>
    simp only [perform, Action.weight]
    split
    · simp
    · rename_i cell _
      have := s.weight_listen cell tag steps panics
      exact Nat.lt_of_le_of_lt (Nat.succ_le_succ this) (by omega)
  | register tag target steps panics =>
    simp only [perform, Action.weight]
    split
    · simp
    · have := s.weight_register target (.script tag steps panics)
      simp only [weight, Callback.weight, total_nil] at this ⊢
      omega
  | await name target =>
    simp only [perform, Action.weight]
    split
    · simp
    · have := ({ s with
          cells := s.cells ++ [⟨none, []⟩]
          results := s.results.bind name s.cells.length } : State).weight_register target
        (.settle s.cells.length)
      simp only [weight, Callback.weight, total_nil, total_append] at this ⊢
      have h : total Cell.weight [⟨none, []⟩] = 0 := rfl
      omega
  | cancel tag =>
    simp only [perform, Action.weight]
    split
    · simp
    · split
      · simp
      · rename_i h _
        have := s.weight_cancel h
        dsimp only
        omega
  | handle | latest | pending | metrics | describe | misread =>
    simp only [perform, Action.weight]
    repeat' split
    all_goals simp

end State
end ReplicaRouting.WaitList
