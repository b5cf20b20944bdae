import ReplicaRouting.Result.Network
import ReplicaRouting.Stack
/-!
A measure of the work left in a network and on a stack. Actions, registrations and settlements only move
it about, so that every step of a delivery lowers it.
-/

namespace ReplicaRouting.Result

mutual
def Action.weight : Action V → Nat
  | .listen _ _ steps _ => Action.weights steps + 5
  | _ => 5

def Action.weights : List (Action V) → Nat
  | [] => 0
  | a :: as => a.weight + Action.weights as
end

def Listener.weight : Listener V → Nat
  | .script _ steps _ => Action.weights steps + 2
  | .adapter _ => 2
  | .recorder _ => 1
  | .receiver => 1

def Registered.weight (r : Registered V) : Nat := r.listener.weight

def Frame.weight : Frame V → Nat
  | .body _ steps _ => Action.weights steps + 1
  | .answering .. => 1
  | .delivering _ _ rest _ _ => total Registered.weight rest + 1

namespace Network

def weight (n : Network V) : Nat := total Registered.weight n.waiting

@[simp] theorem weight_emit (n : Network V) (e : Entry V) : (n.emit e).weight = n.weight := rfl
@[simp] theorem weight_log (n : Network V) (r : Log.Record) : (n.log r).weight = n.weight := rfl
@[simp] theorem weight_addCell (n : Network V) (c : Cell V) : (n.addCell c).1.weight = n.weight := rfl

@[simp] theorem weight_freshContext (n : Network V) (t : Option TokenValue) :
    (n.freshContext t).1.weight = n.weight := rfl

@[simp] theorem weight_addSettled (n : Network V) (name : String) (c : Option Context) (o : Outcome V) :
    (n.addSettled name c o).weight = n.weight := rfl

theorem weight_settle (n : Network V) (cell : Nat) (o : Outcome V) :
    (n.settle cell o).1.weight + total Frame.weight (n.settle cell o).2.1 ≤ n.weight + 1 := by
  unfold settle
  split
  · have h := total_filter_add Registered.weight (fun r => decide (r.cell = cell)) n.waiting
    simp only [weight, total_cons, total_nil, Frame.weight, decide_not] at h ⊢
    omega
  · simp

theorem weight_start (n : Network V) (r : Registered V) (o : Outcome V) (c : Option Context) :
    (n.start r o c).1.weight + total Frame.weight (n.start r o c).2 < n.weight + r.weight := by
  obtain ⟨serial, cell, listener⟩ := r
  cases listener with
  | script tag steps panics => simp [start, Frame.weight, Registered.weight, Listener.weight]
  | adapter into =>
    have h := weight_settle (n.emit (.started serial cell none o c)) into o.adapt
    exact Nat.lt_of_le_of_lt h (Nat.lt_succ_self _)
  | recorder read => cases o <;> simp [start, weight, emit, log, Registered.weight, Listener.weight]
  | receiver => simp [start, weight, emit, Registered.weight, Listener.weight]

theorem weight_register (n : Network V) (cell : Nat) (l : Listener V) :
    (n.register cell l).1.weight + total Frame.weight (n.register cell l).2 ≤ n.weight + l.weight := by
  unfold register
  simp only
  split
  · simp [weight, emit, Registered.weight]
  · rename_i o _
    have h := weight_start ({ n with registrations := n.registrations + 1 }.emit
      (.registered n.registrations cell)) ⟨n.registrations, cell, l⟩ o
      (({ n with registrations := n.registrations + 1 }.emit
        (.registered n.registrations cell)).contextAt cell)
    exact Nat.le_of_lt h

theorem weight_dropCompleter (n : Network V) (name : String) :
    (n.dropCompleter name).1.weight + total Frame.weight (n.dropCompleter name).2.1 ≤ n.weight + 1 := by
  unfold dropCompleter
  split
  · simp
  · rename_i h
    simp only [takeCompleter, Option.map_eq_some_iff] at h
    obtain ⟨_, _, h⟩ := h
    cases h
    exact weight_settle ..

theorem weight_addPending (n : Network V) (name : String) (c : Option Context) :
    (n.addPending name c).1.weight + total Frame.weight (n.addPending name c).2 ≤ n.weight + 1 := by
  have h := weight_dropCompleter
    { (n.addCell ⟨c, none⟩).1 with names := n.names.bind name n.cells.length } name
  exact h

theorem weight_addAdapted (n : Network V) (source : Nat) (c : Context) :
    (n.addAdapted source c).1.1.weight + total Frame.weight (n.addAdapted source c).1.2 ≤ n.weight + 2 := by
  have h := weight_register (n.addCell ⟨some c, none⟩).1 source (.adapter n.cells.length)
  exact h

@[simp] theorem weight_poll (n : Network V) (as : String) : (n.poll as).1.weight = n.weight := by
  unfold poll
  split <;> rfl

theorem weight_perform (n : Network V) (a : Action V) :
    (n.perform a).1.weight + total Frame.weight (n.perform a).2.1 + 1 < n.weight + a.weight := by
  cases a with
  | pending name token =>
    have h := weight_addPending (n.freshContext token).1 name (some (n.freshContext token).2)
    simp only [perform, Action.weight, weight_freshContext] at h ⊢
    omega
  | response name =>
    have h := weight_addPending n name none
    simp only [perform, Action.weight]
    omega
  | adapt source name token =>
    simp only [perform, Action.weight]
    split
    · simp
    · rename_i cell _
      have h := weight_addAdapted (n.freshContext token).1 cell (n.freshContext token).2
      exact Nat.lt_of_le_of_lt (Nat.succ_le_succ h) (by simp only [weight_freshContext]; omega)
  | complete name o =>
    simp only [perform, Action.weight]
    split
    · simp
    · rename_i cell h
      simp only [takeCompleter, Option.map_eq_some_iff] at h
      obtain ⟨_, _, h⟩ := h
      cases h
      have h := weight_settle { n with completers := n.completers.unbind name } cell o
      exact Nat.lt_of_le_of_lt (Nat.succ_le_succ h) (by simp only [weight]; omega)
  | abandon name =>
    simp only [perform, Action.weight]
    split
    · simp
    · have h := weight_dropCompleter n name
      exact Nat.lt_of_le_of_lt (Nat.succ_le_succ h) (by omega)
  | listen name tag steps panics =>
    simp only [perform, Action.weight]
    split
    · simp
    · rename_i cell _
      have h := weight_register n cell (.script tag steps panics)
      simp only [Listener.weight] at h ⊢
      omega
  | wait name as =>
    simp only [perform, Action.weight]
    split
    · simp
    · rename_i cell _
      have h := weight_register { n with waits := n.waits.bind as ⟨n.registrations, cell, none⟩ } cell
        .receiver
      simp only [weight_poll, Listener.weight] at h ⊢
      exact Nat.lt_of_le_of_lt (Nat.succ_le_succ h) (by simp only [weight]; omega)
  | settled => simp [perform, Action.weight]
  | settledResponse => simp [perform, Action.weight]
  | poll => simp [perform, Action.weight]
  | clone | completer | get | getTimeout | isDone | describe | context | block | join =>
    simp only [perform, Action.weight]
    repeat' split
    all_goals simp [weight]

end Network
end ReplicaRouting.Result
