import ReplicaRouting.Log.Line
import ReplicaRouting.Lsn
import ReplicaRouting.Metrics
import ReplicaRouting.Names
import ReplicaRouting.Result.Outcome
/-!
A list of waiters for log positions. A waiter whose position is still ahead is kept in the order of the
positions, first come first served among equals; one that is already reached joins the running advance,
or the queue of the notifier if there is none.
-/

namespace ReplicaRouting.WaitList

/-- What callers and callbacks do with the list. Handles and awaited results are known by name. -/
inductive Action
  | register (tag : String) (target : Lsn) (steps : List Action) (panics : Bool)
  | await (name : String) (target : Lsn)
  | listen (name tag : String) (steps : List Action) (panics : Bool)
  | cancel (tag : String)
  | handle (tag : String)
  | latest
  | pending
  | metrics
  | describe
  | poll (name : String)
  /-- Names a position that cannot be read. -/
  | misread (e : LsnError)

inductive Callback
  | script (tag : String) (steps : List Action) (panics : Bool)
  /-- Gives an awaited result its position. -/
  | settle (cell : Nat)

structure Waiter where
  target : Lsn
  ticket : Nat
  callback : Callback

/-- Names one registration. -/
structure Handle where
  target : Lsn
  ticket : Nat
deriving Repr, DecidableEq

structure Listener where
  serial : Nat
  tag : String
  steps : List Action
  panics : Bool

/-- An awaited result and those that wait for it. -/
structure Cell where
  outcome : Option (Result.Outcome Lsn)
  listeners : List Listener

inductive Answer
  | nothing
  | flag (b : Bool)
  | count (n : Nat)
  | position (l : Lsn)
  | handle (h : Handle)
  | outcome (o : Result.Outcome Lsn)
  | pending
  | metrics (m : Metrics)
  | text (s : String)
  | refused (e : LsnError)
  | noHandle
  | noAwait
  | dropped
  | panicked
deriving Repr, DecidableEq

/-- Where a callback runs: in an advance, with the first batch or a later one, or with the notifier. -/
inductive Place
  | batch (round : Nat)
  | notifier
deriving Repr, DecidableEq

inductive Entry
  | registered (ticket : Nat) (target : Lsn)
  /-- An advance has made this the latest position. -/
  | recorded (lsn : Lsn)
  | started (ticket : Nat) (tag : Option String) (lsn : Lsn) (place : Place)
  /-- A cancellation and its answer: whether the registration was still pending. -/
  | cancelled (handle : Handle) (removed : Bool)
  | settled (cell : Nat) (outcome : Result.Outcome Lsn)
  | listening (serial cell : Nat)
  | heard (serial : Nat) (tag : String) (outcome : Result.Outcome Lsn)
  | answered (tag : String) (answer : Answer)
  | logged (record : Log.Record)
deriving Repr, DecidableEq

structure State where
  latest : Lsn
  waiters : List Waiter := []
  advancing : Bool := false
  /-- Registered during an advance with a position already reached. -/
  late : List Waiter := []
  /-- Waits for the notifier, with the position to report. -/
  queue : List (Waiter × Lsn) := []
  tickets : Nat := 0
  cells : List Cell := []
  listeners : Nat := 0
  handles : Names Handle := []
  results : Names Nat := []
  dropped : Bool := false
  metrics : Metrics := {}
  history : List Entry := []

/-- Work in progress, the innermost first on a stack. -/
inductive Frame
  /-- The rest of a script; an answer goes with its tag. -/
  | body (tag : String) (steps : List Action) (panics : Bool)
  | answering (tag : String) (answer : Answer)
  /-- An advance: its waiters still to start, and how many it has taken so far. -/
  | batch (lsn : Lsn) (round : Nat) (rest : List Waiter) (taken : Nat)
  | notifying (lsn : Lsn)
  /-- The listeners of a result that is being settled. -/
  | delivering (outcome : Result.Outcome Lsn) (rest : List Listener) (position total : Nat)
  /-- A cancellation that has taken its waiter out, and is counted when the callback is gone. -/
  | withdrawing (handle : Handle)
  /-- The waiters of a dropped list; they go once the queue is empty. -/
  | discarding (rest : List Waiter)

/-- Puts a waiter behind those for the same or an earlier position. -/
def insertWaiter (w : Waiter) : List Waiter → List Waiter
  | [] => [w]
  | v :: vs => if w.target < v.target then w :: v :: vs else v :: insertWaiter w vs

def Waiter.isFor (w : Waiter) (h : Handle) : Bool := w.target = h.target && w.ticket = h.ticket

def Handle.inspect (h : Handle) : String :=
  "WaitHandle \x7b target: " ++ h.target.inspect ++ ", ticket: " ++ Text.numeral h.ticket ++ " \x7d"

namespace State

def opened (initial : Lsn) (metrics : Metrics) : State := { latest := initial, metrics }

def emit (s : State) (e : Entry) : State := { s with history := s.history ++ [e] }

def log (s : State) (r : Log.Record) : State := s.emit (.logged r)

/-- Gives a pending result its outcome and takes its listeners, in registration order. -/
def settle (s : State) (cell : Nat) (o : Result.Outcome Lsn) : State × List Frame :=
  let s := s.emit (.settled cell o)
  match s.cells[cell]? with
  | some ⟨none, listeners⟩ =>
    ({ s with cells := s.cells.set cell ⟨some o, []⟩ }, [.delivering o listeners 0 listeners.length])
  | _ => (s, [])

def hear (s : State) (l : Listener) (o : Result.Outcome Lsn) : State × List Frame :=
  (s.emit (.heard l.serial l.tag o), [.body l.tag l.steps l.panics])

def start (s : State) (w : Waiter) (lsn : Lsn) (place : Place) : State × List Frame :=
  match w.callback with
  | .script tag steps panics =>
    (s.emit (.started w.ticket (some tag) lsn place), [.body tag steps panics])
  | .settle cell => (s.emit (.started w.ticket none lsn place)).settle cell (.value lsn)

/-- The notifier takes the next waiter from its queue. -/
def notify (s : State) : Option (State × List Frame) :=
  match s.queue with
  | [] => none
  | (w, lsn) :: queue =>
    let begun := { s with queue := queue }.start w lsn .notifier
    some (begun.1, begun.2 ++ [.notifying lsn])

def accept (s : State) (w : Waiter) : State :=
  if s.latest < w.target then { s with waiters := insertWaiter w s.waiters }
  else if s.advancing then { s with late := s.late ++ [w] }
  else { s with queue := s.queue ++ [(w, s.latest)], metrics := s.metrics.countFired 1 }

def register (s : State) (target : Lsn) (callback : Callback) : State × Handle :=
  let s' : State := { s with tickets := s.tickets + 1 }.emit (.registered s.tickets target)
  (s'.accept ⟨target, s.tickets, callback⟩, ⟨target, s.tickets⟩)

/-- Takes out the waiter that a handle finds. -/
def remove (s : State) (h : Handle) : State :=
  { s with waiters := s.waiters.filter fun w => !w.isFor h }.emit (.cancelled h true)

def withdraw (s : State) (h : Handle) : State :=
  { s with metrics := s.metrics.countCancelled }.log (.of .waiterCancelled [("target", h.target.text)])

/-- The callback goes with its waiter: an awaited result is abandoned, and its listeners run before the
cancellation is counted. -/
def cancel (s : State) (h : Handle) : State × List Frame × Bool :=
  match s.waiters.find? (·.isFor h) with
  | none => (s.emit (.cancelled h false), [], false)
  | some w =>
    match w.callback with
    | .script .. => ((s.remove h).withdraw h, [], true)
    | .settle cell =>
      let abandoned := (s.remove h).settle cell (.failed (.router .abandoned))
      (abandoned.1, abandoned.2 ++ [.withdrawing h], true)

def listen (s : State) (cell : Nat) (tag : String) (steps : List Action) (panics : Bool) :
    State × List Frame :=
  let l : Listener := ⟨s.listeners, tag, steps, panics⟩
  let s : State := { s with listeners := s.listeners + 1 }.emit (.listening l.serial cell)
  match s.cells[cell]? with
  | none => (s, [])
  | some ⟨none, listeners⟩ => ({ s with cells := s.cells.set cell ⟨none, listeners ++ [l]⟩ }, [])
  | some ⟨some o, _⟩ => s.hear l o

def inspect (s : State) : String :=
  "LsnWaitList \x7b latest: " ++ s.latest.inspect ++ ", pending: " ++ Text.numeral s.waiters.length ++ " \x7d"

/-- One action: the work that it leaves on the stack and its answer. Results outlive the list. -/
def perform (s : State) (a : Action) : State × List Frame × Answer :=
  match a with
  | .poll name =>
    match s.results.find? name with
    | none => (s, [], .noAwait)
    | some cell =>
      match (s.cells[cell]?).bind (·.outcome) with
      | some o => (s, [], .outcome o)
      | none => (s, [], .pending)
  | .listen name tag steps panics =>
    match s.results.find? name with
    | none => (s, [], .noAwait)
    | some cell =>
      let listening := s.listen cell tag steps panics
      (listening.1, listening.2, .nothing)
  | a =>
    if s.dropped then (s, [], .dropped)
    else
      match a with
      | .register tag target steps panics =>
        let registered := s.register target (.script tag steps panics)
        let s := registered.1
        ({ s with handles := s.handles.bind tag registered.2 }, [], .position target)
      | .await name target =>
        let cell := s.cells.length
        let s : State := { s with cells := s.cells ++ [⟨none, []⟩], results := s.results.bind name cell }
        ((s.register target (.settle cell)).1, [], .nothing)
      | .cancel tag =>
        match s.handles.find? tag with
        | none => (s, [], .noHandle)
        | some h =>
          let cancelled := s.cancel h
          (cancelled.1, cancelled.2.1, .flag cancelled.2.2)
      | .handle tag =>
        match s.handles.find? tag with
        | none => (s, [], .noHandle)
        | some h => (s, [], .handle h)
      | .latest => (s, [], .position s.latest)
      | .pending => (s, [], .count s.waiters.length)
      | .metrics => (s, [], .metrics s.metrics)
      | .describe => (s, [], .text s.inspect)
      | .misread e => (s, [], .refused e)
      | .poll _ | .listen .. => (s, [], .nothing)

/-- A position below the latest is refused; any other is recorded, and the waiters it satisfies are due. -/
def advance (s : State) (lsn : Lsn) : State × List Frame × Answer :=
  if s.dropped then (s, [], .dropped)
  else if lsn < s.latest then
    ({ s with metrics := s.metrics.countRegression }.log (.of .lsnRegression
      [("attempted", lsn.text), ("latest", s.latest.text)]), [], .refused (.regression s.latest lsn))
  else
    let due := s.waiters.filter fun w => w.target ≤ lsn
    ({ s with
      latest := lsn
      advancing := true
      waiters := s.waiters.filter fun w => !decide (w.target ≤ lsn) }.emit (.recorded lsn),
      [.batch lsn 0 due due.length], .nothing)

/-- The end of an advance that has started so many callbacks. -/
def rest (s : State) (lsn : Lsn) (fired : Nat) : State :=
  { s with advancing := false, metrics := s.metrics.countFired fired }.log (.of .lsnAdvanced
    [("fired", Text.numeral fired), ("latest", lsn.text)])

/-- Drops the list: awaited results are abandoned, other callbacks that wait never run. -/
def drop (s : State) : State × List Frame × Answer :=
  if s.dropped then (s, [], .dropped)
  else ({ s with dropped := true, waiters := [] }, [.discarding s.waiters], .nothing)

def discard (s : State) (w : Waiter) : State × List Frame :=
  match w.callback with
  | .script .. => (s, [])
  | .settle cell => s.settle cell (.failed (.router .abandoned))

end State
end ReplicaRouting.WaitList
