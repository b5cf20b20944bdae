import ReplicaRouting.Metrics
import ReplicaRouting.Names
import ReplicaRouting.Log.Line
import ReplicaRouting.Net.SocketAddress
import ReplicaRouting.Result.Outcome
/-!
Result cells, the listeners that wait on them and the scripts that listeners run. A cell is settled once;
a listener of a settled cell starts at once, inside the call that registers it.
-/

namespace ReplicaRouting.Result

/-- A read forwarded to the primary. -/
structure RemoteRead where
  database : String
  primary : Net.SocketAddress
  request : RequestId
deriving Repr, DecidableEq

/-- What callers and listeners do with cells, which they know by name. -/
inductive Action (V : Type)
  | pending (name : String) (token : Option TokenValue)
  | settled (name : String) (outcome : Outcome V) (token : Option TokenValue)
  | response (name : String)
  | settledResponse (name : String) (outcome : Outcome V)
  | adapt (source name : String) (token : Option TokenValue)
  | clone (source name : String)
  | complete (name : String) (outcome : Outcome V)
  | abandon (name : String)
  | completer (name : String)
  | listen (name tag : String) (steps : List (Action V)) (panics : Bool)
  | get (name : String)
  | getTimeout (name : String)
  | isDone (name : String)
  | describe (name : String)
  | context (name : String)
  | wait (name as : String)
  | poll (as : String)
  | block (name as : String)
  | join (as : String)

inductive Answer (V : Type)
  | nothing
  | flag (b : Bool)
  | outcome (o : Outcome V)
  | pending
  | text (s : String)
  | context (c : Option Context)
  | noCompleter
  | dropped
  | noWait
  | noThread
  | noCell
  | panicked
deriving Repr, DecidableEq

inductive Listener (V : Type)
  | script (tag : String) (steps : List (Action V)) (panics : Bool)
  /-- Settles a result with the adapted outcome. -/
  | adapter (into : Nat)
  /-- Counts and logs the failure of a remote read. -/
  | recorder (read : RemoteRead)
  /-- Hands the outcome to the future that registered it. -/
  | receiver

structure Registered (V : Type) where
  serial : Nat
  cell : Nat
  listener : Listener V

structure Cell (V : Type) where
  context : Option Context
  outcome : Option (Outcome V)
deriving Repr, DecidableEq

/-- A future of a cell. It has the outcome once its own listener, known by the serial, has run. -/
structure Future (V : Type) where
  serial : Nat
  cell : Nat
  outcome : Option (Outcome V)
deriving Repr, DecidableEq

/-- Takes the outcome that was handed to a listener, if the listener is its own. -/
def Future.receive (serial : Nat) (o : Outcome V) (f : Future V) : Future V :=
  if f.serial = serial then { f with outcome := some o } else f

inductive Entry (V : Type)
  | registered (serial cell : Nat)
  | started (serial cell : Nat) (tag : Option String) (outcome : Outcome V) (context : Option Context)
  | answered (tag : String) (answer : Answer V)
  | logged (record : Log.Record)
deriving Repr, DecidableEq

/-- Work in progress, the innermost first on a stack. -/
inductive Frame (V : Type)
  /-- The rest of a script; an answer goes with its tag. -/
  | body (tag : String) (steps : List (Action V)) (panics : Bool)
  | answering (tag : String) (answer : Answer V)
  /-- The listeners of a cell that is being settled; panics stop here. -/
  | delivering (outcome : Outcome V) (context : Option Context) (rest : List (Registered V))
      (position total : Nat)

structure Network (V : Type) where
  cells : List (Cell V) := []
  waiting : List (Registered V) := []
  names : Names Nat := []
  completers : Names Nat := []
  waits : Names (Future V) := []
  threads : Names Nat := []
  contexts : Nat := 0
  registrations : Nat := 0
  metrics : Metrics := {}
  history : List (Entry V) := []

def Listener.tag? : Listener V → Option String
  | .script tag _ _ => some tag
  | _ => none

namespace Network

def emit (n : Network V) (e : Entry V) : Network V := { n with history := n.history ++ [e] }

def log (n : Network V) (r : Log.Record) : Network V := n.emit (.logged r)

def freshContext (n : Network V) (token : Option TokenValue) : Network V × Context :=
  ({ n with contexts := n.contexts + 1 }, .make n.contexts token)

def addCell (n : Network V) (c : Cell V) : Network V × Nat :=
  ({ n with cells := n.cells ++ [c] }, n.cells.length)

def outcomeAt (n : Network V) (cell : Nat) : Option (Outcome V) := (n.cells[cell]?).bind (·.outcome)

def contextAt (n : Network V) (cell : Nat) : Option Context := (n.cells[cell]?).bind (·.context)

/-- Gives a pending cell its outcome and takes its listeners, in registration order. -/
def settle (n : Network V) (cell : Nat) (o : Outcome V) : Network V × List (Frame V) × Bool :=
  match n.cells[cell]? with
  | some ⟨context, none⟩ =>
    let due := n.waiting.filter (·.cell = cell)
    ({ n with
        cells := n.cells.set cell ⟨context, some o⟩
        waiting := n.waiting.filter (·.cell ≠ cell) },
      [.delivering o context due 0 due.length], true)
  | _ => (n, [], false)

def start (n : Network V) (r : Registered V) (o : Outcome V) (context : Option Context) :
    Network V × List (Frame V) :=
  let n := n.emit (.started r.serial r.cell r.listener.tag? o context)
  match r.listener, o with
  | .script tag steps panics, _ => (n, [.body tag steps panics])
  | .adapter into, o =>
    let (n, frames, _) := n.settle into o.adapt
    (n, frames)
  | .recorder read, .failed f =>
    let e := f.routed
    let n := { n with metrics := n.metrics.countFailure e.code }
    (n.log (.of .remoteFailed [("database", read.database), ("primary", read.primary.text),
      ("code", e.code.name), ("error", e.text), ("request_id", read.request.text)]), [])
  | .recorder _, .value _ => (n, [])
  | .receiver, o => ({ n with waits := n.waits.mapValues (.receive r.serial o) }, [])

/-- Registers a listener: it waits for a pending cell and starts at once on a settled one. -/
def register (n : Network V) (cell : Nat) (l : Listener V) : Network V × List (Frame V) :=
  let r : Registered V := ⟨n.registrations, cell, l⟩
  let n := { n with registrations := n.registrations + 1 }.emit (.registered r.serial cell)
  match n.outcomeAt cell with
  | none => ({ n with waiting := n.waiting ++ [r] }, [])
  | some o => n.start r o (n.contextAt cell)

/-- Uses up the completer that is kept under a name. -/
def takeCompleter (n : Network V) (name : String) : Option (Network V × Nat) :=
  (n.completers.find? name).map fun cell => ({ n with completers := n.completers.unbind name }, cell)

/-- Drops the completer that is kept under a name, if there is one: its cell is abandoned. -/
def dropCompleter (n : Network V) (name : String) : Network V × List (Frame V) × Bool :=
  match n.takeCompleter name with
  | none => (n, [], false)
  | some (n, cell) => n.settle cell (.abandoned (n.contextAt cell))

/-- Makes a pending cell with a completer under its name; a completer kept there before is dropped. -/
def addPending (n : Network V) (name : String) (context : Option Context) : Network V × List (Frame V) :=
  let (n, cell) := n.addCell ⟨context, none⟩
  let n := { n with names := n.names.bind name cell }
  let (n, frames, _) := n.dropCompleter name
  ({ n with completers := n.completers.bind name cell }, frames)

def addSettled (n : Network V) (name : String) (context : Option Context) (o : Outcome V) : Network V :=
  let (n, cell) := n.addCell ⟨context, some o⟩
  { n with names := n.names.bind name cell }

/-- A result that follows a response. -/
def addAdapted (n : Network V) (source : Nat) (context : Context) : (Network V × List (Frame V)) × Nat :=
  let (n, cell) := n.addCell ⟨some context, none⟩
  (n.register source (.adapter cell), cell)

def inspect (n : Network V) (cell : Nat) : String :=
  let settled := if (n.outcomeAt cell).isSome then "true" else "false"
  let promise := "Promise \x7b settled: " ++ settled ++ " \x7d"
  match n.contextAt cell with
  | some c => "AsyncResult \x7b promise: " ++ promise ++ ", context: " ++ c.inspect ++ " \x7d"
  | none => promise

def read (n : Network V) (cell : Nat) : Answer V :=
  match n.outcomeAt cell with
  | some o => .outcome o
  | none => .pending

/-- Takes the outcome out of a future; one that has it is used up. -/
def poll (n : Network V) (as : String) : Network V × Answer V :=
  match n.waits.find? as with
  | none => (n, .noWait)
  | some ⟨_, _, none⟩ => (n, .pending)
  | some ⟨_, _, some o⟩ => ({ n with waits := n.waits.unbind as }, .outcome o)

/-- One action: the work that it leaves on the stack and its answer. -/
def perform (n : Network V) : Action V → Network V × List (Frame V) × Answer V
  | .pending name token =>
    let (n, context) := n.freshContext token
    let (n, frames) := n.addPending name (some context)
    (n, frames, .nothing)
  | .settled name o token =>
    let (n, context) := n.freshContext token
    (n.addSettled name (some context) o, [], .nothing)
  | .response name =>
    let (n, frames) := n.addPending name none
    (n, frames, .nothing)
  | .settledResponse name o => (n.addSettled name none o, [], .nothing)
  | .adapt source name token =>
    match n.names.find? source with
    | none => (n, [], .noCell)
    | some cell =>
      let (n, context) := n.freshContext token
      let ((n, frames), result) := n.addAdapted cell context
      ({ n with names := n.names.bind name result }, frames, .nothing)
  | .clone source name =>
    match n.names.find? source with
    | none => (n, [], .noCell)
    | some cell => ({ n with names := n.names.bind name cell }, [], .nothing)
  | .complete name o =>
    match n.takeCompleter name with
    | none => (n, [], .noCompleter)
    | some (n, cell) =>
      let (n, frames, done) := n.settle cell o
      (n, frames, .flag done)
  | .abandon name =>
    if (n.completers.find? name).isNone then (n, [], .noCompleter)
    else
      let (n, frames, _) := n.dropCompleter name
      (n, frames, .dropped)
  | .completer name =>
    if (n.completers.find? name).isNone then (n, [], .noCompleter)
    else (n, [], .text "Completer \x7b armed: true \x7d")
  | .listen name tag steps panics =>
    match n.names.find? name with
    | none => (n, [], .noCell)
    | some cell =>
      let (n, frames) := n.register cell (.script tag steps panics)
      (n, frames, .nothing)
  | .get name =>
    match n.names.find? name with
    | none => (n, [], .noCell)
    | some cell => (n, [], n.read cell)
  | .getTimeout name =>
    match n.names.find? name with
    | none => (n, [], .noCell)
    | some cell =>
      match n.outcomeAt cell with
      | some o => (n, [], .outcome o)
      | none => (n, [], .nothing)
  | .isDone name =>
    match n.names.find? name with
    | none => (n, [], .noCell)
    | some cell => (n, [], .flag (n.outcomeAt cell).isSome)
  | .describe name =>
    match n.names.find? name with
    | none => (n, [], .noCell)
    | some cell => (n, [], .text (n.inspect cell))
  | .context name =>
    match n.names.find? name with
    | none => (n, [], .noCell)
    | some cell => (n, [], .context (n.contextAt cell))
  | .wait name as =>
    match n.names.find? name with
    | none => (n, [], .noCell)
    | some cell =>
      let n := { n with waits := n.waits.bind as ⟨n.registrations, cell, none⟩ }
      let (n, frames) := n.register cell .receiver
      let (n, answer) := n.poll as
      (n, frames, answer)
  | .poll as =>
    let (n, answer) := n.poll as
    (n, [], answer)
  | .block name as =>
    match n.names.find? name with
    | none => (n, [], .noCell)
    | some cell => ({ n with threads := n.threads.bind as cell }, [], .nothing)
  | .join as =>
    match n.threads.find? as with
    | none => (n, [], .noThread)
    | some cell =>
      match n.outcomeAt cell with
      | some o => ({ n with threads := n.threads.unbind as }, [], .outcome o)
      | none => (n, [], .pending)

end Network
end ReplicaRouting.Result
