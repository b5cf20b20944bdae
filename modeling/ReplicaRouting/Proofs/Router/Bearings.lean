import ReplicaRouting.Proofs.Router.Accounting
/-!
What decides where the calls of a router go, and the calls that were made so far. A request looks for its
target first and then makes one call at most; cells, counters and lines have no part in it.
-/

namespace ReplicaRouting

open Net (SocketAddress)
open Result (Context Outcome Listener Network)

structure Bearings where
  setup : Setup
  handle : Option Handle
  stopped : Bool
  interruption : Option Interruption
  calls : List Call

def Bearings.add (b : Bearings) (calls : List Call) : Bearings := { b with calls := b.calls ++ calls }

theorem Bearings.add_nil (b : Bearings) : b.add [] = b := by
  rw [add, List.append_nil]

def RouterAction.callAt (database : String) (context : Context) : RouterAction → Target → Option Call
  | .read q _, .engine h => some (.engine h (.read q) context)
  | .read q _, .remote address => some (.client address database q)
  | .userDefined u _, .engine h => some (.engine h (.userDefined u) context)
  | .comparators, .engine h => some (.comparators h)
  | _, _ => none

def Target.here (op : Operation) : Target → Except RouterError Handle
  | .engine h => .ok h
  | .remote _ => .error (.unsupported op.name)

def RouterAction.group? (id : UInt32) : RouterAction → Option Engine.InsertGroup
  | .insert group _ => some group
  | .singleInsert index key value _ => some ⟨id, [⟨index, key, some value⟩]⟩
  | .singleDelete index key _ => some ⟨id, [⟨index, key, none⟩]⟩
  | _ => none

namespace Router
variable (r : Router)

def bearings : Bearings := ⟨r.setup, r.handle, r.stopped, r.interruption, r.calls⟩

/-- The router when the oracle has answered, with what came between; once shut down it asks nobody. -/
def queried : Router := if r.stopped then r else r.ask.1

theorem keeps_queried : r.Keeps r.queried := by
  unfold queried
  split
  · exact ⟨rfl, rfl⟩
  · exact r.keeps_ask

/-! ### Notes and results -/

theorem bearings_log (x : Log.Record) : (r.log x).bearings = r.bearings := rfl

theorem bearings_note (d : Decision) (op : Operation) (context : Context) :
    (r.note d op context).bearings = r.bearings :=
  bearings_log ..

theorem bearings_reject (op : Operation) (e : RouterError) (context : Context) :
    (r.reject op e context).bearings = r.bearings :=
  bearings_log ..

theorem bearings_record (c : Call) : (r.record c).bearings = r.bearings.add [c] := rfl

theorem bearings_result (context : Context) (o : Option (Outcome Engine.Reply)) :
    (r.result context o).1.bearings = r.bearings := rfl

theorem bearings_logAll (records : List Log.Record) : (r.logAll records).bearings = r.bearings := by
  unfold logAll
  induction records generalizing r with
  | nil => rfl
  | cons record records ih => exact (ih (r.log record)).trans (r.bearings_log record)

theorem bearings_owedByPersistence (cells : List Nat) :
    { r with owedByPersistence := cells }.bearings = r.bearings := rfl

/-! ### Requests -/

theorem bearings_serve (h : Handle) (request : Engine.Request) (context : Context) :
    (r.serve h request context).1.bearings = r.bearings.add [.engine h request context] := by
  unfold serve
  dsimp only
  split <;> rfl

theorem bearings_send (address : SocketAddress) (database : String) (q : Engine.Read) :
    (r.send address database q).1.bearings = r.bearings.add [.client address database q] := by
  unfold send
  dsimp only
  split <;> rfl

theorem bearings_forward (address : SocketAddress) (database : String) (q : Engine.Read)
    (context : Context) :
    (r.forward address database q context).1.bearings =
      r.bearings.add [.client address database q] := by
  have h := r.bearings_send address database q
  unfold forward forwardWith
  generalize r.send address database q = sent at h ⊢
  exact h

theorem bearings_settleOwed (cell : Option Nat) (o : Option (Outcome Engine.Reply)) :
    (r.settleOwed cell o).1.bearings = r.bearings := by
  unfold settleOwed settleOwedWith
  split
  · rfl
  · split
    · rfl
    · split <;> rfl

theorem bearings_localOnly (op : Operation) (context : Context) :
    (r.localOnly op context).1.bearings = (r.resolve op).1.bearings := by
  unfold localOnly
  generalize r.resolve op = resolved
  obtain ⟨r', target⟩ := resolved
  cases target with
  | error e => exact bearings_reject ..
  | ok target =>
    cases target with
    | engine h => rfl
    | remote address => exact r'.bearings_note (.unsupported address) op context

theorem localOnly_eq (op : Operation) (context : Context) :
    (r.localOnly op context).2 = (r.resolve op).2.bind (·.here op) := by
  unfold localOnly
  generalize r.resolve op = resolved
  obtain ⟨r', target⟩ := resolved
  cases target with
  | error e => rfl
  | ok target => cases target <;> rfl

theorem bearings_read (q : Engine.Read) (token : Option Result.TokenValue) (context : Context) :
    (r.read q context).1.bearings = (r.resolve q.operation).1.bearings.add
      ((r.resolve q.operation).2.toOption.bind
        ((RouterAction.read q token).callAt r.name context)).toList := by
  have hname : (r.resolve q.operation).1.name = r.name :=
    congrArg Setup.name (r.keeps_resolve q.operation).setup
  unfold Router.read Router.readWith
  generalize r.resolve q.operation = resolved at hname ⊢
  obtain ⟨r', target⟩ := resolved
  cases target with
  | error e =>
    refine Eq.trans ?_ (Bearings.add_nil _).symm
    exact (bearings_result ..).trans (bearings_reject ..)
  | ok target =>
    cases target with
    | engine h =>
      refine (bearings_serve ..).trans ?_
      exact congrArg (fun b : Bearings => b.add [.engine h (.read q) context])
        (r'.bearings_note .here q.operation context)
    | remote address =>
      refine (bearings_forward ..).trans ?_
      rw [← hname]
      exact congrArg (fun b : Bearings => b.add [.client address r'.name q])
        (r'.bearings_note (.away address) q.operation context)

theorem bearings_userDefined (u : Engine.UserLookup) (token : Option Result.TokenValue)
    (context : Context) :
    (r.userDefined u context).1.bearings = (r.resolve .userDefinedLookup).1.bearings.add
      ((r.resolve .userDefinedLookup).2.toOption.bind
        ((RouterAction.userDefined u token).callAt r.name context)).toList := by
  have hb := r.bearings_localOnly .userDefinedLookup context
  have ht := r.localOnly_eq .userDefinedLookup context
  unfold Router.userDefined
  generalize r.localOnly .userDefinedLookup context = found at hb ht ⊢
  rw [← hb]
  dsimp only
  rw [ht]
  cases (r.resolve .userDefinedLookup).2 with
  | error e => exact (Bearings.add_nil _).symm
  | ok target =>
    cases target with
    | engine h => exact bearings_serve ..
    | remote address => exact (Bearings.add_nil _).symm

theorem bearings_comparators (context : Context) :
    r.comparators.1.bearings = ((r.drawn none).resolve .comparators).1.bearings.add
      (((r.drawn none).resolve .comparators).2.toOption.bind
        (RouterAction.comparators.callAt r.name context)).toList := by
  have hb := (r.drawn none).bearings_localOnly .comparators (.make r.net.contexts none)
  have ht := (r.drawn none).localOnly_eq .comparators (.make r.net.contexts none)
  generalize hfound : (r.drawn none).localOnly .comparators (.make r.net.contexts none) = found at hb ht
  rw [comparators_eq hfound, ht, ← hb]
  cases ((r.drawn none).resolve .comparators).2 with
  | error e => exact (Bearings.add_nil _).symm
  | ok target =>
    cases target with
    | engine h => rfl
    | remote address => exact (Bearings.add_nil _).symm

/-- A request that may be served here: its target is sought, and the call that goes with it is made. -/
theorem bearings_lookup {a : RouterAction} {op : Operation} {token : Option Result.TokenValue}
    (h : a.request? = some (op, token)) (ho : op ≠ .insert) :
    let resolved := (r.drawn token).resolve op
    (r.perform a).1.bearings = resolved.1.bearings.add
      (resolved.2.toOption.bind (a.callAt r.name (.make r.net.contexts token))).toList := by
  cases a with
  | read q token =>
    cases h
    exact (r.drawn token).bearings_read q token _
  | userDefined u token =>
    cases h
    exact (r.drawn token).bearings_userDefined u token _
  | comparators =>
    cases h
    exact r.bearings_comparators _
  | insert | singleInsert | singleDelete =>
    cases h
    exact absurd rfl ho
  | _ => cases h

/-! ### Refusals -/

/-- Why a router refuses whatever it is asked. -/
def refusal? : Option RouterError :=
  if r.stopped then some (.stopped r.name)
  else if r.oracle.primary.isNone then some .noQuorum
  else none

/-- The caller of an operation is told an error at once; a result has failed when the call returns, and it
has the context of the call. -/
def Fails (op : Operation) (context : Context) (e : RouterError) (done : Router × RouterAnswer) : Prop :=
  if op = .comparators then done.2 = .comparators (.error e)
  else ∃ cell, done.2 = .result cell (some (.failed (.router e))) ∧
    done.1.net.cells[cell]? = some ⟨some context, some (.failed (.router e))⟩

theorem answered_failed (e : RouterError) (context : Context) :
    (answered (r.failed e context)).2 =
      .result (r.failed e context).2 (some (.failed (.router e))) := by
  have h := r.outcomeAt_result context (some (.failed (.router e)))
  exact congrArg (RouterAnswer.result _) (congrArg (·.bind (·.outcome)) h)

theorem failed_fails {op : Operation} (ho : op ≠ .comparators) (e : RouterError) (context : Context) :
    Fails op context e (answered (r.failed e context)) := by
  rw [Fails, if_neg ho]
  exact ⟨_, r.answered_failed e context, r.outcomeAt_result context _⟩

theorem Fails.error? {op : Operation} {context : Context} {e : RouterError}
    {done : Router × RouterAnswer} (h : Fails op context e done) : done.2.error? = some e := by
  unfold Fails at h
  split at h
  · rw [h]
    rfl
  · obtain ⟨cell, h, -⟩ := h
    rw [h]
    rfl

theorem lookup_fails {a : RouterAction} {op : Operation} {token : Option Result.TokenValue}
    (h : a.request? = some (op, token)) (ho : op ≠ .insert) {e : RouterError}
    (he : ((r.drawn token).resolve op).2 = .error e ∨ op.isForwardable = false ∧
      ((r.drawn token).resolve op).2.bind (·.here op) = .error e) :
    Fails op (.make r.net.contexts token) e (r.perform a) := by
  have hhere : ((r.drawn token).resolve op).2.bind (·.here op) = .error e := by
    rcases he with he | ⟨-, he⟩
    · rw [he]
      rfl
    · exact he
  cases a with
  | read q token =>
    cases h
    have he : ((r.drawn token).resolve q.operation).2 = .error e := by
      rcases he with he | ⟨hf, -⟩
      · exact he
      · cases q <;> cases hf
    show Fails _ _ _ (answered ((r.drawn token).read q (.make r.net.contexts token)))
    unfold Router.read Router.readWith
    dsimp only
    rw [he]
    exact failed_fails _ (by cases q <;> nofun) ..
  | userDefined u token =>
    cases h
    show Fails _ _ _ (answered ((r.drawn token).userDefined u (.make r.net.contexts token)))
    unfold Router.userDefined
    dsimp only
    rw [localOnly_eq, hhere]
    exact failed_fails _ (by decide) ..
  | comparators =>
    cases h
    show (RouterAnswer.comparators r.comparators.2) = _
    rw [comparators_eq rfl]
    have hl := (r.drawn none).localOnly_eq .comparators (r.net.freshContext none).2
    rw [hhere] at hl
    unfold drawn at hl
    rw [hl]
  | insert | singleInsert | singleDelete =>
    cases h
    exact absurd rfl ho
  | _ => cases h

/-! ### Writes -/

def dispatch (group : Engine.InsertGroup) (context : Context) : Router × Nat :=
  let sent := (r.note (.written group.size) .insert context).record (.persistence .insert group context)
  match r.collaborators.persistence .insert group context with
  | .settled reply => sent.result context (some (.ofRouted reply))
  | .held =>
    let made := sent.result context none
    ({ made.1 with owedByPersistence := made.1.owedByPersistence ++ [made.2] }, made.2)

theorem bearings_dispatch (group : Engine.InsertGroup) (context : Context) :
    (r.dispatch group context).1.bearings = r.bearings.add [.persistence .insert group context] := by
  have hsent : ((r.note (.written group.size) .insert context).record
      (.persistence .insert group context)).bearings = r.bearings.add [.persistence .insert group context] := by
    rw [bearings_record, bearings_note]
  unfold dispatch
  cases r.collaborators.persistence .insert group context with
  | settled reply => exact (bearings_result ..).trans hsent
  | held =>
    dsimp only
    rw [bearings_owedByPersistence, bearings_result]
    exact hsent

theorem refusal?_drawn (token : Option Result.TokenValue) : (r.drawn token).refusal? = r.refusal? := rfl

theorem primary_ask : r.ask.2.primary = r.oracle.primary := by
  have h : r.ask.1.oracle = r.oracle := congrArg Setup.oracle r.keeps_ask.setup
  show r.ask.1.oracle.primary = _
  rw [h]

/-- A write is handed on once the oracle names a primary, whoever that is; else it is refused. -/
theorem insert_eq (group : Engine.InsertGroup) (context : Context) :
    r.insert group context =
      match r.refusal? with
      | none => r.queried.dispatch group context
      | some e => (if r.stopped then r else r.queried.reject .insert e context).failed e context := by
  have hp := r.primary_ask
  unfold insert refusal? queried dispatch
  by_cases hs : r.stopped = true
  · simp only [if_pos hs]
  · simp only [if_neg hs]
    rw [hp]
    cases r.oracle.primary <;> rfl

theorem bearings_insert (group : Engine.InsertGroup) (context : Context) :
    (r.insert group context).1.bearings = r.queried.bearings.add
      (if r.refusal?.isNone then [.persistence .insert group context] else []) := by
  rw [insert_eq]
  cases r.refusal? with
  | none => exact bearings_dispatch ..
  | some e =>
    refine Eq.trans (bearings_result ..) (Eq.trans ?_ (Bearings.add_nil _).symm)
    by_cases hs : r.stopped = true
    · simp only [queried, if_pos hs]
    · simp only [if_neg hs, bearings_reject]

theorem perform_write {a : RouterAction} {token : Option Result.TokenValue}
    (h : a.request? = some (.insert, token)) :
    ∃ group, a.group? r.id = some group ∧
      r.perform a = answered ((r.drawn token).insert group (.make r.net.contexts token)) := by
  cases a with
  | insert | singleInsert | singleDelete =>
    cases h
    exact ⟨_, rfl, rfl⟩
  | read q => cases q <;> cases h
  | _ => cases h

theorem write_fails {a : RouterAction} {token : Option Result.TokenValue}
    (h : a.request? = some (.insert, token)) {e : RouterError} (he : r.refusal? = some e) :
    Fails .insert (.make r.net.contexts token) e (r.perform a) := by
  obtain ⟨group, -, hd⟩ := r.perform_write h
  rw [hd, insert_eq, refusal?_drawn, he]
  exact failed_fails _ (by decide) ..

/-! ### Counters -/

/-- Overlooks the notes of decisions. -/
def Unnoted (look : Network Engine.Reply → α) : Prop :=
  ∀ (r : Router) d op context, look (r.note d op context).net = look r.net

section Unnoted
variable {look : Network Engine.Reply → α} (hn : Unnoted look)
include hn

theorem Unnoted.localOnly (r : Router) (op : Operation) (context : Context) :
    look (r.localOnly op context).1.net = look (r.resolve op).1.net := by
  unfold Router.localOnly
  generalize r.resolve op = resolved
  obtain ⟨r', target⟩ := resolved
  cases target with
  | error e => exact hn r' (.rejected e) op context
  | ok target =>
    cases target with
    | engine h => rfl
    | remote address => exact hn r' (.unsupported address) op context

variable (hd : Deaf look)
include hd

theorem Unnoted.insert (r : Router) (group : Engine.InsertGroup) (context : Context) :
    look (r.insert group context).1.net = look r.queried.net := by
  rw [insert_eq]
  cases r.refusal? with
  | none =>
    have hw := hn r.queried (.written group.size) .insert context
    dsimp only
    unfold dispatch
    cases r.queried.collaborators.persistence .insert group context with
    | settled reply => exact (hd.addCell ..).trans hw
    | held => exact (hd.addCell ..).trans hw
  | some e =>
    refine (hd.addCell ..).trans ?_
    by_cases hs : r.stopped = true
    · simp only [queried, if_pos hs]
    · simp only [if_neg hs]
      exact hn r.queried (.rejected e) .insert context

variable {r : Router} (ht : r.Tidy)
include ht

theorem Unnoted.read (q : Engine.Read) (context : Context) :
    look (r.read q context).1.net = look (r.resolve q.operation).1.net := by
  have hk := r.keeps_resolve q.operation
  unfold Router.read Router.readWith
  generalize r.resolve q.operation = resolved at hk ⊢
  obtain ⟨r', target⟩ := resolved
  cases target with
  | error e => exact (hd.addCell ..).trans (hn r' (.rejected e) q.operation context)
  | ok target =>
    cases target with
    | engine h => exact (hd.serve ..).trans (hn r' .here q.operation context)
    | remote address =>
      have ht' := (ht.keeps (hk.note (.away address) q.operation context)).tidy
      exact (hd.forward ht' address r'.name q context).trans (hn r' (.away address) q.operation context)

theorem Unnoted.lookup {a : RouterAction} {op : Operation} {token : Option Result.TokenValue}
    (h : a.request? = some (op, token)) (ho : op ≠ .insert) :
    look (r.perform a).1.net = look ((r.drawn token).resolve op).1.net := by
  have hdrawn : (r.drawn token).Tidy := (ht.fresh token).tidy
  cases a with
  | read q token =>
    cases h
    exact hn.read hd hdrawn q _
  | userDefined u token =>
    cases h
    have hl := hn.localOnly (r.drawn token) .userDefinedLookup (.make r.net.contexts token)
    show look ((r.drawn token).userDefined u (.make r.net.contexts token)).1.net = _
    unfold Router.userDefined
    generalize (r.drawn token).localOnly .userDefinedLookup (.make r.net.contexts token) = found at hl ⊢
    rw [← hl]
    dsimp only
    split
    · exact hd.addCell ..
    · exact hd.serve ..
  | comparators =>
    cases h
    have hl := hn.localOnly (r.drawn none) .comparators (.make r.net.contexts none)
    show look r.comparators.1.net = _
    generalize hfound : (r.drawn none).localOnly .comparators (.make r.net.contexts none) = found at hl
    rw [comparators_eq hfound, ← hl]
    cases found.2 <;> rfl
  | insert | singleInsert | singleDelete =>
    cases h
    exact absurd rfl ho
  | _ => cases h

end Unnoted

end Router
end ReplicaRouting
