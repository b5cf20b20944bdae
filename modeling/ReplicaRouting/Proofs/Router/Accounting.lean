import ReplicaRouting.Proofs.Router.Notes
import ReplicaRouting.Proofs.Router.Routing
/-!
How a router accounts for its decisions. A decision raises one counter and logs one event, so the counters
are the numbers of the events. Two kinds of calls pass without a note: writes to a router that has been shut
down, and requests that are served here but are never forwarded.
-/

namespace ReplicaRouting

open Net (SocketAddress)
open Result (Context Outcome Listener Network)

def Log.Event.decisions : List Log.Event :=
  [.routeLocal, .routeRemote, .routeRejected, .routeUnsupported, .writeDispatched]

def Log.Record.isDecision (x : Log.Record) : Bool := Log.Event.decisions.any (·.name == x.event)

def Metrics.decided (m : Metrics) : Log.Event → UInt64
  | .routeLocal => m.localReads
  | .routeRemote => m.remoteReads
  | .routeRejected => m.rejected
  | .routeUnsupported => m.unsupported
  | .writeDispatched => m.writes
  | _ => 0

def Metrics.decisions (m : Metrics) : UInt64 :=
  m.localReads + m.remoteReads + m.rejected + m.unsupported + m.writes

def Result.Entry.decision? : Result.Entry V → Option Log.Record
  | .logged x => if x.isDecision then some x else none
  | _ => none

def Result.Network.accounts (n : Network Engine.Reply) : (Log.Event → UInt64) × List Log.Record :=
  (n.metrics.decided, n.history.filterMap (·.decision?))

def Router.decisions (r : Router) : List Log.Record := r.net.accounts.2

def RouterAnswer.error? : RouterAnswer → Option RouterError
  | .result _ (some (.failed (.router e))) => some e
  | .comparators (.error e) => some e
  | _ => none

/-- What comes of a decision: the collaborator that was asked last, or the error that the caller is told. -/
def Decision.Shown (d : Decision) (database : String) (op : Operation) (context : Context)
    (done : Router × RouterAnswer) : Prop :=
  match d with
  | .here => ∃ h q, q.operation = op ∧ done.1.calls.getLast? = some (.engine h (.read q) context)
  | .away primary =>
    ∃ q, q.operation = op ∧ done.1.calls.getLast? = some (.client primary database q)
  | .rejected e => done.2.error? = some e
  | .unsupported _ => done.2.error? = some (.unsupported op.name)
  | .written records => ∃ group : Engine.InsertGroup, group.size = records ∧
      done.1.calls.getLast? = some (.persistence .insert group context)

def Decision.Refuses (op : Operation) (e : RouterError) : Decision → Prop
  | .rejected e' => e' = e
  | .unsupported _ => e = .unsupported op.name
  | _ => False

theorem Decision.Refuses.shown {d : Decision} {op : Operation} {e : RouterError}
    (h : d.Refuses op e) {done : Router × RouterAnswer} (he : done.2.error? = some e)
    (database : String) (context : Context) : d.Shown database op context done := by
  cases d with
  | rejected e' =>
    obtain rfl : e' = e := h
    exact he
  | unsupported primary =>
    obtain rfl : e = .unsupported op.name := h
    exact he
  | here | away | written => exact h.elim

/-- The operation that is called, and the token that the caller gives. -/
def RouterAction.request? : RouterAction → Option (Operation × Option Result.TokenValue)
  | .read q token => some (q.operation, token)
  | .userDefined _ token => some (.userDefinedLookup, token)
  | .comparators => some (.comparators, none)
  | .insert _ token | .singleInsert _ _ _ token | .singleDelete _ _ token => some (.insert, token)
  | _ => none

namespace Router

def servesHere (r : Router) (op : Operation) : Bool :=
  match (r.resolve op).2 with
  | .ok (.engine _) => true
  | _ => false

/-- Calls that are neither counted nor logged. -/
def passes (r : Router) (op : Operation) (token : Option Result.TokenValue) : Bool :=
  match op with
  | .insert => r.stopped
  | .userDefinedLookup | .comparators => (r.drawn token).servesHere op
  | _ => false

/-! ### A look at the decisions -/

theorem event_name_inj :
    ∀ e ∈ Log.Event.decisions, ∀ e' ∈ Log.Event.decisions, e.name = e'.name ↔ e' = e := by
  decide

theorem event_mem (d : Decision) : d.event ∈ Log.Event.decisions := by
  cases d <;> simp [Decision.event, Log.Event.decisions]

theorem decision?_of (e : Log.Event) (fields : List (String × String)) :
    (Result.Entry.logged (.of e fields) : Result.Entry Engine.Reply).decision? =
      if e ∈ Log.Event.decisions then some (.of e fields) else none := by
  have h : (Log.Record.of e fields).isDecision = decide (e ∈ Log.Event.decisions) := by
    show Log.Event.decisions.any (·.name == e.name) = _
    cases e <;> decide
  simp [Result.Entry.decision?, h]

theorem accounts_emit (n : Network Engine.Reply) {e : Result.Entry Engine.Reply}
    (h : e.decision? = none) : (n.emit e).accounts = n.accounts := by
  simp [Network.accounts, Network.emit, List.filterMap_append, h]

theorem accounts_log (n : Network Engine.Reply) {e : Log.Event} (he : e ∉ Log.Event.decisions)
    (fields : List (String × String)) : (n.log (.of e fields)).accounts = n.accounts :=
  accounts_emit n ((decision?_of e fields).trans (if_neg he))

theorem accounts_apart : Apart fun r => r.net.accounts := by
  refine ⟨fun _ _ => rfl, fun _ _ => rfl, fun _ _ => rfl, fun _ _ => rfl, fun _ _ _ => rfl,
    fun _ => rfl, fun r e fields he => accounts_log r.net ?_ fields⟩
  revert e
  decide

theorem accounts_settle (n : Network Engine.Reply) (cell : Nat) (o : Outcome Engine.Reply) :
    (n.settle cell o).1.accounts = n.accounts := by
  obtain ⟨context, -, hs⟩ | hs := n.settle_cases cell o
  · rw [hs]
    rfl
  · rw [hs]

theorem accounts_start (n : Network Engine.Reply) (x : Result.Registered Engine.Reply)
    (o : Outcome Engine.Reply) (context : Option Context) :
    (n.start x o context).1.accounts = n.accounts := by
  obtain ⟨serial, cell, listener⟩ := x
  have hstarted : ∀ tag, (n.emit (.started serial cell tag o context)).accounts = n.accounts :=
    fun tag => accounts_emit n rfl
  cases listener with
  | script | receiver => exact hstarted _
  | adapter into => exact (accounts_settle _ into o.adapt).trans (hstarted none)
  | recorder read =>
    cases o with
    | value v => exact hstarted none
    | failed f =>
      refine (accounts_log _ (by decide) _).trans (Eq.trans ?_ (hstarted none))
      refine congrArg (·, _) ?_
      cases f.routed.code <;> rfl

theorem accounts_register (n : Network Engine.Reply) (cell : Nat) (l : Listener Engine.Reply) :
    (n.register cell l).1.accounts = n.accounts := by
  have hregistered : ({ n with registrations := n.registrations + 1 }.emit
      (.registered n.registrations cell)).accounts = n.accounts := accounts_emit _ rfl
  rcases n.register_cases cell l with ⟨-, h⟩ | ⟨o, -, h⟩
  · rw [h]
    exact hregistered
  · rw [h]
    exact (accounts_start ..).trans hregistered

theorem accounts_deaf : Deaf Network.accounts :=
  ⟨fun _ _ => rfl, accounts_settle, accounts_start, accounts_register,
    fun n _ _ => accounts_emit n rfl, fun n fields => accounts_log n (by decide) fields⟩

/-! ### Each call -/

def raised (d : Decision) (x : Log.Record) (seen : (Log.Event → UInt64) × List Log.Record) :
    (Log.Event → UInt64) × List Log.Record :=
  (fun e => seen.1 e + if e = d.event then 1 else 0, seen.2 ++ [x])

theorem accounts_note (r : Router) (d : Decision) (op : Operation) (context : Context) :
    (r.note d op context).net.accounts =
      raised d (d.record r.name op context) r.net.accounts := by
  have hx : (Result.Entry.logged (d.record r.name op context) : Result.Entry Engine.Reply).decision? =
      some (d.record r.name op context) :=
    (decision?_of d.event _).trans (if_pos (event_mem d))
  have hcount : (d.count r.net.metrics).decided =
      fun e => r.net.metrics.decided e + if e = d.event then 1 else 0 := by
    funext e
    cases d <;> cases e <;> first | rfl | exact (UInt64.add_zero _).symm
  refine Prod.ext hcount ?_
  show (r.net.history ++ [_]).filterMap Result.Entry.decision? = _
  rw [List.filterMap_append, List.filterMap_cons, hx]
  rfl

/-- A decision on a call is noted, and the call goes on as decided. -/
def Decides (r : Router) (op : Operation) (context : Context) (done : Router × RouterAnswer) : Prop :=
  ∃ d : Decision, d.Shown r.name op context done ∧
    done.1.net.accounts = raised d (d.record r.name op context) r.net.accounts

section Calls
variable {r r' : Router}

theorem error?_failed (r : Router) (e : RouterError) (context : Context) :
    (answered (r.failed e context)).2.error? = some e := by
  have h := r.outcomeAt_result context (some (.failed (.router e)))
  have ho : (r.failed e context).1.net.outcomeAt (r.failed e context).2 =
      some (.failed (.router e)) := congrArg (·.bind (·.outcome)) h
  rw [answered, ho]
  rfl

theorem Keeps.accounts_note (hk : r.Keeps r')
    (hn : r'.net.accounts = r.net.accounts) (d : Decision) (op : Operation)
    (context : Context) :
    (r'.note d op context).net.accounts =
      raised d (d.record r.name op context) r.net.accounts := by
  have hname : r'.name = r.name := congrArg Setup.name hk.setup
  rw [Router.accounts_note, hn, hname]

theorem Tidy.read_decides (hr : r.Tidy) (q : Engine.Read) (context : Context) :
    r.Decides q.operation context (answered (r.read q context)) := by
  have hk := r.keeps_resolve q.operation
  have hn := accounts_apart.resolve r q.operation
  unfold Router.read Router.readWith
  generalize r.resolve q.operation = resolved at hk hn ⊢
  obtain ⟨r', target⟩ := resolved
  cases target with
  | error e => exact ⟨.rejected e, error?_failed .., hk.accounts_note hn (.rejected e) ..⟩
  | ok target =>
    cases target with
    | engine h =>
      refine ⟨.here, ⟨h, q, rfl, ?_⟩, ?_⟩
      · show ((r'.note .here q.operation context).serve h (.read q) context).1.calls.getLast? = _
        rw [serve_calls, List.getLast?_concat]
      · exact (accounts_deaf.serve ..).trans (hk.accounts_note hn .here ..)
    | remote address =>
      have hname : r'.name = r.name := congrArg Setup.name hk.setup
      have ht := (hr.keeps (hk.note (.away address) q.operation context)).tidy
      refine ⟨.away address, ⟨q, rfl, ?_⟩, ?_⟩
      · show ((r'.note (.away address) q.operation context).forward address r'.name q
          context).1.calls.getLast? = _
        rw [forward_calls, List.getLast?_concat, hname]
      · refine (accounts_deaf.forward ht address r'.name q context).trans ?_
        exact hk.accounts_note hn (.away address) ..

theorem localOnly_decides (r : Router) (op : Operation) (context : Context) :
    let found := r.localOnly op context
    if r.servesHere op then
      (∃ h, found.2 = .ok h) ∧ found.1.net.accounts = r.net.accounts
    else ∃ (d : Decision) (e : RouterError), d.Refuses op e ∧ found.2 = .error e ∧
      found.1.net.accounts =
        raised d (d.record r.name op context) r.net.accounts := by
  have hk := r.keeps_resolve op
  have hn := accounts_apart.resolve r op
  unfold localOnly servesHere
  generalize r.resolve op = resolved at hk hn ⊢
  obtain ⟨r', target⟩ := resolved
  cases target with
  | error e => exact ⟨.rejected e, e, rfl, rfl, hk.accounts_note hn (.rejected e) ..⟩
  | ok target =>
    cases target with
    | engine h => exact ⟨⟨h, rfl⟩, hn⟩
    | remote address =>
      exact ⟨.unsupported address, _, rfl, rfl, hk.accounts_note hn (.unsupported address) ..⟩

theorem userDefined_decides (r : Router) (u : Engine.UserLookup) (context : Context) :
    let done := answered (r.userDefined u context)
    if r.servesHere .userDefinedLookup then
      done.1.net.accounts = r.net.accounts
    else r.Decides .userDefinedLookup context done := by
  have h := r.localOnly_decides .userDefinedLookup context
  simp only [Router.userDefined]
  generalize r.localOnly .userDefinedLookup context = found at h ⊢
  by_cases hs : r.servesHere .userDefinedLookup = true
  · rw [if_pos hs] at h ⊢
    obtain ⟨⟨handle, hf⟩, hn⟩ := h
    rw [hf]
    exact (accounts_deaf.serve ..).trans hn
  · rw [if_neg hs] at h ⊢
    obtain ⟨d, e, hd, hf, hn⟩ := h
    rw [hf]
    exact ⟨d, hd.shown (error?_failed ..) r.name context, hn⟩

theorem comparators_decides (r : Router) :
    let done := r.perform .comparators
    if (r.drawn none).servesHere .comparators then
      done.1.net.accounts = r.net.accounts
    else r.Decides .comparators (.make r.net.contexts none) done := by
  have h := (r.drawn none).localOnly_decides .comparators (.make r.net.contexts none)
  simp only [Router.perform, Router.performWith]
  generalize hfound : (r.drawn none).localOnly .comparators (.make r.net.contexts none) = found at h
  rw [comparators_eq hfound]
  by_cases hs : (r.drawn none).servesHere .comparators = true
  · rw [if_pos hs] at h ⊢
    obtain ⟨⟨handle, hf⟩, hn⟩ := h
    rw [hf]
    exact hn
  · rw [if_neg hs] at h ⊢
    obtain ⟨d, e, hd, hf, hn⟩ := h
    rw [hf]
    exact ⟨d, hd.shown rfl r.name _, hn⟩

theorem insert_decides (r : Router) (group : Engine.InsertGroup) (context : Context) :
    let done := answered (r.insert group context)
    if r.stopped then done.1.net.accounts = r.net.accounts
    else r.Decides .insert context done := by
  have hk := r.keeps_ask
  have hn := accounts_apart.ask r
  unfold Router.insert
  dsimp only
  split
  · rfl
  · generalize r.ask = asked at hk hn ⊢
    cases asked.2.primary with
    | none => exact ⟨.rejected .noQuorum, error?_failed .., hk.accounts_note hn (.rejected .noQuorum) ..⟩
    | some primary =>
      have hnote := hk.accounts_note hn (.written group.size) .insert context
      have hlast : ∀ n : Router, (n.record (.persistence .insert group context)).calls.getLast? =
          some (.persistence .insert group context) := fun n => List.getLast?_concat
      dsimp only
      split
      · exact ⟨.written group.size, ⟨group, rfl, hlast _⟩, hnote⟩
      · exact ⟨.written group.size, ⟨group, rfl, hlast _⟩, hnote⟩

/-- A write to a router that was shut down is refused, though nothing is noted of it. -/
theorem insert_stopped (hs : r.stopped = true) (group : Engine.InsertGroup) (context : Context) :
    (answered (r.insert group context)).2.error? = some (.stopped r.name) := by
  unfold Router.insert
  rw [if_pos hs]
  exact error?_failed ..

theorem perform_stopped (hs : r.stopped = true) {a : RouterAction}
    {token : Option Result.TokenValue} (h : a.request? = some (.insert, token)) :
    (r.perform a).2.error? = some (.stopped r.name) := by
  cases a with
  | insert | singleInsert | singleDelete => exact (r.drawn _).insert_stopped hs _ _
  | read q => cases q <;> cases h
  | _ => cases h

/-- Either the decision on a call is noted, or the call is one of those that pass. -/
theorem Tidy.perform_decides (hr : r.Tidy) {a : RouterAction} {op : Operation}
    {token : Option Result.TokenValue} (h : a.request? = some (op, token)) :
    let done := r.perform a
    if r.passes op token then done.1.net.accounts = r.net.accounts
    else r.Decides op (.make r.net.contexts token) done := by
  cases a with
  | read q token =>
    cases h
    have hd := (hr.fresh token).tidy.read_decides q (.make r.net.contexts token)
    cases q <;> exact hd
  | userDefined u token =>
    cases h
    exact (r.drawn token).userDefined_decides u (.make r.net.contexts token)
  | comparators =>
    cases h
    exact r.comparators_decides
  | insert group token =>
    cases h
    exact (r.drawn token).insert_decides group (.make r.net.contexts token)
  | singleInsert index key value token =>
    cases h
    exact (r.drawn token).insert_decides (r.createGroup.insert index key value) _
  | singleDelete index key token =>
    cases h
    exact (r.drawn token).insert_decides (r.createGroup.delete index key) _
  | _ => cases h

theorem Tidy.perform_other (hr : r.Tidy) {a : RouterAction} (h : a.request? = none) :
    (r.perform a).1.net.accounts = r.net.accounts := by
  cases a with
  | forward address database q token =>
    exact accounts_deaf.forward (hr.fresh token).tidy address database q _
  | plan op => exact accounts_apart.ask r
  | resolve op => exact accounts_apart.resolve r op
  | role => exact accounts_apart.ask r
  | shutdown => exact accounts_apart.shutdown r
  | setPrimary address => exact accounts_apart.setPrimary r address
  | clearPrimary => exact accounts_apart.clearPrimary r
  | engineAnswers n reply => exact accounts_deaf.settleOwed hr ..
  | clientAnswers n reply => exact accounts_deaf.settleOwed hr ..
  | persistenceAnswers n reply => exact accounts_deaf.settleOwed hr ..
  | listen cell tag => exact accounts_deaf.registerOn hr cell (l := .script tag [] false) rfl
  | replace | interrupt | poll => rfl
  | _ => cases h

end Calls

/-! ### Whole runs -/

/-- The counters are the numbers of the events. -/
structure Balanced (seen : (Log.Event → UInt64) × List Log.Record) : Prop where
  counters : ∀ e ∈ Log.Event.decisions,
    seen.1 e = UInt64.ofNat (seen.2.countP (·.event = e.name))
  total : seen.1 .routeLocal + seen.1 .routeRemote + seen.1 .routeRejected + seen.1 .routeUnsupported +
    seen.1 .writeDispatched = UInt64.ofNat seen.2.length

section Runs
variable {seen : (Log.Event → UInt64) × List Log.Record}

theorem Balanced.raised (h : Balanced seen) (d : Decision) {x : Log.Record}
    (hx : x.event = d.event.name) : Balanced (raised d x seen) := by
  constructor
  · intro e he
    have hname : x.event = e.name ↔ e = d.event := by
      rw [hx]
      exact event_name_inj _ (event_mem d) e he
    show seen.1 e + _ = UInt64.ofNat ((seen.2 ++ [x]).countP _)
    rw [h.counters e he, List.countP_append, List.countP_singleton, UInt64.ofNat_add]
    simp only [decide_eq_true_eq, hname]
    split <;> rfl
  · simp only [Router.raised, List.length_append, UInt64.ofNat_add, ← h.total]
    cases d <;> simp [Decision.event] <;> grind

def passing (r : Router) : List RouterAction → Nat
  | [] => 0
  | a :: as =>
    let passes := a.request?.any fun called => r.passes called.1 called.2
    (if passes then 1 else 0) + (r.perform a).1.passing as

variable {r : Router}

theorem Tidy.perform_balanced (hr : r.Tidy) (hb : Balanced r.net.accounts)
    (a : RouterAction) :
    Balanced (r.perform a).1.net.accounts ∧
      (r.perform a).1.decisions.length + r.passing [a] =
        r.decisions.length + [a].countP (·.request?.isSome) := by
  have hlength : ∀ {r' : Router}, r'.net.accounts = r.net.accounts →
      r'.decisions.length = r.decisions.length :=
    fun h => congrArg (fun seen => seen.2.length) h
  cases h : a.request? with
  | none =>
    have hn := hr.perform_other h
    rw [hn, hlength hn]
    simp [passing, h, hb]
  | some called =>
    have hd := hr.perform_decides h
    by_cases hp : r.passes called.1 called.2 = true
    · have hn := (if_pos hp).mp hd
      rw [hn, hlength hn]
      simp [passing, h, hb, hp]
    · obtain ⟨d, -, hn⟩ := (if_neg hp).mp hd
      have hone : (r.perform a).1.decisions.length = (r.decisions ++ [_]).length :=
        congrArg (fun seen => seen.2.length) hn
      rw [hn, hone]
      refine ⟨hb.raised d rfl, ?_⟩
      simp [passing, h, hp]

theorem Tidy.run_balanced (hr : r.Tidy) (hb : Balanced r.net.accounts)
    (as : List RouterAction) :
    Balanced (r.run as).1.net.accounts ∧
      (r.run as).1.decisions.length + r.passing as =
        r.decisions.length + as.countP (·.request?.isSome) := by
  induction as generalizing r with
  | nil => exact ⟨hb, rfl⟩
  | cons a as ih =>
    obtain ⟨hb', hstep⟩ := hr.perform_balanced hb a
    have hr' : (r.perform a).1.Tidy := (hr.run [a]).1
    obtain ⟨hbalanced, hrun⟩ := ih hr' hb'
    refine ⟨hbalanced, ?_⟩
    show ((r.perform a).1.run as).1.decisions.length + _ = _
    simp only [passing, List.countP_cons, List.countP_nil] at hstep ⊢
    omega

theorem New.balanced (h : r.New) : Balanced r.net.accounts ∧ r.decisions = [] := by
  have hempty : Balanced (Network.accounts {}) := ⟨by decide, by decide⟩
  cases h with
  | make | withHandle => exact ⟨hempty, rfl⟩

end Runs

/-- After any run the counters are the numbers of the events that were logged, and together with the calls
that pass they are the number of calls. A call raises one counter, logs the one event that goes with it, and
what comes of it is what was decided; only a write after a shutdown, which is refused like any other call,
and a request that is served here but never forwarded pass without a note. Nothing but calls is noted as a
decision. -/
theorem run_accounts {r₀ : Router} (h₀ : r₀.New) (as : List RouterAction) :
    let r := (r₀.run as).1
    let calls := as.countP (·.request?.isSome)
    (∀ e ∈ Log.Event.decisions,
      r.net.metrics.decided e = UInt64.ofNat (r.decisions.countP (·.event = e.name))) ∧
    r.decisions.length + r₀.passing as = calls ∧
    r.net.metrics.decisions + UInt64.ofNat (r₀.passing as) = UInt64.ofNat calls ∧
    (∀ a op token, a.request? = some (op, token) →
      let context : Context := .make r.net.contexts token
      let done := r.perform a
      if r.passes op token then
        done.1.decisions = r.decisions ∧ done.1.net.metrics.decided = r.net.metrics.decided
      else ∃ d : Decision, d.Shown r.name op context done ∧
        done.1.decisions = r.decisions ++ [d.record r.name op context] ∧
        ∀ e, done.1.net.metrics.decided e =
          r.net.metrics.decided e + if e = d.event then 1 else 0) ∧
    (∀ a token, a.request? = some (.insert, token) → r.stopped = true →
      (r.perform a).2.error? = some (.stopped r.name)) ∧
    (∀ a, a.request? = none → (r.perform a).1.decisions = r.decisions ∧
      (r.perform a).1.net.metrics.decided = r.net.metrics.decided) := by
  intro r calls
  obtain ⟨hb₀, hnone⟩ := h₀.balanced
  obtain ⟨hb, hlength⟩ := h₀.tidy.run_balanced hb₀ as
  rw [hnone, List.length_nil, Nat.zero_add] at hlength
  have hr : r.Tidy := (h₀.tidy.run as).1
  refine ⟨hb.counters, hlength, ?_, ?_, fun a token h hs => perform_stopped hs h, ?_⟩
  · have hsum := congrArg UInt64.ofNat hlength
    rw [UInt64.ofNat_add] at hsum
    exact (congrArg (· + _) hb.total).trans hsum
  · intro a op token h context done
    have hd := hr.perform_decides h
    by_cases hp : r.passes op token = true
    · rw [if_pos hp]
      obtain ⟨hcounters, hevents⟩ := Prod.mk.inj ((if_pos hp).mp hd)
      exact ⟨hevents, hcounters⟩
    · rw [if_neg hp]
      obtain ⟨d, hshown, hn⟩ := (if_neg hp).mp hd
      obtain ⟨hcounters, hevents⟩ := Prod.mk.inj hn
      exact ⟨d, hshown, hevents, congrFun hcounters⟩
  · intro a h
    obtain ⟨hcounters, hevents⟩ := Prod.mk.inj (hr.perform_other h)
    exact ⟨hevents, hcounters⟩

/-- Five calls, of which the request of the caller's own making and the last write pass. -/
theorem run_accounts_shutdown :
    let here : SocketAddress := ⟨.v4 10 0 0 1, 1⟩
    let bench : Bench := { database := "accounts", catalog := some "accounts" }
    let r₀ := make "accounts" 1 .writesToPrimary (.shared ⟨here, some here⟩) bench.collaborators
    let q : Engine.Read := .lookup 1 []
    let as : List RouterAction := [.read q none, .userDefined ⟨[(1, [])]⟩ none, .insert ⟨1, []⟩ none,
      .shutdown, .read q none, .singleInsert 1 [] [] none]
    let r := (r₀.run as).1
    r.decisions.map (·.event) = ["ROUTE_LOCAL", "WRITE_DISPATCHED", "ROUTE_REJECTED"] ∧
      r.net.metrics.rejected = 1 ∧ r₀.passing as = 2 ∧
      r.net.metrics.decisions + 2 = 5 ∧
      (r.perform (.singleDelete 1 [] none)).2.error? = some (.stopped "accounts") := by
  intro here bench r₀ q as
  have h₀ : r₀.New := .make ..
  obtain ⟨hcounters, -, hsum, -, hstopped, -⟩ := run_accounts h₀ as
  have hevents : (r₀.run as).1.decisions.map (·.event) =
      ["ROUTE_LOCAL", "WRITE_DISPATCHED", "ROUTE_REJECTED"] := by decide +kernel
  have hone : (r₀.run as).1.decisions.countP (·.event = Log.Event.routeRejected.name) = 1 := by
    decide +kernel
  have hpassing : r₀.passing as = 2 := by decide +kernel
  have hs : (r₀.run as).1.stopped = true := by decide +kernel
  have hname : (r₀.run as).1.name = "accounts" := by decide +kernel
  generalize (r₀.run as).1 = r at *
  have hrejected := hcounters .routeRejected (by decide)
  rw [hone] at hrejected
  rw [hpassing] at hsum
  have hrefused := hstopped (.singleDelete 1 [] none) none rfl hs
  rw [hname] at hrefused
  exact ⟨hevents, hrejected, hpassing, hsum, hrefused⟩

/-- A read and a write after a shutdown: both are refused, one is counted and logged. -/
theorem stopped_write_unnoted :
    let here : SocketAddress := ⟨.v4 10 0 0 1, 1⟩
    let bench : Bench := { database := "accounts", catalog := some "accounts" }
    let r₀ := withHandle ⟨"accounts", 0⟩ 0 .primaryOnly (.shared ⟨here, some here⟩) bench.collaborators
    let as : List RouterAction := [.shutdown, .read (.lookup 0 []) none, .singleInsert 0 [] [] none]
    let done := r₀.run as
    done.2.map (·.error?) = [none, some (.stopped "accounts"), some (.stopped "accounts")] ∧
      done.1.decisions.length = 1 ∧ done.1.net.metrics.decisions = 1 ∧
      as.countP (·.request?.isSome) = 2 := by
  decide +kernel

end Router
end ReplicaRouting
