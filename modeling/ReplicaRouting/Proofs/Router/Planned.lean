import ReplicaRouting.Cli.Report
import ReplicaRouting.Proofs.Config.Reload
import ReplicaRouting.Proofs.Router.Attachment
/-!
The routing table that is printed for a configuration, the plan of a router made from it and what becomes of
the calls. The three are worked out apart from each other and come to the same.
-/

namespace ReplicaRouting

open Net (SocketAddress)
open Result (Context Outcome)

namespace Json.Value

def member? (name : String) : Json.Value → Option Json.Value
  | .object members => members.lookup name
  | _ => none

def text? : Json.Value → Option String
  | .string s => some s
  | _ => none

def items : Json.Value → List Json.Value
  | .array xs => xs
  | _ => []

end Json.Value

namespace Cli

def printedRoute (table : Json.Value) (op : Operation) : Option String := do
  let rows ← table.member? "routes"
  let row ← rows.items.find? fun row => (row.member? "operation").bind (·.text?) == some op.name
  (← row.member? "route").text?

def printedRole (table : Json.Value) : Option String := (table.member? "role").bind (·.text?)

end Cli

/-- The route says what becomes of a call: which calls of the collaborators it makes, and the error with
which it fails at once. -/
structure Router.Describes (r : Router) (route : String) (new : List Call) (e : Option RouterError) :
    Prop where
  unavailable : route = "rejected (replication unavailable)" ↔
    new = [] ∧ ∃ x, e = some x ∧ x.code = .replicationUnavailable
  unsupported : route = "rejected (unsupported in routed mode)" ↔
    new = [] ∧ ∃ x, e = some x ∧ x.code = .unsupportedOperation
  written : route = "write path (persistence manager)" ↔
    ∃ group context, .persistence .insert group context ∈ new
  remote : ∀ text, route = "remote " ++ text ↔
    ∃ address database q, new = [.client address database q] ∧ address.text = text
  here : route = "local" ↔ ∃ h c, r.handle = some h ∧ c.servedBy? = some h ∧ new = [c]
  attached : route = "local (attach on first use)" ↔ new.head? = some (.catalog r.name)

/-- What may become of a call under its route. -/
inductive Router.Fate (r : Router) : String → List Call → Option RouterError → Prop
  | unavailable (x : RouterError) (hx : x.code = .replicationUnavailable) :
      Fate r "rejected (replication unavailable)" [] (some x)
  | unsupported (x : RouterError) (hx : x.code = .unsupportedOperation) :
      Fate r "rejected (unsupported in routed mode)" [] (some x)
  | written (group : Engine.InsertGroup) (context : Context) (e : Option RouterError) :
      Fate r "write path (persistence manager)" [.persistence .insert group context] e
  | remote (address : SocketAddress) (database : String) (q : Engine.Read) (e : Option RouterError) :
      Fate r ("remote " ++ address.text) [.client address database q] e
  | here (h : Handle) (c : Call) (e : Option RouterError) (hh : r.handle = some h)
      (hc : c.servedBy? = some h) : Fate r "local" [c] e
  | attached (cs : List Call) (e : Option RouterError) (hcs : ∀ c ∈ cs, ∃ h, c.servedBy? = some h) :
      Fate r "local (attach on first use)" (.catalog r.name :: cs) e

namespace Router
variable {r : Router}

theorem remote_ne (address : String) {route : String} (h : route.toList.take 7 ≠ "remote ".toList) :
    "remote " ++ address ≠ route := by
  rintro rfl
  apply h
  rw [String.toList_append]
  exact List.take_left' rfl

theorem Fate.describes {route : String} {new : List Call} {e : Option RouterError}
    (h : r.Fate route new e) : r.Describes route new e := by
  have hunavailable : ∀ a, "remote " ++ a ≠ "rejected (replication unavailable)" :=
    fun a => remote_ne a (by decide)
  have hunsupported : ∀ a, "remote " ++ a ≠ "rejected (unsupported in routed mode)" :=
    fun a => remote_ne a (by decide)
  have hwritten : ∀ a, "remote " ++ a ≠ "write path (persistence manager)" :=
    fun a => remote_ne a (by decide)
  have hhere : ∀ a, "remote " ++ a ≠ "local" := fun a => remote_ne a (by decide)
  have hattached : ∀ a, "remote " ++ a ≠ "local (attach on first use)" :=
    fun a => remote_ne a (by decide)
  cases h with
  | unavailable x hx =>
    constructor <;> simp [hx, (hunavailable _).symm]
  | unsupported x hx =>
    constructor <;> simp [hx, (hunsupported _).symm]
  | written group context =>
    constructor <;> simp [(hwritten _).symm, Call.servedBy?]
  | remote address database q =>
    constructor <;> simp [hunavailable, hunsupported, hwritten, hhere, hattached, Call.servedBy?]
  | here h c e hh hc =>
    cases c with
    | engine | comparators =>
      cases hc
      constructor <;> simp [(hhere _).symm, hh, Call.servedBy?]
    | _ => cases hc
  | attached cs e hcs =>
    -- the calls after that of the catalog are served by its handle
    have hwrite : ∀ group context, .persistence .insert group context ∉ cs := by
      intro group context hc
      obtain ⟨h, hh⟩ := hcs _ hc
      cases hh
    constructor
    · simp
    · simp
    · simpa using hwrite
    · simp [(hattached _).symm]
    · have hroute : "local (attach on first use)" ≠ "local" := by decide
      refine iff_of_false hroute ?_
      rintro ⟨h, c, -, hc, heq⟩
      obtain ⟨rfl, -⟩ := List.cons.inj heq
      cases hc
    · simp

/-! ### What becomes of a call -/

theorem choose_available {s : Snapshot} {p : SocketAddress} (h : s.primary = some p) (policy : Policy)
    (access : Access) (attached : Bool) : Plan.choose s policy access attached ≠ .unavailable := by
  have hremote : Plan.remote p ≠ .unavailable := by rintro ⟨⟩
  rw [Plan.choose, h]
  dsimp only
  split
  · exact hremote
  · split
    · rintro ⟨⟩
    · split
      · rintro ⟨⟩
      · exact hremote

theorem route_insert {plan : Plan} (h : plan ≠ .unavailable) :
    plan.route .insert = "write path (persistence manager)" := by
  cases plan with
  | unavailable => exact absurd rfl h
  | _ => rfl

theorem route_here {op : Operation} (ho : op ≠ .insert) {plan : Plan}
    (h : plan = .localHandle ∨ plan = .attachFirst) : plan.route op = plan.text := by
  rcases h with rfl | rfl <;> exact if_neg ho

theorem callAt_engine {a : RouterAction} {op : Operation} {token : Option Result.TokenValue}
    (ha : a.request? = some (op, token)) (ho : op ≠ .insert) (database : String) (context : Context)
    (h : Handle) : ∃ c, a.callAt database context (.engine h) = some c ∧ c.servedBy? = some h := by
  cases a with
  | read | userDefined | comparators => exact ⟨_, rfl, rfl⟩
  | insert | singleInsert | singleDelete =>
    cases ha
    exact absurd rfl ho
  | _ => cases ha

section Fate
variable {a : RouterAction} {op : Operation} {token : Option Result.TokenValue}
  (hs : r.stopped = false) (hi : r.interruption = none) (ha : a.request? = some (op, token))
include hs hi ha

theorem fate_unavailable (hp : r.oracle.primary = none) :
    r.Fate (Plan.unavailable.route op) (r.newCalls a) (r.perform a).2.error? := by
  have he : r.refusal? = some .noQuorum := by rw [refusal?, hs, hp]; rfl
  obtain ⟨hb, hfails⟩ := perform_refused ha he
  have hidle : (r.stopped || r.interruption.isNone) = true := by rw [hs, hi]; rfl
  have hcalls : (r.perform a).1.calls = r.calls := by
    have hq : (r.drawn token).queried = r.drawn token := queried_eq_self hidle
    rw [hq] at hb
    exact congrArg Bearings.calls hb
  rw [newCalls_eq (hcalls.trans (List.append_nil _).symm), hfails.error?]
  exact .unavailable _ rfl

theorem fate_write {p : SocketAddress} (hp : r.oracle.primary = some p) (ho : op = .insert) {plan : Plan}
    (hplan : plan ≠ .unavailable) :
    r.Fate (plan.route op) (r.newCalls a) (r.perform a).2.error? := by
  subst ho
  obtain ⟨group, -, hd⟩ := r.perform_write ha
  have he : (r.drawn token).refusal? = none := by
    rw [refusal?_drawn, refusal?, hs, hp]
    rfl
  have hidle : ((r.drawn token).stopped || (r.drawn token).interruption.isNone) = true := by
    show (r.stopped || r.interruption.isNone) = true
    rw [hs, hi]
    rfl
  have hb := (r.drawn token).bearings_insert group (.make r.net.contexts token)
  rw [he, queried_eq_self hidle] at hb
  have hcalls : (r.perform a).1.calls =
      r.calls ++ [.persistence .insert group (.make r.net.contexts token)] := by
    rw [hd]
    exact congrArg Bearings.calls hb
  rw [newCalls_eq hcalls, route_insert hplan]
  exact .written ..

theorem fate_here {p : SocketAddress} (hp : r.oracle.primary = some p) (ho : op ≠ .insert)
    (haccess : op.access = .read) (hserves : r.ServesReads p) :
    r.Fate ((if r.handle.isSome then Plan.localHandle else .attachFirst).route op) (r.newCalls a)
      (r.perform a).2.error? := by
  have hrun : (r.drawn token).Running := ⟨hs, by show r.interruption ≠ _; rw [hi]; nofun⟩
  obtain ⟨htarget, sought, ⟨-, -, hsought⟩, hcalls⟩ :=
    resolve_serves (r := r.drawn token) hrun hp haccess hserves
  have hdone := congrArg Bearings.calls (r.bearings_lookup ha ho)
  rw [htarget] at hdone
  obtain rfl : sought = if r.handle.isNone then [.catalog r.name] else [] := hsought hi
  have hnew := newCalls_eq (hdone.trans ((congrArg (· ++ _) hcalls).trans (List.append_assoc ..)))
  rw [hnew, show (r.drawn token).localHandle = r.localHandle from rfl, localHandle]
  have hserved := callAt_engine ha ho r.name (.make r.net.contexts token)
  cases hh : r.handle with
  | some h =>
    obtain ⟨c, hc, hserved⟩ := hserved h
    rw [Option.isSome_some, if_pos rfl, route_here ho (.inl rfl)]
    show r.Fate "local" ((a.callAt r.name (.make r.net.contexts token) (.engine h)).toList) _
    rw [hc]
    exact .here h c _ hh hserved
  | none =>
    rw [Option.isSome_none, if_neg Bool.false_ne_true, route_here ho (.inr rfl)]
    cases r.collaborators.catalog r.name with
    | error e => exact .attached [] _ (List.forall_mem_nil _)
    | ok h =>
      obtain ⟨c, hc, hserved⟩ := hserved h
      show r.Fate _ (.catalog r.name :: (a.callAt r.name (.make r.net.contexts token) (.engine h)).toList) _
      rw [hc]
      exact .attached [c] _ fun x hx => ⟨h, List.mem_singleton.mp hx ▸ hserved⟩

theorem fate_remote {p : SocketAddress} (hp : r.oracle.primary = some p) (ho : op ≠ .insert)
    (haccess : op.access = .read) (hserves : ¬ r.ServesReads p) :
    r.Fate ((Plan.remote p).route op) (r.newCalls a) (r.perform a).2.error? := by
  have hrun : (r.drawn token).Running := ⟨hs, by show r.interruption ≠ _; rw [hi]; nofun⟩
  obtain ⟨htarget, sought, ⟨-, -, hsought⟩, hcalls⟩ :=
    resolve_remote (r := r.drawn token) hrun hp haccess hserves
  have hdone := congrArg Bearings.calls (r.bearings_lookup ha ho)
  rw [htarget] at hdone
  obtain rfl : sought = [] := hsought hi
  have hnew := newCalls_eq (hdone.trans ((congrArg (· ++ _) hcalls).trans (List.append_assoc ..)))
  rw [hnew]
  -- only the five reads can be sent to another node
  cases hforwardable : op.isForwardable with
  | true =>
    obtain ⟨q, rfl⟩ : ∃ q, a = .read q token := by
      cases a with
      | read q token' =>
        cases ha
        exact ⟨q, rfl⟩
      | userDefined | comparators =>
        cases ha
        cases hforwardable
      | insert | singleInsert | singleDelete =>
        cases ha
        exact absurd rfl ho
      | _ => cases ha
    have hroute : (Plan.remote p).route op = "remote " ++ p.text := by
      rw [Plan.route, if_neg ho, if_pos hforwardable]
      rfl
    rw [hroute]
    exact .remote p r.name q _
  | false =>
    have hroute : (Plan.remote p).route op = "rejected (unsupported in routed mode)" := by
      rw [Plan.route, if_neg ho, if_neg (by rw [hforwardable]; exact Bool.false_ne_true)]
    have hfails := r.lookup_fails ha ho (.inr ⟨hforwardable, by rw [htarget]; rfl⟩)
    have hnone : a.callAt r.name (.make r.net.contexts token) (.remote p) = none := by
      cases a with
      | read q =>
        cases ha
        cases q <;> cases hforwardable
      | _ => rfl
    rw [hroute, hfails.error?]
    show r.Fate _ (a.callAt r.name (.make r.net.contexts token) (.remote p)).toList _
    rw [hnone]
    exact .unsupported _ rfl

/-- A call goes as its route says. -/
theorem fate : r.Fate ((Plan.choose r.oracle.snapshot r.policy op.access r.handle.isSome).route op)
    (r.newCalls a) (r.perform a).2.error? := by
  cases hp : r.oracle.primary with
  | none =>
    rw [choose_unavailable hp]
    exact fate_unavailable hs hi ha hp
  | some p =>
    by_cases ho : op = .insert
    · have hplan := choose_available (s := r.oracle.snapshot) hp r.policy op.access r.handle.isSome
      exact fate_write hs hi ha hp ho hplan
    · have haccess : op.access = .read := by
        cases op with
        | insert => exact absurd rfl ho
        | _ => rfl
      rw [haccess]
      by_cases hserves : r.ServesReads p
      · rw [choose_serves hp hserves]
        exact fate_here hs hi ha hp ho haccess hserves
      · rw [choose_remote hp hserves]
        exact fate_remote hs hi ha hp ho haccess hserves

end Fate

/-! ### The table that is printed -/

theorem perform_plan (hi : r.interruption = none) (op : Operation) : (r.perform (.plan op)).2 =
    .plan (.choose r.oracle.snapshot r.policy op.access r.handle.isSome) := by
  show RouterAnswer.plan (.choose r.ask.1.oracle.snapshot r.ask.1.policy op.access r.ask.1.handle.isSome) = _
  rw [ask_eq_self hi]

theorem perform_role (hi : r.interruption = none) : (r.perform .role).2 = .role r.oracle.snapshot := by
  show RouterAnswer.role r.ask.1.oracle.snapshot = _
  rw [ask_eq_self hi]

theorem changes_shared {s : Setup} {address : SocketAddress}
    (h : ∃ primary, s.oracle = .shared ⟨address, primary⟩) (a : RouterAction) :
    (∃ primary, (a.changes s).oracle = .shared ⟨address, primary⟩) ∧ (a.changes s).policy = s.policy := by
  obtain ⟨primary, h⟩ := h
  cases a with
  | setPrimary p =>
    simp only [RouterAction.changes, h, Oracle.setPrimary, RoleState.setPrimary]
    split <;> exact ⟨⟨_, rfl⟩, trivial⟩
  | clearPrimary =>
    simp only [RouterAction.changes, h, Oracle.clearPrimary, RoleState.clearPrimary]
    cases primary <;> exact ⟨⟨_, rfl⟩, trivial⟩
  | _ => exact ⟨⟨primary, h⟩, rfl⟩

theorem run_shared {address : SocketAddress} (h : ∃ primary, r.oracle = .shared ⟨address, primary⟩)
    (as : List RouterAction) :
    (∃ primary, (r.run as).1.oracle = .shared ⟨address, primary⟩) ∧ (r.run as).1.policy = r.policy := by
  induction as generalizing r with
  | nil => exact ⟨h, rfl⟩
  | cons a as ih =>
    have hstep : (r.perform a).1.setup = a.changes r.setup := r.setup_perform a
    obtain ⟨hshared, hpolicy⟩ := changes_shared (s := r.setup) h a
    rw [← hstep] at hshared hpolicy
    obtain ⟨hshared, hkept⟩ := ih (r := (r.perform a).1) hshared
    exact ⟨hshared, hkept.trans hpolicy⟩

theorem snapshot_shared (address : SocketAddress) (primary : Option SocketAddress) :
    (Oracle.shared ⟨address, primary⟩).snapshot = ⟨primary, primary = some address⟩ := by
  cases primary with
  | none => rfl
  | some p => simp [Oracle.snapshot, Oracle.primary, Oracle.isSelf, RoleState.isSelf]

end Router

namespace Cli

theorem printedRole_toJson (t : RoutingTable) : printedRole t.toJson = some t.snapshot.role.name := by
  rfl

theorem printedRoute_toJson (t : RoutingTable) (route : Operation → String)
    (h : t.routes = Operation.all.map fun op => (op, route op)) (op : Operation) :
    printedRoute t.toJson op = some (route op) := by
  rw [RoutingTable.toJson, h]
  cases op <;> rfl

theorem ofConfig_prints {c : Config} {policy : Policy} {address : SocketAddress}
    (hp : c.resolvedPolicy = .ok policy) (ha : c.address = .ok address) (primary : Option SocketAddress)
    (attached : Bool) :
    let snapshot : Snapshot := ⟨primary, primary = some address⟩
    ∃ table, RoutingTable.ofConfig c primary attached = .ok table ∧
      printedRole table.toJson = some snapshot.role.name ∧
      ∀ op, printedRoute table.toJson op =
        some ((Plan.choose snapshot policy op.access attached).route op) := by
  intro snapshot
  let route (op : Operation) : String := (Plan.choose snapshot policy op.access attached).route op
  refine ⟨⟨c.database, policy, snapshot, Operation.all.map fun op => (op, route op)⟩, ?_, ?_, ?_⟩
  · rw [RoutingTable.ofConfig, hp, ha]
    rfl
  · exact printedRole_toJson _
  · exact printedRoute_toJson _ route rfl

end Cli

namespace Router

/-- For every valid configuration the router is made, and after any run, while it is not shut down, the table
that is printed for the present primary and attachment has the role of the router's snapshot and for each
operation the route of the router's plan. Each call goes as its route says. -/
theorem run_goes_as_printed {c : Config} (hc : c.validate = .ok ()) :
    ∃ policy address, c.resolvedPolicy = .ok policy ∧ c.address = .ok address ∧
      ∀ primary collaborators,
        let oracle : Oracle := .shared ⟨address, primary⟩
        ofConfig c oracle collaborators = .ok (make c.database c.databaseId policy oracle collaborators) ∧
        ∀ r₀, (r₀ = make c.database c.databaseId policy oracle collaborators ∨
            ∃ serial, r₀ = withHandle ⟨c.database, serial⟩ c.databaseId policy oracle collaborators) →
          ∀ before, let r := (r₀.run before).1
            r.stopped = false → r.interruption = none →
            ∃ table, Cli.RoutingTable.ofConfig c r.oracle.primary r.handle.isSome = .ok table ∧
              (∃ s, (r.perform .role).2 = .role s ∧ Cli.printedRole table.toJson = some s.role.name) ∧
              ∀ op, ∃ plan, (r.perform (.plan op)).2 = .plan plan ∧
                Cli.printedRoute table.toJson op = some (plan.route op) ∧
                ∀ a token, a.request? = some (op, token) →
                  r.Describes (plan.route op) (r.newCalls a) (r.perform a).2.error? := by
  obtain ⟨policy, address, hpolicy, haddress⟩ := c.of_valid hc
  refine ⟨policy, address, hpolicy, haddress, fun primary collaborators => ⟨?_, ?_⟩⟩
  · rw [ofConfig, hc, hpolicy]
    rfl
  · intro r₀ h₀ before r hs hi
    have hmade : (∃ primary, r₀.oracle = .shared ⟨address, primary⟩) ∧ r₀.policy = policy := by
      rcases h₀ with rfl | ⟨serial, rfl⟩ <;> exact ⟨⟨primary, rfl⟩, rfl⟩
    obtain ⟨⟨announced, horacle⟩, hkept⟩ := run_shared hmade.1 before
    have hr : r.policy = policy := hkept.trans hmade.2
    have hprimary : r.oracle.primary = announced := by rw [horacle]; rfl
    have hsnapshot : r.oracle.snapshot = ⟨announced, announced = some address⟩ := by
      rw [horacle, snapshot_shared]
    obtain ⟨table, htable, hrole, hroutes⟩ :=
      Cli.ofConfig_prints hpolicy haddress announced r.handle.isSome
    rw [hprimary]
    refine ⟨table, htable, ⟨_, perform_role hi, ?_⟩, fun op => ⟨_, perform_plan hi op, ?_, ?_⟩⟩
    · rw [hsnapshot]
      exact hrole
    · rw [hsnapshot, hr]
      exact hroutes op
    · exact fun a token ha => (fate hs hi ha).describes

/-- A read that goes to the primary, as the table says. -/
theorem run_goes_as_printed_remote :
    let c : Config := { database := "accounts", localAddress := "10.0.0.1:32222" }
    let there : SocketAddress := ⟨.v4 10 0 0 2, 32222⟩
    let bench : Bench := { database := "accounts", catalog := some "accounts" }
    let read : RouterAction := .read (.lookup 0 []) none
    c.validate = .ok () ∧
      ∃ r table, ofConfig c (.shared ⟨⟨.v4 10 0 0 1, 32222⟩, some there⟩) bench.collaborators = .ok r ∧
        Cli.RoutingTable.ofConfig c (some there) false = .ok table ∧
        Cli.printedRoute table.toJson .lookup = some "remote 10.0.0.2:32222" ∧
        ∃ address database q, r.newCalls read = [.client address database q] ∧
          address.text = "10.0.0.2:32222" := by
  intro c there bench read
  obtain ⟨hc, hhere⟩ := Config.valid_of (c := c) (by decide) (by decide) rfl
    ⟨.v4 10 0 0 1, 32222⟩ (by decide +kernel)
  have htext : there.text = "10.0.0.2:32222" := by decide +kernel
  obtain ⟨policy, address, hpolicy, haddress, h⟩ := run_goes_as_printed hc
  obtain rfl : Policy.primaryOnly = policy := Except.ok.inj hpolicy
  obtain rfl := Except.ok.inj (hhere.symm.trans haddress)
  obtain ⟨hmade, h⟩ := h (some there) bench.collaborators
  obtain ⟨table, htable, -, hroutes⟩ := h _ (.inl rfl) [] rfl rfl
  obtain ⟨plan, hplan, hprinted, hdescribes⟩ := hroutes .lookup
  have hroute : plan.route .lookup = "remote " ++ there.text := by
    obtain rfl : Plan.remote there = plan := RouterAnswer.plan.inj hplan
    rfl
  have hread := ((hdescribes read none rfl).remote _).mp hroute
  rw [hroute, htext] at hprinted
  rw [htext] at hread
  exact ⟨hc, _, table, hmade, htable, hprinted, hread⟩

/-- An engine may fail with the error of a missing quorum, and the caller is told. -/
theorem served_unavailable :
    let c : Config := { database := "accounts", localAddress := "10.0.0.1:32222" }
    let here : SocketAddress := ⟨.v4 10 0 0 1, 32222⟩
    let bench : Bench := { database := "accounts", catalog := some "accounts",
                           broken := some ⟨.replicationUnavailable, "no majority"⟩ }
    let r := withHandle ⟨"accounts", 0⟩ c.databaseId .primaryOnly (.shared ⟨here, some here⟩)
      bench.collaborators
    let e := (r.perform (.read (.lookup 0 []) none)).2.error?
    c.validate = .ok () ∧ c.resolvedPolicy = .ok .primaryOnly ∧ c.address = .ok here ∧
      ∃ table, Cli.RoutingTable.ofConfig c (some here) true = .ok table ∧
        ¬ (Cli.printedRoute table.toJson .lookup = some "rejected (replication unavailable)" ↔
          e.map (·.code) = some .replicationUnavailable) := by
  intro c here bench r e
  have hpolicy : c.resolvedPolicy = .ok .primaryOnly := rfl
  obtain ⟨hc, haddress⟩ := Config.valid_of (c := c) (by decide) (by decide) hpolicy here
    (by decide +kernel)
  have he : e.map (·.code) = some .replicationUnavailable := by decide +kernel
  obtain ⟨table, htable, -, hroutes⟩ := Cli.ofConfig_prints hpolicy haddress (some here) true
  have hlocal : Cli.printedRoute table.toJson .lookup = some "local" := hroutes .lookup
  refine ⟨hc, hpolicy, haddress, table, htable, fun h => ?_⟩
  have hprinted := h.mpr he
  rw [hlocal] at hprinted
  revert hprinted
  decide

end Router
end ReplicaRouting
