import ReplicaRouting.Proofs.Result.Forwarded
import ReplicaRouting.Proofs.Router.Notes
import ReplicaRouting.Proofs.Router.Routing
/-!
The reads that a router sends. A read that goes to another node gets a response, a result and a recorder; what
is on record of the reads stays in order whatever else is asked of the router.
-/

namespace ReplicaRouting

open Net (SocketAddress)
open Result (Context Outcome Listener Network Machine Ledger Forwarded Heard)
open Result.Ledger (Attended)

def Call.client? : Call → Option (SocketAddress × String)
  | .client address database _ => some (address, database)
  | _ => none

def Result.Forwarded.call (s : Forwarded) : SocketAddress × String := (s.read.primary, s.read.database)

structure Result.Forwarded.Placed (n : Network Engine.Reply) (s : Forwarded) : Prop where
  result : ∃ context, n.contextAt s.result = some context ∧ context.id = s.read.request
  response : ∃ o?, n.cells[s.response]? = some ⟨none, o?⟩

theorem Result.Forwarded.Placed.later {n n' : Network Engine.Reply} {s : Forwarded} (h : s.Placed n)
    (hx : n.Extends n') : s.Placed n' := by
  obtain ⟨⟨context, hc, hid⟩, o?, hresponse⟩ := h
  obtain ⟨o?', hresponse', -⟩ := hx.kept _ _ _ hresponse
  exact ⟨⟨context, hx.contextAt hc, hid⟩, o?', hresponse'⟩

namespace Router

def asked (r : Router) : List (SocketAddress × String) := r.calls.filterMap (·.client?)

def owed (r : Router) : List Nat := r.owedByEngine ++ r.owedElsewhere

/-- A read that is sent now: its response and its result are the next cells. -/
def sending (r : Router) (address : SocketAddress) (database : String) : Forwarded :=
  ⟨⟨database, address, (Context.make r.net.contexts none).id⟩, r.net.cells.length, r.net.cells.length + 1⟩

def forwards (r : Router) : RouterAction → Option Forwarded
  | .forward address database _ _ => some (r.sending address database)
  | .read q token =>
    match ((r.drawn token).resolve q.operation).2 with
    | .ok (.remote address) => some (r.sending address r.name)
    | _ => none
  | _ => none

def forwardedIn (r : Router) : List RouterAction → List Forwarded
  | [] => []
  | a :: as => (r.forwards a).toList ++ (r.perform a).1.forwardedIn as

/-- The network of a router with work that is left to do: the record is in order, and the router has the
completers of all cells that it owes and that are pending. -/
def Ready (r : Router) (sent : List Forwarded) (n : Network Engine.Reply)
    (frames : List (Result.Frame Engine.Reply)) : Prop :=
  ∃ held, Attended held sent ⟨n, Result.dueOn frames⟩ ∧ ∀ k ∈ r.owed, n.outcomeAt k = none → k ∈ held

/-- What a router minds of the reads that it has sent. -/
structure Minds (sent : List Forwarded) (r : Router) : Prop where
  tidy : r.Tidy
  kept : r.Ready sent r.net []
  placed : ∀ s ∈ sent, s.Placed r.net

/-! ### What a router does not mind -/

def minded (r : Router) :=
  (r.books, r.net.registrations, r.net.waits, r.net.metrics.failures, r.net.account)

theorem minded_log (r : Router) {e : Log.Event} (he : e ≠ .remoteFailed)
    (fields : List (String × String)) : (r.log (.of e fields)).minded = r.minded := by
  have h : (r.log (.of e fields)).net.account = r.net.account := r.net.account_log he fields
  rw [minded, minded, h]
  rfl

theorem minded_apart : Apart minded := by
  refine ⟨fun _ _ => rfl, fun _ _ => rfl, fun _ _ => rfl, fun _ _ => rfl, fun _ _ _ => rfl,
    fun _ => rfl, fun r e fields he => r.minded_log ?_ fields⟩
  revert e
  decide

theorem asked_record (r : Router) (c : Call) : (r.record c).asked = r.asked ++ c.client?.toList := by
  show (r.calls ++ [c]).filterMap Call.client? = _
  rw [List.filterMap_append]
  cases c <;> rfl

theorem asked_apart : Apart asked := apart_calls (fun _ => rfl) fun _ => rfl

theorem minded_note (r : Router) (d : Decision) (op : Operation) (context : Context) :
    (r.note d op context).minded = r.minded := by
  have hcount : (r.count d.count).minded = r.minded := by cases d <;> rfl
  refine (minded_log _ ?_ _).trans hcount
  cases d <;> simp [Decision.event]

section Minds
variable {r r' : Router} {sent : List Forwarded}

theorem Minds.held (h : r.Minds sent) : ∃ held, Attended held sent ⟨r.net, []⟩ ∧
    ∀ k ∈ r.owed, r.net.outcomeAt k = none → k ∈ held :=
  h.kept

theorem Minds.same (h : r.Minds sent) (hs : r'.minded = r.minded) : r'.Minds sent := by
  simp only [minded, Prod.mk.injEq] at hs
  obtain ⟨hbooks, hregistrations, hwaits, hmetrics, haccount⟩ := hs
  obtain ⟨hcells, hwaiting, hengine, hclient, hpersistence⟩ := Books.mk.inj hbooks
  have hstill : r.net.Still r'.net := by
    refine ⟨hcells, hwaiting, hregistrations, ?_, ?_⟩
    · rw [Network.trace_account, haccount, ← Network.trace_account]
    · rw [hwaits]
      exact fun _ _ hf => hf
  obtain ⟨held, ha, ho⟩ := h.held
  have howed : r'.owed = r.owed := by
    rw [owed, owed, owedElsewhere, owedElsewhere, hengine, hclient, hpersistence]
  refine ⟨(h.tidy.of_books hbooks).tidy, ⟨held, ha.still hstill hmetrics haccount, ?_⟩, ?_⟩
  · rw [howed]
    simp only [Network.outcomeAt, hcells]
    exact ho
  · exact fun s hs => (h.placed s hs).later (.of_cells hcells)

/-! ### Cells that are made -/

theorem owed_lt (hr : r.Tidy) {k : Nat} (hk : k ∈ r.owed) : k < r.net.cells.length := by
  rcases List.mem_append.mp hk with hk | hk
  · exact hr.engine k hk
  · exact (hr.elsewhere k hk).1

theorem Minds.made (h : r.Minds sent) (hl : r.Leads r') {c : Result.Cell Engine.Reply}
    (hn : r'.net = (r.net.addCell c).1)
    (ho : ∀ k ∈ r'.owed, k ∈ r.owed ∨ k = r.net.cells.length) : r'.Minds sent := by
  obtain ⟨held, ha, howed⟩ := h.held
  obtain ⟨context, o?⟩ := c
  have hout : ∀ k, k < r.net.cells.length → r'.net.outcomeAt k = r.net.outcomeAt k := by
    intro k hk
    rw [hn, Network.outcomeAt, Network.outcomeAt]
    exact congrArg (·.bind (·.outcome)) (List.getElem?_append_left hk)
  have hnew : r'.net.outcomeAt r.net.cells.length = o? := by
    rw [hn, Network.outcomeAt_addCell]
  refine ⟨hl.tidy, ?_, fun s hs => (h.placed s hs).later hl.extended⟩
  cases o? with
  | some o =>
    refine ⟨held, hn ▸ ha.addSettled context o, fun k hk hp => ?_⟩
    rcases ho k hk with hk | rfl
    · exact howed k hk (hout k (owed_lt h.tidy hk) ▸ hp)
    · rw [hnew] at hp
      cases hp
  | none =>
    refine ⟨_, hn ▸ ha.addPending context, fun k hk hp => ?_⟩
    rcases ho k hk with hk | rfl
    · exact List.mem_cons_of_mem _ (howed k hk (hout k (owed_lt h.tidy hk) ▸ hp))
    · exact List.mem_cons_self ..

theorem Minds.result (h : r.Minds sent) (context : Context) (o : Option (Outcome Engine.Reply)) :
    (r.result context o).1.Minds sent :=
  h.made (h.tidy.result context o) rfl fun _ hk => .inl hk

/-! ### Deliveries -/

theorem Ready.deliver {n : Network Engine.Reply} {frames : List (Result.Frame Engine.Reply)}
    (h : r.Ready sent n frames) (hm : Machine.Idle ⟨n, frames, .nothing⟩) :
    r.Ready sent (n.deliver frames) [] := by
  obtain ⟨held, ha, ho⟩ := h
  have hx : n.Extends (n.deliver frames) := (Machine.run_calm _ hm).extended
  exact ⟨held, ha.deliver hm, fun k hk hp => ho k hk (hx.pending hp)⟩

theorem Minds.settle (h : r.Minds sent) {k : Nat} (hk : k ∈ r.owed) (o : Outcome Engine.Reply) :
    r.Ready sent (r.net.settle k o).1 (r.net.settle k o).2.1 := by
  obtain ⟨held, ha, ho⟩ := h.held
  rcases r.net.settle_cases k o with ⟨context, hc, -⟩ | hs
  · have hp : r.net.isPending k = true := Network.isPending_iff.mpr ⟨context, hc⟩
    have hheld : k ∈ held := ho k hk (congrArg (·.bind (·.outcome)) hc)
    have hsettled := (ha.perm (List.perm_cons_erase hheld)).settle o
    rw [Ledger.after_rest] at hsettled
    refine ⟨held.erase k, hsettled, fun j hj hn => ?_⟩
    have hne : j ≠ k := by
      rintro rfl
      rw [(Network.settle_done hp o).2] at hn
      cases hn
    exact (List.mem_erase_of_ne hne).mpr (ho j hj ((r.net.extends_settle k o).pending hn))
  · rw [hs]
    exact ⟨held, ha, ho⟩

theorem Minds.complete (h : r.Minds sent) {k : Nat} (hk : k ∈ r.owed) (o : Outcome Engine.Reply) :
    (r.complete k o).Minds sent := by
  obtain ⟨ht, hx, -⟩ := h.tidy.complete k o
  exact ⟨ht, (h.settle hk o).deliver (h.tidy.settle_idle k o), fun s hs => (h.placed s hs).later hx⟩

theorem Minds.registered (h : r.Minds sent) {sent' : List Forwarded} {cell : Nat}
    {l : Listener Engine.Reply} (hl : l.captured = []) (hcell : cell < r.net.cells.length)
    (hnew : ∀ read, l = .recorder read →
      ∀ serial, (serial, cell) ∉ Result.registeredIn r.net.trace)
    (hs : sent'.map (·.claim) = sent.map (·.claim) ++
      (Result.Registered.recorder? ⟨r.net.registrations, cell, l⟩).toList)
    (hf : ∀ s ∈ sent', (Ledger.mk r.net []).Follows s.response s.result) :
    r.Ready sent' (r.net.register cell l).1 (r.net.register cell l).2 := by
  obtain ⟨held, ha, ho⟩ := h.held
  have hc : Attended (l.captured ++ held) sent ⟨r.net, []⟩ := hl ▸ ha
  have hr := hc.register rfl hcell (hl ▸ List.forall_mem_nil _) hnew hs hf
  rw [Ledger.after_rest] at hr
  exact ⟨held, hr, fun k hk hp => ho k hk ((r.net.extends_register cell l).pending hp)⟩

theorem Minds.listened (h : r.Minds sent) {cell : Nat} (hc : cell < r.net.cells.length)
    (tag : String) : r.Ready sent (r.net.register cell (.script tag [] false)).1
      (r.net.register cell (.script tag [] false)).2 := by
  obtain ⟨held, ha, -⟩ := h.held
  exact h.registered rfl hc nofun (List.append_nil _).symm ha.follows

theorem Minds.listen (h : r.Minds sent) {cell : Nat} (hc : cell < r.net.cells.length)
    (tag : String) : (r.register cell (.script tag [] false)).Minds sent := by
  have ht := h.tidy.register cell (l := .script tag [] false) rfl nofun
  have hk := (h.listened hc tag).deliver (h.tidy.register_idle cell rfl)
  exact ⟨ht.tidy, hk, fun s hs => (h.placed s hs).later ht.extended⟩

/-! ### Sending a read -/

theorem Minds.adapt (h : r.Minds sent) {source : Nat} (hs : source < r.net.cells.length)
    (context : Context) :
    let adapted := r.net.addAdapted source context
    let r' := { r with net := adapted.1.1.deliver adapted.1.2 }
    r'.Minds sent ∧ (Ledger.mk r'.net []).Follows source r.net.cells.length ∧
      (∀ serial, (serial, r.net.cells.length) ∉ Result.registeredIn r'.net.trace) ∧
      (r.net.addCell ⟨some context, none⟩).1.Extends r'.net := by
  intro adapted r'
  obtain ⟨held, ha, ho⟩ := h.held
  obtain ⟨hattended, hfollows, hnobody⟩ := ha.adapt hs context
  have hidle : Machine.Idle ⟨adapted.1.1, adapted.1.2, .nothing⟩ := h.tidy.adapt_idle source context
  have hx : r.net.Extends adapted.1.1 :=
    (r.net.extends_addCell ⟨some context, none⟩).trans (Network.extends_register ..)
  have hready : r.Ready sent adapted.1.1 adapted.1.2 :=
    ⟨held, hattended, fun k hk hp => ho k hk (hx.pending hp)⟩
  have ht : Relation.ReflTransGen Ledger.Turn _ ⟨r'.net, []⟩ := Machine.deliver_turns hidle
  have hl := h.tidy.adapt source context
  refine ⟨⟨hl.tidy, hready.deliver hidle, fun s hs => (h.placed s hs).later hl.extended⟩,
    hattended.follows_turns hfollows ht, fun serial hm => hnobody serial ?_, ?_⟩
  · rw [← Ledger.registeredIn_turns ht]
    exact hm
  · exact (Network.extends_register ..).trans (Machine.run_calm _ hidle).extended

/-- The recorder comes before all others. -/
theorem Minds.recorded (h : r.Minds sent) {s : Forwarded} (hp : s.Placed r.net)
    (hf : (Ledger.mk r.net []).Follows s.response s.result)
    (hn : ∀ serial, (serial, s.result) ∉ Result.registeredIn r.net.trace) :
    (r.register s.result (.recorder s.read)).Minds (sent ++ [s]) := by
  obtain ⟨held, ha, -⟩ := h.held
  have hlt : s.result < r.net.cells.length := by
    obtain ⟨context, hc, -⟩ := hp.result
    obtain ⟨c, hcell, -⟩ := Option.bind_eq_some_iff.mp hc
    exact (List.getElem?_eq_some_iff.mp hcell).1
  have hl := h.tidy.register s.result (l := .recorder s.read) trivial nofun
  have hready : r.Ready (sent ++ [s]) (r.net.register s.result (.recorder s.read)).1
      (r.net.register s.result (.recorder s.read)).2 :=
    h.registered rfl hlt (fun _ _ => hn) List.map_append (List.forall_mem_append.mpr
      ⟨ha.follows, List.forall_mem_singleton.mpr hf⟩)
  have hplaced : ∀ s' ∈ sent ++ [s], s'.Placed r.net :=
    List.forall_mem_append.mpr ⟨h.placed, List.forall_mem_singleton.mpr hp⟩
  exact ⟨hl.tidy, hready.deliver (h.tidy.register_idle s.result trivial),
    fun s' hs => (hplaced s' hs).later hl.extended⟩

end Minds

/-! ### What is sent -/

/-- On the way from one state to the next these reads are sent: the client is asked for each, and they are
minded from then on. -/
structure Sends (r : Router) (new : List Forwarded) (r' : Router) : Prop where
  asked : r'.asked = r.asked ++ new.map (·.call)
  minds : ∀ sent, r.Minds sent → r'.Minds (sent ++ new)

section Sends
variable {r r' r'' : Router} {new new' : List Forwarded}

theorem Sends.trans (h : r.Sends new r') (h' : r'.Sends new' r'') : r.Sends (new ++ new') r'' := by
  refine ⟨?_, fun sent hr => ?_⟩
  · rw [h'.asked, h.asked, List.map_append, List.append_assoc]
  · rw [← List.append_assoc]
    exact h'.minds _ (h.minds sent hr)

theorem Sends.nothing (ha : r'.asked = r.asked) (h : ∀ sent, r.Minds sent → r'.Minds sent) :
    r.Sends [] r' :=
  ⟨ha.trans (List.append_nil _).symm, fun sent hr => (List.append_nil sent).symm ▸ h sent hr⟩

theorem Sends.still (ha : r'.asked = r.asked) (hm : r'.minded = r.minded) : r.Sends [] r' :=
  .nothing ha fun _ hr => hr.same hm

theorem sends_resolve (r : Router) (op : Operation) : r.Sends [] (r.resolve op).1 :=
  .still (asked_apart.resolve r op) (minded_apart.resolve r op)

theorem sends_ask (r : Router) : r.Sends [] r.ask.1 := .still (asked_apart.ask r) (minded_apart.ask r)

theorem sends_note (r : Router) (d : Decision) (op : Operation) (context : Context) :
    r.Sends [] (r.note d op context) :=
  .still rfl (r.minded_note d op context)

theorem sends_result (r : Router) (context : Context) (o : Option (Outcome Engine.Reply)) :
    r.Sends [] (r.result context o).1 :=
  .nothing rfl fun _ hr => hr.result context o

theorem sends_record (r : Router) {c : Call} (hc : c.client? = none) : r.Sends [] (r.record c) := by
  refine .still ?_ rfl
  rw [asked_record, hc]
  exact List.append_nil _

theorem sends_serve (r : Router) (h : Handle) (request : Engine.Request) (context : Context) :
    r.Sends [] (r.serve h request context).1 := by
  refine .nothing ?_ fun sent hr => ?_
  · rw [asked, serve_calls, List.filterMap_append]
    exact List.append_nil _
  · have hl := hr.tidy.serve h request context
    have hn : ∃ c, (r.serve h request context).1.net = (r.net.addCell c).1 ∧
        ∀ k ∈ (r.serve h request context).1.owed, k ∈ r.owed ∨ k = r.net.cells.length := by
      unfold Router.serve
      dsimp only
      split
      · exact ⟨_, rfl, fun _ hk => .inl hk⟩
      · refine ⟨_, rfl, fun k hk => ?_⟩
        simp only [owed, owedElsewhere, Router.result, List.mem_append, List.mem_singleton] at hk ⊢
        tauto
    obtain ⟨c, hn, ho⟩ := hn
    exact hr.made hl hn ho

theorem sends_localOnly (r : Router) (op : Operation) (context : Context) :
    r.Sends [] (r.localOnly op context).1 := by
  have h := r.sends_resolve op
  unfold localOnly
  generalize r.resolve op = resolved at h ⊢
  obtain ⟨r', target⟩ := resolved
  cases target with
  | error e => exact h.trans (r'.sends_note (.rejected e) op context)
  | ok target =>
    cases target with
    | engine handle => exact h
    | remote address => exact h.trans (r'.sends_note (.unsupported address) op context)

theorem sends_userDefined (r : Router) (u : Engine.UserLookup) (context : Context) :
    r.Sends [] (r.userDefined u context).1 := by
  have h := r.sends_localOnly .userDefinedLookup context
  unfold Router.userDefined
  generalize r.localOnly .userDefinedLookup context = found at h ⊢
  dsimp only
  split
  · exact h.trans (sends_result ..)
  · exact h.trans (sends_serve ..)

theorem sends_drawn (r : Router) (token : Option Result.TokenValue) : r.Sends [] (r.drawn token) :=
  .still rfl rfl

theorem sends_comparators (r : Router) : r.Sends [] r.comparators.1 := by
  have h := (r.sends_drawn none).trans
    ((r.drawn none).sends_localOnly .comparators (.make r.net.contexts none))
  unfold comparators
  dsimp only
  split
  · exact h
  · exact h.trans (sends_record _ rfl)

theorem sends_insert (r : Router) (group : Engine.InsertGroup) (context : Context) :
    r.Sends [] (r.insert group context).1 := by
  have h := r.sends_ask
  unfold Router.insert
  dsimp only
  split
  · exact sends_result ..
  · generalize r.ask = asked at h ⊢
    cases asked.2.primary with
    | none => exact h.trans ((sends_note _ (.rejected .noQuorum) .insert context).trans (sends_result ..))
    | some primary =>
      have hd : r.Sends [] ((asked.1.note (.written group.size) .insert context).record
          (.persistence .insert group context)) :=
        (h.trans (sends_note _ (.written group.size) .insert context)).trans (sends_record _ rfl)
      dsimp only
      split
      · exact hd.trans (sends_result ..)
      · refine hd.trans (.nothing rfl fun sent hr => ?_)
        refine hr.made (hr.tidy.persisted context) rfl fun k hk => ?_
        simp only [owed, owedElsewhere, Router.result, List.mem_append, List.mem_singleton] at hk ⊢
        tauto

theorem send_eq (r : Router) (address : SocketAddress) (database : String) (q : Engine.Read) :
    let sent := r.send address database q
    sent.2 = r.net.cells.length ∧ sent.1.net.cells.length = r.net.cells.length + 1 ∧
      ∃ o?, sent.1.net = (r.net.addCell ⟨none, o?⟩).1 ∧
        ∀ k ∈ sent.1.owed, k ∈ r.owed ∨ k = r.net.cells.length := by
  unfold Router.send
  dsimp only
  split
  · exact ⟨rfl, List.length_append, _, rfl, fun _ hk => .inl hk⟩
  · refine ⟨rfl, List.length_append, _, rfl, fun k hk => ?_⟩
    simp only [owed, owedElsewhere, Router.record, List.map_append, List.map_cons, List.map_nil,
      List.mem_append, List.mem_singleton] at hk ⊢
    tauto

theorem sends_forward (r : Router) (address : SocketAddress) (database : String) (q : Engine.Read)
    (context : Context) :
    r.Sends [⟨⟨database, address, context.id⟩, r.net.cells.length, r.net.cells.length + 1⟩]
      (r.forward address database q context).1 := by
  refine ⟨?_, fun sent hr => ?_⟩
  · rw [asked, forward_calls, List.filterMap_append]
    rfl
  · have hl := hr.tidy.send address database q
    obtain ⟨hresponse, hlength, o?, hn, ho⟩ := r.send_eq address database q
    have hsent : (r.send address database q).1.Minds sent := hr.made hl hn ho
    have hbare : (r.send address database q).1.net.cells[r.net.cells.length]? = some ⟨none, o?⟩ := by
      rw [hn]
      exact Network.getElem_addCell ..
    unfold Router.forward Router.forwardWith
    generalize r.send address database q = made at *
    have hlt : made.2 < made.1.net.cells.length := by
      rw [hresponse, hlength]
      exact Nat.lt_succ_self _
    obtain ⟨hadapted, hfollows, hnobody, hx⟩ := hsent.adapt hlt context
    rw [← hlength, ← hresponse]
    have hcontext := hx.contextAt (made.1.net.contextAt_addCell ⟨some context, none⟩)
    obtain ⟨o?', hresponse', -⟩ := ((Network.extends_addCell ..).trans hx).kept _ _ _ hbare
    exact hadapted.recorded ⟨⟨context, hcontext, rfl⟩, o?', hresponse ▸ hresponse'⟩ hfollows hnobody

theorem sends_read (r : Router) (q : Engine.Read) (token : Option Result.TokenValue) :
    r.Sends (r.forwards (.read q token)).toList (r.perform (.read q token)).1 := by
  let context : Context := .make r.net.contexts token
  have h := (r.sends_drawn token).trans ((r.drawn token).sends_resolve q.operation)
  have hk := (r.drawn token).keeps_resolve q.operation
  simp only [forwards]
  show r.Sends _ ((r.drawn token).read q context).1
  unfold Router.read Router.readWith
  generalize (r.drawn token).resolve q.operation = resolved at h hk ⊢
  obtain ⟨r', target⟩ := resolved
  cases target with
  | error e => exact h.trans ((sends_note r' (.rejected e) q.operation context).trans (sends_result ..))
  | ok target =>
    cases target with
    | engine handle => exact h.trans ((sends_note r' .here q.operation context).trans (sends_serve ..))
    | remote address =>
      have hname : r'.name = r.name := congrArg Setup.name hk.setup
      have hcells : r'.net.cells = r.net.cells := congrArg Books.cells hk.books
      have hf := (sends_note r' (.away address) q.operation context).trans
        (sends_forward _ address r'.name q context)
      have hs : r.sending address r.name = ⟨⟨r'.name, address, context.id⟩, r'.net.cells.length,
          r'.net.cells.length + 1⟩ := by
        rw [hname, hcells]
        rfl
      show r.Sends [r.sending address r.name] _
      rw [hs]
      exact h.trans hf

theorem sends_settleOwed (r : Router) {cell : Option Nat} (hc : ∀ k, cell = some k → k ∈ r.owed)
    (o : Option (Outcome Engine.Reply)) : r.Sends [] (r.settleOwed cell o).1 := by
  have hdone : ∀ k, cell = some k → ∀ o, r.Sends [] (r.complete k o) :=
    fun k hk o => .nothing rfl fun _ hr => hr.complete (hc k hk) o
  unfold Router.settleOwed Router.settleOwedWith
  split
  · exact .still rfl rfl
  · split
    · exact .still rfl rfl
    · split
      · exact hdone _ rfl _
      · exact hdone _ rfl _

/-- An action sends what it forwards. A caller listens on cells that exist. -/
theorem sends_perform (r : Router) {a : RouterAction}
    (ha : ∀ cell tag, a = .listen cell tag → cell < r.net.cells.length) :
    r.Sends (r.forwards a).toList (r.perform a).1 := by
  cases a with
  | read q token => exact r.sends_read q token
  | userDefined u token => exact (r.sends_drawn token).trans ((r.drawn token).sends_userDefined u _)
  | comparators => exact r.sends_comparators
  | insert group token => exact (r.sends_drawn token).trans ((r.drawn token).sends_insert group _)
  | singleInsert index key value token =>
    exact (r.sends_drawn token).trans ((r.drawn token).sends_insert _ _)
  | singleDelete index key token => exact (r.sends_drawn token).trans ((r.drawn token).sends_insert _ _)
  | forward address database q token =>
    exact (r.sends_drawn token).trans
      ((r.drawn token).sends_forward address database q (.make r.net.contexts token))
  | plan op => exact r.sends_ask
  | resolve op => exact r.sends_resolve op
  | role => exact r.sends_ask
  | shutdown => exact .still (asked_apart.shutdown r) (minded_apart.shutdown r)
  | setPrimary address =>
    exact .still (asked_apart.setPrimary r address) (minded_apart.setPrimary r address)
  | clearPrimary => exact .still (asked_apart.clearPrimary r) (minded_apart.clearPrimary r)
  | engineAnswers n reply =>
    exact r.sends_settleOwed (fun k hk => List.mem_append_left _ (List.mem_of_getElem? hk)) _
  | clientAnswers n reply =>
    refine r.sends_settleOwed (fun k hk => ?_) _
    obtain ⟨owed, ho, rfl⟩ := Option.map_eq_some_iff.mp hk
    refine List.mem_append_right _ (List.mem_append_left _ ?_)
    exact List.mem_map.mpr ⟨owed, List.mem_of_getElem? ho, rfl⟩
  | persistenceAnswers n reply =>
    refine r.sends_settleOwed (fun k hk => ?_) _
    exact List.mem_append_right _ (List.mem_append_right _ (List.mem_of_getElem? hk))
  | listen cell tag => exact .nothing rfl fun _ hr => hr.listen (ha cell tag rfl) tag
  | replace | interrupt | poll => exact .still rfl rfl

theorem sends_run (r : Router) {as : List RouterAction}
    (hl : ∀ i cell tag, as[i]? = some (.listen cell tag) →
      cell < (r.run (as.take i)).1.net.cells.length) :
    r.Sends (r.forwardedIn as) (r.run as).1 := by
  induction as generalizing r with
  | nil => exact .still rfl rfl
  | cons a as ih =>
    have ha := r.sends_perform (a := a) fun cell tag h => hl 0 cell tag (congrArg some h)
    exact ha.trans (ih (r.perform a).1 fun i cell tag h => hl (i + 1) cell tag h)

theorem New.minds (h : r.New) : r.Minds [] ∧ r.asked = [] := by
  have hfresh : Attended [] [] ⟨({} : Network Engine.Reply), []⟩ := Ledger.fresh_attended
  have ht := h.tidy
  cases h with
  | make | withHandle =>
    exact ⟨⟨ht, ⟨[], hfresh, List.forall_mem_nil _⟩, List.forall_mem_nil _⟩, rfl⟩

end Sends

end Router
end ReplicaRouting
