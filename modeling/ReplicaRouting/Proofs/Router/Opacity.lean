import ReplicaRouting.Proofs.Result.Bare
import ReplicaRouting.Proofs.Router.Errands
/-!
Routers without the tokens of their callers. As long as engines and the persistence manager do not look at a
token, nobody does: a request does the same without it.
-/

namespace ReplicaRouting

open Net (SocketAddress)
open Result (Context Outcome Listener Network Machine)

/-- Those who are given contexts answer the same without the token. -/
structure Collaborators.Blind (c : Collaborators) : Prop where
  engine : ∀ h request context, c.engine h request (Context.bare context) = c.engine h request context
  persistence : ∀ payload group context,
    c.persistence payload group (Context.bare context) = c.persistence payload group context

def Call.bare : Call → Call
  | .engine h request context => .engine h request context.bare
  | .persistence payload group context => .persistence payload group context.bare
  | c => c

def RouterAction.bare : RouterAction → RouterAction
  | .read q _ => .read q none
  | .userDefined u _ => .userDefined u none
  | .insert group _ => .insert group none
  | .singleInsert index key value _ => .singleInsert index key value none
  | .singleDelete index key _ => .singleDelete index key none
  | .forward address database q _ => .forward address database q none
  | a => a

def Errand.bare : Errand → Errand
  | .act a => .act a.bare
  | .again a context => .again a.bare context.bare

def Errand.Blind (e : Errand) : Prop := ∀ c, e = .act (.replace c) → c.Blind

namespace Router

def bare (r : Router) : Router := { r with net := r.net.bare, calls := r.calls.map (·.bare) }

def bared {β : Type} (done : Router × β) : Router × β := (done.1.bare, done.2)

theorem bared_answer {β : Type} {done done' : Router × β} (h : done' = bared done) (answer : β → RouterAnswer) :
    (done'.1, answer done'.2) = bared (done.1, answer done.2) := by
  rw [h]
  rfl

variable (r : Router)

theorem log_bare (x : Log.Record) : r.bare.log x = (r.log x).bare :=
  congrArg (fun n => { r.bare with net := n }) (r.net.bare_log x).symm

theorem record_bare (c : Call) : r.bare.record c.bare = (r.record c).bare := by
  simp only [record, bare, List.map_append, List.map_cons, List.map_nil]

theorem shutdown_bare : r.bare.shutdown = bared r.shutdown := by
  let closed : Router := { r with stopped := true, handle := none }
  have hstop : ∀ x h, (closed.bare.log x).record (.stop h) = ((closed.log x).record (.stop h)).bare := fun x h => by
    rw [log_bare]
    exact record_bare _ (.stop h)
  unfold bare
  simp only [shutdown]
  split
  · rfl
  · split
    · exact Prod.ext (hstop _ _) rfl
    · exact Prod.ext (closed.log_bare _) rfl

theorem attach_bare : r.bare.attach = bared r.attach := by
  have hr := r.record_bare (.catalog r.name)
  unfold bare
  simp only [attach]
  split
  · rfl
  · split
    · rfl
    · split
      · exact Prod.ext hr rfl
      · rename_i h _
        let attached : Router := { r.record (.catalog r.name) with handle := some h }
        refine Prod.ext ?_ rfl
        refine Eq.trans ?_ (log_bare (attached.count .countAttachment) _)
        exact congrArg (fun s : Router => (({ s with handle := some h } : Router).count .countAttachment).log _) hr

theorem follow_bare (handle : Option Handle) (plan : Plan) :
    r.bare.follow handle plan = bared (r.follow handle plan) := by
  unfold follow
  split
  · rfl
  · rfl
  · rfl
  · rw [attach_bare]
    rfl

theorem resolveWith_bare {ask : Router → Router × Snapshot} (h : ask r.bare = bared (ask r)) (op : Operation) :
    resolveWith ask r.bare op = bared (resolveWith ask r op) := by
  unfold resolveWith
  rw [h]
  unfold bare
  dsimp only
  split
  · rfl
  · exact follow_bare ..

theorem interrupt_bare : r.bare.interrupt = r.interrupt.bare := by
  unfold interrupt bare
  dsimp only
  split
  · rfl
  · exact congrArg Prod.fst (shutdown_bare { r with interruption := none })
  · exact congrArg Prod.fst (resolveWith_bare { r with interruption := none } rfl _)

theorem ask_bare : r.bare.ask = bared r.ask := by
  rw [ask, interrupt_bare]
  rfl

theorem resolve_bare (op : Operation) : r.bare.resolve op = bared (r.resolve op) :=
  r.resolveWith_bare r.ask_bare op

theorem plan_bare (op : Operation) : r.bare.plan op = bared (r.plan op) := by
  rw [plan, ask_bare]
  rfl

theorem result_bare (context : Context) (o : Option (Outcome Engine.Reply)) :
    r.bare.result context.bare o = bared (r.result context o) :=
  Prod.ext (congrArg (fun n => { r.bare with net := n }) (r.net.bare_addCell ⟨some context, o⟩).symm)
    r.net.length_bare

theorem note_bare (d : Decision) (op : Operation) (context : Context) :
    r.bare.note d op context.bare = (r.note d op context).bare := by
  have h := log_bare (r.count d.count) (d.record r.name op context)
  cases d <;> exact h

/-! ### Requests -/

variable {r} in
theorem Keeps.blind {r' : Router} (hk : r.Keeps r') (hc : r.collaborators.Blind) : r'.collaborators.Blind := by
  have h : r'.collaborators = r.collaborators := congrArg Setup.collaborators hk.setup
  exact h ▸ hc

theorem failed_bare (e : RouterError) (context : Context) : r.bare.failed e context.bare = bared (r.failed e context) :=
  r.result_bare context _

theorem serve_bare (hc : r.collaborators.Blind) (h : Handle) (request : Engine.Request) (context : Context) :
    r.bare.serve h request context.bare = bared (r.serve h request context) := by
  have hr : r.bare.record (.engine h request context.bare) = (r.record (.engine h request context)).bare :=
    r.record_bare (.engine h request context)
  have ha : (r.record (.engine h request context)).bare.collaborators.engine h request context.bare =
      (r.record (.engine h request context)).collaborators.engine h request context := hc.engine ..
  unfold serve
  dsimp only
  rw [hr, ha]
  split
  · exact result_bare ..
  · rw [result_bare]
    rfl

theorem send_bare (address : SocketAddress) (database : String) (q : Engine.Read) :
    r.bare.send address database q = bared (r.send address database q) := by
  have hr : r.bare.record (.client address database q) = (r.record (.client address database q)).bare :=
    r.record_bare (.client address database q)
  unfold send
  rw [hr]
  generalize r.record (.client address database q) = asked
  have hadd : ∀ o?, asked.bare.net.addCell ⟨none, o?⟩ =
      ((asked.net.addCell ⟨none, o?⟩).1.bare, (asked.net.addCell ⟨none, o?⟩).2) :=
    fun o? => Prod.ext (asked.net.bare_addCell ⟨none, o?⟩).symm asked.net.length_bare
  have ha : asked.bare.collaborators = asked.collaborators := rfl
  dsimp only
  rw [ha]
  split
  · rw [hadd]
    rfl
  · rw [hadd]
    rfl

theorem deliver_bare {n : Network Engine.Reply} {frames : List (Result.Frame Engine.Reply)}
    (hm : Machine.Idle ⟨n, frames, .nothing⟩) :
    { r.bare with net := n.bare.deliver (frames.map (·.bare)) } = ({ r with net := n.deliver frames } : Router).bare :=
  congrArg (fun n => { r.bare with net := n }) (Network.deliver_bare hm)

variable {r} in
theorem Tidy.register_bare (hr : r.Tidy) (cell : Nat) {l : Listener Engine.Reply} (hl : l.IsIdle) :
    r.bare.register cell l = (r.register cell l).bare := by
  have h := r.net.register_bare cell l
  show { r.bare with net := (r.net.bare.register cell l).1.deliver (r.net.bare.register cell l).2 } = _
  rw [h]
  exact r.deliver_bare (hr.register_idle cell hl)

variable {r} in
theorem Tidy.complete_bare (hr : r.Tidy) (cell : Nat) (o : Outcome Engine.Reply) :
    r.bare.complete cell o = (r.complete cell o).bare := by
  have h := r.net.settle_bare cell o
  show { r.bare with net := (r.net.bare.settle cell o).1.deliver (r.net.bare.settle cell o).2.1 } = _
  rw [h]
  exact r.deliver_bare (hr.settle_idle cell o)

variable {r} in
theorem Tidy.forward_bare (hr : r.Tidy) (address : SocketAddress) (database : String) (q : Engine.Read)
    (context : Context) :
    r.bare.forward address database q context.bare = bared (r.forward address database q context) := by
  have hs := (hr.send address database q).tidy
  unfold Router.forward Router.forwardWith
  rw [send_bare]
  generalize r.send address database q = sent at hs ⊢
  let adapted := sent.1.net.addAdapted sent.2 context
  let followed : Router := { sent.1 with net := adapted.1.1.deliver adapted.1.2 }
  -- two deliveries: what the adapter of a settled response sets off, and then the recorder
  have hadapted : sent.1.bare.net.addAdapted sent.2 context.bare =
      ((adapted.1.1.bare, adapted.1.2.map (·.bare)), adapted.2) := sent.1.net.addAdapted_bare sent.2 context
  have hidle : Machine.Idle ⟨adapted.1.1, adapted.1.2, .nothing⟩ := hs.adapt_idle sent.2 context
  have hfollowed : followed.Tidy := (hs.adapt sent.2 context).tidy
  have hregistered := hfollowed.register_bare adapted.2 (l := .recorder ⟨database, address, context.id⟩) trivial
  dsimp only [bared]
  rw [hadapted]
  refine congrArg (·, adapted.2) (Eq.trans ?_ hregistered)
  exact congrArg (·.register adapted.2 (.recorder ⟨database, address, context.id⟩)) (sent.1.deliver_bare hidle)

theorem read_bare (hr : r.Tidy) (hc : r.collaborators.Blind) (q : Engine.Read) (context : Context) :
    r.bare.read q context.bare = bared (r.read q context) := by
  have hk := r.keeps_resolve q.operation
  unfold Router.read Router.readWith
  rw [resolve_bare]
  generalize r.resolve q.operation = resolved at hk ⊢
  obtain ⟨r', target⟩ := resolved
  have ht : ∀ d, (r'.note d q.operation context).Tidy := fun d => (hr.keeps (hk.note d q.operation context)).tidy
  have hc' : r'.collaborators.Blind := hk.blind hc
  have hnote := fun d => r'.note_bare d q.operation context
  cases target with
  | error e => exact (congrArg (·.failed e context.bare) (hnote (.rejected e))).trans (failed_bare _ e context)
  | ok target =>
    cases target with
    | engine h =>
      exact (congrArg (·.serve h (.read q) context.bare) (hnote .here)).trans
        (serve_bare (r'.note .here q.operation context) hc' h (.read q) context)
    | remote address =>
      exact (congrArg (·.forward address r'.name q context.bare) (hnote (.away address))).trans
        ((ht (.away address)).forward_bare address r'.name q context)

theorem localOnly_bare (op : Operation) (context : Context) :
    r.bare.localOnly op context.bare = bared (r.localOnly op context) := by
  unfold localOnly
  rw [resolve_bare]
  generalize r.resolve op = resolved
  obtain ⟨r', target⟩ := resolved
  cases target with
  | error e => exact Prod.ext (r'.note_bare (.rejected e) op context) rfl
  | ok target =>
    cases target with
    | engine h => rfl
    | remote address => exact Prod.ext (r'.note_bare (.unsupported address) op context) rfl

theorem userDefined_bare (hc : r.collaborators.Blind) (u : Engine.UserLookup) (context : Context) :
    r.bare.userDefined u context.bare = bared (r.userDefined u context) := by
  have hk := r.keeps_localOnly .userDefinedLookup context
  unfold userDefined
  rw [localOnly_bare]
  generalize r.localOnly .userDefinedLookup context = found at hk ⊢
  obtain ⟨r', handle⟩ := found
  cases handle with
  | error e => exact failed_bare r' e context
  | ok h =>
    exact serve_bare r' (hk.blind hc) h (.userDefined u) context

theorem dispatch_bare (hc : r.collaborators.Blind) (group : Engine.InsertGroup) (context : Context) :
    r.bare.dispatch group context.bare = bared (r.dispatch group context) := by
  have hr : (r.bare.note (.written group.size) .insert context.bare).record (.persistence .insert group context.bare) =
      ((r.note (.written group.size) .insert context).record (.persistence .insert group context)).bare := by
    rw [note_bare]
    exact record_bare _ (.persistence .insert group context)
  have ha : r.bare.collaborators.persistence .insert group context.bare =
      r.collaborators.persistence .insert group context := hc.persistence ..
  unfold dispatch
  rw [hr, ha]
  generalize (r.note (.written group.size) .insert context).record (.persistence .insert group context) = sent
  dsimp only
  split
  · exact result_bare ..
  · rw [result_bare]
    rfl

theorem queried_bare : r.bare.queried = r.queried.bare := by
  have ha := congrArg Prod.fst r.ask_bare
  unfold queried
  by_cases hs : r.stopped = true
  · rw [if_pos hs]
    exact if_pos hs
  · rw [if_neg hs]
    exact (if_neg hs).trans ha

theorem insert_bare (hc : r.collaborators.Blind) (group : Engine.InsertGroup) (context : Context) :
    r.bare.insert group context.bare = bared (r.insert group context) := by
  have hrefusal : r.bare.refusal? = r.refusal? := rfl
  rw [insert_eq, insert_eq, hrefusal, queried_bare]
  cases r.refusal? with
  | none => exact dispatch_bare _ (r.keeps_queried.blind hc) group context
  | some e =>
    have hnote : r.queried.bare.reject .insert e context.bare = (r.queried.reject .insert e context).bare :=
      r.queried.note_bare (.rejected e) .insert context
    have hstopped : r.bare.stopped = r.stopped := rfl
    dsimp only
    rw [hnote, hstopped]
    split
    · exact failed_bare r e context
    · exact failed_bare _ e context

/-! ### Errands -/

theorem answered_bare (made : Router × Nat) : answered (bared made) = bared (answered made) := by
  show (_, RouterAnswer.result made.2 (made.1.net.bare.outcomeAt made.2)) = _
  rw [Network.outcomeAt_bare]
  rfl

theorem comparators_bare : r.bare.comparators = bared r.comparators := by
  have h := (r.drawn none).localOnly_bare .comparators (.make r.net.contexts none)
  generalize hfound : (r.drawn none).localOnly .comparators (.make r.net.contexts none) = found at h
  have hb : (r.bare.drawn none).localOnly .comparators (.make r.bare.net.contexts none) = bared found := h
  rw [comparators_eq hfound, comparators_eq hb]
  obtain ⟨r', handle⟩ := found
  cases handle with
  | error e => rfl
  | ok handle => exact Prod.ext (r'.record_bare (.comparators handle)) rfl

theorem logAll_bare (records : List Log.Record) : r.bare.logAll records = (r.logAll records).bare := by
  unfold logAll
  induction records generalizing r with
  | nil => rfl
  | cons x records ih =>
    rw [List.foldl_cons, log_bare]
    exact ih (r.log x)

/-- What becomes of a cell that is given up depends on whether it has a context, and not on the token. -/
theorem settleOwed_bare (hr : r.Tidy) (cell : Option Nat) (o : Option (Outcome Engine.Reply)) :
    r.bare.settleOwed cell o = bared (r.settleOwed cell o) := by
  cases cell with
  | none => rfl
  | some cell =>
    have ho : r.bare.net.outcomeAt cell = r.net.outcomeAt cell := r.net.outcomeAt_bare cell
    have hc : Outcome.abandoned (V := Engine.Reply) (r.bare.net.contextAt cell) =
        .abandoned (r.net.contextAt cell) := by
      have h : r.bare.net.contextAt cell = (r.net.contextAt cell).map (·.bare) := r.net.contextAt_bare cell
      rw [h]
      cases r.net.contextAt cell <;> rfl
    unfold settleOwed settleOwedWith
    dsimp only
    rw [ho, hc]
    split
    · rfl
    · cases o with
      | some o => exact Prod.ext (hr.complete_bare cell o) rfl
      | none => exact Prod.ext (hr.complete_bare cell _) rfl

theorem request_bare (hr : r.Tidy) (hc : r.collaborators.Blind) (context : Context) (a : RouterAction) :
    r.bare.request context.bare a.bare = (r.request context a).map bared := by
  cases a with
  | read q token => exact congrArg some (r.read_bare hr hc q context)
  | userDefined u token => exact congrArg some (r.userDefined_bare hc u context)
  | insert group token => exact congrArg some (r.insert_bare hc group context)
  | singleInsert index key value token => exact congrArg some (r.insert_bare hc _ context)
  | singleDelete index key token => exact congrArg some (r.insert_bare hc _ context)
  | forward address database q token => exact congrArg some (hr.forward_bare address database q context)
  | _ => rfl

theorem perform_bare (hr : r.Tidy) (hc : r.collaborators.Blind) (a : RouterAction) :
    r.bare.perform a.bare = bared (r.perform a) := by
  cases ht : a.token? with
  | some token =>
    obtain ⟨made, hm, hp⟩ := perform_request (r := r) ht
    have htoken : a.bare.token? = some none := by
      cases a with
      | read | userDefined | insert | singleInsert | singleDelete | forward => rfl
      | _ => cases ht
    -- without its token the action draws a context of the same id, which is the bare one
    obtain ⟨made', hm', hp'⟩ := perform_request (r := r.bare) htoken
    have hrequest := (r.drawn token).request_bare (hr.fresh token).tidy hc (.make r.net.contexts token) a
    rw [hm] at hrequest
    obtain rfl := Option.some.inj (hm'.symm.trans hrequest)
    rw [hp, hp', answered_bare]
  | none =>
    cases a with
    | comparators => exact bared_answer r.comparators_bare .comparators
    | plan op => exact bared_answer (r.plan_bare op) .plan
    | resolve op => exact bared_answer (r.resolve_bare op) .target
    | role => exact bared_answer r.ask_bare .role
    | shutdown => exact bared_answer r.shutdown_bare .stopped
    | setPrimary address =>
      exact congrArg (·, RouterAnswer.nothing) (logAll_bare { r with oracle := (r.oracle.setPrimary address).1 } _)
    | clearPrimary =>
      exact congrArg (·, RouterAnswer.nothing) (logAll_bare { r with oracle := r.oracle.clearPrimary.1 } _)
    | replace | interrupt => rfl
    | engineAnswers n reply => exact r.settleOwed_bare hr ..
    | clientAnswers n reply => exact r.settleOwed_bare hr ..
    | persistenceAnswers n reply => exact r.settleOwed_bare hr ..
    | listen cell tag =>
      exact congrArg (·, RouterAnswer.nothing) (hr.register_bare cell (l := .script tag [] false) rfl)
    | poll cell => exact Prod.ext rfl (congrArg RouterAnswer.outcome (r.net.outcomeAt_bare cell))
    | _ => cases ht

theorem errand_bare (hr : r.Tidy) (hc : r.collaborators.Blind) (e : Errand) :
    r.bare.errand e.bare = bared (r.errand e) := by
  cases e with
  | act a => exact r.perform_bare hr hc a
  | again a context =>
    show r.bare.errand (.again a.bare context.bare) = _
    rw [errand_again, errand_again, r.request_bare hr hc]
    cases r.request context a with
    | none => rfl
    | some made => exact answered_bare made

end Router
end ReplicaRouting
