import ReplicaRouting.Proofs.Result.Muted
import ReplicaRouting.Router.Run
/-!
Runs of a router with a minimum severity: each action, and each step of a delivery within it, leaves out the lines
below it. No function of the router looks at the lines, so routers that differ in such lines only stay so.
-/

namespace ReplicaRouting

open Net (SocketAddress)
open Result (Context Outcome Network)

namespace Router

def thin (minimum : Log.Severity) (r : Router) : Router := { r with net := r.net.thin minimum }

def muting : Log.Muting Router where
  lines r := Network.muting.lines r.net
  thin := thin
  lines_thin minimum r := Network.muting.lines_thin minimum r.net
  thin_thin h r := congrArg (fun n => { r with net := n }) (Network.muting.thin_thin h r.net)
  thin_trace r := congrArg (fun n => { r with net := n }) (Network.muting.thin_trace r.net)

def runAt (minimum : Log.Severity) (r : Router) : List RouterAction → Router × List RouterAnswer
  | [] => (r.thin minimum, [])
  | a :: as =>
    let done := r.performWith (Network.deliverAt minimum) a
    let rest := (done.1.thin minimum).runAt minimum as
    (rest.1, done.2 :: rest.2)

/-- The routers differ at most in lines below the minimum. -/
inductive Muted (minimum : Log.Severity) (r : Router) : Router → Prop
  | intro {net : Network Engine.Reply} (h : Network.Alike minimum r.net net) :
      Muted minimum r { r with net }

/-- A function gives the same beside routers that differ in such lines. -/
def Done {β : Type} (minimum : Log.Severity) (x x' : Router × β) : Prop :=
  Muted minimum x.1 x'.1 ∧ x.2 = x'.2

section Muted
variable {minimum : Log.Severity} {r r' : Router}

theorem Muted.refl (r : Router) : Muted minimum r r := .intro (.refl r.net)

theorem Muted.thin_eq (h : Muted minimum r r') : r.thin minimum = r'.thin minimum := by
  obtain ⟨h⟩ := h
  simp only [Router.thin, h.thin_eq]

theorem Muted.thin (h : Muted minimum r r') : Muted minimum r (r'.thin minimum) := by
  obtain ⟨h⟩ := h
  exact .intro h.thin

theorem Muted.net (h : Muted minimum r r') : Network.Alike minimum r.net r'.net := by
  obtain ⟨h⟩ := h
  exact h

theorem Muted.map (h : Muted minimum r r') (f : Router → Router)
    (hf : ∀ r n, f { r with net := n } = { f r with net := n }) : Muted minimum (f r) (f r') := by
  obtain @⟨net, h⟩ := h
  have hn := congrArg (·.net) (hf r r.net)
  rw [hf r net]
  exact .intro (hn.symm ▸ h)

theorem Done.map {β : Type} {x x' : Router × β} (h : Done minimum x x') (f : Router → β → Router)
    (hf : ∀ v r n, f { r with net := n } v = { f r v with net := n }) :
    Muted minimum (f x.1 x.2) (f x'.1 x'.2) :=
  h.2 ▸ h.1.map (f · x.2) (hf x.2)

theorem Muted.through (h : Muted minimum r r') {n n' : Network Engine.Reply}
    (hn : Network.Alike minimum n n') : Muted minimum { r with net := n } { r' with net := n' } := by
  obtain ⟨h⟩ := h
  exact .intro hn

theorem Muted.log (h : Muted minimum r r') (record : Log.Record) :
    Muted minimum (r.log record) (r'.log record) :=
  h.through (h.net.log record)

theorem Muted.count (h : Muted minimum r r') (f : Metrics → Metrics) :
    Muted minimum (r.count f) (r'.count f) :=
  h.through (h.net.count f)

theorem Muted.record (h : Muted minimum r r') (c : Call) :
    Muted minimum (r.record c) (r'.record c) :=
  h.map (·.record c) fun _ _ => rfl

theorem Muted.shutdown (h : Muted minimum r r') : Done minimum r.shutdown r'.shutdown := by
  have hd := h.map (fun r => { r with stopped := true, handle := none }) fun _ _ => rfl
  obtain ⟨hn⟩ := h
  simp only [Router.shutdown]
  split
  · exact ⟨.intro hn, rfl⟩
  · split
    · exact ⟨(hd.log _).record _, rfl⟩
    · exact ⟨hd.log _, rfl⟩

theorem Muted.attach (h : Muted minimum r r') : Done minimum r.attach r'.attach := by
  have ha := h.record (.catalog r.name)
  obtain ⟨hn⟩ := h
  simp only [Router.attach]
  split
  · exact ⟨.intro hn, rfl⟩
  · split
    · exact ⟨.intro hn, rfl⟩
    · split
      · exact ⟨ha, rfl⟩
      · rename_i x _
        have hx := ha.map (fun r => { r with handle := some x }) fun _ _ => rfl
        exact ⟨(hx.count .countAttachment).log _, rfl⟩

theorem Muted.follow (h : Muted minimum r r') (handle : Option Handle) (plan : Plan) :
    Done minimum (r.follow handle plan) (r'.follow handle plan) := by
  unfold Router.follow
  split
  · exact ⟨h, rfl⟩
  · exact ⟨h, rfl⟩
  · exact ⟨h, rfl⟩
  · exact ⟨h.attach.1, congrArg (·.map Target.engine) h.attach.2⟩

theorem Muted.resolveWith (h : Muted minimum r r') (ask : Router → Router × Snapshot)
    (ha : Done minimum (ask r) (ask r')) (op : Operation) :
    Done minimum (Router.resolveWith ask r op) (Router.resolveWith ask r' op) := by
  obtain ⟨hn⟩ := h
  obtain ⟨ha, hs⟩ := ha
  simp only [Router.resolveWith]
  split
  · exact ⟨.intro hn, rfl⟩
  · rw [hs]
    exact ha.follow ..

theorem Muted.interrupt (h : Muted minimum r r') : Muted minimum r.interrupt r'.interrupt := by
  have hi := h.map (fun r => { r with interruption := none }) fun _ _ => rfl
  obtain ⟨hn⟩ := h
  simp only [Router.interrupt]
  split
  · exact .intro hn
  · exact hi.shutdown.1
  · exact (hi.resolveWith (fun r => (r, r.oracle.snapshot)) ⟨hi, rfl⟩ _).1

theorem Muted.oracle (h : Muted minimum r r') : r'.oracle = r.oracle := by
  obtain ⟨h⟩ := h
  rfl

theorem Muted.collaborators (h : Muted minimum r r') : r'.collaborators = r.collaborators := by
  obtain ⟨h⟩ := h
  rfl

theorem Muted.stopped (h : Muted minimum r r') : r'.stopped = r.stopped := by
  obtain ⟨h⟩ := h
  rfl

theorem Muted.name (h : Muted minimum r r') : r'.name = r.name := by
  obtain ⟨h⟩ := h
  rfl

theorem Muted.ask (h : Muted minimum r r') : Done minimum r.ask r'.ask :=
  ⟨h.interrupt, congrArg (·.snapshot) h.interrupt.oracle.symm⟩

theorem Muted.resolve (h : Muted minimum r r') (op : Operation) :
    Done minimum (r.resolve op) (r'.resolve op) :=
  h.resolveWith Router.ask h.ask op

theorem Muted.plan (h : Muted minimum r r') (op : Operation) :
    Done minimum (r.plan op) (r'.plan op) := by
  obtain ⟨ha, hs⟩ := h.ask
  refine ⟨ha, ?_⟩
  simp only [Router.plan]
  rw [hs]
  generalize r.ask.1 = s, r'.ask.1 = s' at ha
  obtain ⟨hn⟩ := ha
  rfl

/-! ### Requests -/

theorem Muted.result (h : Muted minimum r r') (context : Context)
    (o : Option (Outcome Engine.Reply)) :
    Done minimum (r.result context o) (r'.result context o) := by
  obtain ⟨ha, hc⟩ := h.net.addCell ⟨some context, o⟩
  exact ⟨h.through ha, hc⟩

theorem Muted.failed (h : Muted minimum r r') (e : RouterError) (context : Context) :
    Done minimum (r.failed e context) (r'.failed e context) :=
  h.result ..

theorem Muted.complete (h : Muted minimum r r') (cell : Nat) (o : Outcome Engine.Reply) :
    Muted minimum (r.complete cell o) (r'.completeWith (Network.deliverAt minimum) cell o) := by
  obtain ⟨hs, hf⟩ := h.net.settle cell o
  refine h.through ?_
  rw [← hf]
  exact hs.deliverAt _

theorem Muted.register (h : Muted minimum r r') (cell : Nat) (l : Result.Listener Engine.Reply) :
    Muted minimum (r.register cell l) (r'.registerWith (Network.deliverAt minimum) cell l) := by
  obtain ⟨hs, hf⟩ := h.net.register cell l
  refine h.through ?_
  rw [← hf]
  exact hs.deliverAt _

theorem Muted.reject (h : Muted minimum r r') (op : Operation) (e : RouterError) (context : Context) :
    Muted minimum (r.reject op e context) (r'.reject op e context) := by
  obtain ⟨hn⟩ := h
  exact (Muted.count (.intro hn) .countRejected).log _

theorem Muted.serve (h : Muted minimum r r') (x : Handle) (request : Engine.Request)
    (context : Context) : Done minimum (r.serve x request context) (r'.serve x request context) := by
  have hc := h.record (.engine x request context)
  simp only [Router.serve]
  rw [hc.collaborators]
  split
  · exact hc.result ..
  · have hr := hc.result context none
    refine ⟨?_, hr.2⟩
    exact hr.map (fun r cell => { r with owedByEngine := r.owedByEngine ++ [cell] }) fun _ _ _ => rfl

theorem Muted.send (h : Muted minimum r r') (address : SocketAddress) (database : String)
    (q : Engine.Read) : Done minimum (r.send address database q) (r'.send address database q) := by
  have hc := h.record (.client address database q)
  have hk : (r'.record _).collaborators.client address database q =
      (r.record _).collaborators.client address database q :=
    congrArg (·.client address database q) hc.collaborators
  simp only [Router.send]
  rw [hk]
  split
  · obtain ⟨ha, hcell⟩ := hc.net.addCell ⟨none, some (.ofTransport _)⟩
    exact ⟨hc.through ha, hcell⟩
  · obtain ⟨ha, hcell⟩ := hc.net.addCell ⟨none, none⟩
    have hd : Done minimum ({ r.record _ with net := _ }, _) ({ r'.record _ with net := _ }, _) :=
      ⟨hc.through ha, hcell⟩
    refine ⟨?_, hcell⟩
    exact hd.map (fun r cell => { r with owedByClient := r.owedByClient ++ [(q, cell)] })
      fun _ _ _ => rfl

theorem Muted.forward (h : Muted minimum r r') (address : SocketAddress) (database : String)
    (q : Engine.Read) (context : Context) :
    Done minimum (r.forward address database q context)
      (r'.forwardWith (Network.deliverAt minimum) address database q context) := by
  obtain ⟨hs, hcell⟩ := h.send address database q
  simp only [Router.forward, Router.forwardWith]
  rw [← hcell]
  obtain ⟨⟨ha, hf⟩, hn⟩ := hs.net.addAdapted (r.send address database q).2 context
  rw [← hf, ← hn]
  exact ⟨(hs.through (ha.deliverAt _)).register _ _, rfl⟩

theorem Muted.read (h : Muted minimum r r') (q : Engine.Read) (context : Context) :
    Done minimum (r.read q context) (r'.readWith (Network.deliverAt minimum) q context) := by
  obtain ⟨hr, ht⟩ := h.resolve q.operation
  simp only [Router.read, Router.readWith]
  rw [← ht]
  generalize (r.resolve q.operation).1 = s, (r'.resolve q.operation).1 = s' at hr
  have hs := hr
  obtain ⟨hn⟩ := hr
  split
  · exact (hs.reject ..).failed ..
  · exact ((hs.count .countLocalRead).log _).serve ..
  · exact ((hs.count .countRemoteRead).log _).forward ..

theorem Muted.localOnly (h : Muted minimum r r') (op : Operation) (context : Context) :
    Done minimum (r.localOnly op context) (r'.localOnly op context) := by
  obtain ⟨hr, ht⟩ := h.resolve op
  simp only [Router.localOnly]
  rw [← ht]
  generalize (r.resolve op).1 = s, (r'.resolve op).1 = s' at hr
  have hs := hr
  obtain ⟨hn⟩ := hr
  split
  · exact ⟨hs.reject .., rfl⟩
  · exact ⟨hs, rfl⟩
  · exact ⟨(hs.count .countUnsupported).log _, rfl⟩

theorem Muted.userDefined (h : Muted minimum r r') (u : Engine.UserLookup) (context : Context) :
    Done minimum (r.userDefined u context) (r'.userDefined u context) := by
  obtain ⟨hl, hf⟩ := h.localOnly .userDefinedLookup context
  simp only [Router.userDefined]
  rw [← hf]
  split
  · exact hl.failed ..
  · exact hl.serve ..

theorem Muted.drawn (h : Muted minimum r r') (token : Option Result.TokenValue) :
    Muted minimum { r with net := (r.net.freshContext token).1 }
        { r' with net := (r'.net.freshContext token).1 } ∧
      (r.net.freshContext token).2 = (r'.net.freshContext token).2 := by
  obtain ⟨hf, hc⟩ := h.net.freshContext token
  exact ⟨h.through hf, hc⟩

theorem Muted.comparators (h : Muted minimum r r') : Done minimum r.comparators r'.comparators := by
  obtain ⟨hd, hc⟩ := h.drawn none
  obtain ⟨hl, hf⟩ := hd.localOnly .comparators (r.net.freshContext none).2
  simp only [Router.comparators]
  rw [← hc, ← hf]
  split
  · exact ⟨hl, rfl⟩
  · refine ⟨hl.record _, ?_⟩
    simp only [hl.collaborators]

theorem Muted.insert (h : Muted minimum r r') (group : Engine.InsertGroup) (context : Context) :
    Done minimum (r.insert group context) (r'.insert group context) := by
  obtain ⟨ha, hs⟩ := h.ask
  simp only [Router.insert]
  rw [h.stopped, h.name, ← hs]
  generalize r.ask.1 = s, r'.ask.1 = s' at ha
  split
  · exact h.failed ..
  · split
    · exact (ha.reject ..).failed ..
    · have hw := ((ha.count .countWrite).log (.of .writeDispatched [("database", s.name),
        ("records", Text.numeral group.size), ("payload", Engine.Payload.insert.name),
        ("request_id", context.id.text)])).record (.persistence .insert group context)
      have hk : (Router.record _ _).collaborators.persistence .insert group context =
          (Router.record _ _).collaborators.persistence .insert group context :=
        congrArg (·.persistence .insert group context) hw.collaborators
      rw [ha.name, hk]
      split
      · exact hw.result ..
      · have hr := hw.result context none
        refine ⟨?_, hr.2⟩
        exact hr.map (fun r cell => { r with owedByPersistence := r.owedByPersistence ++ [cell] })
          fun _ _ _ => rfl

theorem Muted.createGroup (h : Muted minimum r r') : r'.createGroup = r.createGroup := by
  obtain ⟨h⟩ := h
  rfl

/-! ### Runs -/

theorem Muted.withContext (h : Muted minimum r r') (token : Option Result.TokenValue)
    {request request' : Router → Context → Router × Nat}
    (hr : ∀ {s s'} (_ : Muted minimum s s') (c : Context), Done minimum (request s c) (request' s' c)) :
    Done minimum (r.withContext token request) (r'.withContext token request') := by
  obtain ⟨hd, hc⟩ := h.drawn token
  obtain ⟨hq, hcell⟩ := hr hd (r.net.freshContext token).2
  simp only [Router.withContext]
  rw [← hc]
  refine ⟨hq, ?_⟩
  dsimp only
  rw [← hcell, hq.net.outcomeAt]

theorem Muted.settleOwed (h : Muted minimum r r') (cell : Option Nat)
    (o : Option (Outcome Engine.Reply)) :
    Done minimum (r.settleOwed cell o) (r'.settleOwedWith (Network.deliverAt minimum) cell o) := by
  cases cell with
  | none => exact ⟨h, rfl⟩
  | some cell =>
    simp only [Router.settleOwed, Router.settleOwedWith]
    rw [h.net.outcomeAt, h.net.contextAt]
    split
    · exact ⟨h, rfl⟩
    · split
      · exact ⟨h.complete .., rfl⟩
      · exact ⟨h.complete .., rfl⟩

theorem Muted.logAll (h : Muted minimum r r') (records : List Log.Record) :
    Muted minimum (r.logAll records) (r'.logAll records) := by
  induction records generalizing r r' with
  | nil => exact h
  | cons record records ih => exact ih (h.log record)

theorem Muted.perform (h : Muted minimum r r') (a : RouterAction) :
    Done minimum (r.perform a) (r'.performWith (Network.deliverAt minimum) a) := by
  cases a with
  | read q token => exact h.withContext token fun hs c => hs.read q c
  | userDefined u token => exact h.withContext token fun hs c => hs.userDefined u c
  | comparators =>
    obtain ⟨hc, ha⟩ := h.comparators
    exact ⟨hc, congrArg RouterAnswer.comparators ha⟩
  | insert group token => exact h.withContext token fun hs c => hs.insert group c
  | singleInsert index key value token =>
    exact h.withContext token fun hs c => by
      simp only [Router.singleInsert, hs.createGroup]
      exact hs.insert _ c
  | singleDelete index key token =>
    exact h.withContext token fun hs c => by
      simp only [Router.singleDelete, hs.createGroup]
      exact hs.insert _ c
  | forward address database q token =>
    exact h.withContext token fun hs c => hs.forward address database q c
  | plan op =>
    obtain ⟨hp, ha⟩ := h.plan op
    exact ⟨hp, congrArg RouterAnswer.plan ha⟩
  | resolve op =>
    obtain ⟨hr, ha⟩ := h.resolve op
    exact ⟨hr, congrArg RouterAnswer.target ha⟩
  | role =>
    obtain ⟨hs, ha⟩ := h.ask
    exact ⟨hs, congrArg RouterAnswer.role ha⟩
  | shutdown =>
    obtain ⟨hs, ha⟩ := h.shutdown
    exact ⟨hs, congrArg RouterAnswer.stopped ha⟩
  | setPrimary address =>
    have ho := h.map (fun r => { r with oracle := (r.oracle.setPrimary address).1 }) fun _ _ => rfl
    have hl := ho.logAll (r.oracle.setPrimary address).2
    obtain ⟨hn⟩ := h
    exact ⟨hl, rfl⟩
  | clearPrimary =>
    have ho := h.map (fun r => { r with oracle := r.oracle.clearPrimary.1 }) fun _ _ => rfl
    have hl := ho.logAll r.oracle.clearPrimary.2
    obtain ⟨hn⟩ := h
    exact ⟨hl, rfl⟩
  | replace collaborators =>
    exact ⟨h.map (fun r => { r with collaborators := collaborators }) fun _ _ => rfl, rfl⟩
  | interrupt i =>
    exact ⟨h.map (fun r => { r with interruption := some i }) fun _ _ => rfl, rfl⟩
  | engineAnswers n reply =>
    have hs := h.settleOwed r.owedByEngine[n]? (reply.map .ofRouted)
    obtain ⟨hn⟩ := h
    exact hs
  | clientAnswers n reply =>
    have hs := h.settleOwed (r.owedByClient[n]?.map (·.2)) (reply.map .ofTransport)
    obtain ⟨hn⟩ := h
    exact hs
  | persistenceAnswers n reply =>
    have hs := h.settleOwed r.owedByPersistence[n]? (reply.map .ofRouted)
    obtain ⟨hn⟩ := h
    exact hs
  | listen cell tag => exact ⟨h.register .., rfl⟩
  | poll cell => exact ⟨h, congrArg RouterAnswer.outcome (h.net.outcomeAt cell).symm⟩

theorem Muted.runAt (h : Muted minimum r r') (as : List RouterAction) :
    r'.runAt minimum as = ((r.run as).1.thin minimum, (r.run as).2) := by
  induction as generalizing r r' with
  | nil => exact congrArg (·, []) h.thin_eq.symm
  | cons a as ih =>
    obtain ⟨hp, ha⟩ := h.perform a
    have hr := ih hp.thin
    rw [Router.runAt, Router.run]
    dsimp only
    rw [hr, ha]

end Muted

theorem runAt_eq (minimum : Log.Severity) (r : Router) (as : List RouterAction) :
    r.runAt minimum as = (muting.thin minimum (r.run as).1, (r.run as).2) :=
  (Muted.refl r).runAt as

end Router
end ReplicaRouting
