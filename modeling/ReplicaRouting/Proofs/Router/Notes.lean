import ReplicaRouting.Proofs.Router.Owing
/-!
What a router notes down of its decisions, and what leaves a look at a router unchanged: the search for a
target does, if the look overlooks handles and attachments, and deliveries do, if it overlooks cells and
listeners.
-/

namespace ReplicaRouting

open Net (SocketAddress)
open Relation (ReflTransGen)
open Result (Context Outcome Listener Ledger Machine Network)

/-! ### Decisions -/

/-- What a router decides about a call. -/
inductive Decision
  | here
  | away (primary : SocketAddress)
  | rejected (e : RouterError)
  | unsupported (primary : SocketAddress)
  | written (records : Nat)

namespace Decision

def event : Decision → Log.Event
  | .here => .routeLocal
  | .away _ => .routeRemote
  | .rejected _ => .routeRejected
  | .unsupported _ => .routeUnsupported
  | .written _ => .writeDispatched

def count : Decision → Metrics → Metrics
  | .here => .countLocalRead
  | .away _ => .countRemoteRead
  | .rejected _ => .countRejected
  | .unsupported _ => .countUnsupported
  | .written _ => .countWrite

def record (d : Decision) (database : String) (op : Operation) (context : Context) : Log.Record :=
  .of d.event <|
    match d with
    | .here => [("database", database), ("op", op.name), ("request_id", context.id.text)]
    | .away primary | .unsupported primary => [("database", database), ("op", op.name),
        ("primary", primary.text), ("request_id", context.id.text)]
    | .rejected e => [("database", database), ("op", op.name), ("code", e.code.name),
        ("error", e.text), ("request_id", context.id.text)]
    | .written records => [("database", database), ("records", Text.numeral records),
        ("payload", Engine.Payload.insert.name), ("request_id", context.id.text)]

end Decision

namespace Router

/-- The router once a decision was counted and logged. -/
def note (r : Router) (d : Decision) (op : Operation) (context : Context) : Router :=
  (r.count d.count).log (d.record r.name op context)

theorem Keeps.note {r r' : Router} (hk : r.Keeps r') (d : Decision) (op : Operation)
    (context : Context) : r.Keeps (r'.note d op context) :=
  (hk.count _).log _

def drawn (r : Router) (token : Option Result.TokenValue) : Router :=
  { r with net := (r.net.freshContext token).1 }

def answered (made : Router × Nat) : Router × RouterAnswer :=
  (made.1, .result made.2 (made.1.net.outcomeAt made.2))

/-! ### The search for a target -/

/-- Overlooks handles, shutdowns, news of the primary and the calls that look for a handle. -/
structure Apart (look : Router → α) : Prop where
  attached : ∀ r handle, look { r with handle := handle } = look r
  stopped : ∀ r handle, look { r with stopped := true, handle := handle } = look r
  asked : ∀ r interruption, look { r with interruption := interruption } = look r
  announced : ∀ r oracle, look { r with oracle := oracle } = look r
  called : ∀ r c, (∃ name, c = .catalog name) ∨ (∃ h, c = .stop h) → look (r.record c) = look r
  counted : ∀ r, look (r.count .countAttachment) = look r
  logged : ∀ r e fields, e ∈ [.localAttached, .shutdown, .primaryChanged, .primaryLost] →
    look (r.log (.of e fields)) = look r

section Apart
variable {look : Router → α} (h : Apart look) (r : Router)
include h

theorem Apart.shutdown : look r.shutdown.1 = look r := by
  have hs : ∀ fields, look ({ r with stopped := true, handle := none }.log
      (.of .shutdown fields)) = look r :=
    fun fields => (h.logged _ _ _ (by decide)).trans (h.stopped r none)
  unfold Router.shutdown
  split
  · rfl
  · dsimp only
    split
    · exact (h.called _ _ (.inr ⟨_, rfl⟩)).trans (hs _)
    · exact hs _

theorem Apart.attach : look r.attach.1 = look r := by
  have ha : look (r.record (.catalog r.name)) = look r := h.called r _ (.inl ⟨_, rfl⟩)
  unfold Router.attach
  split
  · rfl
  · split
    · rfl
    · dsimp only
      split
      · exact ha
      · refine (h.logged _ _ _ (by decide)).trans ((h.counted _).trans ?_)
        exact (h.attached _ _).trans ha

theorem Apart.follow (handle : Option Handle) (plan : Plan) :
    look (r.follow handle plan).1 = look r := by
  unfold Router.follow
  split
  · rfl
  · rfl
  · rfl
  · exact h.attach r

variable {r} in
theorem Apart.resolveWith {ask : Router → Router × Snapshot} (ha : look (ask r).1 = look r)
    (op : Operation) : look (Router.resolveWith ask r op).1 = look r := by
  unfold Router.resolveWith
  split
  · rfl
  · exact (h.follow ..).trans ha

theorem Apart.ask : look r.ask.1 = look r := by
  show look r.interrupt = _
  unfold Router.interrupt
  split
  · rfl
  · exact (h.shutdown _).trans (h.asked r none)
  · exact (h.resolveWith (r := { r with interruption := none }) rfl _).trans (h.asked r none)

theorem Apart.resolve (op : Operation) : look (r.resolve op).1 = look r :=
  h.resolveWith (h.ask r) op

theorem Apart.logAll {records : List Log.Record} (hx : ∀ x ∈ records, ∃ e fields,
    x = .of e fields ∧ e ∈ [Log.Event.primaryChanged, .primaryLost]) :
    look (r.logAll records) = look r := by
  unfold Router.logAll
  induction records generalizing r with
  | nil => rfl
  | cons x records ih =>
    obtain ⟨⟨e, fields, rfl, he⟩, hrest⟩ := List.forall_mem_cons.mp hx
    exact (ih (r.log _) hrest).trans (h.logged r e fields (List.mem_append_right [_, _] he))

theorem Apart.setPrimary (address : SocketAddress) :
    look (r.perform (.setPrimary address)).1 = look r := by
  refine (h.logAll { r with oracle := (r.oracle.setPrimary address).1 } ?_).trans (h.announced r _)
  cases r.oracle with
  | custom primary own => exact List.forall_mem_nil _
  | shared state =>
    simp only [Oracle.setPrimary, RoleState.setPrimary]
    split
    · exact List.forall_mem_nil _
    · exact fun x hx => ⟨_, _, List.mem_singleton.mp hx, by decide⟩

theorem Apart.clearPrimary : look (r.perform .clearPrimary).1 = look r := by
  refine (h.logAll { r with oracle := r.oracle.clearPrimary.1 } ?_).trans (h.announced r _)
  cases r.oracle with
  | custom primary own => exact List.forall_mem_nil _
  | shared state =>
    simp only [Oracle.clearPrimary, RoleState.clearPrimary]
    cases state.primary with
    | none => exact List.forall_mem_nil _
    | some p => exact fun x hx => ⟨_, _, List.mem_singleton.mp hx, by decide⟩

end Apart

theorem apart_calls {f : Call → Option α} (hcatalog : ∀ name, f (.catalog name) = none)
    (hstop : ∀ h, f (.stop h) = none) : Apart fun r => r.calls.filterMap f := by
  refine ⟨fun _ _ => rfl, fun _ _ => rfl, fun _ _ => rfl, fun _ _ => rfl, fun r c hc => ?_,
    fun _ => rfl, fun _ _ _ _ => rfl⟩
  show (r.calls ++ [c]).filterMap f = _
  rw [List.filterMap_append, List.filterMap_cons]
  obtain ⟨name, rfl⟩ | ⟨handle, rfl⟩ := hc
  · rw [hcatalog]
    exact List.append_nil _
  · rw [hstop]
    exact List.append_nil _

/-! ### Deliveries -/

variable {r : Router}

/-- A delivery to the listeners of a router runs no scripts. -/
theorem Tidy.settle_idle (hr : r.Tidy) (cell : Nat) (o : Outcome Engine.Reply) :
    Machine.Idle ⟨(r.net.settle cell o).1, (r.net.settle cell o).2.1, .nothing⟩ := by
  refine ⟨fun x hx => hr.idle x ?_, Machine.settle_isIdle r.net cell o⟩
  have hx : (Ledger.mk r.net []).Has x := by
    refine Ledger.has_settle ⟨r.net, []⟩ cell o ?_
    rw [Ledger.after_rest]
    exact hx
  rcases hx with hx | ⟨d, hd, -⟩
  · exact hx
  · cases hd

theorem Tidy.register_idle (hr : r.Tidy) (cell : Nat) {l : Listener Engine.Reply} (hl : l.IsIdle) :
    Machine.Idle ⟨(r.net.register cell l).1, (r.net.register cell l).2, .nothing⟩ := by
  obtain ⟨v, -, hh, hv⟩ := Ledger.register_calm r.net cell l
  refine ⟨fun x hx => ?_, Machine.register_isIdle r.net cell hl⟩
  rcases hh x (hv.has x hx) with hx | rfl
  · exact hr.idle x hx
  · exact hl

theorem Tidy.adapt_idle (hr : r.Tidy) (source : Nat) (context : Context) :
    Machine.Idle ⟨(r.net.addAdapted source context).1.1, (r.net.addAdapted source context).1.2, .nothing⟩ := by
  have hm : r.Leads { r with net := (r.net.addCell ⟨some context, none⟩).1 } :=
    hr.made ⟨some context, none⟩ rfl rfl rfl fun _ h => .inl h
  exact hm.tidy.register_idle source (l := .adapter r.net.cells.length) trivial

/-- Overlooks cells, listeners and all that comes of a delivery. -/
structure Deaf (look : Network Engine.Reply → α) : Prop where
  addCell : ∀ n c, look (n.addCell c).1 = look n
  settle : ∀ n cell o, look (n.settle cell o).1 = look n
  start : ∀ n x o context, look (n.start x o context).1 = look n
  register : ∀ n cell l, look (n.register cell l).1 = look n
  answered : ∀ n tag answer, look (n.emit (.answered tag answer)) = look n
  panicked : ∀ n fields, look (n.log (.of .listenerPanicked fields)) = look n

section Deaf
variable {look : Network Engine.Reply → α} (h : Deaf look)
include h

theorem Deaf.map (f : α → β) : Deaf fun n => f (look n) :=
  ⟨fun n c => congrArg f (h.addCell n c), fun n cell o => congrArg f (h.settle n cell o),
    fun n x o context => congrArg f (h.start n x o context), fun n cell l => congrArg f (h.register n cell l),
    fun n tag answer => congrArg f (h.answered n tag answer), fun n fields => congrArg f (h.panicked n fields)⟩

theorem Deaf.turns {v v' : Ledger Engine.Reply} (ht : ReflTransGen Ledger.Turn v v') :
    look v'.network = look v.network := by
  induction ht with
  | refl => rfl
  | tail _ ht ih =>
    refine Eq.trans ?_ ih
    cases ht with
    | rest => rfl
    | answered tag answer => exact h.answered ..
    | panicked fields => exact h.panicked ..
    | start => exact h.start ..

theorem Deaf.deliver {n : Network Engine.Reply} {frames : List (Result.Frame Engine.Reply)}
    (hm : Machine.Idle ⟨n, frames, .nothing⟩) : look (n.deliver frames) = look n :=
  h.turns (Machine.deliver_turns hm)

theorem Deaf.serve (r : Router) (handle : Handle) (request : Engine.Request) (context : Context) :
    look (r.serve handle request context).1.net = look r.net := by
  unfold Router.serve
  dsimp only
  split <;> exact h.addCell ..

theorem Deaf.send (r : Router) (address : SocketAddress) (database : String) (q : Engine.Read) :
    look (r.send address database q).1.net = look r.net := by
  unfold Router.send
  dsimp only
  split <;> exact h.addCell ..

variable (hr : r.Tidy)
include hr

theorem Deaf.registerOn (cell : Nat) {l : Listener Engine.Reply} (hl : l.IsIdle) :
    look (r.register cell l).net = look r.net :=
  (h.deliver (hr.register_idle cell hl)).trans (h.register ..)

theorem Deaf.complete (cell : Nat) (o : Outcome Engine.Reply) :
    look (r.complete cell o).net = look r.net :=
  (h.deliver (hr.settle_idle cell o)).trans (h.settle ..)

theorem Deaf.settleOwed (cell : Option Nat) (o : Option (Outcome Engine.Reply)) :
    look (r.settleOwed cell o).1.net = look r.net := by
  unfold Router.settleOwed Router.settleOwedWith
  split
  · rfl
  · split
    · rfl
    · split
      · exact h.complete hr _ _
      · exact h.complete hr _ _

theorem Deaf.forward (address : SocketAddress) (database : String) (q : Engine.Read)
    (context : Context) : look (r.forward address database q context).1.net = look r.net := by
  have hs := hr.send address database q
  have hn := h.send r address database q
  unfold Router.forward Router.forwardWith
  generalize r.send address database q = sent at hs hn ⊢
  -- the cell of the result, then its adapter on the response, then the recorder on it
  have hc : sent.1.Leads { sent.1 with net := (sent.1.net.addCell ⟨some context, none⟩).1 } :=
    hs.tidy.made ⟨some context, none⟩ rfl rfl rfl fun _ h => .inl h
  have ha := h.registerOn hc.tidy sent.2 (l := .adapter sent.1.net.cells.length) trivial
  have ht := (hs.tidy.adapt sent.2 context).tidy
  refine (h.registerOn ht _ (l := .recorder ⟨database, address, context.id⟩) trivial).trans ?_
  exact ha.trans ((h.addCell ..).trans hn)

end Deaf
end Router
end ReplicaRouting
