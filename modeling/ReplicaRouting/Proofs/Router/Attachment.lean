import ReplicaRouting.Proofs.Router.Refusal
/-!
The local handle of a router. There is one at most, the handle that the router was made with or the first that
the catalog grants. It serves every local call until the shutdown releases it, and nothing takes its place.
-/

namespace ReplicaRouting

open Net (SocketAddress)
open Result (Context Outcome Network)

namespace Call

def servedBy? : Call → Option Handle
  | .engine h .. | .comparators h => some h
  | _ => none

def released? : Call → Option Handle
  | .stop h => some h
  | _ => none

def granted? (s : Collaborators) : Call → Option Handle
  | .catalog name => (s.catalog name).toOption
  | _ => none

/-- A call of these handles or of other nodes; it neither asks for a handle nor shuts one down. -/
def Uses (held : List Handle) : Call → Prop
  | .engine h .. | .comparators h => h ∈ held
  | .client .. | .persistence .. => True
  | .catalog _ | .stop _ => False

section Uses
variable {held : List Handle}

theorem Uses.served {c : Call} (h : c.Uses held) {x : Handle} (hx : c.servedBy? = some x) : x ∈ held := by
  cases c with
  | engine | comparators =>
    cases hx
    exact h
  | _ => cases hx

variable {cs : List Call} (h : ∀ c ∈ cs, c.Uses held)
include h

theorem released_of_uses : cs.filterMap (·.released?) = [] := by
  refine List.filterMap_eq_nil_iff.mpr fun c hc => ?_
  have hu := h c hc
  cases c with
  | stop => exact hu.elim
  | _ => rfl

theorem granted_of_uses (s : Collaborators) : cs.filterMap (·.granted? s) = [] := by
  refine List.filterMap_eq_nil_iff.mpr fun c hc => ?_
  have hu := h c hc
  cases c with
  | catalog => exact hu.elim
  | _ => rfl

end Uses
end Call

namespace RouterAction

/-- The operation whose target is sought, if that may be the local handle. -/
def seeks? : RouterAction → Option Operation
  | .read q _ => some q.operation
  | .userDefined .. => some .userDefinedLookup
  | .comparators => some .comparators
  | .resolve op => some op
  | _ => none

/-- The call that is made without a choice of the router's. -/
def sent? : RouterAction → Option Call
  | .forward address database q _ => some (.client address database q)
  | _ => none

def isQuiet : RouterAction → Bool
  | .setPrimary _ | .clearPrimary | .replace _ | .interrupt _ | .listen .. | .poll _ => true
  | .engineAnswers .. | .clientAnswers .. | .persistenceAnswers .. => true
  | _ => false

/-- Actions by the calls that they make. -/
inductive Kind : RouterAction → Prop
  | write {a : RouterAction} (token : Option Result.TokenValue) (h : a.request? = some (.insert, token)) : Kind a
  | lookup {a : RouterAction} (op : Operation) (token : Option Result.TokenValue)
      (h : a.request? = some (op, token)) (ho : op ≠ .insert) : Kind a
  | quiet {a : RouterAction} (h : a.isQuiet = true) : Kind a
  | forward (address : SocketAddress) (database : String) (q : Engine.Read)
      (token : Option Result.TokenValue) : Kind (.forward address database q token)
  | plan (op : Operation) : Kind (.plan op)
  | resolve (op : Operation) : Kind (.resolve op)
  | role : Kind .role
  | shutdown : Kind .shutdown

theorem kind (a : RouterAction) : a.Kind := by
  cases a with
  | read q token =>
    have ho : q.operation ≠ .insert := by cases q <;> nofun
    exact .lookup _ token rfl ho
  | userDefined u token => exact .lookup _ token rfl (by decide)
  | comparators => exact .lookup _ none rfl (by decide)
  | insert _ token | singleInsert _ _ _ token | singleDelete _ _ token => exact .write token rfl
  | forward => exact .forward ..
  | plan => exact .plan _
  | resolve => exact .resolve _
  | role => exact .role
  | shutdown => exact .shutdown
  | _ => exact .quiet rfl

end RouterAction

namespace Router

def attachments (r : Router) : UInt64 := r.net.metrics.localAttachments

def newCalls (r : Router) (a : RouterAction) : List Call := (r.perform a).1.calls.drop r.calls.length

def grantedIn (r : Router) : List RouterAction → List Handle
  | [] => []
  | a :: as => (r.newCalls a).filterMap (·.granted? r.collaborators) ++ (r.perform a).1.grantedIn as

/-- The handles that the router has had: the attached one and those that were shut down. -/
def held (r : Router) : List Handle := r.handle.toList ++ r.calls.filterMap (·.released?)

structure Tenure (r : Router) : Prop where
  once : r.held.length ≤ 1
  running : r.stopped = false → r.calls.filterMap (·.released?) = []
  released : r.stopped = true → r.handle = none
  served : ∀ c ∈ r.calls, ∀ h, c.servedBy? = some h → h ∈ r.held

/-- With these calls a router has become another, which accounts for its handle. -/
structure Holds (r : Router) (new : List Call) (r' : Router) : Prop where
  tenure : r'.Tenure
  calls : r'.calls = r.calls ++ new
  held : r'.held = r.held ++ new.filterMap (·.granted? r.collaborators)
  counted : r'.attachments =
    r.attachments + (new.filterMap (·.granted? r.collaborators)).length.toUInt64
  unasked : r'.stopped = true → ∀ name, .catalog name ∉ new

section Holds
variable {r r' r'' : Router} {new new' cs : List Call}

theorem Holds.trans (h : r.Holds new r') (h' : r'.Holds new' r'')
    (hc : r'.collaborators = r.collaborators) (hs : r''.stopped = r'.stopped) :
    r.Holds (new ++ new') r'' := by
  have hgranted : (new ++ new').filterMap (·.granted? r.collaborators) =
      new.filterMap (·.granted? r.collaborators) ++ new'.filterMap (·.granted? r.collaborators) :=
    List.filterMap_append
  refine ⟨h'.tenure, ?_, ?_, ?_, ?_⟩
  · rw [h'.calls, h.calls, List.append_assoc]
  · rw [h'.held, h.held, hc, List.append_assoc, hgranted]
  · rw [h'.counted, h.counted, hc, hgranted, List.length_append, UInt64.add_assoc]
    exact congrArg (r.attachments + ·) (UInt64.ofNat_add ..).symm
  · intro hstopped name hm
    rcases List.mem_append.mp hm with hm | hm
    · exact h.unasked (hs ▸ hstopped) name hm
    · exact h'.unasked hstopped name hm

theorem Tenure.uses (hr : r.Tenure) (hh : r'.handle = r.handle) (hs : r'.stopped = r.stopped)
    (hc : r'.calls = r.calls ++ cs) (ha : r'.attachments = r.attachments)
    (hu : ∀ c ∈ cs, c.Uses r.held) : r.Holds cs r' := by
  have hreleased : r'.calls.filterMap (·.released?) = r.calls.filterMap (·.released?) := by
    rw [hc, List.filterMap_append, Call.released_of_uses hu, List.append_nil]
  have hheld : r'.held = r.held := by rw [held, held, hh, hreleased]
  refine ⟨⟨?_, ?_, ?_, ?_⟩, hc, ?_, ?_, ?_⟩
  · exact hheld ▸ hr.once
  · rw [hs, hreleased]
    exact hr.running
  · rw [hs, hh]
    exact hr.released
  · intro c hm h hserved
    rw [hheld]
    rcases List.mem_append.mp (hc ▸ hm) with hm | hm
    · exact hr.served c hm h hserved
    · exact Call.Uses.served (hu c hm) hserved
  · rw [Call.granted_of_uses hu, List.append_nil, hheld]
  · rw [Call.granted_of_uses hu, ha]
    exact (UInt64.add_zero _).symm
  · exact fun _ name hm => hu _ hm

theorem Tenure.same (hr : r.Tenure) (hh : r'.handle = r.handle) (hs : r'.stopped = r.stopped)
    (hc : r'.calls = r.calls) (ha : r'.attachments = r.attachments) : r.Holds [] r' :=
  hr.uses hh hs (hc.trans (List.append_nil _).symm) ha (List.forall_mem_nil _)

theorem Tenure.held_running (hr : r.Tenure) (hs : r.stopped = false) : r.held = r.handle.toList := by
  rw [held, hr.running hs, List.append_nil]

/-! ### The shutdown -/

theorem shutdown_eq_self (hs : r.stopped = true) : r.shutdown = (r, .ok ()) := by
  rw [Router.shutdown, if_pos hs]

theorem shutdown_running (hs : r.stopped = false) :
    let done := r.shutdown
    done.1.stopped = true ∧ done.1.handle = none ∧
      done.1.calls = r.calls ++ r.handle.toList.map Call.stop ∧
      done.2 = r.handle.elim (.ok ()) r.collaborators.stop ∧ done.1.attachments = r.attachments := by
  unfold Router.shutdown
  rw [hs]
  cases r.handle with
  | none => exact ⟨rfl, rfl, (List.append_nil _).symm, rfl, rfl⟩
  | some x => exact ⟨rfl, rfl, rfl, rfl, rfl⟩

theorem Tenure.shutdown (hr : r.Tenure) : ∃ new, r.Holds new r.shutdown.1 := by
  cases hs : r.stopped with
  | true =>
    rw [shutdown_eq_self hs]
    exact ⟨[], hr.same rfl rfl rfl rfl⟩
  | false =>
    obtain ⟨hstopped, hhandle, hcalls, -, hattachments⟩ := shutdown_running hs
    have hmap : (r.handle.toList.map Call.stop).filterMap (·.released?) = r.handle.toList := by
      cases r.handle <;> rfl
    have hnone : (r.handle.toList.map Call.stop).filterMap (·.granted? r.collaborators) = [] := by
      cases r.handle <;> rfl
    -- the handle moves from the attached to those that were shut down
    have hreleased : r.shutdown.1.calls.filterMap (·.released?) = r.held := by
      rw [hcalls, List.filterMap_append, hr.running hs, List.nil_append, hmap, hr.held_running hs]
    have hheld : r.shutdown.1.held = r.held := by
      rw [held, hhandle, hreleased]
      rfl
    refine ⟨_, ⟨?_, ?_, fun _ => hhandle, ?_⟩, hcalls, ?_, ?_, ?_⟩
    · exact hheld ▸ hr.once
    · rw [hstopped]
      nofun
    · intro c hm h hserved
      rw [hheld]
      rcases List.mem_append.mp (hcalls ▸ hm) with hm | hm
      · exact hr.served c hm h hserved
      · obtain ⟨x, -, rfl⟩ := List.mem_map.mp hm
        cases hserved
    · rw [hnone, hheld, List.append_nil]
    · rw [hnone, hattachments]
      exact (UInt64.add_zero _).symm
    · intro _ name hm
      obtain ⟨x, -, hx⟩ := List.mem_map.mp hm
      cases hx

/-! ### The search for a target -/

theorem attach_asks (hs : r.stopped = false) (hh : r.handle = none) :
    let done := r.attach
    done.1.stopped = false ∧ done.1.handle = (r.collaborators.catalog r.name).toOption ∧
      done.1.calls = r.calls ++ [.catalog r.name] ∧ done.2 = r.collaborators.catalog r.name ∧
      done.1.attachments = r.attachments + done.1.handle.toList.length.toUInt64 := by
  unfold Router.attach
  rw [hs, hh]
  dsimp only
  cases r.collaborators.catalog r.name with
  | error e =>
    refine ⟨hs, hh, rfl, rfl, ?_⟩
    show r.attachments = r.attachments + r.handle.toList.length.toUInt64
    rw [hh]
    exact (UInt64.add_zero _).symm
  | ok x => exact ⟨hs, rfl, rfl, rfl, rfl⟩

/-- What the catalog grants is the only handle. -/
theorem Tenure.attached (hr : r.Tenure) (hs : r.stopped = false) (hh : r.handle = none)
    (hs' : r'.stopped = false) (hh' : r'.handle = (r.collaborators.catalog r.name).toOption)
    (hc : r'.calls = r.calls ++ [.catalog r.name])
    (ha : r'.attachments = r.attachments + r'.handle.toList.length.toUInt64) :
    r.Holds [.catalog r.name] r' := by
  have hnone : r.held = [] := by rw [hr.held_running hs, hh, Option.toList_none]
  have hreleased : r'.calls.filterMap (·.released?) = [] := by
    rw [hc, List.filterMap_append, hr.running hs]
    rfl
  have hheld : r'.held = r'.handle.toList := by rw [held, hreleased, List.append_nil]
  have hgranted : [Call.catalog r.name].filterMap (·.granted? r.collaborators) = r'.handle.toList := by
    rw [hh', List.filterMap_cons, Call.granted?]
    cases (r.collaborators.catalog r.name).toOption <;> rfl
  have hrunning : r'.stopped ≠ true := hs' ▸ Bool.false_ne_true
  refine ⟨⟨?_, fun _ => hreleased, fun h => absurd h hrunning, ?_⟩, hc, ?_, ?_, fun h => absurd h hrunning⟩
  · rw [hheld]
    exact Option.length_toList_le
  · -- nothing was served without a handle
    intro c hm h hserved
    rcases List.mem_append.mp (hc ▸ hm) with hm | hm
    · have hin := hr.served c hm h hserved
      rw [hnone] at hin
      cases hin
    · cases List.mem_singleton.mp hm
      cases hserved
  · rw [hgranted, hnone, hheld, List.nil_append]
  · rw [hgranted, ha]

theorem Tenure.attach (hr : r.Tenure) : (∃ new, r.Holds new r.attach.1) ∧
    r.attach.1.stopped = r.stopped ∧ ∀ h, r.attach.2 = .ok h → h ∈ r.attach.1.held := by
  have hself : ∃ new, r.Holds new r := ⟨[], hr.same rfl rfl rfl rfl⟩
  cases hs : r.stopped with
  | true =>
    rw [Router.attach, if_pos hs]
    exact ⟨hself, hs, nofun⟩
  | false =>
    cases hh : r.handle with
    | some x =>
      have hattach : r.attach = (r, .ok x) := by
        rw [Router.attach, hs, hh]
        rfl
      rw [hattach]
      refine ⟨hself, hs, ?_⟩
      rintro h ⟨⟩
      show x ∈ r.held
      rw [hr.held_running hs, hh]
      exact List.mem_singleton_self x
    | none =>
      obtain ⟨hs', hh', hc, hanswer, ha⟩ := attach_asks hs hh
      have hheld := hr.attached hs hh hs' hh' hc ha
      refine ⟨⟨_, hheld⟩, hs', fun h hok => ?_⟩
      rw [hheld.tenure.held_running hs', hh', ← hanswer, hok]
      exact List.mem_singleton_self h

theorem Tenure.follow (hr : r.Tenure) {handle : Option Handle} (hh : ∀ h, handle = some h → h ∈ r.held)
    (plan : Plan) : (∃ new, r.Holds new (r.follow handle plan).1) ∧
      (r.follow handle plan).1.stopped = r.stopped ∧
      ∀ h, (r.follow handle plan).2 = .ok (.engine h) → h ∈ (r.follow handle plan).1.held := by
  have hself : ∃ new, r.Holds new r := ⟨[], hr.same rfl rfl rfl rfl⟩
  unfold Router.follow
  split
  · exact ⟨hself, rfl, nofun⟩
  · exact ⟨hself, rfl, nofun⟩
  · refine ⟨hself, rfl, ?_⟩
    rintro h ⟨⟩
    exact hh _ rfl
  · obtain ⟨hholds, hs, hheld⟩ := hr.attach
    refine ⟨hholds, hs, fun h hok => hheld h ?_⟩
    have hok : r.attach.2.map Target.engine = .ok (.engine h) := hok
    cases hanswer : r.attach.2 with
    | error e =>
      rw [hanswer] at hok
      cases hok
    | ok x =>
      rw [hanswer] at hok
      cases hok
      rfl

theorem Holds.mem_held (h : r.Holds new r') {x : Handle} (hx : x ∈ r.held) : x ∈ r'.held := by
  rw [h.held]
  exact List.mem_append_left _ hx

theorem Tenure.resolveWith (hr : r.Tenure) (ask : Router → Router × Snapshot)
    (ha : ∃ new, r.Holds new (ask r).1) (hk : r.Keeps (ask r).1) (op : Operation) :
    (∃ new, r.Holds new (Router.resolveWith ask r op).1) ∧
      ∀ h, (Router.resolveWith ask r op).2 = .ok (.engine h) → h ∈ (Router.resolveWith ask r op).1.held := by
  unfold Router.resolveWith
  split
  · exact ⟨⟨[], hr.same rfl rfl rfl rfl⟩, nofun⟩
  · obtain ⟨new, hasked⟩ := ha
    -- the handle that was attached when the call began serves it, even if it is shut down meanwhile
    have hhandle : ∀ h, r.handle = some h → h ∈ (ask r).1.held := by
      intro h hh
      refine hasked.mem_held (List.mem_append_left _ ?_)
      rw [hh]
      exact List.mem_singleton_self h
    obtain ⟨⟨new', hfollowed⟩, hs, hheld⟩ := hasked.tenure.follow hhandle
      (.choose (ask r).2 r.policy op.access r.handle.isSome)
    exact ⟨⟨_, hasked.trans hfollowed (congrArg Setup.collaborators hk.setup) hs⟩, hheld⟩

theorem Holds.begun {s : Router} (h : s.Holds new r') (hheld : s.held = r.held) (hc : s.calls = r.calls)
    (ha : s.attachments = r.attachments) (hs : s.collaborators = r.collaborators) : r.Holds new r' :=
  ⟨h.tenure, hc ▸ h.calls, by rw [← hheld, ← hs]; exact h.held, by rw [← ha, ← hs]; exact h.counted,
    h.unasked⟩

theorem Tenure.ask (hr : r.Tenure) : ∃ new, r.Holds new r.ask.1 := by
  show ∃ new, r.Holds new r.interrupt
  have hi : r.Holds [] { r with interruption := none } := hr.same rfl rfl rfl rfl
  unfold interrupt
  split
  · exact ⟨[], hr.same rfl rfl rfl rfl⟩
  · obtain ⟨new, h⟩ := hi.tenure.shutdown
    exact ⟨new, h.begun rfl rfl rfl rfl⟩
  · rename_i op _
    have hself : ∃ new, { r with interruption := none }.Holds new { r with interruption := none } :=
      ⟨[], hi.tenure.same rfl rfl rfl rfl⟩
    obtain ⟨⟨new, h⟩, -⟩ := hi.tenure.resolveWith (fun r => (r, r.oracle.snapshot)) hself ⟨rfl, rfl⟩ op
    exact ⟨new, h.begun rfl rfl rfl rfl⟩

theorem Tenure.resolve (hr : r.Tenure) (op : Operation) :
    (∃ new, r.Holds new (r.resolve op).1) ∧
      ∀ h, (r.resolve op).2 = .ok (.engine h) → h ∈ (r.resolve op).1.held :=
  hr.resolveWith Router.ask hr.ask r.keeps_ask op

theorem Tenure.queried (hr : r.Tenure) : ∃ new, r.Holds new r.queried := by
  unfold Router.queried
  split
  · exact ⟨[], hr.same rfl rfl rfl rfl⟩
  · exact hr.ask

end Holds

/-! ### Attachments and contexts -/

theorem attachments_logAll (r : Router) (records : List Log.Record) :
    (r.logAll records).attachments = r.attachments := by
  unfold logAll
  induction records generalizing r with
  | nil => rfl
  | cons record records ih => exact ih (r.log record)

def tally (n : Network Engine.Reply) : UInt64 × Nat := (n.metrics.localAttachments, n.contexts)

theorem tally_settle (n : Network Engine.Reply) (cell : Nat) (o : Outcome Engine.Reply) :
    tally (n.settle cell o).1 = tally n := by
  obtain ⟨context, -, hs⟩ | hs := n.settle_cases cell o
  · rw [hs]
    rfl
  · rw [hs]

theorem tally_start (n : Network Engine.Reply) (x : Result.Registered Engine.Reply)
    (o : Outcome Engine.Reply) (context : Option Context) :
    tally (n.start x o context).1 = tally n := by
  obtain ⟨serial, cell, listener⟩ := x
  cases listener with
  | script | receiver => rfl
  | adapter into => exact tally_settle _ into o.adapt
  | recorder read =>
    cases o with
    | value v => rfl
    | failed f =>
      show ((n.metrics.countFailure f.routed.code).localAttachments, n.contexts) = tally n
      cases f.routed.code <;> rfl

theorem tally_deaf : Deaf tally := by
  refine ⟨fun _ _ => rfl, tally_settle, tally_start, fun n cell l => ?_, fun _ _ _ => rfl, fun _ _ => rfl⟩
  rcases n.register_cases cell l with ⟨-, h⟩ | ⟨o, -, h⟩
  · rw [h]
    rfl
  · rw [h]
    exact tally_start ..

theorem attachments_deaf : Deaf fun n => n.metrics.localAttachments := tally_deaf.map Prod.fst

theorem contexts_deaf : Deaf fun n => n.contexts := tally_deaf.map Prod.snd

theorem attachments_unnoted : Unnoted fun n => n.metrics.localAttachments := by
  intro r d op context
  cases d <;> rfl

theorem contexts_unnoted : Unnoted fun n => n.contexts := fun _ _ _ _ => rfl

/-! ### Whole runs -/

section Runs
variable {r r' s : Router} {new cs : List Call}

theorem callAt_uses {held : List Handle} (a : RouterAction) (database : String) (context : Context)
    {target : Except RouterError Target} (h : ∀ x, target = .ok (.engine x) → x ∈ held) :
    ∀ c ∈ (target.toOption.bind (a.callAt database context)).toList, c.Uses held := by
  intro c hc
  cases target with
  | error e => cases hc
  | ok target =>
    cases target with
    | engine x =>
      have hx : x ∈ held := h x rfl
      cases a with
      | read | userDefined | comparators =>
        rw [List.mem_singleton.mp hc]
        exact hx
      | _ => cases hc
    | remote address =>
      cases a with
      | read =>
        rw [List.mem_singleton.mp hc]
        trivial
      | _ => cases hc

theorem Holds.add (h : r.Holds new r') (hb : s.bearings = r'.bearings.add cs)
    (hc : r'.collaborators = r.collaborators) (ha : s.attachments = r'.attachments)
    (hu : ∀ c ∈ cs, c.Uses r'.held) : r.Holds (new ++ cs) s := by
  have hstopped : s.stopped = r'.stopped := congrArg Bearings.stopped hb
  have hused : r'.Holds cs s :=
    h.tenure.uses (congrArg Bearings.handle hb) hstopped (congrArg Bearings.calls hb) ha hu
  exact h.trans hused hc hstopped

theorem Tidy.perform_quiet (ht : r.Tidy) {a : RouterAction} (ha : a.isQuiet = true) :
    let r' := (r.perform a).1
    r'.handle = r.handle ∧ r'.stopped = r.stopped ∧ r'.calls = r.calls ∧
      r'.attachments = r.attachments := by
  have hlogged : ∀ oracle records, let r' := { r with oracle := oracle }.logAll records
      r'.handle = r.handle ∧ r'.stopped = r.stopped ∧ r'.calls = r.calls ∧
        r'.attachments = r.attachments := by
    intro oracle records
    have hb := bearings_logAll { r with oracle := oracle } records
    exact ⟨congrArg Bearings.handle hb, congrArg Bearings.stopped hb, congrArg Bearings.calls hb,
      attachments_logAll ..⟩
  have hsettled : ∀ cell o, let r' := (r.settleOwed cell o).1
      r'.handle = r.handle ∧ r'.stopped = r.stopped ∧ r'.calls = r.calls ∧
        r'.attachments = r.attachments := by
    intro cell o
    have hb := r.bearings_settleOwed cell o
    exact ⟨congrArg Bearings.handle hb, congrArg Bearings.stopped hb, congrArg Bearings.calls hb,
      attachments_deaf.settleOwed ht cell o⟩
  cases a with
  | setPrimary | clearPrimary => exact hlogged ..
  | engineAnswers | clientAnswers | persistenceAnswers => exact hsettled ..
  | listen cell tag => exact ⟨rfl, rfl, rfl, attachments_deaf.registerOn ht cell rfl⟩
  | replace | interrupt | poll => exact ⟨rfl, rfl, rfl, rfl⟩
  | _ => cases ha

/-- Whatever a router does, it accounts for its handle. -/
theorem Tenure.perform (hr : r.Tenure) (ht : r.Tidy) (a : RouterAction) :
    ∃ new, r.Holds new (r.perform a).1 := by
  have hdrawn : ∀ token, (r.drawn token).Tenure := by
    intro token
    have h : r.Holds [] (r.drawn token) := hr.same rfl rfl rfl rfl
    exact h.tenure
  cases a.kind with
  | write token ha =>
    obtain ⟨group, -, hd⟩ := r.perform_write ha
    obtain ⟨new, hnew⟩ := (hdrawn token).queried
    have hc : (r.drawn token).queried.collaborators = (r.drawn token).collaborators :=
      congrArg Setup.collaborators (r.drawn token).keeps_queried.setup
    have hadd := hnew.add (bearings_insert _ group (.make r.net.contexts token)) hc
      (attachments_unnoted.insert attachments_deaf ..) (by split <;> simp [Call.Uses])
    rw [hd]
    exact ⟨_, hadd.begun rfl rfl rfl rfl⟩
  | lookup op token ha ho =>
    obtain ⟨⟨new, hnew⟩, htarget⟩ := (hdrawn token).resolve op
    have hc : ((r.drawn token).resolve op).1.collaborators = (r.drawn token).collaborators :=
      congrArg Setup.collaborators ((r.drawn token).keeps_resolve op).setup
    have hadd := hnew.add (r.bearings_lookup ha ho) hc (attachments_unnoted.lookup attachments_deaf ht ha ho)
      (callAt_uses a r.name _ htarget)
    exact ⟨_, hadd.begun rfl rfl rfl rfl⟩
  | quiet hq =>
    obtain ⟨hh, hs, hc, hcounted⟩ := ht.perform_quiet hq
    exact ⟨[], hr.same hh hs hc hcounted⟩
  | forward address database q token =>
    have hb := (r.drawn token).bearings_forward address database q (.make r.net.contexts token)
    refine ⟨[.client address database q], hr.uses (congrArg Bearings.handle hb)
      (congrArg Bearings.stopped hb) (congrArg Bearings.calls hb) ?_ ?_⟩
    · exact attachments_deaf.forward (ht.fresh token).tidy address database q _
    · intro c hc
      rw [List.mem_singleton.mp hc]
      trivial
  | plan | role => exact hr.ask
  | resolve op => exact (hr.resolve op).1
  | shutdown => exact hr.shutdown

theorem newCalls_eq {a : RouterAction} (h : (r.perform a).1.calls = r.calls ++ cs) : r.newCalls a = cs := by
  rw [newCalls, h, List.drop_left]

theorem Tenure.run (hr : r.Tenure) (ht : r.Tidy) (as : List RouterAction) :
    let r' := (r.run as).1
    r'.Tenure ∧ r'.held = r.held ++ r.grantedIn as ∧
      r'.attachments = r.attachments + (r.grantedIn as).length.toUInt64 := by
  induction as generalizing r with
  | nil => exact ⟨hr, (List.append_nil _).symm, (UInt64.add_zero _).symm⟩
  | cons a as ih =>
    obtain ⟨new, h⟩ := hr.perform ht a
    obtain ⟨htenure, hheld, hcounted⟩ := ih h.tenure (ht.next a)
    refine ⟨htenure, ?_, ?_⟩
    · refine hheld.trans ?_
      rw [h.held, grantedIn, newCalls_eq h.calls, List.append_assoc]
    · refine hcounted.trans ?_
      rw [h.counted, grantedIn, newCalls_eq h.calls, List.length_append, UInt64.add_assoc]
      exact congrArg (r.attachments + ·) (UInt64.ofNat_add ..).symm

theorem New.tenure (h : r.New) : r.Tenure ∧ r.held = r.handle.toList ∧ r.attachments = 0 := by
  cases h with
  | make =>
    exact ⟨⟨Nat.zero_le _, fun _ => rfl, nofun, List.forall_mem_nil _⟩, rfl, rfl⟩
  | withHandle =>
    exact ⟨⟨Nat.le_refl _, fun _ => rfl, nofun, List.forall_mem_nil _⟩, rfl, rfl⟩

/-- A running router without a handle asks the catalog for it whenever it needs one. -/
theorem Tenure.resolve_asks (hr : r.Tenure) (hrun : r.Running) (hh : r.handle = none) {op : Operation}
    (hplan : Plan.choose r.oracle.snapshot r.policy op.access false = .attachFirst) :
    let r' := (r.resolve op).1
    (∃ sought, .catalog r.name ∈ sought ∧ r'.calls = r.calls ++ sought) ∧
      r'.handle = (r.collaborators.catalog r.name).toOption := by
  have ha := ask_attaches hrun
  obtain ⟨sought, hsought, -, hcalls⟩ := ha.calls
  have hname : r.ask.1.name = r.name := congrArg Setup.name ha.setup
  have hcatalog : r.ask.1.collaborators = r.collaborators := congrArg Setup.collaborators ha.setup
  have hr' : r.resolve op = (r.ask.1.attach.1, r.ask.1.attach.2.map .engine) := by
    rw [resolve_eq hrun, hh, Option.isSome_none, hplan]
    rfl
  rw [hr']
  cases hasked : r.ask.1.handle with
  | none =>
    obtain ⟨-, hhandle, hcatalogs, -⟩ := attach_asks ha.stopped hasked
    rw [hname] at hcatalogs
    rw [hname, hcatalog] at hhandle
    refine ⟨⟨sought ++ [.catalog r.name], List.mem_append_right _ (List.mem_singleton_self _), ?_⟩, hhandle⟩
    rw [hcatalogs, hcalls, List.append_assoc]
  | some x =>
    -- another call came between and was granted the handle
    have hattach : r.ask.1.attach = (r.ask.1, .ok x) := by
      rw [Router.attach, hasked, if_neg (by rw [ha.stopped]; exact Bool.false_ne_true)]
    have hlocal : r.collaborators.catalog r.name = .ok x := by
      have hl := ha.localHandle
      rw [Router.localHandle, Router.localHandle, hasked, hh] at hl
      exact hl.symm
    obtain ⟨new, hnew⟩ := hr.ask
    obtain rfl : sought = new := List.append_cancel_left (hcalls.symm.trans hnew.calls)
    have hheld : [x] = sought.filterMap (·.granted? r.collaborators) := by
      have hheld := hnew.held
      rw [hnew.tenure.held_running ha.stopped, hasked, hr.held_running hrun.1, hh] at hheld
      exact hheld
    rw [hattach, hlocal]
    refine ⟨⟨sought, ?_, hcalls⟩, hasked⟩
    cases sought with
    | nil => cases hheld
    | cons c rest =>
      rw [← hsought c List.mem_cons_self]
      exact List.mem_cons_self

theorem Tenure.perform_asks (hr : r.Tenure) {a : RouterAction} {op : Operation}
    (ha : a.seeks? = some op) (hrun : r.Running) (hh : r.handle = none)
    (hplan : Plan.choose r.oracle.snapshot r.policy op.access false = .attachFirst) :
    .catalog r.name ∈ r.newCalls a ∧
      (r.perform a).1.handle = (r.collaborators.catalog r.name).toOption := by
  have hlookup : ∀ token, a.request? = some (op, token) → op ≠ .insert →
      .catalog r.name ∈ r.newCalls a ∧
        (r.perform a).1.handle = (r.collaborators.catalog r.name).toOption := by
    intro token hrequest ho
    have hb := r.bearings_lookup hrequest ho
    have hdrawn : r.Holds [] (r.drawn token) := hr.same rfl rfl rfl rfl
    obtain ⟨⟨sought, hm, hcalls⟩, hhandle⟩ := hdrawn.tenure.resolve_asks hrun hh hplan
    have hc := congrArg Bearings.calls hb
    refine ⟨?_, (congrArg Bearings.handle hb).trans hhandle⟩
    rw [newCalls_eq (hc.trans ((congrArg (· ++ _) hcalls).trans (List.append_assoc ..)))]
    exact List.mem_append_left _ hm
  cases a with
  | read q token =>
    cases ha
    exact hlookup token rfl (by cases q <;> nofun)
  | userDefined u token =>
    cases ha
    exact hlookup token rfl (by decide)
  | comparators =>
    cases ha
    exact hlookup none rfl (by decide)
  | resolve op =>
    cases ha
    obtain ⟨⟨sought, hm, hcalls⟩, hhandle⟩ := hr.resolve_asks hrun hh hplan
    have hnew : r.newCalls (.resolve op) = sought := newCalls_eq hcalls
    exact ⟨hnew ▸ hm, hhandle⟩
  | _ => cases ha

/-! ### After the shutdown -/

theorem Tidy.perform_released (ht : r.Tidy) (hs : r.stopped = true) (hh : r.handle = none)
    (a : RouterAction) :
    let r' := (r.perform a).1
    r'.stopped = true ∧ r'.handle = none ∧ r'.calls = r.calls ++ a.sent?.toList := by
  -- asking for the primary may set off an interruption
  have hasked : r.ask.1.stopped = true ∧ r.ask.1.handle = none ∧ r.ask.1.calls = r.calls ++ [] := by
    show r.interrupt.stopped = true ∧ r.interrupt.handle = none ∧ r.interrupt.calls = r.calls ++ []
    rw [List.append_nil]
    unfold interrupt
    split
    · exact ⟨hs, hh, rfl⟩
    · rw [shutdown_eq_self (r := { r with interruption := none }) hs]
      exact ⟨hs, hh, rfl⟩
    · rw [Router.resolveWith, if_pos hs]
      exact ⟨hs, hh, rfl⟩
  have hrefused : ∀ op token, a.request? = some (op, token) → (r.perform a).1.stopped = true ∧
      (r.perform a).1.handle = none ∧ (r.perform a).1.calls = r.calls ++ a.sent?.toList := by
    intro op token ha
    have he : r.refusal? = some (.stopped r.name) := by rw [refusal?, if_pos hs]
    have hq : (r.drawn token).queried = r.drawn token := by
      rw [queried]
      exact if_pos hs
    have hb := (perform_refused ha he).1
    rw [hq] at hb
    have hnone : a.sent? = none := by
      cases a <;> first | rfl | cases ha
    refine ⟨(congrArg Bearings.stopped hb).trans hs, (congrArg Bearings.handle hb).trans hh, ?_⟩
    rw [hnone]
    exact (congrArg Bearings.calls hb).trans (List.append_nil _).symm
  cases a.kind with
  | write token ha => exact hrefused _ token ha
  | lookup op token ha ho => exact hrefused op token ha
  | quiet hq =>
    obtain ⟨hh', hs', hc, -⟩ := ht.perform_quiet hq
    have hnone : a.sent? = none := by
      cases a <;> first | rfl | cases hq
    rw [hnone]
    exact ⟨hs'.trans hs, hh'.trans hh, hc.trans (List.append_nil _).symm⟩
  | forward address database q token =>
    have hb := (r.drawn token).bearings_forward address database q (.make r.net.contexts token)
    exact ⟨(congrArg Bearings.stopped hb).trans hs, (congrArg Bearings.handle hb).trans hh,
      congrArg Bearings.calls hb⟩
  | plan | role => exact hasked
  | resolve op =>
    have hself : r.perform (.resolve op) = (r, .target (.error (.stopped r.name))) := by
      show (let done := r.resolve op; ((done.1, .target done.2) : Router × RouterAnswer)) = _
      rw [Router.resolve, Router.resolveWith, if_pos hs]
    rw [hself]
    exact ⟨hs, hh, (List.append_nil _).symm⟩
  | shutdown =>
    have hself : r.perform .shutdown = (r, .stopped (.ok ())) := by
      show (r.shutdown.1, RouterAnswer.stopped r.shutdown.2) = _
      rw [shutdown_eq_self hs]
    rw [hself]
    exact ⟨hs, hh, (List.append_nil _).symm⟩

theorem Tidy.run_released (ht : r.Tidy) (hs : r.stopped = true) (hh : r.handle = none)
    (as : List RouterAction) :
    let r' := (r.run as).1
    r'.stopped = true ∧ r'.handle = none ∧ r'.calls = r.calls ++ as.filterMap (·.sent?) := by
  induction as generalizing r with
  | nil => exact ⟨hs, hh, (List.append_nil _).symm⟩
  | cons a as ih =>
    obtain ⟨hs', hh', hcalls⟩ := ht.perform_released hs hh a
    obtain ⟨hs'', hh'', hcalls'⟩ := ih (ht.next a) hs' hh'
    have hcons : (a :: as).filterMap (·.sent?) = a.sent?.toList ++ as.filterMap (·.sent?) := by
      rw [List.filterMap_cons]
      cases a.sent? <;> rfl
    refine ⟨hs'', hh'', ?_⟩
    rw [hcons, ← List.append_assoc, ← hcalls]
    exact hcalls'

end Runs

/-- After any run a router has had one handle at most, the one that it was made with or the one that the
catalog has granted, and its attachments are those grants. While it runs that handle is attached; once it was
shut down the handle is no longer attached and was shut down once. All local calls were served by it. Without
a handle the router asks the catalog whenever a call is to be served here, and has what the catalog grants.
A shutdown, also one that falls into a call, is the last that happens to the handle: the catalog is not asked
in that action or any later one, and no call is made but those that are sent to a node of the caller's choice. -/
theorem run_keeps_handle {r₀ : Router} (h₀ : r₀.New) (before : List RouterAction) :
    let r := (r₀.run before).1
    let granted := r₀.grantedIn before
    let held := r₀.handle.toList ++ granted
    (held.length ≤ 1 ∧ r.attachments = granted.length.toUInt64 ∧
      r.handle = (if r.stopped then none else held.head?) ∧
      r.calls.filterMap (·.released?) = (if r.stopped then held else []) ∧
      ∀ c ∈ r.calls, ∀ h, c.servedBy? = some h → held = [h]) ∧
    (∀ a op, a.seeks? = some op → r.Running → r.handle = none →
      Plan.choose r.oracle.snapshot r.policy op.access false = .attachFirst →
      .catalog r.name ∈ r.newCalls a ∧
        (r.perform a).1.handle = (r.collaborators.catalog r.name).toOption) ∧
    (let done := r.perform .shutdown
      if r.stopped then done = (r, .stopped (.ok ()))
      else done.2 = .stopped (r.handle.elim (.ok ()) r.collaborators.stop) ∧ done.1.stopped = true ∧
        done.1.handle = none ∧ done.1.calls = r.calls ++ r.handle.toList.map Call.stop) ∧
    (∀ a, (r.perform a).1.stopped = true → (∀ name, .catalog name ∉ r.newCalls a) ∧
      ∀ later, let r' := ((r.perform a).1.run later).1
        r'.stopped = true ∧ r'.handle = none ∧
          r'.calls = (r.perform a).1.calls ++ later.filterMap (·.sent?)) := by
  intro r granted held
  obtain ⟨htenure₀, hheld₀, hcounted₀⟩ := h₀.tenure
  have ht : r.Tidy := (h₀.tidy.run before).1
  obtain ⟨hr, hheld, hcounted⟩ := htenure₀.run h₀.tidy before
  have hheld : r.held = held := by rw [hheld, hheld₀]
  have honce : held.length ≤ 1 := hheld ▸ hr.once
  refine ⟨⟨honce, ?_, ?_, ?_, ?_⟩, ?_, ?_, ?_⟩
  · rw [hcounted, hcounted₀]
    exact UInt64.zero_add _
  · rw [← hheld]
    cases hs : r.stopped with
    | true => exact hr.released hs
    | false =>
      rw [hr.held_running hs]
      exact Option.head?_toList.symm
  · rw [← hheld]
    cases hs : r.stopped with
    | true =>
      rw [Router.held, hr.released hs]
      rfl
    | false => exact hr.running hs
  · intro c hc h hserved
    have hm : h ∈ held := hheld ▸ hr.served c hc h hserved
    obtain ⟨x, hx⟩ := List.length_eq_one_iff.mp (Nat.le_antisymm honce (List.length_pos_of_mem hm))
    rw [hx] at hm ⊢
    rw [List.mem_singleton.mp hm]
  · exact fun a op ha hrun hh hplan => hr.perform_asks ha hrun hh hplan
  · intro done
    have hdone : done = (r.shutdown.1, .stopped r.shutdown.2) := rfl
    rw [hdone]
    split
    · rename_i hs
      rw [shutdown_eq_self hs]
    · rename_i hs
      obtain ⟨hs', hh', hcalls, hanswer, -⟩ := shutdown_running (Bool.not_eq_true _ ▸ hs)
      exact ⟨congrArg _ hanswer, hs', hh', hcalls⟩
  -- also when the shutdown came from within `a`, while it asked for the primary
  · intro a hs
    obtain ⟨new, hnew⟩ := hr.perform ht a
    have ht' : (r.perform a).1.Tidy := ht.next a
    refine ⟨newCalls_eq hnew.calls ▸ hnew.unasked hs, fun later => ?_⟩
    exact ht'.run_released hs (hnew.tenure.released hs) later

/-- The catalog fails at first and grants a handle then. A shutdown falls into the third read, which is still
served by the handle that it found; a fourth read finds none. -/
theorem run_keeps_handle_interrupted :
    let here : SocketAddress := ⟨.v4 10 0 0 1, 1⟩
    let lacking : Bench := { database := "accounts", catalog := none }
    let holding : Bench := { database := "accounts", catalog := some "accounts" }
    let r₀ := make "accounts" 1 .primaryOnly (.shared ⟨here, some here⟩) lacking.collaborators
    let h : Handle := ⟨"accounts", 0⟩
    let read : RouterAction := .read (.lookup 0 []) none
    let before : List RouterAction :=
      [read, .replace holding.collaborators, read, .interrupt .shutdown]
    let r := (r₀.run before).1
    r₀.grantedIn before = [h] ∧ r.attachments = 1 ∧ r.handle = some h ∧
      (∀ name, .catalog name ∉ r.newCalls read) ∧
      r.newCalls read = [.stop h, .engine h (.read (.lookup 0 [])) (.make 2 none)] ∧
      ((r.perform read).1.run [read]).1.calls = (r.perform read).1.calls := by
  intro here lacking holding r₀ h read before
  have hnew₀ : r₀.New := .make ..
  have hgranted : r₀.grantedIn before = [h] := by decide +kernel
  have hrunning : (r₀.run before).1.stopped = false := by decide +kernel
  have hstopped : ((r₀.run before).1.perform read).1.stopped = true := by decide +kernel
  have hnew : (r₀.run before).1.newCalls read =
      [.stop h, .engine h (.read (.lookup 0 [])) (.make 2 none)] := by decide +kernel
  obtain ⟨⟨-, hattachments, hhandle, -⟩, -, -, hreleased⟩ := run_keeps_handle hnew₀ before
  rw [hgranted] at hattachments hhandle
  generalize (r₀.run before).1 = r at *
  obtain ⟨hunasked, hlater⟩ := hreleased read hstopped
  obtain ⟨-, -, hcalls⟩ := hlater [read]
  rw [hrunning] at hhandle
  exact ⟨hgranted, hattachments, hhandle, hunasked, hnew, hcalls.trans (List.append_nil _)⟩

end Router
end ReplicaRouting
