import ReplicaRouting.Proofs.Router.Attachment
import ReplicaRouting.Proofs.Router.Awaiting
/-!
Writes. While a router runs and knows a primary, it hands each group to the persistence manager and to nobody
else; the policy, the place of the primary and the local handle have no part in it.
-/

namespace ReplicaRouting

open Net (SocketAddress)
open Result (Context Outcome Network)

namespace Engine.InsertGroup

def add (g : InsertGroup) (x : WriteRecord) : InsertGroup :=
  match x.value with
  | some value => g.insert x.index x.key value
  | none => g.delete x.index x.key

theorem add_eq (g : InsertGroup) (x : WriteRecord) : g.add x = ⟨g.database, g.records ++ [x]⟩ := by
  obtain ⟨index, key, value⟩ := x
  cases value <;> rfl

theorem foldl_add (g : InsertGroup) (records : List WriteRecord) :
    records.foldl add g = ⟨g.database, g.records ++ records⟩ := by
  induction records generalizing g with
  | nil => rw [List.foldl_nil, List.append_nil]
  | cons x records ih => rw [List.foldl_cons, ih, add_eq, List.append_assoc, List.singleton_append]

end Engine.InsertGroup

/-- What decides whether a router hands a group over, and in which context. -/
structure Footing where
  id : UInt32
  stopped : Bool
  interruption : Option Interruption
  known : Bool
  contexts : Nat

namespace Footing

def drawn (f : Footing) : Footing := { f with contexts := f.contexts + 1 }

def asked (f : Footing) : Footing :=
  { f with stopped := f.stopped || f.interruption == some .shutdown, interruption := none }

def sought (f : Footing) : Footing := if f.stopped then f else f.asked

end Footing

/-- What an action changes in the footing; neither a policy nor a handle has a part in it. -/
def RouterAction.moves (f : Footing) : RouterAction → Footing
  | .read .. | .userDefined .. | .comparators => f.drawn.sought
  | .insert .. | .singleInsert .. | .singleDelete .. => f.drawn.sought
  | .forward .. => f.drawn
  | .resolve _ => f.sought
  | .plan _ | .role => f.asked
  | .shutdown => { f with stopped := true }
  | .setPrimary _ => { f with known := true }
  | .clearPrimary => { f with known := false }
  | .interrupt i => { f with interruption := some i }
  | _ => f

def Call.isWrite : Call → Bool
  | .persistence .. => true
  | _ => false

namespace Router

def handed (r : Router) : List Call := r.calls.filter (·.isWrite)

/-- The call that hands over the group of an action. There is none if the router was shut down or knows no
primary. -/
def hands? (r : Router) (a : RouterAction) : Option Call :=
  if r.stopped || r.oracle.primary.isNone then none
  else
    match a.request?, a.group? r.id with
    | some (_, token), some group => some (.persistence .insert group (.make r.net.contexts token))
    | _, _ => none

def footing (r : Router) : Footing :=
  ⟨r.id, r.stopped, r.interruption, r.oracle.primary.isSome, r.net.contexts⟩

def handedIn (r : Router) : List RouterAction → List Call
  | [] => []
  | a :: as => (r.hands? a).toList ++ (r.perform a).1.handedIn as

section Handed
variable {r : Router}

theorem refusal?_eq_none : r.refusal? = none ↔ (r.stopped || r.oracle.primary.isNone) = false := by
  unfold refusal?
  cases r.stopped with
  | true => simp
  | false => cases r.oracle.primary <;> simp

theorem group?_eq_none {a : RouterAction} (h : ∀ token, a.request? ≠ some (.insert, token)) (id : UInt32) :
    a.group? id = none := by
  cases a with
  | insert | singleInsert | singleDelete => exact absurd rfl (h _)
  | _ => rfl

theorem hands?_eq_none {a : RouterAction} (h : ∀ token, a.request? ≠ some (.insert, token)) :
    r.hands? a = none := by
  unfold hands?
  rw [group?_eq_none h]
  split
  · rfl
  · split
    · rename_i hg
      cases hg
    · rfl

theorem hands?_write {a : RouterAction} {token : Option Result.TokenValue} {group : Engine.InsertGroup}
    (h : a.request? = some (.insert, token)) (hg : a.group? r.id = some group) :
    r.hands? a =
      if r.refusal?.isNone then some (.persistence .insert group (.make r.net.contexts token)) else none := by
  unfold hands?
  rw [h, hg]
  cases hn : r.stopped || r.oracle.primary.isNone with
  | false =>
    rw [refusal?_eq_none.mpr hn]
    rfl
  | true =>
    have he : r.refusal? ≠ none := fun he => Bool.false_ne_true ((refusal?_eq_none.mp he).symm.trans hn)
    rw [if_pos rfl, if_neg (by rwa [Option.isNone_iff_eq_none])]

/-! ### The calls of a run -/

theorem handed_apart : Apart handed := by
  refine ⟨fun _ _ => rfl, fun _ _ => rfl, fun _ _ => rfl, fun _ _ => rfl, fun r c hc => ?_,
    fun _ => rfl, fun _ _ _ _ => rfl⟩
  have hrecord : (r.record c).handed = r.handed ++ [c].filter (·.isWrite) := List.filter_append ..
  rw [hrecord]
  obtain ⟨name, rfl⟩ | ⟨handle, rfl⟩ := hc
  · exact List.append_nil _
  · exact List.append_nil _

theorem handed_queried (r : Router) : r.queried.handed = r.handed := by
  unfold queried
  split
  · rfl
  · exact handed_apart.ask r

theorem handed_add {r' : Router} {cs : List Call} (h : r'.bearings = r.bearings.add cs) :
    r'.handed = r.handed ++ cs.filter (·.isWrite) := by
  have hcalls : r'.calls = r.calls ++ cs := congrArg Bearings.calls h
  rw [handed, handed, hcalls, List.filter_append]

theorem callAt_isWrite (a : RouterAction) (database : String) (context : Context) (target : Target) :
    (a.callAt database context target).toList.filter (·.isWrite) = [] := by
  cases a <;> cases target <;> rfl

theorem bearings_write {a : RouterAction} {token : Option Result.TokenValue}
    (h : a.request? = some (.insert, token)) :
    (r.perform a).1.bearings = (r.drawn token).queried.bearings.add (r.hands? a).toList := by
  obtain ⟨group, hg, hd⟩ := r.perform_write h
  have hb := (r.drawn token).bearings_insert group (.make r.net.contexts token)
  rw [hd, hands?_write h hg]
  refine hb.trans ?_
  rw [refusal?_drawn]
  cases r.refusal? <;> rfl

theorem attachments_write {a : RouterAction} {token : Option Result.TokenValue}
    (h : a.request? = some (.insert, token)) :
    (r.perform a).1.attachments = (r.drawn token).queried.attachments := by
  obtain ⟨group, -, hd⟩ := r.perform_write h
  rw [hd]
  exact attachments_unnoted.insert attachments_deaf (r.drawn token) group (.make r.net.contexts token)

theorem Tidy.perform_hands (ht : r.Tidy) (a : RouterAction) :
    (r.perform a).1.handed = r.handed ++ (r.hands? a).toList := by
  have hother : (∀ token, a.request? ≠ some (.insert, token)) → (r.perform a).1.handed = r.handed →
      (r.perform a).1.handed = r.handed ++ (r.hands? a).toList := by
    intro hw hh
    rw [hands?_eq_none hw, hh]
    exact (List.append_nil _).symm
  cases a.kind with
  | write token ha =>
    obtain ⟨group, hg, -⟩ := r.perform_write ha
    rw [handed_add (bearings_write ha), handed_queried]
    refine congrArg (r.handed ++ ·) ?_
    rw [hands?_write ha hg]
    split <;> rfl
  | lookup op token ha ho =>
    refine hother (fun token' h => ?_) ?_
    · cases ha.symm.trans h
      exact ho rfl
    · rw [handed_add (r.bearings_lookup ha ho), handed_apart.resolve]
      refine (congrArg (r.handed ++ ·) ?_).trans (List.append_nil _)
      cases ((r.drawn token).resolve op).2 with
      | error e => rfl
      | ok target => exact callAt_isWrite ..
  | quiet hq =>
    obtain ⟨-, -, hcalls, -⟩ := ht.perform_quiet hq
    have hnone : a.request? = none := by
      cases a <;> first | rfl | cases hq
    refine hother (fun token h => by cases hnone.symm.trans h) ?_
    rw [handed, hcalls, handed]
  | forward address database q token =>
    have hb := (r.drawn token).bearings_forward address database q (.make r.net.contexts token)
    exact hother nofun ((handed_add hb).trans (List.append_nil _))
  | plan op => exact hother nofun (handed_apart.ask r)
  | resolve op => exact hother nofun (handed_apart.resolve r op)
  | role => exact hother nofun (handed_apart.ask r)
  | shutdown => exact hother nofun (handed_apart.shutdown r)

theorem Tidy.run_hands (ht : r.Tidy) (as : List RouterAction) :
    (r.run as).1.handed = r.handed ++ r.handedIn as := by
  induction as generalizing r with
  | nil => exact (List.append_nil _).symm
  | cons a as ih =>
    have hrest : ((r.perform a).1.run as).1.handed = (r.perform a).1.handed ++ (r.perform a).1.handedIn as :=
      ih (ht.next a)
    refine hrest.trans ?_
    rw [ht.perform_hands a, handedIn, List.append_assoc]

theorem New.handed (h : r.New) : r.handed = [] := by
  cases h <;> rfl

/-! ### The footing -/

theorem contexts_apart : Apart fun r => r.net.contexts :=
  ⟨fun _ _ => rfl, fun _ _ => rfl, fun _ _ => rfl, fun _ _ => rfl, fun _ _ _ => rfl, fun _ => rfl,
    fun _ _ _ _ => rfl⟩

theorem footing_add {r' : Router} {cs : List Call} (h : r'.bearings = r.bearings.add cs)
    (hc : r'.net.contexts = r.net.contexts) : r'.footing = r.footing := by
  have hsetup : r'.setup = r.setup := congrArg Bearings.setup h
  have hid : r'.id = r.id := congrArg Setup.id hsetup
  have horacle : r'.oracle = r.oracle := congrArg Setup.oracle hsetup
  have hstopped : r'.stopped = r.stopped := congrArg Bearings.stopped h
  have hinterruption : r'.interruption = r.interruption := congrArg Bearings.interruption h
  rw [footing, footing, hid, hstopped, hinterruption, horacle, hc]

theorem footing_shutdown (r : Router) : r.shutdown.1.footing = { r.footing with stopped := true } := by
  unfold Router.shutdown
  split
  · rename_i hs
    simp only [footing, hs]
  · dsimp only
    split <;> rfl

theorem footing_attach (r : Router) : r.attach.1.footing = r.footing := by
  unfold Router.attach
  split
  · rfl
  · split
    · rfl
    · dsimp only
      split <;> rfl

theorem footing_follow (r : Router) (handle : Option Handle) (plan : Plan) :
    (r.follow handle plan).1.footing = r.footing := by
  unfold Router.follow
  split
  · rfl
  · rfl
  · rfl
  · exact r.footing_attach

theorem footing_resolveWith (ask : Router → Router × Snapshot) (r : Router) (op : Operation) :
    (resolveWith ask r op).1.footing = if r.stopped then r.footing else (ask r).1.footing := by
  unfold Router.resolveWith
  split
  · rfl
  · exact footing_follow ..

theorem footing_ask (r : Router) : r.ask.1.footing = r.footing.asked := by
  show r.interrupt.footing = _
  unfold interrupt
  split
  · rename_i h
    simp [footing, Footing.asked, h]
  · rename_i h
    rw [footing_shutdown]
    simp [footing, Footing.asked, h]
  · rename_i op h
    rw [footing_resolveWith]
    simp [footing, Footing.asked, h]

theorem footing_resolve (r : Router) (op : Operation) : (r.resolve op).1.footing = r.footing.sought := by
  rw [resolve, footing_resolveWith, footing_ask]
  rfl

theorem footing_queried (r : Router) : r.queried.footing = r.footing.sought := by
  unfold queried Footing.sought
  show _ = if r.stopped then _ else _
  split
  · rfl
  · exact r.footing_ask

theorem Tidy.footing_request (ht : r.Tidy) {a : RouterAction} {op : Operation}
    {token : Option Result.TokenValue} (h : a.request? = some (op, token)) :
    (r.perform a).1.footing = r.footing.drawn.sought := by
  by_cases ho : op = .insert
  · subst ho
    obtain ⟨group, -, hd⟩ := r.perform_write h
    have hcontexts := contexts_unnoted.insert contexts_deaf (r.drawn token) group (.make r.net.contexts token)
    rw [hd]
    refine (footing_add (bearings_insert _ group (.make r.net.contexts token)) hcontexts).trans ?_
    exact (r.drawn token).footing_queried
  · have hcontexts := contexts_unnoted.lookup contexts_deaf ht h ho
    refine (footing_add (r.bearings_lookup h ho) hcontexts).trans ?_
    exact (r.drawn token).footing_resolve op

theorem footing_announced {a : RouterAction} {oracle : Oracle}
    (h : (r.perform a).1.bearings = { r with oracle := oracle }.bearings)
    (hc : (r.perform a).1.net.contexts = r.net.contexts) :
    (r.perform a).1.footing = { r.footing with known := (a.announces r.oracle.primary).isSome } := by
  have hid : (r.perform a).1.id = r.id := congrArg (fun b : Bearings => b.setup.id) h
  have hstopped : (r.perform a).1.stopped = r.stopped := congrArg Bearings.stopped h
  have hinterruption : (r.perform a).1.interruption = r.interruption := congrArg Bearings.interruption h
  rw [footing, hid, hstopped, hinterruption, primary_perform, hc]
  rfl

theorem Tidy.footing_perform (ht : r.Tidy) (a : RouterAction) :
    (r.perform a).1.footing = a.moves r.footing := by
  have hsettled : ∀ cell o, (r.settleOwed cell o).1.footing = r.footing := by
    intro cell o
    have hb := (r.bearings_settleOwed cell o).trans (Bearings.add_nil _).symm
    exact footing_add hb (contexts_deaf.settleOwed ht cell o)
  cases a with
  | read | userDefined | comparators | insert | singleInsert | singleDelete => exact ht.footing_request rfl
  | forward address database q token =>
    have hdrawn : (r.drawn token).Tidy := (ht.fresh token).tidy
    exact footing_add (bearings_forward (r.drawn token) ..)
      (contexts_deaf.forward hdrawn address database q (.make r.net.contexts token))
  | plan | role => exact r.footing_ask
  | resolve op => exact r.footing_resolve op
  | shutdown => exact r.footing_shutdown
  | setPrimary address => exact footing_announced (bearings_logAll ..) (contexts_apart.setPrimary r address)
  | clearPrimary => exact footing_announced (bearings_logAll ..) (contexts_apart.clearPrimary r)
  | engineAnswers | clientAnswers | persistenceAnswers => exact hsettled ..
  | listen cell tag => exact footing_add (Bearings.add_nil _).symm (contexts_deaf.registerOn ht cell rfl)
  | replace | interrupt | poll => rfl

theorem hands?_congr {r' : Router} (h : r.footing = r'.footing) (a : RouterAction) :
    r.hands? a = r'.hands? a := by
  obtain ⟨hid, hstopped, -, hknown, hcontexts⟩ := Footing.mk.inj h
  have hp : r.oracle.primary.isNone = r'.oracle.primary.isNone := by
    rw [← Option.not_isSome, ← Option.not_isSome, hknown]
  rw [hands?, hands?, hid, hstopped, hp, hcontexts]

/-- Routers on the same footing hand over the same in every run. -/
theorem Tidy.handedIn_congr {r' : Router} (ht : r.Tidy) (ht' : r'.Tidy) (h : r.footing = r'.footing)
    (as : List RouterAction) : r.handedIn as = r'.handedIn as := by
  induction as generalizing r r' with
  | nil => rfl
  | cons a as ih =>
    have hnext : (r.perform a).1.footing = (r'.perform a).1.footing := by
      rw [ht.footing_perform, ht'.footing_perform, h]
    have hrest : (r.perform a).1.handedIn as = (r'.perform a).1.handedIn as :=
      ih (ht.next a) (ht'.next a) hnext
    rw [handedIn, handedIn, hands?_congr h, hrest]

/-! ### The result of a write -/

/-- The result of a write that is not refused is the persistence manager's answer. -/
theorem Tidy.write_later (ht : r.Tidy) {a : RouterAction} {token : Option Result.TokenValue}
    {group : Engine.InsertGroup} (h : a.request? = some (.insert, token)) (hg : a.group? r.id = some group)
    (he : r.refusal? = none) :
    let context : Context := .make r.net.contexts token
    let done := r.perform a
    ∃ cell, done.2 = .result cell (done.1.net.outcomeAt cell) ∧
      done.1.net.contextAt cell = some context ∧
      ∀ later, (done.1.run later).1.net.outcomeAt cell =
        (r.collaborators.persistence .insert group context).persistedIn r.owedByPersistence.length later := by
  intro context done
  obtain ⟨group', hg', hd⟩ := r.perform_write h
  obtain rfl : group = group' := Option.some.inj (hg.symm.trans hg')
  have hk := (r.drawn token).keeps_queried
  have hq : (r.drawn token).queried.Tidy := ((ht.fresh token).tidy.keeps hk).tidy
  have hdone : done = answered ((r.drawn token).queried.dispatch group context) := by
    refine hd.trans ?_
    rw [insert_eq, refusal?_drawn, he]
  have hcollaborators : (r.drawn token).queried.collaborators = r.collaborators :=
    congrArg Setup.collaborators hk.setup
  have howed : (r.drawn token).queried.owedByPersistence = r.owedByPersistence :=
    congrArg Books.byPersistence hk.books
  rw [hdone, ← hcollaborators, ← howed]
  refine ⟨_, rfl, (hq.dispatch_later group context []).1, fun later => ?_⟩
  exact (hq.dispatch_later group context later).2

end Handed

/-! ### Two routers -/

def placed (r : Router) (policy : Policy) (oracle : Oracle) (handle : Option Handle) : Router :=
  { r with policy, oracle, handle }

/-- An action does the same wherever the router is placed. -/
structure SameWherever (r : Router) (a : RouterAction) (policy : Policy) (oracle : Oracle) (handle : Option Handle) :
    Prop where
  handed : (r.placed policy oracle handle).hands? a = r.hands? a
  answer : ((r.placed policy oracle handle).perform a).2 = (r.perform a).2
  books : ((r.placed policy oracle handle).perform a).1.books = (r.perform a).1.books
  state : r.interruption = none →
    ((r.placed policy oracle handle).perform a).1 = (r.perform a).1.placed policy oracle handle

section Placed
variable {r r' : Router} {policy : Policy} {oracle : Oracle} {handle : Option Handle}

theorem books_result (h : r.books = r'.books) (context : Context) (o : Option (Outcome Engine.Reply)) :
    (r.result context o).1.books = (r'.result context o).1.books ∧
      (r.result context o).2 = (r'.result context o).2 := by
  have hcells : r.net.cells = r'.net.cells := congrArg Books.cells h
  constructor
  · let made : Result.Cell Engine.Reply := ⟨some context, o⟩
    exact congrArg (fun b : Books => { b with cells := b.cells ++ [made] }) h
  · exact congrArg List.length hcells

theorem books_dispatch (h : r.books = r'.books) (hc : r.collaborators = r'.collaborators)
    (group : Engine.InsertGroup) (context : Context) :
    (r.dispatch group context).1.books = (r'.dispatch group context).1.books ∧
      (r.dispatch group context).2 = (r'.dispatch group context).2 := by
  let write : Call := .persistence .insert group context
  have hs : ((r.note (.written group.size) .insert context).record write).books =
      ((r'.note (.written group.size) .insert context).record write).books := h
  unfold dispatch
  rw [hc]
  cases r'.collaborators.persistence .insert group context with
  | settled reply => exact books_result hs ..
  | held =>
    obtain ⟨hbooks, hcell⟩ := books_result hs context none
    refine ⟨?_, hcell⟩
    exact congrArg₂ (fun (b : Books) cell => { b with byPersistence := b.byPersistence ++ [cell] })
      hbooks hcell

theorem books_refused (r : Router) (e : RouterError) (context : Context) :
    (if r.stopped then r else r.queried.reject .insert e context).books = r.books := by
  split
  · rfl
  · exact (r.keeps_queried.reject .insert e context).books

theorem books_insert (h : r.books = r'.books) (hc : r.collaborators = r'.collaborators)
    (he : r.refusal? = r'.refusal?) (group : Engine.InsertGroup) (context : Context) :
    (r.insert group context).1.books = (r'.insert group context).1.books ∧
      (r.insert group context).2 = (r'.insert group context).2 := by
  have hk := r.keeps_queried
  have hk' := r'.keeps_queried
  have hq : r.queried.books = r'.queried.books := hk.books.trans (h.trans hk'.books.symm)
  rw [insert_eq, insert_eq, he]
  cases r'.refusal? with
  | none =>
    have hcq : r.queried.collaborators = r'.queried.collaborators :=
      (congrArg Setup.collaborators hk.setup).trans (hc.trans (congrArg Setup.collaborators hk'.setup).symm)
    exact books_dispatch hq hcq ..
  | some e =>
    have hrefused := (r.books_refused e context).trans (h.trans (r'.books_refused e context).symm)
    exact books_result hrefused ..

theorem books_answered {made made' : Router × Nat} (h : made.1.books = made'.1.books)
    (hc : made.2 = made'.2) : (answered made).2 = (answered made').2 := by
  have hcells : made.1.net.cells = made'.1.net.cells := congrArg Books.cells h
  rw [answered, answered, hc, Result.Network.outcomeAt_congr hcells]

theorem dispatch_placed (group : Engine.InsertGroup) (context : Context) :
    (r.placed policy oracle handle).dispatch group context =
      ((r.dispatch group context).1.placed policy oracle handle, (r.dispatch group context).2) := by
  have hc : (r.placed policy oracle handle).collaborators = r.collaborators := rfl
  unfold dispatch
  rw [hc]
  cases r.collaborators.persistence .insert group context <;> rfl

variable (hp : oracle.primary.isSome = r.oracle.primary.isSome)
include hp

theorem footing_placed : (r.placed policy oracle handle).footing = r.footing :=
  congrArg (fun known => (⟨r.id, r.stopped, r.interruption, known, r.net.contexts⟩ : Footing)) hp

theorem refusal?_placed : (r.placed policy oracle handle).refusal? = r.refusal? := by
  have hn : oracle.primary.isNone = r.oracle.primary.isNone := by
    rw [← Option.not_isSome, ← Option.not_isSome, hp]
  show (if r.stopped then _ else if oracle.primary.isNone then _ else _) = _
  rw [hn]
  rfl

theorem insert_placed (hi : (r.stopped || r.interruption.isNone) = true) (group : Engine.InsertGroup)
    (context : Context) :
    (r.placed policy oracle handle).insert group context =
      ((r.insert group context).1.placed policy oracle handle, (r.insert group context).2) := by
  let other := r.placed policy oracle handle
  have hq : r.queried = r := queried_eq_self hi
  have hq' : other.queried = other := queried_eq_self hi
  show other.insert group context = _
  rw [insert_eq, insert_eq, refusal?_placed hp, hq, hq']
  cases r.refusal? with
  | none => exact dispatch_placed group context
  | some e =>
    show (if r.stopped then other else other.reject .insert e context).failed e context = _
    split <;> rfl

theorem perform_placed {a : RouterAction} {token : Option Result.TokenValue}
    (h : a.request? = some (.insert, token)) : r.SameWherever a policy oracle handle := by
  let other := r.placed policy oracle handle
  obtain ⟨group, hg, hd⟩ := r.perform_write h
  obtain ⟨group', hg', hd'⟩ := other.perform_write h
  obtain rfl : group = group' := Option.some.inj (hg.symm.trans hg')
  have he : other.refusal? = r.refusal? := refusal?_placed hp
  have hbooks : (other.drawn token).books = (r.drawn token).books := rfl
  obtain ⟨hb, hcell⟩ := books_insert hbooks rfl he group (.make r.net.contexts token)
  refine ⟨hands?_congr (footing_placed hp) a, ?_, ?_, fun hi => ?_⟩
  · rw [hd, hd']
    exact books_answered hb hcell
  · rw [hd, hd']
    exact hb
  · have hnone : (r.stopped || (none : Option Interruption).isNone) = true := by
      rw [Option.isNone_none, Bool.or_true]
    rw [hd, hd']
    exact congrArg Prod.fst (insert_placed (r := r.drawn token) hp (hi ▸ hnone) group _)

end Placed

/-- What a write comes to, with that which falls into it with the question to the oracle. It calls nobody but the
persistence manager, and its result is the answer of that, whenever it comes. -/
structure Writes (r : Router) (a : RouterAction) (token : Option Result.TokenValue) (group : Engine.InsertGroup) :
    Prop where
  bearings : (r.perform a).1.bearings = (r.drawn token).queried.bearings.add (r.hands? a).toList
  attachments : (r.perform a).1.attachments = (r.drawn token).queried.attachments
  alone : r.interruption = none → r.newCalls a = (r.hands? a).toList ∧ (r.perform a).1.handle = r.handle ∧
    (r.perform a).1.stopped = r.stopped ∧ (r.perform a).1.attachments = r.attachments
  handed : r.stopped = false → r.oracle.primary.isSome = true →
    r.hands? a = some (.persistence .insert group (.make r.net.contexts token))
  result : r.stopped = false → r.oracle.primary.isSome = true →
    ∃ cell, (r.perform a).2 = .result cell ((r.perform a).1.net.outcomeAt cell) ∧
      (r.perform a).1.net.contextAt cell = some (.make r.net.contexts token) ∧
      ∀ later, ((r.perform a).1.run later).1.net.outcomeAt cell =
        (r.collaborators.persistence .insert group (.make r.net.contexts token)).persistedIn
          r.owedByPersistence.length later

/-- After any run the persistence manager has received the groups of those writes that were asked for while
the router ran and knew a primary, each once and in the order of the requests, unchanged and with the context
of the request. All this is the same for every policy, whoever is primary, with a handle or without. -/
theorem run_hands_over {r₀ : Router} (h₀ : r₀.New) (before : List RouterAction) :
    let r := (r₀.run before).1
    r.calls.filter (·.isWrite) = r₀.handedIn before ∧
    (∀ records : List Engine.WriteRecord, records.foldl .add r.createGroup = ⟨r.id, records⟩) ∧
    (∀ a token group, a.request? = some (.insert, token) → a.group? r.id = some group → r.Writes a token group) ∧
    ∀ policy oracle handle, oracle.primary.isSome = r.oracle.primary.isSome →
      (∀ later, ((r.placed policy oracle handle).run later).1.calls.filter (·.isWrite) =
        (r.run later).1.calls.filter (·.isWrite)) ∧
      ∀ a token, a.request? = some (.insert, token) → r.SameWherever a policy oracle handle := by
  intro r
  have ht : r.Tidy := (h₀.tidy.run before).1
  refine ⟨?_, fun records => Engine.InsertGroup.foldl_add r.createGroup records, ?_, ?_⟩
  · have hrun := h₀.tidy.run_hands before
    rw [h₀.handed, List.nil_append] at hrun
    exact hrun
  · intro a token group ha hg
    have hb : (r.perform a).1.bearings = (r.drawn token).queried.bearings.add (r.hands? a).toList := bearings_write ha
    have hcount : (r.perform a).1.attachments = (r.drawn token).queried.attachments := attachments_write ha
    have haccepted : r.stopped = false → r.oracle.primary.isSome = true → r.refusal? = none := by
      intro hs hp
      rw [refusal?_eq_none, hs, Bool.false_or, ← Option.not_isSome, hp]
      rfl
    refine ⟨hb, hcount, fun hi => ?_, fun hs hp => ?_, fun hs hp => ht.write_later ha hg (haccepted hs hp)⟩
    · have hdue : ((r.drawn token).stopped || (r.drawn token).interruption.isNone) = true := by
        show (r.stopped || r.interruption.isNone) = true
        rw [hi, Option.isNone_none, Bool.or_true]
      rw [queried_eq_self hdue] at hb hcount
      exact ⟨newCalls_eq (congrArg Bearings.calls hb), congrArg Bearings.handle hb,
        congrArg Bearings.stopped hb, hcount⟩
    · rw [hands?_write ha hg, haccepted hs hp]
      rfl
  · intro policy oracle handle hp
    let other := r.placed policy oracle handle
    have hleads : r.Leads other := ht.of_books rfl
    have ht' : other.Tidy := hleads.tidy
    refine ⟨fun later => ?_, fun a token ha => perform_placed hp ha⟩
    -- policy, role and attachment have no part in what is handed over
    have hsame : other.handedIn later = r.handedIn later := ht'.handedIn_congr ht (footing_placed hp) later
    calc (other.run later).1.handed
      _ = r.handed ++ other.handedIn later := ht'.run_hands later
      _ = r.handed ++ r.handedIn later := by rw [hsame]
      _ = (r.run later).1.handed := (ht.run_hands later).symm

/-- A write is refused, a group of two records for another database is handed over while another node is
primary, and a single record when this node is. The persistence manager answers the last one later. -/
theorem run_hands_over_deleted :
    let here : SocketAddress := ⟨.v4 10 0 0 1, 1⟩
    let there : SocketAddress := ⟨.v4 10 0 0 2, 1⟩
    let bench : Bench := { database := "accounts", catalog := some "accounts", persistence := .hold }
    let r₀ := make "accounts" 1 .primaryOnly (.shared ⟨here, none⟩) bench.collaborators
    let records : List Engine.WriteRecord := [⟨0, [1], some [2]⟩, ⟨0, [3], none⟩]
    let before : List RouterAction :=
      [.singleInsert 0 [1] [2] none, .setPrimary there, .insert ⟨7, records⟩ (some (.number 17)),
        .setPrimary here]
    let a : RouterAction := .singleDelete 2 [1] none
    let r := (r₀.run before).1
    r.calls.filter (·.isWrite) = [.persistence .insert ⟨7, records⟩ (.make 1 (some (.number 17)))] ∧
      r.newCalls a = [.persistence .insert ⟨1, [⟨2, [1], none⟩]⟩ (.make 2 none)] ∧
      (r.perform a).1.handle = none ∧
      (∃ cell, (r.perform a).2 = .result cell ((r.perform a).1.net.outcomeAt cell) ∧
        ((r.perform a).1.run [.persistenceAnswers 1 (some (.ok .done))]).1.net.outcomeAt cell =
          some (.value .done)) ∧
      ((r.placed .unrestricted (.custom (some there) []) (some ⟨"accounts", 0⟩)).perform a).2 =
        (r.perform a).2 := by
  intro here there bench r₀ records before a
  have hnew₀ : r₀.New := .make ..
  have hhanded : r₀.handedIn before =
      [.persistence .insert ⟨7, records⟩ (.make 1 (some (.number 17)))] := by decide +kernel
  have hstopped : (r₀.run before).1.stopped = false := by decide +kernel
  have hprimary : (r₀.run before).1.oracle.primary = some here := by decide +kernel
  have hdue : (r₀.run before).1.interruption = none := by decide +kernel
  have hhandle : (r₀.run before).1.handle = none := by decide +kernel
  have hid : (r₀.run before).1.id = 1 := by decide +kernel
  have hcontexts : (r₀.run before).1.net.contexts = 2 := by decide +kernel
  have howed : (r₀.run before).1.owedByPersistence.length = 1 := by decide +kernel
  have hheld : (r₀.run before).1.collaborators = bench.collaborators := by rfl
  obtain ⟨hcalls, -, hwrites, hplaced⟩ := run_hands_over hnew₀ before
  rw [hhanded] at hcalls
  generalize (r₀.run before).1 = r at *
  have hw := hwrites a none ⟨r.id, [⟨2, [1], none⟩]⟩ rfl rfl
  obtain ⟨hnew, hkept, -, -⟩ := hw.alone hdue
  have hcall := hw.handed hstopped (by rw [hprimary]; rfl)
  obtain ⟨cell, hanswer, -, hlater⟩ := hw.result hstopped (by rw [hprimary]; rfl)
  refine ⟨hcalls, ?_, hkept.trans hhandle, ⟨cell, hanswer, ?_⟩, ?_⟩
  · rw [hnew, hcall, hid, hcontexts]
    rfl
  · rw [hlater, hheld, howed]
    rfl
  · exact ((hplaced _ _ _ (by rw [hprimary]; rfl)).2 a none rfl).answer

end Router
end ReplicaRouting
