import ReplicaRouting.Proofs.Result.Carried
import ReplicaRouting.Proofs.Router.Bearings
import ReplicaRouting.Proofs.Router.Sending
/-!
Requests with contexts of the caller. He draws a new one for a request or comes again with one that he has, and
whatever else is under way, contexts stay on their way: a cell keeps the one that it was made with.
-/

namespace ReplicaRouting

open Net (SocketAddress)
open Result (Context Outcome Listener Network Machine Ledger TokenValue)

/-- What is asked of a router: an action, or a request with a context that the caller has, perhaps of another
request. -/
inductive Errand
  | act (a : RouterAction)
  | again (a : RouterAction) (context : Context)

def RouterAction.token? : RouterAction → Option (Option TokenValue)
  | .read _ token | .userDefined _ token | .insert _ token | .singleInsert _ _ _ token | .singleDelete _ _ token
  | .forward _ _ _ token => some token
  | _ => none

def Call.context? : Call → Option Context
  | .engine _ _ context | .persistence _ _ context => some context
  | _ => none

namespace Router

def request (r : Router) (context : Context) : RouterAction → Option (Router × Nat)
  | .read q _ => some (r.read q context)
  | .userDefined u _ => some (r.userDefined u context)
  | .insert group _ => some (r.insert group context)
  | .singleInsert index key value _ => some (r.singleInsert index key value context)
  | .singleDelete index key _ => some (r.singleDelete index key context)
  | .forward address database q _ => some (r.forward address database q context)
  | _ => none

def errand (r : Router) : Errand → Router × RouterAnswer
  | .act a => r.perform a
  | .again a context => (r.request context a).elim (r, .nothing) answered

def errands (r : Router) : List Errand → Router × List RouterAnswer
  | [] => (r, [])
  | e :: es =>
    let done := r.errand e
    let rest := done.1.errands es
    (rest.1, done.2 :: rest.2)

/-- The context of a request: a new one, or the one with which the caller comes. -/
def contextOf (r : Router) : Errand → Option Context
  | .act a => a.token?.map (.make r.net.contexts ·)
  | .again a context => a.token?.map fun _ => context

def given (r : Router) : List Context := r.calls.filterMap (·.context?)

variable {r : Router}

theorem request_cases {context : Context} {a : RouterAction} {made : Router × Nat}
    (h : r.request context a = some made) :
    (∃ q, made = r.read q context) ∨ (∃ u, made = r.userDefined u context) ∨
      (∃ group, made = r.insert group context) ∨
        ∃ address database q, made = r.forward address database q context := by
  cases a with
  | read q token => exact .inl ⟨q, (Option.some.inj h).symm⟩
  | userDefined u token => exact .inr (.inl ⟨u, (Option.some.inj h).symm⟩)
  | insert group token => exact .inr (.inr (.inl ⟨group, (Option.some.inj h).symm⟩))
  | singleInsert index key value token => exact .inr (.inr (.inl ⟨_, (Option.some.inj h).symm⟩))
  | singleDelete index key token => exact .inr (.inr (.inl ⟨_, (Option.some.inj h).symm⟩))
  | forward address database q token =>
    exact .inr (.inr (.inr ⟨address, database, q, (Option.some.inj h).symm⟩))
  | _ => cases h

theorem request_of_token {a : RouterAction} {token : Option TokenValue} (h : a.token? = some token)
    (r : Router) (context : Context) : ∃ made, r.request context a = some made := by
  cases a with
  | read | userDefined | insert | singleInsert | singleDelete | forward => exact ⟨_, rfl⟩
  | _ => cases h

theorem perform_request {a : RouterAction} {token : Option TokenValue} (h : a.token? = some token) :
    ∃ made, (r.drawn token).request (.make r.net.contexts token) a = some made ∧
      r.perform a = answered made := by
  cases a with
  | read | userDefined | insert | singleInsert | singleDelete | forward =>
    cases h
    exact ⟨_, rfl, rfl⟩
  | _ => cases h

theorem errand_again (r : Router) (a : RouterAction) (context : Context) :
    r.errand (.again a context) = (r.request context a).elim (r, .nothing) answered := rfl

/-- The request of an errand is made when its context is drawn. -/
theorem errand_request {e : Errand} {context : Context} (h : r.contextOf e = some context) :
    ∃ r' a made, (r' = r ∨ ∃ token, r' = r.drawn token) ∧ r'.request context a = some made ∧
      r.errand e = answered made := by
  cases e with
  | act a =>
    obtain ⟨token, ht, rfl⟩ := Option.map_eq_some_iff.mp h
    obtain ⟨made, hm, hp⟩ := perform_request (r := r) ht
    exact ⟨r.drawn token, a, made, .inr ⟨token, rfl⟩, hm, hp⟩
  | again a c =>
    obtain ⟨token, ht, rfl⟩ := Option.map_eq_some_iff.mp h
    obtain ⟨made, hm⟩ := request_of_token ht r c
    refine ⟨r, a, made, .inl rfl, hm, ?_⟩
    rw [errand_again, hm]
    rfl

/-! ### Contexts are kept -/

/-- The router keeps its books, and contexts are on their way. -/
structure Threads (r : Router) : Prop where
  tidy : r.Tidy
  carries : Ledger.Carries ⟨r.net, []⟩

section Threads
variable {r' : Router}

theorem Threads.same (h : r.Threads) (hs : r'.minded = r.minded) : r'.Threads := by
  simp only [minded, Prod.mk.injEq] at hs
  obtain ⟨hbooks, -, -, -, haccount⟩ := hs
  obtain ⟨hcells, hwaiting, -, -, -⟩ := Books.mk.inj hbooks
  refine ⟨(h.tidy.of_books hbooks).tidy, h.carries.mono (.of_cells hcells) (fun _ hd => hd) ?_ haccount⟩
  rintro x (hx | hx)
  · exact .inl (hwaiting ▸ hx)
  · exact .inr hx

theorem Threads.made (h : r.Threads) (hl : r.Leads r') {c : Result.Cell Engine.Reply}
    (hn : r'.net = (r.net.addCell c).1) : r'.Threads :=
  ⟨hl.tidy, hn ▸ h.carries.addCell c⟩

theorem Threads.result (h : r.Threads) (context : Context) (o : Option (Outcome Engine.Reply)) :
    (r.result context o).1.Threads :=
  h.made (h.tidy.result context o) rfl

theorem Threads.note (h : r.Threads) (d : Decision) (op : Operation) (context : Context) :
    (r.note d op context).Threads :=
  h.same (r.minded_note d op context)

theorem Threads.resolve (h : r.Threads) (op : Operation) : (r.resolve op).1.Threads :=
  h.same (minded_apart.resolve r op)

theorem Threads.ask (h : r.Threads) : r.ask.1.Threads := h.same (minded_apart.ask r)

theorem Threads.drawn (h : r.Threads) (token : Option TokenValue) : (r.drawn token).Threads := h.same rfl

theorem Threads.complete (h : r.Threads) (cell : Nat) (o : Outcome Engine.Reply) : (r.complete cell o).Threads := by
  obtain ⟨ht, -⟩ := h.tidy.complete cell o
  have hc := h.carries.settle cell o
  rw [Ledger.after_rest] at hc
  exact ⟨ht, hc.deliver (h.tidy.settle_idle cell o)⟩

theorem Threads.registered (h : r.Threads) (cell : Nat) {l : Listener Engine.Reply} (hi : l.IsIdle)
    (hl : ∀ read, l = .recorder read →
      ∃ context, r.net.Bears cell (some context) ∧ read.request = context.id) :
    Ledger.Carries ⟨(r.register cell l).net, []⟩ := by
  have hc := h.carries.register cell hl
  rw [Ledger.after_rest] at hc
  exact hc.deliver (h.tidy.register_idle cell hi)

theorem serve_net (r : Router) (handle : Handle) (request : Engine.Request) (context : Context) :
    (r.serve handle request context).2 = r.net.cells.length ∧
      ∃ o?, (r.serve handle request context).1.net = (r.net.addCell ⟨some context, o?⟩).1 := by
  unfold Router.serve
  dsimp only
  split <;> exact ⟨rfl, _, rfl⟩

/-- A request has made a result with its context, none of the cells that were there before. -/
structure Made (r : Router) (context : Context) (made : Router × Nat) : Prop where
  threads : made.1.Threads
  new : r.net.cells.length ≤ made.2
  bears : made.1.net.Bears made.2 (some context)

theorem cells_of_minded (hs : r'.minded = r.minded) : r'.net.cells = r.net.cells :=
  congrArg (fun m => m.1.cells) hs

theorem Made.since {context : Context} {made : Router × Nat} (h : r'.Made context made)
    (hs : r'.minded = r.minded) : r.Made context made :=
  ⟨h.threads, cells_of_minded hs ▸ h.new, h.bears⟩

theorem Threads.makes (h : r.Threads) (context : Context) (o : Option (Outcome Engine.Reply)) :
    r.Made context (r.result context o) :=
  ⟨h.result context o, Nat.le_refl _, o, r.outcomeAt_result context o⟩

theorem Threads.serve (h : r.Threads) (handle : Handle) (request : Engine.Request) (context : Context) :
    r.Made context (r.serve handle request context) := by
  obtain ⟨hcell, o?, hn⟩ := r.serve_net handle request context
  refine ⟨h.made (h.tidy.serve handle request context) hn, Nat.le_of_eq hcell.symm, o?, ?_⟩
  rw [hn, hcell]
  exact r.net.getElem_addCell ⟨some context, o?⟩

theorem Threads.forward (h : r.Threads) (address : SocketAddress) (database : String) (q : Engine.Read)
    (context : Context) : r.Made context (r.forward address database q context) := by
  have hleads := h.tidy.forward address database q context
  obtain ⟨-, hlength, o?, hn, -⟩ := r.send_eq address database q
  have hsent : (r.send address database q).1.Threads := h.made (h.tidy.send address database q) hn
  unfold Router.forward Router.forwardWith at hleads ⊢
  generalize r.send address database q = sent at *
  let result := sent.1.net.cells.length
  let adapted := sent.1.net.addAdapted sent.2 context
  let followed : Router := { sent.1 with net := adapted.1.1.deliver adapted.1.2 }
  have hadded : Threads { sent.1 with net := (sent.1.net.addCell ⟨some context, none⟩).1 } :=
    hsent.made (hsent.tidy.made ⟨some context, none⟩ rfl rfl rfl fun _ h => .inl h) rfl
  have hidle : Machine.Idle ⟨adapted.1.1, adapted.1.2, .nothing⟩ := hsent.tidy.adapt_idle sent.2 context
  have hcarries := hadded.registered sent.2 (l := .adapter result) trivial nofun
  have hfollowed : followed.Threads := ⟨(hsent.tidy.adapt sent.2 context).tidy, hcarries⟩
  -- the cell of the result is there with its context, whatever came of the adapter
  have hx : (sent.1.net.addCell ⟨some context, none⟩).1.Extends followed.net :=
    (Network.extends_register ..).trans (Machine.run_calm _ hidle).extended
  have hbears : followed.net.Bears result (some context) :=
    hx.bears ⟨none, sent.1.net.getElem_addCell ⟨some context, none⟩⟩
  have hl := hfollowed.tidy.register result (l := .recorder ⟨database, address, context.id⟩) trivial nofun
  refine ⟨⟨hleads.tidy, hfollowed.registered result trivial fun read hread => ?_⟩, ?_, hl.extended.bears hbears⟩
  · cases hread
    exact ⟨context, hbears, rfl⟩
  · exact Nat.le_of_lt (Nat.lt_of_lt_of_eq (Nat.lt_succ_self _) hlength.symm)

theorem Threads.read (h : r.Threads) (q : Engine.Read) (context : Context) :
    r.Made context (r.read q context) := by
  have hs := minded_apart.resolve r q.operation
  have ht := h.resolve q.operation
  unfold Router.read Router.readWith
  generalize r.resolve q.operation = resolved at hs ht ⊢
  obtain ⟨r', target⟩ := resolved
  have hnote := fun d => (minded_note r' d q.operation context).trans hs
  cases target with
  | error e => exact ((ht.note (.rejected e) q.operation context).makes context _).since (hnote (.rejected e))
  | ok target =>
    cases target with
    | engine handle => exact ((ht.note .here q.operation context).serve handle _ context).since (hnote .here)
    | remote address =>
      exact ((ht.note (.away address) q.operation context).forward address r'.name q context).since
        (hnote (.away address))

theorem minded_localOnly (r : Router) (op : Operation) (context : Context) :
    (r.localOnly op context).1.minded = r.minded := by
  have hs := minded_apart.resolve r op
  unfold localOnly
  generalize r.resolve op = resolved at hs ⊢
  obtain ⟨r', target⟩ := resolved
  cases target with
  | error e => exact (minded_note r' (.rejected e) op context).trans hs
  | ok target =>
    cases target with
    | engine handle => exact hs
    | remote address => exact (minded_note r' (.unsupported address) op context).trans hs

theorem Threads.userDefined (h : r.Threads) (u : Engine.UserLookup) (context : Context) :
    r.Made context (r.userDefined u context) := by
  have hs := r.minded_localOnly .userDefinedLookup context
  have ht := h.same hs
  unfold Router.userDefined
  generalize r.localOnly .userDefinedLookup context = found at hs ht ⊢
  cases hf : found.2 with
  | error e =>
    simp only [hf]
    exact (ht.makes context _).since hs
  | ok handle =>
    simp only [hf]
    exact (ht.serve handle _ context).since hs

theorem Threads.dispatch (h : r.Threads) (group : Engine.InsertGroup) (context : Context) :
    r.Made context (r.dispatch group context) := by
  have hs : ((r.note (.written group.size) .insert context).record
      (.persistence .insert group context)).minded = r.minded := r.minded_note _ _ _
  have ht := h.same hs
  unfold Router.dispatch
  cases r.collaborators.persistence .insert group context with
  | settled reply => exact (ht.makes context _).since hs
  | held =>
    have hmade := ht.made (ht.tidy.persisted context) rfl
    exact Made.since ⟨hmade, Nat.le_refl _, none, outcomeAt_result _ context none⟩ hs

theorem Threads.insert (h : r.Threads) (group : Engine.InsertGroup) (context : Context) :
    r.Made context (r.insert group context) := by
  have hs : r.queried.minded = r.minded := by
    unfold queried
    split
    · rfl
    · exact minded_apart.ask r
  rw [insert_eq]
  cases r.refusal? with
  | none => exact ((h.same hs).dispatch group context).since hs
  | some e =>
    have hr : (if r.stopped then r else r.queried.reject .insert e context).minded = r.minded := by
      split
      · rfl
      · exact (r.queried.minded_note (.rejected e) .insert context).trans hs
    exact ((h.same hr).makes context _).since hr

theorem Threads.request (h : r.Threads) {context : Context} {a : RouterAction} {made : Router × Nat}
    (hm : r.request context a = some made) : r.Made context made := by
  obtain ⟨q, rfl⟩ | ⟨u, rfl⟩ | ⟨group, rfl⟩ | ⟨address, database, q, rfl⟩ := request_cases hm
  · exact h.read q context
  · exact h.userDefined u context
  · exact h.insert group context
  · exact h.forward address database q context

theorem Threads.settleOwed (h : r.Threads) (cell : Option Nat) (o : Option (Outcome Engine.Reply)) :
    (r.settleOwed cell o).1.Threads := by
  unfold Router.settleOwed Router.settleOwedWith
  split
  · exact h
  · split
    · exact h
    · split
      · exact h.complete _ _
      · exact h.complete _ _

theorem Threads.perform (h : r.Threads) (a : RouterAction) : (r.perform a).1.Threads := by
  cases ht : a.token? with
  | some token =>
    obtain ⟨made, hm, hp⟩ := perform_request (r := r) ht
    rw [hp]
    exact ((h.drawn token).request hm).threads
  | none =>
    cases a with
    | comparators =>
      have hs := (r.drawn none).minded_localOnly .comparators (.make r.net.contexts none)
      generalize hfound : (r.drawn none).localOnly .comparators (.make r.net.contexts none) = found at hs
      have hl := (h.drawn none).same hs
      show r.comparators.1.Threads
      rw [comparators_eq hfound]
      cases found.2 with
      | error e => exact hl
      | ok handle => exact hl.same rfl
    | plan op => exact h.ask
    | resolve op => exact h.resolve op
    | role => exact h.ask
    | shutdown => exact h.same (minded_apart.shutdown r)
    | setPrimary address => exact h.same (minded_apart.setPrimary r address)
    | clearPrimary => exact h.same (minded_apart.clearPrimary r)
    | replace | interrupt | poll => exact h.same rfl
    | engineAnswers n reply => exact h.settleOwed ..
    | clientAnswers n reply => exact h.settleOwed ..
    | persistenceAnswers n reply => exact h.settleOwed ..
    | listen cell tag =>
      have hl := h.tidy.register cell (l := .script tag [] false) rfl fun _ hi => by cases hi
      exact ⟨hl.tidy, h.registered cell (l := .script tag [] false) rfl fun _ hread => by cases hread⟩
    | _ => cases ht

theorem Threads.errand (h : r.Threads) (e : Errand) :
    (r.errand e).1.Threads ∧ r.net.Extends (r.errand e).1.net := by
  cases e with
  | act a => exact ⟨h.perform a, (h.tidy.run [a]).2⟩
  | again a context =>
    rw [errand_again]
    cases hm : r.request context a with
    | none => exact ⟨h, .refl _⟩
    | some made =>
      refine ⟨(h.request hm).threads, ?_⟩
      obtain ⟨q, rfl⟩ | ⟨u, rfl⟩ | ⟨group, rfl⟩ | ⟨address, database, q, rfl⟩ := request_cases hm
      · exact (h.tidy.read q context).extended
      · exact (h.tidy.userDefined u context).extended
      · exact (h.tidy.insert group context).extended
      · exact (h.tidy.forward address database q context).extended

theorem Threads.errands (h : r.Threads) (es : List Errand) :
    (r.errands es).1.Threads ∧ r.net.Extends (r.errands es).1.net := by
  induction es generalizing r with
  | nil => exact ⟨h, .refl _⟩
  | cons e es ih =>
    obtain ⟨ht, hx⟩ := h.errand e
    obtain ⟨hts, hxs⟩ := ih ht
    exact ⟨hts, hx.trans hxs⟩

theorem New.threads (h : r.New) : r.Threads := by
  have hfresh : Ledger.Carries (⟨{}, []⟩ : Ledger Engine.Reply) := Ledger.fresh_carries
  have ht := h.tidy
  cases h with
  | make | withHandle => exact ⟨ht, hfresh⟩

end Threads
end Router
end ReplicaRouting
