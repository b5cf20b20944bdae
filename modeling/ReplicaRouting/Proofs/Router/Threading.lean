import ReplicaRouting.Proofs.Result.Muted
import ReplicaRouting.Proofs.Router.Opacity
import ReplicaRouting.Router.Bench
/-!
The contexts of callers in whole runs. Who is called for a request, who listens to its result and who reads
the lines about it learn of the context that the request came with, and the token makes no difference.
-/

namespace ReplicaRouting

open Net (SocketAddress)
open Result (Context Outcome Listener Network Ledger Entry)

def Log.Record.request? (x : Log.Record) : Option String := x.fields.lookup "request_id"

theorem Decision.request?_record (d : Decision) (database : String) (op : Operation) (context : Context) :
    (d.record database op context).request? = some context.id.text := by
  cases d <;> rfl

theorem Result.RemoteRead.request?_failure (read : Result.RemoteRead) (e : RouterError) :
    (read.failure e).request? = some read.request.text := rfl

theorem RouterAction.context?_callAt {a : RouterAction} {database : String} {context : Context} {target : Target}
    {c : Call} (h : a.callAt database context target = some c) :
    c.context? = none ∨ c.context? = some context := by
  unfold RouterAction.callAt at h
  split at h
  all_goals cases h
  · exact .inr rfl
  · exact .inl rfl
  · exact .inr rfl
  · exact .inl rfl

theorem Errand.Blind.of_bare {e e' : Errand} (h : e.Blind) (he : e.bare = e'.bare) : e'.Blind := by
  rintro c rfl
  refine h c ?_
  cases e with
  | act a =>
    cases a <;> cases he
    rfl
  | again a context => cases he

namespace Router
variable {r r' : Router}

/-! ### What one request tells -/

theorem given_apart : Apart given := apart_calls (fun _ => rfl) fun _ => rfl

theorem given_called (call? : Option Call) (h : r'.bearings = r.bearings.add call?.toList) {context : Context}
    (hc : ∀ c, call? = some c → c.context? = none ∨ c.context? = some context) :
    r'.given = r.given ∨ r'.given = r.given ++ [context] := by
  have hcalls : r'.calls = r.calls ++ call?.toList := congrArg Bearings.calls h
  rw [given, hcalls, List.filterMap_append]
  cases call? with
  | none => exact .inl (List.append_nil _)
  | some c =>
    rcases hc c rfl with hc | hc
    · left
      rw [Option.toList_some, List.filterMap_cons, hc]
      exact List.append_nil _
    · right
      rw [Option.toList_some, List.filterMap_cons, hc]
      rfl

theorem request_given {context : Context} {a : RouterAction} {made : Router × Nat}
    (hm : r.request context a = some made) :
    made.1.given = r.given ∨ made.1.given = r.given ++ [context] := by
  have hcall : ∀ (a : RouterAction) (found : Option Target) c,
      found.bind (a.callAt r.name context) = some c → c.context? = none ∨ c.context? = some context := by
    intro a found c hc
    obtain ⟨target, -, hc⟩ := Option.bind_eq_some_iff.mp hc
    exact RouterAction.context?_callAt hc
  obtain ⟨q, rfl⟩ | ⟨u, rfl⟩ | ⟨group, rfl⟩ | ⟨address, database, q, rfl⟩ := request_cases hm
  · rw [← given_apart.resolve r q.operation]
    exact given_called _ (r.bearings_read q none context) (hcall _ _)
  · rw [← given_apart.resolve r .userDefinedLookup]
    exact given_called _ (r.bearings_userDefined u none context) (hcall _ _)
  · have hq : r.queried.given = r.given := by
      unfold queried
      split
      · rfl
      · exact given_apart.ask r
    have hb := r.bearings_insert group context
    rw [← hq]
    split at hb
    · refine given_called (some (.persistence .insert group context)) hb fun c hc => ?_
      cases hc
      exact .inr rfl
    · exact given_called none hb nofun
  · refine given_called (some (.client address database q)) (r.bearings_forward address database q context) ?_
    rintro c ⟨⟩
    exact .inl rfl

theorem Decides.told {op : Operation} {context : Context} {done : Router × RouterAnswer}
    (h : r.Decides op context done) :
    ∃ new, done.1.decisions = r.decisions ++ new ∧ ∀ x ∈ new, x.request? = some context.id.text := by
  obtain ⟨d, -, hn⟩ := h
  refine ⟨[d.record r.name op context], congrArg Prod.snd hn, fun x hx => ?_⟩
  rw [List.mem_singleton.mp hx]
  exact d.request?_record ..

theorem Tidy.request_told (hr : r.Tidy) {context : Context} {a : RouterAction} {made : Router × Nat}
    (hm : r.request context a = some made) :
    ∃ new, made.1.decisions = r.decisions ++ new ∧ ∀ x ∈ new, x.request? = some context.id.text := by
  have hsame : ∀ {r' : Router}, r'.net.accounts = r.net.accounts →
      ∃ new, r'.decisions = r.decisions ++ new ∧ ∀ x ∈ new, x.request? = some context.id.text :=
    fun h => ⟨[], (congrArg Prod.snd h).trans (List.append_nil _).symm, List.forall_mem_nil _⟩
  obtain ⟨q, rfl⟩ | ⟨u, rfl⟩ | ⟨group, rfl⟩ | ⟨address, database, q, rfl⟩ := request_cases hm
  · exact (hr.read_decides q context).told
  · have h := r.userDefined_decides u context
    by_cases hs : r.servesHere .userDefinedLookup = true
    · exact hsame ((if_pos hs).mp h)
    · exact Decides.told ((if_neg hs).mp h)
  · have h := r.insert_decides group context
    by_cases hs : r.stopped = true
    · exact hsame ((if_pos hs).mp h)
    · exact Decides.told ((if_neg hs).mp h)
  · exact hsame (accounts_deaf.forward hr address database q context)

/-! ### What is told later -/

theorem Threads.handed (h : r.Threads) {cell : Nat} {context : Context} (hc : r.net.contextAt cell = some context)
    {serial : Nat} {tag : Option String} {o : Outcome Engine.Reply} {handed : Option Context}
    (hs : .started serial cell tag o handed ∈ r.net.history) : handed = some context := by
  have hb := h.carries.started serial cell tag o handed (List.mem_filter.mpr ⟨hs, rfl⟩)
  exact hb.contextAt.symm.trans hc

/-- The line of a failed read comes with the start of its recorder, and carries the request of the cell. -/
theorem Threads.line (h : r.Threads) {xs ys : List (Entry Engine.Reply)} {x : Log.Record}
    (hh : r.net.history = xs ++ .logged x :: ys) (hx : x.event = Log.Event.remoteFailed.name) :
    ∃ serial cell f context,
      (xs.filter (·.isAccount)).getLast? = some (.started serial cell none (.failed f) (some context)) ∧
        r.net.contextAt cell = some context ∧ x.request? = some context.id.text := by
  have hline : (Entry.logged x : Entry Engine.Reply).isAccount = true := by
    rw [Entry.isAccount, Entry.failure?, if_pos hx]
    rfl
  have ha : r.net.account = xs.filter (·.isAccount) ++ .logged x :: ys.filter (·.isAccount) := by
    rw [Network.account, hh, List.filter_append, List.filter_cons, if_pos hline]
  obtain ⟨pre, serial, cell, f, context, read, hpre, rfl, hid⟩ := h.carries.lines _ x _ ha
  refine ⟨serial, cell, f, context, ?_, ?_, ?_⟩
  · rw [hpre, List.getLast?_concat]
  · refine (h.carries.started serial cell none (.failed f) (some context) ?_).contextAt
    show _ ∈ r.net.account
    rw [ha, hpre]
    exact List.mem_append_left _ (List.mem_append_right _ (.head _))
  · rw [Result.RemoteRead.request?_failure, hid]

/-- The context of a request, from the call of a collaborator to the last line about its result. -/
structure Conveys (r : Router) (context : Context) (done : Router × RouterAnswer) (later : Router) : Prop where
  called : done.1.given = r.given ∨ done.1.given = r.given ++ [context]
  decided : ∃ new, done.1.decisions = r.decisions ++ new ∧ ∀ x ∈ new, x.request? = some context.id.text
  result : ∃ cell, done.2 = .result cell (done.1.net.outcomeAt cell) ∧ r.net.cells.length ≤ cell ∧
    later.net.contextAt cell = some context ∧
      ∀ serial tag o handed, .started serial cell tag o handed ∈ later.net.history → handed = some context
  lines : ∀ xs x ys, later.net.history = xs ++ .logged x :: ys → x.event = Log.Event.remoteFailed.name →
    ∃ serial cell f handed,
      (xs.filter (·.isAccount)).getLast? = some (.started serial cell none (.failed f) (some handed)) ∧
        later.net.contextAt cell = some handed ∧ x.request? = some handed.id.text

theorem Threads.conveys (h : r.Threads) {e : Errand} {context : Context} (hc : r.contextOf e = some context)
    (after : List Errand) : r.Conveys context (r.errand e) ((r.errand e).1.errands after).1 := by
  obtain ⟨r', a, made, hr', hm, he⟩ := errand_request hc
  -- a context may have been drawn for the request, and nothing else was done before
  have ht : r'.Threads ∧ r'.given = r.given ∧ r'.decisions = r.decisions ∧ r'.net.cells = r.net.cells := by
    rcases hr' with rfl | ⟨token, rfl⟩
    · exact ⟨h, rfl, rfl, rfl⟩
    · exact ⟨h.drawn token, rfl, rfl, rfl⟩
  obtain ⟨ht, hgiven, hdecisions, hcells⟩ := ht
  have hmade := ht.request hm
  obtain ⟨hlater, hx⟩ := hmade.threads.errands after
  have hcontext := (hx.bears hmade.bears).contextAt
  rw [he]
  refine ⟨hgiven ▸ request_given hm, hdecisions ▸ ht.tidy.request_told hm,
    ⟨made.2, rfl, hcells ▸ hmade.new, hcontext, fun _ _ _ _ hs => hlater.handed hcontext hs⟩,
    fun _ _ _ hh hx => hlater.line hh hx⟩

/-! ### Two runs -/

theorem errand_blind (hc : r.collaborators.Blind) {e : Errand} (he : e.Blind) :
    (r.errand e).1.collaborators.Blind := by
  cases e with
  | act a =>
    have hs : (r.perform a).1.collaborators = (a.changes r.setup).collaborators :=
      congrArg Setup.collaborators (r.setup_perform a)
    show (r.perform a).1.collaborators.Blind
    rw [hs]
    cases a with
    | replace c => exact he c rfl
    | _ => exact hc
  | again a context =>
    rw [errand_again]
    cases hm : r.request context a with
    | none => exact hc
    | some made =>
      have hs : made.1.setup = r.setup := by
        obtain ⟨q, rfl⟩ | ⟨u, rfl⟩ | ⟨group, rfl⟩ | ⟨address, database, q, rfl⟩ := request_cases hm
        · exact r.setup_read q context
        · exact r.setup_userDefined u context
        · exact r.setup_insert group context
        · exact r.setup_forward address database q context
      have hs' : made.1.collaborators = r.collaborators := congrArg Setup.collaborators hs
      show made.1.collaborators.Blind
      rw [hs']
      exact hc

theorem Threads.errands_bare (h : r.Threads) (hc : r.collaborators.Blind) {es : List Errand}
    (he : ∀ e ∈ es, e.Blind) : r.bare.errands (es.map (·.bare)) = bared (r.errands es) := by
  induction es generalizing r with
  | nil => rfl
  | cons e es ih =>
    obtain ⟨hfirst, hrest⟩ := List.forall_mem_cons.mp he
    have hnext := ih (h.errand e).1 (errand_blind hc hfirst) hrest
    rw [List.map_cons, Router.errands, r.errand_bare h.tidy hc e]
    dsimp only [bared]
    rw [hnext]
    rfl

/-- Two routers and what they have answered, the same but for tokens. -/
structure Indistinct (left right : Router × List RouterAnswer) : Prop where
  answers : left.2 = right.2
  calls : left.1.calls.map (·.bare) = right.1.calls.map (·.bare)
  lines : left.1.net.history.filterMap (·.logged?) = right.1.net.history.filterMap (·.logged?)
  /-- What listeners were handed, without the tokens. -/
  history : left.1.net.history.map (·.bare) = right.1.net.history.map (·.bare)
  metrics : left.1.net.metrics = right.1.net.metrics
  outcomes : ∀ cell, left.1.net.outcomeAt cell = right.1.net.outcomeAt cell

theorem indistinct_of_bared {left right : Router × List RouterAnswer} (h : bared left = bared right) :
    Indistinct left right := by
  have hr : left.1.bare = right.1.bare := congrArg Prod.fst h
  have hhistory : left.1.net.history.map (·.bare) = right.1.net.history.map (·.bare) :=
    congrArg (·.net.history) hr
  have hline : ∀ n : Network Engine.Reply,
      n.history.filterMap (·.logged?) = (n.history.map (·.bare)).filterMap (·.logged?) := by
    intro n
    rw [List.filterMap_map]
    refine congrArg (List.filterMap · n.history) (funext fun e => ?_)
    cases e <;> rfl
  have ha : left.2 = right.2 := congrArg (·.2) h
  refine ⟨ha, congrArg (·.calls) hr, ?_, hhistory, congrArg (·.net.metrics) hr, fun cell => ?_⟩
  · rw [hline, hline, hhistory]
  · rw [← left.1.net.outcomeAt_bare, ← right.1.net.outcomeAt_bare]
    exact congrArg (·.net.outcomeAt cell) hr

/-- In any run, a request tells those who are called and those who listen of the context that it came with, and
lines about it carry its id, also when other calls are under way and the lines come much later. Runs that
differ in tokens only, with collaborators that do not look at them, differ in nothing else. -/
theorem errands_thread_contexts {r₀ : Router} (h₀ : r₀.New) :
    (∀ (before : List Errand) (e : Errand) (after : List Errand) (context : Context),
      let r := (r₀.errands before).1
      r.contextOf e = some context →
        r.Conveys context (r.errand e) ((r.errand e).1.errands after).1) ∧
    (r₀.collaborators.Blind → ∀ es es' : List Errand, (∀ e ∈ es, e.Blind) →
      es.map (·.bare) = es'.map (·.bare) → Indistinct (r₀.errands es) (r₀.errands es')) := by
  refine ⟨fun before e after context hc => (h₀.threads.errands before).1.conveys hc after,
    fun hc es es' he hes => indistinct_of_bared ?_⟩
  have he' : ∀ e ∈ es', e.Blind := by
    intro e' hm
    have hm' : e'.bare ∈ es.map (·.bare) := hes ▸ List.mem_map_of_mem hm
    obtain ⟨e, hm, hbare⟩ := List.mem_map.mp hm'
    exact (he e hm).of_bare hbare
  rw [← h₀.threads.errands_bare hc he, ← h₀.threads.errands_bare hc he', hes]

/-- Two reads are under way and a write follows with the context of the second. Both reads fail, one is given up;
a listener of the second is handed its token. With other tokens the run is the same. -/
theorem errands_thread_contexts_late :
    let here : SocketAddress := ⟨.v4 10 0 0 1, 1⟩
    let away : SocketAddress := ⟨.v4 10 0 0 2, 1⟩
    let bench : Bench := { database := "accounts", catalog := none, client := .hold }
    let r₀ := make "accounts" 1 .primaryOnly (.shared ⟨here, some away⟩) bench.collaborators
    let q : Engine.Read := .lookup 1 []
    let context (s : String) : Context := .make 1 (some (.text s))
    let before (s : String) : List Errand := [.act (.read q (some (.text s)))]
    let e (s : String) : Errand := .act (.read q (some (.text s)))
    let after (s : String) : List Errand := [.again (.insert ⟨1, []⟩ none) (context s), .act (.listen 3 "late"),
      .act (.clientAnswers 0 none), .act (.clientAnswers 1 (some (.error (.remote .databaseUnavailable "gone"))))]
    let r := (r₀.errands (before "first")).1
    let later := ((r.errand (e "second")).1.errands (after "second")).1
    r.contextOf (e "second") = some (context "second") ∧
      r.Conveys (context "second") (r.errand (e "second")) later ∧
      later.given = [context "second"] ∧
      .started 4 3 (some "late") (.failed (.router ⟨.noSuchDatabase, "gone"⟩)) (some (context "second")) ∈
        later.net.history ∧
      later.net.failures.map (·.request?) =
        [some (Context.make 0 none).id.text, some (context "second").id.text] ∧
      Indistinct (r₀.errands (before "first" ++ e "second" :: after "second"))
        (r₀.errands (before "another" ++ e "" :: after "")) := by
  intro here away bench r₀ q context before e after r later
  have h₀ : r₀.New := .make ..
  obtain ⟨hconveys, hindistinct⟩ := errands_thread_contexts h₀
  have hc : r.contextOf (e "second") = some (context "second") := by decide +kernel
  have hblind : r₀.collaborators.Blind := ⟨fun _ _ _ => rfl, fun _ _ _ => rfl⟩
  have hkept : ∀ e' ∈ before "first" ++ e "second" :: after "second", e'.Blind := by
    rintro e' hm c rfl
    simp [before, e, after] at hm
  refine ⟨hc, hconveys (before "first") (e "second") (after "second") _ hc, ?_, ?_, ?_,
    hindistinct hblind _ _ hkept rfl⟩
  · decide +kernel
  · decide +kernel
  · decide +kernel

end Router
end ReplicaRouting
