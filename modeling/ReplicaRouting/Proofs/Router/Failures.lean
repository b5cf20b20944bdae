import ReplicaRouting.Proofs.Router.Sending
/-!
Forwarded reads that fail. Each is counted and logged once, by its error on the caller's side, and before
any listener of the caller is started; the counters are the numbers of the lines at every moment.
-/

namespace ReplicaRouting

open Net (SocketAddress)
open Result (Context Outcome Network Machine Ledger Forwarded Heard)
open Result.Ledger (Attended)

namespace Router

/-- The caller is given the result of a read, and the client has answered with its response or owes it. -/
def Gives (r : Router) (s : Forwarded) (done : Router × RouterAnswer) : Prop :=
  done.2 = .result s.result (done.1.net.outcomeAt s.result) ∧
    ∃ q, done.1.calls.getLast? = some (.client s.read.primary s.read.database q) ∧
      match r.collaborators.client s.read.primary s.read.database q with
      | .settled reply => done.1.net.outcomeAt s.response = some (.ofTransport reply)
      | .held => done.1.owedByClient = r.owedByClient ++ [(q, s.response)]

/-- A moment in which an answer that was owed or a new listener of a caller is delivered. -/
inductive Moment (r : Router) : Machine Engine.Reply → Prop
  | answer {cell : Nat} {o : Outcome Engine.Reply} {m : Machine Engine.Reply} (h : cell ∈ r.owed)
      (hm : Machine.Steps ⟨(r.net.settle cell o).1, (r.net.settle cell o).2.1, .nothing⟩ m) : r.Moment m
  | listen {cell : Nat} {tag : String} {m : Machine Engine.Reply} (h : cell < r.net.cells.length)
      (hm : Machine.Steps ⟨(r.net.register cell (.script tag [] false)).1,
        (r.net.register cell (.script tag [] false)).2, .nothing⟩ m) : r.Moment m

section Runs
variable {r r' : Router} {sent : List Forwarded}

theorem Minds.answered (h : r.Minds sent) {s : Forwarded} (hs : s ∈ sent) {n : Nat} {q : Engine.Read}
    (reply : Option (Except TransportError Engine.Reply))
    (ho : r.owedByClient[n]? = some (q, s.response)) (hp : r.net.outcomeAt s.response = none) :
    (r.perform (.clientAnswers n reply)).1.net.outcomeAt s.response =
      some (reply.elim (.failed (.transport .abandoned)) .ofTransport) := by
  obtain ⟨o?, hc⟩ := (h.placed s hs).response
  have hlt : s.response < r.net.cells.length := (List.getElem?_eq_some_iff.mp hc).1
  have hdone : ∀ o, (r.complete s.response o).net.outcomeAt s.response = some o := by
    intro o
    obtain ⟨-, -, -, hset⟩ := h.tidy.complete s.response o
    exact hset hlt hp
  have hcontext : r.net.contextAt s.response = none := by
    rw [Network.contextAt, hc]
    rfl
  have hn : ¬ (r.net.outcomeAt s.response).isSome = true := by simp [hp]
  simp only [Router.perform, Router.performWith, ho, Option.map_some, Router.settleOwedWith, if_neg hn]
  cases reply with
  | some reply => exact hdone _
  | none =>
    rw [hcontext]
    exact hdone _

theorem Minds.moment (h : r.Minds sent) {m : Machine Engine.Reply} (hm : r.Moment m) :
    m.network.Tallied ∧ ∀ s ∈ sent, Heard m.network.history s.result s.read := by
  have hready : ∃ held, Attended held sent m.ledger := by
    cases hm with
    | answer hc hs =>
      obtain ⟨held, ha, -⟩ := h.settle hc _
      exact ⟨held, ha.moment (h.tidy.settle_idle ..) hs⟩
    | @listen _ tag _ hc hs =>
      obtain ⟨held, ha, -⟩ := h.listened hc tag
      exact ⟨held, ha.moment (h.tidy.register_idle _ rfl) hs⟩
  obtain ⟨held, ha⟩ := hready
  exact ⟨ha.recorded.tallied, fun s hs => ha.heard hs⟩

theorem send_answer (r : Router) (address : SocketAddress) (database : String) (q : Engine.Read) :
    match r.collaborators.client address database q with
    | .settled reply =>
      (r.send address database q).1.net.outcomeAt r.net.cells.length = some (.ofTransport reply)
    | .held =>
      (r.send address database q).1.owedByClient = r.owedByClient ++ [(q, r.net.cells.length)] := by
  cases hclient : r.collaborators.client address database q with
  | settled reply =>
    simp only [Router.send, Router.record, hclient]
    exact Network.outcomeAt_eq_some_iff.mpr ⟨none, List.getElem?_concat_length⟩
  | held =>
    simp only [Router.send, Router.record, hclient]
    rfl

theorem Tidy.forward_gives (hr : r.Tidy) (address : SocketAddress) (database : String) (q : Engine.Read)
    (context : Context) :
    r.Gives ⟨⟨database, address, context.id⟩, r.net.cells.length, r.net.cells.length + 1⟩
      (answered (r.forward address database q context)) := by
  have hs := hr.send address database q
  have hc := r.send_answer address database q
  have hcalls := r.forward_calls address database q context
  obtain ⟨hresponse, hlength, -⟩ := r.send_eq address database q
  unfold Router.forward Router.forwardWith at hcalls ⊢
  generalize r.send address database q = made at *
  have ha := hs.tidy.adapt made.2 context
  have hl := ha.trans (ha.tidy.register made.1.net.cells.length
    (l := .recorder ⟨database, address, context.id⟩) trivial nofun)
  rw [← hlength]
  refine ⟨rfl, q, ?_, ?_⟩
  · exact (congrArg List.getLast? hcalls).trans List.getLast?_concat
  · dsimp only
    cases hclient : r.collaborators.client address database q with
    | settled reply =>
      rw [hclient] at hc
      exact hl.extended.outcomeAt hc
    | held =>
      rw [hclient] at hc
      exact hc

theorem Keeps.gives (hk : r.Keeps r') {s : Forwarded} {done : Router × RouterAnswer}
    (h : r'.Gives s done) : r.Gives s done := by
  have hcollaborators : r'.collaborators = r.collaborators := congrArg Setup.collaborators hk.setup
  have howed : r'.owedByClient = r.owedByClient := congrArg Books.byClient hk.books
  rwa [Gives, hcollaborators, howed] at h

theorem Tidy.read_gives (hr : r.Tidy) {q : Engine.Read} {address : SocketAddress}
    (h : (r.resolve q.operation).2 = .ok (.remote address)) (context : Context) :
    r.Gives ⟨⟨r.name, address, context.id⟩, r.net.cells.length, r.net.cells.length + 1⟩
      (answered (r.read q context)) := by
  have hk := r.keeps_resolve q.operation
  unfold Router.read Router.readWith
  generalize r.resolve q.operation = resolved at h hk ⊢
  obtain ⟨r', target⟩ := resolved
  obtain rfl : target = .ok (.remote address) := h
  have hn := hk.note (.away address) q.operation context
  have hg := (hr.keeps hn).tidy.forward_gives address r'.name q context
  have hname : r'.name = r.name := congrArg Setup.name hk.setup
  have hcells : (r'.note (.away address) q.operation context).net.cells = r.net.cells :=
    congrArg Books.cells hn.books
  rw [hcells] at hg
  rw [← hname]
  exact hn.gives hg

theorem Tidy.perform_gives (hr : r.Tidy) {a : RouterAction} {s : Forwarded}
    (hs : r.forwards a = some s) : r.Gives s (r.perform a) := by
  cases a with
  | forward address database q token =>
    obtain rfl := Option.some.inj hs
    exact (hr.fresh token).tidy.forward_gives address database q (.make r.net.contexts token)
  | read q token =>
    simp only [forwards] at hs
    split at hs
    · rename_i address h
      obtain rfl := Option.some.inj hs
      exact (hr.fresh token).tidy.read_gives h (.make r.net.contexts token)
    · cases hs
  | _ => cases hs

theorem countP_buckets (reads : List Forwarded) (error? : Forwarded → Option RouterError) :
    reads.countP (fun s => (error? s).any (·.code.bucket = .noSuchDatabase)) +
        reads.countP (fun s => (error? s).any (·.code.bucket = .noSuchIndex)) +
        reads.countP (fun s => (error? s).any (·.code.bucket = .replicationFailure)) =
      reads.countP fun s => (error? s).isSome := by
  induction reads with
  | nil => rfl
  | cons s reads ih =>
    simp only [List.countP_cons]
    cases error? s with
    | none => simpa using ih
    | some e =>
      have hbucket : e.code.bucket = .noSuchDatabase ∨ e.code.bucket = .noSuchIndex ∨
          e.code.bucket = .replicationFailure := by cases e.code <;> decide
      rcases hbucket with h | h | h <;> simp [h] <;> omega

/-- After any run the reads that were sent are the calls of the client. Each of their responses that has
failed was counted once, by the code of its error on the caller's side, and has left one line, with the
address and the database of the call, the request of the result and the code and the text of the error;
others have left nothing. At every moment of a delivery the counters are the numbers of the lines, and where
a listener of a caller is handed the failure of a result, the line stands before. -/
theorem run_records_failures {r₀ : Router} (h₀ : r₀.New) (as : List RouterAction)
    (hl : ∀ i cell tag, as[i]? = some (.listen cell tag) →
      cell < (r₀.run (as.take i)).1.net.cells.length) :
    let r := (r₀.run as).1
    let sent := r₀.forwardedIn as
    r.asked = sent.map (·.call) ∧
    (∀ s ∈ sent, r.net.outcomeAt s.result = (r.net.outcomeAt s.response).map .adapt ∧
      ∃ context, r.net.contextAt s.result = some context ∧ context.id = s.read.request) ∧
    (∀ s ∈ sent, ∀ n q reply, r.owedByClient[n]? = some (q, s.response) →
      r.net.outcomeAt s.response = none →
        (r.perform (.clientAnswers n reply)).1.net.outcomeAt s.response =
          some (reply.elim (.failed (.transport .abandoned)) .ofTransport)) ∧
    (∀ c : ErrorCode, r.net.metrics.failures c =
      UInt64.ofNat (sent.countP fun s => (s.error? r.net).any (·.code.bucket = c.bucket))) ∧
    r.net.metrics.remoteNoSuchDatabase + r.net.metrics.remoteNoSuchIndex + r.net.metrics.remoteFailures =
      UInt64.ofNat (sent.countP fun s => (s.error? r.net).isSome) ∧
    r.net.failures.Perm (sent.filterMap fun s => (s.error? r.net).map s.read.failure) ∧
    (∀ s ∈ sent, Heard r.net.history s.result s.read) ∧
    (∀ m, r.Moment m → m.network.Tallied ∧ ∀ s ∈ sent, Heard m.network.history s.result s.read) ∧
    (∀ a s, r.forwards a = some s → r.Gives s (r.perform a)) := by
  intro r sent
  obtain ⟨hfresh, hasked⟩ := h₀.minds
  have hsends := r₀.sends_run hl
  have hr : r.Minds sent := hsends.minds [] hfresh
  obtain ⟨held, ha, -⟩ := hr.held
  have hcounters := fun c => ha.counters rfl c
  refine ⟨?_, fun s hs => ⟨(ha.follows s hs).at_rest ha.owned ha.agreed rfl, (hr.placed s hs).result⟩,
    fun s hs n q reply => hr.answered hs reply, hcounters, ?_, ha.lines rfl, fun s hs => ha.heard hs,
    fun m hm => hr.moment hm, fun a s hs => hr.tidy.perform_gives hs⟩
  · have h := hsends.asked
    rwa [hasked, List.nil_append] at h
  · have h := congrArg UInt64.ofNat (countP_buckets sent (·.error? r.net))
    rw [UInt64.ofNat_add, UInt64.ofNat_add] at h
    refine Eq.trans ?_ h
    exact congrArg₂ (· + ·) (congrArg₂ (· + ·) (hcounters .noSuchDatabase) (hcounters .noSuchIndex))
      (hcounters .replicationFailure)

/-- Two reads, of which the second fails while a caller listens, and then the first is given up. -/
theorem run_records_failures_late :
    let here : SocketAddress := ⟨.v4 10 0 0 1, 1⟩
    let away : SocketAddress := ⟨.v4 10 0 0 2, 1⟩
    let bench : Bench := { database := "accounts", catalog := none, client := .hold }
    let r₀ := make "accounts" 1 .primaryOnly (.shared ⟨here, some away⟩) bench.collaborators
    let q : Engine.Read := .lookup 1 []
    let as : List RouterAction := [.read q none, .read q none, .listen 3 "late",
      .clientAnswers 1 (some (.error (.remote .databaseUnavailable "gone"))), .clientAnswers 0 none]
    let given : Result.RemoteRead := ⟨"accounts", away, ⟨0⟩⟩
    let gone : Result.RemoteRead := ⟨"accounts", away, ⟨1⟩⟩
    let r := (r₀.run as).1
    r.asked = [(away, "accounts"), (away, "accounts")] ∧ r.net.metrics.remoteNoSuchDatabase = 1 ∧
      r.net.metrics.remoteNoSuchDatabase + r.net.metrics.remoteNoSuchIndex +
        r.net.metrics.remoteFailures = 2 ∧
      r.net.failures.Perm [given.failure ⟨.replicationFailure, TransportError.abandoned.text⟩,
        gone.failure ⟨.noSuchDatabase, "gone"⟩] ∧
      .logged (gone.failure ⟨.noSuchDatabase, "gone"⟩) ∈ r.net.history.take 10 := by
  intro here away bench r₀ q as given gone
  have hl : ∀ i cell tag, as[i]? = some (.listen cell tag) →
      cell < (r₀.run (as.take i)).1.net.cells.length := by
    intro i cell tag h
    obtain rfl : i = 2 := by
      rcases i with _ | _ | _ | _ | _ | i <;> first | rfl | cases h
    cases h
    decide +kernel
  have h₀ : r₀.New := .make ..
  obtain ⟨hasked, -, -, hcounters, hsum, hlines, hheard, -⟩ := run_records_failures h₀ as hl
  have hsent : r₀.forwardedIn as = [⟨given, 0, 1⟩, ⟨gone, 2, 3⟩] := by decide +kernel
  have hfirst : (r₀.run as).1.net.outcomeAt 0 = some (.failed (.transport .abandoned)) := by decide +kernel
  have hsecond : (r₀.run as).1.net.outcomeAt 2 =
      some (.failed (.transport (.remote .databaseUnavailable "gone"))) := by decide +kernel
  have hstarted : (r₀.run as).1.net.history = (r₀.run as).1.net.history.take 10 ++
      .started 4 3 (some "late") (.failed (.router ⟨.noSuchDatabase, "gone"⟩)) (some ⟨⟨1⟩, none⟩) ::
        (r₀.run as).1.net.history.drop 11 := by decide +kernel
  generalize (r₀.run as).1 = r at *
  have hgiven : Forwarded.error? r.net ⟨given, 0, 1⟩ =
      some ⟨.replicationFailure, TransportError.abandoned.text⟩ := by
    rw [Forwarded.error?, hfirst]
    rfl
  have hgone : Forwarded.error? r.net ⟨gone, 2, 3⟩ = some ⟨.noSuchDatabase, "gone"⟩ := by
    rw [Forwarded.error?, hsecond]
    rfl
  rw [hsent] at hasked hcounters hsum hlines hheard
  have hdatabase := hcounters .noSuchDatabase
  simp only [List.countP_cons, List.countP_nil, hgiven, hgone] at hdatabase hsum
  simp only [List.filterMap_cons, List.filterMap_nil, hgiven, hgone, Option.map_some] at hlines
  exact ⟨hasked, hdatabase, hsum, hlines,
    hheard _ (List.mem_cons_of_mem _ (List.mem_singleton.mpr rfl)) _ _ _ _ _ _ hstarted⟩

end Runs
end Router
end ReplicaRouting
