import ReplicaRouting.Proofs.Router.Bearings
/-!
Requests that a router refuses, because it was shut down or because no primary is known. They reach nobody and
change nothing that later requests depend on: a run goes as it would without them.
-/

namespace ReplicaRouting

open Net (SocketAddress)
open Result (Context Outcome)

def Result.Context.renumbered (c : Context) : Context := .make 0 (c.token.map (·.value))

theorem Result.Context.renumbered_make (serial : Nat) (token : Option Result.TokenValue) :
    (Context.make serial token).renumbered = .make 0 token := by
  cases token <;> rfl

def Call.renumbered : Call → Call
  | .engine h request context => .engine h request context.renumbered
  | .persistence payload group context => .persistence payload group context.renumbered
  | c => c

def Bearings.renumbered (b : Bearings) : Bearings := { b with calls := b.calls.map (·.renumbered) }

namespace Router

/-- Two routers that will go the same ways and have made the same calls, but for the numbers of contexts. -/
def Alike (r r' : Router) : Prop := r.bearings.renumbered = r'.bearings.renumbered

/-- The request is refused, and nothing else is due while it is made. -/
def rejects (r : Router) (a : RouterAction) : Bool :=
  a.request?.isSome && r.refusal?.isSome && (r.stopped || r.interruption.isNone)

def admitted (r : Router) : List RouterAction → List RouterAction
  | [] => []
  | a :: as =>
    if r.rejects a then (r.perform a).1.admitted as else a :: (r.perform a).1.admitted as

section Alike
variable {r r' : Router}

theorem alike_iff : r.Alike r' ↔ r.setup = r'.setup ∧ r.handle = r'.handle ∧ r.stopped = r'.stopped ∧
    r.interruption = r'.interruption ∧ r.calls.map (·.renumbered) = r'.calls.map (·.renumbered) := by
  rw [Alike, Bearings.renumbered, Bearings.renumbered, Bearings.mk.injEq]
  rfl

theorem Alike.add (h : r.Alike r') {cs cs' : List Call}
    (hc : cs.map (·.renumbered) = cs'.map (·.renumbered)) :
    (r.bearings.add cs).renumbered = (r'.bearings.add cs').renumbered := by
  obtain ⟨hsetup, hhandle, hstopped, hinterruption, hcalls⟩ := alike_iff.mp h
  simp only [Bearings.renumbered, Bearings.add, bearings, List.map_append, hsetup, hhandle, hstopped,
    hinterruption, hcalls, hc]

theorem Alike.record (h : r.Alike r') {c c' : Call} (hc : c.renumbered = c'.renumbered) :
    (r.record c).Alike (r'.record c') :=
  h.add (congrArg (fun c => [c]) hc)

theorem Alike.attached (h : r.Alike r') (handle : Option Handle) :
    { r with handle := handle }.Alike { r' with handle := handle } := by
  obtain ⟨hsetup, -, hstopped, hinterruption, hcalls⟩ := alike_iff.mp h
  exact alike_iff.mpr ⟨hsetup, rfl, hstopped, hinterruption, hcalls⟩

theorem Alike.shutdown (h : r.Alike r') :
    r.shutdown.1.Alike r'.shutdown.1 ∧ r.shutdown.2 = r'.shutdown.2 := by
  obtain ⟨hsetup, hhandle, hstopped, hinterruption, hcalls⟩ := alike_iff.mp h
  have hs : { r with stopped := true, handle := none }.Alike { r' with stopped := true, handle := none } :=
    alike_iff.mpr ⟨hsetup, rfl, rfl, hinterruption, hcalls⟩
  have hstop : r.collaborators.stop = r'.collaborators.stop :=
    congrArg (fun s : Setup => s.collaborators.stop) hsetup
  unfold Router.shutdown
  rw [hstopped, hhandle]
  split
  · exact ⟨h, rfl⟩
  · cases r'.handle with
    | some x => exact ⟨hs.record rfl, congrFun hstop x⟩
    | none => exact ⟨hs, rfl⟩

theorem Alike.attach (h : r.Alike r') : r.attach.1.Alike r'.attach.1 ∧ r.attach.2 = r'.attach.2 := by
  obtain ⟨hsetup, hhandle, hstopped, hinterruption, hcalls⟩ := alike_iff.mp h
  have hname : r.name = r'.name := congrArg Setup.name hsetup
  have hcatalog : r.collaborators.catalog = r'.collaborators.catalog :=
    congrArg (fun s : Setup => s.collaborators.catalog) hsetup
  have ha : (r.record (.catalog r'.name)).Alike (r'.record (.catalog r'.name)) := h.record rfl
  unfold Router.attach
  rw [hstopped, hhandle, hname, hcatalog]
  split
  · exact ⟨h, rfl⟩
  · cases r'.handle with
    | some x => exact ⟨h, rfl⟩
    | none =>
      cases r'.collaborators.catalog r'.name with
      | error e => exact ⟨ha, rfl⟩
      | ok x => exact ⟨ha.attached (some x), rfl⟩

theorem Alike.follow (h : r.Alike r') (handle : Option Handle) (plan : Plan) :
    (r.follow handle plan).1.Alike (r'.follow handle plan).1 ∧
      (r.follow handle plan).2 = (r'.follow handle plan).2 := by
  unfold Router.follow
  split
  · exact ⟨h, rfl⟩
  · exact ⟨h, rfl⟩
  · exact ⟨h, rfl⟩
  · exact ⟨h.attach.1, congrArg (·.map Target.engine) h.attach.2⟩

theorem Alike.resolveWith (h : r.Alike r') (ask : Router → Router × Snapshot)
    (ha : (ask r).1.Alike (ask r').1 ∧ (ask r).2 = (ask r').2) (op : Operation) :
    (Router.resolveWith ask r op).1.Alike (Router.resolveWith ask r' op).1 ∧
      (Router.resolveWith ask r op).2 = (Router.resolveWith ask r' op).2 := by
  obtain ⟨hsetup, hhandle, hstopped, -⟩ := alike_iff.mp h
  have hname : r.name = r'.name := congrArg Setup.name hsetup
  have hpolicy : r.policy = r'.policy := congrArg Setup.policy hsetup
  unfold Router.resolveWith
  rw [hstopped, hname]
  split
  · exact ⟨h, rfl⟩
  · dsimp only
    rw [ha.2, hhandle, hpolicy]
    exact ha.1.follow ..

theorem Alike.ask (h : r.Alike r') : r.ask.1.Alike r'.ask.1 ∧ r.ask.2 = r'.ask.2 := by
  obtain ⟨hsetup, hhandle, hstopped, hinterruption, hcalls⟩ := alike_iff.mp h
  have hi : { r with interruption := none }.Alike { r' with interruption := none } :=
    alike_iff.mpr ⟨hsetup, hhandle, hstopped, rfl, hcalls⟩
  have hsnapshot : r.oracle.snapshot = r'.oracle.snapshot :=
    congrArg (fun s : Setup => s.oracle.snapshot) hsetup
  have ha : r.interrupt.Alike r'.interrupt := by
    unfold interrupt
    rw [hinterruption]
    split
    · exact h
    · exact hi.shutdown.1
    · exact (hi.resolveWith (fun r => (r, r.oracle.snapshot)) ⟨hi, hsnapshot⟩ _).1
  have hs : r.interrupt.setup = r'.interrupt.setup := (alike_iff.mp ha).1
  exact ⟨ha, congrArg (fun s : Setup => s.oracle.snapshot) hs⟩

theorem Alike.resolve (h : r.Alike r') (op : Operation) :
    (r.resolve op).1.Alike (r'.resolve op).1 ∧ (r.resolve op).2 = (r'.resolve op).2 :=
  h.resolveWith Router.ask h.ask op

theorem Alike.refusal? (h : r.Alike r') : r.refusal? = r'.refusal? := by
  obtain ⟨hsetup, -, hstopped, -⟩ := alike_iff.mp h
  have hname : r.name = r'.name := congrArg Setup.name hsetup
  have horacle : r.oracle = r'.oracle := congrArg Setup.oracle hsetup
  rw [Router.refusal?, Router.refusal?, hname, horacle, hstopped]

theorem Alike.queried (h : r.Alike r') : r.queried.Alike r'.queried := by
  obtain ⟨-, -, hstopped, -⟩ := alike_iff.mp h
  unfold Router.queried
  rw [hstopped]
  split
  · exact h
  · exact h.ask.1

theorem Alike.drawn (h : r.Alike r') (token : Option Result.TokenValue) :
    (r.drawn token).Alike (r'.drawn token) :=
  h

theorem callAt_renumbered (database : String) {c c' : Context} (h : c.renumbered = c'.renumbered)
    (a : RouterAction) (target : Target) :
    (a.callAt database c target).toList.map Call.renumbered =
      (a.callAt database c' target).toList.map Call.renumbered := by
  cases a <;> cases target <;> simp [RouterAction.callAt, Call.renumbered, h]

theorem Alike.lookup (h : r.Alike r') {a : RouterAction} {op : Operation}
    {token : Option Result.TokenValue} (ha : a.request? = some (op, token)) (ho : op ≠ .insert) :
    (r.perform a).1.Alike (r'.perform a).1 := by
  have hname : r.name = r'.name := congrArg Setup.name (alike_iff.mp h).1
  have hcontext : (Context.make r.net.contexts token).renumbered =
      (Context.make r'.net.contexts token).renumbered := by
    rw [Result.Context.renumbered_make, Result.Context.renumbered_make]
  obtain ⟨hresolved, htarget⟩ := (h.drawn token).resolve op
  rw [Alike, r.bearings_lookup ha ho, r'.bearings_lookup ha ho]
  refine hresolved.add ?_
  rw [htarget, hname]
  cases ((r'.drawn token).resolve op).2 with
  | error e => rfl
  | ok target => exact callAt_renumbered r'.name hcontext a target

theorem Alike.write (h : r.Alike r') {a : RouterAction} {token : Option Result.TokenValue}
    (ha : a.request? = some (.insert, token)) : (r.perform a).1.Alike (r'.perform a).1 := by
  have hid : r.id = r'.id := congrArg Setup.id (alike_iff.mp h).1
  obtain ⟨group, hg, hd⟩ := r.perform_write ha
  obtain ⟨group', hg', hd'⟩ := r'.perform_write ha
  obtain rfl : group = group' := Option.some.inj (hg.symm.trans (hid ▸ hg'))
  rw [hd, hd', Alike]
  show (Router.insert _ _ _).1.bearings.renumbered = (Router.insert _ _ _).1.bearings.renumbered
  rw [bearings_insert, bearings_insert, refusal?_drawn, refusal?_drawn, h.refusal?]
  refine (h.drawn token).queried.add ?_
  split
  · simp only [List.map_cons, List.map_nil, Call.renumbered, Result.Context.renumbered_make]
  · rfl

theorem Alike.of_bearings {s s' : Router} (h : r.Alike r') (hs : s.bearings = r.bearings)
    (hs' : s'.bearings = r'.bearings) : s.Alike s' := by
  rw [Alike, hs, hs']
  exact h

theorem Alike.announced (h : r.Alike r') (oracle : Oracle) :
    { r with oracle := oracle }.Alike { r' with oracle := oracle } := by
  obtain ⟨hsetup, hhandle, hstopped, hinterruption, hcalls⟩ := alike_iff.mp h
  obtain ⟨hname, hid, hpolicy, -, hcollaborators⟩ := Setup.mk.inj hsetup
  refine alike_iff.mpr ⟨?_, hhandle, hstopped, hinterruption, hcalls⟩
  simp only [setup, hname, hid, hpolicy, hcollaborators]

theorem Alike.perform (h : r.Alike r') (a : RouterAction) : (r.perform a).1.Alike (r'.perform a).1 := by
  cases ha : a.request? with
  | some called =>
    obtain ⟨op, token⟩ := called
    by_cases ho : op = .insert
    · exact h.write (ho ▸ ha)
    · exact h.lookup ha ho
  | none =>
    obtain ⟨hsetup, hhandle, hstopped, hinterruption, hcalls⟩ := alike_iff.mp h
    have horacle : r.oracle = r'.oracle := congrArg Setup.oracle hsetup
    cases a with
    | forward address database q token =>
      have hc : (r.record (.client address database q)).Alike (r'.record (.client address database q)) :=
        h.record rfl
      exact hc.of_bearings (bearings_forward (r.drawn token) ..) (bearings_forward (r'.drawn token) ..)
    | plan op => exact h.ask.1
    | resolve op => exact (h.resolve op).1
    | role => exact h.ask.1
    | shutdown => exact h.shutdown.1
    | setPrimary address =>
      have hn := h.announced (r.oracle.setPrimary address).1
      exact hn.of_bearings (bearings_logAll ..) (horacle ▸ bearings_logAll ..)
    | clearPrimary =>
      have hn := h.announced r.oracle.clearPrimary.1
      exact hn.of_bearings (bearings_logAll ..) (horacle ▸ bearings_logAll ..)
    | replace collaborators =>
      obtain ⟨hname, hid, hpolicy, -⟩ := Setup.mk.inj hsetup
      refine alike_iff.mpr ⟨?_, hhandle, hstopped, hinterruption, hcalls⟩
      simp only [Router.perform, Router.performWith, setup, hname, hid, hpolicy, horacle]
    | interrupt i => exact alike_iff.mpr ⟨hsetup, hhandle, hstopped, rfl, hcalls⟩
    | engineAnswers n reply => exact h.of_bearings (bearings_settleOwed ..) (bearings_settleOwed ..)
    | clientAnswers n reply => exact h.of_bearings (bearings_settleOwed ..) (bearings_settleOwed ..)
    | persistenceAnswers n reply => exact h.of_bearings (bearings_settleOwed ..) (bearings_settleOwed ..)
    | listen | poll => exact h
    | _ => cases ha

end Alike
/-! ### What a refused request does -/

section Refused
variable {r : Router} {e : RouterError}

theorem choose_unavailable {s : Snapshot} (h : s.primary = none) (policy : Policy) (access : Access)
    (attached : Bool) : Plan.choose s policy access attached = .unavailable := by
  rw [Plan.choose, h]

theorem resolve_refused (he : r.refusal? = some e) (op : Operation) : r.resolve op = (r.queried, .error e) := by
  have hp := r.primary_ask
  unfold refusal? at he
  unfold resolve resolveWith queried
  by_cases hs : r.stopped = true
  · rw [if_pos hs] at he
    obtain rfl := Option.some.inj he
    simp only [if_pos hs]
  · rw [if_neg hs] at he
    simp only [if_neg hs]
    cases hprimary : r.oracle.primary with
    | none =>
      rw [hprimary] at he hp
      obtain rfl := Option.some.inj he
      rw [choose_unavailable hp]
      rfl
    | some p =>
      rw [hprimary] at he
      cases he

theorem perform_refused {a : RouterAction} {op : Operation} {token : Option Result.TokenValue}
    (ha : a.request? = some (op, token)) (he : r.refusal? = some e) :
    (r.perform a).1.bearings = (r.drawn token).queried.bearings ∧
      Fails op (.make r.net.contexts token) e (r.perform a) := by
  by_cases ho : op = .insert
  · subst ho
    obtain ⟨group, -, hd⟩ := r.perform_write ha
    refine ⟨?_, r.write_fails ha he⟩
    rw [hd]
    show (Router.insert _ _ _).1.bearings = _
    rw [bearings_insert, refusal?_drawn, he]
    exact Bearings.add_nil _
  · have hr : (r.drawn token).resolve op = ((r.drawn token).queried, .error e) :=
      resolve_refused (r := r.drawn token) he op
    refine ⟨?_, r.lookup_fails ha ho (.inl (congrArg Prod.snd hr))⟩
    rw [r.bearings_lookup ha ho, hr]
    exact Bearings.add_nil _

theorem queried_eq_self (h : (r.stopped || r.interruption.isNone) = true) : r.queried = r := by
  unfold queried
  split
  · rfl
  · rename_i hs
    rw [Bool.not_eq_true] at hs
    rw [hs, Bool.false_or, Option.isNone_iff_eq_none] at h
    exact ask_eq_self h

theorem queried_refused (he : r.refusal? = some e)
    (hi : r.stopped = true ∨ r.interruption ≠ some .shutdown) :
    r.queried.calls = r.calls ∧ r.queried.handle = r.handle ∧ r.queried.stopped = r.stopped := by
  by_cases hs : r.stopped = true
  · rw [queried, if_pos hs]
    exact ⟨rfl, rfl, rfl⟩
  · rw [queried, if_neg hs]
    show r.interrupt.calls = _ ∧ r.interrupt.handle = _ ∧ r.interrupt.stopped = _
    unfold interrupt
    split
    · exact ⟨rfl, rfl, rfl⟩
    · rename_i h
      exact absurd h (hi.resolve_left hs)
    · -- without a primary the other resolution finds no target either
      rename_i op _
      have hp : r.oracle.snapshot.primary = none := by
        unfold refusal? at he
        rw [if_neg hs] at he
        cases hprimary : r.oracle.primary with
        | none => exact hprimary
        | some p =>
          rw [hprimary] at he
          cases he
      unfold resolveWith
      rw [if_neg hs]
      dsimp only
      rw [choose_unavailable hp]
      exact ⟨rfl, rfl, rfl⟩

theorem bearings_rejected {a : RouterAction} (h : r.rejects a = true) :
    (r.perform a).1.bearings = r.bearings := by
  simp only [rejects, Bool.and_eq_true] at h
  obtain ⟨⟨ha, he⟩, hi⟩ := h
  obtain ⟨⟨op, token⟩, ha⟩ := Option.isSome_iff_exists.mp ha
  obtain ⟨e, he⟩ := Option.isSome_iff_exists.mp he
  have hq : (r.drawn token).queried = r.drawn token := queried_eq_self hi
  rw [(perform_refused ha he).1, hq]
  rfl

theorem Alike.run_admitted {r' : Router} (h : r.Alike r') (as : List RouterAction) :
    (r.run as).1.Alike (r'.run (r.admitted as)).1 := by
  induction as generalizing r r' with
  | nil => exact h
  | cons a as ih =>
    unfold admitted
    split
    · rename_i hr
      exact ih (h.of_bearings (bearings_rejected hr) rfl)
    · exact ih (h.perform a)

theorem listen_settled {cell : Nat} {context : Option Context} {o : Outcome Engine.Reply}
    (h : r.net.cells[cell]? = some ⟨context, some o⟩) (tag : String) :
    (r.perform (.listen cell tag)).1.net.history = r.net.history ++
      [.registered r.net.registrations cell,
        .started r.net.registrations cell (some tag) o context] := by
  have ho : r.net.outcomeAt cell = some o := congrArg (·.bind (·.outcome)) h
  have hc : r.net.contextAt cell = context := congrArg (·.bind (·.context)) h
  have hdone : ∀ n : Result.Network Engine.Reply, n.deliver [.body tag [] false] = n := by
    intro n
    rw [Result.Network.deliver, Result.Machine.run]
    show (Result.Machine.run ⟨n, [], .nothing⟩).network = n
    rw [Result.Machine.run]
    rfl
  rcases r.net.register_cases cell (.script tag [] false) with ⟨hn, -⟩ | ⟨o', hs, hr⟩
  · rw [ho] at hn
    cases hn
  · obtain rfl : o = o' := Option.some.inj (ho.symm.trans hs)
    show ((r.net.register cell (.script tag [] false)).1.deliver
      (r.net.register cell (.script tag [] false)).2).history = _
    rw [hr, hc]
    refine (congrArg Result.Network.history (hdone _)).trans ?_
    exact List.append_assoc ..

/-- Whoever asks for the result or listens on it later is told the same, with the context of the call. -/
theorem Fails.lasting {op : Operation} {context : Context} {done : Router × RouterAnswer}
    (hf : Fails op context e done) (hd : done.1.Tidy) :
    if op = .comparators then done.2 = .comparators (.error e)
    else ∃ cell, done.2 = .result cell (some (.failed (.router e))) ∧
      ∀ later, let r' := (done.1.run later).1
        (r'.perform (.poll cell)).2 = .outcome (some (.failed (.router e))) ∧
        ∀ tag, (r'.perform (.listen cell tag)).1.net.history = r'.net.history ++
          [.registered r'.net.registrations cell,
            .started r'.net.registrations cell (some tag) (.failed (.router e)) (some context)] := by
  unfold Fails at hf
  split at hf
  · rename_i ho
    rw [if_pos ho]
    exact hf
  · rename_i ho
    obtain ⟨cell, hanswer, hcell⟩ := hf
    rw [if_neg ho]
    refine ⟨cell, hanswer, fun later => ?_⟩
    have hlater := (hd.run later).2.holds hcell
    exact ⟨congrArg RouterAnswer.outcome (congrArg (·.bind (·.outcome)) hlater),
      fun tag => listen_settled hlater tag⟩

theorem code_refusal (he : r.refusal? = some e) :
    e.code = if r.stopped then .shutdown else .replicationUnavailable := by
  unfold refusal? at he
  split at he
  · rename_i hs
    obtain rfl := Option.some.inj he
    exact (if_pos hs).symm
  · rename_i hs
    split at he
    · obtain rfl := Option.some.inj he
      exact (if_neg hs).symm
    · cases he

end Refused

/-- After any run a router that was shut down, or else one that knows no primary, refuses each request with the
error that goes with it. The refusal is there when the call returns, with the context of the call, for those
who ask and those who listen at any later time. Nobody is called and neither the handle nor the shutdown
changes, but for a shutdown that falls into the call. Left out of a run, the refused requests are not
missed: later requests have the same targets and make the same calls. -/
theorem run_refuses {r₀ : Router} (h₀ : r₀.New) (before : List RouterAction) :
    let r := (r₀.run before).1
    (∀ a op token e, a.request? = some (op, token) → r.refusal? = some e →
      let context : Context := .make r.net.contexts token
      let done := r.perform a
      e.code = (if r.stopped then .shutdown else .replicationUnavailable) ∧
      (if op = .comparators then done.2 = .comparators (.error e)
      else ∃ cell, done.2 = .result cell (some (.failed (.router e))) ∧
        ∀ later, let r' := (done.1.run later).1
          (r'.perform (.poll cell)).2 = .outcome (some (.failed (.router e))) ∧
          ∀ tag, (r'.perform (.listen cell tag)).1.net.history = r'.net.history ++
            [.registered r'.net.registrations cell,
              .started r'.net.registrations cell (some tag) (.failed (.router e)) (some context)]) ∧
      (r.stopped = true ∨ r.interruption ≠ some .shutdown →
        done.1.calls = r.calls ∧ done.1.handle = r.handle ∧ done.1.stopped = r.stopped) ∧
      done.1.bearings = (r.drawn token).queried.bearings) ∧
    (∀ as, let r' := (r.run as).1
      let without := (r.run (r.admitted as)).1
      r'.Alike without ∧ ∀ op, (r'.resolve op).2 = (without.resolve op).2) := by
  intro r
  have hr : r.Tidy := (h₀.tidy.run before).1
  constructor
  · intro a op token e ha he context done
    obtain ⟨hb, hf⟩ := perform_refused ha he
    have hd : done.1.Tidy := hr.next a
    refine ⟨code_refusal he, hf.lasting hd, fun hi => ?_, hb⟩
    obtain ⟨hcalls, hhandle, hstopped⟩ := queried_refused (r := r.drawn token) he hi
    exact ⟨(congrArg Bearings.calls hb).trans hcalls, (congrArg Bearings.handle hb).trans hhandle,
      (congrArg Bearings.stopped hb).trans hstopped⟩
  · intro as r' without
    have h : r'.Alike without := Alike.run_admitted rfl as
    exact ⟨h, fun op => (h.resolve op).2⟩

/-- A read while no primary is known and a write after it: once this node is primary, the next read goes to
the handle as if they had not been made. -/
theorem run_refuses_announced :
    let here : SocketAddress := ⟨.v4 10 0 0 1, 1⟩
    let bench : Bench := { database := "accounts", catalog := some "accounts" }
    let r := withHandle ⟨"accounts", 0⟩ 0 .primaryOnly (.shared ⟨here, none⟩) bench.collaborators
    let q : Engine.Read := .lookup 0 []
    let as : List RouterAction :=
      [.read q (some (.number 17)), .singleInsert 0 [] [] none, .setPrimary here, .read q none]
    (∃ cell, (r.perform (.read q (some (.number 17)))).2 =
        .result cell (some (.failed (.router .noQuorum)))) ∧
      (r.perform (.read q (some (.number 17)))).1.calls = [] ∧
      (r.run as).1.Alike (r.run [.setPrimary here, .read q none]).1 ∧
      (r.run as).1.calls = [.engine ⟨"accounts", 0⟩ (.read q) (.make 2 none)] := by
  intro here bench r q as
  have h₀ : r.New := .withHandle ..
  obtain ⟨hrefused, hrest⟩ := run_refuses h₀ []
  obtain ⟨-, ⟨cell, hanswer, -⟩, hkept, -⟩ :=
    hrefused (.read q (some (.number 17))) .lookup (some (.number 17)) .noQuorum rfl rfl
  have hadmitted : r.admitted as = [.setPrimary here, .read q none] := by rfl
  have halike := (hrest as).1
  rw [show (r.run []).1 = r from rfl, hadmitted] at halike
  exact ⟨⟨cell, hanswer⟩, (hkept (.inr nofun)).1, halike, by decide +kernel⟩

end Router
end ReplicaRouting
