import ReplicaRouting.Proofs.Router.Owing
import ReplicaRouting.Router.Bench
/-!
Where the reads of a running router go. The primary of the moment, the policy and the handle that is
attached when the call begins decide between this node and the primary; nothing is remembered of earlier
answers of the oracle.
-/

namespace ReplicaRouting

open Net (SocketAddress)
open Result (Context Outcome)

namespace Router
variable (r : Router)

/-- This node serves a read: it may by the policy, and it has a handle or may have one attached. -/
def ServesReads (primary : SocketAddress) : Prop :=
  (r.oracle.isSelf primary = true ∨ r.policy.readsAtPrimary = false) ∧
    (r.handle.isSome = true ∨ r.oracle.isSelf primary = true ∨ r.policy.writesAtPrimary = false)

instance (primary : SocketAddress) : Decidable (r.ServesReads primary) :=
  inferInstanceAs (Decidable (_ ∧ _))

/-- The router is not shut down, nor will it be before the oracle answers. -/
def Running : Prop := r.stopped = false ∧ r.interruption ≠ some .shutdown

/-- The handle that serves calls here: the attached one, else the catalog's for the router's name. -/
def localHandle : Except RouterError Handle :=
  match r.handle with
  | some h => .ok h
  | none => r.collaborators.catalog r.name

/-- The calls of the catalog with which the router looks for its handle. -/
def Seeks (attaches : Bool) (calls : List Call) : Prop :=
  (∀ c ∈ calls, c = .catalog r.name) ∧ (r.handle.isSome = true → calls = []) ∧
    (r.interruption = none → calls = if attaches && r.handle.isNone then [.catalog r.name] else [])

/-! ### Attachment -/

structure Attaches (r r' : Router) : Prop where
  stopped : r'.stopped = false
  setup : r'.setup = r.setup
  handle : ∀ h, r.handle = some h → r'.handle = some h
  localHandle : r'.localHandle = r.localHandle
  calls : ∃ sought, (∀ c ∈ sought, c = .catalog r.name) ∧ (r.handle.isSome = true → sought = []) ∧
    r'.calls = r.calls ++ sought

variable {r} {r' r'' : Router}

theorem Attaches.refl (h : r.stopped = false) : r.Attaches r :=
  ⟨h, rfl, fun _ h => h, rfl, [], List.forall_mem_nil _, fun _ => rfl, (List.append_nil _).symm⟩

theorem Attaches.trans (h : r.Attaches r') (h' : r'.Attaches r'') : r.Attaches r'' := by
  obtain ⟨sought, hs, hn, hc⟩ := h.calls
  obtain ⟨sought', hs', hn', hc'⟩ := h'.calls
  have hname : r'.name = r.name := congrArg Setup.name h.setup
  refine ⟨h'.stopped, h'.setup.trans h.setup, fun x hx => h'.handle x (h.handle x hx),
    h'.localHandle.trans h.localHandle, sought ++ sought', ?_, ?_, ?_⟩
  · intro c hc
    rcases List.mem_append.mp hc with hc | hc
    · exact hs c hc
    · exact hname ▸ hs' c hc
  · intro ha
    obtain ⟨x, hx⟩ := Option.isSome_iff_exists.mp ha
    rw [hn ha, hn' (by rw [h.handle x hx]; rfl)]
    rfl
  · rw [hc', hc, List.append_assoc]

theorem attach_eq (h : r.stopped = false) :
    r.Attaches r.attach.1 ∧ r.attach.2 = r.localHandle ∧
      r.attach.1.calls = r.calls ++ if r.handle.isNone then [.catalog r.name] else [] := by
  have hs : ¬ r.stopped = true := by rw [h]; exact Bool.false_ne_true
  unfold attach
  rw [if_neg hs]
  cases hh : r.handle with
  | some x =>
    refine ⟨.refl h, ?_, (List.append_nil _).symm⟩
    rw [localHandle, hh]
  | none =>
    have hl : r.localHandle = r.collaborators.catalog r.name := by rw [localHandle, hh]
    dsimp only
    split
    · rename_i e he
      refine ⟨⟨h, rfl, fun x hx => ?_, rfl, [.catalog r.name], ?_, ?_, rfl⟩, ?_, rfl⟩
      · rw [hh] at hx
        cases hx
      · exact fun c hc => List.mem_singleton.mp hc
      · intro ha
        rw [hh] at ha
        cases ha
      · rw [hl, he]
    · rename_i x he
      refine ⟨⟨h, rfl, fun x hx => ?_, ?_, [.catalog r.name], ?_, ?_, rfl⟩, ?_, rfl⟩
      · rw [hh] at hx
        cases hx
      · rw [hl, he]
        rfl
      · exact fun c hc => List.mem_singleton.mp hc
      · intro ha
        rw [hh] at ha
        cases ha
      · rw [hl, he]

theorem follow_attaches (h : r.stopped = false) (handle : Option Handle) (plan : Plan) :
    r.Attaches (r.follow handle plan).1 := by
  unfold follow
  split
  · exact .refl h
  · exact .refl h
  · exact .refl h
  · exact (attach_eq h).1

theorem ask_attaches (hr : r.Running) : r.Attaches r.ask.1 := by
  obtain ⟨hs, hi⟩ := hr
  show r.Attaches r.interrupt
  unfold interrupt
  split
  · exact .refl hs
  · rename_i h
    exact absurd h hi
  · -- another call is resolved meanwhile; only its attachment is felt
    have hn : ¬ r.stopped = true := by rw [hs]; exact Bool.false_ne_true
    rename_i op _
    have h := follow_attaches (r := { r with interruption := none }) hs r.handle
      (Plan.choose r.oracle.snapshot r.policy op.access r.handle.isSome)
    have hr : r.Attaches { r with interruption := none } :=
      ⟨hs, rfl, fun _ h => h, rfl, [], List.forall_mem_nil _, fun _ => rfl,
        (List.append_nil _).symm⟩
    apply hr.trans
    unfold resolveWith
    rw [if_neg hn]
    exact h

theorem ask_eq_self (h : r.interruption = none) : r.ask.1 = r := by
  show r.interrupt = r
  rw [interrupt, h]

theorem ask_snapshot (hr : r.Running) : r.ask.2 = r.oracle.snapshot := by
  have h : r.ask.1.oracle = r.oracle := congrArg Setup.oracle (ask_attaches hr).setup
  show r.ask.1.oracle.snapshot = _
  rw [h]

theorem resolve_eq (hr : r.Running) (op : Operation) :
    r.resolve op =
      r.ask.1.follow r.handle
        (Plan.choose r.oracle.snapshot r.policy op.access r.handle.isSome) := by
  have hn : ¬ r.stopped = true := by rw [hr.1]; exact Bool.false_ne_true
  unfold resolve resolveWith
  rw [if_neg hn, ← ask_snapshot hr]

/-! ### The target of a read -/

section Resolve
variable {p : SocketAddress} (hr : r.Running) (hp : r.oracle.primary = some p)
include hp

theorem choose_serves (hs : r.ServesReads p) :
    Plan.choose r.oracle.snapshot r.policy .read r.handle.isSome =
      if r.handle.isSome then .localHandle else .attachFirst := by
  obtain ⟨hread, hhandle⟩ := hs
  have hmay : (!r.oracle.isSelf p && r.policy.readsAtPrimary) = false := by
    rcases hread with h | h
    · rw [h]
      rfl
    · rw [h, Bool.and_false]
  simp only [Plan.choose, Oracle.snapshot, hp, Option.any_some, Policy.atPrimary, hmay,
    Bool.false_eq_true, if_false]
  split
  · rfl
  · rename_i hn
    apply if_pos
    rcases hhandle with h | h | h
    · exact absurd h hn
    · rw [h]
      rfl
    · rw [h]
      exact Bool.or_true _

theorem choose_remote (hs : ¬ r.ServesReads p) :
    Plan.choose r.oracle.snapshot r.policy .read r.handle.isSome = .remote p := by
  simp only [Plan.choose, Oracle.snapshot, hp, Option.any_some, Policy.atPrimary]
  split
  · rfl
  · rename_i hmay
    have hread : r.oracle.isSelf p = true ∨ r.policy.readsAtPrimary = false := by
      cases h : r.oracle.isSelf p
      · rw [h] at hmay
        exact .inr (Bool.not_eq_true _ ▸ hmay)
      · exact .inl rfl
    have hn :
        ¬ (r.handle.isSome = true ∨ r.oracle.isSelf p = true ∨ r.policy.writesAtPrimary = false) :=
      fun h => hs ⟨hread, h⟩
    rw [not_or, not_or] at hn
    obtain ⟨h₁, h₂, h₃⟩ := hn
    rw [if_neg h₁, if_neg]
    rw [Bool.or_eq_true, Bool.not_eq_true', not_or]
    exact ⟨h₂, h₃⟩

include hr

theorem resolve_serves {op : Operation} (ho : op.access = .read) (hs : r.ServesReads p) :
    (r.resolve op).2 = r.localHandle.map .engine ∧
      ∃ sought, r.Seeks true sought ∧ (r.resolve op).1.calls = r.calls ++ sought := by
  have ha := ask_attaches hr
  obtain ⟨sought, hsought, hnone, hcalls⟩ := ha.calls
  rw [resolve_eq hr, ho, choose_serves hp hs]
  cases hh : r.handle with
  | some x =>
    have hsome : r.handle.isSome = true := by rw [hh]; rfl
    obtain rfl := hnone hsome
    -- with a handle attached nobody asks the catalog
    refine ⟨?_, [], ⟨List.forall_mem_nil _, fun _ => rfl, fun _ => ?_⟩, hcalls⟩
    · rw [localHandle, hh]
      rfl
    · rw [hh]
      rfl
  | none =>
    obtain ⟨-, hat, hac⟩ := attach_eq ha.stopped
    have hname : r.ask.1.name = r.name := congrArg Setup.name ha.setup
    refine ⟨?_, _, ⟨?_, ?_, ?_⟩, hac.trans (hcalls ▸ List.append_assoc ..)⟩
    · show r.ask.1.attach.2.map Target.engine = _
      rw [hat, ha.localHandle]
    · -- a call that came between may have asked the catalog before this one does
      intro c hc
      rcases List.mem_append.mp hc with hc | hc
      · exact hsought c hc
      · split at hc
        · exact hname ▸ List.mem_singleton.mp hc
        · cases hc
    · intro h
      rw [hh] at h
      cases h
    · intro hi
      have hself := ask_eq_self hi
      rw [hself] at hcalls
      rw [List.self_eq_append_right.mp hcalls, hself, hh]
      rfl

theorem resolve_remote {op : Operation} (ho : op.access = .read) (hs : ¬ r.ServesReads p) :
    (r.resolve op).2 = .ok (.remote p) ∧
      ∃ sought, r.Seeks false sought ∧ (r.resolve op).1.calls = r.calls ++ sought := by
  obtain ⟨sought, hsought, hnone, hcalls⟩ := (ask_attaches hr).calls
  rw [resolve_eq hr, ho, choose_remote hp hs]
  refine ⟨rfl, sought, ⟨hsought, hnone, fun hi => ?_⟩, hcalls⟩
  rw [ask_eq_self hi] at hcalls
  exact List.self_eq_append_right.mp hcalls

theorem localOnly_serves {op : Operation} (ho : op.access = .read) (hs : r.ServesReads p)
    (context : Context) :
    (r.localOnly op context).2 = r.localHandle ∧
      ∃ sought, r.Seeks true sought ∧ (r.localOnly op context).1.calls = r.calls ++ sought := by
  obtain ⟨he, sought, hseeks, hcalls⟩ := resolve_serves hr hp ho hs
  unfold localOnly
  generalize r.resolve op = resolved at he hcalls ⊢
  cases hl : r.localHandle with
  | ok h =>
    rw [hl] at he
    simp only [he, Except.map]
    exact ⟨trivial, sought, hseeks, hcalls⟩
  | error e =>
    rw [hl] at he
    simp only [he, Except.map]
    exact ⟨trivial, sought, hseeks, hcalls⟩

theorem localOnly_remote {op : Operation} (ho : op.access = .read) (hs : ¬ r.ServesReads p)
    (context : Context) :
    (r.localOnly op context).2 = .error (.unsupported op.name) ∧
      ∃ sought, r.Seeks false sought ∧ (r.localOnly op context).1.calls = r.calls ++ sought := by
  obtain ⟨he, sought, hseeks, hcalls⟩ := resolve_remote hr hp ho hs
  unfold localOnly
  generalize r.resolve op = resolved at he hcalls ⊢
  simp only [he]
  exact ⟨trivial, sought, hseeks, hcalls⟩

end Resolve

/-! ### The calls -/

theorem serve_calls (r : Router) (h : Handle) (request : Engine.Request) (context : Context) :
    (r.serve h request context).1.calls = r.calls ++ [.engine h request context] := by
  unfold serve
  dsimp only
  split <;> rfl

theorem forward_calls (r : Router) (address : SocketAddress) (database : String) (q : Engine.Read)
    (context : Context) :
    (r.forward address database q context).1.calls = r.calls ++ [.client address database q] := by
  have h : (r.send address database q).1.calls = r.calls ++ [.client address database q] := by
    unfold send
    dsimp only
    split <;> rfl
  unfold forward forwardWith
  generalize r.send address database q = sent at h ⊢
  exact h

def lookup (r : Router) (request : Engine.Request) (context : Context) : Router × Nat :=
  match request with
  | .read q => r.read q context
  | .userDefined u => r.userDefined u context

theorem access_read (q : Engine.Read) : q.operation.access = .read := by
  cases q <;> rfl

theorem access_userDefined : Operation.userDefinedLookup.access = .read := rfl

theorem access_comparators : Operation.comparators.access = .read := rfl

section Lookup
variable {p : SocketAddress} (ht : r.Tidy) (hr : r.Running) (hp : r.oracle.primary = some p)
include ht

/-- Whatever was done to find the handle, the engine is asked as if the router had it at once. -/
theorem Tidy.serve_found (hk : r.Keeps r') {sought : List Call}
    (hcalls : r'.calls = r.calls ++ sought) (h : Handle)
    (request : Engine.Request) (context : Context) :
    let done := r'.serve h request context
    done.1.calls = r.calls ++ sought ++ [.engine h request context] ∧
      ∀ later, (done.1.run later).1.net.outcomeAt done.2 =
        (r.collaborators.engine h request context).outcomeIn r.owedByEngine.length later := by
  have ho : r'.owedByEngine = r.owedByEngine := congrArg Books.byEngine hk.books
  have hc : r'.collaborators = r.collaborators := congrArg Setup.collaborators hk.setup
  refine ⟨?_, fun later => ?_⟩
  · rw [serve_calls, hcalls]
  · rw [← hc, ← ho]
    exact (ht.keeps hk).tidy.serve_later h request context later

theorem Tidy.failed_found (hk : r.Keeps r') (e : RouterError) (context : Context) :
    let done := r'.failed e context
    ∀ later, (done.1.run later).1.net.outcomeAt done.2 = some (.failed (.router e)) :=
  (ht.keeps hk).tidy.result_later context (.failed (.router e))

include hr hp

theorem Tidy.lookup_serves (hs : r.ServesReads p) (request : Engine.Request) (context : Context) :
    let done := r.lookup request context
    ∃ sought, r.Seeks true sought ∧
      match r.localHandle with
      | .ok h => done.1.calls = r.calls ++ sought ++ [.engine h request context] ∧
          ∀ later, (done.1.run later).1.net.outcomeAt done.2 =
            (r.collaborators.engine h request context).outcomeIn r.owedByEngine.length later
      | .error e => done.1.calls = r.calls ++ sought ∧
          ∀ later, (done.1.run later).1.net.outcomeAt done.2 = some (.failed (.router e)) := by
  cases request with
  | read q =>
    obtain ⟨he, sought, hseeks, hcalls⟩ := resolve_serves hr hp (access_read q) hs
    have hk := r.keeps_resolve q.operation
    simp only [lookup, Router.read, Router.readWith]
    generalize r.resolve q.operation = resolved at he hcalls hk ⊢
    refine ⟨sought, hseeks, ?_⟩
    cases hl : r.localHandle with
    | ok h =>
      rw [hl] at he
      simp only [he, Except.map]
      exact ht.serve_found ((hk.count _).log _) hcalls h _ context
    | error e =>
      rw [hl] at he
      simp only [he, Except.map]
      exact ⟨hcalls, ht.failed_found (hk.reject q.operation e context) e context⟩
  | userDefined u =>
    obtain ⟨he, sought, hseeks, hcalls⟩ := localOnly_serves hr hp access_userDefined hs context
    have hk := r.keeps_localOnly .userDefinedLookup context
    simp only [lookup, Router.userDefined]
    generalize r.localOnly .userDefinedLookup context = found at he hcalls hk ⊢
    refine ⟨sought, hseeks, ?_⟩
    cases hl : r.localHandle with
    | ok h =>
      simp only [he, hl]
      exact ht.serve_found hk hcalls h _ context
    | error e =>
      simp only [he, hl]
      exact ⟨hcalls, ht.failed_found hk e context⟩

theorem Tidy.lookup_remote (hs : ¬ r.ServesReads p) (request : Engine.Request) (context : Context) :
    let done := r.lookup request context
    ∃ sought, r.Seeks false sought ∧
      match request with
      | .read q => done.1.calls = r.calls ++ sought ++ [.client p r.name q]
      | .userDefined _ => done.1.calls = r.calls ++ sought ∧
          ∀ later, (done.1.run later).1.net.outcomeAt done.2 =
            some (.failed (.router (.unsupported Operation.userDefinedLookup.name))) := by
  cases request with
  | read q =>
    obtain ⟨he, sought, hseeks, hcalls⟩ := resolve_remote hr hp (access_read q) hs
    have hn : (r.resolve q.operation).1.name = r.name :=
      congrArg Setup.name (r.keeps_resolve q.operation).setup
    simp only [lookup, Router.read, Router.readWith]
    rw [forwardWith_deliver]
    generalize r.resolve q.operation = resolved at he hcalls hn ⊢
    refine ⟨sought, hseeks, ?_⟩
    simp only [he]
    rw [forward_calls, ← hn]
    exact congrArg (· ++ _) hcalls
  | userDefined u =>
    obtain ⟨he, sought, hseeks, hcalls⟩ := localOnly_remote hr hp access_userDefined hs context
    have hk := r.keeps_localOnly .userDefinedLookup context
    simp only [lookup, Router.userDefined]
    generalize r.localOnly .userDefinedLookup context = found at he hcalls hk ⊢
    refine ⟨sought, hseeks, ?_⟩
    simp only [he]
    exact ⟨hcalls, ht.failed_found hk _ context⟩

omit ht hr hp in
theorem comparators_eq {found : Router × Except RouterError Handle}
    (h : { r with net := (r.net.freshContext none).1 }.localOnly .comparators
      (r.net.freshContext none).2 = found) :
    r.comparators =
      match found.2 with
      | .error e => (found.1, .error e)
      | .ok h => (found.1.record (.comparators h), .ok (found.1.collaborators.comparators h)) := by
  rw [← h]
  rfl

omit ht in
theorem comparators_serves (hs : r.ServesReads p) :
    let done := r.comparators
    ∃ sought, r.Seeks true sought ∧
      match r.localHandle with
      | .ok h => done.1.calls = r.calls ++ sought ++ [.comparators h] ∧
          done.2 = .ok (r.collaborators.comparators h)
      | .error e => done.1.calls = r.calls ++ sought ∧ done.2 = .error e := by
  let begun : Router := { r with net := (r.net.freshContext none).1 }
  obtain ⟨he, sought, hseeks, hcalls⟩ :=
    localOnly_serves (r := begun) hr hp access_comparators hs (r.net.freshContext none).2
  have hc :
      (begun.localOnly .comparators (r.net.freshContext none).2).1.collaborators =
        r.collaborators :=
    congrArg Setup.collaborators (begun.keeps_localOnly .comparators _).setup
  have he : (begun.localOnly .comparators (r.net.freshContext none).2).2 = r.localHandle := he
  refine ⟨sought, hseeks, ?_⟩
  generalize hf : begun.localOnly .comparators (r.net.freshContext none).2 = found at he hcalls hc
  rw [comparators_eq hf, he]
  cases r.localHandle with
  | ok h => exact ⟨congrArg (· ++ _) hcalls, by rw [← hc]⟩
  | error e => exact ⟨hcalls, rfl⟩

omit ht in
theorem comparators_remote (hs : ¬ r.ServesReads p) :
    let done := r.comparators
    ∃ sought, r.Seeks false sought ∧ done.1.calls = r.calls ++ sought ∧
      done.2 = .error (.unsupported Operation.comparators.name) := by
  let begun : Router := { r with net := (r.net.freshContext none).1 }
  obtain ⟨he, sought, hseeks, hcalls⟩ :=
    localOnly_remote (r := begun) hr hp access_comparators hs (r.net.freshContext none).2
  refine ⟨sought, hseeks, ?_⟩
  generalize hf : begun.localOnly .comparators (r.net.freshContext none).2 = found at he hcalls
  rw [comparators_eq hf, he]
  exact ⟨hcalls, rfl⟩

end Lookup

/-! ### Whole runs -/

inductive New : Router → Prop
  | make (name : String) (id : UInt32) (policy : Policy) (oracle : Oracle)
    (collaborators : Collaborators) :
      New (make name id policy oracle collaborators)
  | withHandle (handle : Handle) (id : UInt32) (policy : Policy) (oracle : Oracle)
      (collaborators : Collaborators) : New (withHandle handle id policy oracle collaborators)

theorem New.tidy (h : r.New) : r.Tidy := by
  cases h with
  | make | withHandle =>
    exact ⟨List.forall_mem_nil _, List.forall_mem_nil _, List.forall_mem_nil _,
      List.forall_mem_nil _, List.nodup_nil⟩

end Router

def Engine.Request.action (token : Option Result.TokenValue) : Engine.Request → RouterAction
  | .read q => .read q token
  | .userDefined u => .userDefined u token

namespace Router

theorem perform_lookup (r : Router) (request : Engine.Request) (token : Option Result.TokenValue) :
    r.perform (request.action token) =
      r.withContext token fun r context => r.lookup request context := by
  cases request <;> rfl

/-- In a running router, after any run, a lookup and a request for the comparators go by the primary that was
announced last. Served here they make one call of the local handle, the attached one or else the catalog's,
and give what the engine gives; without a handle they fail with the catalog's error. Otherwise a read makes
one call of the client, of its own kind and with its own arguments, at the primary, and the others fail. -/
theorem run_routes_reads {r₀ : Router} (h₀ : r₀.New) (before : List RouterAction)
    {p : SocketAddress}
    (hp : before.foldl (fun p a => a.announces p) r₀.oracle.primary = some p)
    (hr : (r₀.run before).1.Running) :
    let r := (r₀.run before).1
    (∀ (request : Engine.Request) (token : Option Result.TokenValue),
      let context : Context := .make r.net.contexts token
      let done := r.perform (request.action token)
      ∃ sought cell, done.2 = .result cell (done.1.net.outcomeAt cell) ∧
        (r.ServesReads p → r.Seeks true sought ∧
          match r.localHandle with
          | .ok h => done.1.calls = r.calls ++ sought ++ [.engine h request context] ∧
              ∀ later, (done.1.run later).1.net.outcomeAt cell =
                (r.collaborators.engine h request context).outcomeIn r.owedByEngine.length later
          | .error e => done.1.calls = r.calls ++ sought ∧
              ∀ later, (done.1.run later).1.net.outcomeAt cell = some (.failed (.router e))) ∧
        (¬ r.ServesReads p → r.Seeks false sought ∧
          match request with
          | .read q => done.1.calls = r.calls ++ sought ++ [.client p r.name q]
          | .userDefined _ => done.1.calls = r.calls ++ sought ∧
              ∀ later, (done.1.run later).1.net.outcomeAt cell =
                some (.failed (.router (.unsupported Operation.userDefinedLookup.name))))) ∧
    (let done := r.perform .comparators
      ∃ sought,
        (r.ServesReads p → r.Seeks true sought ∧
          match r.localHandle with
          | .ok h => done.1.calls = r.calls ++ sought ++ [.comparators h] ∧
              done.2 = .comparators (.ok (r.collaborators.comparators h))
          | .error e => done.1.calls = r.calls ++ sought ∧ done.2 = .comparators (.error e)) ∧
        (¬ r.ServesReads p → r.Seeks false sought ∧ done.1.calls = r.calls ++ sought ∧
          done.2 = .comparators (.error (.unsupported Operation.comparators.name)))) := by
  intro r
  have ht : r.Tidy := (h₀.tidy.run before).1
  have hp : r.oracle.primary = some p := (r₀.primary_run before).trans hp
  constructor
  · intro request token context done
    -- the context is drawn before the lookup begins
    let begun : Router := { r with net := (r.net.freshContext token).1 }
    have hb : begun.Tidy := (ht.fresh token).tidy
    have hd : done = ((begun.lookup request context).1, .result (begun.lookup request context).2
        ((begun.lookup request context).1.net.outcomeAt (begun.lookup request context).2)) :=
      r.perform_lookup request token
    rw [hd]
    by_cases hs : r.ServesReads p
    · obtain ⟨sought, hseeks, h⟩ := hb.lookup_serves hr hp hs request context
      exact ⟨sought, _, rfl, fun _ => ⟨hseeks, h⟩, fun hn => absurd hs hn⟩
    · obtain ⟨sought, hseeks, h⟩ := hb.lookup_remote hr hp hs request context
      exact ⟨sought, _, rfl, fun hn => absurd hn hs, fun _ => ⟨hseeks, h⟩⟩
  · by_cases hs : r.ServesReads p
    · obtain ⟨sought, hseeks, h⟩ := comparators_serves hr hp hs
      refine ⟨sought, fun _ => ⟨hseeks, ?_⟩, fun hn => absurd hs hn⟩
      cases hl : r.localHandle with
      | ok x =>
        rw [hl] at h
        exact ⟨h.1, congrArg RouterAnswer.comparators h.2⟩
      | error e =>
        rw [hl] at h
        exact ⟨h.1, congrArg RouterAnswer.comparators h.2⟩
    · obtain ⟨sought, hseeks, hcalls, he⟩ := comparators_remote hr hp hs
      exact ⟨sought, fun hn => absurd hn hs,
        fun _ => ⟨hseeks, hcalls, congrArg RouterAnswer.comparators he⟩⟩

/-- Three announcements, a read after each: the second goes to the new primary, the third is served here. -/
theorem run_routes_reads_announced :
    let first : SocketAddress := ⟨.v4 10 0 0 2, 1⟩
    let second : SocketAddress := ⟨.v4 10 0 0 3, 1⟩
    let here : SocketAddress := ⟨.v4 10 0 0 1, 1⟩
    let bench : Bench := { database := "accounts", catalog := some "accounts" }
    let r₀ := make "accounts" 1 .writesToPrimary (.shared ⟨here, none⟩) bench.collaborators
    let q : Engine.Read := .lookup 1 []
    let leaving : List RouterAction := [.setPrimary first, .read q none, .setPrimary second]
    let returning := leaving ++ [.read q none, .setPrimary here]
    let away := (r₀.run leaving).1
    let home := (r₀.run returning).1
    (away.perform (.read q none)).1.calls = away.calls ++ [.client second "accounts" q] ∧
      (home.perform (.read q none)).1.calls =
        home.calls ++ [.catalog "accounts", .engine ⟨"accounts", 0⟩ (.read q) (.make 2 none)] := by
  intro first second here bench r₀ q leaving returning
  have h₀ : r₀.New := .make ..
  refine ⟨?_, ?_⟩
  · obtain ⟨h, -⟩ := run_routes_reads h₀ leaving rfl ⟨by decide +kernel, by decide +kernel⟩
    have hremote : ¬ (r₀.run leaving).1.ServesReads second := by decide +kernel
    have hidle : (r₀.run leaving).1.interruption = none := by decide +kernel
    have hname : (r₀.run leaving).1.name = "accounts" := by decide +kernel
    generalize (r₀.run leaving).1 = away at *
    obtain ⟨sought, cell, -, -, hcalls⟩ := h (.read q) none
    obtain ⟨⟨-, -, hseeks⟩, hcalls⟩ := hcalls hremote
    obtain rfl : sought = [] := hseeks hidle
    rw [hname, List.append_nil] at hcalls
    exact hcalls
  · obtain ⟨h, -⟩ := run_routes_reads h₀ returning rfl ⟨by decide +kernel, by decide +kernel⟩
    have hserves : (r₀.run returning).1.ServesReads here := by decide +kernel
    have hidle : (r₀.run returning).1.interruption = none := by decide +kernel
    have hname : (r₀.run returning).1.name = "accounts" := by decide +kernel
    have hhandle : (r₀.run returning).1.handle = none := by decide +kernel
    have hsetup := r₀.setup_run returning
    have hcontexts : (r₀.run returning).1.net.contexts = 2 := by decide +kernel
    generalize (r₀.run returning).1 = home at *
    have hcollaborators : home.collaborators = bench.collaborators :=
      congrArg Setup.collaborators hsetup
    obtain ⟨sought, cell, -, hcalls, -⟩ := h (.read q) none
    obtain ⟨⟨-, -, hseeks⟩, hcalls⟩ := hcalls hserves
    obtain rfl := hseeks hidle
    rw [localHandle, hhandle, hcollaborators, hname, hcontexts] at hcalls
    exact hcalls.1.trans (List.append_assoc ..)

end Router
end ReplicaRouting
