import Mathlib.Data.List.Basic
import ReplicaRouting.Proofs.Result.Completers
/-!
Failures of forwarded reads. The recorder is the first listener of its result, so a failure is counted and
logged once, before any listener of a caller hears of it.
-/

namespace ReplicaRouting

/-- The code that stands for the counter of a failed read. -/
def ErrorCode.bucket : ErrorCode → ErrorCode
  | .noSuchDatabase => .noSuchDatabase
  | .noSuchIndex => .noSuchIndex
  | _ => .replicationFailure

def Metrics.failures (m : Metrics) (c : ErrorCode) : UInt64 :=
  match c.bucket with
  | .noSuchDatabase => m.remoteNoSuchDatabase
  | .noSuchIndex => m.remoteNoSuchIndex
  | _ => m.remoteFailures

theorem Metrics.failures_countFailure (m : Metrics) (c d : ErrorCode) :
    (m.countFailure c).failures d = m.failures d + if c.bucket = d.bucket then 1 else 0 := by
  cases c <;> cases d <;> first | rfl | exact (UInt64.add_zero _).symm

def Log.Record.code? (x : Log.Record) : Option ErrorCode :=
  (x.fields.lookup "code").bind ErrorCode.ofName?

namespace Result

def RemoteRead.failure (read : RemoteRead) (e : RouterError) : Log.Record :=
  .of .remoteFailed [("database", read.database), ("primary", read.primary.text),
    ("code", e.code.name), ("error", e.text), ("request_id", read.request.text)]

/-- The lines that a read leaves behind with its outcome: one if it has failed. -/
def RemoteRead.lines (read : RemoteRead) : Outcome V → List Log.Record
  | .failed f => [read.failure f.routed]
  | .value _ => []

theorem RemoteRead.failure_code (read : RemoteRead) (e : RouterError) :
    (read.failure e).code? = some e.code := by
  obtain ⟨code, message⟩ := e
  have h : ErrorCode.ofName? code.name = some code := by cases code <;> decide
  exact h

namespace Entry

def failure? : Entry V → Option Log.Record
  | .logged x => if x.event = Log.Event.remoteFailed.name then some x else none
  | _ => none

theorem eq_logged {e : Entry V} {x : Log.Record} (h : e.failure? = some x) : e = .logged x := by
  cases e with
  | logged y =>
    rw [failure?] at h
    split at h
    · rw [Option.some.inj h]
    · cases h
  | registered | started | answered => cases h

theorem failure?_failure (read : RemoteRead) (e : RouterError) :
    (logged (read.failure e) : Entry V).failure? = some (read.failure e) := by
  unfold failure?
  exact if_pos rfl

/-- What counts for the records of failed reads: registrations, starts and lines. -/
def isAccount (e : Entry V) : Bool := e.isMark || e.failure?.isSome

end Entry

namespace Network

def failures (n : Network V) : List Log.Record := n.history.filterMap (·.failure?)

def account (n : Network V) : List (Entry V) := n.history.filter (·.isAccount)

def Tallied (n : Network V) : Prop :=
  ∀ c : ErrorCode, n.metrics.failures c =
    UInt64.ofNat (n.failures.countP fun x => x.code?.map (·.bucket) = some c.bucket)

def failureOf (n : Network V) (p : Nat × RemoteRead) : Option Log.Record :=
  (n.outcomeAt p.1).bind fun o => (p.2.lines o).head?

variable {n n' : Network V}

theorem failures_account (n : Network V) : n.failures = n.account.filterMap (·.failure?) := by
  rw [failures, account, List.filterMap_filter]
  refine congrArg (List.filterMap · n.history) (funext fun e => ?_)
  rw [Entry.isAccount]
  cases e.failure? <;> simp

theorem trace_account (n : Network V) : n.trace = n.account.filter (·.isMark) := by
  rw [trace, account, List.filter_filter]
  refine List.filter_congr fun e _ => ?_
  rw [Entry.isAccount]
  cases e.isMark <;> rfl

theorem failures_append {es : List (Entry V)} (h : n'.account = n.account ++ es) :
    n'.failures = n.failures ++ es.filterMap (·.failure?) := by
  rw [failures_account, failures_account, h, List.filterMap_append]

theorem trace_append {es : List (Entry V)} (h : n'.account = n.account ++ es) :
    n'.trace = n.trace ++ es.filter (·.isMark) := by
  rw [trace_account, trace_account, h, List.filter_append]

theorem failureOf_congr (h : n'.cells = n.cells) : n'.failureOf = n.failureOf := by
  funext p
  rw [failureOf, failureOf, outcomeAt_congr h]

theorem account_emit (n : Network V) (e : Entry V) :
    (n.emit e).account = n.account ++ if e.isAccount then [e] else [] := by
  simp [account, emit, List.filter_append, List.filter_cons]

theorem account_log (n : Network V) {e : Log.Event} (he : e ≠ .remoteFailed)
    (fields : List (String × String)) : (n.log (.of e fields)).account = n.account := by
  have hname : e.name ≠ Log.Event.remoteFailed.name := by
    revert he
    cases e <;> decide
  have hline : (Entry.logged (.of e fields) : Entry V).failure? = none := by
    unfold Entry.failure?
    exact if_neg hname
  refine (n.account_emit _).trans ?_
  rw [Entry.isAccount, hline]
  exact List.append_nil _

/-- A recorder starts: it leaves the lines of its read behind and counts them. -/
theorem start_recorder (n : Network V) (serial cell : Nat) (read : RemoteRead) (o : Outcome V)
    (context : Option Context) :
    let begun := n.start ⟨serial, cell, .recorder read⟩ o context
    begun.2 = [] ∧ begun.1.cells = n.cells ∧ begun.1.waiting = n.waiting ∧
      begun.1.account = n.account ++ .started serial cell none o context :: (read.lines o).map .logged ∧
      ∀ c : ErrorCode, begun.1.metrics.failures c = n.metrics.failures c +
        UInt64.ofNat ((read.lines o).countP fun x => x.code?.map (·.bucket) = some c.bucket) := by
  cases o with
  | value x => exact ⟨rfl, rfl, rfl, account_emit .., fun c => (UInt64.add_zero _).symm⟩
  | failed f =>
    refine ⟨rfl, rfl, rfl, ?_, fun c => ?_⟩
    · have hline : (Entry.logged (read.failure f.routed) : Entry V).isAccount = true := by
        rw [Entry.isAccount, Entry.failure?_failure]
        rfl
      refine (account_emit _ (.logged (read.failure f.routed))).trans ?_
      rw [hline, if_pos rfl]
      refine (congrArg (· ++ _) (account_emit n (.started serial cell none (.failed f) context))).trans ?_
      exact List.append_assoc ..
    · refine (n.metrics.failures_countFailure f.routed.code c).trans ?_
      simp only [RemoteRead.lines, List.countP_singleton, RemoteRead.failure_code, Option.map_some,
        decide_eq_true_eq, Option.some.injEq]
      split <;> rfl

end Network

/-- Where a listener of a caller is handed a failure of the cell, the line of the read stands before. -/
def Heard (es : List (Entry V)) (cell : Nat) (read : RemoteRead) : Prop :=
  ∀ pre serial tag f context post,
    es = pre ++ .started serial cell (some tag) (.failed f) context :: post →
      .logged (read.failure f.routed) ∈ pre

theorem Heard.append {es es' : List (Entry V)} {cell : Nat} {read : RemoteRead}
    (h : Heard es cell read)
    (h' : ∀ serial tag f context, .started serial cell (some tag) (.failed f) context ∈ es' →
      .logged (read.failure f.routed) ∈ es) : Heard (es ++ es') cell read := by
  intro pre serial tag f context post he
  rcases List.append_eq_append_iff.mp he with ⟨rest, rfl, hrest⟩ | ⟨rest, hes, hrest⟩
  · have hm : .started serial cell (some tag) (.failed f) context ∈ es' := by
      rw [hrest]
      exact List.mem_append_right _ (List.mem_cons_self ..)
    exact List.mem_append_left _ (h' serial tag f context hm)
  · cases rest with
    | nil =>
      have hm : .started serial cell (some tag) (.failed f) context ∈ es' := by
        rw [show es' = _ from hrest.symm]
        exact List.mem_cons_self ..
      have hpre : es = pre := hes.trans (List.append_nil _)
      exact hpre ▸ h' serial tag f context hm
    | cons e rest =>
      obtain ⟨rfl, rfl⟩ := List.cons.inj hrest
      exact h pre serial tag f context rest hes

theorem Heard.of_account {n : Network V} {cell : Nat} {read : RemoteRead}
    (h : Heard n.account cell read) : Heard n.history cell read := by
  intro pre serial tag f context post he
  have hmem := h (pre.filter (·.isAccount)) serial tag f context (post.filter (·.isAccount)) (by
    rw [Network.account, he, List.filter_append]
    rfl)
  exact (List.mem_filter.mp hmem).1

def Registered.recorder? (r : Registered V) : Option (Nat × RemoteRead) :=
  match r.listener with
  | .recorder read => some (r.cell, read)
  | _ => none

theorem Registered.eq_recorder {r : Registered V} {p : Nat × RemoteRead} (h : r.recorder? = some p) :
    r.cell = p.1 ∧ r = ⟨r.serial, p.1, .recorder p.2⟩ := by
  obtain ⟨serial, cell, listener⟩ := r
  cases listener with
  | recorder read =>
    obtain rfl := Option.some.inj h
    exact ⟨rfl, rfl⟩
  | script | adapter | receiver => cases h

namespace Ledger
variable (v : Ledger V)

def recorders : List (Nat × RemoteRead) := v.unstarted.filterMap (·.recorder?)

def next (cell : Nat) : Option (Registered V) :=
  (v.due.map (·.registered) ++ v.network.waiting).find? (·.cell = cell)

/-- What is on record of the reads that were sent: those whose recorder was started have their line if they
have failed, and no listener starts on a result before its recorder. -/
structure Recorded (sent : List (Nat × RemoteRead)) (v : Ledger V) : Prop where
  apart : (sent.map (·.1)).Nodup
  known : ∀ p ∈ sent, ∃ serial, (serial, p.1) ∈ registeredIn v.network.trace
  first : ∀ p ∈ v.recorders, ∃ serial, v.next p.1 = some ⟨serial, p.1, .recorder p.2⟩
  started : ∃ done, sent.Perm (v.recorders ++ done) ∧
    (∀ p ∈ done, (v.network.outcomeAt p.1).isSome) ∧
    v.network.failures.Perm (done.filterMap v.network.failureOf)
  tallied : v.network.Tallied
  heard : ∀ p ∈ sent, Heard v.network.account p.1 p.2

section Recorded
variable {v} {v' : Ledger V} {sent : List (Nat × RemoteRead)}

theorem recorders_perm (h : v.unstarted.Perm v'.unstarted) : v.recorders.Perm v'.recorders :=
  h.filterMap _

theorem Agreed.pending_of_recorder (hv : v.Agreed) (hd : v.due = []) {p : Nat × RemoteRead}
    (hp : p ∈ v.recorders) : v.network.outcomeAt p.1 = none := by
  obtain ⟨x, hx, hxp⟩ := List.mem_filterMap.mp hp
  obtain ⟨context, hc⟩ := hv.waiting x (v.unstarted_at_rest hd ▸ hx)
  rw [← (Registered.eq_recorder hxp).1, Network.outcomeAt, hc]
  rfl

theorem Recorded.mono (h : v.Recorded sent) (he : v.network.Extends v'.network)
    (hu : v'.unstarted.Perm v.unstarted) (hn : ∀ cell, v'.next cell = v.next cell)
    (hm : v'.network.metrics.failures = v.network.metrics.failures)
    (ha : v'.network.account = v.network.account) : v'.Recorded sent := by
  have hr := recorders_perm hu
  have hfailures : v'.network.failures = v.network.failures := by
    rw [Network.failures_account, Network.failures_account, ha]
  obtain ⟨done, hsent, hsettled, hlines⟩ := h.started
  have hsame : ∀ p ∈ done, v'.network.outcomeAt p.1 = v.network.outcomeAt p.1 := by
    intro p hp
    obtain ⟨o, ho⟩ := Option.isSome_iff_exists.mp (hsettled p hp)
    rw [ho, he.outcomeAt ho]
  refine ⟨h.apart, ?_, ?_, ⟨done, ?_, ?_, ?_⟩, ?_, ?_⟩
  · intro p hp
    rw [Network.trace_account, ha, ← Network.trace_account]
    exact h.known p hp
  · intro p hp
    rw [hn]
    exact h.first p (hr.subset hp)
  · exact hsent.trans (hr.symm.append_right done)
  · exact fun p hp => hsame p hp ▸ hsettled p hp
  · have hof : done.filterMap v'.network.failureOf = done.filterMap v.network.failureOf := by
      refine List.filterMap_congr fun p hp => ?_
      rw [Network.failureOf, Network.failureOf, hsame p hp]
    rw [hfailures, hof]
    exact hlines
  · intro c
    rw [hm, hfailures]
    exact h.tallied c
  · rw [ha]
    exact h.heard

/-! ### Who is next -/

theorem next_due {d : Due V} {due : List (Due V)} (h : v.due = d :: due) {n : Network V}
    (hn : n.waiting = v.network.waiting) (cell : Nat) :
    v.next cell = if d.registered.cell = cell then some d.registered else (Ledger.mk n due).next cell := by
  rw [next, h, next, hn]
  simp only [List.map_cons, List.cons_append, List.find?_cons]
  by_cases hc : d.registered.cell = cell <;> simp [hc]

theorem Agreed.next_eq_none (hv : v.Agreed) {cell : Nat}
    (h : ∀ serial, (serial, cell) ∉ registeredIn v.network.trace) : v.next cell = none := by
  refine List.find?_eq_none.mpr fun r hr => ?_
  have hhas : v.Has r := by
    rcases List.mem_append.mp hr with hr | hr
    · obtain ⟨d, hd, rfl⟩ := List.mem_map.mp hr
      exact .inr ⟨d, hd, rfl⟩
    · exact .inl hr
  have hregistered := hv.registered_of_has hhas
  simp only [decide_eq_true_eq]
  rintro rfl
  exact h r.serial hregistered

theorem find?_filter_cell {rs : List (Registered V)} {p : Registered V → Bool} {cell : Nat} {b : Bool}
    (h : ∀ r, r.cell = cell → p r = b) :
    (rs.filter p).find? (·.cell = cell) = if b then rs.find? (·.cell = cell) else none := by
  cases b with
  | false =>
    refine List.find?_eq_none.mpr fun r hr hc => ?_
    have hp := h r (of_decide_eq_true hc)
    rw [(List.mem_filter.mp hr).2] at hp
    cases hp
  | true =>
    rw [List.find?_filter, if_pos rfl]
    refine congrArg (List.find? · rs) (funext fun r => ?_)
    by_cases hc : r.cell = cell
    · simp [h r hc]
    · simp [hc]

/-- A settlement brings the listeners of its cell forward, but changes nothing about who is next. -/
theorem Agreed.next_settle (hv : v.Agreed) (k : Nat) (o : Outcome V) (cell : Nat) :
    (v.after (v.network.settle k o).1 (v.network.settle k o).2.1).next cell = v.next cell := by
  rcases v.network.settle_cases k o with ⟨context, hk, hs⟩ | hs
  · rw [hs]
    simp only [next, after, dueOn_delivering, List.map_append, List.map_map, Function.comp_def,
      List.map_id', List.find?_append]
    by_cases hc : cell = k
    · subst hc
      -- the cell was pending, so nobody was due on it
      have hdue : (v.due.map (·.registered)).find? (·.cell = cell) = none := by
        refine List.find?_eq_none.mpr fun r hr hcell => ?_
        obtain ⟨d, hd, rfl⟩ := List.mem_map.mp hr
        have hsettled := hv.due d hd
        rw [of_decide_eq_true hcell, hk] at hsettled
        cases hsettled
      rw [hdue, find?_filter_cell (b := true) fun r hr => decide_eq_true hr,
        find?_filter_cell (b := false) fun r hr => decide_eq_false (not_not_intro hr)]
      simp
    · rw [find?_filter_cell (b := false) fun r hr => decide_eq_false (hr ▸ hc),
        find?_filter_cell (b := true) fun r hr => decide_eq_true (hr ▸ hc)]
      simp
  · rw [hs]
    rfl

/-- What settles a cell leaves the record as it is. -/
theorem Recorded.settle (h : v.Recorded sent) (hv : v.Agreed) (cell : Nat) (o : Outcome V) :
    (v.after (v.network.settle cell o).1 (v.network.settle cell o).2.1).Recorded sent := by
  refine h.mono (v.network.extends_settle cell o) (v.unstarted_settle cell o)
    (hv.next_settle cell o) ?_ ?_
  all_goals
    rcases v.network.settle_cases cell o with ⟨context, -, hs⟩ | hs <;> rw [hs] <;> rfl

/-! ### A listener starts -/

theorem Recorded.begun (h : v.Recorded sent) (hv : v.Agreed) {d : Due V} {due : List (Due V)}
    (hdue : v.due = d :: due) (hd : d.registered.recorder? = none) (tag : Option String) :
    Recorded sent ⟨v.network.emit (.started d.registered.serial d.registered.cell tag d.outcome
      d.context), due⟩ := by
  let e : Entry V := .started d.registered.serial d.registered.cell tag d.outcome d.context
  let v' : Ledger V := ⟨v.network.emit e, due⟩
  have haccount : v'.network.account = v.network.account ++ [e] := Network.account_emit ..
  have hfailures : v'.network.failures = v.network.failures :=
    (Network.failures_append haccount).trans (List.append_nil _)
  have hrecorders : v.recorders.Perm v'.recorders := by
    have hu : v.unstarted.Perm (d.registered :: v'.unstarted) := by
      rw [unstarted, hdue]
      exact List.perm_middle
    have hp := hu.filterMap Registered.recorder?
    rwa [List.filterMap_cons_none hd] at hp
  obtain ⟨done, hsent, hsettled, hlines⟩ := h.started
  -- the recorder of a result is the next of its listeners, so it is not this one
  have hfirst : ∀ p ∈ v.recorders, d.registered.cell ≠ p.1 := by
    intro p hp hc
    obtain ⟨serial, hnext⟩ := h.first p hp
    rw [next_due hdue rfl, if_pos hc] at hnext
    rw [Option.some.inj hnext] at hd
    cases hd
  refine ⟨h.apart, ?_, ?_, ⟨done, ?_, hsettled, ?_⟩, ?_, ?_⟩
  · intro p hp
    obtain ⟨serial, hk⟩ := h.known p hp
    refine ⟨serial, ?_⟩
    rw [v.network.trace_emit_mark rfl, registeredIn_started]
    exact hk
  · intro p hp
    have hp := hrecorders.symm.subset hp
    obtain ⟨serial, hnext⟩ := h.first p hp
    rw [next_due hdue rfl, if_neg (hfirst p hp)] at hnext
    exact ⟨serial, hnext⟩
  · exact hsent.trans (hrecorders.append_right done)
  · rw [hfailures]
    exact hlines
  · intro c
    rw [hfailures]
    exact h.tallied c
  · intro p hp
    rw [haccount]
    refine (h.heard p hp).append fun serial tag' f context he => ?_
    obtain ⟨-, hcell, -, hfailed, -⟩ := Entry.started.inj (List.mem_singleton.mp he)
    have hdone : p ∈ done := by
      rcases List.mem_append.mp (hsent.subset hp) with hp | hp
      · exact absurd hcell.symm (hfirst p hp)
      · exact hp
    have ho : v.network.outcomeAt p.1 = some (.failed f) := by
      rw [hcell, hfailed]
      exact Network.outcomeAt_eq_some_iff.mpr ⟨_, hv.due d (hdue ▸ List.mem_cons_self ..)⟩
    have hline : p.2.failure f.routed ∈ v.network.failures := by
      refine hlines.symm.subset (List.mem_filterMap.mpr ⟨p, hdone, ?_⟩)
      rw [Network.failureOf, ho]
      rfl
    rw [Network.failures_account] at hline
    obtain ⟨e', he', hx⟩ := List.mem_filterMap.mp hline
    rwa [← Entry.eq_logged hx]

/-- A recorder starts: if its read has failed, it is counted and gets its line. -/
theorem Recorded.recorded (h : v.Recorded sent) (hv : v.Agreed) {serial cell : Nat} {read : RemoteRead}
    {o : Outcome V} {context : Option Context}
    (hdue : v.due = ⟨⟨serial, cell, .recorder read⟩, o, context⟩ :: v'.due)
    (hc : v'.network.cells = v.network.cells) (hw : v'.network.waiting = v.network.waiting)
    (ha : v'.network.account =
      v.network.account ++ .started serial cell none o context :: (read.lines o).map .logged)
    (hm : ∀ c : ErrorCode, v'.network.metrics.failures c = v.network.metrics.failures c +
      UInt64.ofNat ((read.lines o).countP fun x => x.code?.map (·.bucket) = some c.bucket)) :
    v'.Recorded sent := by
  have hfailures : v'.network.failures = v.network.failures ++ read.lines o := by
    refine (Network.failures_append ha).trans (congrArg (_ ++ ·) ?_)
    cases o with
    | value x => rfl
    | failed f => exact List.filterMap_cons_some (Entry.failure?_failure read f.routed)
  have hrecorders : v.recorders.Perm ((cell, read) :: v'.recorders) := by
    have hu : v.unstarted.Perm (⟨serial, cell, .recorder read⟩ :: v'.unstarted) := by
      rw [unstarted, unstarted, hdue, hw]
      exact List.perm_middle
    exact hu.filterMap Registered.recorder?
  obtain ⟨done, hsent, hsettled, hlines⟩ := h.started
  have hsent' : sent.Perm (v'.recorders ++ (cell, read) :: done) :=
    hsent.trans ((hrecorders.append_right done).trans List.perm_middle.symm)
  have ho : v.network.outcomeAt cell = some o :=
    Network.outcomeAt_eq_some_iff.mpr ⟨_, hv.due _ (hdue ▸ List.mem_cons_self ..)⟩
  refine ⟨h.apart, ?_, ?_, ⟨(cell, read) :: done, hsent', ?_, ?_⟩, ?_, ?_⟩
  · intro p hp
    obtain ⟨serial, hk⟩ := h.known p hp
    refine ⟨serial, ?_⟩
    rw [Network.trace_append ha, registeredIn, List.filterMap_append]
    exact List.mem_append_left _ hk
  · intro p hp
    -- two recorders are on two results
    have hne : cell ≠ p.1 := by
      have hn := (hsent.trans (hrecorders.append_right done)).map (·.1) |>.nodup_iff.mp h.apart
      rintro rfl
      exact (List.nodup_cons.mp hn).1 (List.mem_map.mpr ⟨p, List.mem_append_left _ hp, rfl⟩)
    obtain ⟨serial, hnext⟩ := h.first p (hrecorders.symm.subset (List.mem_cons_of_mem _ hp))
    rw [next_due hdue hw, if_neg hne] at hnext
    exact ⟨serial, hnext⟩
  · intro p hp
    rw [Network.outcomeAt_congr hc]
    rcases List.mem_cons.mp hp with rfl | hp
    · rw [ho]
      rfl
    · exact hsettled p hp
  · have hof : ((cell, read) :: done).filterMap v'.network.failureOf =
        read.lines o ++ done.filterMap v.network.failureOf := by
      have hfirst : v.network.failureOf (cell, read) = (read.lines o).head? := by
        rw [Network.failureOf, ho]
        rfl
      rw [Network.failureOf_congr hc, List.filterMap_cons, hfirst]
      cases o <;> rfl
    rw [hfailures, hof]
    exact (hlines.append_right _).trans List.perm_append_comm
  · intro c
    rw [hm, hfailures, List.countP_append, UInt64.ofNat_add, h.tallied c]
  · intro p hp
    rw [ha]
    refine (h.heard p hp).append fun serial' tag f context' he => ?_
    rcases List.mem_cons.mp he with he | he
    · cases (Entry.started.inj he).2.2.1
    · obtain ⟨x, -, hx⟩ := List.mem_map.mp he
      cases hx

theorem Recorded.start (h : v.Recorded sent) (hv : v.Agreed) {d : Due V} {due : List (Due V)}
    (hdue : v.due = d :: due) :
    (after ⟨v.network, due⟩ (v.network.start d.registered d.outcome d.context).1
      (v.network.start d.registered d.outcome d.context).2).Recorded sent := by
  obtain ⟨⟨serial, cell, listener⟩, o, context⟩ := d
  cases listener with
  | script tag steps panics => exact h.begun hv hdue rfl (some tag)
  | recorder read =>
    obtain ⟨hframes, hc, hw, ha, hm⟩ := v.network.start_recorder serial cell read o context
    rw [after, hframes]
    exact h.recorded hv hdue hc hw ha hm
  | receiver =>
    have hb := h.begun hv hdue rfl none
    exact hb.mono (.of_cells rfl) (.refl _) (fun _ => rfl) rfl rfl
  | adapter into =>
    have hm := hdue ▸ List.mem_cons_self (a := (⟨⟨serial, cell, .adapter into⟩, o, context⟩ : Due V))
    have hl : (.adapter into : Listener V) ≠ .receiver := fun hr => by cases hr
    have hb : Agreed ⟨v.network.emit (.started serial cell none o context), due⟩ :=
      hv.begun none hdue rfl rfl rfl (v.network.trace_emit_mark rfl) (hv.receive_eq hm hl)
    exact (h.begun hv hdue rfl none).settle hb into o.adapt

/-! ### A listener is registered -/

theorem Recorded.enrolled (h : v.Recorded sent) (hv : v.Agreed) (r : Registered V)
    (hc : v'.network.cells = v.network.cells)
    (hm : v'.network.metrics.failures = v.network.metrics.failures)
    (ha : v'.network.account = v.network.account ++ [.registered r.serial r.cell])
    (hu : v'.unstarted.Perm (r :: v.unstarted))
    (hkeep : ∀ p ∈ v.recorders, v'.next p.1 = v.next p.1)
    (hr : ∀ p, r.recorder? = some p →
      v'.next r.cell = some r ∧ ∀ serial, (serial, r.cell) ∉ registeredIn v.network.trace) :
    v'.Recorded (sent ++ r.recorder?.toList) := by
  have hfailures : v'.network.failures = v.network.failures :=
    (Network.failures_append ha).trans (List.append_nil _)
  have hregistered : registeredIn v'.network.trace =
      registeredIn v.network.trace ++ [(r.serial, r.cell)] := by
    rw [Network.trace_append ha]
    exact registeredIn_registered ..
  have hrecorders : v'.recorders.Perm (r.recorder?.toList ++ v.recorders) := by
    refine (hu.filterMap Registered.recorder?).trans (.of_eq ?_)
    rw [List.filterMap_cons]
    cases r.recorder? <;> rfl
  obtain ⟨done, hsent, hsettled, hlines⟩ := h.started
  refine ⟨?_, ?_, ?_, ⟨done, ?_, ?_, ?_⟩, ?_, ?_⟩
  · rw [List.map_append, List.nodup_append]
    refine ⟨h.apart, ?_, ?_⟩
    · cases r.recorder? <;> simp
    · rintro k hk _ hp rfl
      obtain ⟨q, hq, hqk⟩ := List.mem_map.mp hp
      have hq := Option.mem_toList.mp hq
      obtain ⟨p, hp, hpk⟩ := List.mem_map.mp hk
      obtain ⟨serial, hs⟩ := h.known p hp
      rw [hpk, ← hqk, ← (Registered.eq_recorder hq).1] at hs
      exact (hr q hq).2 serial hs
  · intro p hp
    rw [hregistered]
    rcases List.mem_append.mp hp with hp | hp
    · obtain ⟨serial, hs⟩ := h.known p hp
      exact ⟨serial, List.mem_append_left _ hs⟩
    · rw [← (Registered.eq_recorder (Option.mem_toList.mp hp)).1]
      exact ⟨r.serial, List.mem_append_right _ (List.mem_singleton.mpr rfl)⟩
  · intro p hp
    rcases List.mem_append.mp (hrecorders.subset hp) with hp | hp
    · have hp := Option.mem_toList.mp hp
      obtain ⟨hcell, hrecorder⟩ := Registered.eq_recorder hp
      rw [← hcell, (hr p hp).1]
      exact ⟨r.serial, congrArg some (hcell ▸ hrecorder)⟩
    · rw [hkeep p hp]
      exact h.first p hp
  · have hlast := (hsent.append_right r.recorder?.toList).trans List.perm_append_comm
    refine hlast.trans ?_
    rw [← List.append_assoc]
    exact hrecorders.symm.append_right done
  · exact fun p hp => Network.outcomeAt_congr hc p.1 ▸ hsettled p hp
  · rw [hfailures, Network.failureOf_congr hc]
    exact hlines
  · intro c
    rw [hm, hfailures]
    exact h.tallied c
  · intro p hp
    rw [ha]
    refine Heard.append ?_ fun serial tag f context he => ?_
    · rcases List.mem_append.mp hp with hp | hp
      · exact h.heard p hp
      · -- nobody has started on the cell so far
        have hp := Option.mem_toList.mp hp
        intro pre serial tag f context post he
        have hs : (serial, p.1) ∈ startedIn v.network.trace := by
          rw [Network.trace_account, he]
          refine List.mem_filterMap.mpr ⟨.started serial p.1 (some tag) (.failed f) context,
            List.mem_filter.mpr ⟨?_, rfl⟩, rfl⟩
          exact List.mem_append_right _ (List.mem_cons_self ..)
        rw [← (Registered.eq_recorder hp).1] at hs
        exact absurd (hv.registered_of_started hs) ((hr p hp).2 serial)
    · cases List.mem_singleton.mp he

theorem Recorded.register (h : v.Recorded sent) (hv : v.Agreed) (hd : v.due = []) {cell : Nat}
    {l : Listener V} (hcell : cell < v.network.cells.length)
    (hl : ∀ read, l = .recorder read → ∀ serial, (serial, cell) ∉ registeredIn v.network.trace) :
    (v.after (v.network.register cell l).1 (v.network.register cell l).2).Recorded
      (sent ++ (Registered.recorder? ⟨v.network.registrations, cell, l⟩).toList) := by
  let r : Registered V := ⟨v.network.registrations, cell, l⟩
  have hnew : ∀ p, r.recorder? = some p →
      ∀ serial, (serial, cell) ∉ registeredIn v.network.trace := by
    intro p hp
    cases l with
    | recorder read => exact hl read rfl
    | script | adapter | receiver => cases hp
  have haccount : ∀ n : Network V,
      (n.emit (.registered r.serial cell)).account = n.account ++ [.registered r.serial cell] :=
    fun n => Network.account_emit ..
  rcases v.register_enrolled cell l with ⟨-, hr⟩ | ⟨o, ho, hr⟩
  · rw [hr]
    -- it waits behind the others
    have hnext : ∀ k, Ledger.next ⟨{ { v.network with registrations := v.network.registrations + 1 }.emit
        (.registered r.serial cell) with waiting := v.network.waiting ++ [r] }, v.due⟩ k =
          (v.next k).or (if cell = k then some r else none) := by
      intro k
      rw [next, next, ← List.append_assoc, List.find?_append, List.find?_singleton]
      simp only [decide_eq_true_eq]
      rfl
    refine h.enrolled hv r rfl rfl (haccount _) (unstarted_waiting ..) ?_ ?_
    · intro p hp
      obtain ⟨serial, hs⟩ := h.first p hp
      rw [hnext, hs, Option.some_or]
    · intro p hp
      refine ⟨?_, hnew p hp⟩
      rw [hnext, hv.next_eq_none (hnew p hp), Option.none_or, if_pos rfl]
  · rw [hr]
    -- it starts at once, where no recorder waits
    obtain ⟨context, hc⟩ := Network.outcomeAt_eq_some_iff.mp ho
    have hctx : v.network.contextAt cell = context := congrArg (·.bind (·.context)) hc
    have ha : (v.enrolled r o).Agreed := by
      have hb := hv.enrolled_due (n := v.network) (l := l) hc rfl rfl rfl rfl fun _ _ hf => .inl hf
      rw [Ledger.enrolled, hctx]
      exact hb
    have hnext : ∀ k, (v.enrolled r o).next k = if cell = k then some r else v.next k :=
      next_due (v := v.enrolled r o) (n := v.network) rfl rfl
    refine Recorded.start (v := v.enrolled r o) ?_ ha rfl
    refine h.enrolled hv r rfl rfl (haccount _) List.perm_middle ?_ ?_
    · intro p hp
      have hne : cell ≠ p.1 := by
        rintro rfl
        rw [hv.pending_of_recorder hd hp] at ho
        cases ho
      rw [hnext, if_neg hne]
    · exact fun p hp => ⟨(hnext cell).trans (if_pos rfl), hnew p hp⟩

end Recorded
end Ledger

end Result
end ReplicaRouting
