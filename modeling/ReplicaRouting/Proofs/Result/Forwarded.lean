import ReplicaRouting.Proofs.Result.Adapter
import ReplicaRouting.Proofs.Result.Idle
import ReplicaRouting.Proofs.Result.Recorder
/-!
Reads on their way. Each has a response, a result that follows it and a recorder on the result, so with nothing
due the counters and the lines are those of the responses that have failed.
-/

namespace ReplicaRouting.Result

open Relation (ReflTransGen)

/-- A forwarded read with the cells of its response and of its result. -/
structure Forwarded where
  read : RemoteRead
  response : Nat
  result : Nat
deriving Repr, DecidableEq

def Forwarded.claim (s : Forwarded) : Nat × RemoteRead := (s.result, s.read)

def Forwarded.error? (n : Network V) (s : Forwarded) : Option RouterError :=
  match n.outcomeAt s.response with
  | some (.failed f) => some f.routed
  | _ => none

namespace Network

theorem registeredIn_start (n : Network V) (r : Registered V) (o : Outcome V)
    (context : Option Context) :
    registeredIn (n.start r o context).1.trace = registeredIn n.trace := by
  obtain ⟨serial, cell, listener⟩ := r
  have hstarted : ∀ tag, registeredIn (n.emit (.started serial cell tag o context)).trace =
      registeredIn n.trace := by
    intro tag
    rw [n.trace_emit_mark rfl, registeredIn_started]
  cases listener with
  | script | receiver => exact hstarted _
  | adapter into =>
    refine Eq.trans ?_ (hstarted none)
    rcases (n.emit (.started serial cell none o context)).settle_cases into o.adapt with
      ⟨_, -, hs⟩ | hs
    · exact congrArg (fun done => registeredIn done.1.trace) hs
    · exact congrArg (fun done => registeredIn done.1.trace) hs
  | recorder read =>
    cases o with
    | value x => exact hstarted none
    | failed f =>
      exact (congrArg registeredIn (trace_emit_quiet _ rfl)).trans (hstarted none)

theorem registeredIn_register (n : Network V) (cell : Nat) (l : Listener V) :
    registeredIn (n.register cell l).1.trace =
      registeredIn n.trace ++ [(n.registrations, cell)] := by
  have hregistered : registeredIn ({ n with registrations := n.registrations + 1 }.emit
      (.registered n.registrations cell)).trace = registeredIn n.trace ++ [(n.registrations, cell)] := by
    rw [trace_emit_mark _ rfl, registeredIn_registered]
    rfl
  rcases n.register_cases cell l with ⟨-, h⟩ | ⟨o, -, h⟩
  · rw [h]
    exact hregistered
  · rw [h, registeredIn_start]
    exact hregistered

end Network

namespace Ledger

/-- All that is kept while reads are on their way. -/
structure Attended (held : List Nat) (sent : List Forwarded) (v : Ledger V) : Prop where
  agreed : v.Agreed
  owned : v.Owned held
  recorded : v.Recorded (sent.map (·.claim))
  follows : ∀ s ∈ sent, v.Follows s.response s.result

section Attended
variable {v v' : Ledger V} {held : List Nat} {sent sent' : List Forwarded}

theorem Attended.still (h : v.Attended held sent) {n : Network V} (hs : v.network.Still n)
    (hm : n.metrics.failures = v.network.metrics.failures)
    (ha : n.account = v.network.account) : Attended held sent ⟨n, v.due⟩ := by
  have hu : Ledger.unstarted ⟨n, v.due⟩ = v.unstarted := congrArg (· ++ _) hs.waiting
  have hn : ∀ cell, Ledger.next ⟨n, v.due⟩ cell = v.next cell := by
    intro cell
    rw [next, next, hs.waiting]
  exact ⟨h.agreed.still hs, h.owned.congr hs.cells hu,
    h.recorded.mono (.of_cells hs.cells) (.of_eq hu) hn hm ha,
    fun s hm => (h.follows s hm).mono (.of_cells hs.cells) fun _ hr => hu.symm ▸ hr⟩

theorem Attended.perm (h : v.Attended held sent) {held' : List Nat} (hp : held.Perm held') :
    v.Attended held' sent :=
  ⟨h.agreed, h.owned.perm hp, h.recorded, h.follows⟩

theorem Attended.turn (h : v.Attended held sent) (ht : v.Turn v') : v'.Attended held sent := by
  cases ht with
  | rest => exact h
  | answered tag answer =>
    refine h.still (v.network.quiet_emit rfl).toStill rfl ?_
    exact (Network.account_emit ..).trans (List.append_nil _)
  | panicked fields =>
    exact h.still (v.network.quiet_log _).toStill rfl (v.network.account_log (by decide) fields)
  | @start d due hd =>
    have hm := h.agreed.due d (hd ▸ List.mem_cons_self ..)
    have ho := Network.outcomeAt_eq_some_iff.mpr ⟨_, hm⟩
    exact ⟨h.agreed.start hd, h.owned.start hd, h.recorded.start h.agreed hd,
      fun s hs => (h.follows s hs).start h.owned hd ho⟩

theorem Attended.turns (h : v.Attended held sent) (ht : ReflTransGen Turn v v') :
    v'.Attended held sent := by
  induction ht with
  | refl => exact h
  | tail _ ht ih => exact ih.turn ht

theorem Attended.follows_turns (h : v.Attended held sent) {source into : Nat}
    (hf : v.Follows source into) (ht : ReflTransGen Turn v v') : v'.Follows source into := by
  induction ht with
  | refl => exact hf
  | tail hturns ht ih =>
    have hb := h.turns hturns
    cases ht with
    | rest => exact ih
    | answered | panicked => exact ih.mono (.of_cells rfl) fun _ hr => hr
    | @start d due hd =>
      have hm := hb.agreed.due d (hd ▸ List.mem_cons_self ..)
      exact ih.start hb.owned hd (Network.outcomeAt_eq_some_iff.mpr ⟨_, hm⟩)

theorem registeredIn_turns (ht : ReflTransGen Turn v v') :
    registeredIn v'.network.trace = registeredIn v.network.trace := by
  induction ht with
  | refl => rfl
  | tail _ ht ih =>
    refine Eq.trans ?_ ih
    cases ht with
    | rest => rfl
    | answered => exact congrArg registeredIn (Network.trace_emit_quiet _ rfl)
    | panicked => exact congrArg registeredIn (Network.trace_emit_quiet _ rfl)
    | start => exact Network.registeredIn_start ..

theorem Attended.addSettled (h : v.Attended held sent) (context : Option Context) (o : Outcome V) :
    Attended held sent ⟨(v.network.addCell ⟨context, some o⟩).1, v.due⟩ := by
  have he := v.network.extends_addCell ⟨context, some o⟩
  exact ⟨h.agreed.addCell _, h.owned.addSettled context o,
    h.recorded.mono he (.refl _) (fun _ => rfl) rfl rfl,
    fun s hs => (h.follows s hs).mono he fun _ hr => hr⟩

theorem Attended.addPending (h : v.Attended held sent) (context : Option Context) :
    Attended (v.network.cells.length :: held) sent
      ⟨(v.network.addCell ⟨context, none⟩).1, v.due⟩ := by
  have he := v.network.extends_addCell ⟨context, none⟩
  exact ⟨h.agreed.addCell _, h.owned.addPending context,
    h.recorded.mono he (.refl _) (fun _ => rfl) rfl rfl,
    fun s hs => (h.follows s hs).mono he fun _ hr => hr⟩

theorem Attended.settle {cell : Nat} (h : v.Attended (cell :: held) sent) (o : Outcome V) :
    (v.after (v.network.settle cell o).1 (v.network.settle cell o).2.1).Attended held sent := by
  have he := v.network.extends_settle cell o
  exact ⟨h.agreed.settle cell o, h.owned.settle o, h.recorded.settle h.agreed cell o,
    fun s hs => (h.follows s hs).mono he fun _ hr => (v.unstarted_settle cell o).symm.subset hr⟩

theorem Attended.register {cell : Nat} {l : Listener V} (h : v.Attended (l.captured ++ held) sent)
    (hd : v.due = []) (hcell : cell < v.network.cells.length)
    (hl : ∀ into ∈ l.captured, cell < into)
    (hnew : ∀ read, l = .recorder read → ∀ serial, (serial, cell) ∉ registeredIn v.network.trace)
    (hs : sent'.map (·.claim) = sent.map (·.claim) ++
      (Registered.recorder? ⟨v.network.registrations, cell, l⟩).toList)
    (hf : ∀ s ∈ sent', v.Follows s.response s.result) :
    (v.after (v.network.register cell l).1 (v.network.register cell l).2).Attended held sent' := by
  refine ⟨h.agreed.register hcell fun _ _ hw => .inl hw, h.owned.register hl, ?_, ?_⟩
  · rw [hs]
    exact h.recorded.register h.agreed hd hcell hnew
  · exact fun s hm => Follows.register h.owned hl (.inl (hf s hm))

theorem Attended.heard (h : v.Attended held sent) {s : Forwarded} (hs : s ∈ sent) :
    Heard v.network.history s.result s.read :=
  (h.recorded.heard s.claim (List.mem_map_of_mem hs)).of_account

theorem Attended.adapt {n : Network V} (h : Attended held sent ⟨n, []⟩) {source : Nat}
    (hs : source < n.cells.length) (context : Context) :
    let adapted := n.addAdapted source context
    let v := Ledger.mk adapted.1.1 (dueOn adapted.1.2)
    v.Attended held sent ∧ v.Follows source n.cells.length ∧
      ∀ serial, (serial, n.cells.length) ∉ registeredIn v.network.trace := by
  intro adapted v
  let made := (n.addCell ⟨some context, none⟩).1
  let l : Listener V := .adapter n.cells.length
  have hadded : Attended (l.captured ++ held) sent ⟨made, []⟩ := h.addPending (some context)
  have hlt : source < made.cells.length := (n.extends_addCell _).lt hs
  have hinto : ∀ into ∈ l.captured, source < into := fun _ hi => List.mem_singleton.mp hi ▸ hs
  have hv : v = after ⟨made, []⟩ (made.register source l).1 (made.register source l).2 :=
    (after_rest ..).symm
  rw [hv]
  refine ⟨hadded.register rfl hlt hinto nofun (List.append_nil _).symm hadded.follows,
    Follows.register hadded.owned hinto (.inr ⟨rfl, List.mem_singleton.mpr rfl⟩), fun serial hm => ?_⟩
  have hregistered := made.registeredIn_register source l
  rcases List.mem_append.mp (hregistered ▸ hm) with hm | hm
  · exact Nat.lt_irrefl _ (h.agreed.cell_of_registered hm)
  · exact Nat.ne_of_gt hs (Prod.mk.inj (List.mem_singleton.mp hm)).2

/-- With nothing due the lines are those of the reads whose response has failed. -/
theorem Attended.lines (h : v.Attended held sent) (hd : v.due = []) :
    v.network.failures.Perm (sent.filterMap fun s => (s.error? v.network).map s.read.failure) := by
  obtain ⟨done, hsent, -, hlines⟩ := h.recorded.started
  have hwaiting : v.recorders.filterMap v.network.failureOf = [] := by
    refine List.filterMap_eq_nil_iff.mpr fun p hp => ?_
    rw [Network.failureOf, h.agreed.pending_of_recorder hd hp]
    rfl
  have hall := hsent.filterMap v.network.failureOf
  rw [List.filterMap_append, hwaiting, List.nil_append, List.filterMap_map] at hall
  refine hlines.trans (hall.symm.trans (.of_eq ?_))
  refine List.filterMap_congr fun s hs => ?_
  have hresult := (h.follows s hs).at_rest h.owned h.agreed hd
  show (v.network.outcomeAt s.result).bind _ = _
  rw [hresult, Forwarded.error?]
  cases v.network.outcomeAt s.response with
  | none => rfl
  | some o => cases o <;> rfl

/-- With nothing due a counter is the number of the reads that have failed with a code of its own. -/
theorem Attended.counters (h : v.Attended held sent) (hd : v.due = []) (c : ErrorCode) :
    v.network.metrics.failures c = UInt64.ofNat
      (sent.countP fun s => (s.error? v.network).any (·.code.bucket = c.bucket)) := by
  rw [h.recorded.tallied c, (h.lines hd).countP_eq, List.countP_filterMap]
  refine congrArg UInt64.ofNat (List.countP_congr fun s _ => ?_)
  cases s.error? v.network with
  | none => rfl
  | some e => simp [RemoteRead.failure_code]

/-! ### Moments of a delivery -/

theorem Attended.moment {n : Network V} {frames : List (Frame V)} {m : Machine V}
    (h : Attended held sent ⟨n, dueOn frames⟩) (hm : Machine.Idle ⟨n, frames, .nothing⟩)
    (hs : Machine.Steps ⟨n, frames, .nothing⟩ m) : m.ledger.Attended held sent :=
  h.turns (Machine.steps_turns hm hs).1

theorem Attended.deliver {n : Network V} {frames : List (Frame V)}
    (h : Attended held sent ⟨n, dueOn frames⟩) (hm : Machine.Idle ⟨n, frames, .nothing⟩) :
    Attended held sent ⟨n.deliver frames, []⟩ :=
  h.turns (Machine.deliver_turns hm)

theorem fresh_attended : Attended [] [] (Machine.fresh : Machine V).ledger := by
  refine ⟨Machine.fresh_agreed.2, Machine.fresh_linear.owned, ⟨?_, ?_, ?_, ?_, ?_, ?_⟩, ?_⟩
  · exact List.nodup_nil
  · exact List.forall_mem_nil _
  · exact List.forall_mem_nil _
  · exact ⟨[], .refl _, List.forall_mem_nil _, .refl _⟩
  · intro c
    cases c <;> rfl
  · exact List.forall_mem_nil _
  · exact List.forall_mem_nil _

end Attended
end Ledger
end ReplicaRouting.Result
