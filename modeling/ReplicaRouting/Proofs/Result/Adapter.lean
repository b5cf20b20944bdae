import ReplicaRouting.Proofs.Result.Completers
/-!
Results that follow a response. In whatever order a response is adapted, settled and observed, the result
has the adapted outcome as soon as nothing is under way, and never another one.
-/

namespace ReplicaRouting

namespace WireCode

theorem number_ofNumber (n : UInt32) : (ofNumber n).number = n := by
  unfold ofNumber
  split
  iterate 6 exact (UInt32.toNat.inj ‹_›).symm
  rfl

theorem text_ofNumber {n : UInt32} (h : n.toNat = 0 ∨ 6 < n.toNat) :
    (ofNumber n).text = "UNKNOWN(" ++ Text.numeral n.toNat ++ ")" := by
  unfold ofNumber
  split
  iterate 6 omega
  rfl

end WireCode

namespace TransportError
variable (e : TransportError)

theorem toRouterError_database (message : String) :
    e.toRouterError = ⟨.noSuchDatabase, message⟩ ↔ e = .remote (.ofNumber 4) message := by
  rw [show WireCode.ofNumber 4 = .databaseUnavailable from rfl]
  unfold toRouterError
  split <;> simp_all

theorem toRouterError_index (message : String) :
    e.toRouterError = ⟨.noSuchIndex, message⟩ ↔ e = .remote (.ofNumber 5) message := by
  rw [show WireCode.ofNumber 5 = .entryUnavailable from rfl]
  unfold toRouterError
  split <;> simp_all

theorem toRouterError_other
    (h : ∀ message, e ≠ .remote (.ofNumber 4) message ∧ e ≠ .remote (.ofNumber 5) message) :
    e.toRouterError = ⟨.replicationFailure, e.text⟩ := by
  unfold toRouterError
  split
  · exact absurd rfl (h _).1
  · exact absurd rfl (h _).2
  · rfl

end TransportError

namespace Result

open Relation (ReflTransGen)

namespace Ledger

/-- The adapter of the source has yet to start, or source and result are settled alike. -/
def Follows (v : Ledger V) (source into : Nat) : Prop :=
  (∃ r ∈ v.unstarted, r.cell = source ∧ into ∈ r.listener.captured) ∨
    ∃ o, v.network.outcomeAt source = some o ∧ v.network.outcomeAt into = some o.adapt

section Follows
variable {v v' : Ledger V} {source into : Nat} {held : List Nat}

theorem Follows.mono (hf : v.Follows source into) (he : v.network.Extends v'.network)
    (hu : ∀ r ∈ v.unstarted, r ∈ v'.unstarted) : v'.Follows source into := by
  rcases hf with ⟨r, hr, hs, hi⟩ | ⟨o, hs, hi⟩
  · exact .inl ⟨r, hu r hr, hs, hi⟩
  · exact .inr ⟨o, he.outcomeAt hs, he.outcomeAt hi⟩

/-- If the adapter itself starts, the cell that it leads to is pending and takes the outcome. -/
theorem Follows.start (hf : v.Follows source into) (ho : v.Owned held) {d : Due V}
    {due : List (Due V)} (h : v.due = d :: due)
    (hd : v.network.outcomeAt d.registered.cell = some d.outcome) :
    (after ⟨v.network, due⟩ (v.network.start d.registered d.outcome d.context).1
      (v.network.start d.registered d.outcome d.context).2).Follows source into := by
  have he := v.network.extends_start d.registered d.outcome d.context
  have hu := unstarted_start h
  rcases hf with ⟨r, hr, hs, hi⟩ | ⟨o, hs, hi⟩
  · rcases List.mem_cons.mp (hu.subset hr) with rfl | hr'
    · have hp := ho.isPending_captured hr hi
      refine .inr ⟨d.outcome, he.outcomeAt (hs ▸ hd), ?_⟩
      obtain ⟨⟨serial, cell, listener⟩, o, context⟩ := d
      cases listener with
      | adapter other =>
        obtain rfl := List.mem_singleton.mp hi
        exact (Network.settle_done (n := v.network.emit _) hp o.adapt).2
      | script | recorder | receiver => cases hi
    · exact .inl ⟨r, hr', hs, hi⟩
  · exact .inr ⟨o, he.outcomeAt hs, he.outcomeAt hi⟩

theorem Follows.register {cell : Nat} {l : Listener V} (ho : v.Owned (l.captured ++ held))
    (hl : ∀ into ∈ l.captured, cell < into)
    (hf : v.Follows source into ∨ cell = source ∧ into ∈ l.captured) :
    (v.after (v.network.register cell l).1 (v.network.register cell l).2).Follows source into := by
  let r : Registered V := ⟨v.network.registrations, cell, l⟩
  have henrolled : ∀ v' : Ledger V, v'.network.cells = v.network.cells →
      v'.unstarted.Perm (r :: v.unstarted) → v'.Follows source into := by
    intro v' hc hu
    rcases hf with hf | ⟨hs, hi⟩
    · exact hf.mono (.of_cells hc) fun x hx => hu.symm.subset (List.mem_cons_of_mem _ hx)
    · exact .inl ⟨r, hu.symm.subset (List.mem_cons_self ..), hs, hi⟩
  rcases v.register_enrolled cell l with ⟨-, h⟩ | ⟨o, hcell, h⟩
  · rw [h]
    exact henrolled _ rfl (unstarted_waiting ..)
  · rw [h]
    have hd : Owned held (v.enrolled r o) := ho.enrolled (r := r) hl rfl List.perm_middle
    exact (henrolled (v.enrolled r o) rfl List.perm_middle).start hd rfl hcell

theorem Linear.follows (hl : v.Linear) (context : Context) (h : source < v.network.cells.length) :
    (v.after (v.network.addAdapted source context).1.1
      (v.network.addAdapted source context).1.2).Follows source v.network.cells.length :=
  Follows.register (v := ⟨(v.network.addCell ⟨some context, none⟩).1, v.due⟩)
    (l := .adapter v.network.cells.length) (hl.owned.addPending (some context))
    (fun _ hi => List.mem_singleton.mp hi ▸ h) (.inr ⟨rfl, List.mem_singleton.mpr rfl⟩)

theorem Follows.move (hf : v.Follows source into) (hl : v.Linear) (hv : v.Agreed)
    (h : v.Move v') : v'.Follows source into := by
  have he := h.extends
  cases h with
  | quiet h =>
    refine hf.mono he fun r hr => ?_
    show r ∈ _ ++ _
    rw [h.waiting]
    exact hr
  | settled name context o => exact hf.mono he fun _ hr => hr
  | pending name context =>
    refine hf.mono he fun r hr => ?_
    let n : Network V := { (v.network.addCell ⟨context, none⟩).1 with
      names := v.network.names.bind name v.network.cells.length }
    have hd : (v.after (n.dropCompleter name).1 (n.dropCompleter name).2.1).unstarted.Perm
        v.unstarted := by
      rcases n.dropCompleter_cases name with ⟨-, h⟩ | ⟨old, -, h⟩
      · rw [h]
        rfl
      · rw [h]
        exact unstarted_settle ⟨n.without name, v.due⟩ old _
    -- a completer bound to the name before is dropped, which settles another cell
    exact hd.symm.subset hr
  | @adapt other context h =>
    have ho := hl.owned.addPending (some context)
    have ha := v.network.extends_addCell ⟨some context, none⟩
    exact Follows.register (v := ⟨(v.network.addCell ⟨some context, none⟩).1, v.due⟩)
      (l := .adapter v.network.cells.length) ho (fun _ hi => List.mem_singleton.mp hi ▸ h)
      (.inl (hf.mono ha fun _ hr => hr))
  | @listen cell l hn h =>
    have hc : l.captured = [] := Listener.captured_eq_nil hn
    have ho : Owned (l.captured ++ v.network.completers.map (·.2)) v := hc ▸ hl.owned
    exact Follows.register ho (hc ▸ List.forall_mem_nil _) (.inl hf)
  | @await as cell h =>
    have ho : Owned _ ⟨v.network.awaiting as cell, v.due⟩ := hl.owned.congr rfl rfl
    exact Follows.register (v := ⟨v.network.awaiting as cell, v.due⟩) (l := .receiver) ho
      (List.forall_mem_nil _) (.inl (hf.mono (.of_cells rfl) fun _ hr => hr))
  | @release name cell o h =>
    refine hf.mono he fun r hr => ?_
    exact (unstarted_settle ⟨v.network.without name, v.due⟩ cell o).symm.subset hr
  | @start d due h =>
    have hd := hv.due d (h ▸ List.mem_cons_self ..)
    exact hf.start hl.owned h (Network.outcomeAt_eq_some_iff.mpr ⟨_, hd⟩)

theorem Follows.outcome (hf : v.Follows source into) (ho : v.Owned held) {o : Outcome V}
    (h : v.network.outcomeAt into = some o) :
    ∃ received, v.network.outcomeAt source = some received ∧ o = received.adapt := by
  rcases hf with ⟨r, hr, -, hi⟩ | ⟨received, hs, hi⟩
  · -- as long as the adapter has not started, the result is pending
    obtain ⟨context, hc⟩ := Network.isPending_iff.mp (ho.isPending_captured hr hi)
    rw [Network.outcomeAt, hc] at h
    cases h
  · exact ⟨received, hs, Option.some.inj (h.symm.trans hi)⟩

theorem Follows.at_rest (hf : v.Follows source into) (ho : v.Owned held) (hv : v.Agreed)
    (hd : v.due = []) :
    v.network.outcomeAt into = (v.network.outcomeAt source).map .adapt := by
  rcases hf with ⟨r, hr, rfl, hi⟩ | ⟨o, hs, hi⟩
  · rw [unstarted, hd, List.map_nil, List.append_nil] at hr
    obtain ⟨context, hs⟩ := hv.waiting r hr
    have hu : r ∈ v.unstarted := List.mem_append_left _ hr
    obtain ⟨context', hi⟩ := Network.isPending_iff.mp (ho.isPending_captured hu hi)
    rw [Network.outcomeAt, Network.outcomeAt, hs, hi]
    rfl
  · rw [hs, hi]
    rfl

end Follows
end Ledger

/-! ### Moments after an adaptation -/

namespace Machine

/-- An action is performed: the caller makes it, or it is the turn of a script. -/
inductive Performs (m : Machine V) (a : Action V) : Machine V → Prop
  | call (h : m.stack = []) :
      Performs m a ⟨(m.network.perform a).1, (m.network.perform a).2.1, (m.network.perform a).2.2⟩
  | turn {tag : String} {steps : List (Action V)} {panics : Bool} {below : List (Frame V)}
    (h : m.stack = .body tag (a :: steps) panics :: below) :
      Performs m a ⟨(m.network.perform a).1, (m.network.perform a).2.1 ++
        .answering tag (m.network.perform a).2.2 :: .body tag steps panics :: below, m.answer⟩

/-- The cell was made, at this moment or before, to follow the source with this context. -/
inductive Adapted (source : Nat) : Nat → Context → Machine V → Prop
  | made {m m' : Machine V} {name as : String} {token : Option TokenValue}
    (hm : ReflTransGen Next fresh m) (hs : m.network.names.find? name = some source)
    (h : m.Performs (.adapt name as token) m') :
      Adapted source m.network.cells.length (.make m.network.contexts token) m'
  | later {m m' : Machine V} {into : Nat} {context : Context} (h : Adapted source into context m)
    (hn : m.Next m') : Adapted source into context m'

variable {m m' : Machine V}

theorem Performs.next {a : Action V} (h : m.Performs a m') : m.Next m' := by
  cases h with
  | call h => exact .call h a
  | turn h =>
    refine .step ?_
    rw [step, h]

theorem Performs.ledger {a : Action V} (h : m.Performs a m') :
    m'.ledger = m.ledger.after (m.network.perform a).1 (m.network.perform a).2.1 := by
  cases h with
  | call h =>
    rw [Machine.ledger, Machine.ledger, h]
    exact congrArg (Ledger.mk _) (List.append_nil _).symm
  | turn h =>
    rw [Machine.ledger, Machine.ledger, h, dueOn_append]
    rfl

theorem fresh_linear : (fresh : Machine V).ledger.Linear := by
  refine ⟨List.nodup_nil, fun cell => rfl, ?_⟩
  intro r hr
  cases hr

theorem moments_linear (h : ReflTransGen Next fresh m) : m.ledger.Linear :=
  fresh_linear.moves (moments_moves fresh_agreed.1 h)

section Adapted
variable {source into : Nat} {context : Context}

theorem Adapted.reachable (h : m.Adapted source into context) : ReflTransGen Next fresh m := by
  induction h with
  | made hm hs h => exact hm.tail h.next
  | later h hn ih => exact ih.tail hn

theorem Adapted.moments (h : m.Adapted source into context) (hm : ReflTransGen Next m m') :
    m'.Adapted source into context := by
  induction hm with
  | refl => exact h
  | tail _ hn ih => exact ih.later hn

theorem Next.follows (hm : ReflTransGen Next fresh m) (hf : m.ledger.Follows source into)
    (h : m.Next m') : m'.ledger.Follows source into := by
  have hv := (moments_agreed hm).2
  have hl := moments_linear hm
  have hmoves := h.moves (moments_agreed hm).1
  generalize m'.ledger = v' at hmoves
  induction hmoves with
  | refl => exact hf
  | tail hs h ih => exact ih.move (hl.moves hs) (hv.moves hs) h

theorem Adapted.follows (h : m.Adapted source into context) : m.ledger.Follows source into := by
  induction h with
  | @made m m' name as token hm hs h =>
    have hn := (moments_agreed hm).1 name source hs
    let fresh := m.network.freshContext token
    have hl : Ledger.Linear ⟨fresh.1, m.ledger.due⟩ :=
      (moments_linear hm).move (.quiet (m.network.quiet_freshContext token))
    have hf := hl.follows fresh.2 hn
    rw [h.ledger, Network.perform, hs]
    exact hf.mono (.of_cells rfl) fun _ hr => hr
  | later h hn ih => exact hn.follows h.reachable ih

theorem Adapted.contextAt (h : m.Adapted source into context) :
    m.network.contextAt into = some context := by
  induction h with
  | @made m m' name as token hm hs h =>
    let fresh := m.network.freshContext token
    have hr := Network.extends_register (fresh.1.addCell ⟨some fresh.2, none⟩).1 source
      (.adapter fresh.1.cells.length)
    have hc := fresh.1.contextAt_addCell ⟨some fresh.2, none⟩
    have hn : m'.network = (m.network.perform (.adapt name as token)).1 :=
      congrArg Ledger.network h.ledger
    rw [hn, Network.perform, hs]
    exact hr.contextAt hc
  | later h hn ih =>
    have hnamed := (moments_agreed h.reachable).1
    exact (Ledger.moves_extends (hn.moves hnamed)).contextAt ih

end Adapted
end Machine

namespace Network

theorem calls_append (n : Network V) (as bs : List (Action V)) :
    (n.calls (as ++ bs)).1 = ((n.calls as).1.calls bs).1 := by
  induction as generalizing n with
  | nil => rfl
  | cons a as ih => exact ih (n.call a).1

theorem calls_adapted {before : List (Action V)} {name : String} {source : Nat}
    (h : (({} : Network V).calls before).1.names.find? name = some source) (as : String)
    (token : Option TokenValue) (after : List (Action V)) :
    let n := (({} : Network V).calls before).1
    ∃ last, Machine.Adapted source n.cells.length (.make n.contexts token)
      ⟨(({} : Network V).calls (before ++ .adapt name as token :: after)).1, [], last⟩ := by
  intro n
  obtain ⟨last₀, h₀⟩ := ({} : Network V).calls_moments before .nothing
  have hmade : Machine.Adapted source n.cells.length (.make n.contexts token)
      ⟨(n.perform (.adapt name as token)).1, (n.perform (.adapt name as token)).2.1,
        (n.perform (.adapt name as token)).2.2⟩ := .made h₀ h (.call rfl)
  obtain ⟨last, hlater⟩ := (n.call (.adapt name as token)).1.calls_moments after
    (n.call (.adapt name as token)).2
  refine ⟨last, hmade.moments ((n.run_perform _).trans ?_)⟩
  rw [calls_append]
  exact hlater

end Network

namespace Machine
variable {m : Machine V}

/-- A result that was made from a response, before or after it was settled, and however often it is
observed: at rest it has the adapted outcome of the response, at no moment another one. Whoever looks at it
under any of its names is told its outcome, a future once its own listener was started; its listeners are
handed its outcome with its own context, and are started when the response is settled. A value is adapted to
itself; a fault to the missing database or index if it came with the wire code 4 or 5, else to a failure
with the text of the fault, which has the message and the number of an unknown code. -/
theorem adapter_commutes {source into : Nat} {context : Context}
    (h : m.Adapted source into context) :
    (m.stack = [] → m.network.outcomeAt into = (m.network.outcomeAt source).map .adapt) ∧
    (∀ o, m.network.outcomeAt into = some o →
      ∃ received, m.network.outcomeAt source = some received ∧ o = received.adapt) ∧
    (∀ a, m.network.seenBy a = some into →
      (m.network.perform a).2.2 = a.told (m.network.outcomeAt into)) ∧
    (∀ as f, m.network.waits.find? as = some f → f.cell = into →
      (m.network.perform (.poll as)).2.2 = (Action.poll as).told
        (if (f.serial, into) ∈ startedIn m.network.trace then m.network.outcomeAt into else none)) ∧
    (∀ serial tag o c, .started serial into tag o c ∈ m.network.trace →
      m.network.outcomeAt into = some o ∧ c = some context) ∧
    (m.stack = [] → ∀ serial, (serial, into) ∈ registeredIn m.network.trace →
      ((serial, into) ∈ startedIn m.network.trace ↔ (m.network.outcomeAt source).isSome)) ∧
    (∀ v : V, (Outcome.value v).adapt = .value v) ∧
    (∀ e, ∃ e', (.failed (.transport e) : Outcome V).adapt = .failed (.router e') ∧
      (∀ message, e' = ⟨.noSuchDatabase, message⟩ ↔ e = .remote (.ofNumber 4) message) ∧
      (∀ message, e' = ⟨.noSuchIndex, message⟩ ↔ e = .remote (.ofNumber 5) message) ∧
      ((∀ message, e ≠ .remote (.ofNumber 4) message ∧ e ≠ .remote (.ofNumber 5) message) →
        e' = ⟨.replicationFailure, e.text⟩)) ∧
    (∀ n message, (WireCode.ofNumber n).number = n ∧
      (TransportError.remote (.ofNumber n) message).text =
        "Remote error " ++ (WireCode.ofNumber n).text ++ ": " ++ message ∧
      (n.toNat = 0 ∨ 6 < n.toNat →
        (WireCode.ofNumber n).text = "UNKNOWN(" ++ Text.numeral n.toNat ++ ")")) := by
  have hv := (moments_agreed h.reachable).2
  have ho := (moments_linear h.reachable).owned
  have hf := h.follows
  have hrest : m.stack = [] → m.network.outcomeAt into = (m.network.outcomeAt source).map .adapt := by
    intro hs
    exact hf.at_rest ho hv (due_at_rest hs)
  refine ⟨hrest, fun o => hf.outcome ho, fun a hs => m.network.perform_told hs, ?_, ?_, ?_,
    fun v => rfl, ?_, ?_⟩
  · rintro as f hw rfl
    have ht : (m.network.perform (.poll as)).2.2 = (Action.poll as).told f.outcome :=
      m.network.poll_told hw
    rw [ht, hv.future_outcome hw]
    rfl
  · intro serial tag o c hs
    have hcell := hv.started serial into tag o c hs
    refine ⟨hv.outcomeAt_of_started hs, ?_⟩
    have hc := h.contextAt
    rw [Network.contextAt] at hc
    exact (congrArg (·.bind (·.context)) hcell).symm.trans hc
  · intro hs serial hr
    rw [← Option.isSome_map (f := Outcome.adapt), ← hrest hs]
    exact hv.started_iff (due_at_rest hs) hr
  · intro e
    refine ⟨e.toRouterError, rfl, ?_, ?_, e.toRouterError_other⟩
    · exact fun message => e.toRouterError_database message
    · exact fun message => e.toRouterError_index message
  · exact fun n message => ⟨WireCode.number_ofNumber n, rfl, WireCode.text_ofNumber⟩

/-- A response is listened to, adapted, cloned and refused with code 4; one listener on the result was there
before, the other one comes after. -/
theorem adapter_commutes_refused :
    let fault : TransportError := .remote (.ofNumber 4) "accounts"
    let before : List (Action String) := [.response "r", .listen "r" "first" [.get "a"] true]
    let after : List (Action String) := [.clone "a" "b", .listen "b" "early" [.get "a"] false,
      .wait "a" "w", .complete "r" (.failed (.transport fault)), .listen "a" "late" [] false]
    let n := (({} : Network String).calls (before ++ .adapt "r" "a" (some (.text "mine")) :: after)).1
    let o : Outcome String := .failed (.router ⟨.noSuchDatabase, "accounts"⟩)
    n.outcomeAt 0 = some (.failed (.transport fault)) ∧ n.outcomeAt 1 = some o ∧
      startedIn n.trace = [(0, 0), (1, 0), (2, 1), (3, 1), (4, 1)] ∧
      (n.perform (.get "b")).2.2 = .outcome o ∧ (n.perform (.poll "w")).2.2 = .outcome o := by
  intro fault before after n o
  have hs : (({} : Network String).calls before).1.names.find? "r" = some 0 := by decide +kernel
  have hcells : (({} : Network String).calls before).1.cells.length = 1 := by decide +kernel
  obtain ⟨last, h⟩ := Network.calls_adapted hs "a" (some (.text "mine")) after
  rw [hcells] at h
  obtain ⟨hrest, -, hseen, hpoll, -⟩ := adapter_commutes h
  have hsource : n.outcomeAt 0 = some (.failed (.transport fault)) := by decide +kernel
  have hinto : n.outcomeAt 1 = some o := (hrest rfl).trans (congrArg (Option.map _) hsource)
  refine ⟨hsource, hinto, by decide +kernel, ?_, ?_⟩
  · have hname : n.seenBy (.get "b") = some 1 := by decide +kernel
    exact (hseen (.get "b") hname).trans (congrArg (Action.told · (.get "b")) hinto)
  · have hw : n.waits.find? "w" = some ⟨3, 1, some o⟩ := by decide +kernel
    have hstarted : (3, 1) ∈ startedIn n.trace := by decide +kernel
    refine (hpoll "w" _ hw rfl).trans ?_
    exact congrArg (Action.told · (.poll "w")) ((if_pos hstarted).trans hinto)

end Machine
end Result
end ReplicaRouting
