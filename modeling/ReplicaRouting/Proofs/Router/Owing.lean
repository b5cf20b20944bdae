import ReplicaRouting.Proofs.Result.Idle
import ReplicaRouting.Proofs.Router.Setup
/-!
Who settles the cells of a router. Each cell that is owed to a collaborator or led to by an adapter has no
other source, so what an engine still owes comes from that engine's answer alone.
-/

namespace ReplicaRouting

open Net (SocketAddress)
open Result (Context Outcome Listener Frame)

namespace Router
variable (r : Router)

/-! ### The invariant -/

def owedElsewhere : List Nat := r.owedByClient.map (·.2) ++ r.owedByPersistence

structure Tidy : Prop where
  idle : ∀ x ∈ r.net.waiting, x.listener.IsIdle
  adapters : ∀ x ∈ r.net.waiting, ∀ into, x.listener = .adapter into →
    into < r.net.cells.length ∧ into ∉ r.owedByEngine
  engine : ∀ k ∈ r.owedByEngine, k < r.net.cells.length
  elsewhere : ∀ k ∈ r.owedElsewhere, k < r.net.cells.length ∧ k ∉ r.owedByEngine
  nodup : r.owedByEngine.Nodup

/-- What leaves the answers of engines alone. -/
structure Leads (r r' : Router) : Prop where
  tidy : r'.Tidy
  extended : r.net.Extends r'.net
  owed : r.owedByEngine <+: r'.owedByEngine
  kept : ∀ k ∈ r.owedByEngine, r'.net.outcomeAt k = r.net.outcomeAt k

section Leads
variable {r} {r' r'' : Router}

theorem Leads.trans (h : r.Leads r') (h' : r'.Leads r'') : r.Leads r'' := by
  refine ⟨h'.tidy, h.extended.trans h'.extended, h.owed.trans h'.owed, fun k hk => ?_⟩
  exact (h'.kept k (h.owed.subset hk)).trans (h.kept k hk)

theorem Tidy.of_books (hr : r.Tidy) (h : r'.books = r.books) : r.Leads r' := by
  obtain ⟨hc, hw, he, hcl, hp⟩ := Books.mk.inj h
  have ho : r'.owedElsewhere = r.owedElsewhere := by rw [owedElsewhere, owedElsewhere, hcl, hp]
  refine ⟨⟨?_, ?_, ?_, ?_, ?_⟩, .of_cells hc, ?_, ?_⟩
  · rw [hw]
    exact hr.idle
  · rw [hw, hc, he]
    exact hr.adapters
  · rw [he, hc]
    exact hr.engine
  · rw [ho, hc, he]
    exact hr.elsewhere
  · rw [he]
    exact hr.nodup
  · exact ⟨[], by rw [he, List.append_nil]⟩
  · exact fun k _ => Result.Network.outcomeAt_congr hc k

theorem Tidy.refl (hr : r.Tidy) : r.Leads r := hr.of_books rfl

theorem Tidy.keeps (hr : r.Tidy) (h : r.Keeps r') : r.Leads r' := hr.of_books h.books

theorem Tidy.made (hr : r.Tidy) (c : Result.Cell Engine.Reply)
    (hc : r'.net.cells = r.net.cells ++ [c])
    (hw : r'.net.waiting = r.net.waiting) (he : r'.owedByEngine = r.owedByEngine)
    (ho : ∀ k ∈ r'.owedElsewhere, k ∈ r.owedElsewhere ∨ k = r.net.cells.length) : r.Leads r' := by
  have hx : r.net.Extends r'.net := (r.net.extends_addCell c).trans (.of_cells hc)
  have hnew : r.net.cells.length ∉ r.owedByEngine := fun h => Nat.lt_irrefl _ (hr.engine _ h)
  refine ⟨⟨?_, ?_, ?_, ?_, ?_⟩, hx, ?_, ?_⟩
  · rw [hw]
    exact hr.idle
  · rw [hw, he]
    intro x hm into hl
    obtain ⟨hlt, hn⟩ := hr.adapters x hm into hl
    exact ⟨hx.lt hlt, hn⟩
  · rw [he]
    exact fun k hk => hx.lt (hr.engine k hk)
  · rw [he]
    intro k hk
    rcases ho k hk with hk | rfl
    · exact ⟨hx.lt (hr.elsewhere k hk).1, (hr.elsewhere k hk).2⟩
    · refine ⟨?_, hnew⟩
      rw [hc, List.length_append]
      exact Nat.lt_add_one _
  · rw [he]
    exact hr.nodup
  · exact ⟨[], by rw [he, List.append_nil]⟩
  · intro k hk
    rw [Result.Network.outcomeAt, Result.Network.outcomeAt, hc,
      List.getElem?_append_left (hr.engine k hk)]

theorem Tidy.owed (hr : r.Tidy) (c : Result.Cell Engine.Reply)
    (hc : r'.net.cells = r.net.cells ++ [c])
    (hw : r'.net.waiting = r.net.waiting)
    (he : r'.owedByEngine = r.owedByEngine ++ [r.net.cells.length])
    (ho : r'.owedElsewhere = r.owedElsewhere) : r.Leads r' := by
  have hx : r.net.Extends r'.net := (r.net.extends_addCell c).trans (.of_cells hc)
  -- whatever is led to exists already, so it is not the new cell
  have hnew : ∀ k, k < r.net.cells.length ∧ k ∉ r.owedByEngine →
      k < r'.net.cells.length ∧ k ∉ r.owedByEngine ++ [r.net.cells.length] := by
    rintro k ⟨hlt, hn⟩
    refine ⟨hx.lt hlt, fun hm => ?_⟩
    rcases List.mem_append.mp hm with hm | hm
    · exact hn hm
    · exact absurd (List.mem_singleton.mp hm) (Nat.ne_of_lt hlt)
  refine ⟨⟨?_, ?_, ?_, ?_, ?_⟩, hx, ⟨[r.net.cells.length], he.symm⟩, ?_⟩
  · rw [hw]
    exact hr.idle
  · rw [hw, he]
    exact fun x hm into hl => hnew into (hr.adapters x hm into hl)
  · rw [he]
    intro k hk
    rcases List.mem_append.mp hk with hk | hk
    · exact hx.lt (hr.engine k hk)
    · rw [List.mem_singleton.mp hk, hc, List.length_append]
      exact Nat.lt_add_one _
  · rw [ho, he]
    exact fun k hk => hnew k (hr.elsewhere k hk)
  · rw [he, List.nodup_append]
    refine ⟨hr.nodup, List.pairwise_singleton _ _, ?_⟩
    intro k hk j hj
    rw [List.mem_singleton.mp hj]
    exact Nat.ne_of_lt (hr.engine k hk)
  · intro k hk
    rw [Result.Network.outcomeAt, Result.Network.outcomeAt, hc,
      List.getElem?_append_left (hr.engine k hk)]

theorem Tidy.result (hr : r.Tidy) (context : Context) (o : Option (Outcome Engine.Reply)) :
    r.Leads (r.result context o).1 := hr.made _ rfl rfl rfl fun _ h => .inl h

theorem Tidy.deliver (hr : r.Tidy) {n : Result.Network Engine.Reply}
    {frames : List (Frame Engine.Reply)}
    (he : r.net.Extends n) (hf : ∀ f ∈ frames, f.IsIdle)
    (hh : ∀ x, (Result.Machine.ledger ⟨n, frames, .nothing⟩).Has x → x.listener.IsIdle ∧
      ∀ into, x.listener = .adapter into → into < n.cells.length ∧ into ∉ r.owedByEngine) :
    let r' := { r with net := n.deliver frames }
    r'.Tidy ∧ n.Extends r'.net ∧ ∀ k ∈ r.owedByEngine, r'.net.outcomeAt k = n.outcomeAt k := by
  -- a run of idle listeners settles no cell but those that adapters lead to
  have hc := Result.Machine.run_calm ⟨n, frames, .nothing⟩ ⟨fun x hx => (hh x hx).1, hf⟩
  have hl : (n.deliver frames).cells.length = n.cells.length := hc.length
  refine ⟨⟨?_, ?_, ?_, ?_, hr.nodup⟩, hc.extended, ?_⟩
  · exact fun x hx => (hh x (hc.has x (.inl hx))).1
  · intro x hx into hi
    show into < (n.deliver frames).cells.length ∧ _
    rw [hl]
    exact (hh x (hc.has x (.inl hx))).2 into hi
  · intro k hk
    show k < (n.deliver frames).cells.length
    rw [hl]
    exact he.lt (hr.engine k hk)
  · intro k hk
    show k < (n.deliver frames).cells.length ∧ _
    rw [hl]
    exact ⟨he.lt (hr.elsewhere k hk).1, (hr.elsewhere k hk).2⟩
  · intro k hk
    refine hc.kept k fun x hx hi => ?_
    exact ((hh x hx).2 k hi).2 hk

theorem Tidy.register (hr : r.Tidy) (cell : Nat) {l : Listener Engine.Reply} (hl : l.IsIdle)
    (ha : ∀ into, l = .adapter into → into < r.net.cells.length ∧ into ∉ r.owedByEngine) :
    r.Leads (r.register cell l) := by
  have hx := r.net.extends_register cell l
  obtain ⟨v, hc, hh, hv⟩ := Result.Ledger.register_calm r.net cell l
  have hlen : (r.net.register cell l).1.cells.length = r.net.cells.length := by
    have h := hv.length
    rw [hc] at h
    exact h
  have hown : ∀ x, v.Has x → x.listener.IsIdle ∧
      ∀ into, x.listener = .adapter into → into < r.net.cells.length ∧ into ∉ r.owedByEngine := by
    intro x hm
    rcases hh x hm with hm | rfl
    · exact ⟨hr.idle x hm, hr.adapters x hm⟩
    · exact ⟨hl, ha⟩
  have hidle : ∀ f ∈ (r.net.register cell l).2, f.IsIdle :=
    Result.Machine.register_isIdle r.net cell hl
  obtain ⟨ht, he, hk⟩ := hr.deliver hx hidle fun x hm => by
      rw [hlen]
      exact hown x (hv.has x hm)
  refine ⟨ht, hx.trans he, List.prefix_refl _, fun k hm => (hk k hm).trans ?_⟩
  have hsame := hv.kept k fun x hm' hi => ((hown x hm').2 k hi).2 hm
  exact hsame.trans (Result.Network.outcomeAt_congr hc k)

theorem Tidy.complete (hr : r.Tidy) (cell : Nat) (o : Outcome Engine.Reply) :
    (r.complete cell o).Tidy ∧ r.net.Extends (r.complete cell o).net ∧
      (∀ k ∈ r.owedByEngine, k ≠ cell → (r.complete cell o).net.outcomeAt k = r.net.outcomeAt k) ∧
      (cell < r.net.cells.length → r.net.outcomeAt cell = none →
        (r.complete cell o).net.outcomeAt cell = some o) := by
  have hx := r.net.extends_settle cell o
  obtain ⟨hlen, hhas, hother⟩ := Result.Ledger.settle_apart ⟨r.net, []⟩ cell o
  have hidle := Result.Machine.settle_isIdle r.net cell o
  obtain ⟨ht, he, hk⟩ := hr.deliver hx hidle fun x hm => by
    have hm : x ∈ r.net.waiting := by
      rcases hhas x (by rw [Result.Ledger.after_rest]; exact hm) with h | ⟨d, hd, -⟩
      · exact h
      · cases hd
    refine ⟨hr.idle x hm, ?_⟩
    intro into hi
    exact ⟨hx.lt (hr.adapters x hm into hi).1, (hr.adapters x hm into hi).2⟩
  refine ⟨ht, hx.trans he, fun k hm hne => (hk k hm).trans (hother k hne), fun hlt hn => ?_⟩
  apply he.outcomeAt
  have hc : ∃ context, r.net.cells[cell]? = some ⟨context, none⟩ := by
    have hg := List.getElem?_eq_getElem hlt
    rw [Result.Network.outcomeAt, hg] at hn
    refine ⟨r.net.cells[cell].context, hg.trans ?_⟩
    rw [← (show r.net.cells[cell].outcome = none from hn)]
  obtain ⟨context, hc⟩ := hc
  rw [Result.Network.settle, hc]
  exact Result.Network.outcomeAt_eq_some_iff.mpr ⟨context, List.getElem?_set_self hlt⟩

end Leads

/-! ### What each request leads to -/

section Requests
variable {r}

theorem Tidy.serve (hr : r.Tidy) (h : Handle) (request : Engine.Request) (context : Context) :
    r.Leads (r.serve h request context).1 := by
  unfold Router.serve
  dsimp only
  split
  · exact hr.made _ rfl rfl rfl fun _ h => .inl h
  · exact hr.owed _ rfl rfl rfl rfl

theorem Tidy.send (hr : r.Tidy) (address : SocketAddress) (database : String) (q : Engine.Read) :
    r.Leads (r.send address database q).1 := by
  unfold Router.send
  dsimp only
  split
  · exact hr.made _ rfl rfl rfl fun _ h => .inl h
  · refine hr.made _ rfl rfl rfl fun k hk => ?_
    simp only [owedElsewhere, Router.record, List.map_append, List.map_cons, List.map_nil,
      List.mem_append, List.mem_singleton] at hk ⊢
    rcases hk with (hk | hk) | hk
    · exact .inl (.inl hk)
    · exact .inr hk
    · exact .inl (.inr hk)

theorem Tidy.adapt (hr : r.Tidy) (source : Nat) (context : Context) :
    let adapted := r.net.addAdapted source context
    r.Leads { r with net := adapted.1.1.deliver adapted.1.2 } := by
  have hm : r.Leads { r with net := (r.net.addCell ⟨some context, none⟩).1 } :=
    hr.made ⟨some context, none⟩ rfl rfl rfl fun _ h => .inl h
  -- an engine owes none of the cells that are yet to be made
  refine hm.trans (hm.tidy.register source (l := .adapter r.net.cells.length) trivial ?_)
  rintro into ⟨⟩
  refine ⟨?_, fun h => Nat.lt_irrefl _ (hr.engine _ h)⟩
  show r.net.cells.length < (r.net.cells ++ [_]).length
  rw [List.length_append]
  exact Nat.lt_add_one _

theorem Tidy.forward (hr : r.Tidy) (address : SocketAddress) (database : String) (q : Engine.Read)
    (context : Context) : r.Leads (r.forward address database q context).1 := by
  have hs := hr.send address database q
  unfold Router.forward Router.forwardWith
  generalize r.send address database q = sent at hs ⊢
  have ha := hs.tidy.adapt sent.2 context
  exact (hs.trans ha).trans (ha.tidy.register _ trivial nofun)

theorem Tidy.read (hr : r.Tidy) (q : Engine.Read) (context : Context) :
    r.Leads (r.read q context).1 := by
  have hk := r.keeps_resolve q.operation
  unfold Router.read Router.readWith
  generalize r.resolve q.operation = resolved at hk ⊢
  dsimp only
  split
  · rename_i e _
    have hn := hr.keeps (hk.reject q.operation e context)
    exact hn.trans (hn.tidy.result context _)
  · rename_i h _
    have hn := fun x => hr.keeps ((hk.count .countLocalRead).log x)
    exact (hn _).trans ((hn _).tidy.serve h _ context)
  · rename_i address _
    have hn := fun x => hr.keeps ((hk.count .countRemoteRead).log x)
    exact (hn _).trans ((hn _).tidy.forward address _ q context)

theorem Tidy.userDefined (hr : r.Tidy) (u : Engine.UserLookup) (context : Context) :
    r.Leads (r.userDefined u context).1 := by
  have hb := hr.keeps (r.keeps_localOnly .userDefinedLookup context)
  unfold Router.userDefined
  generalize r.localOnly .userDefinedLookup context = found at hb ⊢
  dsimp only
  split
  · exact hb.trans (hb.tidy.result context _)
  · rename_i h _
    exact hb.trans (hb.tidy.serve h _ context)

theorem Tidy.persisted (hr : r.Tidy) (context : Context) :
    let made := r.result context none
    r.Leads { made.1 with owedByPersistence := made.1.owedByPersistence ++ [made.2] } := by
  refine hr.made _ rfl rfl rfl fun k hk => ?_
  rcases List.mem_append.mp hk with hk | hk
  · exact .inl (List.mem_append_left _ hk)
  · rcases List.mem_append.mp hk with hk | hk
    · exact .inl (List.mem_append_right _ hk)
    · exact .inr (List.mem_singleton.mp hk)

theorem Tidy.insert (hr : r.Tidy) (group : Engine.InsertGroup) (context : Context) :
    r.Leads (r.insert group context).1 := by
  have hk := r.keeps_ask
  unfold Router.insert
  split
  · exact hr.result context _
  · generalize r.ask = asked at hk ⊢
    dsimp only
    split
    · have hn := hr.keeps (hk.reject .insert .noQuorum context)
      exact hn.trans (hn.tidy.result context _)
    · have hn := fun x c => hr.keeps (((hk.count .countWrite).log x).record c)
      split
      · exact (hn ..).trans ((hn ..).tidy.result context _)
      · exact (hn ..).trans ((hn ..).tidy.persisted context)

theorem Tidy.settleOwed (hr : r.Tidy) {cell : Option Nat}
    (hc : ∀ k, cell = some k → k ∈ r.owedElsewhere)
    (o : Option (Outcome Engine.Reply)) : r.Leads (r.settleOwed cell o).1 := by
  have hleads : ∀ k, cell = some k → ∀ o, r.Leads (r.complete k o) := by
    intro k hk o
    obtain ⟨ht, hx, hkept, -⟩ := hr.complete k o
    refine ⟨ht, hx, List.prefix_refl _, fun j hj => hkept j hj ?_⟩
    rintro rfl
    exact (hr.elsewhere j (hc j hk)).2 hj
  unfold Router.settleOwed Router.settleOwedWith
  split
  · exact hr.refl
  · split
    · exact hr.refl
    · split
      · exact hleads _ rfl _
      · exact hleads _ rfl _

theorem Tidy.fresh (hr : r.Tidy) (token : Option Result.TokenValue) :
    r.Leads { r with net := (r.net.freshContext token).1 } := hr.of_books rfl

/-- Every action but an answer of an engine leaves the answers of engines alone. -/
theorem Tidy.perform (hr : r.Tidy) {a : RouterAction} (ha : ∀ n reply, a ≠ .engineAnswers n reply) :
    r.Leads (r.perform a).1 := by
  cases a with
  | read q token => exact (hr.fresh token).trans ((hr.fresh token).tidy.read q _)
  | userDefined u token => exact (hr.fresh token).trans ((hr.fresh token).tidy.userDefined u _)
  | comparators => exact hr.keeps r.keeps_comparators
  | insert group token => exact (hr.fresh token).trans ((hr.fresh token).tidy.insert group _)
  | singleInsert index key value token =>
    exact (hr.fresh token).trans ((hr.fresh token).tidy.insert _ _)
  | singleDelete index key token => exact (hr.fresh token).trans ((hr.fresh token).tidy.insert _ _)
  | forward address database q token =>
    exact (hr.fresh token).trans ((hr.fresh token).tidy.forward address database q _)
  | plan op => exact hr.keeps r.keeps_ask
  | resolve op => exact hr.keeps (r.keeps_resolve op)
  | role => exact hr.keeps r.keeps_ask
  | shutdown => exact hr.keeps r.keeps_shutdown
  | setPrimary address => exact hr.of_books (keeps_logAll ..).books
  | clearPrimary => exact hr.of_books (keeps_logAll ..).books
  | engineAnswers n reply => exact absurd rfl (ha n reply)
  | clientAnswers n reply =>
    refine hr.settleOwed (fun k hk => List.mem_append_left _ ?_) _
    obtain ⟨owed, ho, rfl⟩ := Option.map_eq_some_iff.mp hk
    exact List.mem_map.mpr ⟨owed, List.mem_of_getElem? ho, rfl⟩
  | persistenceAnswers n reply =>
    exact hr.settleOwed (fun k hk => List.mem_append_right _ (List.mem_of_getElem? hk)) _
  | listen cell tag => exact hr.register cell rfl nofun
  | replace | interrupt | poll => exact hr.of_books rfl

end Requests
end Router

def RouterAction.engineAnswer? (n : Nat) : RouterAction → Option (Outcome Engine.Reply)
  | .engineAnswers m reply =>
    if m = n then some (reply.elim (.failed (.router .abandoned)) .ofRouted) else none
  | _ => none

namespace Router
variable {r : Router}

theorem Tidy.engineAnswers (hr : r.Tidy) (n : Nat)
    (reply : Option (Except RouterError Engine.Reply)) :
    let r' := (r.perform (.engineAnswers n reply)).1
    r'.Tidy ∧ r.net.Extends r'.net ∧ r'.owedByEngine = r.owedByEngine ∧
      ∀ m (k : Nat) context, r.owedByEngine[m]? = some k → r.net.contextAt k = some context →
        r'.net.outcomeAt k =
          (r.net.outcomeAt k).or ((RouterAction.engineAnswers n reply).engineAnswer? m) := by
  simp only [Router.perform, Router.performWith, Router.settleOwedWith]
  cases hn : r.owedByEngine[n]? with
  | none =>
    refine ⟨hr, .refl _, rfl, fun m k context hm _ => ?_⟩
    have hne : n ≠ m := by
      rintro rfl
      rw [hn] at hm
      cases hm
    rw [RouterAction.engineAnswer?, if_neg hne, Option.or_none]
  | some cell =>
    have hlt : cell < r.net.cells.length := hr.engine cell (List.mem_of_getElem? hn)
    -- two results owed by engines are two cells
    have hsame : ∀ m k, r.owedByEngine[m]? = some k → (n = m ↔ cell = k) := by
      intro m k hm
      have hi := List.getElem?_inj (j := m) (List.getElem?_eq_some_iff.mp hn).1 hr.nodup
      rw [hn, hm] at hi
      exact hi.symm.trans ⟨Option.some.inj, congrArg some⟩
    dsimp only
    split
    · rename_i ho
      refine ⟨hr, .refl _, rfl, fun m k context hm _ => ?_⟩
      by_cases hnm : n = m
      · rw [← (hsame m k hm).mp hnm]
        obtain ⟨o, ho⟩ := Option.isSome_iff_exists.mp ho
        rw [ho, Option.some_or]
      · rw [RouterAction.engineAnswer?, if_neg hnm, Option.or_none]
    · rename_i ho
      have ho : r.net.outcomeAt cell = none := Option.not_isSome_iff_eq_none.mp ho
      have hdone : ∀ o, (r.complete cell o).Tidy ∧ r.net.Extends (r.complete cell o).net ∧
          (r.complete cell o).owedByEngine = r.owedByEngine ∧ ∀ m k, r.owedByEngine[m]? = some k →
            (r.complete cell o).net.outcomeAt k =
              (r.net.outcomeAt k).or (if n = m then some o else none) := by
        intro o
        obtain ⟨ht, hx, hkept, hset⟩ := hr.complete cell o
        refine ⟨ht, hx, rfl, fun m k hm => ?_⟩
        by_cases hnm : n = m
        · rw [← (hsame m k hm).mp hnm, hset hlt ho, ho, if_pos hnm, Option.none_or]
        · have hne : k ≠ cell := fun h => hnm ((hsame m k hm).mpr h.symm)
          rw [hkept k (List.mem_of_getElem? hm) hne, if_neg hnm, Option.or_none]
      cases reply with
      | some reply =>
        obtain ⟨ht, hx, he, hk⟩ := hdone (.ofRouted reply)
        exact ⟨ht, hx, he, fun m k context hm _ => hk m k hm⟩
      | none =>
        -- a response without a context is abandoned in another way, but results have one
        obtain ⟨ht, hx, he, hk⟩ := hdone (.abandoned (r.net.contextAt cell))
        refine ⟨ht, hx, he, fun m k context hm hc => ?_⟩
        apply (hk m k hm).trans
        by_cases hnm : n = m
        · rw [(hsame m k hm).mp hnm, hc]
          rfl
        · rw [RouterAction.engineAnswer?, if_neg hnm, if_neg hnm]

theorem Tidy.run (hr : r.Tidy) (as : List RouterAction) :
    (r.run as).1.Tidy ∧ r.net.Extends (r.run as).1.net := by
  induction as generalizing r with
  | nil => exact ⟨hr, .refl _⟩
  | cons a as ih =>
    have h : (r.perform a).1.Tidy ∧ r.net.Extends (r.perform a).1.net := by
      by_cases ha : ∃ m reply, a = .engineAnswers m reply
      · obtain ⟨m, reply, rfl⟩ := ha
        obtain ⟨ht, hx, -⟩ := hr.engineAnswers m reply
        exact ⟨ht, hx⟩
      · have hl := hr.perform fun m reply h => ha ⟨m, reply, h⟩
        exact ⟨hl.tidy, hl.extended⟩
    obtain ⟨ht, hx⟩ := ih h.1
    exact ⟨ht, h.2.trans hx⟩

theorem Tidy.next (hr : r.Tidy) (a : RouterAction) : (r.perform a).1.Tidy :=
  (hr.run [a]).1

/-- A result that an engine owes changes with that engine's answer only. -/
theorem Tidy.step (hr : r.Tidy) (a : RouterAction) {n k : Nat} {context : Context}
    (hk : r.owedByEngine[n]? = some k) (hc : r.net.contextAt k = some context) :
    let r' := (r.perform a).1
    r'.Tidy ∧ r'.owedByEngine[n]? = some k ∧ r'.net.contextAt k = some context ∧
      r'.net.outcomeAt k = (r.net.outcomeAt k).or (a.engineAnswer? n) := by
  by_cases ha : ∃ m reply, a = .engineAnswers m reply
  · obtain ⟨m, reply, rfl⟩ := ha
    obtain ⟨ht, hx, he, ho⟩ := hr.engineAnswers m reply
    exact ⟨ht, he.symm ▸ hk, hx.contextAt hc, ho n k context hk hc⟩
  · have hn : ∀ m reply, a ≠ .engineAnswers m reply := fun m reply h => ha ⟨m, reply, h⟩
    have hl := hr.perform hn
    have hnone : a.engineAnswer? n = none := by
      cases a with
      | engineAnswers m reply => exact absurd rfl (hn m reply)
      | _ => rfl
    obtain ⟨rest, hrest⟩ := hl.owed
    refine ⟨hl.tidy, ?_, hl.extended.contextAt hc, ?_⟩
    · rw [← hrest, List.getElem?_append_left (List.getElem?_eq_some_iff.mp hk).1]
      exact hk
    · rw [hnone, Option.or_none]
      exact hl.kept k (List.mem_of_getElem? hk)

theorem Tidy.outcome_run (hr : r.Tidy) {n k : Nat} {context : Context}
    (hk : r.owedByEngine[n]? = some k)
    (hc : r.net.contextAt k = some context) (as : List RouterAction) :
    (r.run as).1.net.outcomeAt k = (r.net.outcomeAt k).or (as.findSome? (·.engineAnswer? n)) := by
  induction as generalizing r with
  | nil => exact (Option.or_none ..).symm
  | cons a as ih =>
    obtain ⟨ht, hk', hc', ho⟩ := hr.step a hk hc
    apply (ih ht hk' hc').trans
    rw [ho, Option.or_assoc, List.findSome?_cons]
    cases a.engineAnswer? n <;> rfl

end Router

/-- What the result of a local call is after a run: the engine's answer, if it has come. The answer is the
nth that engines owe. -/
def Response.outcomeIn (n : Nat) (later : List RouterAction) :
    Response RouterError → Option (Outcome Engine.Reply)
  | .settled reply => some (.ofRouted reply)
  | .held => later.findSome? (·.engineAnswer? n)

namespace Router
variable {r : Router}

theorem outcomeAt_result (r : Router) (context : Context) (o : Option (Outcome Engine.Reply)) :
    (r.result context o).1.net.cells[(r.result context o).2]? = some ⟨some context, o⟩ :=
  r.net.getElem_addCell ⟨some context, o⟩

theorem Tidy.result_later (hr : r.Tidy) (context : Context) (o : Outcome Engine.Reply)
    (later : List RouterAction) :
    ((r.result context (some o)).1.run later).1.net.outcomeAt (r.result context (some o)).2 =
      some o := by
  have hx := ((hr.result context (some o)).tidy.run later).2
  exact hx.outcomeAt
    (Result.Network.outcomeAt_eq_some_iff.mpr ⟨_, r.outcomeAt_result context (some o)⟩)

theorem Tidy.serve_later (hr : r.Tidy) (h : Handle) (request : Engine.Request) (context : Context)
    (later : List RouterAction) :
    let done := r.serve h request context
    (done.1.run later).1.net.outcomeAt done.2 =
      (r.collaborators.engine h request context).outcomeIn r.owedByEngine.length later := by
  have ht := (hr.serve h request context).tidy
  have hb : r.Leads (r.record (.engine h request context)) := hr.of_books rfl
  -- the answer of the engine decides what the call leaves behind
  revert ht
  unfold Router.serve
  dsimp only
  show _ → _ = (r.collaborators.engine h request context).outcomeIn _ _
  have hc : (r.record (.engine h request context)).collaborators = r.collaborators := rfl
  rw [hc]
  cases r.collaborators.engine h request context with
  | settled reply =>
    intro _
    exact hb.tidy.result_later context (.ofRouted reply) later
  | held =>
    intro ht
    have hcell := (r.record (.engine h request context)).outcomeAt_result context none
    have hk : (r.owedByEngine ++ [r.net.cells.length])[r.owedByEngine.length]? =
        some r.net.cells.length := by
      rw [List.getElem?_append_right (Nat.le_refl _), Nat.sub_self]
      rfl
    refine (ht.outcome_run hk (Option.bind_eq_some_iff.mpr ⟨_, hcell, rfl⟩) later).trans ?_
    let made := (r.record (.engine h request context)).result context none
    have ho : made.1.net.outcomeAt r.net.cells.length = none :=
      congrArg (fun c : Option (Result.Cell Engine.Reply) => c.bind (·.outcome)) hcell
    exact congrArg (fun o : Option (Outcome Engine.Reply) => o.or _) ho

end Router
end ReplicaRouting
