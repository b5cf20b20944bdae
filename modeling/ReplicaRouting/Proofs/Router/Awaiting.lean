import ReplicaRouting.Proofs.Router.Bearings
/-!
Results that the persistence manager still owes. Whatever else is asked of the router, such a result waits for
its answer and takes it as it comes.
-/

namespace ReplicaRouting

open Net (SocketAddress)
open Result (Context Outcome Listener Machine Network Ledger)

namespace Router

/-! ### What an action is made of -/

/-- What an action does to the cells, once what it looks up was found. An answer settles one cell. -/
inductive Step (r : Router) : Option Nat → Router → Prop
  | keeps {r' : Router} (settled : Option Nat) (h : r'.books = r.books) : Step r settled r'
  | result {r₁ : Router} (h : r₁.books = r.books) (context : Context) (o : Option (Outcome Engine.Reply)) :
      Step r none (r₁.result context o).1
  | served {r₁ : Router} (h : r₁.books = r.books) (handle : Handle) (request : Engine.Request)
      (context : Context) : Step r none (r₁.serve handle request context).1
  | forwarded {r₁ : Router} (h : r₁.books = r.books) (address : SocketAddress) (database : String)
      (q : Engine.Read) (context : Context) : Step r none (r₁.forward address database q context).1
  | dispatched {r₁ : Router} (h : r₁.books = r.books) (group : Engine.InsertGroup) (context : Context) :
      Step r none (r₁.dispatch group context).1
  | settled (cell : Nat) (o : Outcome Engine.Reply) : Step r (some cell) (r.complete cell o)
  | listened (cell : Nat) (tag : String) : Step r none (r.register cell (.script tag [] false))

def settles (r : Router) : RouterAction → Option Nat
  | .engineAnswers n _ => r.owedByEngine[n]?
  | .clientAnswers n _ => r.owedByClient[n]?.map (·.2)
  | .persistenceAnswers n _ => r.owedByPersistence[n]?
  | _ => none

section Step
variable {r r₀ : Router} (h₀ : r.books = r₀.books)

include h₀

theorem step_read (q : Engine.Read) (context : Context) : r₀.Step none (r.read q context).1 := by
  have hk := r.keeps_resolve q.operation
  unfold Router.read Router.readWith
  generalize r.resolve q.operation = resolved at hk ⊢
  dsimp only
  split
  · rename_i e _
    exact .result ((hk.reject q.operation e context).books.trans h₀) context _
  · rename_i h _
    exact .served (((hk.count .countLocalRead).log _).books.trans h₀) h _ context
  · rename_i address _
    exact .forwarded (((hk.count .countRemoteRead).log _).books.trans h₀) address _ q context

theorem step_userDefined (u : Engine.UserLookup) (context : Context) :
    r₀.Step none (r.userDefined u context).1 := by
  have hk := r.keeps_localOnly .userDefinedLookup context
  unfold Router.userDefined
  generalize r.localOnly .userDefinedLookup context = found at hk ⊢
  dsimp only
  split
  · exact .result (hk.books.trans h₀) context _
  · rename_i h _
    exact .served (hk.books.trans h₀) h _ context

theorem step_insert (group : Engine.InsertGroup) (context : Context) :
    r₀.Step none (r.insert group context).1 := by
  have hk := r.keeps_queried
  rw [insert_eq]
  cases r.refusal? with
  | none => exact .dispatched (hk.books.trans h₀) group context
  | some e =>
    refine .result ?_ context _
    split
    · exact h₀
    · exact (hk.reject .insert e context).books.trans h₀

omit h₀ in
theorem step_settleOwed (cell : Option Nat) (o : Option (Outcome Engine.Reply)) :
    r.Step cell (r.settleOwed cell o).1 := by
  unfold settleOwed settleOwedWith
  split
  · exact .keeps _ rfl
  · split
    · exact .keeps _ rfl
    · split <;> exact .settled ..

omit h₀ in
theorem perform_step (r : Router) (a : RouterAction) : r.Step (r.settles a) (r.perform a).1 := by
  have hdrawn : ∀ token, (r.drawn token).books = r.books := fun _ => rfl
  cases a with
  | read q token => exact step_read (hdrawn token) q _
  | userDefined u token => exact step_userDefined (hdrawn token) u _
  | comparators => exact .keeps _ r.keeps_comparators.books
  | insert group token | singleInsert _ _ _ token | singleDelete _ _ token =>
    exact step_insert (hdrawn token) _ _
  | forward address database q token => exact .forwarded (hdrawn token) address database q _
  | plan | role => exact .keeps _ r.keeps_ask.books
  | resolve op => exact .keeps _ (r.keeps_resolve op).books
  | shutdown => exact .keeps _ r.keeps_shutdown.books
  | setPrimary | clearPrimary => exact .keeps _ (keeps_logAll ..).books
  | engineAnswers | clientAnswers | persistenceAnswers => exact step_settleOwed ..
  | listen cell tag => exact .listened cell tag
  | replace | interrupt | poll => exact .keeps _ rfl

end Step

/-! ### What a step leaves alone -/

/-- An adapter that waits leads to the cell. -/
def Led (r : Router) (cell : Nat) : Prop := ∃ x ∈ r.net.waiting, x.listener = .adapter cell

def Grown (start : Nat) (before after : List Nat) : Prop :=
  ∃ new, after = before ++ new ∧ ∀ k ∈ new, start ≤ k

theorem Grown.refl (start : Nat) (ks : List Nat) : Grown start ks ks :=
  ⟨[], (List.append_nil _).symm, List.forall_mem_nil _⟩

theorem Grown.concat (start : Nat) (ks : List Nat) : Grown start ks (ks ++ [start]) :=
  ⟨[start], rfl, fun _ hk => Nat.le_of_eq (List.mem_singleton.mp hk).symm⟩

theorem Grown.trans {start start' : Nat} {ks ks' ks'' : List Nat} (h : Grown start ks ks')
    (h' : Grown start' ks' ks'') (hle : start ≤ start') : Grown start ks ks'' := by
  obtain ⟨new, rfl, hnew⟩ := h
  obtain ⟨new', rfl, hnew'⟩ := h'
  refine ⟨new ++ new', List.append_assoc .., fun k hk => ?_⟩
  rcases List.mem_append.mp hk with hk | hk
  · exact hnew k hk
  · exact Nat.le_trans hle (hnew' k hk)

theorem Grown.mem {start k : Nat} {ks ks' : List Nat} (h : Grown start ks ks') (hk : k ∈ ks') :
    k ∈ ks ∨ start ≤ k := by
  obtain ⟨new, rfl, hnew⟩ := h
  exact (List.mem_append.mp hk).imp_right (hnew k)

/-- Cells that are led to or owed were so before or are new, and a cell to which no adapter leads keeps its
outcome, unless it is the one that is settled. -/
structure Spares (r : Router) (settled : Option Nat) (r' : Router) : Prop where
  extended : r.net.Extends r'.net
  led : ∀ k, r'.Led k → r.Led k ∨ r.net.cells.length ≤ k
  kept : ∀ k < r.net.cells.length, ¬ r.Led k → settled ≠ some k →
    r'.net.outcomeAt k = r.net.outcomeAt k
  client : Grown r.net.cells.length (r.owedByClient.map (·.2)) (r'.owedByClient.map (·.2))
  persistence : Grown r.net.cells.length r.owedByPersistence r'.owedByPersistence

section Spares
variable {r r' r'' : Router} {settled : Option Nat}

theorem Spares.trans (h : r.Spares none r') (h' : r'.Spares settled r'') : r.Spares settled r'' := by
  have hlength : r.net.cells.length ≤ r'.net.cells.length :=
    Nat.le_of_not_lt fun hlt => Nat.lt_irrefl _ (h.extended.lt hlt)
  refine ⟨h.extended.trans h'.extended, ?_, ?_, h.client.trans h'.client hlength,
    h.persistence.trans h'.persistence hlength⟩
  · intro k hk
    rcases h'.led k hk with hk | hk
    · exact h.led k hk
    · exact .inr (Nat.le_trans hlength hk)
  · intro k hlt hfree hne
    have hfree' : ¬ r'.Led k := fun hled =>
      (h.led k hled).elim hfree fun hge => Nat.not_lt.mpr hge hlt
    exact (h'.kept k (h.extended.lt hlt) hfree' hne).trans (h.kept k hlt hfree nofun)

theorem Spares.of_books (h : r'.books = r.books) : r.Spares settled r' := by
  obtain ⟨hc, hw, -, hcl, hp⟩ := Books.mk.inj h
  refine ⟨.of_cells hc, fun k hk => ?_, fun k _ _ _ => Network.outcomeAt_congr hc k, ?_, ?_⟩
  · rw [Led, hw] at hk
    exact .inl hk
  · rw [hcl]
    exact .refl ..
  · rw [hp]
    exact .refl ..

theorem Spares.made (c : Result.Cell Engine.Reply) (hc : r'.net.cells = r.net.cells ++ [c])
    (hw : r'.net.waiting = r.net.waiting)
    (hcl : Grown r.net.cells.length (r.owedByClient.map (·.2)) (r'.owedByClient.map (·.2)))
    (hp : Grown r.net.cells.length r.owedByPersistence r'.owedByPersistence) : r.Spares none r' := by
  refine ⟨(r.net.extends_addCell c).trans (.of_cells hc), fun k hk => ?_, fun k hlt _ _ => ?_, hcl, hp⟩
  · rw [Led, hw] at hk
    exact .inl hk
  · rw [Network.outcomeAt, Network.outcomeAt, hc, List.getElem?_append_left hlt]

theorem spares_result (r : Router) (context : Context) (o : Option (Outcome Engine.Reply)) :
    r.Spares none (r.result context o).1 :=
  .made _ rfl rfl (.refl ..) (.refl ..)

theorem spares_serve (r : Router) (h : Handle) (request : Engine.Request) (context : Context) :
    r.Spares none (r.serve h request context).1 := by
  unfold Router.serve
  dsimp only
  split
  · exact .made _ rfl rfl (.refl ..) (.refl ..)
  · exact .made _ rfl rfl (.refl ..) (.refl ..)

theorem spares_send (r : Router) (address : SocketAddress) (database : String) (q : Engine.Read) :
    r.Spares none (r.send address database q).1 := by
  unfold Router.send
  dsimp only
  split
  · exact .made _ rfl rfl (.refl ..) (.refl ..)
  · refine .made _ rfl rfl ?_ (.refl ..)
    show Grown _ _ ((r.owedByClient ++ [(q, r.net.cells.length)]).map (·.2))
    rw [List.map_append]
    exact .concat ..

theorem spares_dispatch (r : Router) (group : Engine.InsertGroup) (context : Context) :
    r.Spares none (r.dispatch group context).1 := by
  have hk := (Keeps.note (r := r) ⟨rfl, rfl⟩ (.written group.size) .insert context).record
    (.persistence .insert group context)
  have hsent : r.Spares none ((r.note (.written group.size) .insert context).record
      (.persistence .insert group context)) := .of_books hk.books
  refine hsent.trans ?_
  unfold dispatch
  cases r.collaborators.persistence .insert group context with
  | settled reply => exact spares_result ..
  | held => exact .made _ rfl rfl (.refl ..) (.concat ..)

/-! ### Deliveries -/

theorem Tidy.register_spares (hr : r.Tidy) (cell : Nat) {l : Listener Engine.Reply} (hl : l.IsIdle) :
    let r' := r.register cell l
    r.net.Extends r'.net ∧ (∀ k, r'.Led k → r.Led k ∨ l = .adapter k) ∧
      ∀ k, ¬ r.Led k → l ≠ .adapter k → r'.net.outcomeAt k = r.net.outcomeAt k := by
  obtain ⟨v, hc, hhas, hv⟩ := Ledger.register_calm r.net cell l
  have hcalm := hv.trans (Machine.run_calm _ (hr.register_idle cell hl))
  refine ⟨(r.net.extends_register cell l).trans (Machine.run_calm _ (hr.register_idle cell hl)).extended,
    ?_, ?_⟩
  · rintro k ⟨x, hx, hk⟩
    rcases hhas x (hcalm.has x (.inl hx)) with hx | hx
    · exact .inl ⟨x, hx, hk⟩
    · exact .inr (hx.symm.trans hk)
  · intro k hfree hne
    refine (hcalm.kept k fun x hx hk => ?_).trans (Network.outcomeAt_congr hc k)
    rcases hhas x hx with hx | hx
    · exact hfree ⟨x, hx, hk⟩
    · exact hne (hx.symm.trans hk)

theorem Tidy.spares_register (hr : r.Tidy) (cell : Nat) {l : Listener Engine.Reply} (hl : l.IsIdle)
    (ha : ∀ k, l ≠ .adapter k) : r.Spares none (r.register cell l) := by
  obtain ⟨hx, hled, hkept⟩ := hr.register_spares cell hl
  exact ⟨hx, fun k hk => .inl ((hled k hk).resolve_right (ha k)), fun k _ hfree _ => hkept k hfree (ha k),
    .refl .., .refl ..⟩

theorem Tidy.spares_adapt (hr : r.Tidy) (source : Nat) (context : Context) :
    let adapted := r.net.addAdapted source context
    r.Spares none { r with net := adapted.1.1.deliver adapted.1.2 } := by
  intro adapted
  let made : Router := { r with net := (r.net.addCell ⟨some context, none⟩).1 }
  have hm : r.Spares none made :=
    .made _ rfl rfl (.refl ..) (.refl ..)
  have hl : r.Leads made := hr.made ⟨some context, none⟩ rfl rfl rfl fun _ h => .inl h
  obtain ⟨hx, hled, hkept⟩ := hl.tidy.register_spares source (l := .adapter r.net.cells.length) trivial
  refine ⟨hm.extended.trans hx, fun k hk => ?_, fun k hlt hfree hne => ?_, .refl .., .refl ..⟩
  · rcases hled k hk with hk | hk
    · exact hm.led k hk
    · cases hk
      exact .inr (Nat.le_refl _)
  · have hother : Listener.adapter r.net.cells.length ≠ (.adapter k : Listener Engine.Reply) := by
      rintro ⟨⟩
      exact Nat.lt_irrefl _ hlt
    exact (hkept k hfree hother).trans (hm.kept k hlt hfree hne)

theorem Tidy.spares_forward (hr : r.Tidy) (address : SocketAddress) (database : String) (q : Engine.Read)
    (context : Context) : r.Spares none (r.forward address database q context).1 := by
  have hs := r.spares_send address database q
  have ht := (hr.send address database q).tidy
  unfold Router.forward Router.forwardWith
  generalize r.send address database q = sent at hs ht ⊢
  have ha := ht.spares_adapt sent.2 context
  exact (hs.trans ha).trans ((ht.adapt sent.2 context).tidy.spares_register _ trivial nofun)

theorem Tidy.spares_complete (hr : r.Tidy) (cell : Nat) (o : Outcome Engine.Reply) :
    r.Spares (some cell) (r.complete cell o) := by
  obtain ⟨-, hhas, hother⟩ := Ledger.settle_apart ⟨r.net, []⟩ cell o
  rw [Ledger.after_rest] at hhas hother
  have hcalm := Machine.run_calm _ (hr.settle_idle cell o)
  have hwaiting : ∀ x, (Ledger.mk r.net []).Has x → x ∈ r.net.waiting := by
    rintro x (hx | ⟨d, hd, -⟩)
    · exact hx
    · cases hd
  refine ⟨(r.net.extends_settle cell o).trans hcalm.extended, ?_, ?_, .refl .., .refl ..⟩
  · rintro k ⟨x, hx, hk⟩
    exact .inl ⟨x, hwaiting x (hhas x (hcalm.has x (.inl hx))), hk⟩
  · intro k _ hfree hne
    have hk : k ≠ cell := fun h => hne (congrArg some h.symm)
    exact (hcalm.kept k fun x hx hl => hfree ⟨x, hwaiting x (hhas x hx), hl⟩).trans (hother k hk)

theorem Step.spares (hr : r.Tidy) (h : r.Step settled r') : r.Spares settled r' := by
  cases h with
  | keeps _ h => exact .of_books h
  | result h context o => exact (Spares.of_books h).trans (spares_result ..)
  | served h handle request context => exact (Spares.of_books h).trans (spares_serve ..)
  | forwarded h address database q context =>
    exact (Spares.of_books h).trans ((hr.of_books h).tidy.spares_forward ..)
  | dispatched h group context => exact (Spares.of_books h).trans (spares_dispatch ..)
  | settled cell o => exact hr.spares_complete cell o
  | listened cell tag => exact hr.spares_register cell rfl nofun

end Spares
end Router

def RouterAction.persistenceAnswer? (n : Nat) : RouterAction → Option (Outcome Engine.Reply)
  | .persistenceAnswers m reply =>
    if m = n then some (reply.elim (.failed (.router .abandoned)) .ofRouted) else none
  | _ => none

/-- What the result of a write is after a run: the answer of the persistence manager, if it has come. The
answer is the nth that it owes. -/
def Response.persistedIn (n : Nat) (later : List RouterAction) :
    Response RouterError → Option (Outcome Engine.Reply)
  | .settled reply => some (.ofRouted reply)
  | .held => later.findSome? (·.persistenceAnswer? n)

namespace Router

/-! ### Awaiting the persistence manager -/

/-- The persistence manager's nth answer, and nothing else, will settle the cell. -/
structure Awaits (r : Router) (n k : Nat) : Prop where
  tidy : r.Tidy
  owed : r.owedByPersistence[n]? = some k
  once : ∀ m, r.owedByPersistence[m]? = some k → m = n
  client : k ∉ r.owedByClient.map (·.2)
  free : ¬ r.Led k
  context : ∃ context, r.net.contextAt k = some context

section Awaits
variable {r r' : Router} {n k : Nat}

theorem Awaits.elsewhere (h : r.Awaits n k) : k < r.net.cells.length ∧ k ∉ r.owedByEngine :=
  h.tidy.elsewhere k (List.mem_append_right _ (List.mem_of_getElem? h.owed))

theorem Awaits.spared (h : r.Awaits n k) {settled : Option Nat} (hs : r.Spares settled r')
    (ht : r'.Tidy) : r'.Awaits n k := by
  obtain ⟨hlt, -⟩ := h.elsewhere
  obtain ⟨context, hcontext⟩ := h.context
  obtain ⟨new, hp, hnew⟩ := hs.persistence
  have hn : n < r.owedByPersistence.length := (List.getElem?_eq_some_iff.mp h.owed).1
  refine ⟨ht, ?_, fun m hm => ?_, fun hk => ?_, fun hk => ?_, context, hs.extended.contextAt hcontext⟩
  · rw [hp, List.getElem?_append_left hn]
    exact h.owed
  · rw [hp] at hm
    by_cases hlength : m < r.owedByPersistence.length
    · rw [List.getElem?_append_left hlength] at hm
      exact h.once m hm
    · -- what is owed further on is newer than the cell
      rw [List.getElem?_append_right (Nat.le_of_not_lt hlength)] at hm
      exact absurd hlt (Nat.not_lt.mpr (hnew k (List.mem_of_getElem? hm)))
  · exact (hs.client.mem hk).elim h.client (Nat.not_le.mpr hlt)
  · exact (hs.led k hk).elim h.free (Nat.not_le.mpr hlt)

theorem Awaits.settles_ne (h : r.Awaits n k) {a : RouterAction}
    (ha : ∀ reply, a ≠ .persistenceAnswers n reply) : r.settles a ≠ some k := by
  intro hk
  cases a with
  | engineAnswers m reply => exact h.elsewhere.2 (List.mem_of_getElem? hk)
  | clientAnswers m reply =>
    obtain ⟨owed, ho, rfl⟩ := Option.map_eq_some_iff.mp hk
    exact h.client (List.mem_map_of_mem (List.mem_of_getElem? ho))
  | persistenceAnswers m reply =>
    obtain rfl := h.once m hk
    exact ha reply rfl
  | _ => cases hk

theorem Awaits.answered (h : r.Awaits n k) (reply : Option (Except RouterError Engine.Reply)) :
    (r.perform (.persistenceAnswers n reply)).1.net.outcomeAt k =
      (r.net.outcomeAt k).or ((RouterAction.persistenceAnswers n reply).persistenceAnswer? n) := by
  obtain ⟨context, hcontext⟩ := h.context
  have hset : ∀ o, r.net.outcomeAt k = none → (r.complete k o).net.outcomeAt k = some o :=
    fun o => (h.tidy.complete k o).2.2.2 h.elsewhere.1
  have hanswer : (r.perform (.persistenceAnswers n reply)).1 =
      (r.settleOwed (some k) (reply.map .ofRouted)).1 := by
    rw [← h.owed]
    rfl
  rw [hanswer, RouterAction.persistenceAnswer?, if_pos rfl]
  unfold settleOwed settleOwedWith
  dsimp only
  cases ho : r.net.outcomeAt k with
  | some o => exact ho
  | none =>
    rw [Option.isSome_none, if_neg Bool.false_ne_true]
    cases reply with
    | some reply => exact hset _ ho
    | none =>
      refine (hset _ ho).trans ?_
      rw [hcontext]
      rfl

theorem Awaits.step (h : r.Awaits n k) (a : RouterAction) : (r.perform a).1.Awaits n k ∧
    (r.perform a).1.net.outcomeAt k = (r.net.outcomeAt k).or (a.persistenceAnswer? n) := by
  have ht : (r.perform a).1.Tidy := h.tidy.next a
  have hs := (r.perform_step a).spares h.tidy
  refine ⟨h.spared hs ht, ?_⟩
  by_cases ha : ∃ reply, a = .persistenceAnswers n reply
  · obtain ⟨reply, rfl⟩ := ha
    exact h.answered reply
  · have hne : ∀ reply, a ≠ .persistenceAnswers n reply := fun reply h => ha ⟨reply, h⟩
    have hnone : a.persistenceAnswer? n = none := by
      cases a with
      | persistenceAnswers m reply =>
        refine if_neg ?_
        rintro rfl
        exact hne reply rfl
      | _ => rfl
    rw [hnone, Option.or_none]
    exact hs.kept k h.elsewhere.1 h.free (h.settles_ne hne)

theorem Awaits.run (h : r.Awaits n k) (as : List RouterAction) :
    (r.run as).1.net.outcomeAt k = (r.net.outcomeAt k).or (as.findSome? (·.persistenceAnswer? n)) := by
  induction as generalizing r with
  | nil => exact (Option.or_none ..).symm
  | cons a as ih =>
    obtain ⟨h', ho⟩ := h.step a
    refine (ih h').trans ?_
    rw [ho, Option.or_assoc, List.findSome?_cons]
    cases a.persistenceAnswer? n <;> rfl

end Awaits

theorem Tidy.awaits {r : Router} (hr : r.Tidy) (context : Context) :
    let made := r.result context none
    let r' := { made.1 with owedByPersistence := made.1.owedByPersistence ++ [made.2] }
    r'.Awaits r.owedByPersistence.length made.2 := by
  intro made r'
  have hnew : ∀ k ∈ r.owedElsewhere, k ≠ r.net.cells.length := by
    rintro k hk rfl
    exact Nat.lt_irrefl _ (hr.elsewhere _ hk).1
  refine ⟨(hr.persisted context).tidy, ?_, fun m hm => ?_, fun hk => ?_, ?_, context, ?_⟩
  · exact List.getElem?_concat_length ..
  · have hm : (r.owedByPersistence ++ [r.net.cells.length])[m]? = some r.net.cells.length := hm
    by_cases hlt : m < r.owedByPersistence.length
    · rw [List.getElem?_append_left hlt] at hm
      exact absurd rfl (hnew _ (List.mem_append_right _ (List.mem_of_getElem? hm)))
    · have hle : m < (r.owedByPersistence ++ [r.net.cells.length]).length :=
        (List.getElem?_eq_some_iff.mp hm).1
      rw [List.length_append, List.length_singleton] at hle
      omega
  · exact absurd rfl (hnew _ (List.mem_append_left _ hk))
  · rintro ⟨x, hx, hl⟩
    exact Nat.lt_irrefl _ (hr.adapters x hx _ hl).1
  · exact Option.bind_eq_some_iff.mpr ⟨_, r.outcomeAt_result context none, rfl⟩

/-- Once a group was handed over, the result is the answer of the persistence manager, whenever it comes. -/
theorem Tidy.dispatch_later {r : Router} (hr : r.Tidy) (group : Engine.InsertGroup) (context : Context)
    (later : List RouterAction) :
    let done := r.dispatch group context
    done.1.net.contextAt done.2 = some context ∧ (done.1.run later).1.net.outcomeAt done.2 =
      (r.collaborators.persistence .insert group context).persistedIn r.owedByPersistence.length later := by
  let sent := (r.note (.written group.size) .insert context).record (.persistence .insert group context)
  have hk : r.Keeps sent := (Keeps.note (r := r) ⟨rfl, rfl⟩ ..).record _
  have ht : sent.Tidy := (hr.keeps hk).tidy
  have howed : sent.owedByPersistence = r.owedByPersistence := congrArg Books.byPersistence hk.books
  unfold dispatch
  cases r.collaborators.persistence .insert group context with
  | settled reply =>
    have hcell := sent.outcomeAt_result context (some (.ofRouted reply))
    exact ⟨Option.bind_eq_some_iff.mpr ⟨_, hcell, rfl⟩, ht.result_later context (.ofRouted reply) later⟩
  | held =>
    have hcell := sent.outcomeAt_result context none
    have hawaits := ht.awaits context
    refine ⟨Option.bind_eq_some_iff.mpr ⟨_, hcell, rfl⟩, (hawaits.run later).trans ?_⟩
    have hpending : (sent.result context none).1.net.outcomeAt (sent.result context none).2 = none :=
      congrArg (fun c : Option (Result.Cell Engine.Reply) => c.bind (·.outcome)) hcell
    rw [howed]
    exact congrArg (fun o : Option (Outcome Engine.Reply) => o.or _) hpending

end Router
end ReplicaRouting
