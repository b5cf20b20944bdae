import ReplicaRouting.Proofs.WaitList.Moments
/-!
One awaited result. Its registration is never cancelled, and the callback that starts for it settles it: while
the list is in use it has the first position that reached the target, if one has.
-/

namespace ReplicaRouting.WaitList

open Relation (ReflTransGen)

/-- The outcome of an awaited result, as those see it that poll it. -/
def State.outcomeAt (s : State) (cell : Nat) : Option (Result.Outcome Lsn) :=
  (s.cells[cell]?).bind (·.outcome)

namespace Book

/-- The registration with this ticket is the one that settles this cell. -/
structure Tied (t cell : Nat) (v : Book) : Prop where
  drawn : t < v.tickets
  unnamed : ∀ tag h, v.handles.find? tag = some h → h.ticket ≠ t
  waiter : ∀ w ∈ v.unstarted, w.ticket = t → w.callback = .settle cell
  started : ∀ tag lsn place, .started t tag lsn place ∈ v.history →
    (cell, .value lsn) ∈ settledIn v.history
  kept : t ∉ removedIn v.history

variable {t cell : Nat} {v v' : Book}

theorem Tied.of_subset (h : v.Tied t cell) (ht : v.tickets ≤ v'.tickets)
    (hn : ∀ tag h, v'.handles.find? tag = some h → h.ticket ≠ t)
    (hw : ∀ w ∈ v'.unstarted, w ∈ v.unstarted ∨ w.ticket ≠ t) {new : List Entry}
    (hh : v'.history = v.history ++ new)
    (hs : ∀ tag lsn place, .started t tag lsn place ∈ new → (cell, .value lsn) ∈ settledIn new)
    (hr : t ∉ removedIn new) : v'.Tied t cell := by
  refine ⟨Nat.lt_of_lt_of_le h.drawn ht, hn, ?_, ?_, ?_⟩
  · intro w hm he
    rcases hw w hm with hm | hne
    · exact h.waiter w hm he
    · exact absurd he hne
  · intro tag lsn place hm
    rw [hh] at hm ⊢
    rw [settledIn_append]
    rcases List.mem_append.mp hm with hm | hm
    · exact List.mem_append_left _ (h.started tag lsn place hm)
    · exact List.mem_append_right _ (hs tag lsn place hm)
  · rw [hh, removedIn_append]
    exact fun hm => (List.mem_append.mp hm).elim h.kept hr

theorem Tied.noted (h : v.Tied t cell) {e : Entry} (hs : e.started? = none) (hr : e.removed? = none)
    (ht : v.tickets ≤ v'.tickets)
    (hn : ∀ tag h, v'.handles.find? tag = some h → h.ticket ≠ t)
    (hw : ∀ w ∈ v'.unstarted, w ∈ v.unstarted ∨ w.ticket ≠ t)
    (hh : v'.history = v.history ++ [e]) : v'.Tied t cell := by
  refine h.of_subset ht hn hw hh ?_ ?_
  · intro tag lsn place hm
    obtain rfl := List.mem_singleton.mp hm
    cases hs
  · rw [removedIn_singleton, hr]
    exact List.not_mem_nil

theorem Tied.settle (h : v.Tied t cell) (other : Nat) (o : Result.Outcome Lsn) :
    (v.settle other o).Tied t cell := by
  unfold Book.settle
  dsimp only
  split
  · exact h.noted (e := .settled other o) rfl rfl (Nat.le_refl _) h.unnamed (fun _ => .inl) rfl
  · exact h.noted (e := .settled other o) rfl rfl (Nat.le_refl _) h.unnamed (fun _ => .inl) rfl

theorem Tied.listen (h : v.Tied t cell) (other : Nat) (tag : String) (steps : List Action)
    (panics : Bool) : (v.listen other tag steps panics).Tied t cell := by
  have hn : ({ v with listeners := v.listeners + 1 }.note (.listening v.listeners other)).Tied t cell :=
    h.noted rfl rfl (Nat.le_refl _) h.unnamed (fun _ => .inl) rfl
  unfold Book.listen
  dsimp only
  split
  · exact hn
  · exact ⟨hn.drawn, hn.unnamed, hn.waiter, hn.started, hn.kept⟩
  · exact ⟨hn.drawn, hn.unnamed, hn.waiter, hn.started, hn.kept⟩

theorem Tied.fulfil (h : v.Tied t cell) {w : Waiter} {ws : List Waiter} {other : Nat}
    (hw : v.unstarted = w :: ws) (hc : w.callback = .settle other) (lsn : Lsn) (place : Place) :
    (({ v with unstarted := ws }.note (.started w.ticket none lsn place)).settle other
      (.value lsn)).Tied t cell := by
  let v' := ({ v with unstarted := ws }.note (.started w.ticket none lsn place)).settle other
    (.value lsn)
  obtain ⟨ht, hx, hu, hh⟩ : v'.tickets = v.tickets ∧ v'.handles = v.handles ∧ v'.unstarted = ws ∧
      v'.history =
        v.history ++ [.started w.ticket none lsn place, .settled other (.value lsn)] := by
    dsimp only [v', Book.settle]
    split <;> exact ⟨rfl, rfl, rfl, List.append_assoc ..⟩
  show v'.Tied t cell
  refine h.of_subset (Nat.le_of_eq ht.symm) (hx ▸ h.unnamed) ?_ hh ?_ List.not_mem_nil
  · rw [hu]
    exact fun u hm => .inl (hw ▸ List.mem_cons_of_mem _ hm)
  · intro tag lsn' place' hm
    rcases List.mem_cons.mp hm with he | hm
    · cases he
      cases hc.symm.trans (h.waiter w (hw ▸ List.mem_cons_self ..) rfl)
      exact List.mem_singleton.mpr rfl
    · cases List.mem_singleton.mp hm

theorem Tied.move (h : v.Tied t cell) (hm : v.Move v') : v'.Tied t cell := by
  have hfresh : v.tickets ≠ t := (Nat.ne_of_lt h.drawn).symm
  have htail : ∀ {w ws}, v.unstarted = w :: ws → ∀ u ∈ ws, u ∈ v.unstarted ∨ u.ticket ≠ t :=
    fun hw u hu => .inl (hw ▸ List.mem_cons_of_mem _ hu)
  have hrest : ∀ {w ws}, v.unstarted = w :: ws → Tied t cell { v with unstarted := ws } :=
    fun hw => ⟨h.drawn, h.unnamed, fun u hu => h.waiter u (hw ▸ List.mem_cons_of_mem _ hu), h.started,
      h.kept⟩
  cases hm with
  | reorder hp =>
    exact ⟨h.drawn, h.unnamed, fun w hw => h.waiter w (hp.symm.subset hw), h.started, h.kept⟩
  | @remark e he =>
    have hne : e.started? = none ∧ e.removed? = none := by
      cases e with
      | recorded | answered | logged => exact ⟨rfl, rfl⟩
      | registered | started | cancelled | settled | listening | heard => cases he
    exact h.noted hne.1 hne.2 (Nat.le_refl _) h.unnamed (fun _ => .inl) rfl
  | register target tag steps panics =>
    refine h.noted rfl rfl (Nat.le_succ _) ?_ ?_ rfl
    · intro other x hf
      rw [Names.find?_bind] at hf
      split at hf
      · obtain rfl := Option.some.inj hf
        exact hfresh
      · exact h.unnamed other x hf
    · rintro w (_ | ⟨_, hw⟩)
      · exact .inr hfresh
      · exact .inl hw
  | await name target =>
    refine h.noted rfl rfl (Nat.le_succ _) h.unnamed ?_ rfl
    rintro w (_ | ⟨_, hw⟩)
    · exact .inr hfresh
    · exact .inl hw
  | @cancel tag x gone ws removed hx hp hg =>
    refine h.of_subset (Nat.le_refl _) h.unnamed ?_ rfl ?_ ?_
    · exact fun w hw => .inl (hp.symm.subset (List.mem_append_right _ hw))
    · intro tag lsn place hm
      cases List.mem_singleton.mp hm
    · rw [removedIn_singleton]
      cases removed with
      | true => simpa [Entry.removed?] using (h.unnamed tag x hx).symm
      | false => exact List.not_mem_nil
  | @start w ws hw hc tag lsn place =>
    refine h.of_subset (Nat.le_refl _) h.unnamed (htail hw) rfl ?_ List.not_mem_nil
    intro tag lsn place hm
    cases List.mem_singleton.mp hm
    -- the registration is not that of a script
    rw [h.waiter w (hw ▸ List.mem_cons_self ..) rfl] at hc
    cases hc
  | fulfil hw hc lsn place => exact h.fulfil hw hc lsn place
  | discard hw hc => exact hrest hw
  | abandon hw hc => exact (hrest hw).settle _ _
  | listen hr tag steps panics => exact h.listen _ tag steps panics
  | hear ha => exact h.noted rfl rfl (Nat.le_refl _) h.unnamed (fun _ => .inl) rfl

theorem Tied.moves (h : v.Tied t cell) (hm : ReflTransGen Move v v') : v'.Tied t cell := by
  induction hm with
  | refl => exact h
  | tail _ hm ih => exact ih.move hm

end Book

/-! ### Positions since a registration -/

section Positions
variable {initial target lsn : Lsn} {es : List Entry} {t : Nat}

theorem exists_started (h : t ∈ startedIn es) : ∃ tag lsn place, .started t tag lsn place ∈ es := by
  obtain ⟨e, he, hs⟩ := List.mem_filterMap.mp h
  cases e with
  | started u tag lsn place =>
    obtain rfl := Option.some.inj hs
    exact ⟨tag, lsn, place, he⟩
  | _ => cases hs

theorem reached?_append (h : targetOf? es t = some target) (hr : reached? initial es t = some lsn)
    (fs : List Entry) : reached? initial (es ++ fs) t = some lsn := by
  induction fs generalizing es with
  | nil => rwa [List.append_nil]
  | cons f fs ih =>
    rw [← List.singleton_append, ← List.append_assoc]
    apply ih (targetOf?_concat h)
    rw [reached?_concat f h, hr]
    rfl

theorem positionsSince_registered (initial : Lsn) (h : targetOf? es t = none) (target : Lsn)
    (fs : List Entry) :
    positionsSince t initial (es ++ .registered t target :: fs) =
      latestAfter initial es :: fs.filterMap (·.recorded?) := by
  induction es generalizing initial with
  | nil => simp [positionsSince, Entry.registered?, latestAfter]
  | cons e es ih =>
    have hs : targetOf? ([e] ++ es) t = none := h
    rw [targetOf?_append, targetOf?_singleton, Option.or_eq_none_iff] at hs
    have he : e.registered? ≠ some t := by
      rintro he
      cases e with
      | registered u target' =>
        obtain rfl : u = t := Option.some.inj he
        simp [Entry.target?] at hs
      | _ => cases he
    rw [List.cons_append, positionsSince, if_neg he]
    exact ih _ hs.2

theorem reached?_since (initial : Lsn) (h : targetOf? es t = none) (target : Lsn) (fs : List Entry) :
    reached? initial (es ++ .registered t target :: fs) t =
      (latestAfter initial es :: fs.filterMap (·.recorded?)).find? (target ≤ ·) := by
  have ht : targetOf? (es ++ .registered t target :: fs) t = some target := by
    rw [targetOf?_append, h, Option.none_or]
    simp [targetOf?, Entry.target?]
  rw [reached?, ht, Option.bind_some, positionsSince_registered initial h]

end Positions

/-! ### What becomes of it -/

namespace Machine

theorem mem_taken_of_batchOf {fs : List Frame} {rest : List Waiter} {n : Nat}
    (h : batchOf fs = some (rest, n)) : rest ⊆ fs.flatMap Frame.taken := by
  induction fs with
  | nil => cases h
  | cons f fs ih =>
    cases f with
    | batch lsn round rest' taken =>
      cases h
      exact List.subset_append_left ..
    | body | answering | notifying | delivering | withdrawing | discarding =>
      exact List.Subset.trans (ih h) (List.subset_append_right ..)

theorem waiter_unstarted {m : Machine} {w : Waiter} (h : w ∈ m.state.waiters) :
    w ∈ m.book.unstarted :=
  List.mem_append_right _ (List.mem_append_left _ h)

theorem due_unstarted {m : Machine} {w : Waiter} {lsn : Lsn} (h : (w, lsn) ∈ m.ledger.due) :
    w ∈ m.book.unstarted := by
  rcases List.mem_append.mp h with hm | hm
  · obtain ⟨u, hu, he⟩ := List.mem_map.mp hm
    cases he
    rcases List.mem_append.mp hu with hu | hu
    · cases hb : batchOf m.stack with
      | none =>
        rw [show m.ledger.batch = none from hb] at hu
        cases hu
      | some p =>
        rw [show m.ledger.batch = some p from hb] at hu
        exact List.mem_append_left _ (mem_taken_of_batchOf hb hu)
    · apply List.mem_append_right
      exact List.mem_append_right _ (List.mem_append_left _ hu)
  · apply List.mem_append_right
    exact List.mem_append_right _ (List.mem_append_right _ (List.mem_map.mpr ⟨_, hm, rfl⟩))

/-- What has become of an awaited result, while the list is in use. -/
inductive Fate (initial : Lsn) (t cell : Nat) (target : Lsn) (m : Machine) : Prop
  | settled {lsn : Lsn} (hr : reached? initial m.state.trace t = some lsn)
      (hl : target ≤ m.state.latest) (hs : (cell, .value lsn) ∈ settledIn m.state.history)
  | due {w : Waiter} {lsn : Lsn} (hr : reached? initial m.state.trace t = some lsn)
      (hl : target ≤ m.state.latest) (hw : (w, lsn) ∈ m.ledger.due) (hc : w.callback = .settle cell)
  | ahead {w : Waiter} (hr : reached? initial m.state.trace t = none) (hl : m.state.latest < target)
      (hw : w ∈ m.state.waiters) (hc : w.callback = .settle cell)

variable {initial target : Lsn} {t cell : Nat} {m : Machine}

theorem Live.fate (hl : m.Live initial) (ht : m.book.Tied t cell)
    (htarget : targetOf? m.state.trace t = some target) : m.Fate initial t cell target := by
  have hb := hl.balanced
  have hlatest : m.state.latest = latestAfter initial m.state.trace := hb.latest
  have hplace := hb.places_eq_one htarget
  unfold Ledger.places at hplace
  have hkept : (removedIn m.ledger.trace).count t = 0 := by
    apply List.count_eq_zero.mpr
    rw [show removedIn m.ledger.trace = _ from m.state.removedIn_trace]
    exact ht.kept
  have hany : t ∈ startedIn m.ledger.trace ∨ t ∈ m.ledger.waiters.map (·.ticket) ∨
      t ∈ m.ledger.due.map (·.1.ticket) := by
    simp only [← List.count_pos_iff]
    omega
  rcases hany with hm | hm | hm
  · have hle := hb.begun t hm target htarget
    obtain ⟨tag, lsn, place, hs⟩ := exists_started hm
    obtain ⟨before, after, htrace⟩ := List.append_of_mem hs
    obtain ⟨-, hr, target', hx, -⟩ := hb.lawful before _ after htrace
    refine .settled ?_ hle (ht.started tag lsn place (List.mem_filter.mp hs).1)
    rw [show m.state.trace = _ from htrace]
    exact reached?_append hx hr _
  · obtain ⟨w, hw, rfl⟩ := List.mem_map.mp hm
    obtain ⟨hx, hlt, hr⟩ := hb.ahead w hw
    obtain rfl := Option.some.inj (hx.symm.trans htarget)
    exact .ahead hr (hlatest ▸ hlt) hw (ht.waiter w (waiter_unstarted hw) rfl)
  · obtain ⟨⟨w, lsn⟩, hd, rfl⟩ := List.mem_map.mp hm
    have hdue := hb.due _ hd
    obtain rfl := Option.some.inj (hdue.1.symm.trans htarget)
    exact .due hdue.2.2 (hlatest ▸ hdue.target_le) hd (ht.waiter w (due_unstarted hd) rfl)

/-- At no moment of its use has it another outcome than the first position that reached its target. -/
theorem Live.outcome (hl : m.Live initial) (hk : m.book.Settled) (ht : m.book.Tied t cell)
    (htarget : targetOf? m.state.trace t = some target) {o : Result.Outcome Lsn}
    (ho : m.state.outcomeAt cell = some o) :
    ∃ lsn, reached? initial m.state.trace t = some lsn ∧ o = .value lsn := by
  cases hl.fate ht htarget with
  | @settled lsn hr _ hs =>
    have hv : m.state.outcomeAt cell = some (.value lsn) := hk.outcome_iff.mpr hs
    exact ⟨lsn, hr, Option.some.inj (ho.symm.trans hv)⟩
  | due _ _ hw hc =>
    have hp : m.state.outcomeAt cell = none := hk.owed_pending (due_unstarted hw) hc
    cases hp.symm.trans ho
  | ahead _ _ hw hc =>
    have hp : m.state.outcomeAt cell = none := hk.owed_pending (waiter_unstarted hw) hc
    cases hp.symm.trans ho

/-- With nothing under way it has that outcome as soon as there is such a position, that is as soon as the
latest position reaches the target. -/
theorem Live.at_rest (hl : m.Live initial) (hk : m.book.Settled) (ht : m.book.Tied t cell)
    (htarget : targetOf? m.state.trace t = some target) (hrest : m.step = none) :
    m.state.outcomeAt cell = (reached? initial m.state.trace t).map .value ∧
      ((m.state.outcomeAt cell).isSome ↔ target ≤ m.state.latest) := by
  cases hl.fate ht htarget with
  | @settled lsn hr hle hs =>
    have hv : m.state.outcomeAt cell = some (.value lsn) := hk.outcome_iff.mpr hs
    rw [hv, hr]
    exact ⟨rfl, fun _ => hle, fun _ => rfl⟩
  | due _ _ hw hc =>
    obtain ⟨hstack, hqueue⟩ := idle_of_step hrest
    have hledger : m.ledger = m.state.ledger none := by rw [ledger, hstack]; rfl
    have hdue : m.ledger.due = [] := by
      have hp := hl.phased
      rw [hledger] at hp ⊢
      exact State.AtRest.due_eq_nil ⟨hl.sound.live, hqueue⟩ hp
    rw [hdue] at hw
    cases hw
  | ahead hr hlt hw hc =>
    have hp : m.state.outcomeAt cell = none := hk.owed_pending (waiter_unstarted hw) hc
    rw [hp, hr]
    exact ⟨rfl, by simp, fun hle => absurd hlt (Lsn.not_lt.mpr hle)⟩

/-! ### The call that makes it -/

variable {m' : Machine} {name : String}

theorem perform_await {s : State} (hd : s.dropped = false) :
    s.perform (.await name target) =
      ((({ s with
        cells := s.cells ++ [⟨none, []⟩]
        results := s.results.bind name s.cells.length } : State).register target
        (.settle s.cells.length)).1, [], .nothing) :=
  if_neg (by rw [hd]; decide)

theorem Performs.await_book (hd : m.state.dropped = false) (h : m.Performs (.await name target) m') :
    Book.Move (m.book.await name target) m'.book := by
  let made : State := { m.state with
    cells := m.state.cells ++ [⟨none, []⟩]
    results := m.state.results.bind name m.state.cells.length }
  cases h with
  | call h =>
    obtain ⟨hp, he⟩ := made.book_register [] [] target (.settle m.state.cells.length)
    rw [State.begun, State.begin, perform_await hd, Machine.book, h]
    exact .of_perm hp he
  | @turn tag steps panics below h =>
    obtain ⟨hp, he⟩ := made.book_register (below.flatMap Frame.taken) (below.flatMap Frame.audience)
      target (.settle m.state.cells.length)
    rw [perform_await hd, Machine.book, h]
    exact .of_perm hp he

theorem Performs.await_state (hd : m.state.dropped = false)
    (h : m.Performs (.await name target) m') :
    m'.state.results.find? name = some m.state.cells.length ∧
      m'.state.history = m.state.history ++ [.registered m.state.tickets target] := by
  rw [h.state, perform_await hd]
  unfold State.register State.accept
  dsimp only [State.emit]
  repeat' split
  all_goals exact ⟨(Names.find?_bind ..).trans (if_pos rfl), rfl⟩

theorem Live.fresh (hl : m.Live initial) : targetOf? m.state.trace m.state.tickets = none := by
  rw [← Option.not_isSome_iff_eq_none]
  exact fun h => Nat.lt_irrefl _ ((hl.balanced.registered_iff _).mp h)

theorem Performs.tied (hl : m.Live initial) (hn : m.book.Named)
    (h : m.Performs (.await name target) m') :
    m'.book.Tied m.state.tickets m.state.cells.length := by
  refine Book.Tied.move ⟨Nat.lt_succ_self _, ?_, ?_, ?_, ?_⟩ (h.await_book hl.sound.live)
  · exact fun tag x hf => Nat.ne_of_lt (hn.handles tag x hf)
  · intro w hw ht
    rcases List.mem_cons.mp hw with rfl | hw
    · rfl
    · exact absurd ht (Nat.ne_of_lt (hn.tickets w hw))
  · intro tag lsn place hm
    -- a ticket that has not been drawn has not been started either
    rcases List.mem_append.mp hm with hm | hm
    · have hs : m.state.tickets ∈ startedIn m.state.trace := by
        rw [m.state.startedIn_trace]
        exact List.mem_filterMap.mpr ⟨_, hm, rfl⟩
      obtain ⟨target', hx⟩ := hl.balanced.exists_target hs
      cases hl.fresh.symm.trans hx
    · cases List.mem_singleton.mp hm
  · show m.state.tickets ∉ removedIn (m.state.history ++ [_])
    rw [removedIn_append, removedIn_singleton, ← m.state.removedIn_trace]
    intro hm
    have hr : m.state.tickets ∈ removedIn m.ledger.trace := by
      rcases List.mem_append.mp hm with hm | hm
      · exact hm
      · cases hm
    have hpos : 0 < m.ledger.places m.state.tickets := by
      have hc := List.count_pos_iff.mpr hr
      unfold Ledger.places
      omega
    exact Nat.lt_irrefl _ (hl.balanced.lt_of_places hpos)

/-- At each later moment: what was recorded since the call decides which position is the first that
reached the target. -/
theorem Performs.later {later : Machine} (hl : m.Live initial) (hn : m.book.Named)
    (h : m.Performs (.await name target) m') (hs : Sheltered m.stack)
    (hnext : ReflTransGen Next m' later) :
    later.book.Tied m.state.tickets m.state.cells.length ∧
      targetOf? later.state.trace m.state.tickets = some target ∧
      ∃ since, later.state.history = m.state.history ++ since ∧
        reached? initial later.state.trace m.state.tickets =
          (m.state.latest :: since.filterMap (·.recorded?)).find? (target ≤ ·) := by
  obtain ⟨hs', hb⟩ := h.next.book hs hn
  obtain ⟨-, hmoves⟩ := moments_book hs' (hn.moves hb) hnext
  obtain ⟨new, hnew⟩ := moments_history hnext
  have hhistory : later.state.history =
      m.state.history ++ .registered m.state.tickets target :: new := by
    rw [hnew, (h.await_state hl.sound.live).2, List.append_assoc]
    rfl
  have htrace : later.state.trace = m.state.trace ++
      .registered m.state.tickets target :: new.filter (·.isMark) := by
    rw [State.trace, hhistory, List.filter_append]
    rfl
  refine ⟨(h.tied hl hn).moves hmoves, ?_, _, hhistory, ?_⟩
  · rw [htrace, targetOf?_append, hl.fresh, Option.none_or]
    simp [targetOf?, Entry.target?]
  · have hlatest : m.state.latest = latestAfter initial m.state.trace := hl.balanced.latest
    have hmarks : (new.filter (·.isMark)).filterMap (·.recorded?) = new.filterMap (·.recorded?) := by
      apply filterMap_kinds
      intro e he
      cases e with
      | registered | cancelled | started | recorded => cases he
      | _ => rfl
    rw [htrace, reached?_since initial hl.fresh, ← hlatest, hmarks]
    rfl

end Machine
end ReplicaRouting.WaitList
