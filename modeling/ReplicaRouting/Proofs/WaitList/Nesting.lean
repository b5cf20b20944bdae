import Mathlib.Data.List.Dedup
import Mathlib.Data.List.Perm.Subperm
import ReplicaRouting.Proofs.WaitList.Trace
/-!
How deep registrations are nested in scripts, and how far that lets an advance go: what a step of a script registers in
one round is run in the next, one level deeper.
-/

namespace ReplicaRouting.WaitList

/-! ### Nested registrations -/

mutual
/-- The results that a step awaits, itself or deeper in its scripts. -/
def Action.awaited : Action → List String
  | .await name _ => [name]
  | .register _ _ steps _ | .listen _ _ steps _ => Action.awaitedIn steps
  | _ => []

def Action.awaitedIn : List Action → List String
  | [] => []
  | a :: as => a.awaited ++ Action.awaitedIn as
end

mutual
/-- How deep registrations are nested in a step. Those of a callback are a level below its own registration. Those of
a listener are a level below the registration that awaits its result, if it is one of these results. -/
def Action.depth (results : List String) : Action → Nat
  | .register _ _ steps _ => Action.depths results steps + 1
  | .await .. => 1
  | .listen name _ steps _ => Action.depths results steps + if name ∈ results then 1 else 0
  | _ => 0

def Action.depths (results : List String) : List Action → Nat
  | [] => 0
  | a :: as => max (a.depth results) (Action.depths results as)
end

/-- How deep registrations are nested in scripts. A listener to a result that one of them awaits is nested there. -/
def nesting (scripts : List (List Action)) : Nat :=
  Action.depths (Action.awaitedIn scripts.flatten) scripts.flatten

/-- The scripts that a waiter sets off when it starts: its own, or those that listen to the result it settles. -/
def Waiter.scripts (cells : List Cell) (w : Waiter) : List (List Action) :=
  match w.callback with
  | .script _ steps _ => [steps]
  | .settle cell => (cells[cell]?.elim [] (·.listeners)).map (·.steps)

theorem awaited_subset {a : Action} {as : List Action} (h : a ∈ as) : a.awaited ⊆ Action.awaitedIn as := by
  induction as with
  | nil => cases h
  | cons b as ih =>
    rw [Action.awaitedIn]
    rcases List.mem_cons.mp h with rfl | h
    · exact List.subset_append_left ..
    · exact List.Subset.trans (ih h) (List.subset_append_right ..)

theorem depth_le {results : List String} {a : Action} {as : List Action} (h : a ∈ as) :
    a.depth results ≤ Action.depths results as := by
  induction as with
  | nil => cases h
  | cons b as ih =>
    rw [Action.depths]
    rcases List.mem_cons.mp h with rfl | h
    · exact Nat.le_max_left ..
    · exact Nat.le_trans (ih h) (Nat.le_max_right ..)

/-! ### Late rounds -/

def Entry.lateRound? : Entry → Option Nat
  | .started _ _ _ (.batch (round + 1)) => some (round + 1)
  | _ => none

def lateRoundsIn (es : List Entry) : List Nat := es.filterMap (·.lateRound?)

/-- How many late rounds have started a callback. -/
def lateRounds (es : List Entry) : Nat := (lateRoundsIn es).dedup.length

theorem lateRound?_of_quiet {e : Entry} (h : e.started? = none) : e.lateRound? = none := by
  cases e with
  | started => cases h
  | registered | recorded | cancelled | settled | listening | heard | answered | logged => rfl

theorem lateRoundsIn_concat (es : List Entry) (e : Entry) :
    lateRoundsIn (es ++ [e]) = lateRoundsIn es ++ e.lateRound?.toList := by
  cases h : e.lateRound? <;> simp [lateRoundsIn, h]

theorem lateRounds_le {es : List Entry} {n : Nat} (h : ∀ r ∈ lateRoundsIn es, r ≤ n) : lateRounds es ≤ n := by
  have hsub : (lateRoundsIn es).dedup ⊆ List.range' 1 n := by
    intro r hr
    have hr := List.mem_dedup.mp hr
    obtain ⟨e, -, he⟩ := List.mem_filterMap.mp hr
    have hpos : 1 ≤ r := by
      unfold Entry.lateRound? at he
      split at he
      · obtain rfl := Option.some.inj he
        exact Nat.succ_pos _
      · cases he
    have := h r hr
    rw [List.mem_range'_1]
    omega
  have hle := ((List.nodup_dedup _).subperm hsub).length_le
  rwa [List.length_range'] at hle

/-! ### What fits into the rounds -/

/-- What an advance sets out with: its position, what is left to the notifier, how many waiters are due and how many
results there are, and the results that the scripts of those waiters await, with the depth of their registrations. -/
structure Outset where
  lsn : Lsn
  queue : List (Waiter × Lsn)
  due : Nat
  cells : Nat
  awaited : List String
  depth : Nat

/-- A step made in this round: what it awaits was reckoned with, and there are rounds left for what it nests. -/
structure Outset.Fits (b : Outset) (round : Nat) (a : Action) : Prop where
  awaited : a.awaited ⊆ b.awaited
  depth : round + a.depth b.awaited ≤ b.depth

def Outset.Heard (b : Outset) (cells : List Cell) (round cell : Nat) : Prop :=
  ∀ c ∈ cells[cell]?, ∀ l ∈ c.listeners, ∀ a ∈ l.steps, b.Fits round a

/-- A waiter does what fits, if it starts in this round. A late one settles no result that was there at the outset. -/
structure Outset.Covers (b : Outset) (cells : List Cell) (round : Nat) (w : Waiter) : Prop where
  within : round ≤ b.depth
  script : ∀ tag steps panics, w.callback = .script tag steps panics → ∀ a ∈ steps, b.Fits round a
  settle : ∀ cell, w.callback = .settle cell → b.Heard cells round cell
  fresh : ∀ cell, w.callback = .settle cell → 0 < round → b.cells ≤ cell

def Outset.Runs (b : Outset) (round : Nat) : Frame → Prop
  | .body _ steps _ => ∀ a ∈ steps, b.Fits round a
  | .answering .. => True
  | .delivering _ rest _ _ => ∀ l ∈ rest, ∀ a ∈ l.steps, b.Fits round a
  | _ => False

namespace Outset
variable {b : Outset} {cells : List Cell} {round cell : Nat}

theorem fits_steps {steps : List Action} (ha : Action.awaitedIn steps ⊆ b.awaited)
    (hd : round + Action.depths b.awaited steps ≤ b.depth) : ∀ a ∈ steps, b.Fits round a := by
  intro a hm
  have hle : a.depth b.awaited ≤ Action.depths b.awaited steps := depth_le hm
  exact ⟨List.Subset.trans (awaited_subset hm) ha, by omega⟩

theorem Fits.register {tag : String} {target : Lsn} {steps : List Action} {panics : Bool}
    (h : b.Fits round (.register tag target steps panics)) :
    round + 1 ≤ b.depth ∧ ∀ a ∈ steps, b.Fits (round + 1) a := by
  obtain ⟨ha, hd⟩ := h
  rw [Action.awaited] at ha
  rw [Action.depth] at hd
  exact ⟨by omega, fits_steps ha (by omega)⟩

theorem Fits.await {name : String} {target : Lsn} (h : b.Fits round (.await name target)) :
    name ∈ b.awaited ∧ round + 1 ≤ b.depth := by
  obtain ⟨ha, hd⟩ := h
  rw [Action.awaited] at ha
  rw [Action.depth] at hd
  exact ⟨ha (List.mem_singleton_self _), hd⟩

/-- A listener runs in this round, or in the next if its result is settled only there. -/
theorem Fits.listen {name tag : String} {steps : List Action} {panics : Bool}
    (h : b.Fits round (.listen name tag steps panics)) :
    (∀ a ∈ steps, b.Fits round a) ∧ (name ∈ b.awaited → ∀ a ∈ steps, b.Fits (round + 1) a) := by
  obtain ⟨ha, hd⟩ := h
  rw [Action.awaited] at ha
  rw [Action.depth] at hd
  refine ⟨fits_steps ha (by omega), fun hn => fits_steps ha ?_⟩
  rw [if_pos hn] at hd
  omega

theorem Heard.set {other : Nat} (h : b.Heard cells round other) {c : Cell}
    (hc : other = cell → ∀ l ∈ c.listeners, ∀ a ∈ l.steps, b.Fits round a) :
    b.Heard (cells.set cell c) round other := by
  intro d hd
  by_cases he : other = cell
  · subst he
    rw [Option.mem_def, List.getElem?_set_self'] at hd
    obtain ⟨-, -, rfl⟩ := Option.map_eq_some_iff.mp hd
    exact hc rfl
  · exact h d (List.getElem?_set_ne (Ne.symm he) ▸ hd)

theorem Heard.concat (h : b.Heard cells round cell) : b.Heard (cells ++ [⟨none, []⟩]) round cell := by
  intro c hc
  rw [Option.mem_def, List.getElem?_append] at hc
  split at hc
  · exact h c hc
  · obtain rfl := List.mem_singleton.mp (List.mem_of_getElem? hc)
    exact List.forall_mem_nil _

theorem Covers.with_cells {cells' : List Cell} {w : Waiter} (h : b.Covers cells round w)
    (hc : ∀ cell, (0 < round → b.cells ≤ cell) → b.Heard cells round cell → b.Heard cells' round cell) :
    b.Covers cells' round w :=
  ⟨h.within, h.script, fun cell hs => hc cell (h.fresh cell hs) (h.settle cell hs), h.fresh⟩

end Outset
end ReplicaRouting.WaitList
