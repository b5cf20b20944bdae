import ReplicaRouting.Proofs.WaitList.Firing
import ReplicaRouting.Proofs.WaitList.Steady
/-!
The book of awaited results: the waiters that have yet to start, the results and those that listen to them.
A step of a run makes moves on the book. Positions, and where a waiter is kept, are left out.
-/

namespace ReplicaRouting.WaitList

open Relation (ReflTransGen)

def Callback.cell? : Callback → Option Nat
  | .script .. => none
  | .settle cell => some cell

namespace Entry

def settled? : Entry → Option (Nat × Result.Outcome Lsn)
  | .settled cell o => some (cell, o)
  | _ => none

def heard? : Entry → Option (Nat × Result.Outcome Lsn)
  | .heard serial _ o => some (serial, o)
  | _ => none

def isRemark : Entry → Bool
  | .recorded _ | .answered .. | .logged _ => true
  | _ => false

end Entry

def settledIn (es : List Entry) : List (Nat × Result.Outcome Lsn) := es.filterMap (·.settled?)

def heardIn (es : List Entry) : List (Nat × Result.Outcome Lsn) := es.filterMap (·.heard?)

structure Book where
  /-- In no particular order. -/
  unstarted : List Waiter
  tickets : Nat
  handles : Names Handle
  cells : List Cell
  results : Names Nat
  listeners : Nat
  /-- Listeners of settled results that have yet to hear. -/
  audience : List (Listener × Result.Outcome Lsn)
  history : List Entry

/-- With the waiters that have been taken from the list, and the listeners that are about to hear. -/
def State.book (s : State) (taken : List Waiter) (audience : List (Listener × Result.Outcome Lsn)) :
    Book :=
  ⟨taken ++ (s.waiters ++ (s.late ++ s.queue.map (·.1))), s.tickets, s.handles, s.cells, s.results,
    s.listeners, audience, s.history⟩

namespace Book

def note (v : Book) (e : Entry) : Book := { v with history := v.history ++ [e] }

def register (v : Book) (target : Lsn) (callback : Callback) : Book :=
  let w : Waiter := ⟨target, v.tickets, callback⟩
  { v with unstarted := w :: v.unstarted, tickets := v.tickets + 1 }.note
    (.registered v.tickets target)

def await (v : Book) (name : String) (target : Lsn) : Book :=
  let made : Book := { v with
    cells := v.cells ++ [⟨none, []⟩]
    results := v.results.bind name v.cells.length }
  made.register target (.settle v.cells.length)

def settle (v : Book) (cell : Nat) (o : Result.Outcome Lsn) : Book :=
  let v := v.note (.settled cell o)
  match v.cells[cell]? with
  | some ⟨none, listeners⟩ =>
    { v with
      cells := v.cells.set cell ⟨some o, []⟩
      audience := listeners.map (·, o) ++ v.audience }
  | _ => v

def listen (v : Book) (cell : Nat) (tag : String) (steps : List Action) (panics : Bool) : Book :=
  let l : Listener := ⟨v.listeners, tag, steps, panics⟩
  let v : Book := { v with listeners := v.listeners + 1 }.note (.listening l.serial cell)
  match v.cells[cell]? with
  | none => v
  | some ⟨none, listeners⟩ => { v with cells := v.cells.set cell ⟨none, listeners ++ [l]⟩ }
  | some ⟨some o, _⟩ => { v with audience := (l, o) :: v.audience }

/-- What a step can do to a book. -/
inductive Move (v : Book) : Book → Prop
  | reorder {ws : List Waiter} (h : v.unstarted.Perm ws) : Move v { v with unstarted := ws }
  | remark {e : Entry} (h : e.isRemark = true) : Move v (v.note e)
  | register (target : Lsn) (tag : String) (steps : List Action) (panics : Bool) :
      Move v { v.register target (.script tag steps panics) with
        handles := v.handles.bind tag ⟨target, v.tickets⟩ }
  | await (name : String) (target : Lsn) : Move v (v.await name target)
  /-- A cancellation finds its registration by the name of a handle, or does not find it. -/
  | cancel {tag : String} {h : Handle} {gone ws : List Waiter} (removed : Bool)
      (hh : v.handles.find? tag = some h) (hw : v.unstarted.Perm (gone ++ ws))
      (hg : ∀ w ∈ gone, w.ticket = h.ticket) :
      Move v ({ v with unstarted := ws }.note (.cancelled h removed))
  | start {w : Waiter} {ws : List Waiter} (hw : v.unstarted = w :: ws)
      (hc : w.callback.cell? = none) (tag : Option String) (lsn : Lsn) (place : Place) :
      Move v ({ v with unstarted := ws }.note (.started w.ticket tag lsn place))
  | fulfil {w : Waiter} {ws : List Waiter} {cell : Nat} (hw : v.unstarted = w :: ws)
      (hc : w.callback = .settle cell) (lsn : Lsn) (place : Place) :
      Move v (({ v with unstarted := ws }.note (.started w.ticket none lsn place)).settle cell
        (.value lsn))
  | discard {w : Waiter} {ws : List Waiter} (hw : v.unstarted = w :: ws)
      (hc : w.callback.cell? = none) : Move v { v with unstarted := ws }
  | abandon {w : Waiter} {ws : List Waiter} {cell : Nat} (hw : v.unstarted = w :: ws)
      (hc : w.callback = .settle cell) :
      Move v ({ v with unstarted := ws }.settle cell (.failed (.router .abandoned)))
  | listen {name : String} {cell : Nat} (hn : v.results.find? name = some cell) (tag : String)
      (steps : List Action) (panics : Bool) : Move v (v.listen cell tag steps panics)
  | hear {l : Listener} {o : Result.Outcome Lsn} {rest : List (Listener × Result.Outcome Lsn)}
      (ha : v.audience = (l, o) :: rest) :
      Move v ({ v with audience := rest }.note (.heard l.serial l.tag o))

theorem Move.of_perm {v v' : Book} (h : v.unstarted.Perm v'.unstarted)
    (he : { v with unstarted := v'.unstarted } = v') : Move v v' :=
  he ▸ .reorder h

end Book

/-! ### What the operations of a list do to its book -/

namespace Frame

def taken : Frame → List Waiter
  | .batch _ _ rest _ | .discarding rest => rest
  | _ => []

/-- Listeners that have yet to hear the outcome of their result. -/
def audience : Frame → List (Listener × Result.Outcome Lsn)
  | .delivering o rest _ _ => rest.map (·, o)
  | _ => []

theorem taken_eq_nil {fs : List Frame} (h : ∀ f ∈ fs, f.isInner) : fs.flatMap taken = [] := by
  apply List.flatMap_eq_nil_iff.mpr
  intro f hf
  have hi := h f hf
  cases f with
  | body | answering | notifying | delivering | withdrawing => rfl
  | batch | discarding => cases hi

end Frame

namespace State

/-- The names of handles lead to scripts, never to the waiter of a result. -/
def Scripted (s : State) : Prop :=
  ∀ tag h, s.handles.find? tag = some h → ∀ w ∈ s.waiters, w.ticket = h.ticket → w.callback.cell? = none

/-- A cancellation by name leaves nothing to do. -/
theorem Scripted.cancel_cases {s : State} (hs : s.Scripted) {tag : String} {h : Handle}
    (hh : s.handles.find? tag = some h) :
    s.cancel h = (s.emit (.cancelled h false), [], false) ∨
      s.cancel h = ((s.remove h).withdraw h, [], true) := by
  obtain ⟨-, hc⟩ | ⟨w, hw, hf, ⟨-, hc⟩ | ⟨cell, hcell, -⟩⟩ := s.cancel_cases h
  · exact .inl hc
  · exact .inr hc
  · have hnone := hs tag h hh w hw (Waiter.isFor_iff.mp hf).2
    rw [hcell] at hnone
    cases hnone

theorem Scripted.cancel_frames {s : State} (hs : s.Scripted) {tag : String} {h : Handle}
    (hh : s.handles.find? tag = some h) : (s.cancel h).2.1 = [] := by
  obtain hc | hc := hs.cancel_cases hh <;> rw [hc]

variable (s : State) (ws : List Waiter) (ls : List (Listener × Result.Outcome Lsn))

theorem book_settle (cell : Nat) (o : Result.Outcome Lsn) :
    (s.settle cell o).1.book ws ((s.settle cell o).2.flatMap Frame.audience ++ ls) =
      (s.book ws ls).settle cell o := by
  rcases h : s.cells[cell]? with _ | ⟨_ | o', listeners⟩ <;>
    simp [settle, Book.settle, Book.note, book, emit, h, Frame.audience]

theorem book_start (w : Waiter) (lsn : Lsn) (place : Place) :
    Book.Move (s.book (w :: ws) ls)
      ((s.start w lsn place).1.book ws ((s.start w lsn place).2.flatMap Frame.audience ++ ls)) := by
  obtain ⟨target, ticket, callback⟩ := w
  cases callback with
  | script tag steps panics => exact .start rfl rfl (some tag) lsn place
  | settle cell =>
    unfold start
    dsimp only
    rw [book_settle]
    have hc : Waiter.callback ⟨target, ticket, .settle cell⟩ = .settle cell := rfl
    exact .fulfil rfl hc lsn place

theorem book_discard (w : Waiter) :
    Book.Move (s.book (w :: ws) ls)
      ((s.discard w).1.book ws ((s.discard w).2.flatMap Frame.audience ++ ls)) := by
  obtain ⟨target, ticket, callback⟩ := w
  cases callback with
  | script tag steps panics => exact .discard rfl rfl
  | settle cell =>
    unfold discard
    dsimp only
    rw [book_settle]
    have hc : Waiter.callback ⟨target, ticket, .settle cell⟩ = .settle cell := rfl
    exact .abandon rfl hc

theorem discard_isInner (w : Waiter) : ∀ f ∈ (s.discard w).2, f.isInner := by
  unfold discard
  split
  · exact List.forall_mem_nil _
  · apply settle_isInner

theorem book_notify {begun : State × List Frame} (h : s.notify = some begun) :
    ReflTransGen Book.Move (s.book ws ls)
      (begun.1.book (begun.2.flatMap Frame.taken ++ ws) (begun.2.flatMap Frame.audience ++ ls)) := by
  obtain ⟨w, lsn, queue, hq, rfl⟩ := notify_eq_some h
  let s' : State := { s with queue := queue }
  have hp : (s.book ws ls).unstarted.Perm (s'.book (w :: ws) ls).unstarted := by
    have hm : (ws ++ s.waiters ++ s.late ++ w :: queue.map (·.1)).Perm
        (w :: (ws ++ s.waiters ++ s.late ++ queue.map (·.1))) := List.perm_middle
    simpa [book, s', hq] using hm
  have hb := s'.book_start ws ls w lsn .notifier
  have ht := Frame.taken_eq_nil (s'.start_isInner w lsn .notifier)
  refine .tail (.single (.of_perm hp rfl)) ?_
  rw [List.flatMap_append, List.flatMap_append, ht]
  simpa [Frame.taken, Frame.audience] using hb

theorem book_register (target : Lsn) (callback : Callback) :
    let b := (s.register target callback).1.book ws ls
    ((s.book ws ls).register target callback).unstarted.Perm b.unstarted ∧
      { (s.book ws ls).register target callback with unstarted := b.unstarted } = b := by
  let w : Waiter := ⟨target, s.tickets, callback⟩
  unfold register accept
  dsimp only [emit]
  split
  · refine ⟨?_, rfl⟩
    have hp := (perm_insertWaiter w s.waiters).symm.append_right (s.late ++ s.queue.map (·.1))
    exact List.perm_middle.symm.trans (hp.append_left ws)
  · split
    · refine ⟨?_, rfl⟩
      have hm : (ws ++ s.waiters ++ s.late ++ w :: s.queue.map (·.1)).Perm
          (w :: (ws ++ s.waiters ++ s.late ++ s.queue.map (·.1))) := List.perm_middle
      simpa [book, Book.register, Book.note] using hm.symm
    · refine ⟨?_, rfl⟩
      have hm : (ws ++ s.waiters ++ s.late ++ s.queue.map (·.1) ++ [w]).Perm
          (w :: (ws ++ s.waiters ++ s.late ++ s.queue.map (·.1))) :=
        List.perm_append_singleton ..
      simpa [book, Book.register, Book.note] using hm.symm

theorem book_cancel (hs : s.Scripted) {tag : String} {h : Handle} (hh : s.handles.find? tag = some h) :
    ReflTransGen Book.Move (s.book ws ls) ((s.cancel h).1.book ws ls) := by
  obtain hc | hc := hs.cancel_cases hh <;> rw [hc]
  · exact .single (.cancel false hh (List.Perm.refl ([] ++ _)) (List.forall_mem_nil _))
  · let gone := s.waiters.filter (·.isFor h)
    let kept := s.waiters.filter fun w => !w.isFor h
    have hp : (s.book ws ls).unstarted.Perm
        (gone ++ (ws ++ (kept ++ (s.late ++ s.queue.map (·.1))))) := by
      have hf : (gone ++ kept).Perm s.waiters := List.filter_append_perm ..
      have hs := (hf.symm.append_right (s.late ++ s.queue.map (·.1))).append_left ws
      refine hs.trans ?_
      rw [List.append_assoc]
      exact List.perm_append_comm_assoc ..
    refine .tail (.single (.cancel true hh hp ?_)) (.remark rfl)
    intro w hw
    exact (Waiter.isFor_iff.mp (List.mem_filter.mp hw).2).2

theorem book_hear (l : Listener) (o : Result.Outcome Lsn) :
    Book.Move (s.book ws ((l, o) :: ls)) ((s.hear l o).1.book ws ls) :=
  .hear rfl

theorem book_listen {name : String} {cell : Nat} (hn : s.results.find? name = some cell)
    (tag : String) (steps : List Action) (panics : Bool) :
    ReflTransGen Book.Move (s.book ws ls)
      ((s.listen cell tag steps panics).1.book ws
        ((s.listen cell tag steps panics).2.flatMap Frame.audience ++ ls)) := by
  have hb : Book.Move (s.book ws ls) ((s.book ws ls).listen cell tag steps panics) :=
    .listen hn tag steps panics
  rcases h : s.cells[cell]? with _ | ⟨_ | o, listeners⟩
  · simp only [listen, Book.listen, Book.note, book, emit, h] at hb ⊢
    exact .single hb
  · simp only [listen, Book.listen, Book.note, book, emit, h] at hb ⊢
    exact .single hb
  · -- it is told at once
    have hl := book_hear (({ s with listeners := s.listeners + 1 } : State).emit
      (.listening s.listeners cell)) ws ls ⟨s.listeners, tag, steps, panics⟩ o
    simp only [listen, Book.listen, Book.note, book, emit, hear, h] at hb hl ⊢
    exact .tail (.single hb) hl

theorem book_perform (hs : s.Scripted) (a : Action) :
    ReflTransGen Book.Move (s.book ws ls)
      ((s.perform a).1.book ws ((s.perform a).2.1.flatMap Frame.audience ++ ls)) := by
  cases a with
  | register tag target steps panics =>
    simp only [perform]
    split
    · exact .refl
    · obtain ⟨hp, he⟩ := s.book_register ws ls target (.script tag steps panics)
      let bound : Book → Book := fun b => { b with handles := b.handles.bind tag ⟨target, s.tickets⟩ }
      exact .tail (.single (.register target tag steps panics)) (.of_perm hp (congrArg bound he))
  | await name target =>
    simp only [perform]
    split
    · exact .refl
    · let made : State := { s with
        cells := s.cells ++ [⟨none, []⟩]
        results := s.results.bind name s.cells.length }
      obtain ⟨hp, he⟩ := made.book_register ws ls target (.settle s.cells.length)
      exact .tail (.single (.await name target)) (.of_perm hp he)
  | cancel tag =>
    simp only [perform]
    split
    · exact .refl
    · split
      · exact .refl
      · rename_i hh
        dsimp only
        rw [hs.cancel_frames hh]
        exact s.book_cancel ws ls hs hh
  | listen name tag steps panics =>
    simp only [perform]
    split
    · exact .refl
    · rename_i hn
      exact s.book_listen ws ls hn tag steps panics
  | poll | handle | latest | pending | metrics | describe | misread =>
    simp only [perform]
    repeat' split
    all_goals exact .refl

end State

/-! ### What a step of a run does to it -/

/-- A callback or a listener, in the middle of its script or of a cancellation. -/
def Frame.isBare : Frame → Bool
  | .body .. | .answering .. | .withdrawing _ => true
  | _ => false

def Frame.isDiscarding : Frame → Bool
  | .discarding _ => true
  | _ => false

/-- No script runs directly on top of the drop of the list: a panic stops before it gets there. -/
inductive Sheltered : List Frame → Prop
  | empty : Sheltered []
  | cons {f : Frame} {below : List Frame} (h : Sheltered below)
      (hf : f.isBare → ∀ g ∈ below.head?, g.isDiscarding = false) : Sheltered (f :: below)

section Sheltered
variable {f g : Frame} {fs below : List Frame}

theorem Sheltered.tail (h : Sheltered (f :: below)) : Sheltered below := by
  cases h with
  | cons h _ => exact h

theorem Sheltered.head (h : Sheltered (f :: below)) (hf : f.isBare) :
    ∀ g ∈ below.head?, g.isDiscarding = false := by
  cases h with
  | cons _ h => exact h hf

theorem Sheltered.turn (h : Sheltered (f :: below)) (hg : g.isBare → f.isBare) :
    Sheltered (g :: below) :=
  .cons h.tail fun hb => h.head (hg hb)

theorem Sheltered.over (h : Sheltered below) (hg : g.isBare = false) : Sheltered (g :: below) :=
  .cons h fun hb => absurd (hg.symm.trans hb) (by decide)

theorem Sheltered.pile (hf : ∀ f ∈ fs, f.isBare = false) (h : Sheltered below) :
    Sheltered (fs ++ below) := by
  induction fs with
  | nil => exact h
  | cons f fs ih =>
    apply Sheltered.over
    · exact ih fun g hg => hf g (List.mem_cons_of_mem _ hg)
    · exact hf f (List.mem_cons_self ..)

theorem isDiscarding_inner (h : f.isInner) : f.isDiscarding = false := by
  cases f with
  | body | answering | delivering | withdrawing => rfl
  | batch | notifying | discarding => cases h

theorem forall_head (h : f.isDiscarding = false) :
    ∀ g ∈ (f :: below).head?, g.isDiscarding = false := by
  rintro g ⟨⟩
  exact h

theorem Sheltered.push_inner (h : Sheltered below)
    (hg : ∀ g ∈ below.head?, g.isDiscarding = false) (hf : ∀ f ∈ fs, f.isInner) :
    Sheltered (fs ++ below) := by
  induction fs with
  | nil => exact h
  | cons f fs ih =>
    refine .cons (ih fun f hm => hf f (List.mem_cons_of_mem _ hm)) fun _ => ?_
    cases fs with
    | nil => exact hg
    | cons f' fs =>
      have hi : f'.isInner := hf f' (by simp)
      exact forall_head (isDiscarding_inner hi)

theorem State.discard_isBare (s : State) (w : Waiter) : ∀ f ∈ (s.discard w).2, f.isBare = false := by
  unfold State.discard State.settle
  dsimp only
  repeat' split
  all_goals simp [Frame.isBare]

/-- What a panic unwinds holds neither waiters nor listeners. -/
theorem Sheltered.caught (h : Sheltered fs) (hd : ∀ g ∈ fs.head?, g.isDiscarding = false) :
    match caught? Frame.panicRecord? fs with
    | none => fs.flatMap Frame.taken = [] ∧ fs.flatMap Frame.audience = []
    | some (_, below) => Sheltered below ∧ below.flatMap Frame.taken = fs.flatMap Frame.taken ∧
        below.flatMap Frame.audience = fs.flatMap Frame.audience := by
  induction h with
  | empty => exact ⟨rfl, rfl⟩
  | @cons f below h hf ih =>
    cases f with
    | body | answering | withdrawing => exact ih (hf rfl)
    | batch | notifying | delivering => exact ⟨.cons h hf, rfl, rfl⟩
    | discarding => cases hd _ rfl

end Sheltered

namespace Machine

def book (m : Machine) : Book :=
  m.state.book (m.stack.flatMap Frame.taken) (m.stack.flatMap Frame.audience)

theorem book_append (s : State) (fs below : List Frame) (answer : Answer) :
    book ⟨s, fs ++ below, answer⟩ = s.book (fs.flatMap Frame.taken ++ below.flatMap Frame.taken)
      (fs.flatMap Frame.audience ++ below.flatMap Frame.audience) := by
  rw [book, List.flatMap_append, List.flatMap_append]

theorem book_push {s : State} {fs below : List Frame} {answer : Answer} (hi : ∀ f ∈ fs, f.isInner) :
    book ⟨s, fs ++ below, answer⟩ = s.book (below.flatMap Frame.taken)
      (fs.flatMap Frame.audience ++ below.flatMap Frame.audience) := by
  rw [book_append, Frame.taken_eq_nil hi]
  rfl

variable {m m' : Machine}

theorem unwind_book (hs : Sheltered m.stack) (hd : ∀ g ∈ m.stack.head?, g.isDiscarding = false) :
    Sheltered m.unwind.stack ∧ ReflTransGen Book.Move m.book m.unwind.book := by
  have hc := hs.caught hd
  unfold unwind book
  split
  · rename_i hn
    rw [hn] at hc
    rw [hc.1, hc.2]
    exact ⟨.empty, .refl⟩
  · rename_i r below hn
    rw [hn] at hc
    obtain ⟨hb, ht, ha⟩ := hc
    rw [← ht, ← ha]
    exact ⟨hb, .single (.remark rfl)⟩

theorem book_late (s : State) (ws : List Waiter) (ls : List (Listener × Result.Outcome Lsn)) :
    Book.Move (s.book ws ls) (({ s with late := [] } : State).book (s.late ++ ws) ls) := by
  refine .of_perm ?_ rfl
  have hl := (List.perm_append_comm_assoc s.waiters s.late (s.queue.map (·.1))).append_left ws
  refine hl.trans ?_
  rw [State.book, List.append_assoc]
  exact List.perm_append_comm_assoc ..

theorem notify_sheltered {s : State} {begun : State × List Frame} {below : List Frame}
    (h : s.notify = some begun) (hb : Sheltered below) : Sheltered (begun.2 ++ below) := by
  obtain ⟨w, lsn, queue, -, rfl⟩ := State.notify_eq_some h
  rw [List.append_assoc]
  have hi := { s with queue := queue }.start_isInner w lsn .notifier
  exact (Sheltered.over hb rfl).push_inner (forall_head rfl) hi

theorem step_book (hs : Sheltered m.stack) (hm : m.state.Scripted) (h : m.step = some m') :
    Sheltered m'.stack ∧ ReflTransGen Book.Move m.book m'.book := by
  cases step_goes h with
  | @notify s begun answer hn =>
    have hb := s.book_notify [] [] hn
    rw [List.append_nil, List.append_nil] at hb
    exact ⟨List.append_nil begun.2 ▸ notify_sheltered hn .empty, hb⟩
  | @perform s tag a steps panics below answer =>
    have hi := s.perform_isInner a
    have hb : Sheltered (.body tag steps panics :: below) := hs.turn id
    have ha : Sheltered (.answering tag (s.perform a).2.2 :: .body tag steps panics :: below) :=
      .cons hb fun _ => forall_head rfl
    refine ⟨ha.push_inner (forall_head rfl) hi, ?_⟩
    rw [book_push hi]
    exact s.book_perform _ _ hm a
  | @panic s tag below answer => exact unwind_book (m := ⟨s, below, answer⟩) hs.tail (hs.head rfl)
  | finish | notified | delivered | swept => exact ⟨hs.tail, .refl⟩
  | answer | rest | withdraw => exact ⟨hs.tail, .single (.remark rfl)⟩
  | @start s lsn round w rest taken below answer =>
    have hi := s.start_isInner w lsn (.batch round)
    refine ⟨?_, .single ?_⟩
    · exact (Sheltered.over hs.tail rfl).push_inner (forall_head rfl) hi
    · rw [book_push hi]
      exact s.book_start ..
  -- two moves: what is late becomes the batch, and its first is started
  | @round s lsn round taken w late below answer hl =>
    have hi := { s with late := [] }.start_isInner w lsn (.batch (round + 1))
    refine ⟨?_, ?_⟩
    · exact (Sheltered.over hs.tail rfl).push_inner (forall_head rfl) hi
    · rw [book_push hi]
      have hb := book_late s (below.flatMap Frame.taken) (below.flatMap Frame.audience)
      rw [hl] at hb
      exact .tail (.single hb) ({ s with late := [] }.book_start ..)
  | @hear s o l rest position total below answer =>
    have hi : ∀ f ∈ (s.hear l o).2, f.isInner := by simp [State.hear, Frame.isInner]
    exact ⟨(Sheltered.over hs.tail rfl).push_inner (forall_head rfl) hi, .single (s.book_hear ..)⟩
  | @sweep s begun rest below answer hn =>
    refine ⟨notify_sheltered hn hs, ?_⟩
    rw [book_append]
    exact s.book_notify _ _ hn
  | @discard s w rest below answer hn =>
    refine ⟨Sheltered.pile (s.discard_isBare w) (.over hs.tail rfl), .single ?_⟩
    rw [book_push (s.discard_isInner w)]
    exact s.book_discard _ _ w

end Machine

namespace State

theorem begun_book {s : State} (hs : s.Scripted) (c : Call) :
    Sheltered (s.begun c).stack ∧ ReflTransGen Book.Move (s.book [] []) (s.begun c).book := by
  cases c with
  | act a =>
    have hi := s.perform_isInner a
    have hp := s.book_perform [] [] hs a
    rw [List.append_nil] at hp
    refine ⟨?_, ?_⟩
    · have h := Sheltered.push_inner .empty nofun hi
      rwa [List.append_nil] at h
    · rw [Machine.book, show (s.begun (.act a)).stack = (s.perform a).2.1 from rfl,
        Frame.taken_eq_nil hi]
      exact hp
  | advance lsn =>
    unfold begun begin advance
    dsimp only
    split
    · exact ⟨.empty, .refl⟩
    · split
      · exact ⟨.empty, .single (.remark rfl)⟩
      · have hr : (Entry.recorded lsn).isRemark = true := rfl
        refine ⟨.over .empty rfl, .tail (.single (.remark hr)) (.of_perm ?_ rfl)⟩
        have hf := List.filter_append_perm (fun w : Waiter => decide (w.target ≤ lsn)) s.waiters
        have hq := hf.symm.append_right (s.late ++ s.queue.map (·.1))
        simpa [Machine.book, book, Book.note, Frame.taken, emit] using hq
  | drop =>
    unfold begun begin drop
    dsimp only
    split
    · exact ⟨.empty, .refl⟩
    · refine ⟨.over .empty rfl, .single (.of_perm ?_ rfl)⟩
      simp [Machine.book, book, Frame.taken]

end State
end ReplicaRouting.WaitList
