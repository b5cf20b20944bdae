import ReplicaRouting.Proofs.Result.Idle
import ReplicaRouting.Proofs.Result.Recorder
/-!
Contexts on their way. A cell keeps its context, and its listeners are handed that one; the line of a failed
read comes right after the start of its recorder and carries the request of the cell.
-/

namespace ReplicaRouting.Result

open Relation (ReflTransGen)

variable {V : Type}

/-- Each line of a failed read comes with the start of the recorder on a cell, and carries the request of the
context that is handed on there. -/
def Attributed (es : List (Entry V)) : Prop :=
  ∀ xs x ys, es = xs ++ .logged x :: ys → ∃ pre serial cell f context read,
    xs = pre ++ [.started serial cell none (.failed f) (some context)] ∧ x = RemoteRead.failure read f.routed ∧
      read.request = context.id

section Attributed
variable {es es' : List (Entry V)}

theorem Attributed.append (h : Attributed es) (h' : Attributed es') : Attributed (es ++ es') := by
  intro xs x ys he
  rcases List.append_eq_append_iff.mp he with ⟨rest, rfl, hrest⟩ | ⟨rest, rfl, hrest⟩
  · obtain ⟨pre, serial, cell, f, context, read, rfl, hx, hread⟩ := h' rest x ys hrest
    exact ⟨es ++ pre, serial, cell, f, context, read, (List.append_assoc ..).symm, hx, hread⟩
  · cases rest with
    | nil =>
      obtain ⟨pre, serial, cell, f, context, read, hpre, -⟩ := h' [] x ys hrest.symm
      exact absurd hpre.symm (List.append_ne_nil_of_right_ne_nil _ (List.cons_ne_nil _ _))
    | cons e rest =>
      obtain ⟨rfl, rfl⟩ := List.cons.inj hrest
      exact h xs x rest rfl

theorem attributed_mark {e : Entry V} (h : e.isMark = true) : Attributed [e] := by
  intro xs x ys he
  have hm : .logged x ∈ [e] := he ▸ List.mem_append_right xs (.head ys)
  obtain rfl := List.mem_singleton.mp hm
  cases h

theorem attributed_failure (serial cell : Nat) (f : Fault) {context : Context} {read : RemoteRead}
    (h : read.request = context.id) : Attributed (V := V)
      [.started serial cell none (.failed f) (some context), .logged (read.failure f.routed)] := by
  intro xs x ys he
  cases xs with
  | nil => cases he
  | cons e xs =>
    obtain ⟨rfl, hrest⟩ := List.cons.inj he
    cases xs with
    | nil =>
      obtain ⟨hx, -⟩ := List.cons.inj hrest
      exact ⟨[], serial, cell, f, context, read, rfl, (Entry.logged.inj hx).symm, h⟩
    | cons e xs =>
      have hnil : [] = xs ++ .logged x :: ys := (List.cons.inj hrest).2
      exact absurd hnil.symm (List.append_ne_nil_of_right_ne_nil _ (List.cons_ne_nil _ _))

end Attributed

namespace Network
variable {n n' : Network V} {cell : Nat} {context : Option Context}

def Bears (n : Network V) (cell : Nat) (context : Option Context) : Prop :=
  ∃ o?, n.cells[cell]? = some ⟨context, o?⟩

theorem Extends.bears (h : n.Extends n') (hc : n.Bears cell context) : n'.Bears cell context := by
  obtain ⟨o?, hc⟩ := hc
  obtain ⟨o?', hc', -⟩ := h.kept cell context o? hc
  exact ⟨o?', hc'⟩

theorem Bears.contextAt (h : n.Bears cell context) : n.contextAt cell = context := by
  obtain ⟨o?, hc⟩ := h
  rw [Network.contextAt, hc]
  rfl

theorem bears_of_outcome {o : Outcome V} (h : n.outcomeAt cell = some o) : n.Bears cell (n.contextAt cell) := by
  obtain ⟨context, hc⟩ := outcomeAt_eq_some_iff.mp h
  refine ⟨some o, ?_⟩
  rw [Network.contextAt, hc]
  rfl

end Network

namespace Ledger
variable {v v' : Ledger V}

structure Carries (v : Ledger V) : Prop where
  due : ∀ d ∈ v.due, v.network.Bears d.registered.cell d.context
  started : ∀ serial cell tag o context, .started serial cell tag o context ∈ v.network.account →
    v.network.Bears cell context
  /-- A recorder has the request of the cell on which it was registered. -/
  recorders : ∀ r, v.Has r → ∀ read, r.listener = .recorder read →
    ∃ context, v.network.Bears r.cell (some context) ∧ read.request = context.id
  lines : Attributed v.network.account

section Carries

theorem Carries.mono (h : v.Carries) (hx : v.network.Extends v'.network) (hd : ∀ d ∈ v'.due, d ∈ v.due)
    (hh : ∀ r, v'.Has r → v.Has r) (ha : v'.network.account = v.network.account) : v'.Carries := by
  refine ⟨fun d hm => hx.bears (h.due d (hd d hm)), fun serial cell tag o context hs => ?_,
    fun r hr read hl => ?_, ha ▸ h.lines⟩
  · exact hx.bears (h.started serial cell tag o context (ha ▸ hs))
  · obtain ⟨context, hc, hid⟩ := h.recorders r (hh r hr) read hl
    exact ⟨context, hx.bears hc, hid⟩

theorem Carries.addCell (h : v.Carries) (c : Cell V) : Carries ⟨(v.network.addCell c).1, v.due⟩ :=
  h.mono (v.network.extends_addCell c) (fun _ hd => hd) (fun _ hr => hr) rfl

theorem Carries.settle (h : v.Carries) (cell : Nat) (o : Outcome V) :
    (v.after (v.network.settle cell o).1 (v.network.settle cell o).2.1).Carries := by
  have hx := v.network.extends_settle cell o
  have hh : ∀ r, (v.after (v.network.settle cell o).1 (v.network.settle cell o).2.1).Has r → v.Has r :=
    fun r => has_settle v cell o
  rcases v.network.settle_cases cell o with ⟨context, hc, hs⟩ | hs
  · rw [hs] at hx hh ⊢
    refine ⟨fun d hd => ?_, fun serial cell tag o context hm => hx.bears (h.started _ _ _ _ _ hm),
      fun r hr read hl => ?_, h.lines⟩
    · rcases List.mem_append.mp hd with hd | hd
      · rw [dueOn_delivering] at hd
        obtain ⟨r, hr, rfl⟩ := List.mem_map.mp hd
        obtain rfl := of_decide_eq_true (List.mem_filter.mp hr).2
        exact hx.bears ⟨none, hc⟩
      · exact hx.bears (h.due d hd)
    · obtain ⟨context, hb, hid⟩ := h.recorders r (hh r hr) read hl
      exact ⟨context, hx.bears hb, hid⟩
  · rw [hs]
    exact h

/-- The first listener that is due starts: the account grows by its start and, if it is the recorder of a failed
read, by the line. -/
theorem Carries.begun {d : Due V} (h : v.Carries) (hdue : v.due = d :: v'.due)
    (hcells : v'.network.cells = v.network.cells) (hw : v'.network.waiting = v.network.waiting)
    {es : List (Entry V)} (ha : v'.network.account = v.network.account ++ es) (he : Attributed es)
    (hs : ∀ serial cell tag o context, .started serial cell tag o context ∈ es →
      cell = d.registered.cell ∧ context = d.context) : v'.Carries := by
  have hx : v.network.Extends v'.network := .of_cells hcells
  have hm : d ∈ v.due := hdue ▸ .head _
  refine ⟨fun e hd => hx.bears (h.due e (hdue ▸ .tail _ hd)), fun serial cell tag o context hstarted => ?_,
    fun r hr read hl => ?_, ha ▸ h.lines.append he⟩
  · rw [ha] at hstarted
    rcases List.mem_append.mp hstarted with hstarted | hstarted
    · exact hx.bears (h.started serial cell tag o context hstarted)
    · obtain ⟨rfl, rfl⟩ := hs serial cell tag o context hstarted
      exact hx.bears (h.due d hm)
  · have hold : v.Has r := by
      rcases hr with hr | ⟨e, hr, rfl⟩
      · exact .inl (hw ▸ hr)
      · exact .inr ⟨e, hdue ▸ .tail _ hr, rfl⟩
    obtain ⟨context, hb, hid⟩ := h.recorders r hold read hl
    exact ⟨context, hx.bears hb, hid⟩

theorem Carries.start {d : Due V} {due : List (Due V)} (h : v.Carries) (hdue : v.due = d :: due) :
    (after ⟨v.network, due⟩ (v.network.start d.registered d.outcome d.context).1
      (v.network.start d.registered d.outcome d.context).2).Carries := by
  obtain ⟨⟨serial, cell, listener⟩, o, context⟩ := d
  have hm : (⟨⟨serial, cell, listener⟩, o, context⟩ : Due V) ∈ v.due := hdue ▸ .head _
  have hstarted : ∀ tag, Carries ⟨v.network.emit (.started serial cell tag o context), due⟩ := by
    intro tag
    refine h.begun hdue rfl rfl (v.network.account_emit _) (attributed_mark rfl) ?_
    intro serial' cell' tag' o' context' hs
    cases List.mem_singleton.mp hs
    exact ⟨rfl, rfl⟩
  cases listener with
  | script tag steps panics => exact hstarted (some tag)
  | receiver => exact (hstarted none).mono (.of_cells rfl) (fun _ hd => hd) (fun _ hr => hr) rfl
  | adapter into => exact (hstarted none).settle into o.adapt
  | recorder read =>
    obtain ⟨hframes, hcells, hw, ha, -⟩ := v.network.start_recorder serial cell read o context
    obtain ⟨c, hb, hid⟩ := h.recorders _ (.inr ⟨_, hm, rfl⟩) read rfl
    obtain rfl : context = some c := (h.due _ hm).contextAt.symm.trans hb.contextAt
    rw [after, hframes]
    refine h.begun hdue hcells hw ha ?_ ?_
    · cases o with
      | value x => exact attributed_mark rfl
      | failed f => exact attributed_failure serial cell f hid
    · intro serial' cell' tag' o' context' hs
      cases o with
      | value x =>
        cases List.mem_singleton.mp hs
        exact ⟨rfl, rfl⟩
      | failed f =>
        rcases List.mem_cons.mp hs with hs | hs
        · cases hs
          exact ⟨rfl, rfl⟩
        · cases List.mem_singleton.mp hs

theorem Carries.enrolled (h : v.Carries) (r : Registered V)
    (hl : ∀ read, r.listener = .recorder read →
      ∃ context, v.network.Bears r.cell (some context) ∧ read.request = context.id)
    (hcells : v'.network.cells = v.network.cells)
    (ha : v'.network.account = v.network.account ++ [.registered r.serial r.cell])
    (hd : ∀ d ∈ v'.due, d ∈ v.due ∨ v.network.Bears d.registered.cell d.context)
    (hh : ∀ x, v'.Has x → v.Has x ∨ x = r) : v'.Carries := by
  have hx : v.network.Extends v'.network := .of_cells hcells
  refine ⟨fun d hm => ?_, fun serial cell tag o context hs => ?_, fun x hm read hread => ?_,
    ha ▸ h.lines.append (attributed_mark rfl)⟩
  · rcases hd d hm with hm | hb
    · exact hx.bears (h.due d hm)
    · exact hx.bears hb
  · rw [ha] at hs
    rcases List.mem_append.mp hs with hs | hs
    · exact hx.bears (h.started serial cell tag o context hs)
    · cases List.mem_singleton.mp hs
  · obtain ⟨context, hb, hid⟩ : ∃ context, v.network.Bears x.cell (some context) ∧ read.request = context.id := by
      rcases hh x hm with hold | rfl
      · exact h.recorders x hold read hread
      · exact hl read hread
    exact ⟨context, hx.bears hb, hid⟩

theorem Carries.register (h : v.Carries) (cell : Nat) {l : Listener V}
    (hl : ∀ read, l = .recorder read →
      ∃ context, v.network.Bears cell (some context) ∧ read.request = context.id) :
    (v.after (v.network.register cell l).1 (v.network.register cell l).2).Carries := by
  let r : Registered V := ⟨v.network.registrations, cell, l⟩
  let enrolled : Network V :=
    { v.network with registrations := v.network.registrations + 1 }.emit (.registered r.serial cell)
  have ha : enrolled.account = v.network.account ++ [.registered r.serial cell] := Network.account_emit _ _
  rcases v.network.register_cases cell l with ⟨-, hs⟩ | ⟨o, ho, hs⟩
  · rw [hs]
    refine h.enrolled r hl rfl ha (fun d hd => .inl hd) fun x hx => ?_
    rcases hx with hx | hx
    · rcases List.mem_append.mp hx with hx | hx
      · exact .inl (.inl hx)
      · exact .inr (List.mem_singleton.mp hx)
    · exact .inl (.inr hx)
  · rw [hs]
    have hdue : Carries ⟨enrolled, ⟨r, o, v.network.contextAt cell⟩ :: v.due⟩ := by
      refine h.enrolled r hl rfl ha (fun d hd => ?_) fun x hx => ?_
      · rcases List.mem_cons.mp hd with rfl | hd
        · exact .inr (Network.bears_of_outcome ho)
        · exact .inl hd
      · rcases hx with hx | ⟨d, hd, rfl⟩
        · exact .inl (.inl hx)
        · rcases List.mem_cons.mp hd with rfl | hd
          · exact .inr rfl
          · exact .inl (.inr ⟨d, hd, rfl⟩)
    exact hdue.start rfl

theorem Carries.turn (h : v.Carries) (ht : v.Turn v') : v'.Carries := by
  cases ht with
  | rest => exact h
  | answered tag answer =>
    refine h.mono (.of_cells rfl) (fun _ hd => hd) (fun _ hr => hr) ?_
    exact (Network.account_emit ..).trans (List.append_nil _)
  | panicked fields =>
    exact h.mono (.of_cells rfl) (fun _ hd => hd) (fun _ hr => hr) (v.network.account_log (by decide) fields)
  | start hdue => exact h.start hdue

theorem Carries.turns (h : v.Carries) (ht : ReflTransGen Turn v v') : v'.Carries := by
  induction ht with
  | refl => exact h
  | tail _ ht ih => exact ih.turn ht

theorem Carries.deliver {n : Network V} {frames : List (Frame V)} (h : Carries ⟨n, dueOn frames⟩)
    (hm : Machine.Idle ⟨n, frames, .nothing⟩) : Carries ⟨n.deliver frames, []⟩ :=
  h.turns (Machine.deliver_turns hm)

theorem fresh_carries : Carries (⟨{}, []⟩ : Ledger V) := by
  refine ⟨List.forall_mem_nil _, fun _ _ _ _ _ hs => ?_, fun r hr => ?_, fun xs x ys he => ?_⟩
  · cases hs
  · rcases hr with hr | ⟨d, hd, -⟩
    · cases hr
    · cases hd
  · exact absurd he.symm (List.append_ne_nil_of_right_ne_nil _ (List.cons_ne_nil _ _))

end Carries
end Ledger
end ReplicaRouting.Result
