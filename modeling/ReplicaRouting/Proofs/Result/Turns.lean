import ReplicaRouting.Proofs.Result.Recast
/-!
A delivery listener by listener. What a listener sets off is worked off before the next one starts, just as it
would be by itself, and a panic that escapes from it comes to a line in the log and no further.
-/

namespace ReplicaRouting.Result

variable {V : Type}

def Answer.isPanicked : Answer V → Bool
  | .panicked => true
  | _ => false

/-- What is logged of the panic of a listener, the position counted from zero. -/
def panicLine (position total : Nat) : Log.Record :=
  .of .listenerPanicked [("listener", Text.numeral position), ("registered", Text.numeral total)]

namespace Network

/-- Frames worked off by themselves: the network that they leave, and whether a panic escapes from them. -/
def play (n : Network V) (frames : List (Frame V)) : Network V × Bool :=
  let m := Machine.run ⟨n, frames, .nothing⟩
  (m.network, m.answer.isPanicked)

/-- The turn of a listener: it starts, and what that sets off is worked off. -/
def turn (n : Network V) (o : Outcome V) (c : Option Context) (total position : Nat) (r : Registered V) :
    Network V :=
  let begun := n.start r o c
  let played := begun.1.play begun.2
  if played.2 then played.1.log (panicLine position total) else played.1

def turns (n : Network V) (o : Outcome V) (c : Option Context) (total : Nat) :
    (position : Nat) → List (Registered V) → Network V
  | _, [] => n
  | i, r :: rest => (n.turn o c total i r).turns o c total (i + 1) rest

end Network

namespace Machine

def atop (below : List (Frame V)) (answer : Answer V) (m : Machine V) : Machine V :=
  ⟨m.network, m.stack ++ below, answer⟩

/-- Where work on top of other work goes when it is worked off. -/
def handBack (below : List (Frame V)) (answer : Answer V) (played : Network V × Bool) : Machine V :=
  if played.2 then unwind ⟨played.1, below, answer⟩ else ⟨played.1, below, answer⟩

theorem unwind_atop (below : List (Frame V)) (answer : Answer V) (m : Machine V) :
    ((m.atop below answer).unwind = m.unwind.atop below answer ∧ m.unwind.answer = m.answer) ∨
      (m.unwind = ⟨m.network, [], .panicked⟩ ∧
        (m.atop below answer).unwind = unwind ⟨m.network, below, answer⟩) := by
  have hc := caught_append Frame.panicRecord? m.stack below
  cases h : caught? Frame.panicRecord? m.stack with
  | none =>
    rw [h] at hc
    refine .inr ⟨by rw [unwind, h], ?_⟩
    rw [unwind, unwind, atop, hc]
  | some c =>
    rw [h] at hc
    refine .inl ⟨?_, by rw [unwind, h]⟩
    rw [unwind, unwind, atop, hc, h]
    rfl

/-- A step on top of other work is the same step, unless it is the panic that escapes. -/
theorem step_atop (below : List (Frame V)) (answer : Answer V) {m m' : Machine V} (h : m.step = some m') :
    ((m.atop below answer).step = some (m'.atop below answer) ∧ m'.answer = m.answer) ∨
      (m' = ⟨m'.network, [], .panicked⟩ ∧
        (m.atop below answer).step = some (unwind ⟨m'.network, below, answer⟩)) := by
  obtain ⟨n, stack, old⟩ := m
  cases stack with
  | nil => cases h
  | cons f rest =>
    cases f with
    | body tag steps panics =>
      cases steps with
      | cons a steps =>
        obtain rfl := Option.some.inj h
        refine .inl ⟨?_, rfl⟩
        simp only [atop, List.cons_append, step, List.append_assoc]
      | nil =>
        cases panics with
        | false =>
          obtain rfl := Option.some.inj h
          exact .inl ⟨rfl, rfl⟩
        | true =>
          obtain rfl := Option.some.inj h
          rcases unwind_atop below answer ⟨n, rest, old⟩ with ⟨hu, ha⟩ | ⟨hu, ho⟩
          · exact .inl ⟨congrArg some hu, ha⟩
          · simp only [if_true, hu]
            exact .inr ⟨trivial, congrArg some ho⟩
    | answering tag answered =>
      obtain rfl := Option.some.inj h
      exact .inl ⟨rfl, rfl⟩
    | delivering o c due position total =>
      cases due with
      | nil =>
        obtain rfl := Option.some.inj h
        exact .inl ⟨rfl, rfl⟩
      | cons r due =>
        obtain rfl := Option.some.inj h
        refine .inl ⟨?_, rfl⟩
        simp only [atop, List.cons_append, step, List.append_assoc]

theorem run_at_rest {m : Machine V} (h : m.stack = []) : m.run = m := by
  have hs : m.step = none := by rw [step, h]
  rw [run, hs]

theorem run_of_steps {m m' : Machine V} (h : m.Steps m') : m.run = m'.run := by
  induction h with
  | refl => rfl
  | tail _ h ih =>
    rw [ih, run, h]

theorem steps_atop (below : List (Frame V)) (answer : Answer V) (m : Machine V) (hm : m.answer.isPanicked = false) :
    (m.atop below answer).Steps (handBack below answer (m.run.network, m.run.answer.isPanicked)) := by
  induction m using Machine.run.induct with
  | case1 m h =>
    have hs : m.stack = [] := step_eq_none h
    rw [run_at_rest hs, hm, atop, hs]
    exact .refl
  | case2 m m' h ih =>
    rw [run_of_steps (.single h)]
    rcases step_atop below answer h with ⟨hs, ha⟩ | ⟨hp, hs⟩
    · exact .head hs (ih (ha ▸ hm))
    · rw [hp, run_at_rest rfl]
      exact .single hs

theorem steps_play (n : Network V) (frames below : List (Frame V)) (answer : Answer V) :
    Steps ⟨n, frames ++ below, answer⟩ (handBack below answer (n.play frames)) :=
  steps_atop below answer ⟨n, frames, .nothing⟩ rfl

theorem steps_turn (n : Network V) (o : Outcome V) (c : Option Context) (r : Registered V)
    (rest : List (Registered V)) (position total : Nat) (below : List (Frame V)) (answer : Answer V) :
    Steps ⟨n, .delivering o c (r :: rest) position total :: below, answer⟩
      ⟨n.turn o c total position r, .delivering o c rest (position + 1) total :: below, answer⟩ := by
  let begun := n.start r o c
  have hp := steps_play begun.1 begun.2 (.delivering o c rest (position + 1) total :: below) answer
  refine .head rfl (hp.trans ?_)
  rw [handBack, Network.turn]
  split
  · exact .refl
  · exact .refl

theorem steps_part (n : Network V) (o : Outcome V) (c : Option Context) (rs rest : List (Registered V))
    (position total : Nat) (below : List (Frame V)) (answer : Answer V) :
    Steps ⟨n, .delivering o c (rs ++ rest) position total :: below, answer⟩
      ⟨n.turns o c total position rs, .delivering o c rest (position + rs.length) total :: below, answer⟩ := by
  induction rs generalizing n position with
  | nil => exact .refl
  | cons r rs ih =>
    have h := (steps_turn n o c r (rs ++ rest) position total below answer).trans (ih _ _)
    rwa [Nat.add_assoc, Nat.add_comm 1] at h

/-- All listeners have their turn before the work below goes on. -/
theorem steps_delivery (n : Network V) (o : Outcome V) (c : Option Context) (rest : List (Registered V))
    (position total : Nat) (below : List (Frame V)) (answer : Answer V) :
    Steps ⟨n, .delivering o c rest position total :: below, answer⟩
      ⟨n.turns o c total position rest, below, answer⟩ := by
  have h := steps_part n o c rest [] position total below answer
  rw [List.append_nil] at h
  exact h.tail rfl

end Machine

namespace Network
variable (n : Network V)

theorem play_of_steps {n : Network V} {frames : List (Frame V)} {m : Machine V}
    (h : Machine.Steps ⟨n, frames, .nothing⟩ m) :
    n.play frames = (m.run.network, m.run.answer.isPanicked) := by
  rw [play, Machine.run_of_steps h]

theorem play_at_rest {n : Network V} {frames : List (Frame V)} {m : Machine V}
    (h : Machine.Steps ⟨n, frames, .nothing⟩ m) (hm : m.stack = []) :
    n.play frames = (m.network, m.answer.isPanicked) := by
  rw [play_of_steps h, Machine.run_at_rest hm]

theorem play_delivering (o : Outcome V) (c : Option Context) (rest : List (Registered V)) (position total : Nat) :
    n.play [.delivering o c rest position total] = (n.turns o c total position rest, false) :=
  play_at_rest (Machine.steps_delivery n o c rest position total [] .nothing) rfl

theorem play_nil : n.play [] = (n, false) := play_at_rest .refl rfl

theorem play_end (tag : String) (panics : Bool) : n.play [.body tag [] panics] = (n, panics) := by
  cases panics with
  | false =>
    have h : Machine.Steps ⟨n, [.body tag [] false], .nothing⟩ ⟨n, [], .nothing⟩ := .single rfl
    exact play_at_rest h rfl
  | true =>
    have h : Machine.Steps ⟨n, [.body tag [] true], .nothing⟩ ⟨n, [], .panicked⟩ := .single rfl
    exact play_at_rest h rfl

/-- An action of a script: what it sets off is worked off first. A panic that escapes from that ends the script
as well. -/
theorem play_action (tag : String) (a : Action V) (steps : List (Action V)) (panics : Bool) :
    let done := n.perform a
    let played := done.1.play done.2.1
    n.play [.body tag (a :: steps) panics] =
      if played.2 then played else (played.1.emit (.answered tag done.2.2)).play [.body tag steps panics] := by
  intro done played
  have hp := Machine.steps_play done.1 done.2.1 [.answering tag done.2.2, .body tag steps panics] .nothing
  have hs : Machine.Steps ⟨n, [.body tag (a :: steps) panics], .nothing⟩ _ := .head rfl hp
  split
  · rename_i h
    rw [Machine.handBack, if_pos h] at hs
    exact (play_at_rest hs rfl).trans (Prod.ext rfl h.symm)
  · rename_i h
    rw [Machine.handBack, if_neg h] at hs
    exact play_of_steps (hs.tail rfl)

/-- With or without a panic at its end a script does the same up to there; with it a panic escapes in any case. -/
theorem play_panics (tag : String) (steps : List (Action V)) :
    n.play [.body tag steps true] = ((n.play [.body tag steps false]).1, true) := by
  induction steps generalizing n with
  | nil => rw [play_end, play_end]
  | cons a steps ih =>
    have ht := n.play_action tag a steps true
    have hf := n.play_action tag a steps false
    simp only at ht hf
    rw [ht, hf]
    split
    · rename_i h
      exact Prod.ext rfl h
    · exact ih _

/-! ### The history of a turn -/

theorem play_since (past : List (Entry V)) (frames : List (Frame V)) :
    (n.since past).play frames = ((n.play frames).1.since past, (n.play frames).2) := by
  have h := Machine.run_since past ⟨n, frames, .nothing⟩
  exact congrArg (fun m : Machine V => (m.network, m.answer.isPanicked)) h

theorem since_history : ({ n with history := [] } : Network V).since n.history = n := by
  simp only [since, List.append_nil]

theorem play_history (frames : List (Frame V)) :
    ∃ entries, (n.play frames).1.history = n.history ++ entries := by
  have h := play_since { n with history := [] } n.history frames
  rw [n.since_history] at h
  exact ⟨_, congrArg (fun p : Network V × Bool => p.1.history) h⟩

theorem start_history (r : Registered V) (o : Outcome V) (c : Option Context) :
    ∃ entries, (n.start r o c).1.history =
      n.history ++ .started r.serial r.cell r.listener.tag? o c :: entries := by
  obtain ⟨serial, cell, listener⟩ := r
  have hs : ∀ m : Network V, ∀ into o, (m.settle into o).1.history = m.history := by
    intro m into o
    rcases m.settle_cases into o with ⟨_, _, h⟩ | h <;> rw [h]
  cases listener with
  | script | receiver => exact ⟨[], rfl⟩
  | adapter into => exact ⟨[], hs (n.emit _) into o.adapt⟩
  | recorder read =>
    cases o with
    | value => exact ⟨[], rfl⟩
    | failed => exact ⟨_, List.append_assoc ..⟩

/-- A turn in the history: the start, what the listener itself comes to, and the line of a panic that escapes. -/
theorem turn_history (o : Outcome V) (c : Option Context) (total position : Nat) (r : Registered V) :
    let begun := n.start r o c
    let played := begun.1.play begun.2
    ∃ entries, played.1.history = n.history ++ .started r.serial r.cell r.listener.tag? o c :: entries ∧
      (n.turn o c total position r).history = n.history ++ .started r.serial r.cell r.listener.tag? o c ::
        (entries ++ if played.2 then [.logged (panicLine position total)] else []) := by
  intro begun played
  obtain ⟨es, hs⟩ := n.start_history r o c
  obtain ⟨fs, hp⟩ := begun.1.play_history begun.2
  have hplayed : played.1.history = n.history ++ .started r.serial r.cell r.listener.tag? o c :: (es ++ fs) := by
    rw [hp, hs, List.append_assoc, List.cons_append]
  refine ⟨es ++ fs, hplayed, ?_⟩
  show (if played.2 then played.1.log (panicLine position total) else played.1).history = _
  split
  · rw [log, emit, hplayed, List.append_assoc, List.cons_append]
  · rw [hplayed, List.append_nil]

end Network
end ReplicaRouting.Result
