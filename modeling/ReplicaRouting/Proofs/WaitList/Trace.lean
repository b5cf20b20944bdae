import ReplicaRouting.WaitList.Run
/-!
What befell the waiters of a list, read off its history: which registrations were made, started and
cancelled, and which positions were recorded in between.
-/

namespace ReplicaRouting.WaitList

/-- Tells positions, registrations, starts and cancellations from answers, log lines and awaited results. -/
def Entry.isMark : Entry → Bool
  | .registered .. | .recorded _ | .started .. | .cancelled .. => true
  | _ => false

def State.trace (s : State) : List Entry := s.history.filter (·.isMark)

namespace Entry

def recorded? : Entry → Option Lsn
  | .recorded lsn => some lsn
  | _ => none

def registered? : Entry → Option Nat
  | .registered t _ => some t
  | _ => none

def started? : Entry → Option Nat
  | .started t .. => some t
  | _ => none

def removed? : Entry → Option Nat
  | .cancelled h true => some h.ticket
  | _ => none

def target? (t : Nat) : Entry → Option Lsn
  | .registered u target => if u = t then some target else none
  | _ => none

end Entry

def latestAfter (initial : Lsn) (es : List Entry) : Lsn :=
  es.foldl (fun l e => e.recorded?.getD l) initial

def registeredIn (es : List Entry) : List Nat := es.filterMap (·.registered?)

def startedIn (es : List Entry) : List Nat := es.filterMap (·.started?)

def removedIn (es : List Entry) : List Nat := es.filterMap (·.removed?)

def targetOf? (es : List Entry) (t : Nat) : Option Lsn := es.findSome? (·.target? t)

/-- The positions recorded at or after a registration: the latest one then, and each later one. -/
def positionsSince (t : Nat) (latest : Lsn) : List Entry → List Lsn
  | [] => []
  | e :: es =>
    if e.registered? = some t then latest :: es.filterMap (·.recorded?)
    else positionsSince t (e.recorded?.getD latest) es

/-- The first of these positions that reaches the target of the registration. -/
def reached? (initial : Lsn) (es : List Entry) (t : Nat) : Option Lsn :=
  (targetOf? es t).bind fun target => (positionsSince t initial es).find? (target ≤ ·)

/-- The registration waits: it was made, its target is ahead and it was not cancelled. -/
def IsPending (initial : Lsn) (es : List Entry) (h : Handle) : Prop :=
  targetOf? es h.ticket = some h.target ∧ latestAfter initial es < h.target ∧
    h.ticket ∉ removedIn es

/-- What an entry must agree with in the trace before it. -/
def Entry.Fits (initial : Lsn) (before : List Entry) : Entry → Prop
  | .registered t _ => t = (registeredIn before).length
  | .recorded lsn => latestAfter initial before ≤ lsn
  | .started t _ lsn _ =>
    lsn = latestAfter initial before ∧ reached? initial before t = some lsn ∧
      ∃ target, targetOf? before t = some target ∧ target ≤ lsn
  | .cancelled h removed => removed = true ↔ IsPending initial before h
  | _ => True

def Lawful (initial : Lsn) (es : List Entry) : Prop :=
  ∀ before e after, es = before ++ e :: after → e.Fits initial before

/-! ### The trace and the whole history -/

theorem filterMap_kinds {α : Type} {p : Entry → Bool} {f : Entry → Option α}
    (hf : ∀ e, p e = false → f e = none) (es : List Entry) :
    (es.filter p).filterMap f = es.filterMap f := by
  rw [List.filterMap_filter]
  congr 1
  funext e
  cases h : p e with
  | true => rfl
  | false => exact (hf e h).symm

namespace State
variable (s : State)

theorem registeredIn_trace : registeredIn s.trace = registeredIn s.history := by
  apply filterMap_kinds
  intro e he
  cases e <;> first | rfl | cases he

theorem startedIn_trace : startedIn s.trace = startedIn s.history := by
  apply filterMap_kinds
  intro e he
  cases e <;> first | rfl | cases he

theorem removedIn_trace : removedIn s.trace = removedIn s.history := by
  apply filterMap_kinds
  intro e he
  cases e <;> first | rfl | cases he

end State

/-! ### A trace that grows -/

section Append
variable (initial : Lsn) (es fs : List Entry) (e : Entry)

theorem latestAfter_append :
    latestAfter initial (es ++ fs) = latestAfter (latestAfter initial es) fs := List.foldl_append

@[simp] theorem latestAfter_concat :
    latestAfter initial (es ++ [e]) = e.recorded?.getD (latestAfter initial es) := by
  rw [latestAfter_append]
  rfl

@[simp] theorem registeredIn_append :
    registeredIn (es ++ fs) = registeredIn es ++ registeredIn fs :=
  List.filterMap_append

@[simp] theorem startedIn_append : startedIn (es ++ fs) = startedIn es ++ startedIn fs :=
  List.filterMap_append

@[simp] theorem removedIn_append : removedIn (es ++ fs) = removedIn es ++ removedIn fs :=
  List.filterMap_append

@[simp] theorem targetOf?_append (t : Nat) :
    targetOf? (es ++ fs) t = (targetOf? es t).or (targetOf? fs t) :=
  List.findSome?_append

@[simp] theorem registeredIn_singleton : registeredIn [e] = e.registered?.toList := by
  cases h : e.registered? <;> simp [registeredIn, h]

@[simp] theorem startedIn_singleton : startedIn [e] = e.started?.toList := by
  cases h : e.started? <;> simp [startedIn, h]

@[simp] theorem removedIn_singleton : removedIn [e] = e.removed?.toList := by
  cases h : e.removed? <;> simp [removedIn, h]

@[simp] theorem targetOf?_singleton (t : Nat) : targetOf? [e] t = e.target? t := by
  cases h : e.target? t <;> simp [targetOf?, h]

theorem mem_registeredIn_iff (t : Nat) : t ∈ registeredIn es ↔ (targetOf? es t).isSome := by
  induction es with
  | nil => simp [registeredIn, targetOf?]
  | cons e es ih =>
    rw [← List.singleton_append, registeredIn_append, targetOf?_append, List.mem_append, ih,
      Option.isSome_or, Bool.or_eq_true]
    apply or_congr_left
    cases e <;> simp [Entry.registered?, Entry.target?, @eq_comm _ t]

/-- A later entry adds a position to a registration that was made; the registration itself starts with
the latest position. -/
theorem positionsSince_concat (t : Nat) :
    positionsSince t initial (es ++ [e]) =
      if t ∈ registeredIn es then positionsSince t initial es ++ e.recorded?.toList
      else if e.registered? = some t then [latestAfter initial es] else [] := by
  -- the latest position of the rest is the one that its first entry leaves
  induction es generalizing initial with
  | nil => simp [positionsSince, registeredIn, latestAfter]
  | cons f fs ih =>
    rw [List.cons_append, positionsSince, positionsSince]
    by_cases hf : f.registered? = some t
    · have ht : t ∈ registeredIn (f :: fs) := by simp [registeredIn, hf]
      rw [if_pos hf, if_pos hf, if_pos ht, List.filterMap_append, List.cons_append]
      cases h : e.recorded? <;> simp [h]
    · have ht : t ∈ registeredIn (f :: fs) ↔ t ∈ registeredIn fs := by
        simp only [registeredIn, List.mem_filterMap, List.mem_cons, exists_eq_or_imp, hf, false_or]
      rw [if_neg hf, if_neg hf, ih]
      simp only [ht, latestAfter, List.foldl_cons]

end Append

section Reached
variable {initial : Lsn} {es : List Entry} {t : Nat} {target : Lsn}

theorem reached?_concat (e : Entry) (h : targetOf? es t = some target) :
    reached? initial (es ++ [e]) t =
      (reached? initial es t).or (e.recorded?.filter (target ≤ ·)) := by
  have ht : t ∈ registeredIn es := (mem_registeredIn_iff es t).mpr (by rw [h]; rfl)
  rw [reached?, targetOf?_append, h, Option.some_or, Option.bind_some, positionsSince_concat,
    if_pos ht, List.find?_append, reached?, h, Option.bind_some]
  cases e.recorded? <;> simp [Option.filter, List.find?_singleton]

theorem reached?_registered (initial target : Lsn) (h : targetOf? es t = none) :
    reached? initial (es ++ [.registered t target]) t =
      if target ≤ latestAfter initial es then some (latestAfter initial es) else none := by
  have ht : t ∉ registeredIn es := by simp [mem_registeredIn_iff, h]
  rw [reached?, targetOf?_append, h, Option.none_or, targetOf?_singleton, positionsSince_concat,
    if_neg ht]
  simp [Entry.target?, Entry.registered?, List.find?_singleton]

end Reached

theorem lawful_nil (initial : Lsn) : Lawful initial [] := by
  intro before e after h
  simp at h

theorem Lawful.concat {initial : Lsn} {es : List Entry} {e : Entry} (h : Lawful initial es)
    (he : e.Fits initial es) : Lawful initial (es ++ [e]) := by
  intro before f after hs
  -- the entry in question is the last one or among those before
  rcases List.eq_nil_or_concat after with rfl | ⟨after', g, rfl⟩
  · obtain ⟨rfl, hf⟩ := List.append_inj' hs rfl
    cases hf
    exact he
  · rw [List.concat_eq_append, ← List.cons_append, ← List.append_assoc] at hs
    obtain ⟨rfl, -⟩ := List.append_inj' hs rfl
    exact h before f after' rfl

end ReplicaRouting.WaitList
