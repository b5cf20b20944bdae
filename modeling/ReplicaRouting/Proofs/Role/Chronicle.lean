import Mathlib.Data.List.Chain
import ReplicaRouting.Proofs.Log.Indifference
import ReplicaRouting.Proofs.Net.Printed
/-!
Role events as a history of the role. A call that changes the primary leaves one event, which tells the primary
before and the one after by their texts, and the events in turn tell who is primary now. Addresses that differ
in their flow labels alone are two primaries with one text.
-/

namespace ReplicaRouting.RoleState

open Net (SocketAddress)

/-! ### Events as they are read -/

def written (primary : Option SocketAddress) : Option String := primary.map (·.text)

/-- The text of the primary that an event about the role leaves, or that it leaves none. -/
def leaves? (r : Log.Record) : Option (Option String) :=
  if r.event = Log.Event.primaryChanged.name then (r.fields.lookup "primary").map some
  else if r.event = Log.Event.primaryLost.name then some none
  else none

def News.primary : News → Option SocketAddress
  | .announced a => some a
  | .withdrawn => none

/-- An event of this node, from one primary to another. -/
structure Tells (own : SocketAddress) (before after : Option SocketAddress) (r : Log.Record) : Prop where
  leaves : leaves? r = some (written after)
  previous : r.fields.lookup "previous" = some ((written before).getD "")
  node : r.fields.lookup "local" = some own.text

theorem told_cases (s : RoleState) (call : News) : (s.told call).1 = { s with primary := call.primary } ∧
    (s.primary = call.primary ∧ (s.told call).2 = [] ∨
      s.primary ≠ call.primary ∧ ∃ r, (s.told call).2 = [r] ∧ Tells s.self s.primary call.primary r) := by
  obtain ⟨self, primary⟩ := s
  cases call with
  | announced a =>
    by_cases hp : primary = some a
    · simp [told, setPrimary, News.primary, hp]
    · rw [told, setPrimary, if_neg hp]
      exact ⟨rfl, .inr ⟨hp, _, rfl, rfl, rfl, rfl⟩⟩
  | withdrawn =>
    cases primary with
    | none => exact ⟨rfl, .inl ⟨rfl, rfl⟩⟩
    | some p => exact ⟨rfl, .inr ⟨Option.some_ne_none p, _, rfl, rfl, rfl, rfl⟩⟩

/-! ### All calls -/

/-- The events logged since a first state, and the primaries `left` that they leave in turn. -/
structure Chronicle (s : RoleState) (left : List (Option SocketAddress)) (x : Logged) : Prop where
  self : x.1.self = s.self
  leaves : x.2.map leaves? = left.map fun p => some (written p)
  previous : x.2.map (·.fields.lookup "previous") =
    (s.primary :: left).dropLast.map fun p => some ((written p).getD "")
  node : x.2.map (·.fields.lookup "local") = left.map fun _ => some s.self.text
  /-- As addresses, which their texts need not tell apart. -/
  changes : (s.primary :: left).IsChain (· ≠ ·)
  current : (s.primary :: left).getLast? = some x.1.primary

section Chronicle
variable {s : RoleState} {left : List (Option SocketAddress)} {x : Logged}

/-- A call that changes nothing is not told of, any other adds one event to the chain. -/
theorem Chronicle.hear (h : Chronicle s left x) (call : News) : ∃ left', Chronicle s left' (hear x call) := by
  obtain ⟨hstate, ⟨hsame, hlog⟩ | ⟨hchange, r, hlog, hr⟩⟩ := told_cases x.1 call
  · have hx : RoleState.hear x call = x := by
      rw [RoleState.hear, hstate, hlog, ← hsame, List.append_nil]
    rw [hx]
    exact ⟨left, h⟩
  · have hx : RoleState.hear x call = ({ x.1 with primary := call.primary }, x.2 ++ [r]) := by
      rw [RoleState.hear, hstate, hlog]
    -- the last primary of the chain so far is the one the call finds
    obtain ⟨earlier, hleft⟩ := List.getLast?_eq_some_iff.mp h.current
    rw [hx]
    refine ⟨left ++ [call.primary], h.self, ?leaves, ?previous, ?node, ?changes, ?current⟩
    case leaves => rw [List.map_append, List.map_append, h.leaves, List.map_singleton, hr.leaves, List.map_singleton]
    case previous =>
      have hprevious := h.previous
      rw [hleft, List.dropLast_concat] at hprevious
      rw [← List.cons_append, List.dropLast_concat, hleft, List.map_append, List.map_append, hprevious,
        List.map_singleton, hr.previous, List.map_singleton]
    case node =>
      rw [List.map_append, List.map_append, h.node, List.map_singleton, hr.node, h.self, List.map_singleton]
    case changes =>
      refine h.changes.append (.singleton _) ?_
      rintro p hp _ ⟨⟩
      rw [h.current] at hp
      exact Option.some.inj hp ▸ hchange
    case current => rw [← List.cons_append, List.getLast?_concat]

theorem Chronicle.run (h : Chronicle s left x) (news : List News) : ∃ left', Chronicle s left' (run x news).1 := by
  induction news generalizing left x with
  | nil => exact ⟨left, h⟩
  | cons call rest ih =>
    obtain ⟨left', h'⟩ := h.hear call
    exact ih h'

/-- One announced twice, withdrawn twice, and announced with two labels. -/
example :
    let own : SocketAddress := ⟨.v4 10 0 0 1, 7000⟩
    let other (flow : UInt32) : SocketAddress := ⟨.v6 #v[0, 0, 0, 0, 0, 0, 0, 1] flow 0, 7001⟩
    let x := (run (⟨own, none⟩, [])
      [.announced own, .announced own, .withdrawn, .withdrawn, .announced (other 1), .announced (other 2)]).1
    x.2.map leaves? = [some (some "10.0.0.1:7000"), some none, some (some "[::1]:7001"), some (some "[::1]:7001")] ∧
      x.2.map (·.fields.lookup "previous") = [some "", some "10.0.0.1:7000", some "", some "[::1]:7001"] := by
  decide +kernel

end Chronicle

end ReplicaRouting.RoleState
