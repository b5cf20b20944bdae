import ReplicaRouting.Log.Line
import ReplicaRouting.Proofs.Json.Written
import ReplicaRouting.Proofs.Text.Utf8
/-!
The line of a log record: whatever the texts in it are, it is one line, and the object that it reads as has
them all as they were given.
-/

namespace ReplicaRouting.Log

open Json (Value)

/-! ### The order of the fields -/

/-- By key; what `sortFields` goes by. -/
def keyLE (a b : String × String) : Bool := decide (¬ b.1 < a.1)

theorem keyLE_iff {a b : String × String} : keyLE a b = true ↔ a.1 ≤ b.1 := by
  rw [keyLE, decide_eq_true_eq, String.not_lt]

theorem keyLE_trans (a b c : String × String) (hab : keyLE a b = true) (hbc : keyLE b c = true) :
    keyLE a c = true := by
  rw [keyLE_iff] at hab hbc ⊢
  exact String.le_trans hab hbc

theorem keyLE_total (a b : String × String) : (keyLE a b || keyLE b a) = true := by
  rw [Bool.or_eq_true, keyLE_iff, keyLE_iff]
  exact String.le_total a.1 b.1

variable (fields : List (String × String))

theorem sortFields_perm : (sortFields fields).Perm fields := List.mergeSort_perm fields _

theorem sortFields_sorted :
    (sortFields fields).Pairwise fun a b => ¬ Text.bytes b.1 < Text.bytes a.1 := by
  refine (List.pairwise_mergeSort keyLE_trans keyLE_total fields).imp fun {a b} h => ?_
  rw [Text.bytes_lt_iff, String.not_lt]
  exact keyLE_iff.mp h

theorem sortFields_stable (key : String) :
    (sortFields fields).filter (·.1 = key) = fields.filter (·.1 = key) := by
  have hequal : (fields.filter (·.1 = key)).Pairwise fun a b => keyLE a b = true := by
    refine List.pairwise_of_forall_mem_list fun a ha b hb => ?_
    have hka : a.1 = key := of_decide_eq_true (List.mem_filter.mp ha).2
    have hkb : b.1 = key := of_decide_eq_true (List.mem_filter.mp hb).2
    exact keyLE_iff.mpr ((hka.trans hkb.symm) ▸ String.le_refl a.1)
  have hsub : (fields.filter (·.1 = key)).Sublist (sortFields fields) :=
    List.sublist_mergeSort keyLE_trans keyLE_total hequal List.filter_sublist
  have hsub' := hsub.filter (·.1 = key)
  rw [List.filter_filter] at hsub'
  simp only [Bool.and_self] at hsub'
  exact (hsub'.eq_of_length ((sortFields_perm fields).filter _).length_eq.symm).symm

/-! ### The line -/

/-- A record of whatever texts is written on one line without other control characters. The line reads as an
object with the event, the severity, the time stamp and the fields as they were given, in the order of the bytes
of their keys and those with one key in the order given. -/
theorem line_lossless (stamp : String) (r : Record) :
    let sorted := sortFields r.fields
    (∃ text, r.line stamp = text ++ ['\n'] ∧ ∀ c ∈ text, 0x20 ≤ c.toNat) ∧
    (r.line stamp).count '\n' = 1 ∧
    Json.parse (String.ofList (r.line stamp)) = .ok (.object (("event", .string r.event) ::
      ("severity", .string r.severity.name) :: ("ts", .string stamp) ::
        sorted.map fun f => (f.1, .string f.2))) ∧
    sorted.Perm r.fields ∧
    sorted.Pairwise (fun a b => ¬ Text.bytes b.1 < Text.bytes a.1) ∧
    ∀ key, sorted.filter (·.1 = key) = r.fields.filter (·.1 = key) := by
  intro sorted
  have hfits : ∀ m ∈ (r.members stamp).map fun m => (m.1, Value.string m.2), m.2.Fits (Json.maxDepth - 1) := by
    simp only [List.mem_map]
    rintro _ ⟨m, -, rfl⟩
    exact .string m.2
  have hprintable : ∀ c ∈ r.text stamp, 0x20 ≤ c.toNat := Value.Fits.printable (.object hfits)
  refine ⟨⟨r.text stamp, rfl, hprintable⟩, ?_, Json.parse_line hfits, sortFields_perm r.fields,
    sortFields_sorted r.fields, sortFields_stable r.fields⟩
  have hnone : '\n' ∉ r.text stamp := fun h => absurd (hprintable _ h) (by decide)
  rw [Record.line, List.count_append, List.count_eq_zero.mpr hnone]
  rfl

end ReplicaRouting.Log
