import ReplicaRouting.Config.Router
import ReplicaRouting.Proofs.Net.Printed
/-!
A configuration that was put together from a name, an address, a policy and an id gives all of them back, and it
is valid unless the name is blank.
-/

namespace ReplicaRouting

open Net (SocketAddress)

namespace PolicySetting

theorem ofPolicy_cases (p : Policy) :
    ((∃ name, ofPolicy p = .preset name) ↔
      p = .primaryOnly ∨ p = .writesToPrimary ∨ p = .unrestricted) ∧
    (ofPolicy p = .flags p ↔ p = ⟨true, false⟩) := by
  rcases p with ⟨_ | _, _ | _⟩ <;>
    simp [ofPolicy, Policy.preset?, Policy.primaryOnly, Policy.writesToPrimary, Policy.unrestricted]

theorem resolve_ofPolicy (p : Policy) : (ofPolicy p).resolve = .ok p := by
  rcases p with ⟨_ | _, _ | _⟩ <;> rfl

end PolicySetting

namespace Config

theorem address_of_text {c : Config} {a : SocketAddress} (h : c.localAddress = a.text) :
    c.address = .ok a.unlabelled := by
  rw [address, h, SocketAddress.parse?_text]

theorem validate_eq {c : Config} {p : Policy} {a : SocketAddress} (hn : Text.hasInk c.notifierThread = true)
    (hp : c.resolvedPolicy = .ok p) (ha : c.address = .ok a) :
    c.validate =
      if Text.hasInk c.database then .ok () else .error (.invalid "database_name must not be empty") := by
  rw [validate, hn, hp, ha]
  cases Text.hasInk c.database <;> rfl

/-- A configuration means what was put in, be it valid or not: it is valid exactly if the name has a character
that is no blank, and refused for its name otherwise; the policy, stored by name exactly if it is one of the three
that have a name, resolves to the one given, and the address that is stored as text is read as the one given if
it has a text form: only the flow label of an IPv6 address, which no text tells, is lost. -/
theorem built_gives_back (name : String) (address : SocketAddress) (p : Policy) (id : UInt32) :
    let c := ((make name address).withPolicy p).withDatabaseId id
    (c.validate = .ok () ↔ ∃ ch ∈ name.toList, Text.isBlank ch = false) ∧
    (c.validate = .error (.invalid "database_name must not be empty") ↔
      ¬ ∃ ch ∈ name.toList, Text.isBlank ch = false) ∧
    c.resolvedPolicy = .ok p ∧ c.address = .ok address.unlabelled ∧
    (c.address = .ok address ↔ ∃ text, SocketAddress.parse? text = some address) ∧
    c.database = name ∧ c.databaseId = id ∧
    ((∃ preset, c.policy = .preset preset) ↔
      p = .primaryOnly ∨ p = .writesToPrimary ∨ p = .unrestricted) ∧
    (c.policy = .flags p ↔ p = ⟨true, false⟩) := by
  intro c
  have hpolicy : c.resolvedPolicy = .ok p := PolicySetting.resolve_ofPolicy p
  have haddress : c.address = .ok address.unlabelled := address_of_text rfl
  have hthread : Text.hasInk c.notifierThread = true := show Text.hasInk "lsn-notifier" = true by decide
  have hvalid : c.validate =
      if Text.hasInk name then .ok () else .error (.invalid "database_name must not be empty") :=
    validate_eq hthread hpolicy haddress
  have hink : Text.hasInk name = true ↔ ∃ ch ∈ name.toList, Text.isBlank ch = false := by
    simp [Text.hasInk]
  obtain ⟨hpreset, hflags⟩ := PolicySetting.ofPolicy_cases p
  refine ⟨?valid, ?refused, hpolicy, haddress, ?given, rfl, rfl, hpreset, hflags⟩
  case given => rw [haddress, Except.ok.injEq, SocketAddress.exists_parse?_eq]
  case valid | refused =>
    rw [← hink, hvalid]
    cases Text.hasInk name <;> simp

end Config
end ReplicaRouting
