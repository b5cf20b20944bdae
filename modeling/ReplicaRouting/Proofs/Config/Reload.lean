import ReplicaRouting.Config.Router
import ReplicaRouting.Proofs.Json.Written
/-!
Configurations survive being written and read back: the text of a configuration reads as that configuration
before it is checked, so that it loads exactly if it is valid.
-/

namespace ReplicaRouting

open Json (Returns Value)
open Net (SocketAddress)

namespace Json

theorem readText_literal (t : String) : Returns readText (literal t.toList) t := by
  intro s _
  rw [literal_append]
  exact readString_literal t s

theorem readNat_numeral {bound n : Nat} (expected : String) (hn : n < bound) (hbound : bound ≤ UInt64.size) :
    Returns (readNat bound expected) (Nat.toDigits 10 n) n := by
  intro s hs
  have hread := readNumber_toDigits false (Nat.lt_of_lt_of_le hn hbound) hs
  obtain ⟨c, t, hc⟩ := List.exists_cons_of_ne_nil (Nat.toDigits_ne_nil (n := n) (b := 10))
  have hdigit : c.isDigit = true :=
    Nat.isDigit_of_mem_toDigits (n := n) (by decide) (by decide) (hc ▸ List.mem_cons_self ..)
  rw [hc, List.cons_append] at hread ⊢
  rw [readNat, skipBlanks_cons (isBlank_of_isDigit hdigit)]
  split
  · rename_i heq
    obtain ⟨rfl, -⟩ := List.cons.inj heq
    exact absurd hdigit (by decide)
  · rename_i heq
    obtain ⟨rfl, rfl⟩ := List.cons.inj heq
    simp only [if_pos hdigit, hread, makeInteger, Bool.not_false, if_true, Except.map, if_pos hn]
  · contradiction

end Json

namespace PolicySetting

theorem toJson_fits (p : PolicySetting) : p.toJson.Fits 1 := by
  cases p with
  | preset name => exact .string name
  | flags policy =>
    refine .object fun m hm => ?_
    simp only [List.mem_cons, List.not_mem_nil, or_false] at hm
    rcases hm with rfl | rfl <;> exact .bool _

theorem ofValue_toJson (p : PolicySetting) : ofValue? p.toJson = some p := by
  rcases p with name | ⟨_ | _, _ | _⟩ <;> rfl

theorem reader_toJson (p : PolicySetting) : Returns reader p.toJson.render p := by
  intro s hs
  have hread := Json.readValue_render (p.toJson_fits.mono (by decide : 1 ≤ Json.maxDepth - 1)) s hs
  simp only [reader, hread, bind, Except.bind, ofValue_toJson]
  rfl

end PolicySetting

namespace Config

/-! ### Validity -/

theorem resolvedPolicy_error {c : Config} {e : ConfigError} (h : c.resolvedPolicy = .error e) :
    ∃ reason, e = .invalid reason := by
  rw [resolvedPolicy] at h
  cases hp : c.policy with
  | preset name =>
    rw [hp, PolicySetting.resolve] at h
    cases hparse : Policy.parse name with
    | error reason =>
      rw [hparse] at h
      exact ⟨reason, (Except.error.inj h).symm⟩
    | ok policy =>
      rw [hparse] at h
      cases h
  | flags policy =>
    rw [hp] at h
    cases h

theorem address_error {c : Config} {e : ConfigError} (h : c.address = .error e) : ∃ reason, e = .invalid reason := by
  unfold address at h
  split at h
  · cases h
  · exact ⟨_, (Except.error.inj h).symm⟩

theorem validate_cases (c : Config) : (∃ reason, c.validate = .error (.invalid reason)) ∨
    (c.validate = .ok () ∧ ∃ policy address, c.resolvedPolicy = .ok policy ∧ c.address = .ok address) := by
  unfold validate
  cases Text.hasInk c.database with
  | false => exact .inl ⟨_, rfl⟩
  | true =>
    cases Text.hasInk c.notifierThread with
    | false => exact .inl ⟨_, rfl⟩
    | true =>
      cases hp : c.resolvedPolicy with
      | error e =>
        obtain ⟨reason, rfl⟩ := resolvedPolicy_error hp
        exact .inl ⟨reason, rfl⟩
      | ok policy =>
        cases ha : c.address with
        | error e =>
          obtain ⟨reason, rfl⟩ := address_error ha
          exact .inl ⟨reason, rfl⟩
        | ok address => exact .inr ⟨rfl, policy, address, rfl, rfl⟩

theorem of_valid {c : Config} (h : c.validate = .ok ()) :
    ∃ policy address, c.resolvedPolicy = .ok policy ∧ c.address = .ok address := by
  obtain ⟨reason, he⟩ | ⟨-, hresolved⟩ := c.validate_cases
  · rw [h] at he
    cases he
  · exact hresolved

theorem validate_error {c : Config} {e : ConfigError} (h : c.validate = .error e) :
    ∃ reason, e = .invalid reason := by
  obtain ⟨reason, he⟩ | ⟨hok, -⟩ := c.validate_cases
  · exact ⟨reason, Except.error.inj (h.symm.trans he)⟩
  · rw [h] at hok
    cases hok

theorem valid_of {c : Config} (hd : Text.hasInk c.database = true)
    (hn : Text.hasInk c.notifierThread = true) {policy : Policy} (hp : c.resolvedPolicy = .ok policy)
    (address : SocketAddress) (ha : SocketAddress.parse? c.localAddress = some address) :
    c.validate = .ok () ∧ c.address = .ok address := by
  have ha : c.address = .ok address := by rw [Config.address, ha]
  refine ⟨?_, ha⟩
  rw [Config.validate, hd, hn, hp, ha]
  rfl

/-! ### Writing and reading -/

def entries (c : Config) : List (Json.Entry Part) :=
  [⟨⟨"database_name", readPart Json.readText .text, none⟩, .string c.database, .text c.database⟩,
    ⟨⟨"database_id", readPart (Json.readNat UInt32.size "u32") .number, some (.number 0)⟩,
      .nat c.databaseId.toNat, .number c.databaseId.toNat⟩,
    ⟨⟨"policy", readPart PolicySetting.reader .policy, some (.policy (.preset "primary_only"))⟩,
      c.policy.toJson, .policy c.policy⟩,
    ⟨⟨"local_address", readPart Json.readText .text, none⟩, .string c.localAddress, .text c.localAddress⟩,
    ⟨⟨"notifier_thread_name", readPart Json.readText .text, some (.text "lsn-notifier")⟩,
      .string c.notifierThread, .text c.notifierThread⟩]

theorem readPart_returns {read : Json.Reader α} {text : List Char} {a : α} (h : Returns read text a)
    (part : α → Part) : Returns (readPart read part) text (part a) := by
  intro s hs
  rw [readPart, h s hs]
  rfl

theorem entries_read (c : Config) : ∀ e ∈ c.entries, Returns e.field.read e.value.render e.part := by
  simp only [entries, List.forall_mem_cons, List.not_mem_nil, false_implies, implies_true, and_true]
  exact ⟨readPart_returns (Json.readText_literal _) _,
    readPart_returns (Json.readNat_numeral _ c.databaseId.toNat_lt_size (by decide)) _,
    readPart_returns c.policy.reader_toJson _, readPart_returns (Json.readText_literal _) _,
    readPart_returns (Json.readText_literal _) _⟩

theorem reader_toJson (c : Config) : Returns reader c.toJson.render c := by
  intro s hs
  have hnames : (c.entries.map (·.field.name)).Nodup := by
    change ["database_name", "database_id", "policy", "local_address", "notifier_thread_name"].Nodup
    decide
  have hrecord : Json.readRecord "RouterConfig" fields (c.toJson.render ++ s) = .ok (c.entries.map (·.part), s) :=
    Json.Entry.readRecord_object "RouterConfig" c.entries_read hnames s hs
  rw [reader, hrecord]
  obtain ⟨database, id, policy, address, thread⟩ := c
  have hid : id.toNat.toUInt32 = id := UInt32.ofNat_toNat
  simp only [entries, List.map_cons, List.map_nil, bind, Except.bind, hid]
  rfl

/-- The text of a configuration loads exactly if the configuration is valid, and fails with the same complaint
otherwise. -/
theorem ofJson_compact (c : Config) : ofJson c.toJson.compact = c.validate.map fun _ => c := by
  rw [ofJson, (reader_toJson c).run]
  show (c.validate.bind fun _ => .ok c) = _
  cases c.validate <;> rfl

theorem valid_of_ofJson {t : String} {c : Config} (h : ofJson t = .ok c) : c.validate = .ok () := by
  rw [ofJson] at h
  cases hread : reader.run t with
  | error e =>
    rw [hread] at h
    cases h
  | ok read =>
    rw [hread] at h
    have hbound : (read.validate.bind fun _ => .ok read) = .ok c := h
    cases hvalid : read.validate with
    | error e =>
      rw [hvalid] at hbound
      cases hbound
    | ok =>
      rw [hvalid] at hbound
      cases hbound
      exact hvalid

/-- Every configuration survives being written and reloaded: a valid one comes back as it was, an invalid one is
refused with the complaint of its own check, and so whatever was once loaded loads again from its text. -/
theorem reload (c : Config) :
    (c.validate = .ok () → ofJson c.toJson.compact = .ok c) ∧
      (∀ e, c.validate = .error e →
        (∃ reason, e = .invalid reason) ∧ ofJson c.toJson.compact = .error e) ∧
      ∀ t, ofJson t = .ok c → ofJson c.toJson.compact = .ok c := by
  have hvalid : c.validate = .ok () → ofJson c.toJson.compact = .ok c := by
    intro h
    rw [ofJson_compact, h]
    rfl
  refine ⟨hvalid, fun e h => ⟨validate_error h, ?_⟩, fun t h => hvalid (valid_of_ofJson h)⟩
  rw [ofJson_compact, h]
  rfl

/-- Texts that need escapes and flags without a preset; a blank name; and a text in another order, with blanks,
an unknown field and three fields left out. -/
theorem reload_escaped :
    let c : Config := { database := "a\"b\\c\nd\x07é", databaseId := 4294967295, policy := .flags ⟨true, false⟩,
                        localAddress := "10.0.0.1:32222", notifierThread := "\tlsn\x00" }
    let blank : Config := { c with database := " \n" }
    let fault : ConfigError := .invalid "database_name must not be empty"
    let text := "\x7b \"local_address\": \"10.0.0.1:32222\", \"x\": [1], \"database_name\": \"a\\u0062\" \x7d"
    let d : Config := { database := "ab", localAddress := "10.0.0.1:32222" }
    (c.validate = .ok () ∧ ofJson c.toJson.compact = .ok c) ∧
      (blank.validate = .error fault ∧ ofJson blank.toJson.compact = .error fault) ∧
      ofJson text = .ok d ∧ ofJson d.toJson.compact = .ok d := by
  intro c blank fault text d
  have hc : c.validate = .ok () :=
    (valid_of (c := c) (by decide) (by decide) rfl ⟨.v4 10 0 0 1, 32222⟩ (by decide +kernel)).1
  have hblank : blank.validate = .error fault := by
    rw [validate, show Text.hasInk blank.database = false by decide]
    rfl
  have htext : ofJson text = .ok d := by
    have h : (ofJson text).toOption = some d := by decide +kernel
    cases hread : ofJson text with
    | error e =>
      rw [hread] at h
      cases h
    | ok read =>
      rw [hread] at h
      rw [Option.some.inj h]
  exact ⟨⟨hc, (reload c).1 hc⟩, ⟨hblank, ((reload blank).2.1 fault hblank).2⟩, htext, (reload d).2.2 text htext⟩

end Config
end ReplicaRouting
