import ReplicaRouting.Cli.Report
import ReplicaRouting.Proofs.Config.Reload
/-!
What a run leaves behind: one line with one JSON object, whatever the texts in it are, and an exit code that
says the same. A command fails on its file or on the primary it is given, and on nothing after that.
-/

namespace ReplicaRouting.Cli

open Json (Value)
open Net (SocketAddress)

/-! ### The line -/

theorem describeConfig_fits {c : Config} {data : Value} (h : describeConfig c = .ok data) : data.Fits 3 := by
  unfold describeConfig at h
  cases hp : c.resolvedPolicy with
  | error e =>
    rw [hp] at h
    cases h
  | ok policy =>
    cases ha : c.address with
    | error e =>
      rw [hp, ha] at h
      cases h
    | ok address =>
      rw [hp, ha] at h
      cases h
      refine .object fun m hm => ?_
      have hid : c.databaseId.toNat < UInt64.size := Nat.lt_of_lt_of_le c.databaseId.toNat_lt_size (by decide)
      simp only [List.mem_cons, List.not_mem_nil, or_false] at hm
      rcases hm with rfl | rfl | rfl | rfl | rfl | rfl | rfl
      · exact .number hid
      iterate 4 exact .string _
      iterate 2 exact .bool _

theorem table_fits (t : RoutingTable) : t.toJson.Fits 3 := by
  refine .object fun m hm => ?_
  simp only [List.mem_cons, List.not_mem_nil, or_false] at hm
  rcases hm with rfl | rfl | rfl | rfl | rfl
  · exact .string _
  · exact .string _
  · cases t.snapshot.primary with
    | none => exact .null
    | some p => exact .string p.text
  · exact .string _
  · refine .array fun v hv => ?_
    obtain ⟨⟨op, route⟩, -, rfl⟩ := List.mem_map.1 hv
    refine .object fun m hm => ?_
    simp only [List.mem_cons, List.not_mem_nil, or_false] at hm
    rcases hm with rfl | rfl <;> exact .string _

/-! ### When a command fails -/

theorem describeConfig_ok {c : Config} (h : c.validate = .ok ()) : ∃ data, describeConfig c = .ok data := by
  obtain ⟨policy, address, hp, ha⟩ := Config.of_valid h
  rw [describeConfig, hp, ha]
  exact ⟨_, rfl⟩

theorem ofConfig_ok {c : Config} (h : c.validate = .ok ()) (primary : Option SocketAddress) (attached : Bool) :
    ∃ table, RoutingTable.ofConfig c primary attached = .ok table := by
  obtain ⟨policy, address, hp, ha⟩ := Config.of_valid h
  rw [RoutingTable.ofConfig, hp, ha]
  exact ⟨_, rfl⟩

theorem load_valid {path : String} {file : FileState} {c : Config} (h : Config.load path file = .ok c) :
    c.validate = .ok () := by
  unfold Config.load at h
  split at h
  · cases h
  · exact Config.valid_of_ofJson h

theorem text_toUTF8 (s : String) : FileState.text (.ok s.toUTF8) = .ok s := by
  have h : String.fromUTF8? s.toUTF8 = some s := dif_pos s.isValidUTF8
  rw [FileState.text, h]

theorem readPrimary_ok {primary : Option String} :
    (∃ p, readPrimary primary = .ok p) ↔ ∀ text ∈ primary, ∃ address, SocketAddress.parse? text = some address := by
  cases primary with
  | none => exact ⟨fun _ => nofun, fun _ => ⟨none, rfl⟩⟩
  | some text =>
    unfold readPrimary
    simp only [Option.mem_def, Option.some.injEq, forall_eq']
    cases SocketAddress.parse? text with
    | none => exact ⟨nofun, nofun⟩
    | some address => exact ⟨fun _ => ⟨address, rfl⟩, fun _ => ⟨some address, rfl⟩⟩

namespace Command

variable {command : Command} {file : FileState}

/-- A file that does not load decides, whatever else is wrong. -/
theorem answer_of_unloaded {e : ConfigError} (h : Config.load command.path file = .error e) :
    command.answer file = .error (.ofConfig e) := by
  rw [answer, h]
  rfl

theorem answer_checkConfig {path : String} {c : Config} (h : Config.load path file = .ok c) :
    (checkConfig path).answer file = (describeConfig c).mapError .ofConfig := by
  rw [answer, show Config.load (checkConfig path).path file = .ok c from h]
  rfl

theorem answer_explain {path : String} {primary : Option String} {attached : Bool} {c : Config}
    (h : Config.load path file = .ok c) :
    (explain path primary attached).answer file = (readPrimary primary).bind fun p =>
      ((RoutingTable.ofConfig c p attached).mapError .ofConfig).map RoutingTable.toJson := by
  rw [answer, show Config.load (explain path primary attached).path file = .ok c from h]
  show ((readPrimary primary).bind fun p =>
    ((RoutingTable.ofConfig c p attached).mapError .ofConfig).bind fun table => .ok table.toJson) = _
  cases readPrimary primary with
  | error e => rfl
  | ok p =>
    simp only [Except.bind]
    cases (RoutingTable.ofConfig c p attached).mapError Error.ofConfig <;> rfl

theorem checkConfig_succeeds (path : String) :
    (∃ data, (checkConfig path).answer file = .ok data) ↔ ∃ c, Config.load path file = .ok c := by
  cases h : Config.load path file with
  | error e =>
    rw [show (checkConfig path).answer file = _ from answer_of_unloaded h]
    exact ⟨nofun, nofun⟩
  | ok c =>
    obtain ⟨data, hdata⟩ := describeConfig_ok (load_valid h)
    rw [answer_checkConfig h, hdata]
    exact ⟨fun _ => ⟨c, rfl⟩, fun _ => ⟨data, rfl⟩⟩

theorem explain_succeeds (path : String) (primary : Option String) (attached : Bool) :
    (∃ data, (explain path primary attached).answer file = .ok data) ↔
      (∃ c, Config.load path file = .ok c) ∧
        ∀ text ∈ primary, ∃ address, SocketAddress.parse? text = some address := by
  rw [← readPrimary_ok]
  cases h : Config.load path file with
  | error e =>
    rw [show (explain path primary attached).answer file = _ from answer_of_unloaded h]
    exact ⟨nofun, nofun⟩
  | ok c =>
    rw [answer_explain h]
    cases readPrimary primary with
    | error e => exact ⟨nofun, nofun⟩
    | ok p =>
      obtain ⟨table, htable⟩ := ofConfig_ok (load_valid h) p attached
      simp only [Except.bind, htable]
      exact ⟨fun _ => ⟨⟨c, rfl⟩, p, rfl⟩, fun _ => ⟨table.toJson, rfl⟩⟩

theorem answer_fits {data : Value} (h : command.answer file = .ok data) : data.Fits 3 := by
  cases hload : Config.load command.path file with
  | error e =>
    rw [answer_of_unloaded hload] at h
    cases h
  | ok c =>
    cases command with
    | checkConfig path =>
      obtain ⟨described, hdescribed⟩ := describeConfig_ok (load_valid hload)
      have hload : Config.load path file = .ok c := hload
      rw [answer_checkConfig hload, hdescribed] at h
      cases h
      exact describeConfig_fits hdescribed
    | explain path primary attached =>
      have hload : Config.load path file = .ok c := hload
      rw [answer_explain hload] at h
      cases hp : readPrimary primary with
      | error e =>
        rw [hp] at h
        cases h
      | ok p =>
        obtain ⟨table, htable⟩ := ofConfig_ok (load_valid hload) p attached
        rw [hp] at h
        simp only [Except.bind, htable] at h
        cases h
        exact table_fits table

/-! ### What is left behind -/

theorem run_of_ok {data : Value} (h : command.answer file = .ok data) :
    command.run file = ⟨0, reportLine (.ok data), ""⟩ := by
  simp only [run, h]

theorem run_of_error {e : Error} (h : command.answer file = .error e) :
    command.run file = ⟨1, reportLine (.error e), e.text ++ "\n"⟩ := by
  simp only [run, h]

theorem reportLine_parses (command : Command) (file : FileState) : ∃ line,
    (reportLine (command.answer file)).toList = line ++ ['\n'] ∧ '\n' ∉ line ∧
      Json.parse (String.ofList line) = .ok (envelope (command.answer file)) := by
  have hfits : (envelope (command.answer file)).Fits 4 := by
    cases h : command.answer file with
    | ok data =>
      refine .object fun m hm => ?_
      simp only [List.mem_cons, List.not_mem_nil, or_false] at hm
      rcases hm with rfl | rfl
      · exact answer_fits h
      · exact .string _
    | error e =>
      refine .object fun m hm => ?_
      simp only [List.mem_cons, List.not_mem_nil, or_false] at hm
      rcases hm with rfl | rfl | rfl <;> exact .string _
  refine ⟨(envelope (command.answer file)).render, String.toList_ofList, fun hbreak => ?_,
    Json.parse_compact (hfits.mono (by decide))⟩
  exact absurd (hfits.printable _ hbreak) (by decide)

/-- A run reports exactly once and fails exactly when it should. The line is an object with the data and status
`ok`, or with the error and status `error`; the exit code and the other output say the same. A file that does
not load decides first; then only the primary can be at fault. -/
theorem run_reports (command : Command) (file : FileState) :
    let answer := command.answer file
    let exit := command.run file
    (∃ line, exit.out.toList = line ++ ['\n'] ∧ '\n' ∉ line ∧
      (∀ data, answer = .ok data → exit.code = 0 ∧ exit.err = "" ∧
        Json.parse (String.ofList line) = .ok (.object [("data", data), ("status", .string "ok")])) ∧
      ∀ e, answer = .error e → exit.code = 1 ∧ exit.err = e.text ++ "\n" ∧
        Json.parse (String.ofList line) = .ok (.object [("code", .string e.fault.name),
          ("message", .string e.message), ("status", .string "error")])) ∧
      (match command with
        | .checkConfig path => (∃ data, answer = .ok data) ↔ ∃ c, Config.load path file = .ok c
        | .explain path primary _ => (∃ data, answer = .ok data) ↔
            (∃ c, Config.load path file = .ok c) ∧
              ∀ text ∈ primary, ∃ address, SocketAddress.parse? text = some address) ∧
      (∀ e, Config.load command.path file = .error e → answer = .error (.ofConfig e)) ∧
      ∀ c, Config.load command.path file = .ok c →
        (∃ policy address, c.resolvedPolicy = .ok policy ∧ c.address = .ok address) ∧
          ∀ primary attached, ∃ table, RoutingTable.ofConfig c primary attached = .ok table := by
  intro answer exit
  refine ⟨?_, ?_, fun e h => answer_of_unloaded h,
    fun c h => ⟨Config.of_valid (load_valid h), ofConfig_ok (load_valid h)⟩⟩
  · obtain ⟨line, hline, hbreak, hparse⟩ := reportLine_parses command file
    refine ⟨line, ?_, hbreak, fun data h => ?_, fun e h => ?_⟩
    · cases h : command.answer file with
      | ok data =>
        rw [h] at hline
        exact (congrArg (String.toList ∘ Exit.out) (run_of_ok h)).trans hline
      | error e =>
        rw [h] at hline
        exact (congrArg (String.toList ∘ Exit.out) (run_of_error h)).trans hline
    · have hrun : exit = _ := run_of_ok h
      exact hrun ▸ ⟨rfl, rfl, hparse.trans (congrArg (Except.ok ∘ envelope) h)⟩
    · have hrun : exit = _ := run_of_error h
      exact hrun ▸ ⟨rfl, rfl, hparse.trans (congrArg (Except.ok ∘ envelope) h)⟩
  · cases command with
    | checkConfig path => exact checkConfig_succeeds path
    | explain path primary attached => exact explain_succeeds path primary attached

/-- A path with a line break that names no file, with a primary that is no address; the same primary with a
good file; and a good file with a good primary. -/
theorem run_reports_faults :
    let c : Config := { database := "a\nb", localAddress := "10.0.0.1:32222" }
    let file : FileState := .ok c.toJson.compact.toUTF8
    let absent := (explain "no\nfile" (some "primary") false).run (.error .absent)
    let refused := (explain "config" (some "primary") false).run file
    let described := (explain "config" (some "10.0.0.2:32222") false).run file
    (absent.code = 1 ∧ absent.out.toList.count '\n' = 1 ∧
        absent.err = (Error.ofConfig (.unreadable ("no\nfile" ++ ": " ++ FileFault.absent.reason))).text ++ "\n") ∧
      (refused.code = 1 ∧
        refused.err = (Error.mk .argument (Config.notAnAddress "--primary" "primary")).text ++ "\n") ∧
      described.code = 0 ∧ described.err = "" := by
  intro c file absent refused described
  have hc : c.validate = .ok () :=
    (Config.valid_of (c := c) (by decide) (by decide) rfl ⟨.v4 10 0 0 1, 32222⟩ (by decide +kernel)).1
  have hload : ∀ path, Config.load path file = .ok c := by
    intro path
    rw [Config.load, text_toUTF8]
    exact (Config.ofJson_compact c).trans (by rw [hc]; rfl)
  have haddress : SocketAddress.parse? "10.0.0.2:32222" = some ⟨.v4 10 0 0 2, 32222⟩ := by decide +kernel
  have hprimary : SocketAddress.parse? "primary" = none := by decide +kernel
  refine ⟨?_, ?_, ?_⟩
  · obtain ⟨⟨line, hout, hbreak, -, herror⟩, -, hunloaded, -⟩ :=
      run_reports (explain "no\nfile" (some "primary") false) (.error .absent)
    obtain ⟨hcode, herr, -⟩ := herror _ (hunloaded _ rfl)
    refine ⟨hcode, ?_, herr⟩
    rw [hout, List.count_append, List.count_eq_zero.2 hbreak]
    rfl
  · obtain ⟨⟨_, -, -, -, herror⟩, -⟩ := run_reports (explain "config" (some "primary") false) file
    have hanswer : (explain "config" (some "primary") false).answer file =
        .error ⟨.argument, Config.notAnAddress "--primary" "primary"⟩ := by
      rw [answer_explain (hload _)]
      unfold readPrimary
      simp only [hprimary]
      rfl
    exact ⟨(herror _ hanswer).1, (herror _ hanswer).2.1⟩
  · obtain ⟨⟨_, -, -, hok, -⟩, hsucceeds, -⟩ := run_reports (explain "config" (some "10.0.0.2:32222") false) file
    obtain ⟨data, hdata⟩ := hsucceeds.2 ⟨⟨c, hload _⟩, by rintro _ ⟨⟩; exact ⟨_, haddress⟩⟩
    exact ⟨(hok data hdata).1, (hok data hdata).2.1⟩

end Command

end ReplicaRouting.Cli
