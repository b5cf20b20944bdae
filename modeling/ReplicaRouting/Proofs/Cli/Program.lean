import ReplicaRouting.Cli.Program
import ReplicaRouting.Proofs.Cli.Reporting
/-!
The exit of the whole program. The file that a command reads is an entry of the directory under the last name in its
path; no entry that the path does not name counts, and a command that succeeds has read a valid configuration.
-/

namespace ReplicaRouting

namespace Directory

section Follow
variable {d d' : Directory} {bytes : ByteArray}

theorem follow_eq_file {place : Place} {part : String} (hplace : ∀ b, place ≠ .file b)
    (h : d.follow place part = .ok (.file bytes)) : d.lookup part = some (.file bytes) := by
  cases place with
  | file b => exact absurd rfl (hplace b)
  | above n | top | inside =>
    simp only [follow] at h
    repeat' split at h
    all_goals simp_all

theorem foldlM_follow_eq_file {place : Place} {parts : List String} (hplace : ∀ b, place ≠ .file b)
    (h : parts.foldlM d.follow place = .ok (.file bytes)) :
    ∃ name, parts.getLast? = some name ∧ d.lookup name = some (.file bytes) := by
  induction parts generalizing place with
  | nil => exact absurd (Except.ok.inj h) (hplace bytes)
  | cons part rest ih =>
    rw [List.foldlM_cons] at h
    cases hnext : d.follow place part with
    | error fault =>
      rw [hnext] at h
      cases h
    | ok next =>
      rw [hnext] at h
      cases rest with
      | nil =>
        cases h
        exact ⟨part, rfl, follow_eq_file hplace hnext⟩
      | cons part' rest =>
        -- behind a file no path goes on
        have hfile : ∀ b, next ≠ .file b := by
          rintro b rfl
          cases h
        obtain ⟨name, hname, hentry⟩ := ih hfile h
        exact ⟨name, by rwa [List.getLast?_cons_cons], hentry⟩

theorem open?_eq_ok {path : String} (h : d.open? path = .ok bytes) :
    ∃ name, (names path).getLast? = some name ∧ d.lookup name = some (.file bytes) := by
  simp only [open?] at h
  repeat' split at h
  all_goals cases h
  rename_i hfollow
  refine foldlM_follow_eq_file (fun b => ?_) hfollow
  split <;> exact nofun

theorem follow_congr {place : Place} {part : String} (h : d.lookup part = d'.lookup part) :
    d.follow place part = d'.follow place part := by
  unfold follow
  rw [h]

theorem foldlM_follow_congr {place : Place} {parts : List String}
    (h : ∀ part ∈ parts, d.lookup part = d'.lookup part) :
    parts.foldlM d.follow place = parts.foldlM d'.follow place := by
  induction parts generalizing place with
  | nil => rfl
  | cons part rest ih =>
    rw [List.foldlM_cons, List.foldlM_cons, follow_congr (h part List.mem_cons_self)]
    exact congrArg _ (funext fun next => ih fun part' hpart => h part' (List.mem_cons_of_mem _ hpart))

theorem open?_congr {path : String} (h : ∀ part ∈ names path, d.lookup part = d'.lookup part) :
    d.open? path = d'.open? path := by
  simp only [open?, foldlM_follow_congr h]

end Follow
end Directory

namespace Cli

variable {d d' : Directory} {args : List String} {command : Command}

theorem exitIn_of_command (h : Command.ofArguments args = .ok command) :
    exitIn d args = command.run (d.open? command.path) := by
  unfold exitIn program
  rw [h]
  rfl

theorem exitIn_of_usage {usage : Usage} (h : Command.ofArguments args = .error usage) :
    exitIn d args = usage.exit := by
  unfold exitIn program
  rw [h]
  rfl

/-- After a command the program exits with zero if the command has an answer, and with one if it has a fault. -/
theorem exitIn_code (h : Command.ofArguments args = .ok command) :
    (exitIn d args).code = 0 ∧ (∃ data, command.answer (d.open? command.path) = .ok data) ∨
      (exitIn d args).code = 1 ∧ ∃ e, command.answer (d.open? command.path) = .error e := by
  rw [exitIn_of_command h]
  cases hanswer : command.answer (d.open? command.path) with
  | ok data => exact .inl ⟨by rw [Command.run_of_ok hanswer], data, rfl⟩
  | error e => exact .inr ⟨by rw [Command.run_of_error hanswer], e, rfl⟩

theorem exitIn_succeeds (h : Command.ofArguments args = .ok command) (hcode : (exitIn d args).code = 0) :
    ∃ name bytes c, (Directory.names command.path).getLast? = some name ∧
      d.lookup name = some (.file bytes) ∧ Config.load command.path (.ok bytes) = .ok c ∧ c.validate = .ok () := by
  obtain ⟨-, data, hdata⟩ | ⟨hone, -⟩ := exitIn_code (d := d) h
  · cases hload : Config.load command.path (d.open? command.path) with
    | error e =>
      rw [Command.answer_of_unloaded hload] at hdata
      cases hdata
    | ok c =>
      cases hfile : d.open? command.path with
      | error fault =>
        rw [hfile] at hload
        cases hload
      | ok bytes =>
        rw [hfile] at hload
        obtain ⟨name, hname, hentry⟩ := Directory.open?_eq_ok hfile
        exact ⟨name, bytes, c, hname, hentry, hload, load_valid hload⟩
  · rw [hone] at hcode
    exact absurd hcode (by decide)

/-- Entries that the path of the command does not name make no difference. -/
theorem exitIn_congr (h : ∀ command, Command.ofArguments args = .ok command →
    ∀ part ∈ Directory.names command.path, d.lookup part = d'.lookup part) :
    exitIn d args = exitIn d' args := by
  cases hargs : Command.ofArguments args with
  | error usage => rw [exitIn_of_usage hargs, exitIn_of_usage hargs]
  | ok command => rw [exitIn_of_command hargs, exitIn_of_command hargs, Directory.open?_congr (h command hargs)]

end Cli
end ReplicaRouting
