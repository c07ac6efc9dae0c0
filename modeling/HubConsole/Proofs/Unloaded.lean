import HubConsole.Proofs.Unattended

/-! # A settings file that cannot be loaded

A run that cannot load the settings file goes on without settings of its own, as if the file were
empty (`store_start_of_rejected`). At its end it saves what it has; so unless a setting was changed
meanwhile, a document without values is saved over the bytes that are no settings
(`unloaded_replaced`). -/

namespace HubConsole.Launch
open Setting Store

variable {o : Options} {w : Surroundings} {path : String} {args : List String} {e : Content.Error}
  {s : Session} {b : ByteArray}

theorem beginning_of_rejected (file : settingsFile o w.home = .ok path)
    (rejected : w.content.load path = .error e) : (beginning o w).1 = [] := by
  unfold beginning
  rw [file]
  dsimp only
  rw [rejected]

/-- What cannot be loaded counts as no settings at all. -/
theorem store_start_of_rejected (file : settingsFile o w.home = .ok path)
    (rejected : w.content.load path = .error e) :
    (start o w).2.store = .empty (w.home.getD "/") := by
  rw [store_start, beginning_of_rejected file rejected]
  rfl

theorem ending_of_empty {home : String} (h : s.store = .empty home) :
    ending s = writeDocument [] := by
  rw [ending, h]
  rfl

/-- A document without values can be loaded, so it is none of those that cannot. -/
theorem toUTF8_ne_of_rejected (rejected : Content.load path (.bytes b) = .error e) :
    (writeDocument []).toUTF8 ≠ b := by
  rintro rfl
  rw [load_writeDocument] at rejected
  cases rejected

/-- A run without a terminal that finds bytes in the settings file which cannot be loaded saves a
document without values there, and that is never what the bytes were. So does every run, whatever
happens in it, at whose end the settings are those that it began with. -/
theorem unloaded_replaced (runs : task args = .run o) (file : settingsFile o w.home = .ok path)
    (held : w.content = .bytes b) (rejected : Content.load path (.bytes b) = .error e) :
    leaves? args w = some (writeDocument []) ∧ (writeDocument []).toUTF8 ≠ b ∧
    ∀ es, ((start o w).2.after es).store = (start o w).2.store →
      ending ((start o w).2.after es) = writeDocument [] := by
  have hstart := store_start_of_rejected file (held ▸ rejected)
  refine ⟨?_, toUTF8_ne_of_rejected rejected, fun es hkept =>
    ending_of_empty (hkept.trans hstart)⟩
  rw [leaves?_of_run runs]
  exact congrArg some (ending_of_empty hstart)

/-- A comma too many, after a hub with its address. -/
theorem unloaded_replaced_comma :
    let text := "[[[2,\"hubname\",\"a\"],[2,\"hubaddr\",\"adcs://h:1/\"],]]"
    let w : Surroundings := ⟨none, .bytes text.toUTF8, none, .ofTimestamp 0 0⟩
    task ["--config", "s.json"] = .run ⟨some "s.json", none, true⟩ ∧
      w.content.load "s.json" = .error (.malformed "s.json" "not a settings document") ∧
      leaves? ["--config", "s.json"] w = some "\x7b\n  \"vars\": []\n\x7d" := by
  intro text w
  have hruns : task ["--config", "s.json"] = .run ⟨some "s.json", none, true⟩ := by
    decide +kernel
  have hread : readDocument? text = none := by decide +kernel
  have hload := load_toUTF8_of_none "s.json" hread
  have hdocument : writeDocument [] = "\x7b\n  \"vars\": []\n\x7d" := by decide
  exact ⟨hruns, hload, hdocument ▸ (unloaded_replaced (w := w) hruns rfl rfl hload).1⟩

/-- It is not so that a settings file that cannot be loaded is left as it is. -/
theorem not_unloaded_kept : ¬ ∀ (args : List String) (o : Options) (w : Surroundings)
    (path text : String) (e : Content.Error), task args = .run o →
      settingsFile o w.home = .ok path → w.content = .bytes text.toUTF8 →
      w.content.load path = .error e → leaves? args w = some text := by
  intro hkept
  let w : Surroundings := ⟨some "/home", .bytes "not json".toUTF8, none, .ofTimestamp 0 0⟩
  have hread : readDocument? "not json" = none := by decide +kernel
  have hfile : settingsFile .start w.home = .ok "/home/.config/dcline/settings.json" := by
    decide +kernel
  have hload := load_toUTF8_of_none "/home/.config/dcline/settings.json" hread
  have hleft : leaves? [] w = some "not json" := hkept [] .start w _ _ _ rfl hfile rfl hload
  have hempty : leaves? [] w = some (writeDocument []) :=
    congrArg some (ending_of_empty (store_start_of_rejected hfile hload))
  rw [hempty] at hleft
  exact absurd hleft (by decide)

end HubConsole.Launch
